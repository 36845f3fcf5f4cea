import GpuStack.Admission.Demand
import GpuStack.Lib.Select

/-!
# Admission/Fit — the greedy fit of demands on cards

`nodeDevicesFeasibility` walks the demands in order and charges the room each takes to one budget per
card: the demands of Workloads already answered Ready first, then the Workload's own.  Each family
has its own fitter.  A fitter that runs out of room keeps what it took and answers Retry.

The cards stand at the indices of the flat list `collectCards` builds, and a budget is a function of
the index.
-/

namespace GpuStack

/-! ## Verdicts -/

inductive CheckState
  | ready
  | retry
deriving DecidableEq, Repr

/-- A name in quotes; the names quoted here hold nothing that would be escaped. -/
def quoted (name : String) : String := "\"" ++ name ++ "\""

/-- ` for role "x"`, empty when there is none. -/
def forRoles (podSets : List String) : String :=
  match (podSets.map quoted).insertionSort (· ≤ ·) with
  | [] => ""
  | [name] => " for role " ++ name
  | names => " for roles " ++ String.intercalate ", " names

def verdictMessage (state : CheckState) (podSets : List String) : String :=
  match state with
  | .ready => "the assigned flavor pool has enough free cards to place the request" ++
      forRoles podSets
  | .retry => "no node in the assigned flavor pool currently has enough free cards" ++
      forRoles podSets ++ "; will retry as capacity frees"

def assignedNodeMessage (state : CheckState) (d : FamilyDemand) : String :=
  match state with
  | .ready => "the node " ++ quoted d.node ++
      " Kueue assigned has enough free cards to place the request" ++ forRoles d.podSets
  | .retry => "no card on the node " ++ quoted d.node ++ " Kueue assigned can host the request" ++
      forRoles d.podSets ++
      "; Kueue's topology-aware scheduling sees only the node's summed capacity and may assign " ++
      "the same node again, so this retries until that node's cards free, even while another " ++
      "node has room"

def demandVerdictMessage (state : CheckState) (d : FamilyDemand) : String :=
  if d.node ≠ "" then assignedNodeMessage state d else verdictMessage state d.podSets

def partitionLedgerNotReadyMessage (podSets : List String) : String :=
  "the partition placement ledger is not ready on the assigned flavor pool" ++ forRoles podSets ++
    " (device manager rolling out); will retry"

def partitionVerdictMessage (state : CheckState) (profile : String) (podSets : List String) :
    String :=
  match state with
  | .ready => "the assigned flavor pool has enough partitioned cards with a free " ++
      quoted profile ++ " placement" ++ forRoles podSets
  | .retry => "no partitioned card in the assigned flavor pool currently has a free " ++
      quoted profile ++ " placement" ++ forRoles podSets ++ "; will retry as capacity frees"

def partitionNoCardsMessage (profile : String) (podSets : List String) : String :=
  "the assigned flavor pool has no partitioned card for profile " ++ quoted profile ++
    forRoles podSets ++ "; partition a card in this pool (will retry)"

/-- The end of a Retry reached with inflight demands counted. -/
def inflightClause : String :=
  "; cards promised to Workloads admitted before this one, whose Pods have not received them " ++
    "yet, are counted as taken"

/-! ## Budgets -/

/-- What the demands fitted so far took of one card. -/
structure CardBudget where
  whole : Bool := false
  shares : ℕ := 0
  units : ℕ := 0
  slices : ℕ := 0
  placements : ℕ := 0
deriving DecidableEq, Repr

/-- One budget per card. -/
abbrev Budgets (n : ℕ) := Fin n → CardBudget

variable {n : ℕ}

/-! ## Exclusive demands -/

/-- The exclusive fit passes the card over. -/
def skipsWhole (cards : Fin n → CardLedger) (budgets : Budgets n) (d : FamilyDemand) (i : Fin n) :
    Bool :=
  (budgets i).whole || 0 < (budgets i).shares || 0 < (budgets i).slices || !(cards i).coveredBy d ||
    !(cards i).servesFamily d.family || (cards i).remaining < resourceMaxUnits

/-- Take whole cards down the list until `d.cards` are taken; `fit` are already. -/
def takeWhole (cards : Fin n → CardLedger) (d : FamilyDemand) :
    List (Fin n) → ℕ → Budgets n → Budgets n × CheckState
  | [], _, budgets => (budgets, .retry)
  | i :: is, fit, budgets =>
    if skipsWhole cards budgets d i then takeWhole cards d is fit budgets else
      let budgets' := Function.update budgets i { budgets i with whole := true }
      if d.cards ≤ fit + 1 then (budgets', .ready) else takeWhole cards d is (fit + 1) budgets'

def fitExclusiveDemand (cards : Fin n → CardLedger) (budgets : Budgets n) (d : FamilyDemand) :
    Budgets n × CheckState × String :=
  let (budgets', state) := takeWhole cards d (List.finRange n) 0 budgets
  (budgets', state, demandVerdictMessage state d)

/-! ## Shared demands -/

/-- The shares a holder of this demand can still take of the card. -/
def freeSharesOf (cards : Fin n → CardLedger) (budgets : Budgets n) (d : FamilyDemand) (i : Fin n) :
    ℤ :=
  if (budgets i).whole || 0 < (budgets i).slices || !(cards i).coveredBy d then 0
  else (cards i).freeShares - (budgets i).shares

/-- The cards of one host that still have a free share. -/
def sharesOnHost (cards : Fin n → CardLedger) (budgets : Budgets n) (d : FamilyDemand)
    (host : String) : List (Fin n) :=
  (List.finRange n).filter fun i => 0 < freeSharesOf cards budgets d i && (cards i).hostname = host

/-- The hosts with a free share, in name order. -/
def hostsWithShares (cards : Fin n → CardLedger) (budgets : Budgets n) (d : FamilyDemand) :
    List String :=
  ((((List.finRange n).filter fun i => 0 < freeSharesOf cards budgets d i).map
    fun i => (cards i).hostname).dedup).insertionSort (· ≤ ·)

/-- A host against the best so far: it must have strictly more cards. -/
def widerHost (cards : Fin n → CardLedger) (budgets : Budgets n) (d : FamilyDemand)
    (chosen : List (Fin n)) (host : String) : List (Fin n) :=
  if chosen.length < (sharesOnHost cards budgets d host).length
  then sharesOnHost cards budgets d host else chosen

/-- The cards of the host with the most of them; of several such hosts, the first by name. -/
def chosenCards (cards : Fin n → CardLedger) (budgets : Budgets n) (d : FamilyDemand) :
    List (Fin n) :=
  (hostsWithShares cards budgets d).foldl (widerHost cards budgets d) []

/-- Give one share of each card. -/
def giveShares (budgets : Budgets n) (is : List (Fin n)) : Budgets n :=
  is.foldl (fun b i => Function.update b i { b i with shares := (b i).shares + 1 }) budgets

/-- Place one holder: the fullest cards of the chosen host come first. -/
def placeHolder (cards : Fin n → CardLedger) (d : FamilyDemand) (need : ℕ) (budgets : Budgets n) :
    Option (Budgets n) :=
  let chosen := chosenCards cards budgets d
  if chosen.length < need then none else
    some (giveShares budgets ((chosen.insertionSort fun a b =>
      freeSharesOf cards budgets d b ≤ freeSharesOf cards budgets d a).take need))

/-- Place so many holders of one need. -/
def placeHolders (cards : Fin n → CardLedger) (d : FamilyDemand) (need : ℕ) :
    ℕ → Budgets n → Budgets n × CheckState
  | 0, budgets => (budgets, .ready)
  | k + 1, budgets =>
    match placeHolder cards d need budgets with
    | none => (budgets, .retry)
    | some budgets' => placeHolders cards d need k budgets'

/-- Place every holder, need by need. -/
def placeNeeds (cards : Fin n → CardLedger) (d : FamilyDemand) :
    List SharedNeed → Budgets n → Budgets n × CheckState
  | [], budgets => (budgets, .ready)
  | need :: needs, budgets =>
    match placeHolders cards d need.cards need.containers budgets with
    | (budgets', .retry) => (budgets', .retry)
    | (budgets', .ready) => placeNeeds cards d needs budgets'

def fitSharedDemand (cards : Fin n → CardLedger) (budgets : Budgets n) (d : FamilyDemand) :
    Budgets n × CheckState × String :=
  let (budgets', state) := placeNeeds cards d d.sharedNeeds budgets
  (budgets', state, demandVerdictMessage state d)

/-! ## Sliced demands -/

/-- The units a slice of this demand can still take of the card, `-1` when it can take none. -/
def freeUnits (cards : Fin n → CardLedger) (budgets : Budgets n) (d : FamilyDemand) (i : Fin n) :
    ℤ :=
  let c := cards i
  if c.freeSliceUnits < 0 || (budgets i).whole || 0 < (budgets i).shares || !c.coveredBy d ||
      c.freeSlots ≤ (budgets i).slices then -1
  else c.freeSliceUnits - (budgets i).units

/-- The card with the fewest free units that still fit a slice; of several, the first. -/
def bestCard (cards : Fin n → CardLedger) (budgets : Budgets n) (d : FamilyDemand) :
    Option (Fin n) :=
  Select.firstMin (fun i => (d.unitsPerCard : ℤ) ≤ freeUnits cards budgets d i)
    (freeUnits cards budgets d) (List.finRange n)

/-- Charge one slice to a card. -/
def giveSlice (budgets : Budgets n) (u : ℕ) (i : Fin n) : Budgets n :=
  Function.update budgets i
    { budgets i with units := (budgets i).units + u, slices := (budgets i).slices + 1 }

/-- Place so many slices, one by one. -/
def placeSlices (cards : Fin n → CardLedger) (d : FamilyDemand) :
    ℕ → Budgets n → Budgets n × CheckState
  | 0, budgets => (budgets, .ready)
  | k + 1, budgets =>
    match bestCard cards budgets d with
    | none => (budgets, .retry)
    | some i => placeSlices cards d k (giveSlice budgets d.unitsPerCard i)

def fitSlicedDemand (cards : Fin n → CardLedger) (budgets : Budgets n) (d : FamilyDemand) :
    Budgets n × CheckState × String :=
  let (budgets', state) := placeSlices cards d d.cards budgets
  (budgets', state, demandVerdictMessage state d)

/-! ## Partition demands -/

/-- The manufacturers whose library writes a profile without the separator. -/
def separatorlessPartitionedProfileManufacturers : List String := ["thead"]

/-- The two numbers of a published geometry `<digits>g.<digits>gb`. -/
def publishedGeometry (profile : List Char) : Option (List Char × List Char) :=
  let (slices, rest) := profile.span Char.isDigit
  match rest with
  | 'g' :: '.' :: rest =>
    let (memory, rest) := rest.span Char.isDigit
    if slices ≠ [] ∧ memory ≠ [] ∧ rest = ['g', 'b'] then some (slices, memory) else none
  | _ => none

/-- A published profile name in its manufacturer's spelling. -/
def vendorPartitionedProfileName (manufacturer profile : String) : String :=
  if manufacturer ∈ separatorlessPartitionedProfileManufacturers then
    match publishedGeometry profile.toList with
    | some (slices, memory) => String.ofList (slices ++ 'g' :: memory ++ ['g', 'b'])
    | none => profile
  else profile

/-- Some profile carries a cached placement set. -/
def partitionProfilesHavePlacements (profiles : List AcceleratorPhysicalSlicedProfile) : Bool :=
  profiles.any fun p => p.placements ≠ []

/-- How many more instances of a profile the card can build. -/
def remainingProfileCount (profiles : List AcceleratorProfileCount) (profile : String) : ℤ :=
  ((profiles.find? fun p => p.name = profile).map (·.count)).getD 0

/-- The instances of the demand's profile the card can still take. -/
def freePlacements (cards : Fin n → CardLedger) (budgets : Budgets n) (d : FamilyDemand)
    (i : Fin n) : ℤ :=
  remainingProfileCount (cards i).remainingProfiles
    (vendorPartitionedProfileName (cards i).manufacturer d.profile) - (budgets i).placements

/-- What the partition walk has seen so far. -/
structure PartitionCount where
  partitionCards : ℕ := 0
  ledgerReady : ℕ := 0
  fit : ℕ := 0
deriving DecidableEq, Repr

/-- The verdict of a partition walk that ran out of cards. -/
def partitionShortage (count : PartitionCount) (d : FamilyDemand) : String :=
  if count.partitionCards = 0 then partitionNoCardsMessage d.profile d.podSets
  else if count.ledgerReady = 0 then partitionLedgerNotReadyMessage d.podSets
  else if d.node ≠ "" then assignedNodeMessage .retry d
  else partitionVerdictMessage .retry d.profile d.podSets

/-- Take placements down the list until `d.cards` instances are placed. -/
def takePlacements (cards : Fin n → CardLedger) (d : FamilyDemand) :
    List (Fin n) → PartitionCount → Budgets n → Budgets n × CheckState × String
  | [], count, budgets => (budgets, .retry, partitionShortage count d)
  | i :: is, count, budgets =>
    let c := cards i
    if !c.coveredBy d || !c.servesFamily .partitioned then takePlacements cards d is count budgets
    else
      let count := { count with
        partitionCards := count.partitionCards + 1
        ledgerReady := count.ledgerReady +
          if partitionProfilesHavePlacements c.capability.physicalSliced.profiles then 1 else 0 }
      -- held whole by an exclusive or shared allocation, or full for this profile
      if (c.mode ≠ .none ∧ c.mode ≠ .partitioned) ∨ freePlacements cards budgets d i ≤ 0 then
        takePlacements cards d is count budgets
      else
        let take := min (freePlacements cards budgets d i).toNat (d.cards - count.fit)
        let budgets' := Function.update budgets i
          { budgets i with placements := (budgets i).placements + take }
        if d.cards ≤ count.fit + take then
          (budgets', .ready, if d.node ≠ "" then assignedNodeMessage .ready d
            else partitionVerdictMessage .ready d.profile d.podSets)
        else takePlacements cards d is { count with fit := count.fit + take } budgets'

def fitPartitionDemand (cards : Fin n → CardLedger) (budgets : Budgets n) (d : FamilyDemand) :
    Budgets n × CheckState × String :=
  takePlacements cards d (List.finRange n) {} budgets

/-! ## The check -/

/-- Fit one demand by its family. -/
def fitDemand (cards : Fin n → CardLedger) (budgets : Budgets n) (d : FamilyDemand) :
    Budgets n × CheckState × String :=
  match d.family with
  | .partitioned => fitPartitionDemand cards budgets d
  | .shared => fitSharedDemand cards budgets d
  | .sliced => fitSlicedDemand cards budgets d
  | .exclusive => fitExclusiveDemand cards budgets d

/-- The budgets the inflight demands leave; one that does not fit keeps what it took. -/
def fitInflight (cards : Fin n → CardLedger) (inflight : List FamilyDemand) (budgets : Budgets n) :
    Budgets n :=
  inflight.foldl (fun b d => (fitDemand cards b d).1) budgets

/-- Fit the Workload's own demands in order, up to the first that does not fit. -/
def fitDemands (cards : Fin n → CardLedger) (clause : String) :
    List FamilyDemand → Budgets n → String → CheckState × String
  | [], _, message => (.ready, message)
  | d :: ds, budgets, _ =>
    match fitDemand cards budgets d with
    | (_, .retry, message) => (.retry, message ++ clause)
    | (budgets', .ready, message) => fitDemands cards clause ds budgets' message

/-- **The check**: every demand can be placed at once on what the inflight demands leave. -/
def nodeDevicesFeasibility (pool : List ScopedDevices) (inflight demands : List FamilyDemand) :
    CheckState × String :=
  if demands = [] then (.ready, verdictMessage .ready []) else
    let cards := (collectCards pool).get
    fitDemands cards (if inflight ≠ [] then inflightClause else "") demands
      (fitInflight cards inflight fun _ => {}) (verdictMessage .ready [])

end GpuStack
