import GpuStack.Lib.Assoc
import GpuStack.Lib.Select
import GpuStack.Lib.Tally
import GpuStack.Rdma.Inventory

/-!
# Rdma/Policy — which verbs devices a node offers

`resolveRDMAPolicy` decides, from the selection policies, the node's labels and a complete observation, which
of the node's verbs devices are offered.  More than one policy that targets the node is a conflict, one that
cannot be read makes the resolution invalid, and one that applies includes or excludes by exact name.

The policies are only counted and sorted and the devices only looked up by name, so neither order matters
(`resolve_permuted`).  A resolution that applies splits the observation into two sorted lists
(`Splits`); any other selects nothing (`selected_of_not_applies`).
-/

namespace GpuStack.Rdma

open List

/-! ### The inputs -/

abbrev NodeLabels := AList fun _ : String => String

/-- The node selector of a policy; `unreadable` is one that the label library refuses. -/
inductive NodeSelector
  | missing
  | unreadable
  | readable (selects : NodeLabels → Bool)

structure SelectionPolicy where
  name : String
  uid : String
  generation : ℤ := 0
  nodeSelector : NodeSelector
  includes : List String := []
  excludes : List String := []
  port : Option ℤ := none

/-- What tells two policies apart. -/
def SelectionPolicy.identity (p : SelectionPolicy) : String × String := (p.name, p.uid)

structure PolicyInputs where
  synced : Bool
  nodeName : String := ""
  nodeUID : String := ""
  labels : NodeLabels := ∅
  policies : List SelectionPolicy
  inventory : Option RDMASnapshot

/-! ### The result -/

inductive ResolutionStatus
  | default
  | policy
  | conflict
  | invalid
  | unknown
deriving DecidableEq, Repr

inductive ExclusionReason
  | excludedByPolicy
  | externallyOwned
deriving DecidableEq, Repr

structure Exclusion where
  name : String
  reason : ExclusionReason
deriving DecidableEq, Repr

structure PolicyReference where
  name : String
  uid : String
  generation : ℤ
deriving DecidableEq, Repr

structure Resolution where
  status : ResolutionStatus
  policyRef : Option PolicyReference := none
  selected : List String := []
  excluded : List Exclusion := []
  port : Option ℤ := none
  message : String := ""
  nodeName : String
  nodeUID : String
  inventoryRevision : String := ""
deriving DecidableEq, Repr

/-- The resolution is one to apply. -/
def Resolution.Applies (r : Resolution) : Prop := r.status = .policy ∨ r.status = .default

instance (r : Resolution) : Decidable r.Applies := inferInstanceAs (Decidable (_ ∨ _))

/-! ### The selectors -/

/-- A policy whose selector cannot be read. -/
structure SelectorIssue where
  name : String
  uid : String
  generation : ℤ
  reason : String
deriving DecidableEq, Repr

/-- The policy provably targets the node. -/
def SelectionPolicy.targets (labels : NodeLabels) (p : SelectionPolicy) : Bool :=
  match p.nodeSelector with
  | .readable selects => selects labels
  | _ => false

def SelectionPolicy.issue (p : SelectionPolicy) : Option SelectorIssue :=
  match p.nodeSelector with
  | .missing => some ⟨p.name, p.uid, p.generation, s!"policy {p.name} carries a nil nodeSelector"⟩
  | .unreadable => some ⟨p.name, p.uid, p.generation, s!"policy {p.name} carries an invalid nodeSelector"⟩
  | .readable _ => none

/-- The order of the report: by name, then by UID. -/
def SelectorIssue.le (a b : SelectorIssue) : Prop := a.name < b.name ∨ a.name = b.name ∧ a.uid ≤ b.uid

instance : DecidableRel SelectorIssue.le := fun _ _ => inferInstanceAs (Decidable (_ ∨ _ ∧ _))

def rdmaPolicyReference (p : SelectionPolicy) : PolicyReference := ⟨p.name, p.uid, p.generation⟩

/-! ### The rules -/

/-- The observed devices by name. -/
def known (devices : List RDMADevice) : AList fun _ : String => RDMADevice := Assoc.byKey (·.name) devices

/-- A list of names as Go prints it. -/
def printNames (names : List String) : String := "[" ++ " ".intercalate names ++ "]"

/-- The names of a rule that the observation does not know, sorted. -/
def unknownNames (known : AList fun _ : String => RDMADevice) (names : List String) : List String :=
  (names.dedup.filter fun name => (known.lookup name).isNone).insertionSort (· ≤ ·)

/-- What keeps a policy from being applied. -/
def ruleErrors (known : AList fun _ : String => RDMADevice) (p : SelectionPolicy) : List String :=
  (if p.includes ≠ [] ∧ p.excludes ≠ [] then ["include and exclude are mutually exclusive"] else []) ++
  (match p.port with
    | some port => if port < 1 then [s!"port {port} must be at least 1"] else []
    | none => []) ++
  (if unknownNames known p.includes ≠ [] then
    ["include names the inventory does not know: " ++ printNames (unknownNames known p.includes)] else []) ++
  (if unknownNames known p.excludes ≠ [] then
    ["exclude names the inventory does not know: " ++ printNames (unknownNames known p.excludes)] else [])

/-- Why a device is left out.  The owner comes before any rule. -/
def exclusionReason (policy : Option SelectionPolicy) (name : String) (dev : RDMADevice) :
    Option ExclusionReason :=
  if dev.owner = .external then some .externallyOwned
  else
    match policy with
    | none => none
    | some p =>
      if p.includes ≠ [] ∧ name ∉ p.includes then some .excludedByPolicy
      else if name ∈ p.excludes then some .excludedByPolicy
      else none

/-- The devices that are offered, by name. -/
def selectedNames (policy : Option SelectionPolicy) (known : AList fun _ : String => RDMADevice) :
    List String :=
  ((Tally.sortedEntries known).filter fun e => (exclusionReason policy e.1 e.2).isNone).map (·.1)

/-- The devices that are not, by name. -/
def exclusions (policy : Option SelectionPolicy) (known : AList fun _ : String => RDMADevice) :
    List Exclusion :=
  (Tally.sortedEntries known).filterMap fun e => (exclusionReason policy e.1 e.2).map (⟨e.1, ·⟩)

/-- The selected devices that do not carry a port. -/
def missingPort (known : AList fun _ : String => RDMADevice) (selected : List String) (port : ℤ) :
    List String :=
  selected.filter fun name =>
    match known.lookup name with
    | some dev => dev.ports.all fun p => p.number ≠ portNumber port
    | none => true

/-- Apply the rules of the one policy that targets the node, or none. -/
def applyRules (base : Resolution) (policy : Option SelectionPolicy)
    (known : AList fun _ : String => RDMADevice) : Resolution :=
  let base := { base with
    status := if policy.isSome then .policy else .default
    policyRef := policy.map rdmaPolicyReference }
  let errors := (policy.map (ruleErrors known)).getD []
  if errors ≠ [] then { base with status := .invalid, message := "; ".intercalate errors }
  else
    let resolved :=
      { base with selected := selectedNames policy known, excluded := exclusions policy known }
    match policy.bind (·.port) with
    | none => resolved
    | some port =>
      let missing := missingPort known resolved.selected port
      if missing ≠ [] then
        { base with
          status := .invalid
          message := s!"selected devices do not carry port {port}: " ++ printNames missing }
      else { resolved with port := some port }

/-- **The desired verbs devices of a node.** -/
def resolveRDMAPolicy (inputs : PolicyInputs) : Resolution :=
  let base : Resolution := { status := .unknown, nodeName := inputs.nodeName, nodeUID := inputs.nodeUID }
  if inputs.synced = false then
    { base with message := "the policy cache has not completed its initial list" }
  else
    match inputs.inventory.filter (·.complete) with
    | none => { base with message := "the verbs inventory is missing or incomplete" }
    | some inv =>
      let base := { base with inventoryRevision := inv.revision }
      let targeting := inputs.policies.filter (·.targets inputs.labels)
      let issues := (inputs.policies.filterMap SelectionPolicy.issue).insertionSort SelectorIssue.le
      if 1 < targeting.length then
        { base with
          status := .conflict
          message := toString targeting.length ++
            " policies target this node; there is no merge or priority rule" }
      else if issues ≠ [] then
        { base with
          status := .invalid
          policyRef := issues.head?.map fun i => ⟨i.name, i.uid, i.generation⟩
          message := "; ".intercalate (issues.map (·.reason)) }
      else applyRules base targeting.head? (known inv.devices)

/-! ### No order matters -/

/-- The same inputs, with the policies and the devices in another order. -/
structure Permuted (a b : PolicyInputs) : Prop where
  synced : a.synced = b.synced
  nodeName : a.nodeName = b.nodeName
  nodeUID : a.nodeUID = b.nodeUID
  labels : a.labels = b.labels
  policies : a.policies.Perm b.policies
  inventory : Option.Rel (fun i j : RDMASnapshot => i.complete = j.complete ∧ i.revision = j.revision ∧
    i.devices.Perm j.devices) a.inventory b.inventory

/-- The devices of the observation have distinct names. -/
def PolicyInputs.DistinctNames (inputs : PolicyInputs) : Prop :=
  ∀ inv ∈ inputs.inventory, (inv.devices.map (·.name)).Nodup

/-- The report of the issues does not depend on the order of the policies. -/
theorem sort_issues_perm {policies policies' : List SelectionPolicy} (hperm : policies.Perm policies')
    (hids : (policies.map SelectionPolicy.identity).Nodup) :
    (policies.filterMap SelectionPolicy.issue).insertionSort SelectorIssue.le =
      (policies'.filterMap SelectionPolicy.issue).insertionSort SelectorIssue.le := by
  have hissue : ∀ p i, SelectionPolicy.issue p = some i → p.identity = (i.name, i.uid) := by
    intro p i h
    unfold SelectionPolicy.issue at h
    split at h
    · obtain rfl := Option.some.inj h
      rfl
    · obtain rfl := Option.some.inj h
      rfl
    · cases h
  have hle : ∀ a b, SelectorIssue.le a b ↔ toLex (a.name, a.uid) ≤ toLex (b.name, b.uid) := fun a b => by
    rw [Prod.Lex.toLex_le_toLex, SelectorIssue.le]
  refine Select.sort_eq_of_perm hle (fun a ha b hb hsame => ?_) (hperm.filterMap _)
  -- two issues of one name and UID are of one policy
  obtain ⟨p, hp, hpa⟩ := mem_filterMap.mp ha
  obtain ⟨q, hq, hqb⟩ := mem_filterMap.mp hb
  have hpq : p = q := inj_on_of_nodup_map hids hp hq
    ((hissue p a hpa).trans ((toLex_inj.mp hsame).trans (hissue q b hqb).symm))
  subst hpq
  exact Option.some.inj (hpa.symm.trans hqb)

variable {m : AList fun _ : String => RDMADevice}

/-- The rules only look devices up. -/
theorem applyRules_congr (base : Resolution) (policy : Option SelectionPolicy)
    {m' : AList fun _ : String => RDMADevice} (h : ∀ name, m.lookup name = m'.lookup name) :
    applyRules base policy m = applyRules base policy m' := by
  have hunknown : unknownNames m = unknownNames m' := funext fun names => by simp only [unknownNames, h]
  have herrors : ruleErrors m = ruleErrors m' := funext fun p => by simp only [ruleErrors, hunknown]
  have hsorted := Tally.sortedEntries_eq_of_lookup h
  have hmissing : missingPort m = missingPort m' := funext fun l => funext fun port => by
    simp only [missingPort, h]
  have hselected : selectedNames policy m = selectedNames policy m' := by rw [selectedNames, hsorted]; rfl
  have hexcluded : exclusions policy m = exclusions policy m' := by rw [exclusions, hsorted]; rfl
  unfold applyRules
  rw [herrors, hselected, hexcluded, hmissing]

/-- **No order of the policies or of the devices matters.** -/
theorem resolve_permuted {a b : PolicyInputs} (h : Permuted a b) (hnames : a.DistinctNames)
    (hids : (a.policies.map SelectionPolicy.identity).Nodup) :
    resolveRDMAPolicy a = resolveRDMAPolicy b := by
  obtain ⟨synced, nodeName, nodeUID, labels, policies, inventory⟩ := a
  obtain ⟨synced', nodeName', nodeUID', labels', policies', inventory'⟩ := b
  obtain ⟨rfl, rfl, rfl, rfl, hpol, hinv⟩ := h
  dsimp only at hpol hids hinv
  cases hinv with
  | none => rfl
  | @some inv inv' hinv =>
    obtain ⟨devices, complete, revision⟩ := inv
    obtain ⟨devices', complete', revision'⟩ := inv'
    obtain ⟨rfl, rfl, hdev⟩ := hinv
    have hlookup : ∀ name, (known devices).lookup name = (known devices').lookup name :=
      Assoc.lookup_byKey_perm (hnames _ rfl) hdev
    have htarget : (policies.filter (·.targets labels)).Perm (policies'.filter (·.targets labels)) :=
      hpol.filter _
    cases complete with
    | false => rfl
    | true =>
      simp only [resolveRDMAPolicy, Option.filter_some, if_true, sort_issues_perm hpol hids,
        htarget.length_eq, applyRules_congr _ _ hlookup]
      split
      · rfl
      split
      · rfl
      rename_i hone
      split
      · rfl
      -- one policy at most is left, so there is no order
      have hhead : (policies.filter (·.targets labels)).head? = (policies'.filter (·.targets labels)).head? := by
        cases hp : policies'.filter (·.targets labels) with
        | nil => rw [hp] at htarget; rw [htarget.eq_nil]
        | cons p rest =>
          rw [hp, length_cons] at hone
          obtain rfl : rest = [] := eq_nil_of_length_eq_zero (by omega)
          rw [hp] at htarget
          rw [perm_singleton.mp htarget]
      rw [hhead]

/-! ### What is selected -/

/-- Two sorted lists without a common name that make up the observation. -/
structure Splits (r : Resolution) (devices : List RDMADevice) : Prop where
  selectedSorted : r.selected.Pairwise (· < ·)
  excludedSorted : (r.excluded.map (·.name)).Pairwise (· < ·)
  disjoint : r.selected.Disjoint (r.excluded.map (·.name))
  covers : ∀ name, name ∈ r.selected ∨ name ∈ r.excluded.map (·.name) ↔ name ∈ devices.map (·.name)

theorem mem_selectedNames {policy : Option SelectionPolicy}
    {name : String} : name ∈ selectedNames policy m ↔
      ∃ dev, m.lookup name = some dev ∧ exclusionReason policy name dev = none := by
  simp only [selectedNames, mem_map, mem_filter, Tally.mem_sortedEntries, Option.isNone_iff_eq_none]
  exact ⟨fun ⟨e, he, hname⟩ => ⟨e.2, hname ▸ he⟩, fun ⟨dev, h⟩ => ⟨(name, dev), h, rfl⟩⟩

theorem mem_exclusions {policy : Option SelectionPolicy}
    {name : String} : name ∈ (exclusions policy m).map (·.name) ↔
      ∃ dev, m.lookup name = some dev ∧ exclusionReason policy name dev ≠ none := by
  simp only [exclusions, mem_map, mem_filterMap, Tally.mem_sortedEntries, Option.map_eq_some_iff]
  constructor
  · rintro ⟨_, ⟨e, he, reason, hreason, rfl⟩, rfl⟩
    exact ⟨e.2, he, by rw [hreason]; exact Option.some_ne_none _⟩
  · rintro ⟨dev, hdev, hne⟩
    obtain ⟨reason, hreason⟩ := Option.ne_none_iff_exists'.mp hne
    exact ⟨⟨name, reason⟩, ⟨(name, dev), hdev, reason, hreason, rfl⟩, rfl⟩

theorem pairwise_exclusions (policy : Option SelectionPolicy) (m : AList fun _ : String => RDMADevice) :
    ((exclusions policy m).map (·.name)).Pairwise (· < ·) := by
  rw [pairwise_map, exclusions, pairwise_filterMap]
  refine (Tally.pairwise_sortedEntries m).imp fun {a b} hab x hx y hy => ?_
  obtain ⟨_, -, rfl⟩ := Option.map_eq_some_iff.mp hx
  obtain ⟨_, -, rfl⟩ := Option.map_eq_some_iff.mp hy
  exact hab

/-- The two ways a resolution can end: nothing is selected, or the rules of one policy or none split the
observation. -/
theorem resolve_cases (inputs : PolicyInputs) :
    (¬ (resolveRDMAPolicy inputs).Applies ∧ (resolveRDMAPolicy inputs).selected = [] ∧
      (resolveRDMAPolicy inputs).excluded = []) ∨
    ∃ inv policy, inputs.inventory = some inv ∧ (resolveRDMAPolicy inputs).Applies ∧
      (resolveRDMAPolicy inputs).selected = selectedNames policy (known inv.devices) ∧
      (resolveRDMAPolicy inputs).excluded = exclusions policy (known inv.devices) := by
  unfold resolveRDMAPolicy
  split
  · exact .inl ⟨by simp [Resolution.Applies], rfl, rfl⟩
  dsimp only
  split
  · exact .inl ⟨by simp [Resolution.Applies], rfl, rfl⟩
  rename_i inv hinv
  split
  · exact .inl ⟨by simp [Resolution.Applies], rfl, rfl⟩
  split
  · exact .inl ⟨by simp [Resolution.Applies], rfl, rfl⟩
  unfold applyRules
  dsimp only
  split
  · exact .inl ⟨by simp [Resolution.Applies], rfl, rfl⟩
  have hsome := (Option.filter_eq_some_iff.mp hinv).1
  generalize (inputs.policies.filter (·.targets inputs.labels)).head? = policy
  have happlies : (if policy.isSome then ResolutionStatus.policy else .default) = .policy ∨
      (if policy.isSome then ResolutionStatus.policy else .default) = .default := by
    split
    · exact .inl rfl
    · exact .inr rfl
  split
  · exact .inr ⟨inv, policy, hsome, happlies, rfl, rfl⟩
  · split
    · exact .inl ⟨by simp [Resolution.Applies], rfl, rfl⟩
    · exact .inr ⟨inv, policy, hsome, happlies, rfl, rfl⟩

variable {inputs : PolicyInputs} {inv : RDMASnapshot}

/-- A resolution that does not apply selects nothing. -/
theorem selected_of_not_applies (h : ¬ (resolveRDMAPolicy inputs).Applies) :
    (resolveRDMAPolicy inputs).selected = [] ∧ (resolveRDMAPolicy inputs).excluded = [] := by
  rcases resolve_cases inputs with ⟨-, hsel, hexc⟩ | ⟨inv, policy, -, happlies, -⟩
  · exact ⟨hsel, hexc⟩
  · exact absurd happlies h

/-- **A resolution that applies splits the observation.** -/
theorem splits_of_applies (hinv : inputs.inventory = some inv) (h : (resolveRDMAPolicy inputs).Applies) :
    Splits (resolveRDMAPolicy inputs) inv.devices := by
  rcases resolve_cases inputs with ⟨hnot, -⟩ | ⟨inv', policy, hinv', -, hsel, hexc⟩
  · exact absurd h hnot
  obtain rfl : inv = inv' := Option.some.inj (hinv.symm.trans hinv')
  refine ⟨?_, ?_, ?_, fun name => ?_⟩
  · rw [hsel, selectedNames, pairwise_map]
    exact (Tally.pairwise_sortedEntries _).filter _
  · rw [hexc]
    exact pairwise_exclusions policy _
  · rw [hsel, hexc]
    intro name hs he
    obtain ⟨dev, hdev, hnone⟩ := mem_selectedNames.mp hs
    obtain ⟨dev', hdev', hne⟩ := mem_exclusions.mp he
    rw [Option.some.inj (hdev.symm.trans hdev')] at hnone
    exact hne hnone
  · have hknown : name ∈ known inv.devices ↔ ∃ dev ∈ inv.devices, dev.name = name := Assoc.mem_byKey
    rw [hsel, hexc, mem_selectedNames, mem_exclusions, ← exists_or, mem_map, ← hknown,
      ← AList.lookup_isSome, Option.isSome_iff_exists]
    refine exists_congr fun dev => ?_
    rw [← and_or_left, and_iff_left (em _)]

/-- **An external device is never selected.** -/
theorem external_not_selected (hinv : inputs.inventory = some inv) (hnames : inputs.DistinctNames)
    {dev : RDMADevice} (hdev : dev ∈ inv.devices) (hext : dev.owner = .external) :
    dev.name ∉ (resolveRDMAPolicy inputs).selected := by
  rcases resolve_cases inputs with ⟨-, hsel, -⟩ | ⟨inv', policy, hinv', -, hsel, -⟩
  · rw [hsel]
    exact not_mem_nil
  obtain rfl : inv = inv' := Option.some.inj (hinv.symm.trans hinv')
  rw [hsel]
  intro hmem
  obtain ⟨dev', hdev', hnone⟩ := mem_selectedNames.mp hmem
  have hlookup := (Assoc.lookup_byKey (hnames inv hinv)).mpr ⟨hdev, rfl⟩
  rw [Option.some.inj (hdev'.symm.trans hlookup)] at hnone
  unfold exclusionReason at hnone
  rw [if_pos hext] at hnone
  cases hnone

end GpuStack.Rdma
