import GpuStack.Device.Durable
import GpuStack.Lib.Records

/-!
# Metax/Slice — slices of a MetaX card and the markers that record them

A partial slice is an sgpu subdevice in the driver's registry and a marker file in the container's work
directory; a whole card is a marker alone.  `reserveSlice` is the allocation: it reuses the container's
own marker, or derives what is occupied from the registry and from every marker it can read, creates
the subdevice and writes the marker.

`Reserves` lists everything such a call can do, and `reserves_reserveSlice` is the one place where the
function is taken apart.
-/

namespace GpuStack.Metax

/-- The subdevices a card can host. -/
def maxSGPUPerCard : ℕ := 16

/-- The index a marker carries for a whole card, which has no subdevice. -/
def wholeCardIndex : ℤ := -1

def sgpuAliasPrefix : String := "gpustack-"

/-- A subdevice by card and index. -/
structure SubdevKey where
  bdf : String
  index : ℤ
deriving DecidableEq, Repr

/-- A subdevice of the driver's registry; its tag is the alias, empty where the driver does not
expose it. -/
structure SgpuSubdevice where
  bdf : String
  index : ℤ
  tag : String
deriving DecidableEq, Repr

def SgpuSubdevice.key (sd : SgpuSubdevice) : SubdevKey := ⟨sd.bdf, sd.index⟩

def encodeAlias (podUID : String) : String := sgpuAliasPrefix ++ podUID

/-- The Pod an alias names; none for an empty or a foreign alias. -/
def decodeAliasUID (tag : String) : Option String :=
  match tag.toList.dropPrefix? sgpuAliasPrefix.toList with
  | some uid => if uid.isEmpty then none else some (String.ofList uid)
  | none => none

/-- An alias of ours names its own Pod or nobody. -/
theorem decodeAliasUID_encodeAlias {podUID uid : String}
    (h : decodeAliasUID (encodeAlias podUID) = some uid) : uid = podUID := by
  have hdrop : (encodeAlias podUID).toList.dropPrefix? sgpuAliasPrefix.toList
      = some podUID.toList := by
    rw [encodeAlias, String.toList_append, List.dropPrefix?_append_of_beq _ (by simp)]
  rw [decodeAliasUID, hdrop] at h
  dsimp only at h
  split_ifs at h
  simpa using h.symm

/-- The value the runtime reads for a partial slice. -/
def encodeMetaxSGPUs (bdf : String) (index coresPct vramMiB : ℤ) (tag : String) : String :=
  s!"sgpu={bdf}#{index};compute={coresPct};vram={vramMiB};alias={tag}"

/-- A marker's record. -/
structure SgpuMarker where
  podUID : String
  container : String
  cardBDF : String
  index : ℤ
  coresPct : ℤ
  memMiB : ℤ
deriving DecidableEq, Repr

def SgpuMarker.wholeCard (m : SgpuMarker) : Bool := m.index == wholeCardIndex

def SgpuMarker.key (m : SgpuMarker) : SubdevKey := ⟨m.cardBDF, m.index⟩

/-- Where a container's marker lies. -/
structure MarkerPath where
  podUID : String
  container : String
deriving DecidableEq, Repr

abbrev MarkerEntry := Records.Entry MarkerPath SgpuMarker

/-- The marker files, each with what it records if its contents can be read at all. -/
abbrev Files := List (MarkerPath × Option SgpuMarker)

/-- A record that names a Pod, a card and an index. -/
def SgpuMarker.complete (m : SgpuMarker) : Bool :=
  m.podUID != "" && m.cardBDF != "" && decide (wholeCardIndex ≤ m.index)

/-- Read a marker: a malformed or incomplete one is an error. -/
def parseMarker (path : MarkerPath) (contents : Option SgpuMarker) : Option SgpuMarker :=
  Records.parse (fun _ m => m.complete) path contents

/-- The markers that can be read; the others are only logged. -/
def scanMarkers (files : Files) : List MarkerEntry := Records.scan (fun _ m => m.complete) files

/-- The indexes occupied on a card: the registry's, and those of the markers of its slices. -/
def usedIndexesOnCard (registry : List SgpuSubdevice) (markers : List MarkerEntry) (bdf : String) :
    List ℤ :=
  (registry.filter fun sd => sd.bdf == bdf).map SgpuSubdevice.index ++
    (markers.filter fun e => e.marker.cardBDF == bdf && !e.marker.wholeCard).map fun e =>
      e.marker.index

variable {registry : List SgpuSubdevice} {files : Files} {q : Request}

theorem mem_usedIndexesOnCard {markers : List MarkerEntry} {bdf : String} {i : ℤ} :
    i ∈ usedIndexesOnCard registry markers bdf ↔
      (∃ sd ∈ registry, sd.key = ⟨bdf, i⟩) ∨
        ∃ e ∈ markers, e.marker.wholeCard = false ∧ e.marker.key = ⟨bdf, i⟩ := by
  simp only [usedIndexesOnCard, List.mem_append, List.mem_map, List.mem_filter, beq_iff_eq,
    Bool.and_eq_true, Bool.not_eq_true', SgpuSubdevice.key, SgpuMarker.key, SubdevKey.mk.injEq]
  constructor
  · rintro (⟨sd, ⟨hsd, hbdf⟩, hi⟩ | ⟨e, ⟨he, hbdf, hpart⟩, hi⟩)
    · exact .inl ⟨sd, hsd, hbdf, hi⟩
    · exact .inr ⟨e, he, hpart, hbdf, hi⟩
  · rintro (⟨sd, hsd, hbdf, hi⟩ | ⟨e, he, hpart, hbdf, hi⟩)
    · exact .inl ⟨sd, ⟨hsd, hbdf⟩, hi⟩
    · exact .inr ⟨e, ⟨he, hbdf, hpart⟩, hi⟩

/-- The lowest index not in use, or none when the card is full. -/
def lowestFreeIndex (used : List ℤ) : Option ℕ :=
  (List.range maxSGPUPerCard).find? fun i => decide ((i : ℤ) ∉ used)

theorem lowestFreeIndex_notMem {used : List ℤ} {i : ℕ} (h : lowestFreeIndex used = some i) :
    (i : ℤ) ∉ used := by
  simpa using List.find?_some h

def cardTakenWhole (markers : List MarkerEntry) (bdf : String) : Bool :=
  markers.any fun e => e.marker.cardBDF == bdf && e.marker.wholeCard

def subdeviceOnCard (registry : List SgpuSubdevice) (bdf : String) (index : ℤ) : Bool :=
  registry.any fun sd => sd.bdf == bdf && sd.index == index

def cardHasSubdevice (registry : List SgpuSubdevice) (bdf : String) : Bool :=
  registry.any fun sd => sd.bdf == bdf

/-! ### The reservation -/

/-- What a container asks for; whether it is the whole card is decided by the caller. -/
structure Request where
  podUID : String
  container : String
  bdf : String
  coresPct : ℤ
  memMiB : ℤ
  wholeCard : Bool
deriving DecidableEq, Repr

/-- The path of the container's own marker. -/
def Request.self (q : Request) : MarkerPath := ⟨q.podUID, q.container⟩

/-- The record the call would write for a slice at `index`. -/
def Request.marker (q : Request) (index : ℤ) : SgpuMarker :=
  ⟨q.podUID, q.container, q.bdf, index, q.coresPct, q.memMiB⟩

structure SliceResult where
  wholeCard : Bool
  index : ℤ
  envValue : String
deriving DecidableEq, Repr

/-- How a reservation ends for its caller; `lost` is a process that stopped before it answered. -/
inductive Reply
  | granted (result : SliceResult)
  | refused (err : String)
  | lost
deriving DecidableEq, Repr

/-- What the driver and the disk answer during one reservation. -/
structure Answers where
  list : Except String Unit
  ensureModel : Except String Unit
  setSchedClass : Except String Unit
  create : Except String Unit
  write : WriteEnd
  remove : Except String Unit

/-- The registry without a subdevice. -/
def removeKey (registry : List SgpuSubdevice) (key : SubdevKey) : List SgpuSubdevice :=
  registry.filter fun sd => sd.key != key

/-- What a container gets back for the marker it already has. -/
def reuseMarker (registry : List SgpuSubdevice) (q : Request) (m : SgpuMarker) : Reply :=
  if m.cardBDF ≠ q.bdf ∨ m.coresPct ≠ q.coresPct ∨ m.memMiB ≠ q.memMiB ∨
      m.wholeCard ≠ q.wholeCard then
    .refused (s!"marker mismatches request (card={q.bdf} cores={q.coresPct} mem={q.memMiB} " ++
      s!"wholeCard={q.wholeCard}): fail closed")
  else if m.wholeCard then
    .granted ⟨true, 0, ""⟩
  else if subdeviceOnCard registry q.bdf m.index then
    .granted ⟨false, m.index,
      encodeMetaxSGPUs q.bdf m.index q.coresPct q.memMiB (encodeAlias q.podUID)⟩
  else
    .refused s!"marker references missing sgpu subdevice {q.bdf}#{m.index}: fail closed"

/-- Take the whole card: write the marker that says so. -/
def takeWhole (a : Answers) (registry : List SgpuSubdevice) (files : Files) (q : Request) :
    List SgpuSubdevice × Files × Reply :=
  let files' := if a.write.linked then files ++ [(q.self, some (q.marker wholeCardIndex))] else files
  match a.write with
  | .published => (registry, files', .granted ⟨true, 0, ""⟩)
  | .failed err _ => (registry, files', .refused err)
  | .stopped _ => (registry, files', .lost)

/-- Create the subdevice and write its marker; a write that fails takes the subdevice back. -/
def createSlice (tags : Bool) (a : Answers) (registry : List SgpuSubdevice) (files : Files)
    (q : Request) (index : ℤ) : List SgpuSubdevice × Files × Reply :=
  let registry' := registry ++ [⟨q.bdf, index, if tags then encodeAlias q.podUID else ""⟩]
  let files' := if a.write.linked then files ++ [(q.self, some (q.marker index))] else files
  match a.write with
  | .published => (registry', files', .granted ⟨false, index,
      encodeMetaxSGPUs q.bdf index q.coresPct q.memMiB (encodeAlias q.podUID)⟩)
  | .failed err _ => (match a.remove with
      | .ok _ => removeKey registry' ⟨q.bdf, index⟩
      | .error _ => registry', files', .refused err)
  | .stopped _ => (registry', files', .lost)

/-- Put a card into sgpu mode with the fixed-share class; one that already hosts subdevices is
configured, and is not touched again. -/
def configureCard (a : Answers) (registry : List SgpuSubdevice) (bdf : String) : Except String Unit :=
  if cardHasSubdevice registry bdf then .ok ()
  else match a.ensureModel with
  | .error err => .error s!"card {bdf}: ensure sgpu model: {err}"
  | .ok _ => match a.setSchedClass with
    | .error err => .error s!"card {bdf}: set fixed-share sched class: {err}"
    | .ok _ => .ok ()

/-- **The allocation.**  `tags` is whether the driver's listing shows the alias a subdevice was created
with. -/
def reserveSlice (tags : Bool) (a : Answers) (registry : List SgpuSubdevice) (files : Files)
    (q : Request) : List SgpuSubdevice × Files × Reply :=
  match a.list with
  | .error err => (registry, files, .refused s!"list sgpu subdevices: {err}")
  | .ok _ =>
  match files.lookup q.self with
  | some contents =>
    match parseMarker q.self contents with
    | some m => (registry, files, reuseMarker registry q m)
    | none => (registry, files, .refused "read self marker")
  | none =>
  let markers := scanMarkers files
  let used := usedIndexesOnCard registry markers q.bdf
  if q.wholeCard then
    if used ≠ [] ∨ cardTakenWhole markers q.bdf then
      (registry, files, .refused s!"card {q.bdf} is already occupied, cannot take it whole")
    else takeWhole a registry files q
  else if cardTakenWhole markers q.bdf then
    (registry, files, .refused s!"card {q.bdf} is held whole, cannot slice it")
  else match lowestFreeIndex used with
  | none => (registry, files,
      .refused s!"card {q.bdf}: card sgpu pool exhausted ({maxSGPUPerCard} subdevices)")
  | some index =>
    match configureCard a registry q.bdf with
    | .error err => (registry, files, .refused err)
    | .ok _ => match a.create with
      | .error err => (registry, files,
          .refused s!"card {q.bdf}: create sgpu subdevice {index}: {err}")
      | .ok _ => createSlice tags a registry files q index

/-- What a reservation did: it left everything as it was, or it wrote the marker of a whole card, or it
created a subdevice, each with the conditions it found. -/
inductive Reserves (tags : Bool) (registry : List SgpuSubdevice) (files : Files) (q : Request) :
    List SgpuSubdevice → Files → Reply → Prop
  | refused (err : String) : Reserves tags registry files q registry files (.refused err)
  | reusedWhole (m : SgpuMarker) : ⟨q.self, m⟩ ∈ scanMarkers files → m.cardBDF = q.bdf →
      m.wholeCard = true → Reserves tags registry files q registry files (.granted ⟨true, 0, ""⟩)
  | reused (m : SgpuMarker) (env : String) : ⟨q.self, m⟩ ∈ scanMarkers files →
      m.key = ⟨q.bdf, m.index⟩ → m.wholeCard = false → (∃ sd ∈ registry, sd.key = m.key) →
      Reserves tags registry files q registry files (.granted ⟨false, m.index, env⟩)
  | tookWhole (linked : Bool) (reply : Reply) : files.lookup q.self = none →
      (∀ i, i ∉ usedIndexesOnCard registry (scanMarkers files) q.bdf) →
      cardTakenWhole (scanMarkers files) q.bdf = false →
      (∀ r, reply = .granted r → linked = true ∧ r.wholeCard = true) →
      Reserves tags registry files q registry
        (if linked then files ++ [(q.self, some (q.marker wholeCardIndex))] else files) reply
  | created (index : ℕ) (linked kept : Bool) (reply : Reply) : q.wholeCard = false →
      files.lookup q.self = none → cardTakenWhole (scanMarkers files) q.bdf = false →
      (index : ℤ) ∉ usedIndexesOnCard registry (scanMarkers files) q.bdf →
      (∀ r, reply = .granted r → linked = true ∧ kept = true ∧ r.wholeCard = false ∧
        r.index = index) →
      Reserves tags registry files q
        (if kept then registry ++ [⟨q.bdf, index, if tags then encodeAlias q.podUID else ""⟩]
          else registry)
        (if linked then files ++ [(q.self, some (q.marker index))] else files) reply

theorem removeKey_append (sd : SgpuSubdevice) (h : ∀ sd' ∈ registry, sd'.key ≠ sd.key) :
    removeKey (registry ++ [sd]) sd.key = registry := by
  rw [removeKey, List.filter_append, List.filter_eq_self.mpr fun sd' hsd' => by
    simpa using h sd' hsd']
  simp

theorem reserves_reuseMarker (tags : Bool) {m : SgpuMarker} (hm : ⟨q.self, m⟩ ∈ scanMarkers files) :
    Reserves tags registry files q registry files (reuseMarker registry q m) := by
  unfold reuseMarker
  split
  · exact .refused _
  next hmatch =>
  simp only [not_or, not_not] at hmatch
  split
  next hwhole => exact .reusedWhole m hm hmatch.1 hwhole
  next hpart =>
  split
  next hon =>
    obtain ⟨sd, hsd, hon⟩ := List.any_eq_true.mp hon
    simp only [Bool.and_eq_true, beq_iff_eq] at hon
    refine .reused m _ hm (by simp [SgpuMarker.key, hmatch.1]) (by simpa using hpart)
      ⟨sd, hsd, ?_⟩
    rw [SgpuSubdevice.key, SgpuMarker.key, hon.1, hon.2, hmatch.1]
  · exact .refused _

theorem reserves_takeWhole (tags : Bool) (a : Answers) (hself : files.lookup q.self = none)
    (hused : ∀ i, i ∉ usedIndexesOnCard registry (scanMarkers files) q.bdf)
    (hwhole : cardTakenWhole (scanMarkers files) q.bdf = false) :
    Reserves tags registry files q (takeWhole a registry files q).1 (takeWhole a registry files q).2.1
      (takeWhole a registry files q).2.2 := by
  unfold takeWhole
  cases a.write with
  | published => exact .tookWhole true _ hself hused hwhole (by rintro r ⟨⟩; exact ⟨rfl, rfl⟩)
  | failed err linked => exact .tookWhole linked _ hself hused hwhole (by rintro r ⟨⟩)
  | stopped linked => exact .tookWhole linked _ hself hused hwhole (by rintro r ⟨⟩)

theorem reserves_createSlice (tags : Bool) (a : Answers) {index : ℕ} (hpart : q.wholeCard = false)
    (hself : files.lookup q.self = none) (hwhole : cardTakenWhole (scanMarkers files) q.bdf = false)
    (hfree : (index : ℤ) ∉ usedIndexesOnCard registry (scanMarkers files) q.bdf) :
    Reserves tags registry files q (createSlice tags a registry files q index).1
      (createSlice tags a registry files q index).2.1
      (createSlice tags a registry files q index).2.2 := by
  unfold createSlice
  cases a.write with
  | published =>
    exact .created index true true _ hpart hself hwhole hfree (by rintro r ⟨⟩; exact ⟨rfl, rfl, rfl, rfl⟩)
  | failed err linked =>
    cases a.remove with
    | error e => exact .created index linked true _ hpart hself hwhole hfree (by rintro r ⟨⟩)
    | ok _ =>
      -- Taking the new subdevice back restores the registry, for nothing else has its key.
      have hback := removeKey_append ⟨q.bdf, index, if tags then encodeAlias q.podUID else ""⟩
        fun sd hsd hkey => hfree (mem_usedIndexesOnCard.mpr (.inl ⟨sd, hsd, hkey⟩))
      simp only [SgpuSubdevice.key] at hback
      simp only [hback]
      exact .created index linked false _ hpart hself hwhole hfree (by rintro r ⟨⟩)
  | stopped linked => exact .created index linked true _ hpart hself hwhole hfree (by rintro r ⟨⟩)

/-- **Everything a reservation can do.** -/
theorem reserves_reserveSlice (tags : Bool) (a : Answers) (registry : List SgpuSubdevice)
    (files : Files) (q : Request) :
    Reserves tags registry files q (reserveSlice tags a registry files q).1
      (reserveSlice tags a registry files q).2.1 (reserveSlice tags a registry files q).2.2 := by
  unfold reserveSlice
  cases a.list with
  | error err => exact .refused _
  | ok _ =>
  rcases hself : files.lookup q.self with _ | contents
  · dsimp only
    rcases hpart : q.wholeCard
    · rw [if_neg Bool.false_ne_true]
      split
      · exact .refused _
      next hwhole =>
      rcases hindex : lowestFreeIndex (usedIndexesOnCard registry (scanMarkers files) q.bdf)
        with _ | index
      · exact .refused _
      · dsimp only
        cases configureCard a registry q.bdf with
        | error err => exact .refused _
        | ok _ =>
        cases a.create with
        | error err => exact .refused _
        | ok _ =>
          exact reserves_createSlice tags a hpart hself (by simpa using hwhole)
            (lowestFreeIndex_notMem hindex)
    · rw [if_pos rfl]
      split
      · exact .refused _
      next hfree =>
        simp only [not_or, not_not, Bool.not_eq_true] at hfree
        exact reserves_takeWhole tags a hself (by simp [hfree.1]) hfree.2
  · dsimp only
    rcases hm : parseMarker q.self contents with _ | m
    · exact .refused _
    · exact reserves_reuseMarker tags (Records.mem_scan_of_lookup hself hm)

end GpuStack.Metax
