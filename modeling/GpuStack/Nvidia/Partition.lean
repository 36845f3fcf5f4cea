import GpuStack.Device.Durable
import GpuStack.Lib.Records

/-!
# Nvidia/Partition — MIG partitions and the markers that own them

A partition is a GPU instance of a card.  What owns it is a marker file, one for each container and
card, written after the instance is created; its path alone tells the Pod and the card even where its
contents cannot be read.

`reserveMigInstance` is the allocation on one card: it rebinds the container's own marker, or adopts a
live instance that no marker owns, or creates one in the lowest free place.  `Reserves` lists everything
such a call can do, and `reserves_reserveMigInstance` is where the function is taken apart.
-/

namespace GpuStack.Nvidia

/-- The memory slices `[start, start + length)` of a card. -/
structure MigPlacement where
  start : ℤ
  length : ℤ
deriving DecidableEq, Repr

/-- A live partition. -/
structure MigInstance where
  giID : ℕ
  ciID : ℕ
  computeSlices : ℤ
  placement : MigPlacement
  uuid : String
deriving DecidableEq, Repr

/-- A marker's record. -/
structure MigMarker where
  podUID : String
  container : String
  card : String
  profile : String
  giID : ℕ
  ciID : ℕ
  migUUID : String
  computeSlices : ℤ
  start : ℤ
  length : ℤ
deriving DecidableEq, Repr

def MigMarker.placement (m : MigMarker) : MigPlacement := ⟨m.start, m.length⟩

/-- The partition a marker records. -/
def MigMarker.recorded (m : MigMarker) : MigInstance :=
  ⟨m.giID, m.ciID, m.computeSlices, m.placement, m.migUUID⟩

/-- A path under the work directory, by what it tells of itself: the Pod and the card it names, if any,
and the rest of it, which for a marker is the container. -/
structure MarkerPath where
  podUID : Option String
  card : Option String
  rest : String
deriving DecidableEq, Repr

/-- The marker of a container on a card. -/
def markerPath (podUID container card : String) : MarkerPath := ⟨some podUID, some card, container⟩

abbrev MarkerEntry := Records.Entry MarkerPath MigMarker

/-- The paths a walk of the work directory meets, each with its record if it can be read. -/
abbrev Files := List (MarkerPath × Option MigMarker)

def MigMarker.complete (m : MigMarker) : Bool :=
  m.podUID != "" && m.card != "" && m.profile != "" && m.migUUID != ""

/-- A record stands where it lies if it is complete and of the card its path names. -/
def MigMarker.valid (path : MarkerPath) (m : MigMarker) : Bool :=
  m.complete && path.card == some m.card

/-- Read a marker. -/
def parseMarker (path : MarkerPath) (contents : Option MigMarker) : Option MigMarker :=
  Records.parse MigMarker.valid path contents

/-- The markers that can be read. -/
def scanMarkers (files : Files) : List MarkerEntry := Records.scan MigMarker.valid files

/-- The paths that cannot. -/
def corruptPaths (files : Files) : List MarkerPath := Records.corrupt MigMarker.valid files

variable {files : Files} {a : Answers} {q : Request} {live : List MigInstance}

/-- A marker that can be read is of the card its path names. -/
theorem card_of_mem_scanMarkers {e : MarkerEntry} (h : e ∈ scanMarkers files) :
    e.path.card = some e.marker.card := by
  have hvalid : MigMarker.valid e.path e.marker = true := Records.valid_of_mem_scan h
  simpa using (Bool.and_eq_true_iff.mp hvalid).2

/-- The GPU instances of a card that a marker owns. -/
def ownedGiIDsOnCard (entries : List MarkerEntry) (card : String) : List ℕ :=
  (entries.filter fun e => e.marker.card == card).map fun e => e.marker.giID

theorem mem_ownedGiIDsOnCard {entries : List MarkerEntry} {card : String} {giID : ℕ} :
    giID ∈ ownedGiIDsOnCard entries card ↔
      ∃ e ∈ entries, e.marker.card = card ∧ e.marker.giID = giID := by
  simp [ownedGiIDsOnCard, and_assoc]

/-- Whether an unreadable path leaves the owners of a card unknown: it names the card, or none. -/
def ownershipUnknownOnCard (corrupt : List MarkerPath) (card : String) : Bool :=
  corrupt.any fun path => path.card.all (· == card)

/-- A live instance of the profile's geometry that no marker owns and that a container can address. -/
def reuseUnboundInstance (live : List MigInstance) (owned : List ℕ)
    (computeSlices memorySlices : ℤ) : Option MigInstance :=
  live.find? fun i => i.uuid != "" && i.computeSlices == computeSlices &&
    i.placement.length == memorySlices && !owned.contains i.giID

/-- Whether two half-open intervals meet. -/
def MigPlacement.overlaps (a b : MigPlacement) : Bool :=
  decide (a.start < b.start + b.length) && decide (b.start < a.start + a.length)

def placementOverlapsAny (slot : MigPlacement) (occupied : List MigPlacement) : Bool :=
  occupied.any slot.overlaps

/-- The lowest free placement. -/
def pickPlacement (possible occupied : List MigPlacement) : Option MigPlacement :=
  (possible.insertionSort fun a b => a.start ≤ b.start).find? fun slot =>
    !placementOverlapsAny slot occupied

/-! ### The reservation on one card -/

/-- What a container asks of a card: the profile with its geometry there. -/
structure Request where
  podUID : String
  container : String
  card : String
  profile : String
  computeSlices : ℤ
  memorySlices : ℤ
deriving DecidableEq, Repr

/-- The container's own marker on the card. -/
def Request.self (q : Request) : MarkerPath := markerPath q.podUID q.container q.card

/-- The record that makes a partition the container's. -/
def Request.marker (q : Request) (i : MigInstance) : MigMarker :=
  ⟨q.podUID, q.container, q.card, q.profile, i.giID, i.ciID, i.uuid, i.computeSlices,
    i.placement.start, i.placement.length⟩

/-- How a reservation came by its partition: it created it, it adopted one that was there, or it found
its own marker again. -/
inductive Outcome
  | created
  | bound
  | rebound
deriving DecidableEq, Repr

/-- How a reservation ends for its caller; `lost` is a process that stopped. -/
inductive Reply
  | reserved (i : MigInstance) (outcome : Outcome)
  | failed (err : String)
  | lost
deriving DecidableEq, Repr

/-- What the driver and the disk answer during a reservation: the profile's placements on an empty
card, the ids of the instance created, how the marker's writing ends, and whether an instance can be
destroyed. -/
structure Answers where
  possible : Except String (List MigPlacement)
  create : Except String (ℕ × ℕ)
  write : WriteEnd
  destroy : Except String Unit

/-- The card without a GPU instance. -/
def destroyGi (live : List MigInstance) (giID : ℕ) : List MigInstance :=
  live.filter fun i => i.giID != giID

/-- Write the marker of a partition; `undo` is the card if the partition is taken back. -/
def claim (a : Answers) (files : Files) (live undo : List MigInstance) (q : Request) (i : MigInstance)
    (outcome : Outcome) : Files × List MigInstance × Reply :=
  let files' := if a.write.linked then files ++ [(q.self, some (q.marker i))] else files
  match a.write with
  | .published => (files', live, .reserved i outcome)
  | .failed err _ => (files', undo, .failed err)
  | .stopped _ => (files', live, .lost)

/-- Adopt a live instance; one that cannot be recorded is left as it was. -/
def bindInstance (a : Answers) (files : Files) (live : List MigInstance) (q : Request)
    (i : MigInstance) : Files × List MigInstance × Reply :=
  claim a files live live q i .bound

/-- Create an instance in the lowest free place; one that cannot be recorded is destroyed again.
`uuidOf` is the name the driver gives a placement of the card. -/
def createInstance (uuidOf : MigPlacement → String) (a : Answers) (files : Files)
    (live : List MigInstance) (q : Request) (possible : List MigPlacement) :
    Files × List MigInstance × Reply :=
  match pickPlacement possible (live.map MigInstance.placement) with
  | none => (files, live, .failed s!"card {q.card} has no free placement for profile {q.profile}")
  | some slot =>
  match a.create with
  | .error err => (files, live, .failed s!"create {q.profile} instance on card {q.card}: {err}")
  | .ok (giID, ciID) =>
    let i : MigInstance := ⟨giID, ciID, q.computeSlices, slot, uuidOf slot⟩
    claim a files (live ++ [i])
      (match a.destroy with
        | .ok _ => destroyGi (live ++ [i]) giID
        | .error _ => live ++ [i]) q i .created

/-- Rebind the partition of the container's own marker, if it is still the one recorded. -/
def rebind (a : Answers) (live : List MigInstance) (q : Request) (m : MigMarker) : Reply :=
  if m.profile ≠ q.profile then
    .failed s!"marker mismatches request (profile={q.profile}): fail closed"
  else match a.possible with
  | .error err => .failed s!"read card {q.card} state: {err}"
  | .ok _ => match live.find? fun i => i.giID == m.giID with
    | none =>
      .failed s!"marker references missing gpu instance {m.giID} on card {q.card}: fail closed"
    | some i => if i.uuid = m.migUUID then .reserved m.recorded .rebound
      else .failed (s!"marker gpu instance {m.giID} uuid {m.migUUID} no longer matches live uuid " ++
        s!"{i.uuid} (id reused): fail closed")

/-- **The allocation on one card**, run under the card's lock. -/
def reserveMigInstance (uuidOf : MigPlacement → String) (a : Answers) (files : Files)
    (live : List MigInstance) (q : Request) : Files × List MigInstance × Reply :=
  match files.lookup q.self with
  | some contents =>
    match parseMarker q.self contents with
    | some m => (files, live, rebind a live q m)
    | none => (files, live, .failed "read self marker")
  | none =>
  match a.possible with
  | .error err => (files, live, .failed s!"read card {q.card} state: {err}")
  | .ok possible =>
    -- A marker of this card that cannot be read may own any instance that looks unowned.
    let adoptable := if ownershipUnknownOnCard (corruptPaths files) q.card then none
      else reuseUnboundInstance live (ownedGiIDsOnCard (scanMarkers files) q.card) q.computeSlices
        q.memorySlices
    match adoptable with
    | some i => bindInstance a files live q i
    | none => createInstance uuidOf a files live q possible

/-- What a reservation did: nothing, or it found the container's marker with its partition, or it
adopted or created a partition and wrote the marker, each with the conditions it found. -/
inductive Reserves (a : Answers) (files : Files) (live : List MigInstance) (q : Request) :
    Files → List MigInstance → Reply → Prop
  | failed (err : String) : Reserves a files live q files live (.failed err)
  | rebound (m : MigMarker) (i : MigInstance) : ⟨q.self, m⟩ ∈ scanMarkers files → i ∈ live →
      i.giID = m.giID → i.uuid = m.migUUID →
      Reserves a files live q files live (.reserved m.recorded .rebound)
  | bound (i : MigInstance) (linked : Bool) (reply : Reply) : files.lookup q.self = none →
      i ∈ live → i.giID ∉ ownedGiIDsOnCard (scanMarkers files) q.card →
      (∀ j outcome, reply = .reserved j outcome → linked = true ∧ j = i ∧ outcome = .bound) →
      Reserves a files live q
        (if linked then files ++ [(q.self, some (q.marker i))] else files) live reply
  | created (i : MigInstance) (linked kept : Bool) (reply : Reply) : files.lookup q.self = none →
      a.create = .ok (i.giID, i.ciID) →
      (kept = false → (∃ err, a.write = .failed err linked) ∧ a.destroy = .ok ()) →
      (∀ j outcome, reply = .reserved j outcome →
        linked = true ∧ kept = true ∧ j = i ∧ outcome = .created) →
      Reserves a files live q
        (if linked then files ++ [(q.self, some (q.marker i))] else files)
        (if kept then live ++ [i] else destroyGi (live ++ [i]) i.giID) reply

theorem reserves_rebind {m : MigMarker} (hm : ⟨q.self, m⟩ ∈ scanMarkers files) :
    Reserves a files live q files live (rebind a live q m) := by
  unfold rebind
  split
  · exact .failed _
  split
  · exact .failed _
  split
  · exact .failed _
  next i hi =>
  split
  next huuid =>
    exact .rebound m i hm (List.mem_of_find?_eq_some hi) (by simpa using List.find?_some hi) huuid
  · exact .failed _

theorem reserves_bindInstance {i : MigInstance} (hself : files.lookup q.self = none)
    (hi : reuseUnboundInstance live (ownedGiIDsOnCard (scanMarkers files) q.card) q.computeSlices
      q.memorySlices = some i) :
    Reserves a files live q (bindInstance a files live q i).1 (bindInstance a files live q i).2.1
      (bindInstance a files live q i).2.2 := by
  have hmem := List.mem_of_find?_eq_some hi
  have hfree : i.giID ∉ ownedGiIDsOnCard (scanMarkers files) q.card := by
    have := List.find?_some hi
    simp only [Bool.and_eq_true, Bool.not_eq_true', List.contains_eq_mem,
      decide_eq_false_iff_not] at this
    exact this.2
  unfold bindInstance claim
  cases a.write with
  | published =>
    exact .bound i true _ hself hmem hfree (by rintro j outcome ⟨⟩; exact ⟨rfl, rfl, rfl⟩)
  | failed err linked => exact .bound i linked _ hself hmem hfree (by rintro j outcome ⟨⟩)
  | stopped linked => exact .bound i linked _ hself hmem hfree (by rintro j outcome ⟨⟩)

theorem reserves_createInstance (uuidOf : MigPlacement → String) (possible : List MigPlacement)
    (hself : files.lookup q.self = none) :
    Reserves a files live q (createInstance uuidOf a files live q possible).1
      (createInstance uuidOf a files live q possible).2.1
      (createInstance uuidOf a files live q possible).2.2 := by
  unfold createInstance
  split
  · exact .failed _
  next slot _ =>
  rcases hcreate : a.create with err | ⟨giID, ciID⟩
  · exact .failed _
  dsimp only
  unfold claim
  cases hwrite : a.write with
  | published =>
    exact .created ⟨giID, ciID, q.computeSlices, slot, uuidOf slot⟩ true true _ hself hcreate
      (by rintro ⟨⟩) (by rintro j outcome ⟨⟩; exact ⟨rfl, rfl, rfl, rfl⟩)
  | failed err linked =>
    cases hdestroy : a.destroy with
    | ok _ =>
      exact .created ⟨giID, ciID, q.computeSlices, slot, uuidOf slot⟩ linked false _ hself hcreate
        (fun _ => ⟨⟨err, hwrite⟩, hdestroy⟩) (by rintro j outcome ⟨⟩)
    | error _ =>
      exact .created ⟨giID, ciID, q.computeSlices, slot, uuidOf slot⟩ linked true _ hself hcreate
        (by rintro ⟨⟩) (by rintro j outcome ⟨⟩)
  | stopped linked =>
    exact .created ⟨giID, ciID, q.computeSlices, slot, uuidOf slot⟩ linked true _ hself hcreate
      (by rintro ⟨⟩) (by rintro j outcome ⟨⟩)

/-- **Everything a reservation can do.** -/
theorem reserves_reserveMigInstance (uuidOf : MigPlacement → String) (a : Answers) (files : Files)
    (live : List MigInstance) (q : Request) :
    Reserves a files live q (reserveMigInstance uuidOf a files live q).1
      (reserveMigInstance uuidOf a files live q).2.1
      (reserveMigInstance uuidOf a files live q).2.2 := by
  unfold reserveMigInstance
  rcases hself : files.lookup q.self with _ | contents
  · dsimp only
    split
    · exact .failed _
    split
    next i hi =>
      split at hi
      · cases hi
      · exact reserves_bindInstance hself hi
    · exact reserves_createInstance uuidOf _ hself
  · dsimp only
    rcases hm : parseMarker q.self contents with _ | m
    · exact .failed _
    · exact reserves_rebind (Records.mem_scan_of_lookup hself hm)

end GpuStack.Nvidia
