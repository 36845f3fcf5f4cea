import GpuStack.Lib.Debounce
import GpuStack.Nvidia.Partition

/-!
# Nvidia/Reclaim — the NVIDIA reclaim loop

A pass reads the markers, the placements that running Pods claim and the live instances, and counts
three kinds of absence: a Pod with markers that is not live, a card with marker-less instances that no
live Pod marks or claims, and an unreadable marker whose path names a Pod that is not live.  A claims
read or a listing that fails skips the pass.

What it destroys it destroys card by card, under the card's lock and on what it reads again there.
`openSection` is that reading for a dead Pod's markers, and `CardSection.verdict` what it makes of one of
them; `orphansHeld` is the reading for marker-less instances.  `due_of_mem_destroyed` says of whom a call
destroys partitions, and `loop` fits the counters to the rules of `Lib/Debounce`.
-/

namespace GpuStack.Nvidia

def reclaimMaxMisses : ℕ := 3

/-- What a miss is counted under. -/
inductive MissKey
  | pod (uid : String)
  | card (card : String)
  | corrupt (path : MarkerPath)
deriving DecidableEq, Repr

/-- What the driver answers when a partition is asked for its processes. -/
inductive Processes
  | counted (n : ℕ)
  | noAddressableDevice
  | unanswered (err : String)
deriving DecidableEq, Repr

/-- Whether the answer keeps a partition from being destroyed. -/
def destroyBlockedBy : Processes → Bool
  | .noAddressableDevice => false
  | .unanswered _ => true
  | .counted procs => procs != 0

/-- The instance with an id, in one card's enumeration. -/
def findLiveGi (instances : List MigInstance) (giID : ℕ) : Option MigInstance :=
  instances.find? fun i => i.giID == giID

/-- The ids of a card that another Pod's marker claims. -/
def supersedingGiIDsOnCard (entries : List MarkerEntry) (card reclaimingPodUID : String) : List ℕ :=
  (entries.filter fun e => e.marker.card == card && e.marker.podUID != reclaimingPodUID).map
    fun e => e.marker.giID

/-- Whether an unreadable path may be another Pod's claim on the card. -/
def supersedingCorruptOnCard (corrupt : List MarkerPath) (card reclaimingPodUID : String) : Bool :=
  corrupt.any fun path => match path.card with
    | none => true
    | some c => c == card && path.podUID != some reclaimingPodUID

/-- Whether a live instance carries the identity a marker recorded. -/
def MigInstance.matchesMarker (i : MigInstance) (m : MigMarker) : Bool :=
  i.uuid == m.migUUID && i.placement == m.placement

/-! ### One card, under its lock -/

/-- What is read of a card under its lock before a dead Pod's markers there are worked off. -/
structure CardSection where
  instances : List MigInstance
  superseded : List ℕ
deriving DecidableEq, Repr

/-- Read the card again; an unreadable record that may be somebody else's claim holds it. -/
def openSection (instances : Except String (List MigInstance)) (files : Files) (uid card : String) :
    Option CardSection :=
  match instances with
  | .error _ => none
  | .ok instances =>
    if supersedingCorruptOnCard (corruptPaths files) card uid then none
    else some ⟨instances, supersedingGiIDsOnCard (scanMarkers files) card uid⟩

/-- What the card shows of a marker's partition. -/
inductive Verdict
  | gone
  | superseded
  | reused
  | ours
deriving DecidableEq, Repr

def CardSection.verdict (s : CardSection) (m : MigMarker) : Verdict :=
  match findLiveGi s.instances m.giID with
  | none => .gone
  | some i =>
    if s.superseded.contains m.giID then .superseded
    else if i.matchesMarker m then .ours
    else .reused

/-- Whether the marker-less instances of a card are left alone after all. -/
def orphansHeld (files : Files) (card : String) : Bool :=
  !(ownedGiIDsOnCard (scanMarkers files) card).isEmpty ||
    ownershipUnknownOnCard (corruptPaths files) card

theorem mem_supersedingGiIDsOnCard {entries : List MarkerEntry} {card uid : String} {giID : ℕ} :
    giID ∈ supersedingGiIDsOnCard entries card uid ↔
      ∃ e ∈ entries, e.marker.card = card ∧ e.marker.podUID ≠ uid ∧ e.marker.giID = giID := by
  simp [supersedingGiIDsOnCard, and_assoc]

/-- A partition is the reclaimed Pod's own only if the section met no other claim on its id. -/
theorem CardSection.verdict_eq_ours {s : CardSection} {m : MigMarker} :
    s.verdict m = .ours ↔ m.giID ∉ s.superseded ∧
      ∃ i, findLiveGi s.instances m.giID = some i ∧ i.matchesMarker m = true := by
  unfold verdict
  cases findLiveGi s.instances m.giID with
  | none => simp
  | some i =>
    simp only [List.contains_eq_mem, decide_eq_true_eq, Option.some.injEq, exists_eq_left']
    split_ifs <;> simp_all

/-! ### The pass -/

/-- What a pass reads before it takes any lock. -/
structure Snapshot where
  livePodUIDs : List String
  claims : String → List MigPlacement
  instances : List (String × MigInstance)
  files : Files

namespace Snapshot

variable (s : Snapshot)

def markers : List MarkerEntry := scanMarkers s.files

def corrupt : List MarkerPath := corruptPaths s.files

/-- The markers of a Pod. -/
def markersOf (uid : String) : List MarkerEntry := s.markers.filter fun e => e.marker.podUID == uid

/-- The instances of a card that no marker owns. -/
def orphans (card : String) : List MigInstance :=
  (s.instances.filter fun li => li.1 == card &&
    !(ownedGiIDsOnCard s.markers card).contains li.2.giID).map Prod.snd

/-- Whether a live Pod marks or claims the card. -/
def liveOnCard (card : String) : Bool :=
  !(s.claims card).isEmpty ||
    s.markers.any fun e => e.marker.card == card && s.livePodUIDs.contains e.marker.podUID

/-- Whether the pass counts a key at all.  An unreadable path that names no Pod is kept for good: the
passes it holds the node are counted for a log line only. -/
def touched : MissKey → Bool
  | .pod uid => !(s.markersOf uid).isEmpty
  | .card card => !(s.orphans card).isEmpty
  | .corrupt path => s.corrupt.contains path && path.podUID.isSome

/-- Whether a key is live. -/
def live : MissKey → Bool
  | .pod uid => s.livePodUIDs.contains uid
  | .card card => s.liveOnCard card || ownershipUnknownOnCard s.corrupt card
  | .corrupt path => path.podUID.any s.livePodUIDs.contains

/-- The keys the pass reclaims. -/
def due (misses : MissKey → ℕ) (k : MissKey) : Bool :=
  Debounce.ripe reclaimMaxMisses s.touched s.live misses k

/-- The markers of a Pod whose placement no running Pod claims. -/
def unclaimed (uid : String) : List MarkerEntry :=
  (s.markersOf uid).filter fun e => !placementOverlapsAny e.marker.placement (s.claims e.marker.card)

theorem due_iff {misses : MissKey → ℕ} {k : MissKey} :
    s.due misses k = true ↔ s.touched k = true ∧ s.live k = false ∧ 2 ≤ misses k := by
  simp [due, Debounce.ripe, reclaimMaxMisses, and_assoc]

theorem mem_unclaimed {uid : String} {e : MarkerEntry} (h : e ∈ s.unclaimed uid) :
    e ∈ s.markers ∧ e.marker.podUID = uid := by
  have hof := (List.mem_filter.mp h).1
  simpa [markersOf] using hof

end Snapshot

/-! ### One call -/

/-- One call of the loop: what it is given, what it reads before and under the locks, and what the driver
and the disk answer. -/
structure ReclaimCall where
  livePodUIDs : List String
  claims : Except String (String → List MigPlacement)
  instances : Except String (List (String × MigInstance))
  files : Files
  cardInstances : String → String → Except String (List MigInstance)
  cardFiles : String → String → Files
  orphanFiles : String → Files
  processes : String → MigInstance → Processes
  destroyFails : String → MigInstance → Bool
  unlinkFails : MarkerPath → Bool

namespace ReclaimCall

variable (c : ReclaimCall)

/-- What the call reads at its start; none if a reading fails. -/
def snapshot : Option Snapshot :=
  match c.claims, c.instances with
  | .ok claims, .ok instances => some ⟨c.livePodUIDs, claims, instances, c.files⟩
  | _, _ => none

/-- Whether a partition is destroyed once it is found to be destroyable. -/
def destroys (card : String) (i : MigInstance) : Bool :=
  !destroyBlockedBy (c.processes card i) && !c.destroyFails card i

/-- The section of a dead Pod on a card. -/
def cardSection (uid card : String) : Option CardSection :=
  openSection (c.cardInstances uid card) (c.cardFiles uid card) uid card

/-- Whether the partition of a dead Pod's marker is destroyed. -/
def takes (uid : String) (m : MigMarker) : Bool :=
  (c.cardSection uid m.card).any fun s => s.verdict m == .ours && c.destroys m.card m.recorded

/-- Whether a dead Pod's marker is worked off: its partition is destroyed or not its own, and the file is
removed. -/
def retires (uid : String) (e : MarkerEntry) : Bool :=
  (c.cardSection uid e.marker.card).any fun s =>
    (s.verdict e.marker != .ours || c.destroys e.marker.card e.marker.recorded) &&
      !c.unlinkFails e.path

/-- Whether the call is done with a key it reclaimed. -/
def done (s : Snapshot) (misses : MissKey → ℕ) (k : MissKey) : Bool :=
  s.due misses k && match k with
    | .pod uid => (s.markersOf uid).all fun e =>
        !placementOverlapsAny e.marker.placement (s.claims e.marker.card) && c.retires uid e
    | .card card => !orphansHeld (c.orphanFiles card) card && (s.orphans card).all (c.destroys card)
    | .corrupt path => !c.unlinkFails path

/-- The counters the call leaves; a reading that fails leaves them as they were. -/
def counted (misses : MissKey → ℕ) : MissKey → ℕ :=
  match c.snapshot with
  | none => misses
  | some s => Debounce.settle (c.done s misses) (Debounce.tally s.touched s.live misses)

/-- **The partitions the call destroys as a dead Pod's**, each with the Pod its marker records. -/
def destroyed (misses : MissKey → ℕ) : List (String × String × MigInstance) :=
  match c.snapshot with
  | none => []
  | some s => (s.markers.filter fun e => s.due misses (.pod e.marker.podUID) &&
      !placementOverlapsAny e.marker.placement (s.claims e.marker.card) &&
      c.takes e.marker.podUID e.marker).map fun e =>
        (e.marker.podUID, e.marker.card, e.marker.recorded)

theorem live_eq_of_snapshot {s : Snapshot} (h : c.snapshot = some s) (uid : String) :
    s.live (.pod uid) = c.livePodUIDs.contains uid := by
  unfold snapshot at h
  split at h
  · rw [← Option.some.inj h]
    rfl
  · cases h

theorem due_of_mem_destroyed {misses : MissKey → ℕ} {uid card : String} {i : MigInstance}
    (h : (uid, card, i) ∈ c.destroyed misses) :
    2 ≤ misses (.pod uid) ∧ c.livePodUIDs.contains uid = false := by
  unfold destroyed at h
  split at h
  · cases h
  next s hs =>
  simp only [List.mem_map, List.mem_filter, Bool.and_eq_true, Prod.mk.injEq] at h
  obtain ⟨e, ⟨-, ⟨hdue, -⟩, -⟩, rfl, -⟩ := h
  obtain ⟨-, hlive, hmiss⟩ := s.due_iff.mp hdue
  exact ⟨hmiss, c.live_eq_of_snapshot hs _ ▸ hlive⟩

/-- Whether a key is live in a call, whatever else it reads. -/
def keyLive (k : MissKey) : Bool :=
  match c.snapshot with
  | some s => s.live k
  | none => match k with
    | .pod uid => c.livePodUIDs.contains uid
    | _ => false

theorem keyLive_pod (uid : String) : c.keyLive (.pod uid) = c.livePodUIDs.contains uid := by
  unfold keyLive
  split
  next s hs => exact c.live_eq_of_snapshot hs uid
  · rfl

/-- The loop's counters, as those of a debounced loop. -/
def loop : Debounce.Loop MissKey ReclaimCall where
  pass c := ⟨c.snapshot.isSome, c.keyLive⟩
  next misses c := c.counted misses
  next_le misses c k := by
    unfold counted keyLive
    cases c.snapshot with
    | none => simp [Debounce.Pass.ceiling]
    | some s => exact Debounce.settle_tally_le misses k

end ReclaimCall

end GpuStack.Nvidia
