import GpuStack.Lib.Debounce
import GpuStack.Metax.Slice

/-!
# Metax/Reclaim — the MetaX reclaim loop

A pass lists the registry, reads the markers and collects what it may reclaim under two kinds of key: a
Pod, with the slices its markers name and the unmarked subdevices tagged with it; and a card, with its
unmarked subdevices that name nobody.  A Pod's key is live while the Pod is, a card's while some live
Pod is known to be on the card.  What has been missed `reclaimMaxMisses` times in a row is destroyed.

`mem_removals` says what a pass removes.
-/

namespace GpuStack.Metax

open List

def reclaimMaxMisses : ℕ := 3

/-- What a miss is counted under. -/
inductive MissKey
  | pod (uid : String)
  | card (bdf : String)
deriving DecidableEq, Repr

/-- What one pass is given and what the driver and the disk answer it. -/
structure ReclaimPass where
  livePodUIDs : List String
  list : Except String Unit
  removeFails : SubdevKey → Bool
  unlinkFails : MarkerPath → Bool

/-- A pass over a registry and the markers it can read. -/
structure Survey where
  pass : ReclaimPass
  registry : List SgpuSubdevice
  markers : List MarkerEntry

namespace Survey

variable (s : Survey)

/-- Whether a marker of a slice names the subdevice. -/
def marked (key : SubdevKey) : Bool :=
  s.markers.any fun e => !e.marker.wholeCard && e.marker.key == key

/-- The unmarked subdevices that name a Pod in their alias. -/
def tagged (uid : String) : List SgpuSubdevice :=
  s.registry.filter fun sd => !s.marked sd.key && decodeAliasUID sd.tag == some uid

/-- The unmarked subdevices of a card that name nobody. -/
def unidentified (bdf : String) : List SgpuSubdevice :=
  s.registry.filter fun sd =>
    sd.bdf == bdf && !s.marked sd.key && (decodeAliasUID sd.tag).isNone

/-- The markers of a Pod. -/
def markersOf (uid : String) : List MarkerEntry :=
  s.markers.filter fun e => e.marker.podUID == uid

/-- Whether a live Pod is known to be on the card. -/
def liveOnCard (bdf : String) : Bool :=
  (s.markers.any fun e => e.marker.cardBDF == bdf && s.pass.livePodUIDs.contains e.marker.podUID) ||
    s.registry.any fun sd => sd.bdf == bdf && !s.marked sd.key &&
      (decodeAliasUID sd.tag).any s.pass.livePodUIDs.contains

/-- The subdevices to destroy under a key. -/
def subdevices : MissKey → List SubdevKey
  | .pod uid => ((s.markersOf uid).filter fun e => !e.marker.wholeCard).map (fun e => e.marker.key) ++
      (s.tagged uid).map SgpuSubdevice.key
  | .card bdf => (s.unidentified bdf).map SgpuSubdevice.key

/-- The marker files to remove under a key. -/
def files : MissKey → List MarkerEntry
  | .pod uid => s.markersOf uid
  | .card _ => []

/-- Whether the pass meets a key at all. -/
def touched (k : MissKey) : Bool := !(s.subdevices k).isEmpty || !(s.files k).isEmpty

/-- Whether a key is live. -/
def live : MissKey → Bool
  | .pod uid => s.pass.livePodUIDs.contains uid
  | .card bdf => s.liveOnCard bdf

variable (misses : MissKey → ℕ)

/-- The keys the pass reclaims. -/
def due (k : MissKey) : Bool := Debounce.ripe reclaimMaxMisses s.touched s.live misses k

/-- A key is done when every removal under it succeeded. -/
def done (k : MissKey) : Bool :=
  s.due misses k && (s.subdevices k).all (fun key => !s.pass.removeFails key) &&
    (s.files k).all fun e => !s.pass.unlinkFails e.path

/-- The counters the pass leaves. -/
def counted : MissKey → ℕ :=
  Debounce.settle (s.done misses) (Debounce.tally s.touched s.live misses)

/-- Every key the pass may meet. -/
def keys : List MissKey :=
  s.markers.map (fun e => .pod e.marker.podUID) ++
    s.registry.filterMap (fun sd => (decodeAliasUID sd.tag).map .pod) ++
    s.registry.map fun sd => .card sd.bdf

/-- The subdevices the pass removes. -/
def removals : List SubdevKey := (s.keys.filter (s.due misses)).flatMap s.subdevices

/-- The markers the pass removes. -/
def unlinks : List MarkerEntry := (s.keys.filter (s.due misses)).flatMap s.files

variable {uid : String} {key : SubdevKey}

theorem mem_tagged {sd : SgpuSubdevice} :
    sd ∈ s.tagged uid ↔
      sd ∈ s.registry ∧ s.marked sd.key = false ∧ decodeAliasUID sd.tag = some uid := by
  simp [tagged]

theorem mem_unidentified {bdf : String} {sd : SgpuSubdevice} :
    sd ∈ s.unidentified bdf ↔ sd ∈ s.registry ∧ sd.bdf = bdf ∧ s.marked sd.key = false ∧
      decodeAliasUID sd.tag = none := by
  simp [unidentified, and_assoc]

theorem mem_markersOf {e : MarkerEntry} :
    e ∈ s.markersOf uid ↔ e ∈ s.markers ∧ e.marker.podUID = uid := by
  simp [markersOf]

theorem marked_iff :
    s.marked key = true ↔ ∃ e ∈ s.markers, e.marker.wholeCard = false ∧ e.marker.key = key := by
  simp [marked]

theorem mem_subdevices_pod :
    key ∈ s.subdevices (.pod uid) ↔
      (∃ e ∈ s.markers, e.marker.podUID = uid ∧ e.marker.wholeCard = false ∧ e.marker.key = key) ∨
        ∃ sd ∈ s.registry, s.marked key = false ∧ decodeAliasUID sd.tag = some uid ∧
          sd.key = key := by
  simp only [subdevices, mem_append, mem_map, mem_filter, mem_markersOf, mem_tagged,
    Bool.not_eq_true']
  constructor
  · rintro (⟨e, ⟨⟨he, huid⟩, hpart⟩, hkey⟩ | ⟨sd, ⟨hsd, hmark, htag⟩, rfl⟩)
    · exact .inl ⟨e, he, huid, hpart, hkey⟩
    · exact .inr ⟨sd, hsd, hmark, htag, rfl⟩
  · rintro (⟨e, he, huid, hpart, hkey⟩ | ⟨sd, hsd, hmark, htag, rfl⟩)
    · exact .inl ⟨e, ⟨⟨he, huid⟩, hpart⟩, hkey⟩
    · exact .inr ⟨sd, ⟨hsd, hmark, htag⟩, rfl⟩

theorem mem_subdevices_card {bdf : String} :
    key ∈ s.subdevices (.card bdf) ↔ key.bdf = bdf ∧ ∃ sd ∈ s.registry, s.marked key = false ∧
      decodeAliasUID sd.tag = none ∧ sd.key = key := by
  simp only [subdevices, mem_map, mem_unidentified]
  constructor
  · rintro ⟨sd, ⟨hsd, hbdf, hmark, htag⟩, rfl⟩
    exact ⟨hbdf, sd, hsd, hmark, htag, rfl⟩
  · rintro ⟨hbdf, sd, hsd, hmark, htag, rfl⟩
    exact ⟨sd, ⟨hsd, hbdf, hmark, htag⟩, rfl⟩

/-- Whatever a key reclaims, the pass meets the key. -/
theorem mem_keys {k : MissKey} (h : s.touched k = true) : k ∈ s.keys := by
  simp only [touched, Bool.or_eq_true, Bool.not_eq_true', isEmpty_eq_false_iff_exists_mem] at h
  simp only [keys, mem_append, mem_map, mem_filterMap, Option.map_eq_some_iff]
  cases k with
  | pod uid =>
    obtain ⟨key, hkey⟩ | ⟨e, he⟩ := h
    · obtain ⟨e, he, huid, -, -⟩ | ⟨sd, hsd, -, htag, -⟩ := s.mem_subdevices_pod.mp hkey
      · exact .inl (.inl ⟨e, he, by rw [huid]⟩)
      · exact .inl (.inr ⟨sd, hsd, uid, htag, rfl⟩)
    · obtain ⟨he, huid⟩ := s.mem_markersOf.mp he
      exact .inl (.inl ⟨e, he, by rw [huid]⟩)
  | card bdf =>
    obtain ⟨key, hkey⟩ | ⟨e, he⟩ := h
    · obtain ⟨hbdf, sd, hsd, -, -, rfl⟩ := s.mem_subdevices_card.mp hkey
      exact .inr ⟨sd, hsd, by rw [← hbdf]; rfl⟩
    · simp [files] at he

theorem due_iff {k : MissKey} :
    s.due misses k = true ↔ s.touched k = true ∧ s.live k = false ∧ 2 ≤ misses k := by
  simp [due, Debounce.ripe, reclaimMaxMisses, and_assoc]

/-- **What a pass removes**: what stands under the keys that are due. -/
theorem mem_removals :
    key ∈ s.removals misses ↔ ∃ k, s.live k = false ∧ 2 ≤ misses k ∧ key ∈ s.subdevices k := by
  simp only [removals, mem_flatMap, mem_filter, due_iff]
  constructor
  · rintro ⟨k, ⟨-, -, hlive, hmiss⟩, hkey⟩
    exact ⟨k, hlive, hmiss, hkey⟩
  · rintro ⟨k, hlive, hmiss, hkey⟩
    have htouched : s.touched k = true := by
      simp only [touched, Bool.or_eq_true, Bool.not_eq_true', isEmpty_eq_false_iff_exists_mem]
      exact .inl ⟨key, hkey⟩
    exact ⟨k, ⟨s.mem_keys htouched, htouched, hlive, hmiss⟩, hkey⟩

/-- The counters the pass leaves; a listing that fails leaves them as they were. -/
def after : MissKey → ℕ :=
  match s.pass.list with
  | .error _ => misses
  | .ok _ => s.counted misses

/-- Every Pod the pass may meet. -/
def pods : List String :=
  s.markers.map (fun e => e.marker.podUID) ++ s.registry.filterMap fun sd => decodeAliasUID sd.tag

/-- **The slices the pass destroys as a Pod's**, each with the Pod it is recorded for. -/
def destroyed : List (String × SubdevKey) :=
  match s.pass.list with
  | .error _ => []
  | .ok _ => (s.pods.filter fun uid => s.due misses (.pod uid)).flatMap fun uid =>
      ((s.subdevices (.pod uid)).filter fun key => !s.pass.removeFails key).map (Prod.mk uid)

theorem due_of_mem_destroyed (h : (uid, key) ∈ s.destroyed misses) :
    s.due misses (.pod uid) = true := by
  unfold destroyed at h
  split at h
  · cases h
  · obtain ⟨uid', huid', hkey⟩ := mem_flatMap.mp h
    obtain ⟨key', -, hpair⟩ := mem_map.mp hkey
    obtain ⟨rfl, -⟩ := Prod.mk.inj hpair
    exact (mem_filter.mp huid').2

/-- The loop's counters, as those of a debounced loop. -/
def loop : Debounce.Loop MissKey Survey where
  pass s := ⟨s.pass.list.isOk, s.live⟩
  next misses s := s.after misses
  next_le misses s k := by
    unfold after
    cases hlist : s.pass.list with
    | error err => simp [Debounce.Pass.ceiling, Except.isOk, Except.toBool]
    | ok _ => exact Debounce.settle_tally_le misses k

end Survey

/-- The driver's registry, the marker files and the loop's counters. -/
structure Node where
  registry : List SgpuSubdevice
  files : Files
  misses : MissKey → ℕ

/-- What a pass reads. -/
def Node.survey (n : Node) (pass : ReclaimPass) : Survey := ⟨pass, n.registry, scanMarkers n.files⟩

/-- **One pass of the loop**; a listing that fails skips it. -/
def Node.reconcile (n : Node) (pass : ReclaimPass) : Node :=
  match pass.list with
  | .error _ => n
  | .ok _ =>
    let s := n.survey pass
    { registry := n.registry.filter fun sd =>
        !((s.removals n.misses).contains sd.key && !pass.removeFails sd.key)
      files := n.files.filter fun file =>
        !((s.unlinks n.misses).any fun e => e.path == file.1 && !pass.unlinkFails e.path)
      misses := s.counted n.misses }

end GpuStack.Metax
