import GpuStack.Metax.Reclaim

/-!
# Metax/Runs — the life of a MetaX node's slices

The node's world is changed by reservations, by passes of the reclaim loop, by marker files that become
unreadable and by restarts.  `granted` remembers every successful answer, and `standing` the slices
granted and not removed by the loop since.

`Owned` is the invariant: a standing slice of a live Pod is in the registry under the container's own
tag, and no other container's marker names it.  It rests on one fact about reservations, that an index
in the registry or in a readable marker is never given out.
-/

namespace GpuStack.Metax

open List

/-- A successful answer: the container, the card and the index, `wholeCardIndex` for a whole card. -/
structure Grant where
  holder : MarkerPath
  bdf : String
  index : ℤ
deriving DecidableEq, Repr

structure World where
  node : Node
  granted : List Grant
  standing : List (MarkerPath × SubdevKey)

/-- What happens to a node: an allocation, a pass of the loop, a marker file that can no longer be
read, and a restart of the process, which forgets the counters. -/
inductive Event
  | reserve (a : Answers) (q : Request)
  | reclaim (pass : ReclaimPass)
  | spoil (path : MarkerPath)
  | restart

/-- Whether a pass takes a subdevice out of the registry. -/
def World.removes (w : World) (pass : ReclaimPass) (key : SubdevKey) : Bool :=
  pass.list.isOk && ((w.node.survey pass).removals w.node.misses).contains key &&
    !pass.removeFails key

/-- The answer a reply is. -/
def Reply.grants (q : Request) : Reply → List Grant
  | .granted r => [⟨q.self, q.bdf, if r.wholeCard then wholeCardIndex else r.index⟩]
  | _ => []

/-- The slice a reply hands out. -/
def Reply.slices (q : Request) : Reply → List (MarkerPath × SubdevKey)
  | .granted r => if r.wholeCard then [] else [(q.self, ⟨q.bdf, r.index⟩)]
  | _ => []

def World.reserve (tags : Bool) (w : World) (a : Answers) (q : Request) : World :=
  let after := reserveSlice tags a w.node.registry w.node.files q
  { node :=
      { registry := after.1
        files := after.2.1
        misses := if after.2.2 = .lost then fun _ => 0 else w.node.misses }
    granted := after.2.2.grants q ++ w.granted
    standing := after.2.2.slices q ++ w.standing }

def World.step (tags : Bool) (w : World) : Event → World
  | .reserve a q => w.reserve tags a q
  | .reclaim pass =>
    { w with
      node := w.node.reconcile pass
      standing := w.standing.filter fun s => !w.removes pass s.2 }
  | .spoil path => { w with node := { w.node with files := Records.spoil path w.node.files } }
  | .restart => { w with node := { w.node with misses := fun _ => 0 } }

/-- A node on which nothing has been allocated. -/
def World.start : World := ⟨⟨[], [], fun _ => 0⟩, [], []⟩

/-- The worlds reached by events that are allowed where they happen. -/
inductive Reach (tags : Bool) (ok : World → Event → Prop) : World → Prop
  | start : Reach tags ok .start
  | step {w : World} {e : Event} : Reach tags ok w → ok w e → Reach tags ok (w.step tags e)

/-- Every pass is given the live Pods. -/
def Accurate (live : Set String) (_ : World) : Event → Prop
  | .reclaim pass => ∀ uid ∈ live, uid ∈ pass.livePodUIDs
  | _ => True

/-- The tag a listing shows for a Pod's subdevice. -/
def tagOf (tags : Bool) (podUID : String) : String := if tags then encodeAlias podUID else ""

/-- **The slices of live Pods are their own.** -/
structure Owned (tags : Bool) (live : Set String) (registry : List SgpuSubdevice) (files : Files)
    (standing : List (MarkerPath × SubdevKey)) : Prop where
  /-- A marker lies in the directory of the Pod it names. -/
  named : ∀ e ∈ scanMarkers files, e.marker.podUID = e.path.podUID
  /-- No two markers name one slice. -/
  distinct : ∀ e ∈ scanMarkers files, ∀ e' ∈ scanMarkers files, e.marker.wholeCard = false →
    e'.marker.wholeCard = false → e.marker.key = e'.marker.key → e.path = e'.path
  /-- A marked subdevice carries the tag of its marker's Pod. -/
  labelled : ∀ e ∈ scanMarkers files, e.marker.wholeCard = false → ∀ sd ∈ registry,
    sd.key = e.marker.key → sd.tag = tagOf tags e.path.podUID
  /-- A standing slice is in the registry. -/
  registered : ∀ s ∈ standing, s.1.podUID ∈ live → ∃ sd ∈ registry, sd.key = s.2
  /-- It carries its container's tag. -/
  tagged : ∀ s ∈ standing, s.1.podUID ∈ live → ∀ sd ∈ registry, sd.key = s.2 →
    sd.tag = tagOf tags s.1.podUID
  /-- Only its container's marker names it. -/
  marked : ∀ s ∈ standing, s.1.podUID ∈ live → ∀ e ∈ scanMarkers files,
    e.marker.wholeCard = false → e.marker.key = s.2 → e.path = s.1
  /-- It is one container's. -/
  single : ∀ s ∈ standing, ∀ s' ∈ standing, s.1.podUID ∈ live → s'.1.podUID ∈ live → s.2 = s'.2 →
    s.1 = s'.1

/-! ### A step keeps the slices their own -/

section Step

variable {tags : Bool} {live : Set String} {registry : List SgpuSubdevice} {files : Files}
  {standing : List (MarkerPath × SubdevKey)}

/-- Fewer files, fewer standing slices. -/
theorem Owned.shrink {registry' : List SgpuSubdevice} {files' : Files}
    {standing' : List (MarkerPath × SubdevKey)} (h : Owned tags live registry files standing)
    (hreg : ∀ sd ∈ registry', sd ∈ registry)
    (hscan : ∀ e ∈ scanMarkers files', e ∈ scanMarkers files)
    (hstand : ∀ s ∈ standing', s ∈ standing)
    (hkeep : ∀ s ∈ standing', ∀ sd ∈ registry, sd.key = s.2 → sd ∈ registry') :
    Owned tags live registry' files' standing' where
  named e he := h.named e (hscan e he)
  distinct e he e' he' := h.distinct e (hscan e he) e' (hscan e' he')
  labelled e he hpart sd hsd := h.labelled e (hscan e he) hpart sd (hreg sd hsd)
  registered s hs hlive := by
    obtain ⟨sd, hsd, hkey⟩ := h.registered s (hstand s hs) hlive
    exact ⟨sd, hkeep s hs sd hsd hkey, hkey⟩
  tagged s hs hlive sd hsd := h.tagged s (hstand s hs) hlive sd (hreg sd hsd)
  marked s hs hlive e he := h.marked s (hstand s hs) hlive e (hscan e he)
  single s hs s' hs' := h.single s (hstand s hs) s' (hstand s' hs')

/-- A container is handed a slice that is its own. -/
theorem Owned.hand {path : MarkerPath} {key : SubdevKey}
    (h : Owned tags live registry files standing) (hsd : ∃ sd ∈ registry, sd.key = key)
    (htag : ∀ sd ∈ registry, sd.key = key → sd.tag = tagOf tags path.podUID)
    (hmark : ∀ e ∈ scanMarkers files, e.marker.wholeCard = false → e.marker.key = key →
      e.path = path)
    (hown : ∀ s ∈ standing, s.1.podUID ∈ live → s.2 = key → s.1 = path) :
    Owned tags live registry files ((path, key) :: standing) where
  named := h.named
  distinct := h.distinct
  labelled := h.labelled
  registered := forall_mem_cons.mpr ⟨fun _ => hsd, h.registered⟩
  tagged := forall_mem_cons.mpr ⟨fun _ => htag, h.tagged⟩
  marked := forall_mem_cons.mpr ⟨fun _ => hmark, h.marked⟩
  single := by
    refine forall_mem_cons.mpr ⟨forall_mem_cons.mpr ⟨fun _ _ _ => rfl, ?_⟩, ?_⟩
    · exact fun s hs _ hlive hkey => (hown s hs hlive hkey.symm).symm
    · exact fun s hs => forall_mem_cons.mpr
        ⟨fun hlive _ hkey => hown s hs hlive hkey, h.single s hs⟩

/-- The slice a marker names is its container's own. -/
theorem Owned.reuse {e : MarkerEntry} (h : Owned tags live registry files standing)
    (he : e ∈ scanMarkers files) (hpart : e.marker.wholeCard = false)
    (hsd : ∃ sd ∈ registry, sd.key = e.marker.key) :
    Owned tags live registry files ((e.path, e.marker.key) :: standing) :=
  h.hand hsd (h.labelled e he hpart)
    (fun e' he' hpart' hkey => h.distinct e' he' e he hpart' hpart hkey)
    fun s hs hlive hkey => (h.marked s hs hlive e he hpart hkey.symm).symm

/-- A marker of a whole card names no slice. -/
theorem Owned.take {q : Request} {linked : Bool} (h : Owned tags live registry files standing) :
    Owned tags live registry
      (if linked then files ++ [(q.self, some (q.marker wholeCardIndex))] else files) standing := by
  have hpart : ∀ e ∈ scanMarkers
      (if linked then files ++ [(q.self, some (q.marker wholeCardIndex))] else files),
      e.marker.wholeCard = false → e ∈ scanMarkers files := by
    intro e he hpart
    rcases Records.mem_scan_add he with he | ⟨-, rfl⟩
    · exact he
    · simp [SgpuMarker.wholeCard, Request.marker] at hpart
  constructor
  · intro e he
    rcases Records.mem_scan_add he with he | ⟨-, rfl⟩
    · exact h.named e he
    · rfl
  · intro e he e' he' hp hp'
    exact h.distinct e (hpart e he hp) e' (hpart e' he' hp') hp hp'
  · intro e he hp
    exact h.labelled e (hpart e he hp) hp
  · exact h.registered
  · exact h.tagged
  · intro s hs hlive e he hp
    exact h.marked s hs hlive e (hpart e he hp) hp
  · exact h.single

/-- A free index is in no subdevice, no marker and no standing slice. -/
theorem Owned.free {bdf : String} {index : ℤ} (h : Owned tags live registry files standing)
    (hfree : index ∉ usedIndexesOnCard registry (scanMarkers files) bdf) :
    (∀ sd ∈ registry, sd.key ≠ ⟨bdf, index⟩) ∧
      (∀ e ∈ scanMarkers files, e.marker.wholeCard = false → e.marker.key ≠ ⟨bdf, index⟩) ∧
        ∀ s ∈ standing, s.1.podUID ∈ live → s.2 ≠ ⟨bdf, index⟩ := by
  have hreg : ∀ sd ∈ registry, sd.key ≠ ⟨bdf, index⟩ := fun sd hsd hkey =>
    hfree (mem_usedIndexesOnCard.mpr (.inl ⟨sd, hsd, hkey⟩))
  refine ⟨hreg, fun e he hpart hkey => ?_, fun s hs hlive hkey => ?_⟩
  · exact hfree (mem_usedIndexesOnCard.mpr (.inr ⟨e, he, hpart, hkey⟩))
  · obtain ⟨sd, hsd, hsdkey⟩ := h.registered s hs hlive
    exact hreg sd hsd (hsdkey.trans hkey)

/-- A subdevice of the registry after a creation is an old one or the new one. -/
theorem mem_created {kept : Bool} {new sd : SgpuSubdevice}
    (h : sd ∈ (if kept then registry ++ [new] else registry)) : sd ∈ registry ∨ sd = new := by
  split_ifs at h
  · simpa using h
  · exact .inl h

/-- A new subdevice and a new marker have a key nobody had. -/
theorem Owned.create {q : Request} {index : ℤ} (linked kept : Bool)
    (h : Owned tags live registry files standing)
    (hfree : index ∉ usedIndexesOnCard registry (scanMarkers files) q.bdf) :
    Owned tags live
      (if kept then registry ++ [⟨q.bdf, index, tagOf tags q.podUID⟩] else registry)
      (if linked then files ++ [(q.self, some (q.marker index))] else files) standing := by
  obtain ⟨hreg, hmark, hstand⟩ := h.free hfree
  constructor
  · intro e he
    rcases Records.mem_scan_add he with he | ⟨-, rfl⟩
    · exact h.named e he
    · rfl
  · intro e he e' he' hp hp' hkey
    rcases Records.mem_scan_add he with he | ⟨-, rfl⟩ <;>
      rcases Records.mem_scan_add he' with he' | ⟨-, rfl⟩
    · exact h.distinct e he e' he' hp hp' hkey
    · exact absurd hkey (hmark e he hp)
    · exact absurd hkey.symm (hmark e' he' hp')
    · rfl
  · intro e he hp sd hsd hkey
    rcases Records.mem_scan_add he with he | ⟨-, rfl⟩ <;> rcases mem_created hsd with hsd | rfl
    · exact h.labelled e he hp sd hsd hkey
    · exact absurd hkey.symm (hmark e he hp)
    · exact absurd hkey (hreg sd hsd)
    · rfl
  · intro s hs hlive
    obtain ⟨sd, hsd, hkey⟩ := h.registered s hs hlive
    exact ⟨sd, by split_ifs <;> simp [hsd], hkey⟩
  · intro s hs hlive sd hsd hkey
    rcases mem_created hsd with hsd | rfl
    · exact h.tagged s hs hlive sd hsd hkey
    · exact absurd hkey.symm (hstand s hs hlive)
  · intro s hs hlive e he hp hkey
    rcases Records.mem_scan_add he with he | ⟨-, rfl⟩
    · exact h.marked s hs hlive e he hp hkey
    · exact absurd hkey.symm (hstand s hs hlive)
  · exact h.single

/-- **A reservation keeps the slices their own.** -/
theorem Owned.reserve {q : Request} {registry' : List SgpuSubdevice} {files' : Files} {reply : Reply}
    (h : Owned tags live registry files standing)
    (hr : Reserves tags registry files q registry' files' reply) :
    Owned tags live registry' files' (reply.slices q ++ standing) := by
  cases hr with
  | refused err => exact h
  | reusedWhole m _ _ _ => exact h
  | reused m env hm hkey hpart hsd =>
    have hslice : (q.self, (⟨q.bdf, m.index⟩ : SubdevKey)) = (q.self, m.key) := by rw [hkey]
    simpa [Reply.slices, hslice] using h.reuse hm hpart hsd
  | tookWhole linked reply _ _ _ hgranted =>
    have hnone : reply.slices q = [] := by
      cases reply with
      | granted r => simp [Reply.slices, (hgranted r rfl).2]
      | refused err => rfl
      | lost => rfl
    rw [hnone]
    exact h.take
  | created index linked kept reply _ _ _ hfree hgranted =>
    have hnew := h.create linked kept hfree
    cases reply with
    | refused err => exact hnew
    | lost => exact hnew
    | granted r =>
      obtain ⟨rfl, rfl, hpart, hindex⟩ := hgranted r rfl
      obtain ⟨hreg, hmark, hstand⟩ := h.free hfree
      have hslice : (Reply.granted r).slices q = [(q.self, ⟨q.bdf, index⟩)] := by
        simp [Reply.slices, hpart, hindex]
      rw [hslice]
      refine hnew.hand ⟨_, mem_append_right _ (mem_singleton_self _), rfl⟩ ?_ ?_ ?_
      · intro sd hsd hkey
        rcases mem_created hsd with hsd | rfl
        · exact absurd hkey (hreg sd hsd)
        · rfl
      · intro e he hp hkey
        rcases Records.mem_scan_add he with he | ⟨-, rfl⟩
        · exact absurd hkey (hmark e he hp)
        · rfl
      · exact fun s hs hlive hkey => absurd hkey (hstand s hs hlive)

end Step

/-- The invariant of a world. -/
abbrev World.Owns (tags : Bool) (live : Set String) (w : World) : Prop :=
  Owned tags live w.node.registry w.node.files w.standing

variable {tags : Bool} {w : World} {pass : ReclaimPass} {key : SubdevKey}

theorem owns_step {live : Set String} (h : w.Owns tags live) (e : Event) :
    (w.step tags e).Owns tags live := by
  cases e with
  | reserve a q => exact Owned.reserve h (reserves_reserveSlice tags a _ _ q)
  | reclaim pass =>
    rcases hlist : pass.list with err | ⟨⟩
    · simp only [World.Owns, World.step, Node.reconcile, hlist]
      exact Owned.shrink h (fun sd hsd => hsd) (fun e he => he)
        (fun s hs => mem_of_mem_filter hs) fun s _ sd hsd _ => hsd
    · simp only [World.Owns, World.step, Node.reconcile, hlist]
      refine Owned.shrink h (fun sd hsd => mem_of_mem_filter hsd)
        (fun e he => Records.mem_scan_filter he) (fun s hs => mem_of_mem_filter hs) ?_
      -- What is still standing was not removed.
      intro s hs sd hsd hkey
      have hstays := (mem_filter.mp hs).2
      simp only [World.removes, hlist, Except.isOk, Except.toBool, Bool.true_and] at hstays
      exact mem_filter.mpr ⟨hsd, by simpa only [hkey] using hstays⟩
  | spoil path =>
    exact Owned.shrink h (fun sd hsd => hsd) (fun e he => Records.mem_scan_spoil he)
      (fun s hs => hs) fun s _ sd hsd _ => hsd
  | restart => exact h

theorem Reach.owns {ok : World → Event → Prop} (hw : Reach tags ok w) (live : Set String) :
    w.Owns tags live := by
  induction hw with
  | start => constructor <;> simp [World.start, scanMarkers, Records.scan]
  | step _ _ ih => exact owns_step ih _

/-! ### When a pass takes a live slice -/

/-- A pass finds no marker that names the subdevice and no tag on it, knows of no live Pod on its card,
and has found the card so twice before; the removal then succeeds. -/
def World.Drains (w : World) (pass : ReclaimPass) (key : SubdevKey) : Prop :=
  pass.list.isOk = true ∧ pass.removeFails key = false ∧
    (∀ e ∈ scanMarkers w.node.files, e.marker.wholeCard = false → e.marker.key ≠ key) ∧
    (∃ sd ∈ w.node.registry, decodeAliasUID sd.tag = none ∧ sd.key = key) ∧
    (w.node.survey pass).liveOnCard key.bdf = false ∧ 2 ≤ w.node.misses (.card key.bdf)

theorem not_marked_iff :
    (w.node.survey pass).marked key = false ↔
      ∀ e ∈ scanMarkers w.node.files, e.marker.wholeCard = false → e.marker.key ≠ key := by
  rw [← Bool.not_eq_true, Survey.marked_iff]
  push Not
  rfl

/-- A tag of ours names its own Pod or nobody. -/
theorem decodeAliasUID_tagOf {podUID uid : String}
    (h : decodeAliasUID (tagOf tags podUID) = some uid) : uid = podUID := by
  cases tags with
  | false =>
    have hnone : decodeAliasUID "" = none := by decide
    rw [tagOf, if_neg Bool.false_ne_true, hnone] at h
    cases h
  | true => exact decodeAliasUID_encodeAlias h

theorem World.removes_iff :
    w.removes pass key = true ↔ pass.list.isOk = true ∧ pass.removeFails key = false ∧
      key ∈ (w.node.survey pass).removals w.node.misses := by
  simp only [World.removes, Bool.and_eq_true, contains_iff_mem, Bool.not_eq_true']
  tauto

/-- **A slice of a live Pod is removed only from a card that looks drained**: its Pod's own key is
live, and no other Pod's marker or tag names it. -/
theorem removes_iff_drains {live : Set String} (h : w.Owns tags live)
    (hpass : ∀ uid ∈ live, uid ∈ pass.livePodUIDs) {path : MarkerPath}
    (hs : (path, key) ∈ w.standing) (hlive : path.podUID ∈ live) :
    w.removes pass key = true ↔ w.Drains pass key := by
  have halive : (w.node.survey pass).live (.pod path.podUID) = true :=
    contains_iff_mem.mpr (hpass _ hlive)
  rw [World.removes_iff, Survey.mem_removals]
  constructor
  · rintro ⟨hlist, hfails, k, hdead, hmiss, hkey⟩
    cases k with
    | pod uid =>
      suffices uid = path.podUID by rw [this, halive] at hdead; cases hdead
      obtain ⟨e, he, rfl, hpart, hek⟩ | ⟨sd, hsd, -, htag, hsdk⟩ :=
        (w.node.survey pass).mem_subdevices_pod.mp hkey
      · rw [h.named e he, h.marked _ hs hlive e he hpart hek]
      · rw [h.tagged _ hs hlive sd hsd hsdk] at htag
        exact decodeAliasUID_tagOf htag
    | card bdf =>
      obtain ⟨rfl, sd, hsd, hmark, htag, hsdk⟩ := (w.node.survey pass).mem_subdevices_card.mp hkey
      exact ⟨hlist, hfails, not_marked_iff.mp hmark, ⟨sd, hsd, htag, hsdk⟩, hdead, hmiss⟩
  · rintro ⟨hlist, hfails, hmark, ⟨sd, hsd, htag, hsdk⟩, hdead, hmiss⟩
    exact ⟨hlist, hfails, .card key.bdf, hdead, hmiss,
      (w.node.survey pass).mem_subdevices_card.mpr
        ⟨rfl, sd, hsd, not_marked_iff.mpr hmark, htag, hsdk⟩⟩

/-- **When the loop removes a live slice**, with a driver that reports no alias.  In every world reached
with passes that are given the live Pods, a pass takes a standing slice of such a Pod exactly when the
slice's marker can no longer be read, no marker of a live Pod names its card, and two passes in a row
have already found the card so. -/
theorem live_slice_removed_iff (live : Set String) {w : World} (hw : Reach false (Accurate live) w)
    {path : MarkerPath} {key : SubdevKey} (hs : (path, key) ∈ w.standing)
    (hlive : path.podUID ∈ live) {pass : ReclaimPass} (hpass : Accurate live w (.reclaim pass)) :
    w.removes pass key = true ↔ w.Drains pass key :=
  removes_iff_drains (hw.owns live) hpass hs hlive

/-! ### One container's slice, and its marker lost -/

/-- Every answer is a success. -/
def smooth : Answers := ⟨.ok (), .ok (), .ok (), .ok (), .published, .ok ()⟩

def halfCard : Request := ⟨"pod-a", "main", "0000:01:00.0", 50, 8192, false⟩

/-- A pass that is given the Pod and meets no failure. -/
def podAlive : ReclaimPass := ⟨["pod-a"], .ok (), fun _ => false, fun _ => false⟩

/-- The slice is granted. -/
def oneSlice : World := World.start.step false (.reserve smooth halfCard)

/-- Its marker is lost, and two passes go by. -/
def markerLost : World :=
  ((oneSlice.step false (.spoil halfCard.self)).step false (.reclaim podAlive)).step false
    (.reclaim podAlive)

theorem reach_oneSlice : Reach false (Accurate {"pod-a"}) oneSlice := .step .start trivial

theorem reach_markerLost : Reach false (Accurate {"pod-a"}) markerLost := by
  have halive : ∀ w, Accurate {"pod-a"} w (.reclaim podAlive) := by
    rintro w uid rfl
    exact mem_singleton_self _
  exact ((reach_oneSlice.step (e := .spoil halfCard.self) trivial).step (halive _)).step (halive _)

theorem live_slice_removed_iff_podAlive :
    oneSlice.removes podAlive ⟨"0000:01:00.0", 0⟩ = true ↔
      oneSlice.Drains podAlive ⟨"0000:01:00.0", 0⟩ := by
  have hs : (halfCard.self, ⟨"0000:01:00.0", 0⟩) ∈ oneSlice.standing := by decide +kernel
  refine live_slice_removed_iff {"pod-a"} reach_oneSlice hs rfl ?_
  rintro uid rfl
  exact mem_singleton_self _

/-- The Pod is in the live set of every pass, and the third one removes its slice. -/
theorem live_slice_removed :
    Reach false (Accurate {"pod-a"}) markerLost ∧
      (halfCard.self, ⟨"0000:01:00.0", 0⟩) ∈ markerLost.standing ∧
      "pod-a" ∈ podAlive.livePodUIDs ∧ markerLost.removes podAlive ⟨"0000:01:00.0", 0⟩ = true :=
  ⟨reach_markerLost, by decide +kernel, by decide, by decide +kernel⟩

end GpuStack.Metax
