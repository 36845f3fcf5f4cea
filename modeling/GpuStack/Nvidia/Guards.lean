import GpuStack.Nvidia.Machine

/-!
# Nvidia/Guards — what the reclaim loop may destroy

The loop decides on what it reads under the card's lock.  Nobody can add a marker of the card while it
holds that lock, so the readable markers there only become fewer (`Work.Guards`, kept by every event),
and what it found unclaimed then is unclaimed when it destroys.  An unreadable marker is another matter:
one that becomes unreadable after the reading is not seen any more, but its record was, and it named
another instance.
-/

namespace GpuStack.Nvidia

/-- What the loop found under a card's lock holds it to: no unreadable record that may be another Pod's
stood there, and the card's markers are among those it found. -/
def Work.Guards (files : Files) : Work → Prop
  | .marked uid card sec found todo =>
    sec.superseded = supersedingGiIDsOnCard (scanMarkers found) card uid ∧
      supersedingCorruptOnCard (corruptPaths found) card uid = false ∧
      (∀ e ∈ todo, e.marker.card = card) ∧
      ∀ e ∈ scanMarkers files, e.marker.card = card → e ∈ scanMarkers found
  | .orphans card found _ => orphansHeld found card = false ∧
      ∀ e ∈ scanMarkers files, e.marker.card = card → e ∈ scanMarkers found

/-- Fewer markers on the card. -/
theorem Work.Guards.mono {files files' : Files} {work : Work} (h : work.Guards files)
    (hfewer : ∀ e ∈ scanMarkers files', e.marker.card = work.card → e ∈ scanMarkers files) :
    work.Guards files' := by
  cases work with
  | marked uid card sec found todo =>
    obtain ⟨hsuper, hcorrupt, htodo, hfound⟩ := h
    exact ⟨hsuper, hcorrupt, htodo, fun e he hcard => hfound e (hfewer e he hcard) hcard⟩
  | orphans card found todo =>
    obtain ⟨hheld, hfound⟩ := h
    exact ⟨hheld, fun e he hcard => hfound e (hfewer e he hcard) hcard⟩

variable {found : Files} {card : String}

/-- The next marker or instance is worked off. -/
theorem Work.Guards.tail {files : Files} {uid : String} {sec : CardSection}
    {e : MarkerEntry} {todo : List MarkerEntry}
    (h : (Work.marked uid card sec found (e :: todo)).Guards files) :
    (Work.marked uid card sec found todo).Guards files :=
  ⟨h.1, h.2.1, fun e he => h.2.2.1 e (.tail _ he), h.2.2.2⟩

namespace World

/-- The loop is held to what it found. -/
def Guarded (w : World) : Prop := ∀ work, w.work = some work → work.Guards w.files

variable {w : World}

theorem Guarded.of_none (h : w.work = none) : w.Guarded := by
  intro work hwork
  rw [h] at hwork
  cases hwork

/-- The loop holds the lock it held, and the readable markers of that card became no more. -/
theorem Guarded.mono {w' : World} (h : w.Guarded) (hwork : w'.work = w.work)
    (hfewer : ∀ e ∈ scanMarkers w'.files, ∀ work, w.work = some work → e.marker.card = work.card →
      e ∈ scanMarkers w.files) : w'.Guarded := by
  intro work hw
  rw [hwork] at hw
  exact (h work hw).mono fun e he hcard => hfewer e he work hw hcard

theorem Guarded.unlink (h : w.Guarded) {w' : World} (hwork : w'.work = w.work) {path : MarkerPath}
    {b : Bool} (hfiles : w'.files = if b then Nvidia.unlink w.files path else w.files) :
    w'.Guarded := by
  refine h.mono hwork fun e he work _ _ => ?_
  rw [hfiles] at he
  split_ifs at he
  · exact (mem_scanMarkers_unlink.mp he).1
  · exact he

theorem Guarded.resolve (h : w.Guarded) {k : ℕ} {c : Call} {card : String} {cards : List String}
    {geometry : ℤ × ℤ} {a : Answers} {files : Files} {instances : List MigInstance} {reply : Reply}
    (hlock : w.locked card = false)
    (hres : Reserves a w.files (onCard w.live card) (c.request card geometry) files instances reply) :
    (w.resolve k c card cards files instances reply).Guarded := by
  have hfewer : ∀ e ∈ scanMarkers files, ∀ work, w.work = some work → e.marker.card = work.card →
      e ∈ scanMarkers w.files := by
    intro e he work hwork hcard
    refine (hres.card_of_mem he).resolve_right fun hq => ?_
    -- The card reserved on is not the one whose lock the loop holds.
    have hheld : work.card = card := hcard.symm.trans hq
    rw [locked, hwork] at hlock
    exact absurd hheld (by simpa using hlock)
  cases reply with
  | reserved i outcome => exact h.mono rfl hfewer
  | failed err => exact h.mono rfl hfewer
  | lost => exact .of_none rfl

theorem Guarded.takeBack (h : w.Guarded) {k : ℕ} {c : Call} {r : CardResult}
    {results : List CardResult} {u : Undoing} : (w.takeBack k c r results u).Guarded := by
  unfold World.takeBack
  cases r.outcome with
  | rebound => exact h.mono rfl fun _ he _ _ _ => he
  | bound => exact h.unlink rfl rfl
  | created =>
    dsimp only
    split
    · exact .of_none rfl
    · exact h.unlink rfl rfl

theorem Guarded.openMarked (h : w.Guarded) (uid card : String) : (w.openMarked uid card).Guarded := by
  unfold World.openMarked
  split
  next p hp hwork =>
    split
    · split
      · exact h
      next s hs =>
        unfold openSection at hs
        dsimp only at hs
        split at hs
        · cases hs
        next hcorrupt =>
          obtain rfl := Option.some.inj hs
          intro work hw
          obtain rfl := Option.some.inj hw
          exact ⟨rfl, by simpa using hcorrupt, fun e he => by simpa using (List.mem_filter.mp he).2,
            fun e he _ => he⟩
    · exact h
  · exact h

theorem Guarded.openOrphans (h : w.Guarded) (card : String) : (w.openOrphans card).Guarded := by
  unfold World.openOrphans
  split
  · split
    next hdue =>
      intro work hw
      obtain rfl := Option.some.inj hw
      rw [Bool.and_eq_true, Bool.not_eq_true'] at hdue
      exact ⟨hdue.2, fun e he _ => he⟩
    · exact h
  · exact h

theorem Guarded.workOff (h : w.Guarded) (t : Teardown) : (w.workOff t).Guarded := by
  unfold World.workOff
  split
  next uid card sec found e todo hwork =>
    split
    · exact .of_none rfl
    · intro work hw
      obtain rfl := Option.some.inj hw
      refine (h _ hwork).tail.mono fun e' he' _ => ?_
      dsimp only at he'
      split_ifs at he'
      · exact (mem_scanMarkers_unlink.mp he').1
      · exact he'
  next card found i todo hwork =>
    intro work hw
    obtain rfl := Option.some.inj hw
    have hguards : (Work.orphans card found (i :: todo)).Guards w.files := h _ hwork
    exact hguards
  · exact h

/-- **Every event keeps the loop to what it found.** -/
theorem Guarded.step (uuidOf : String → MigPlacement → String) (h : w.Guarded) (e : Event) :
    (w.step uuidOf e).Guarded := by
  have same : ∀ {w' : World}, w'.work = w.work → w'.files = w.files → w'.Guarded :=
    fun hwork hfiles => h.mono hwork fun e he _ _ _ => hfiles ▸ he
  cases e with
  | call podUID container profile cards => exact same rfl rfl
  | reserve k geometry a =>
    exact reserve_rule h fun c card cards files instances reply _ _ _ hlock hres => h.resolve hlock hres
  | answer k =>
    simp only [World.step, World.answer]
    split
    · exact h
    · split
      · exact same rfl rfl
      · exact h
  | fail k =>
    simp only [World.step, World.fail]
    split
    · exact h
    · split
      · exact same rfl rfl
      · exact h
  | undo k u => exact undo_rule h fun c r results _ _ _ _ => h.takeBack
  | crash => exact .of_none rfl
  | beginPass livePodUIDs claims instances =>
    simp only [World.step, World.beginPass]
    split
    · exact h
    · exact same rfl rfl
  | openMarked uid card => exact h.openMarked uid card
  | openOrphans card => exact h.openOrphans card
  | workOff t => exact h.workOff t
  | close => exact .of_none rfl
  | retire path =>
    simp only [World.step, World.retire]
    split
    · split
      · exact h.unlink (b := true) rfl rfl
      · exact h
    · exact h
  | endPass done => exact .of_none rfl
  | spoil path => exact h.mono rfl fun e he _ _ _ => Records.mem_scan_spoil he
  | stray path =>
    refine h.mono rfl fun e he _ _ _ => ?_
    simpa [World.step, scanMarkers, Records.scan, Records.parse] using he
  | outside live => exact same rfl rfl

end World

theorem Reach.guarded {uuidOf : String → MigPlacement → String} {allowed : World → Event → Prop}
    {w : World} (hw : Reach uuidOf allowed w) : w.Guarded := by
  induction hw with
  | start => exact .of_none rfl
  | step _ _ ih => exact ih.step uuidOf _

/-- A partition of which no record of another Pod tells, readable or not, in the files the loop found
under its lock; `owner` is the Pod it is reclaimed from. -/
structure Unclaimed (found : Files) (owner : Option String) (card : String) (giID : ℕ) : Prop where
  readable : ∀ e ∈ scanMarkers found, e.marker.card = card → e.marker.giID = giID →
    owner = some e.marker.podUID
  named : ∀ path ∈ corruptPaths found, path.card = some card → owner.isSome ∧ path.podUID = owner
  unnamed : ∀ path ∈ corruptPaths found, path.card ≠ none

theorem unclaimed_of_not_superseded {uid : String} {giID : ℕ}
    (hcorrupt : supersedingCorruptOnCard (corruptPaths found) card uid = false)
    (hsuper : giID ∉ supersedingGiIDsOnCard (scanMarkers found) card uid) :
    Unclaimed found (some uid) card giID := by
  have hpath := List.any_eq_false.mp hcorrupt
  constructor
  · intro e he hcard hgi
    by_contra hne
    exact hsuper (mem_supersedingGiIDsOnCard.mpr ⟨e, he, hcard, fun h => hne (by rw [h]), hgi⟩)
  · intro path hp hcard
    have := hpath path hp
    simp only [hcard, beq_self_eq_true, Bool.true_and, bne_iff_ne, ne_eq, not_not] at this
    exact ⟨rfl, this⟩
  · intro path hp hnone
    have := hpath path hp
    simp [hnone] at this

theorem unclaimed_of_not_held (h : orphansHeld found card = false)
    (giID : ℕ) : Unclaimed found none card giID := by
  simp only [orphansHeld, Bool.or_eq_false_iff, Bool.not_eq_false', List.isEmpty_iff,
    ownershipUnknownOnCard, List.any_eq_false] at h
  obtain ⟨howned, hcorrupt⟩ := h
  constructor
  · intro e he hcard _
    have hmem := mem_ownedGiIDsOnCard.mpr ⟨e, he, hcard, rfl⟩
    rw [howned] at hmem
    cases hmem
  · intro path hp hcard
    have := hcorrupt path hp
    simp [hcard] at this
  · intro path hp hnone
    have := hcorrupt path hp
    simp [hnone] at this

/-- Processes that let a partition go. -/
theorem destroyBlockedBy_eq_false {p : Processes} :
    destroyBlockedBy p = false ↔ p = .counted 0 ∨ p = .noAddressableDevice := by
  cases p <;> simp [destroyBlockedBy]

theorem World.Guarded.unclaimed {w : World} (h : w.Guarded) {t : World.Teardown}
    {owner : Option String} {i : MigInstance}
    (ht : w.target t = some (owner, card, i)) :
    (∃ work, w.work = some work ∧ work.card = card ∧ Unclaimed work.found owner card i.giID ∧
      ∀ e ∈ scanMarkers w.files, e.marker.card = card → e ∈ scanMarkers work.found) ∧
      destroyBlockedBy t.processes = false := by
  unfold World.target at ht
  split at ht
  next uid c sec found e todo hwork =>
    split_ifs at ht with hours
    obtain ⟨rfl, rfl, rfl⟩ := by simpa using ht
    obtain ⟨hsuper, hcorrupt, -, hfound⟩ := h _ hwork
    have hfree := (CardSection.verdict_eq_ours.mp hours.1).1
    rw [hsuper] at hfree
    exact ⟨⟨_, hwork, rfl, unclaimed_of_not_superseded hcorrupt hfree, hfound⟩, hours.2.1⟩
  next c found j todo hwork =>
    split_ifs at ht with hfree
    obtain ⟨rfl, rfl, rfl⟩ := by simpa using ht
    obtain ⟨hheld, hfound⟩ := h _ hwork
    exact ⟨⟨_, hwork, rfl, unclaimed_of_not_held hheld _, hfound⟩, hfree.1⟩
  · cases ht

/-- **What the loop destroys no other record may own.**  In every world that any run reaches, if the loop
destroys an instance then no readable marker of another Pod names it; no record of another Pod,
readable or not, told of it in the files found under the card's lock; and it answered that it runs no
process, or that no device addresses it. -/
theorem destroyed_unclaimed (uuidOf : String → MigPlacement → String) {w : World}
    (hw : Reach uuidOf (fun _ _ => True) w) {t : World.Teardown} {owner : Option String}
    {card : String} {i : MigInstance} (ht : w.target t = some (owner, card, i)) :
    (∀ e ∈ scanMarkers w.files, e.marker.card = card → e.marker.giID = i.giID →
        owner = some e.marker.podUID) ∧
      (∃ work, w.work = some work ∧ work.card = card ∧ Unclaimed work.found owner card i.giID) ∧
      (t.processes = .counted 0 ∨ t.processes = .noAddressableDevice) := by
  obtain ⟨⟨work, hwork, hcard, hun, hfound⟩, hproc⟩ := hw.guarded.unclaimed ht
  exact ⟨fun e he hc hgi => hun.readable e (hfound e he hc) hc hgi, ⟨work, hwork, hcard, hun⟩,
    destroyBlockedBy_eq_false.mp hproc⟩

/-! ### A marker that becomes unreadable under the lock -/

/-- The driver names a partition by its place on the card. -/
def nameOf (_card : String) (p : MigPlacement) : String := if p.start = 0 then "MIG-0" else "MIG-1"

/-- Every answer is a success, and the instance created has the id given. -/
def creating (giID : ℕ) : Answers := ⟨.ok [⟨0, 1⟩, ⟨1, 1⟩], .ok (giID, 0), .published, .ok ()⟩

/-- Two Pods are granted a partition each of one card. -/
def granting : List Event :=
  [.call "pod-a" "main" "1g.10gb" ["gpu-0"], .reserve 0 (1, 1) (creating 1), .answer 0,
    .call "pod-b" "main" "1g.10gb" ["gpu-0"], .reserve 1 (1, 1) (creating 2), .answer 1]

/-- A pass that finds only the second Pod live. -/
def podAGone : Event := .beginPass ["pod-b"] (fun _ => []) []

/-- The third such pass takes the card's lock to reclaim the first Pod's partition. -/
def sweeping : List Event :=
  granting ++ [podAGone, .endPass fun _ => false, podAGone, .endPass fun _ => false, podAGone,
    .openMarked "pod-a" "gpu-0"]

/-- Nothing runs on the partition, and everything succeeds. -/
def idle : World.Teardown := ⟨.counted 0, ⟨true, false, true⟩⟩

/-- The other Pod's marker then becomes unreadable, and the partition is destroyed all the same. -/
theorem unreadable_at_destroy :
    let w := (sweeping ++ [Event.spoil (markerPath "pod-b" "main" "gpu-0")]).foldl (World.step nameOf) .start
    Reach nameOf (fun _ _ => True) w ∧
      w.target idle = some (some "pod-a", "gpu-0", ⟨1, 0, 1, ⟨0, 1⟩, "MIG-0"⟩) ∧
      markerPath "pod-b" "main" "gpu-0" ∈ corruptPaths w.files :=
  ⟨Reach.foldl nameOf _, by decide +kernel, by decide +kernel⟩

/-- With its marker readable, the other Pod's partition is another one. -/
theorem destroyed_unclaimed_sweeping :
    let w := sweeping.foldl (World.step nameOf) .start
    (∀ e ∈ scanMarkers w.files, e.marker.card = "gpu-0" → e.marker.giID = 1 →
        some "pod-a" = some e.marker.podUID) ∧
      (∃ work, w.work = some work ∧ work.card = "gpu-0" ∧
        Unclaimed work.found (some "pod-a") "gpu-0" 1) ∧
      (idle.processes = .counted 0 ∨ idle.processes = .noAddressableDevice) :=
  destroyed_unclaimed nameOf (Reach.foldl nameOf sweeping)
    (i := ⟨1, 0, 1, ⟨0, 1⟩, "MIG-0"⟩) (by decide +kernel)

end GpuStack.Nvidia
