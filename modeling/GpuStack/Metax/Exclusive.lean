import GpuStack.Metax.Runs

/-!
# Metax/Exclusive — who shares a MetaX card

A whole-card hold is a marker and nothing else, while a slice is also in the driver's registry.  So a
slice stays reserved when its marker is lost, unless the loop drains it, but a whole card does not.

`Apart` carries the separation: whole cards and slices are on different cards, among the markers that
can be read and among the answers given.  `holders_apart` is the result for runs in which no live slice
is drained and no slice is asked for on a card whose live whole-card holder has lost its marker;
`whole_card_shared` is a run in which one has.
-/

namespace GpuStack.Metax

open List

/-- Whole cards and slices are apart. -/
structure Apart (live : Set String) (files : Files) (standing : List (MarkerPath × SubdevKey))
    (granted : List Grant) : Prop where
  /-- Of two markers one of which takes a card whole, the other is on another card. -/
  markers : ∀ e ∈ scanMarkers files, e.marker.wholeCard = true → ∀ e' ∈ scanMarkers files,
    e'.marker.wholeCard = false → e.marker.cardBDF ≠ e'.marker.cardBDF
  /-- A standing slice is not on a card a marker takes whole. -/
  slices : ∀ e ∈ scanMarkers files, e.marker.wholeCard = true → ∀ s ∈ standing,
    s.1.podUID ∈ live → e.marker.cardBDF ≠ s.2.bdf
  /-- On a card given whole, no other container has a marker of a slice. -/
  whole_markers : ∀ g ∈ granted, g.index = wholeCardIndex → g.holder.podUID ∈ live →
    ∀ e ∈ scanMarkers files, e.marker.wholeCard = false → e.marker.cardBDF = g.bdf →
      e.path = g.holder
  /-- Nor a standing slice. -/
  whole_slices : ∀ g ∈ granted, g.index = wholeCardIndex → g.holder.podUID ∈ live →
    ∀ s ∈ standing, s.1.podUID ∈ live → s.2.bdf = g.bdf → s.1 = g.holder
  /-- What was given to a live Pod still stands. -/
  stands : ∀ g ∈ granted, g.index ≠ wholeCardIndex → g.holder.podUID ∈ live →
    (g.holder, ⟨g.bdf, g.index⟩) ∈ standing

/-- The events of an orderly run: a pass is given the live Pods and drains none of their slices, and
where a slice is asked for, the marker of every other live container that was given the card whole can
be read. -/
def Orderly (live : Set String) (w : World) : Event → Prop
  | .reclaim pass => (∀ uid ∈ live, uid ∈ pass.livePodUIDs) ∧
      ∀ s ∈ w.standing, s.1.podUID ∈ live → ¬ w.Drains pass s.2
  | .reserve _ q => q.wholeCard = false → ∀ g ∈ w.granted, g.index = wholeCardIndex →
      g.holder.podUID ∈ live → g.bdf = q.bdf → g.holder ≠ q.self →
        ∃ e ∈ scanMarkers w.node.files, e.path = g.holder ∧ e.marker.wholeCard = true ∧
          e.marker.cardBDF = g.bdf
  | _ => True

section Step

variable {tags : Bool} {live : Set String} {registry : List SgpuSubdevice} {files : Files}
  {standing : List (MarkerPath × SubdevKey)} {granted : List Grant}

/-- Fewer markers, and of the slices only those of dead Pods gone. -/
theorem Apart.shrink {files' : Files} {standing' : List (MarkerPath × SubdevKey)}
    (h : Apart live files standing granted)
    (hscan : ∀ e ∈ scanMarkers files', e ∈ scanMarkers files)
    (hstand : ∀ s ∈ standing', s ∈ standing)
    (hkeep : ∀ s ∈ standing, s.1.podUID ∈ live → s ∈ standing') :
    Apart live files' standing' granted where
  markers e he hw e' he' := h.markers e (hscan e he) hw e' (hscan e' he')
  slices e he hw s hs := h.slices e (hscan e he) hw s (hstand s hs)
  whole_markers g hg hw hlive e he := h.whole_markers g hg hw hlive e (hscan e he)
  whole_slices g hg hw hlive s hs := h.whole_slices g hg hw hlive s (hstand s hs)
  stands g hg hp hlive := hkeep _ (h.stands g hg hp hlive) hlive

/-- A container with the marker of a whole card is given it again. -/
theorem Apart.reuseWhole {e : MarkerEntry} {bdf : String} (h : Apart live files standing granted)
    (he : e ∈ scanMarkers files) (hw : e.marker.wholeCard = true) (hbdf : e.marker.cardBDF = bdf) :
    Apart live files standing (⟨e.path, bdf, wholeCardIndex⟩ :: granted) where
  markers := h.markers
  slices := h.slices
  whole_markers := forall_mem_cons.mpr ⟨fun _ _ e' he' hp hbdf' =>
    absurd (hbdf.trans hbdf'.symm) (h.markers e he hw e' he' hp), h.whole_markers⟩
  whole_slices := forall_mem_cons.mpr ⟨fun _ _ s hs hlive hbdf' =>
    absurd (hbdf.trans hbdf'.symm) (h.slices e he hw s hs hlive), h.whole_slices⟩
  stands := forall_mem_cons.mpr ⟨fun hp => absurd rfl hp, h.stands⟩

/-- A container with the marker of a slice is given it again. -/
theorem Apart.reuse {e : MarkerEntry} (h : Apart live files standing granted)
    (he : e ∈ scanMarkers files) (hp : e.marker.wholeCard = false) :
    Apart live files ((e.path, e.marker.key) :: standing)
      (⟨e.path, e.marker.cardBDF, e.marker.index⟩ :: granted) := by
  have hindex : e.marker.index ≠ wholeCardIndex := by simpa [SgpuMarker.wholeCard] using hp
  constructor
  · exact h.markers
  · exact fun e' he' hw => forall_mem_cons.mpr
      ⟨fun _ => h.markers e' he' hw e he hp, h.slices e' he' hw⟩
  · exact forall_mem_cons.mpr ⟨fun hw => absurd hw hindex, h.whole_markers⟩
  · refine forall_mem_cons.mpr ⟨fun hw => absurd hw hindex, fun g hg hw hlive => ?_⟩
    exact forall_mem_cons.mpr
      ⟨fun _ hbdf => h.whole_markers g hg hw hlive e he hp hbdf, h.whole_slices g hg hw hlive⟩
  · exact forall_mem_cons.mpr ⟨fun _ _ => mem_cons_self, fun g hg hne hlive =>
      mem_cons_of_mem _ (h.stands g hg hne hlive)⟩

variable {q : Request} {reply : Reply}

/-- An empty card is taken whole: nobody has a marker or a standing slice on it. -/
theorem Apart.take {linked : Bool}
    (h : Apart live files standing granted) (howned : Owned tags live registry files standing)
    (hused : ∀ i, i ∉ usedIndexesOnCard registry (scanMarkers files) q.bdf)
    (hgranted : ∀ r, reply = .granted r → linked = true ∧ r.wholeCard = true) :
    Apart live (if linked then files ++ [(q.self, some (q.marker wholeCardIndex))] else files)
      (reply.slices q ++ standing) (reply.grants q ++ granted) := by
  have hmark : ∀ e ∈ scanMarkers files, e.marker.wholeCard = false → e.marker.cardBDF ≠ q.bdf :=
    fun e he hp hbdf => hused e.marker.index
      (mem_usedIndexesOnCard.mpr (.inr ⟨e, he, hp, by rw [SgpuMarker.key, hbdf]⟩))
  have hstand : ∀ s ∈ standing, s.1.podUID ∈ live → s.2.bdf ≠ q.bdf := by
    intro s hs hlive hbdf
    obtain ⟨sd, hsd, hkey⟩ := howned.registered s hs hlive
    exact hused s.2.index (mem_usedIndexesOnCard.mpr (.inl ⟨sd, hsd, by rw [hkey, ← hbdf]⟩))
  have hpart : ∀ e ∈ scanMarkers
      (if linked then files ++ [(q.self, some (q.marker wholeCardIndex))] else files),
      e.marker.wholeCard = false → e ∈ scanMarkers files := by
    intro e he hp
    rcases Records.mem_scan_add he with he | ⟨-, rfl⟩
    · exact he
    · simp [SgpuMarker.wholeCard, Request.marker] at hp
  -- The reply hands out the card or nothing.
  have hslices : reply.slices q = [] := by
    cases reply with
    | granted r => simp [Reply.slices, (hgranted r rfl).2]
    | refused err => rfl
    | lost => rfl
  have hgrants : ∀ g ∈ reply.grants q, g = ⟨q.self, q.bdf, wholeCardIndex⟩ := by
    cases reply with
    | granted r => simp [Reply.grants, (hgranted r rfl).2]
    | refused err => simp [Reply.grants]
    | lost => simp [Reply.grants]
  rw [hslices, nil_append]
  constructor
  · intro e he hw e' he' hp
    have he'' := hpart e' he' hp
    rcases Records.mem_scan_add he with he | ⟨-, rfl⟩
    · exact h.markers e he hw e' he'' hp
    · exact (hmark e' he'' hp).symm
  · intro e he hw s hs hlive
    rcases Records.mem_scan_add he with he | ⟨-, rfl⟩
    · exact h.slices e he hw s hs hlive
    · exact (hstand s hs hlive).symm
  · intro g hg hw hlive e he hp hbdf
    rcases mem_append.mp hg with hg | hg
    · obtain rfl := hgrants g hg
      exact absurd hbdf (hmark e (hpart e he hp) hp)
    · exact h.whole_markers g hg hw hlive e (hpart e he hp) hp hbdf
  · intro g hg hw hlive s hs hlive' hbdf
    rcases mem_append.mp hg with hg | hg
    · obtain rfl := hgrants g hg
      exact absurd hbdf (hstand s hs hlive')
    · exact h.whole_slices g hg hw hlive s hs hlive' hbdf
  · intro g hg hne hlive
    rcases mem_append.mp hg with hg | hg
    · exact absurd (by rw [hgrants g hg]) hne
    · exact h.stands g hg hne hlive

/-- A slice is created on a card that no marker takes whole. -/
theorem Apart.create {index : ℕ} {linked : Bool}
    (h : Apart live files standing granted)
    (hwhole : cardTakenWhole (scanMarkers files) q.bdf = false)
    (hread : ∀ g ∈ granted, g.index = wholeCardIndex → g.holder.podUID ∈ live → g.bdf = q.bdf →
      g.holder ≠ q.self → ∃ e ∈ scanMarkers files, e.path = g.holder ∧ e.marker.wholeCard = true ∧
        e.marker.cardBDF = g.bdf)
    (hgranted : ∀ r, reply = .granted r → r.wholeCard = false ∧ r.index = index) :
    Apart live (if linked then files ++ [(q.self, some (q.marker index))] else files)
      (reply.slices q ++ standing) (reply.grants q ++ granted) := by
  have hfree : ∀ e ∈ scanMarkers files, e.marker.wholeCard = true → e.marker.cardBDF ≠ q.bdf := by
    intro e he hw hbdf
    rw [cardTakenWhole, any_eq_false] at hwhole
    exact hwhole e he (by simp [hbdf, hw])
  -- So the card was given whole to no other live container.
  have hself : ∀ g ∈ granted, g.index = wholeCardIndex → g.holder.podUID ∈ live → g.bdf = q.bdf →
      g.holder = q.self := by
    intro g hg hw hlive hbdf
    by_contra hne
    obtain ⟨e, he, -, hew, hebdf⟩ := hread g hg hw hlive hbdf hne
    exact hfree e he hew (hebdf.trans hbdf)
  have hfull : ∀ e ∈ scanMarkers
      (if linked then files ++ [(q.self, some (q.marker index))] else files),
      e.marker.wholeCard = true → e ∈ scanMarkers files := by
    intro e he hw
    rcases Records.mem_scan_add he with he | ⟨-, rfl⟩
    · exact he
    · simp [SgpuMarker.wholeCard, Request.marker, wholeCardIndex] at hw
  have hslices : ∀ s ∈ reply.slices q, s = (q.self, ⟨q.bdf, index⟩) := by
    cases reply with
    | granted r => simp [Reply.slices, hgranted r rfl]
    | refused err => simp [Reply.slices]
    | lost => simp [Reply.slices]
  have hgrants : ∀ g ∈ reply.grants q, g = ⟨q.self, q.bdf, index⟩ ∧
      (q.self, ⟨q.bdf, index⟩) ∈ reply.slices q := by
    cases reply with
    | granted r => simp [Reply.grants, Reply.slices, hgranted r rfl]
    | refused err => simp [Reply.grants]
    | lost => simp [Reply.grants]
  have hindex : (index : ℤ) ≠ wholeCardIndex := by
    rw [wholeCardIndex]
    omega
  constructor
  · intro e he hw e' he' hp
    have he'' := hfull e he hw
    rcases Records.mem_scan_add he' with he' | ⟨-, rfl⟩
    · exact h.markers e he'' hw e' he' hp
    · exact hfree e he'' hw
  · intro e he hw s hs hlive
    rcases mem_append.mp hs with hs | hs
    · obtain rfl := hslices s hs
      exact hfree e (hfull e he hw) hw
    · exact h.slices e (hfull e he hw) hw s hs hlive
  · intro g hg hw hlive e he hp hbdf
    rcases mem_append.mp hg with hg | hg
    · exact absurd (by rw [← hw, (hgrants g hg).1]) hindex
    · rcases Records.mem_scan_add he with he | ⟨-, rfl⟩
      · exact h.whole_markers g hg hw hlive e he hp hbdf
      · exact (hself g hg hw hlive hbdf.symm).symm
  · intro g hg hw hlive s hs hlive' hbdf
    rcases mem_append.mp hg with hg | hg
    · exact absurd (by rw [← hw, (hgrants g hg).1]) hindex
    · rcases mem_append.mp hs with hs | hs
      · obtain rfl := hslices s hs
        exact (hself g hg hw hlive hbdf.symm).symm
      · exact h.whole_slices g hg hw hlive s hs hlive' hbdf
  · intro g hg hne hlive
    rcases mem_append.mp hg with hg | hg
    · obtain ⟨rfl, hmem⟩ := hgrants g hg
      exact mem_append_left _ hmem
    · exact mem_append_right _ (h.stands g hg hne hlive)

/-- **A reservation keeps whole cards and slices apart.** -/
theorem Apart.reserve {registry' : List SgpuSubdevice} {files' : Files}
    (h : Apart live files standing granted) (howned : Owned tags live registry files standing)
    (hr : Reserves tags registry files q registry' files' reply)
    (hread : q.wholeCard = false → ∀ g ∈ granted, g.index = wholeCardIndex →
      g.holder.podUID ∈ live → g.bdf = q.bdf → g.holder ≠ q.self →
        ∃ e ∈ scanMarkers files, e.path = g.holder ∧ e.marker.wholeCard = true ∧
          e.marker.cardBDF = g.bdf) :
    Apart live files' (reply.slices q ++ standing) (reply.grants q ++ granted) := by
  cases hr with
  | refused err => exact h
  | reusedWhole m hm hbdf hw => exact h.reuseWhole hm hw hbdf
  | reused m env hm hkey hp _ =>
    have hbdf : m.cardBDF = q.bdf := congrArg SubdevKey.bdf hkey
    have := h.reuse hm hp
    rwa [hkey, hbdf] at this
  | tookWhole linked reply _ hused _ hgranted => exact h.take howned hused hgranted
  | created index linked kept reply hp _ hwhole _ hgranted =>
    exact h.create hwhole (hread hp) fun r hr => (hgranted r hr).2.2

end Step

/-- The invariant of a world. -/
abbrev World.IsApart (live : Set String) (w : World) : Prop :=
  Apart live w.node.files w.standing w.granted

theorem isApart_step {tags : Bool} {live : Set String} {w : World} {e : Event}
    (h : w.IsApart live) (howns : w.Owns tags live) (he : Orderly live w e) :
    (w.step tags e).IsApart live := by
  cases e with
  | reserve a q => exact Apart.reserve h howns (reserves_reserveSlice tags a _ _ q) he
  | reclaim pass =>
    obtain ⟨hpass, hdrains⟩ := he
    refine Apart.shrink h ?_ (fun s hs => mem_of_mem_filter hs) fun s hs hlive => ?_
    · intro e he
      simp only [World.step, Node.reconcile] at he
      split at he
      · exact he
      · exact Records.mem_scan_filter he
    · have hkept : ¬ w.removes pass s.2 = true := fun hr =>
        hdrains s hs hlive ((removes_iff_drains howns hpass hs hlive).mp hr)
      exact mem_filter.mpr ⟨hs, by simpa using hkept⟩
  | spoil path =>
    exact Apart.shrink h (fun e he => Records.mem_scan_spoil he) (fun s hs => hs)
      fun s hs _ => hs
  | restart => exact h

theorem Reach.isApart {tags : Bool} {live : Set String} {w : World}
    (hw : Reach tags (Orderly live) w) : w.IsApart live := by
  induction hw with
  | start => constructor <;> simp [World.start, scanMarkers, Records.scan]
  | step hw he ih => exact isApart_step ih (hw.owns live) he

/-- Among the containers of live Pods, no card is given whole to one and in part to another, and no
index of a card is given to two. -/
def World.Exclusive (live : Set String) (w : World) : Prop :=
  ∀ g ∈ w.granted, ∀ g' ∈ w.granted, g.holder.podUID ∈ live → g'.holder.podUID ∈ live →
    g.bdf = g'.bdf → g'.index ≠ wholeCardIndex → g.index = wholeCardIndex ∨ g.index = g'.index →
      g.holder = g'.holder

/-- **No card is shared with a whole-card holder and no index is given twice**, in every world that an
orderly run reaches. -/
theorem holders_apart (tags : Bool) (live : Set String) {w : World}
    (hw : Reach tags (Orderly live) w) : w.Exclusive live := by
  intro g hg g' hg' hlive hlive' hbdf hpart hmeet
  have h := hw.isApart
  have hstands := h.stands g' hg' hpart hlive'
  rcases hmeet with hwhole | hindex
  · exact (h.whole_slices g hg hwhole hlive _ hstands hlive' hbdf.symm).symm
  · exact (hw.owns live).single _ (h.stands g hg (hindex ▸ hpart) hlive) _ hstands hlive hlive'
      (by rw [hbdf, hindex])

/-! ### A card taken whole whose marker is lost -/

def otherHalf : Request := ⟨"pod-b", "main", "0000:01:00.0", 50, 8192, false⟩

def wholeCard : Request := ⟨"pod-a", "main", "0000:01:00.0", 100, 65536, true⟩

theorem holders_apart_halves :
    (World.step false oneSlice (.reserve smooth otherHalf)).Exclusive {"pod-a", "pod-b"} := by
  refine holders_apart false {"pod-a", "pod-b"} (.step (.step .start ?_) ?_)
  · intro _ g hg
    cases hg
  · intro _ g hg hw
    have hall : ∀ g ∈ oneSlice.granted, g.index ≠ wholeCardIndex := by decide +kernel
    exact absurd hw (hall g hg)

/-- The card is given whole to one Pod, its marker is lost, and another Pod is given a slice of it. -/
def wholeLost : World :=
  ((World.start.step false (.reserve smooth wholeCard)).step false (.spoil wholeCard.self)).step false
    (.reserve smooth otherHalf)

theorem whole_card_shared :
    Reach false (Accurate {"pod-a", "pod-b"}) wholeLost ∧
      ¬ wholeLost.Exclusive {"pod-a", "pod-b"} := by
  refine ⟨((Reach.start.step (e := .reserve smooth wholeCard) trivial).step
    (e := .spoil wholeCard.self) trivial).step trivial, fun h => ?_⟩
  have hwhole : (⟨wholeCard.self, "0000:01:00.0", wholeCardIndex⟩ : Grant) ∈ wholeLost.granted := by
    decide +kernel
  have hslice : (⟨otherHalf.self, "0000:01:00.0", 0⟩ : Grant) ∈ wholeLost.granted := by
    decide +kernel
  exact absurd (h _ hwhole _ hslice (by simp [wholeCard, Request.self])
    (by simp [otherHalf, Request.self]) rfl (by decide) (.inl rfl)) (by decide)

end GpuStack.Metax
