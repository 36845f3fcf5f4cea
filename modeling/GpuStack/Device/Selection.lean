import GpuStack.Device.Placement

/-!
# Device/Selection — what a partition selection depends on

A selection succeeds exactly if enough candidates have a free legal placement
(`selectPartitionPlacements_isSome_iff`).  Which candidates it takes depends on each one's lowest free
placement, which the covered positions decide, and on the length its occupied list adds up to, which they
do not: a list that records a placement twice adds it twice.  So two records of what a card carries are
interchangeable exactly if they add up to the same length.
-/

namespace GpuStack

open List

/-! ### When a selection succeeds -/

/-- A legal placement overlaps nothing occupied. -/
def PartitionCandidate.hasFree (c : PartitionCandidate) : Bool :=
  c.possible.any fun slot => !placementOverlapsAny slot c.occupied

variable {c : PartitionCandidate} {used : List ℕ} {candidates : List (PartitionCandidate × ℕ)}
  {slot : AcceleratorPlacement} {o o' : List AcceleratorPlacement}

theorem lowestFreePlacement_eq_none :
    lowestFreePlacement c.possible c.occupied = none ↔ c.hasFree = false := by
  simp [lowestFreePlacement, PartitionCandidate.hasFree]

/-- **A pass finds nothing exactly if no unused candidate has room.** -/
theorem bestCandidate_eq_none :
    bestCandidate used candidates = none ↔ ∀ c ∈ candidates, c.2 ∈ used ∨ c.1.hasFree = false := by
  have hstep : ∀ best c, considerCandidate used best c = none ↔
      best = none ∧ (c.2 ∈ used ∨ c.1.hasFree = false) := by
    intro best c
    rw [← lowestFreePlacement_eq_none]
    unfold considerCandidate
    by_cases hused : c.2 ∈ used
    · simp [hused]
    · cases lowestFreePlacement c.1.possible c.1.occupied with
      | none => simp [hused]
      | some slot =>
        cases best with
        | none => simp [hused]
        | some b =>
          simp only [hused, if_false]
          split <;> simp
  suffices ∀ best, candidates.foldl (considerCandidate used) best = none ↔
      best = none ∧ ∀ c ∈ candidates, c.2 ∈ used ∨ c.1.hasFree = false by
    simpa [bestCandidate] using this none
  induction candidates with
  | nil => simp
  | cons c candidates ih =>
    intro best
    rw [foldl_cons, ih, hstep, forall_mem_cons, and_assoc]

/-- The places of the candidates with room that are not used. -/
def freePlaces (candidates : List (PartitionCandidate × ℕ)) (used : List ℕ) : Finset ℕ :=
  ((candidates.filter (·.1.hasFree)).map Prod.snd).toFinset \ used.toFinset

theorem mem_freePlaces {i : ℕ} :
    i ∈ freePlaces candidates used ↔ i ∉ used ∧ ∃ c, (c, i) ∈ candidates ∧ c.hasFree = true := by
  simp only [freePlaces, Finset.mem_sdiff, mem_toFinset, mem_map, mem_filter, Prod.exists,
    exists_eq_right]
  exact and_comm

theorem selectLoop_isSome_iff {n : ℕ} :
    (selectLoop candidates n used).isSome ↔ n ≤ (freePlaces candidates used).card := by
  induction n generalizing used with
  | zero => simp [selectLoop]
  | succ n ih =>
    unfold selectLoop
    cases hbest : bestCandidate used candidates with
    | none =>
      have hempty : freePlaces candidates used = ∅ := by
        refine Finset.eq_empty_of_forall_notMem fun i hi => ?_
        obtain ⟨hused, c, hmem, hfree⟩ := mem_freePlaces.mp hi
        rcases bestCandidate_eq_none.mp hbest (c, i) hmem with h | h
        · exact hused h
        · rw [hfree] at h
          cases h
      simp [hempty]
    | some b =>
      obtain ⟨i, c, slot⟩ := b
      obtain ⟨hmem, hused, hslot⟩ := bestCandidate_sound hbest
      have hfree : c.hasFree = true := by
        by_contra h
        rw [lowestFreePlacement_eq_none.mpr (by simpa using h)] at hslot
        cases hslot
      have hi : i ∈ freePlaces candidates used := mem_freePlaces.mpr ⟨hused, c, hmem, hfree⟩
      have herase : freePlaces candidates (i :: used) = (freePlaces candidates used).erase i := by
        ext j
        rw [Finset.mem_erase, mem_freePlaces, mem_freePlaces, mem_cons, not_or, and_assoc]
      dsimp only
      rw [Option.isSome_map, ih, herase, Finset.card_erase_of_mem hi]
      have := Finset.card_pos.mpr ⟨i, hi⟩
      omega

/-- **A selection succeeds exactly if enough candidates have room.** -/
theorem selectPartitionPlacements_isSome_iff {candidates : List PartitionCandidate} {count : ℤ} :
    (selectPartitionPlacements candidates count).isSome ↔
      count.toNat ≤ candidates.countP PartitionCandidate.hasFree := by
  have hcard : (freePlaces candidates.zipIdx []).card =
      candidates.countP PartitionCandidate.hasFree := by
    have hnd : ((candidates.zipIdx.filter (·.1.hasFree)).map Prod.snd).Nodup := by
      have hall : (candidates.zipIdx.map Prod.snd).Nodup := by
        rw [zipIdx_map_snd]
        exact nodup_range'
      exact hall.sublist (filter_sublist.map _)
    rw [freePlaces, toFinset_nil, Finset.sdiff_empty, toFinset_card_of_nodup hnd,
      length_map, ← countP_eq_length_filter]
    conv_rhs => rw [← zipIdx_map_fst 0 candidates, countP_map]
    rfl
  rw [selectPartitionPlacements, selectLoop_isSome_iff, hcard]

/-! ### What a selection looks at -/

/-- What a selection looks at in a candidate. -/
def PartitionCandidate.view (c : PartitionCandidate) : String × Option AcceleratorPlacement × ℤ :=
  (c.id, lowestFreePlacement c.possible c.occupied, occupiedLength c.occupied)

/-- A choice, with what was looked at. -/
def viewChoice (b : ℕ × PartitionCandidate × AcceleratorPlacement) :
    ℕ × (String × Option AcceleratorPlacement × ℤ) × AcceleratorPlacement :=
  (b.1, b.2.1.view, b.2.2)

theorem considerCandidate_congr
    {best best' : Option (ℕ × PartitionCandidate × AcceleratorPlacement)}
    {c c' : PartitionCandidate × ℕ} (hbest : best.map viewChoice = best'.map viewChoice)
    (hview : c.1.view = c'.1.view) (hplace : c.2 = c'.2) :
    (considerCandidate used best c).map viewChoice = (considerCandidate used best' c').map viewChoice := by
  obtain ⟨hid, hslot, hlength⟩ : c.1.id = c'.1.id ∧
      lowestFreePlacement c.1.possible c.1.occupied = lowestFreePlacement c'.1.possible c'.1.occupied ∧
      occupiedLength c.1.occupied = occupiedLength c'.1.occupied := by
    simpa [PartitionCandidate.view] using hview
  have hbests : ∀ b b', best = some b → best' = some b' →
      occupiedLength b.2.1.occupied = occupiedLength b'.2.1.occupied := by
    rintro b b' rfl rfl
    have := Option.some.inj hbest
    simp only [viewChoice, PartitionCandidate.view, Prod.mk.injEq] at this
    exact this.2.1.2.2
  unfold considerCandidate
  rw [← hplace, ← hslot]
  split
  · exact hbest
  cases hfree : lowestFreePlacement c.1.possible c.1.occupied with
  | none => exact hbest
  | some slot =>
    cases best with
    | none =>
      cases best' with
      | none => simp [viewChoice, hview]
      | some b' => cases hbest
    | some b =>
      cases best' with
      | none => cases hbest
      | some b' =>
        dsimp only
        rw [← hlength, ← hbests b b' rfl rfl]
        split
        · simp [viewChoice, hview]
        · exact hbest

theorem bestCandidate_congr (used : List ℕ) {cs cs' : List (PartitionCandidate × ℕ)}
    (h : List.Forall₂ (fun c c' => c.1.view = c'.1.view ∧ c.2 = c'.2) cs cs') :
    (bestCandidate used cs).map viewChoice = (bestCandidate used cs').map viewChoice := by
  suffices ∀ best best', best.map viewChoice = best'.map viewChoice →
      (cs.foldl (considerCandidate used) best).map viewChoice =
        (cs'.foldl (considerCandidate used) best').map viewChoice from this none none rfl
  induction h with
  | nil => exact fun _ _ hbest => hbest
  | cons hc _ ih =>
    intro best best' hbest
    exact ih _ _ (considerCandidate_congr hbest hc.1 hc.2)

theorem selectLoop_congr {cs cs' : List (PartitionCandidate × ℕ)}
    (h : List.Forall₂ (fun c c' => c.1.view = c'.1.view ∧ c.2 = c'.2) cs cs') (n : ℕ) (used : List ℕ) :
    selectLoop cs n used = selectLoop cs' n used := by
  induction n generalizing used with
  | zero => rfl
  | succ n ih =>
    have hbest := bestCandidate_congr used h
    unfold selectLoop
    cases hb : bestCandidate used cs with
    | none =>
      rw [hb, Option.map_none] at hbest
      rw [Option.map_eq_none_iff.mp hbest.symm]
    | some b =>
      rw [hb, Option.map_some] at hbest
      obtain ⟨b', hb', hview⟩ := Option.map_eq_some_iff.mp hbest.symm
      obtain ⟨i, c, slot⟩ := b
      obtain ⟨i', c', slot'⟩ := b'
      simp only [viewChoice, PartitionCandidate.view, Prod.mk.injEq] at hview
      obtain ⟨rfl, ⟨hid, -, -⟩, rfl⟩ := hview
      rw [hb']
      dsimp only
      rw [ih, hid]

/-- **A selection looks at nothing else.** -/
theorem selectPartitionPlacements_congr {cs cs' : List PartitionCandidate}
    (h : List.Forall₂ (fun c c' => c.view = c'.view) cs cs') (count : ℤ) :
    selectPartitionPlacements cs count = selectPartitionPlacements cs' count := by
  refine selectLoop_congr ?_ _ _
  suffices ∀ n, List.Forall₂ (fun c c' : PartitionCandidate × ℕ => c.1.view = c'.1.view ∧ c.2 = c'.2)
      (cs.zipIdx n) (cs'.zipIdx n) from this 0
  induction h with
  | nil => exact fun _ => .nil
  | cons hc _ ih => exact fun n => .cons ⟨hc, rfl⟩ (ih (n + 1))

/-! ### What the covered positions decide -/

/-- A position is in one of the placements. -/
def CoversAt (occupied : List AcceleratorPlacement) (x : ℤ) : Prop :=
  ∃ p ∈ occupied, p.start ≤ x ∧ x < p.start + p.length

/-- No placement is empty. -/
def Proper (placements : List AcceleratorPlacement) : Prop := ∀ p ∈ placements, 0 < p.length

/-- A slot overlaps exactly what covers one of its positions. -/
theorem placementOverlapsAny_iff {occupied : List AcceleratorPlacement} (hslot : 0 < slot.length)
    (ho : Proper occupied) :
    placementOverlapsAny slot occupied = true ↔
      ∃ x, slot.start ≤ x ∧ x < slot.start + slot.length ∧ CoversAt occupied x := by
  simp only [placementOverlapsAny, any_eq_true, decide_eq_true_eq]
  constructor
  · rintro ⟨p, hp, hlo, hhi⟩
    have := ho p hp
    exact ⟨max slot.start p.start, by omega, by omega, p, hp, by omega, by omega⟩
  · rintro ⟨x, hlo, hhi, p, hp, hplo, hphi⟩
    exact ⟨p, hp, by omega, by omega⟩

/-- **Lists that cover the same positions leave the same placement free.** -/
theorem lowestFreePlacement_congr {possible : List AcceleratorPlacement} (hp : Proper possible)
    (ho : Proper o) (ho' : Proper o') (h : ∀ x, CoversAt o x ↔ CoversAt o' x) :
    lowestFreePlacement possible o = lowestFreePlacement possible o' := by
  refine find?_congr fun slot hslot => ?_
  refine congrArg (! ·) ?_
  rw [Bool.eq_iff_iff, placementOverlapsAny_iff (hp slot hslot) ho,
    placementOverlapsAny_iff (hp slot hslot) ho']
  simp only [h]

/-- A candidate with another record of the same occupied positions. -/
structure Rerecorded (c c' : PartitionCandidate) : Prop where
  id : c.id = c'.id
  possible : c.possible = c'.possible
  proper : Proper c.possible ∧ Proper c.occupied ∧ Proper c'.occupied
  covers : ∀ x, CoversAt c.occupied x ↔ CoversAt c'.occupied x

theorem Rerecorded.view_eq {c' : PartitionCandidate} (h : Rerecorded c c')
    (hlength : occupiedLength c.occupied = occupiedLength c'.occupied) : c.view = c'.view := by
  rw [PartitionCandidate.view, PartitionCandidate.view, h.id, hlength, ← h.possible,
    lowestFreePlacement_congr h.proper.1 h.proper.2.1 h.proper.2.2 h.covers]

/-! ### Interchangeable records -/

/-- No decision shows which of two records a card has. -/
def Interchangeable (o o' : List AcceleratorPlacement) : Prop :=
  ∀ (before after : List PartitionCandidate) (id : String) (possible : List AcceleratorPlacement)
    (count : ℤ), Proper possible →
    selectPartitionPlacements (before ++ ⟨id, possible, o⟩ :: after) count =
      selectPartitionPlacements (before ++ ⟨id, possible, o'⟩ :: after) count

/-- One of two candidates with room: the second only if it is more occupied. -/
theorem select_one_of_two {x : PartitionCandidate} {slot' : AcceleratorPlacement}
    (hc : lowestFreePlacement c.possible c.occupied = some slot)
    (hx : lowestFreePlacement x.possible x.occupied = some slot') :
    selectPartitionPlacements [c, x] 1 = some [if occupiedLength c.occupied < occupiedLength x.occupied
      then ⟨x.id, slot'⟩ else ⟨c.id, slot⟩] := by
  simp only [selectPartitionPlacements, Int.toNat_one, zipIdx_cons, zipIdx_nil, selectLoop,
    bestCandidate, foldl_cons, foldl_nil, considerCandidate, not_mem_nil, if_false, hc, hx]
  by_cases hlt : occupiedLength c.occupied < occupiedLength x.occupied <;> simp [hlt]

/-- There is a place beyond everything occupied. -/
theorem exists_bound (o : List AcceleratorPlacement) : ∃ b : ℤ, ∀ p ∈ o, p.start + p.length ≤ b := by
  induction o with
  | nil => exact ⟨0, by simp⟩
  | cons p o ih =>
    obtain ⟨b, hb⟩ := ih
    refine ⟨max b (p.start + p.length), forall_mem_cons.mpr ⟨le_max_right _ _, fun q hq => ?_⟩⟩
    exact (hb q hq).trans (le_max_left _ _)

theorem lowestFreePlacement_singleton (h : ∀ p ∈ o, p.start + p.length ≤ slot.start) :
    lowestFreePlacement [slot] o = some slot := by
  have hfree : placementOverlapsAny slot o = false := by
    refine placementOverlapsAny_eq_false.mpr fun p hp hoverlap => ?_
    have := h p hp
    have := hoverlap.1
    omega
  simp [lowestFreePlacement, hfree]

/-- Of two records the one that adds up to more shows. -/
theorem not_interchangeable_of_lt (h : occupiedLength o < occupiedLength o') :
    ¬ Interchangeable o o' := by
  intro hsame
  obtain ⟨b, hb⟩ := exists_bound (o ++ o')
  -- Beside a card as occupied as the longer record says, only the shorter one lets that card go first.
  have hfree : ∀ r : List AcceleratorPlacement, (∀ p ∈ r, p ∈ o ++ o') →
      lowestFreePlacement [⟨b, 1⟩] r = some ⟨b, 1⟩ :=
    fun r hr => lowestFreePlacement_singleton fun p hp => hb p (hr p hp)
  have hx : lowestFreePlacement [⟨occupiedLength o', 1⟩] [⟨0, occupiedLength o'⟩] =
      some ⟨occupiedLength o', 1⟩ := lowestFreePlacement_singleton (by simp)
  have hone := hsame [] [⟨"x", [⟨occupiedLength o', 1⟩], [⟨0, occupiedLength o'⟩]⟩] "c" [⟨b, 1⟩] 1
    (by simp [Proper])
  rw [nil_append, nil_append,
    select_one_of_two (c := ⟨"c", [⟨b, 1⟩], o⟩) (hfree o (by simp +contextual)) hx,
    select_one_of_two (c := ⟨"c", [⟨b, 1⟩], o'⟩) (hfree o' (by simp +contextual)) hx] at hone
  have hlength : occupiedLength [⟨0, occupiedLength o'⟩] = occupiedLength o' := by simp [occupiedLength]
  dsimp only at hone
  rw [hlength, if_pos h, if_neg (lt_irrefl _)] at hone
  simp at hone

/-- The positions a record without overlaps covers are as many as it adds up to. -/
theorem exists_covered (ho : Proper o) (hdisj : o.Pairwise fun p q => ¬ p.Overlaps q) :
    ∃ s : Finset ℤ, (∀ x, x ∈ s ↔ CoversAt o x) ∧ (s.card : ℤ) = occupiedLength o := by
  induction o with
  | nil => exact ⟨∅, by simp [CoversAt], rfl⟩
  | cons p o ih =>
    rw [pairwise_cons] at hdisj
    have hp := ho p (.head _)
    obtain ⟨s, hs, hcard⟩ := ih (fun q hq => ho q (.tail _ hq)) hdisj.2
    have hapart : Disjoint (Finset.Ico p.start (p.start + p.length)) s := by
      refine Finset.disjoint_left.mpr fun x hx hxs => ?_
      obtain ⟨q, hq, hlo, hhi⟩ := (hs x).mp hxs
      rw [Finset.mem_Ico] at hx
      exact hdisj.1 q hq ⟨by omega, by omega⟩
    refine ⟨Finset.Ico p.start (p.start + p.length) ∪ s, fun x => ?_, ?_⟩
    · rw [Finset.mem_union, Finset.mem_Ico, hs]
      simp [CoversAt]
    · rw [Finset.card_union_of_disjoint hapart, Int.card_Ico, Nat.cast_add, hcard]
      simp only [occupiedLength, map_cons, sum_cons]
      omega

theorem occupiedLength_eq_of_disjoint (ho : Proper o) (ho' : Proper o')
    (hdisj : o.Pairwise fun p q => ¬ p.Overlaps q) (hdisj' : o'.Pairwise fun p q => ¬ p.Overlaps q)
    (h : ∀ x, CoversAt o x ↔ CoversAt o' x) :
    occupiedLength o = occupiedLength o' := by
  obtain ⟨s, hs, hcard⟩ := exists_covered ho hdisj
  obtain ⟨s', hs', hcard'⟩ := exists_covered ho' hdisj'
  obtain rfl : s = s' := by
    ext x
    rw [hs, hs', h]
  exact hcard.symm.trans hcard'

/-- Records that cover the same positions are interchangeable exactly if they add up to the same. -/
theorem interchangeable_iff (ho : Proper o) (ho' : Proper o')
    (h : ∀ x, CoversAt o x ↔ CoversAt o' x) :
    Interchangeable o o' ↔ occupiedLength o = occupiedLength o' := by
  constructor
  · intro hsame
    rcases lt_trichotomy (occupiedLength o) (occupiedLength o') with hlt | heq | hlt
    · exact absurd hsame (not_interchangeable_of_lt hlt)
    · exact heq
    · refine absurd (fun before after id possible count hp => ?_) (not_interchangeable_of_lt hlt)
      exact (hsame before after id possible count hp).symm
  · intro hlength before after id possible count hp
    refine selectPartitionPlacements_congr ?_ count
    have hothers : ∀ cs : List PartitionCandidate,
        List.Forall₂ (fun c c' : PartitionCandidate => c.view = c'.view) cs cs :=
      fun cs => forall₂_same.mpr fun _ _ => rfl
    refine rel_append (hothers before) (.cons ?_ (hothers after))
    exact Rerecorded.view_eq ⟨rfl, rfl, ⟨hp, ho, ho'⟩, h⟩ hlength

/-- The selections are `count` legal placements, each on a candidate of its own and overlapping nothing
occupied there. -/
def Fulfils (candidates : List PartitionCandidate) (count : ℤ) (sels : List PartitionSelection) : Prop :=
  ∃ chosen : List (ℕ × PartitionCandidate × AcceleratorPlacement),
    sels = chosen.map (fun b => ⟨b.2.1.id, b.2.2⟩) ∧ chosen.length = count.toNat ∧
    (chosen.map (·.1)).Nodup ∧
    ∀ b ∈ chosen, candidates[b.1]? = some b.2.1 ∧ b.2.2 ∈ b.2.1.possible ∧
      ∀ occ ∈ b.2.1.occupied, ¬ b.2.2.Overlaps occ

/-- **What a partition selection depends on.**  It fulfils a count exactly if as many candidates have a
free legal placement.  Two records of the same occupied positions give the same selections in every
decision exactly if they add up to the same length, as they do if neither records a position twice; and
then it makes no difference which record each card has. -/
theorem selection_depends_on_occupied (o o' : List AcceleratorPlacement) (ho : Proper o)
    (ho' : Proper o') (hcover : ∀ x, CoversAt o x ↔ CoversAt o' x) :
    (∀ candidates count, (∃ sels, selectPartitionPlacements candidates count = some sels ∧
        Fulfils candidates count sels) ↔ count.toNat ≤ candidates.countP PartitionCandidate.hasFree) ∧
      (Interchangeable o o' ↔ occupiedLength o = occupiedLength o') ∧
      (o.Pairwise (fun p q => ¬ p.Overlaps q) → o'.Pairwise (fun p q => ¬ p.Overlaps q) →
        Interchangeable o o') ∧
      ∀ cs cs' count, List.Forall₂ (fun c c' => Rerecorded c c' ∧
        occupiedLength c.occupied = occupiedLength c'.occupied) cs cs' →
          selectPartitionPlacements cs count = selectPartitionPlacements cs' count := by
  have hiff := interchangeable_iff ho ho' hcover
  refine ⟨fun candidates count => ?_, hiff, fun hdisj hdisj' => ?_, fun cs cs' count h => ?_⟩
  · rw [← selectPartitionPlacements_isSome_iff, Option.isSome_iff_exists]
    exact ⟨fun ⟨sels, hsels, _⟩ => ⟨sels, hsels⟩,
      fun ⟨sels, hsels⟩ => ⟨sels, hsels, selectPartitionPlacements_spec hsels⟩⟩
  · exact hiff.mpr (occupiedLength_eq_of_disjoint ho ho' hdisj hdisj' hcover)
  · exact selectPartitionPlacements_congr (h.imp fun _ _ hc => hc.1.view_eq hc.2) count

theorem selection_depends_on_occupied_halves : Interchangeable [⟨0, 2⟩] [⟨0, 1⟩, ⟨1, 1⟩] :=
  (selection_depends_on_occupied [⟨0, 2⟩] [⟨0, 1⟩, ⟨1, 1⟩] (by simp [Proper]) (by simp [Proper])
    (fun x => by simp only [CoversAt, mem_cons, not_mem_nil, or_false, exists_eq_left,
      exists_eq_or_imp]; omega)).2.1.mpr rfl

/-- A placement recorded twice, in the annotation of its Pod and in its reservation, makes its card look
fuller than one that carries more. -/
theorem repeated_placement_moves_selection :
    (∀ x, CoversAt [⟨0, 1⟩] x ↔ CoversAt [⟨0, 1⟩, ⟨0, 1⟩] x) ∧
      selectPartitionPlacements
        [⟨"a", [⟨1, 1⟩], [⟨0, 1⟩]⟩, ⟨"b", [⟨2, 1⟩], [⟨0, 2⟩]⟩] 1 = some [⟨"b", ⟨2, 1⟩⟩] ∧
      selectPartitionPlacements
        [⟨"a", [⟨1, 1⟩], [⟨0, 1⟩, ⟨0, 1⟩]⟩, ⟨"b", [⟨2, 1⟩], [⟨0, 2⟩]⟩] 1 = some [⟨"a", ⟨1, 1⟩⟩] :=
  ⟨fun x => by simp [CoversAt], by decide, by decide⟩

end GpuStack
