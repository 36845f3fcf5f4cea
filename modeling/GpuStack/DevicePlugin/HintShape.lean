import GpuStack.DevicePlugin.Hint
import GpuStack.Lib.Select

/-!
# DevicePlugin/HintShape — what a hint has to look like

A hint is worth something to kubelet when it has as many tokens as were asked for, all available and on
distinct cards, and a token of every card the container has already (`HintShape`).  The first three hold of
every hint to a sensible request.  The last does not: the walk ends when the count is full, and what
must be included is met first only within its group and only when units are named.

With nothing preferred, a card is reached in time when fewer cards than asked for are taken before it;
with preferred accelerators, when there are not more such cards than tokens.  In both cases it must not
be held in another mode.  That is all it takes: `hint_shape_iff`.
-/

namespace GpuStack

open List

/-- The container has a token of the card already, and the card is available. -/
def PreferredRequest.MustTake (req : PreferredRequest) (res : Resource) : Prop :=
  (∃ t ∈ req.mustIncludeDeviceIDs, t.resource = res) ∧ ∃ t ∈ req.availableDeviceIDs, t.resource = res

instance (req : PreferredRequest) (res : Resource) : Decidable (req.MustTake res) :=
  inferInstanceAs (Decidable (_ ∧ _))

/-- **What a hint has to look like.** -/
structure HintShape (s : ResourceServer) (spec : List DevicesGroup) (req : PreferredRequest)
    (hint : List ResourceToken) : Prop where
  size : hint.length = req.allocationSize
  available : ∀ t ∈ hint, t ∈ req.availableDeviceIDs
  distinct : hint.Nodup
  cards : (hint.map (·.resource)).Nodup
  covers : ∀ card ∈ s.placedCards spec, req.MustTake card.resource → ∃ t ∈ hint, t.resource = card.resource

namespace ResourceServer

variable (s : ResourceServer) (room : SlicedRoom) (req : PreferredRequest)

/-- A walk with nothing preferred can take a token of the card. -/
def CanTake (units : ℤ) (card : PlacedCard) : Prop :=
  (∃ t ∈ req.availableDeviceIDs, t.resource = card.resource) ∧ s.OpenAt room.devs.status card ∧
    ((∃ t ∈ req.mustIncludeDeviceIDs, t.resource = card.resource) ∨
      (0 < units → room.shortage card.resource units = none))

instance (units : ℤ) : DecidablePred (s.CanTake room req units) := fun _ =>
  inferInstanceAs (Decidable (_ ∧ _ ∧ _))

/-- How many cards a walk with nothing preferred can take before it meets a card. -/
def takenBefore (units : ℤ) (card : PlacedCard) : ℕ :=
  ((s.walkOrder room req.mustIncluded units).takeWhile (· ≠ card)).countP (s.CanTake room req units)

/-- **What must be included is reached in time.** -/
structure Reaches (preferred : List String) (units : ℤ) : Prop where
  isOpen : ∀ card ∈ s.placedCards room.devs.spec, req.MustTake card.resource →
    s.OpenAt room.devs.status card
  early : preferred = [] → ∀ card ∈ s.placedCards room.devs.spec, req.MustTake card.resource →
    s.takenBefore room req units card < req.allocationSize
  few : preferred ≠ [] →
    ((s.placedCards room.devs.spec).filter fun card => req.MustTake card.resource).length
      ≤ req.allocationSize

/-! ### Where the tokens come from -/

/-- Tokens of distinct cards, each of them one that its card may give. -/
structure Walked (cards : List PlacedCard) (tokens : List ResourceToken) : Prop where
  subperm : (tokens.map (·.resource)).Subperm (cards.map (·.resource))
  origin : ∀ t ∈ tokens, ∃ card ∈ cards, t.resource = card.resource ∧ s.OpenAt room.devs.status card ∧
    (req.mustIncluded.first card.resource = some t ∨ req.available.first card.resource = some t)

variable {s room req} {units : ℤ} {preferred wanted : List String} {card : PlacedCard}
  {cards cards' : List PlacedCard} {tokens tokens' : List ResourceToken} {t : ResourceToken}

theorem Walked.skip (h : s.Walked room req cards tokens) (card : PlacedCard) :
    s.Walked room req (card :: cards) tokens where
  subperm := h.subperm.trans (sublist_cons_self _ _).subperm
  origin t ht := let ⟨c, hc, hfrom⟩ := h.origin t ht; ⟨c, .tail _ hc, hfrom⟩

theorem Walked.cons (h : s.Walked room req cards tokens) (ho : s.OpenAt room.devs.status card)
    (hfrom : req.mustIncluded.first card.resource = some t ∨ req.available.first card.resource = some t) :
    s.Walked room req (card :: cards) (t :: tokens) := by
  have hres : t.resource = card.resource :=
    hfrom.elim (fun h => (of_first_eq_some h).2) fun h => (of_first_eq_some h).2
  refine ⟨?_, fun t' ht' => ?_⟩
  · rw [map_cons, map_cons, hres]
    exact (subperm_cons _).mpr h.subperm
  · rcases mem_cons.mp ht' with rfl | ht'
    · exact ⟨card, mem_cons_self, hres, ho, hfrom⟩
    · exact (h.skip card).origin t' ht'

theorem Walked.of_subperm (h : s.Walked room req cards tokens) (hsub : tokens'.Subperm tokens)
    (hcards : cards.Perm cards') : s.Walked room req cards' tokens' where
  subperm := by
    obtain ⟨l, hperm, hsublist⟩ := hsub
    exact List.Subperm.trans ⟨_, hperm.map _, hsublist.map _⟩ (h.subperm.trans (hcards.map _).subperm)
  origin t ht := let ⟨c, hc, hfrom⟩ := h.origin t (hsub.subset ht); ⟨c, hcards.mem_iff.mp hc, hfrom⟩

/-- What a walk may take is available, and on distinct cards. -/
theorem Walked.tokens_nodup (h : s.Walked room req cards tokens)
    (hcards : (cards.map (·.resource)).Nodup) : (tokens.map (·.resource)).Nodup := by
  obtain ⟨l, hperm, hsub⟩ := h.subperm
  exact hperm.nodup_iff.mp (hsub.nodup hcards)

/-! ### Nothing preferred -/

/-- A card that can be taken is one that gives a token. -/
theorem tokenAt_isSome : (s.tokenAt room req units card).isSome ↔ s.CanTake room req units card := by
  have ha : (req.available.first card.resource).isSome ↔ _ := first_isSome
  have hm : (req.mustIncluded.first card.resource).isSome ↔ _ := first_isSome
  unfold CanTake
  rw [← ha, ← hm, tokenAt, visit]
  grind

theorem walked_filterMap (s : ResourceServer) (room : SlicedRoom) (req : PreferredRequest) (units : ℤ) :
    ∀ cards, s.Walked room req cards (cards.filterMap (s.tokenAt room req units))
  | [] => ⟨List.Subperm.refl _, fun _ h => by cases h⟩
  | card :: cards => by
    have ih := walked_filterMap s room req units cards
    cases htake : s.tokenAt room req units card with
    | none => rw [filterMap_cons_none htake]; exact ih.skip card
    | some t =>
      rw [filterMap_cons_some htake]
      obtain ⟨-, ho, hfrom⟩ := of_visit_eq_take (tokenAt_eq_some.mp htake)
      exact ih.cons ho (hfrom.imp_right fun h => h.2.1)

/-! ### Some preferred -/

/-- **A walk with preferred accelerators** takes a token of every open card that must be included; all it
takes or puts aside is on distinct cards. -/
theorem selectUnits_preferred (s : ResourceServer) (room : SlicedRoom) (req : PreferredRequest) (units : ℤ)
    (hpref : preferred ≠ []) (cards : List PlacedCard) (wanted : List String) (sel : PreferredSelection) :
    ∃ S U : List ResourceToken,
      (s.selectUnits room req units preferred cards wanted sel).selected = sel.selected ++ S ∧
      (s.selectUnits room req units preferred cards wanted sel).unselected = sel.unselected ++ U ∧
      s.Walked room req cards (S ++ U) ∧
      ∀ card ∈ cards, req.MustTake card.resource → s.OpenAt room.devs.status card →
        ∃ t ∈ S, t.resource = card.resource := by
  induction cards generalizing wanted sel with
  | nil => exact ⟨[], [], by simp [selectUnits], by simp [selectUnits],
      ⟨List.Subperm.refl _, fun _ h => by cases h⟩, fun _ h => by cases h⟩
  | cons card cards ih =>
    have htaken : req.MustTake card.resource → s.OpenAt room.devs.status card →
        ∃ t, s.visit room req units preferred wanted card = .take t ∧ t.resource = card.resource :=
      fun hmust ho => by
        obtain ⟨t, ht⟩ := Option.isSome_iff_exists.mp (first_isSome.mpr hmust.1)
        exact ⟨t, visit_of_mustInclude (first_isSome.mpr hmust.2) ho ht, (of_first_eq_some ht).2⟩
    rw [selectUnits]
    generalize hv : s.visit room req units preferred wanted card = visited at htaken
    cases visited with
    | skip =>
      obtain ⟨S, U, hS, hU, hwalk, hecho⟩ := ih wanted sel
      refine ⟨S, U, hS, hU, hwalk.skip card, forall_mem_cons.mpr ⟨fun hmust ho => ?_, hecho⟩⟩
      obtain ⟨t, ⟨⟩, -⟩ := htaken hmust ho
    | defer t =>
      obtain ⟨S, U, hS, hU, hwalk, hecho⟩ := ih wanted { sel with unselected := sel.unselected ++ [t] }
      obtain ⟨ho, -, ha⟩ := of_visit_eq_defer hv
      refine ⟨S, t :: U, hS, by simpa using hU, ?_, forall_mem_cons.mpr ⟨fun hmust ho => ?_, hecho⟩⟩
      · exact (hwalk.cons ho (.inr ha)).of_subperm perm_middle.subperm (List.Perm.refl _)
      · obtain ⟨t', ⟨⟩, -⟩ := htaken hmust ho
    | take t =>
      dsimp only
      rw [if_neg fun h => hpref h.1]
      obtain ⟨S, U, hS, hU, hwalk, hecho⟩ := ih (wanted.filter (· ≠ card.resource.device))
        ⟨sel.selected ++ [t], sel.unselected, sel.remainingSize - 1⟩
      obtain ⟨-, ho, hfrom⟩ := of_visit_eq_take hv
      refine ⟨t :: S, U, by simpa using hS, hU, hwalk.cons ho (hfrom.imp_right fun h => h.2.1),
        forall_mem_cons.mpr ⟨fun hmust ho => ?_, fun c hc hmust ho => ?_⟩⟩
      · obtain ⟨_, ⟨⟩, hres⟩ := htaken hmust ho
        exact ⟨t, mem_cons_self, hres⟩
      · obtain ⟨t', ht', hres⟩ := hecho c hc hmust ho
        exact ⟨t', .tail _ ht', hres⟩

/-- What must be included ranks first. -/
theorem pairwise_ranked_must (mustIncluded : TokensByCard) (preferred : List String)
    (tokens : List ResourceToken) :
    (tokens.insertionSort fun a b => ranksBefore mustIncluded preferred a b).Pairwise fun a b =>
      (mustIncluded.first b.resource).isSome → (mustIncluded.first a.resource).isSome := by
  have : Std.Total fun a b => ranksBefore mustIncluded preferred a b = true := ⟨fun a b => by
    have := le_total (preferredRank preferred a.resource.device) (preferredRank preferred b.resource.device)
    unfold ranksBefore
    grind⟩
  have : IsTrans ResourceToken fun a b => ranksBefore mustIncluded preferred a b = true :=
    ⟨fun a b c => by
      unfold ranksBefore
      grind⟩
  refine (pairwise_insertionSort _ tokens).imp fun {a b} h hb => ?_
  unfold ranksBefore at h
  grind

/-- **The hint with preferred accelerators**, as a set: as many as were asked for of what the walk took or
put aside, and among them what must be included unless there is too much of it. -/
theorem preferredTokens_preferred (hpref : preferred ≠ [])
    (hne : s.preferredTokens room req preferred units ≠ []) : ∃ S U kept : List ResourceToken,
      s.Walked room req (s.placedCards room.devs.spec) (S ++ U) ∧
      (∀ card ∈ s.placedCards room.devs.spec, req.MustTake card.resource →
        s.OpenAt room.devs.status card → ∃ t ∈ S, t.resource = card.resource) ∧
      (s.preferredTokens room req preferred units).Perm kept ∧ kept.length = req.allocationSize ∧
      kept.Subperm (S ++ U) ∧
      ∀ t ∈ S, (req.mustIncluded.first t.resource).isSome →
        S.countP (fun t => (req.mustIncluded.first t.resource).isSome) ≤ req.allocationSize → t ∈ kept := by
  obtain ⟨S, U, hS, hU, hwalk, hecho⟩ := selectUnits_preferred s room req units hpref
    (s.walkOrder room req.mustIncluded units) preferred { remainingSize := req.allocationSize }
  have hperm := s.perm_walkOrder room req.mustIncluded units
  rw [nil_append] at hS hU
  obtain ⟨R, hR⟩ : ∃ R, R = S.insertionSort fun a b => ranksBefore req.mustIncluded preferred a b :=
    ⟨_, rfl⟩
  have hperm' : R.Perm S := hR ▸ perm_insertionSort _ S
  have hmust := pairwise_ranked_must req.mustIncluded preferred S
  rw [← hR] at hmust
  have hkept : ∃ rest : List ResourceToken, rest.Sublist U ∧
      (R.take req.allocationSize ++ rest).length = req.allocationSize ∧
      (s.preferredTokens room req preferred units).Perm (R.take req.allocationSize ++ rest) := by
    unfold preferredTokens selectPreferredUnits capAndOrderPreferredTokens at hne ⊢
    simp only [hpref, if_false, hS, hU, ← hR, length_take] at hne ⊢
    by_cases hcut : req.allocationSize ≤ R.length
    · -- enough was taken
      rw [if_neg (by omega)]
      exact ⟨[], nil_sublist U, by simpa using hcut, by
        rw [append_nil]; exact perm_insertionSort _ _⟩
    · rw [if_pos (by omega)] at hne ⊢
      split at hne
      · exact absurd rfl hne
      · rename_i hfill
        rw [if_neg hfill]
        refine ⟨_, take_sublist _ U, ?_, perm_insertionSort _ _⟩
        rw [length_append, length_take, length_take]
        omega
  obtain ⟨rest, hrest, hlen, hhint⟩ := hkept
  refine ⟨S, U, R.take req.allocationSize ++ rest, hwalk.of_subperm (List.Subperm.refl _) hperm,
    fun card hcard => hecho card (hperm.mem_iff.mpr hcard), hhint, hlen, ?_, ?_⟩
  · exact ((take_sublist _ _).append hrest).subperm.trans (hperm'.append_right U).subperm
  · intro t ht hfirst hcount
    rw [← hperm'.countP_eq] at hcount
    exact mem_append_left _
      (Select.mem_take_of_first hmust (by simpa using hcount) (hperm'.mem_iff.mpr ht) hfirst)

/-! ### The shape -/

/-- The card of a token is the only one of its name. -/
theorem Walked.open_of_mem (h : s.Walked room req cards tokens) (hcards : (cards.map (·.resource)).Nodup)
    (hcard : card ∈ cards) (ht : t ∈ tokens) (hres : t.resource = card.resource) :
    s.OpenAt room.devs.status card := by
  obtain ⟨card', hcard', hres', hopen, -⟩ := h.origin t ht
  rwa [inj_on_of_nodup_map hcards hcard hcard' (hres.symm.trans hres')]

/-- **With nothing preferred**, what must be included is hinted when it is open and met in time. -/
theorem covered_iff {k : ℕ} (hcards : (cards.map (·.resource)).Nodup) (hcard : card ∈ cards)
    (hmust : req.MustTake card.resource) :
    (∃ t ∈ (cards.filterMap (s.tokenAt room req units)).take k, t.resource = card.resource) ↔
      s.OpenAt room.devs.status card ∧
        (cards.takeWhile (· ≠ card)).countP (s.CanTake room req units) < k := by
  obtain ⟨before, after, rfl, hbefore⟩ := eq_append_cons_of_mem hcard
  have hwhile : (before ++ card :: after).takeWhile (· ≠ card) = before := by
    rw [takeWhile_append_of_pos fun c hc => by simpa using fun h : c = card => hbefore (h ▸ hc)]
    simp
  have hcount : (before.filterMap (s.tokenAt room req units)).length
      = before.countP (s.CanTake room req units) := by
    rw [length_filterMap_eq_countP]
    exact countP_congr fun c _ => by simpa using tokenAt_isSome
  rw [hwhile, ← hcount, filterMap_append]
  constructor
  · rintro ⟨t, ht, hres⟩
    have hwalk := walked_filterMap s room req units (before ++ card :: after)
    rw [filterMap_append] at hwalk
    refine ⟨hwalk.open_of_mem hcards hcard (mem_of_mem_take ht) hres, ?_⟩
    -- otherwise the token would be of a card met before
    by_contra hlate
    rw [take_append_of_le_length (not_lt.mp hlate)] at ht
    obtain ⟨c, hc, hres', -⟩ :=
      (walked_filterMap s room req units before).origin t (mem_of_mem_take ht)
    refine hbefore (inj_on_of_nodup_map hcards hcard (mem_append_left _ hc) ?_ ▸ hc)
    exact hres.symm.trans hres'
  · rintro ⟨hopen, hlt⟩
    obtain ⟨t, ht⟩ := Option.isSome_iff_exists.mp (first_isSome.mpr hmust.1)
    have htake : s.tokenAt room req units card = some t :=
      tokenAt_eq_some.mpr (visit_of_mustInclude (first_isSome.mpr hmust.2) hopen ht)
    refine ⟨t, ?_, (of_first_eq_some ht).2⟩
    rw [filterMap_cons_some htake, take_append, mem_append]
    obtain ⟨n, hn⟩ : ∃ n, k - (before.filterMap (s.tokenAt room req units)).length = n + 1 :=
      ⟨k - (before.filterMap (s.tokenAt room req units)).length - 1, by omega⟩
    rw [hn, take_succ_cons]
    exact .inr mem_cons_self

/-- There are no more cards to be included than tokens of the hint. -/
theorem length_must_le_of_shape {spec : List DevicesGroup} (h : HintShape s spec req tokens)
    (hcards : ((s.placedCards spec).map (·.resource)).Nodup) :
    ((s.placedCards spec).filter fun card => req.MustTake card.resource).length ≤ req.allocationSize := by
  have hsub : (((s.placedCards spec).filter fun card => req.MustTake card.resource).map
      (·.resource)).Subperm (tokens.map (·.resource)) := by
    refine subperm_of_subset ((filter_sublist.map _).nodup hcards) fun res hres => ?_
    obtain ⟨c, hc, rfl⟩ := mem_map.mp hres
    rw [mem_filter, decide_eq_true_iff] at hc
    obtain ⟨t, ht, hres⟩ := h.covers c hc.1 hc.2
    exact mem_map.mpr ⟨t, ht, hres⟩
  simpa [h.size] using hsub.length_le

variable (hmust : ∀ t ∈ req.mustIncludeDeviceIDs, t ∈ req.availableDeviceIDs)
include hmust

theorem Walked.mem_available (h : s.Walked room req cards tokens) (ht : t ∈ tokens) :
    t ∈ req.availableDeviceIDs := by
  obtain ⟨card, -, -, -, hm | ha⟩ := h.origin t ht
  · exact hmust t (of_first_eq_some hm).1
  · exact (of_first_eq_some ha).1

variable (hcards : ((s.placedCards room.devs.spec).map (·.resource)).Nodup)
include hcards

/-- The parts of the shape that a hint always has. -/
theorem Walked.hintShape (h : s.Walked room req (s.placedCards room.devs.spec) tokens)
    (hlen : tokens.length = req.allocationSize)
    (hcovers : ∀ card ∈ s.placedCards room.devs.spec, req.MustTake card.resource →
      ∃ t ∈ tokens, t.resource = card.resource) :
    HintShape s room.devs.spec req tokens where
  size := hlen
  available _ ht := h.mem_available hmust ht
  distinct := (h.tokens_nodup hcards).of_map _
  cards := h.tokens_nodup hcards
  covers := hcovers

/-- The tokens that must be included are on distinct cards to be included. -/
theorem Walked.countP_must_le (h : s.Walked room req (s.placedCards room.devs.spec) tokens) :
    tokens.countP (fun t => (req.mustIncluded.first t.resource).isSome) ≤
      ((s.placedCards room.devs.spec).filter fun card => req.MustTake card.resource).length := by
  have hsub : ((tokens.filter fun t => (req.mustIncluded.first t.resource).isSome).map
      (·.resource)).Subperm (((s.placedCards room.devs.spec).filter fun card =>
        req.MustTake card.resource).map (·.resource)) := by
    refine subperm_of_subset ((filter_sublist.map _).nodup (h.tokens_nodup hcards))
      fun res hres => ?_
    obtain ⟨t, ht, rfl⟩ := mem_map.mp hres
    rw [mem_filter] at ht
    obtain ⟨card, hcard, hres, -, -⟩ := h.origin t ht.1
    have hfirst : (req.mustIncluded.first card.resource).isSome := hres ▸ ht.2
    refine mem_map.mpr ⟨card, mem_filter.mpr ⟨hcard, decide_eq_true ?_⟩, hres.symm⟩
    exact ⟨first_isSome.mp hfirst, t, h.mem_available hmust ht.1, hres⟩
  rw [countP_eq_length_filter]
  simpa using hsub.length_le

/-- **A hint has its shape exactly when what must be included is reached in time.** -/
theorem hintShape_iff (hsize : 0 < req.allocationSize)
    (hne : s.preferredTokens room req preferred units ≠ []) :
    HintShape s room.devs.spec req (s.preferredTokens room req preferred units) ↔
      s.Reaches room req preferred units := by
  rcases eq_or_ne preferred [] with rfl | hpref
  · have hperm := s.perm_walkOrder room req.mustIncluded units
    have hcards' := (hperm.map (·.resource)).nodup_iff.mpr hcards
    rw [preferredTokens_nil] at hne ⊢
    dsimp only at hne ⊢
    split at hne
    · exact absurd rfl hne
    rename_i hlen
    rw [if_neg hlen, max_eq_right hsize]
    have hwalk := (walked_filterMap s room req units (s.walkOrder room req.mustIncluded units)).of_subperm
      (take_sublist req.allocationSize _).subperm hperm
    constructor
    · intro h
      have hcov := fun card hcard hm => (covered_iff hcards' (hperm.mem_iff.mpr hcard) hm).mp
        (h.covers card hcard hm)
      exact ⟨fun c hc hm => (hcov c hc hm).1, fun _ c hc hm => (hcov c hc hm).2, fun h => absurd rfl h⟩
    · intro h
      refine hwalk.hintShape hmust hcards (length_take_of_le (not_lt.mp hlen)) fun c hc hm => ?_
      exact (covered_iff hcards' (hperm.mem_iff.mpr hc) hm).mpr ⟨h.isOpen c hc hm, h.early rfl c hc hm⟩
  · obtain ⟨S, U, kept, hwalk, hecho, hhint, hlen, hsub, hkeeps⟩ := preferredTokens_preferred hpref hne
    have hwalk' := hwalk.of_subperm (hhint.subperm.trans hsub) (List.Perm.refl _)
    constructor
    · intro h
      refine ⟨fun c hc hm => ?_, fun h => absurd h hpref, fun _ => ?_⟩
      · obtain ⟨t, ht, hres⟩ := h.covers c hc hm
        exact hwalk'.open_of_mem hcards hc ht hres
      · exact length_must_le_of_shape h hcards
    · intro h
      refine hwalk'.hintShape hmust hcards (hhint.length_eq.trans hlen) fun c hc hm => ?_
      obtain ⟨t, ht, hres⟩ := hecho c hc hm (h.isOpen c hc hm)
      refine ⟨t, hhint.mem_iff.mpr (hkeeps t ht ?_ ?_), hres⟩
      · rw [hres]
        exact first_isSome.mpr hm.1
      · have hS := hwalk.of_subperm (sublist_append_left S U).subperm (List.Perm.refl _)
        exact (hS.countP_must_le hmust hcards).trans (h.few hpref)

end ResourceServer

/-- **The hint to a sensible request has its shape exactly when what must be included is reached in time.**
A request is sensible when it asks for something and what must be included is available, and the inventory
lists each accelerator once. -/
theorem hint_shape_iff (sw : Switches) (s : ResourceServer) (r : DevicesReconciler) (snap : Snapshot)
    (preferred : List String) (pod : Pod) (ctr : Container) (req : PreferredRequest)
    (hsize : 0 < req.allocationSize)
    (hmust : ∀ t ∈ req.mustIncludeDeviceIDs, t ∈ req.availableDeviceIDs)
    (hcards : ((s.placedCards snap.devices.spec).map (·.resource)).Nodup)
    (hne : getPreferredAllocation sw s r snap preferred pod ctr req ≠ []) :
    HintShape s snap.devices.spec req (getPreferredAllocation sw s r snap preferred pod ctr req) ↔
      s.Reaches (hintRoom sw s r snap pod ctr) req preferred (s.slicedUnits ctr) := by
  unfold getPreferredAllocation at hne ⊢
  split at hne
  · exact absurd rfl hne
  · rename_i hmode
    rw [if_neg hmode]
    exact ResourceServer.hintShape_iff hmust hcards hsize hne

/-! ### A card that is not reached -/

/-- Two free cards in groups of their own. -/
def twoGroups : Snapshot :=
  ⟨{ spec := [⟨"g", "acme", 0, [{ id := "a" }]⟩, ⟨"h", "acme", 0, [{ id := "b" }]⟩]
     status := ⟨[⟨"g", "acme", [{ id := "a" }]⟩, ⟨"h", "acme", [{ id := "b" }]⟩]⟩ }, []⟩

def slicedServer : ResourceServer := ⟨"acme", "acme.com/gpu", .sliced⟩

/-- A slice of a tenth of a card. -/
def tenthOfCard : Container :=
  { name := "c"
    limits := (∅ : ResourceList).insert (.slicedUnits "acme.com/gpu") (resourceMaxUnits / 10) }

/-- One token is asked for, and the container has one of the second card. -/
def secondHeld : PreferredRequest :=
  { availableDeviceIDs := [⟨⟨"g", "a"⟩, 0⟩, ⟨⟨"h", "b"⟩, 0⟩]
    mustIncludeDeviceIDs := [⟨⟨"h", "b"⟩, 0⟩]
    allocationSize := 1 }

/-- **The first group fills the count**, and the card that must be included, in the second, is left out. -/
theorem second_group_left_out :
    getPreferredAllocation {} slicedServer {} twoGroups [] { uid := "p" } tenthOfCard secondHeld
        = [⟨⟨"g", "a"⟩, 0⟩] ∧
      ¬ HintShape slicedServer twoGroups.devices.spec secondHeld [⟨⟨"g", "a"⟩, 0⟩] := by
  refine ⟨by decide +kernel, fun h => ?_⟩
  obtain ⟨t, ht, hres⟩ := h.covers ⟨1, 0, ⟨"h", "b"⟩⟩ (by decide +kernel) (by decide +kernel)
  rw [mem_singleton.mp ht] at hres
  exact absurd hres (by decide)

/-- With the cards asked for the other way round it is reached. -/
theorem hint_shape_iff_firstHeld :
    let req : PreferredRequest := { secondHeld with mustIncludeDeviceIDs := [⟨⟨"g", "a"⟩, 0⟩] }
    HintShape slicedServer twoGroups.devices.spec req
      (getPreferredAllocation {} slicedServer {} twoGroups [] { uid := "p" } tenthOfCard req) :=
  (hint_shape_iff {} slicedServer {} twoGroups [] { uid := "p" } tenthOfCard _ (by decide)
    (by decide) (by decide +kernel) (by decide +kernel)).mpr
    ⟨by decide +kernel, by decide +kernel, by decide +kernel⟩

end GpuStack
