import Mathlib

/-!
# Lib/Component — connected components by search

`connected` is a depth-first search that carries what was already seen; `components` starts one from
every vertex of a list that no earlier search has found.  The searches take fuel, and enough of it is
a bound on the vertices a start can lead to.

Where edges go both ways, a search never enters what earlier ones have finished with, so what it finds
is what its start is connected to, whatever was seen before (`mem_connected`).
-/

namespace Component

open List

universe u

variable {α : Type u} [DecidableEq α] (graph : α → List α)

/-- Search from a neighbour, if it is not yet known. -/
def visit (search : α → List α → List α) (seen found : List α) (next : α) : List α :=
  if next ∈ seen ++ found then found else found ++ search next (seen ++ found)

/-- Search from a vertex, beside what was seen. -/
def connected : ℕ → α → List α → List α
  | 0, start, _ => [start]
  | fuel + 1, start, seen => (graph start).foldl (visit (connected fuel) seen) [start]

/-- A search from every vertex of a list that was not yet found. -/
def components (fuel : ℕ) : List α → List α → List (List α)
  | _, [] => []
  | seen, a :: l =>
    if a ∈ seen then components fuel seen l
    else connected graph fuel a seen
      :: components fuel (seen ++ connected graph fuel a seen) l

/-- There is an edge. -/
def Edge (a b : α) : Prop := b ∈ graph a

/-- There is a path. -/
def Joined : α → α → Prop := Relation.ReflTransGen (Edge graph)

/-- No edge leads out. -/
def Closed (s : List α) : Prop := ∀ a ∈ s, ∀ b ∈ graph a, b ∈ s

/-- A start leads to no more vertices than this. -/
def Within (fuel : ℕ) (start : α) : Prop :=
  ∃ reach : Finset α, start ∈ reach ∧ (∀ a ∈ reach, ∀ b ∈ graph a, b ∈ reach) ∧ reach.card ≤ fuel

/-- What a search has found so far: each vertex once, none seen before, all on paths from the start,
and no edge of any but the start leads out of what is known. -/
structure Explored (seen : List α) (start : α) (found : List α) : Prop where
  start_mem : start ∈ found
  nodup : found.Nodup
  fresh : ∀ a ∈ found, a ∉ seen
  joined : ∀ a ∈ found, Joined graph start a
  closed : ∀ a ∈ found, a ≠ start → ∀ b ∈ graph a, b ∈ seen ++ found

variable {graph} {seen found : List α} {start : α}

/-- What a search beside the known finds joins it. -/
theorem Explored.append (h : Explored graph seen start found) {next : α} {more : List α}
    (hnext : next ∈ graph start) (hmore : Explored graph (seen ++ found) next more)
    (hclosed : ∀ b ∈ graph next, b ∈ seen ++ found ++ more) :
    Explored graph seen start (found ++ more) where
  start_mem := mem_append_left _ h.start_mem
  nodup := by
    refine nodup_append.mpr ⟨h.nodup, hmore.nodup, fun a ha b hb hab => ?_⟩
    exact hmore.fresh b hb (mem_append_right _ (hab ▸ ha))
  fresh := by
    intro a ha hseen
    obtain ha | ha := mem_append.mp ha
    · exact h.fresh a ha hseen
    · exact hmore.fresh a ha (mem_append_left _ hseen)
  joined := by
    intro a ha
    obtain ha | ha := mem_append.mp ha
    · exact h.joined a ha
    · exact .head hnext (hmore.joined a ha)
  closed := by
    intro a ha hne b hb
    rw [← append_assoc]
    obtain ha | ha := mem_append.mp ha
    · exact mem_append_left _ (h.closed a ha hne b hb)
    · by_cases hstart : a = next
      · exact hclosed b (hstart ▸ hb)
      · exact hmore.closed a ha hstart b hb

/-- The neighbours are searched one after another, and each is known once it was. -/
theorem Explored.foldl_visit (h : Explored graph seen start found) {search : α → List α → List α}
    (hsearch : ∀ next ∈ graph start, ∀ found, start ∈ found → next ∉ seen ++ found →
      Explored graph (seen ++ found) next (search next (seen ++ found)) ∧
        ∀ b ∈ graph next, b ∈ seen ++ found ++ search next (seen ++ found))
    {l : List α} (hl : ∀ b ∈ l, b ∈ graph start) :
    Explored graph seen start (l.foldl (visit search seen) found) ∧
      ∀ b, b ∈ l ∨ b ∈ seen ++ found → b ∈ seen ++ l.foldl (visit search seen) found := by
  induction l generalizing found with
  | nil => exact ⟨h, fun b hb => hb.resolve_left not_mem_nil⟩
  | cons next l ih =>
    obtain ⟨hnext, hl⟩ := forall_mem_cons.mp hl
    rw [foldl_cons, visit]
    split
    · rename_i hknown
      obtain ⟨hexplored, hrest⟩ := ih h hl
      refine ⟨hexplored, fun b hb => hrest b ?_⟩
      obtain hb | hb := hb
      · exact (mem_cons.mp hb).elim (fun heq => .inr (heq ▸ hknown)) .inl
      · exact .inr hb
    · rename_i hfresh
      obtain ⟨hmore, hclosed⟩ := hsearch next hnext found h.start_mem hfresh
      obtain ⟨hexplored, hrest⟩ := ih (h.append hnext hmore hclosed) hl
      refine ⟨hexplored, fun b hb => hrest b ?_⟩
      obtain hb | hb := hb
      · refine (mem_cons.mp hb).elim (fun heq => .inr ?_) .inl
        rw [heq]
        exact mem_append_right _ (mem_append_right _ hmore.start_mem)
      · rw [← append_assoc]
        exact .inr (mem_append_left _ hb)

/-- **A search with enough fuel finds a set that no edge leaves**, but for what was seen. -/
theorem explored_connected {fuel : ℕ} {reach : Finset α} (hstart : start ∈ reach)
    (hreach : ∀ a ∈ reach, ∀ b ∈ graph a, b ∈ reach)
    (hfuel : (reach.filter (· ∉ seen)).card ≤ fuel) (hseen : start ∉ seen) :
    Explored graph seen start (connected graph fuel start seen) ∧
      ∀ b ∈ graph start, b ∈ seen ++ connected graph fuel start seen := by
  have hunseen : start ∈ reach.filter (· ∉ seen) := Finset.mem_filter.mpr ⟨hstart, hseen⟩
  induction fuel generalizing start seen with
  | zero => exact absurd (Finset.card_pos.mpr ⟨start, hunseen⟩) (by omega)
  | succ fuel ih =>
    have hfirst : Explored graph seen start [start] :=
      { start_mem := mem_singleton_self start
        nodup := nodup_singleton start
        fresh := fun a ha => mem_singleton.mp ha ▸ hseen
        joined := fun a ha => mem_singleton.mp ha ▸ .refl
        closed := fun a ha hne => absurd (mem_singleton.mp ha) hne }
    -- a neighbour's search has the start behind it, so less is left
    have hsearch : ∀ next ∈ graph start, ∀ found, start ∈ found → next ∉ seen ++ found →
        Explored graph (seen ++ found) next (connected graph fuel next (seen ++ found)) ∧
          ∀ b ∈ graph next, b ∈ seen ++ found ++ connected graph fuel next (seen ++ found) := by
      intro next hnext found hfound hfresh
      have hless : reach.filter (· ∉ seen ++ found) ⊂ reach.filter (· ∉ seen) := by
        refine Finset.ssubset_iff_subset_ne.mpr ⟨fun a ha => ?_, fun heq => ?_⟩
        · simp only [Finset.mem_filter, mem_append, not_or] at ha ⊢
          exact ⟨ha.1, ha.2.1⟩
        · rw [← heq] at hunseen
          exact (Finset.mem_filter.mp hunseen).2 (mem_append_right _ hfound)
      have hcard := Finset.card_lt_card hless
      have hmem := hreach start hstart next hnext
      exact ih hmem (by omega) hfresh (Finset.mem_filter.mpr ⟨hmem, hfresh⟩)
    obtain ⟨hexplored, hknown⟩ := hfirst.foldl_visit hsearch fun _ => id
    exact ⟨hexplored, fun b hb => hknown b (.inl hb)⟩

theorem explored_of_within {fuel : ℕ} (hfuel : Within graph fuel start) (hseen : start ∉ seen) :
    Explored graph seen start (connected graph fuel start seen) ∧
      ∀ b ∈ graph start, b ∈ seen ++ connected graph fuel start seen := by
  obtain ⟨reach, hstart, hreach, hcard⟩ := hfuel
  exact explored_connected hstart hreach ((Finset.card_filter_le _ _).trans hcard) hseen

omit [DecidableEq α] in
/-- A path stays in what no edge leads out of, and another graph with these edges has it too. -/
theorem Joined.of_agree {graph' : α → List α} {s : α → Prop} (hs : ∀ a, s a → ∀ b ∈ graph a, s b)
    (hagree : ∀ a, s a → ∀ b ∈ graph a, b ∈ graph' a) (hstart : s start) {a : α}
    (h : Joined graph start a) : s a ∧ Joined graph' start a := by
  induction h with
  | refl => exact ⟨hstart, .refl⟩
  | tail _ hedge ih => exact ⟨hs _ ih.1 _ hedge, ih.2.tail (hagree _ ih.1 _ hedge)⟩

/-! ## Edges that go both ways -/

section Symmetric

variable (hsymm : ∀ a b, b ∈ graph a → a ∈ graph b)
include hsymm

omit [DecidableEq α] in
theorem Joined.symm {a b : α} (h : Joined graph a b) : Joined graph b a := by
  induction h with
  | refl => exact .refl
  | tail _ hedge ih => exact .head (hsymm _ _ hedge) ih

/-- A search beside a closed set finds a closed set. -/
theorem closed_connected {fuel : ℕ} (hfuel : Within graph fuel start) (hseen : start ∉ seen)
    (hclosed : Closed graph seen) : Closed graph (connected graph fuel start seen) := by
  obtain ⟨hexplored, hstart⟩ := explored_of_within hfuel hseen
  intro a ha b hb
  have hknown : b ∈ seen ++ connected graph fuel start seen := by
    by_cases heq : a = start
    · exact hstart b (heq ▸ hb)
    · exact hexplored.closed a ha heq b hb
  refine (mem_append.mp hknown).resolve_left fun hold => ?_
  exact hexplored.fresh a ha (hclosed b hold a (hsymm a b hb))

/-- **A search finds what its start is connected to.** -/
theorem mem_connected {fuel : ℕ} (hfuel : Within graph fuel start) (hseen : start ∉ seen)
    (hclosed : Closed graph seen) {a : α} :
    a ∈ connected graph fuel start seen ↔ Joined graph start a := by
  obtain ⟨hexplored, -⟩ := explored_of_within hfuel hseen
  refine ⟨hexplored.joined a, fun hjoined => ?_⟩
  induction hjoined with
  | refl => exact hexplored.start_mem
  | tail _ hedge ih => exact closed_connected hsymm hfuel hseen hclosed _ ih _ hedge

/-- **The components of a list**: each is what one of its vertices is connected to, no two share a
vertex, and every vertex that was not seen is in one. -/
theorem components_spec {fuel : ℕ} (hfuel : ∀ a, Within graph fuel a) {l : List α}
    (hclosed : Closed graph seen) :
    (∀ c ∈ components graph fuel seen l, c.Nodup ∧ (∀ a ∈ c, a ∉ seen) ∧
      ∃ start ∈ l, ∀ a, a ∈ c ↔ Joined graph start a) ∧
    (components graph fuel seen l).Pairwise List.Disjoint ∧
    ∀ a ∈ l, a ∉ seen → ∃ c ∈ components graph fuel seen l, a ∈ c := by
  induction l generalizing seen with
  | nil => simp [components]
  | cons first l ih =>
    rw [components]
    split
    · rename_i hknown
      obtain ⟨hspec, hdisjoint, hcover⟩ := ih hclosed
      refine ⟨fun c hc => ?_, hdisjoint, fun a ha hnew => ?_⟩
      · obtain ⟨hnodup, hfresh, start, hstart, hmem⟩ := hspec c hc
        exact ⟨hnodup, hfresh, start, .tail _ hstart, hmem⟩
      · obtain rfl | ha := mem_cons.mp ha
        · exact absurd hknown hnew
        · exact hcover a ha hnew
    · rename_i hnew
      obtain ⟨hexplored, -⟩ := explored_of_within (hfuel first) hnew
      have hnext : Closed graph (seen ++ connected graph fuel first seen) := by
        intro a ha b hb
        obtain ha | ha := mem_append.mp ha
        · exact mem_append_left _ (hclosed a ha b hb)
        · exact mem_append_right _
            (closed_connected hsymm (hfuel first) hnew hclosed a ha b hb)
      obtain ⟨hspec, hdisjoint, hcover⟩ := ih hnext
      refine ⟨fun c hc => ?_, pairwise_cons.mpr ⟨fun c hc => ?_, hdisjoint⟩,
        fun a ha hfresh => ?_⟩
      · obtain rfl | hc := mem_cons.mp hc
        · exact ⟨hexplored.nodup, hexplored.fresh, first, .head _,
            fun a => mem_connected hsymm (hfuel first) hnew hclosed⟩
        · obtain ⟨hnodup, hfresh, start, hstart, hmem⟩ := hspec c hc
          exact ⟨hnodup, fun a ha hold => hfresh a ha (mem_append_left _ hold), start,
            mem_cons_of_mem _ hstart, hmem⟩
      · exact fun a ha hc' => (hspec c hc).2.1 a hc' (mem_append_right _ ha)
      · by_cases hfound : a ∈ connected graph fuel first seen
        · exact ⟨_, .head _, hfound⟩
        · obtain rfl | ha := mem_cons.mp ha
          · exact absurd hexplored.start_mem hfound
          · obtain ⟨c, hc, hac⟩ := hcover a ha (by simp [hfresh, hfound])
            exact ⟨c, .tail _ hc, hac⟩

end Symmetric

end Component
