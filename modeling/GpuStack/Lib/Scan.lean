import Mathlib

/-!
# Lib/Scan — walks over a list

A validation walks a list and stops at the first element that fails its check; the check may look at
the elements already passed, which is what a map of the identities seen so far is for.  A walk that
finds nothing has checked every element against those before it (`firstError_eq_none`), so a check
that refuses a repeated key leaves the keys distinct (`nodup_of_firstError`).

A walk that builds something keeps what one of its elements put in, if no other takes it out
(`foldl_of_mem`).  A walk that translates every element stops at the first that has no translation
(`mapM_eq_ok`).
-/

namespace Scan

open List

universe u v w

variable {α : Type u} {ε : Type v} {κ : Type w} (check : List α → α → Option ε)

/-- The first error of a walk that has already passed `passed`. -/
def firstErrorFrom : List α → List α → Option ε
  | _, [] => none
  | passed, a :: l => (check passed a).or (firstErrorFrom (passed ++ [a]) l)

/-- The first error of a walk. -/
def firstError (l : List α) : Option ε := firstErrorFrom check [] l

variable {check}

variable {l : List α}

theorem firstErrorFrom_eq_none {passed : List α} :
    firstErrorFrom check passed l = none ↔
      ∀ pre a post, l = pre ++ a :: post → check (passed ++ pre) a = none := by
  induction l generalizing passed with
  | nil => simp [firstErrorFrom]
  | cons b l ih =>
    rw [firstErrorFrom, Option.or_eq_none_iff, ih]
    constructor
    · rintro ⟨hb, hrest⟩ pre a post hsplit
      obtain ⟨rfl, hl⟩ | ⟨pre', rfl, hl⟩ := cons_eq_append_iff.mp hsplit
      · obtain ⟨rfl, -⟩ := cons.inj hl
        simpa using hb
      · simpa using hrest pre' a post hl
    · intro h
      refine ⟨by simpa using h [] b l rfl, fun pre a post hl => ?_⟩
      simpa using h (b :: pre) a post (by simp [hl])

/-- **A walk finds nothing exactly when every element passes**, seen after those before it. -/
theorem firstError_eq_none :
    firstError check l = none ↔ ∀ pre a post, l = pre ++ a :: post → check pre a = none :=
  firstErrorFrom_eq_none

/-- Every element has passed its check at some point of the walk. -/
theorem exists_check_of_mem (h : firstError check l = none) {a : α} (ha : a ∈ l) :
    ∃ pre, check pre a = none := by
  obtain ⟨pre, post, hsplit⟩ := append_of_mem ha
  exact ⟨pre, firstError_eq_none.mp h pre a post hsplit⟩

/-- A check that refuses a key already seen leaves the keys distinct. -/
theorem nodup_of_firstError (h : firstError check l = none) {key : α → κ}
    (hkey : ∀ pre a, check pre a = none → ∀ b ∈ pre, key b ≠ key a) : (l.map key).Nodup := by
  rw [nodup_iff_pairwise_ne, pairwise_map]
  refine pairwise_iff_forall_sublist.mpr ?_
  intro a b hsub
  obtain ⟨l₁, l₂, rfl, h₁, h₂⟩ := cons_sublist_iff.mp hsub
  obtain ⟨pre, post, rfl⟩ := append_of_mem (singleton_sublist.mp h₂)
  exact hkey (l₁ ++ pre) b (firstError_eq_none.mp h (l₁ ++ pre) b post (by simp)) a
    (mem_append_left _ h₁)

/-- **What one element establishes and every other keeps holds at the end of a fold.** -/
theorem foldl_of_mem {β : Type w} {f : β → α → β} {P : β → Prop} {a : α}
    (ha : a ∈ l) (hest : ∀ b, P (f b a)) (hkeep : ∀ b, ∀ x ∈ l, P b → P (f b x)) (b : β) :
    P (l.foldl f b) := by
  suffices ∀ (l' : List α), (∀ x ∈ l', x ∈ l) → ∀ b, P b ∨ a ∈ l' → P (l'.foldl f b) from
    this l (fun _ => id) b (.inr ha)
  intro l'
  induction l' with
  | nil => exact fun _ b hb => hb.resolve_right not_mem_nil
  | cons x l' ih =>
    intro hsub b hb
    obtain ⟨hx, hl'⟩ := forall_mem_cons.mp hsub
    refine ih hl' _ ?_
    obtain hb | hb := hb
    · exact .inl (hkeep b x hx hb)
    · obtain rfl | hb := mem_cons.mp hb
      · exact .inl (hest b)
      · exact .inr hb

/-- A computation that may fail succeeds exactly when each of its steps does. -/
theorem bind_eq_ok {α β : Type u} {x : Except ε α} {f : α → Except ε β} {b : β} :
    x >>= f = .ok b ↔ ∃ a, x = .ok a ∧ f a = .ok b := by
  cases x with
  | error e => exact ⟨nofun, nofun⟩
  | ok a => exact ⟨fun h => ⟨a, rfl, h⟩, fun ⟨_, ha, hf⟩ => Except.ok.inj ha ▸ hf⟩

theorem bind_eq_error {α β : Type u} {x : Except ε α} {f : α → Except ε β} {e : ε} :
    x >>= f = .error e ↔ x = .error e ∨ ∃ a, x = .ok a ∧ f a = .error e := by
  cases x with
  | error e' => simp [bind, Except.bind]
  | ok a => simp [bind, Except.bind]

theorem toOption_eq_some {β : Type w} {x : Except ε β} {b : β} :
    x.toOption = some b ↔ x = .ok b := by
  cases x <;> simp [Except.toOption]

/-- **A walk that translates every element** fails on none of them, and gives their images in
order. -/
theorem mapM_eq_ok {β : Type w} {f : α → Except ε β} {bs : List β} :
    l.mapM f = .ok bs ↔ l.map f = bs.map .ok := by
  induction l generalizing bs with
  | nil => cases bs <;> simp [pure, Except.pure]
  | cons a l ih =>
    rw [mapM_cons, map_cons]
    cases ha : f a with
    | error e => cases bs <;> simp [bind, Except.bind]
    | ok b =>
      cases bs with
      | nil => cases l.mapM f <;> simp [bind, Except.bind, pure, Except.pure]
      | cons b' bs =>
        rw [map_cons, cons.injEq, ← ih]
        cases l.mapM f <;> simp [bind, Except.bind, pure, Except.pure]

theorem mem_of_mapM_eq_ok {β : Type w} {f : α → Except ε β} {bs : List β}
    (h : l.mapM f = .ok bs) {b : β} : b ∈ bs ↔ ∃ a ∈ l, f a = .ok b := by
  rw [← mem_map, mapM_eq_ok.mp h]
  simp

theorem exists_mapM_eq_ok {β : Type w} {f : α → Except ε β} :
    (∃ bs, l.mapM f = .ok bs) ↔ ∀ a ∈ l, ∃ b, f a = .ok b := by
  simp only [mapM_eq_ok]
  induction l with
  | nil => exact ⟨fun _ => by simp, fun _ => ⟨[], rfl⟩⟩
  | cons a l ih =>
    rw [forall_mem_cons, ← ih]
    constructor
    · rintro ⟨bs, hbs⟩
      obtain ⟨b, bs, rfl, hb, hrest⟩ := map_eq_cons_iff.mp hbs.symm
      exact ⟨⟨b, hb.symm⟩, bs, hrest.symm⟩
    · rintro ⟨⟨b, hb⟩, bs, hbs⟩
      exact ⟨b :: bs, by rw [map_cons, map_cons, hb, hbs]⟩

end Scan
