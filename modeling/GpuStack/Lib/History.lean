import Mathlib

/-!
# Lib/History — what a log says happened before

A log is a list, the latest entry first.  `Once P Q` is the claim that some entry had `P` and that what
came before it had `Q`, so that nested uses say in which order things happened.  `Since P Q` is the
claim that some entry had `Q` and that every entry after it has had `P`.  Both survive a later entry
(`Once.cons`, `Since.cons`).
-/

namespace History

universe u

variable {ε : Type u} {P : ε → Prop} {Q Q' : List ε → Prop} {e : ε} {log : List ε}

/-- Some entry has `P`, and the log before it has `Q`. -/
def Once (P : ε → Prop) (Q : List ε → Prop) (log : List ε) : Prop :=
  ∃ newer e older, log = newer ++ e :: older ∧ P e ∧ Q older

theorem Once.head (hP : P e) (hQ : Q log) : Once P Q (e :: log) :=
  ⟨[], e, log, rfl, hP, hQ⟩

theorem Once.cons (h : Once P Q log) : Once P Q (e :: log) := by
  obtain ⟨newer, e', older, rfl, hP, hQ⟩ := h
  exact ⟨e :: newer, e', older, rfl, hP, hQ⟩

/-- Every entry since one with `start` has `P`; what they are as a whole has `Q`. -/
def Since (P start : ε → Prop) (Q : List ε → Prop) (log : List ε) : Prop :=
  ∃ recent e older, log = recent ++ e :: older ∧ start e ∧ (∀ e ∈ recent, P e) ∧ Q recent

variable {start : ε → Prop}

theorem Since.head (hstart : start e) (hQ : Q []) : Since P start Q (e :: log) :=
  ⟨[], e, log, rfl, hstart, by simp, hQ⟩

theorem Since.cons (h : Since P start Q log) (hP : P e)
    (hQ : ∀ recent, Q recent → Q' (e :: recent)) : Since P start Q' (e :: log) := by
  obtain ⟨recent, e', older, rfl, hstart, hall, hrecent⟩ := h
  exact ⟨e :: recent, e', older, rfl, hstart, List.forall_mem_cons.mpr ⟨hP, hall⟩, hQ recent hrecent⟩

end History
