import Mathlib

/-!
# Lib/Interrupt — programs that can be cut

A controller works in passes.  A pass looks at the state and performs effects one after another; an
effect may be refused, which ends the pass, and the process may die between any two of them.  What is
left is the state after some of the first effects.

An invariant of every state such a system can be in is one that holds initially and that no cut pass
breaks (`Reach.invariant`); the latter is a condition on the pass alone, effect by effect (`Safe`).

What the effects themselves may do is a condition on each with the state it is performed in (`Along`).
-/

namespace Interrupt

universe u v

variable {σ : Type u} {ε : Type v} (perform : σ → ε → Option σ)

/-- Perform effects in order, up to the first that is refused. -/
def run : σ → List ε → σ
  | s, [] => s
  | s, e :: es =>
    match perform s e with
    | some s' => run s' es
    | none => s

/-- The invariant holds wherever the program is cut. -/
def Safe (I : σ → Prop) : List ε → σ → Prop
  | [], s => I s
  | e :: es, s => I s ∧ ∀ s', perform s e = some s' → Safe I es s'

/-- The states of a system whose passes are `program`, each cut anywhere. -/
inductive Reach (program : σ → List ε → Prop) (init : σ → Prop) : σ → Prop
  | start {s : σ} (h : init s) : Reach program init s
  | pass {s : σ} {es : List ε} (h : Reach program init s) (hprogram : program s es) (k : ℕ) :
      Reach program init (run perform s (es.take k))

variable {perform} {I J : σ → Prop} {program program' : σ → List ε → Prop} {init init' : σ → Prop}
  {s s' : σ} {es : List ε}

theorem Safe.here (h : Safe perform I es s) : I s := by
  cases es with
  | nil => exact h
  | cons e es => exact h.1

theorem Safe.run_take (h : Safe perform I es s) (k : ℕ) : I (run perform s (es.take k)) := by
  induction k generalizing s es with
  | zero => exact h.here
  | succ k ih =>
    cases es with
    | nil => exact h
    | cons e es =>
      rw [List.take_succ_cons, run]
      cases hstep : perform s e with
      | none => exact h.1
      | some s' => exact ih (h.2 s' hstep)

/-- Effects that keep more than the invariant, before a program that starts from that. -/
theorem Safe.append {es' : List ε} (hhere : J s) (hinv : ∀ s, J s → I s)
    (hkeep : ∀ e ∈ es, ∀ s s', J s → perform s e = some s' → J s')
    (hrest : ∀ s, J s → Safe perform I es' s) : Safe perform I (es ++ es') s := by
  induction es generalizing s with
  | nil => exact hrest s hhere
  | cons e es ih =>
    obtain ⟨hkeep, hkeeps⟩ := List.forall_mem_cons.mp hkeep
    exact ⟨hinv s hhere, fun s' hstep => ih (hkeep s s' hhere hstep) hkeeps⟩

theorem Safe.of_forall (hhere : I s)
    (hkeep : ∀ e ∈ es, ∀ s s', I s → perform s e = some s' → I s') : Safe perform I es s := by
  have hsafe : Safe perform I (es ++ []) s := .append hhere (fun _ => id) hkeep fun _ => id
  rwa [List.append_nil] at hsafe

/-- **An invariant that no cut pass breaks holds in every state.** -/
theorem Reach.invariant (hinit : ∀ s, init s → I s)
    (hpass : ∀ s es, I s → program s es → Safe perform I es s)
    (h : Reach perform program init s) : I s := by
  induction h with
  | start h => exact hinit _ h
  | pass _ hprogram k ih => exact (hpass _ _ ih hprogram).run_take k

/-- **A system whose passes begin passes of another** is in states of the other. -/
theorem Reach.refine
    (hprogram : ∀ s es, program s es → es = [] ∨ ∃ es', es <+: es' ∧ program' s es')
    (hinit : ∀ s, init s → init' s) (h : Reach perform program init s) :
    Reach perform program' init' s := by
  induction h with
  | start h => exact .start (hinit _ h)
  | @pass s es _ hp k ih =>
    obtain rfl | ⟨es', hbegin, hp'⟩ := hprogram _ _ hp
    · simpa [run] using ih
    · have htake : es.take k = es'.take (min k es.length) := by
        rw [← List.take_take, ← List.prefix_iff_eq_take.mp hbegin]
      rw [htake]
      exact ih.pass hp' _

/-! ## What each effect finds -/

section Along

variable (step : σ → ε → σ)

/-- Every effect is performed in a state that allows it. -/
def Along (P : σ → ε → Prop) : σ → List ε → Prop
  | _, [] => True
  | s, e :: es => P s e ∧ Along P (step s e) es

variable {step} {P Q : σ → ε → Prop} {es' : List ε}

theorem along_append :
    Along step P s (es ++ es') ↔ Along step P s es ∧ Along step P (es.foldl step s) es' := by
  induction es generalizing s with
  | nil => simp [Along]
  | cons e es ih => simp [Along, ih, and_assoc]

/-- A cut of a program does what the program does. -/
theorem Along.take (h : Along step P s es) (k : ℕ) : Along step P s (es.take k) := by
  rw [← es.take_append_drop k, along_append] at h
  exact h.1

theorem Along.mono (h : Along step P s es) (hPQ : ∀ s, ∀ e ∈ es, P s e → Q s e) :
    Along step Q s es := by
  induction es generalizing s with
  | nil => trivial
  | cons e es ih =>
    obtain ⟨hhere, hrest⟩ := List.forall_mem_cons.mp (fun e he s => hPQ s e he)
    exact ⟨hhere s h.1, ih h.2 fun s e he => hrest e he s⟩

/-- Effects that an invariant allows, and that keep it. -/
theorem along_of_invariant (hhere : I s) (hkeep : ∀ e ∈ es, ∀ s, I s → P s e ∧ I (step s e)) :
    Along step P s es := by
  induction es generalizing s with
  | nil => trivial
  | cons e es ih =>
    obtain ⟨hkeep, hkeeps⟩ := List.forall_mem_cons.mp hkeep
    exact ⟨(hkeep s hhere).1, ih (hkeep s hhere).2 hkeeps⟩

/-- Effects that keep a state are all performed in it. -/
theorem along_of_keep (hkeep : ∀ e ∈ es, step s e = s) (h : ∀ e ∈ es, P s e) : Along step P s es :=
  along_of_invariant (I := (· = s)) rfl fun e he _ heq => by
    subst heq
    exact ⟨h e he, hkeep e he⟩

theorem foldl_of_keep (hkeep : ∀ e ∈ es, step s e = s) : es.foldl step s = s := by
  induction es with
  | nil => rfl
  | cons e es ih =>
    obtain ⟨hkeep, hkeeps⟩ := List.forall_mem_cons.mp hkeep
    rw [List.foldl_cons, hkeep]
    exact ih hkeeps

end Along

end Interrupt
