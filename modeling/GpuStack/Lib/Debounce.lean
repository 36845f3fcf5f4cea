import Mathlib

/-!
# Lib/Debounce — counters of consecutive absences

A loop acts on a key only after it has missed it in so many passes in a row.  `tally` is what one
complete pass does to the counters, `ripe` says which keys have missed often enough, and `settle`
forgets those that are done.  A pass whose readings fail leaves the counters as they were.

`Run` lists the passes, the latest first, and `Run.absent` is what a counter stands for: among the
last `n` passes the key was missed in every one that was read.  A `Loop` is a program that keeps such
counters, and `Loop.absent_iff` says what its counter at `n` leaves open.
-/

namespace Debounce

open List

universe u v

variable {κ : Type u}

/-- The counters after a complete pass: a key it found live is at zero, one it missed counts one more,
and one it did not meet is dropped. -/
def tally (touched live : κ → Bool) (misses : κ → ℕ) (k : κ) : ℕ :=
  if touched k then (if live k then 0 else misses k + 1) else 0

/-- The keys that have now been missed `bound` times. -/
def ripe (bound : ℕ) (touched live : κ → Bool) (misses : κ → ℕ) (k : κ) : Bool :=
  touched k && !live k && decide (bound ≤ misses k + 1)

/-- Forget the keys that are done. -/
def settle (done : κ → Bool) (misses : κ → ℕ) (k : κ) : ℕ :=
  if done k then 0 else misses k

/-- One pass: whether its readings succeeded, and the keys it found live. -/
structure Pass (κ : Type u) where
  read : Bool
  live : κ → Bool

/-- The most a pass may leave in a counter. -/
def Pass.ceiling (p : Pass κ) (misses : κ → ℕ) (k : κ) : ℕ :=
  if p.read then (if p.live k then 0 else misses k + 1) else misses k

theorem settle_tally_le {touched live done : κ → Bool} (misses : κ → ℕ) (k : κ) :
    settle done (tally touched live misses) k ≤ (Pass.mk true live).ceiling misses k := by
  unfold settle tally Pass.ceiling
  split_ifs <;> simp_all

/-- The counters some passes leave, the latest pass first. -/
inductive Run : List (Pass κ) → (κ → ℕ) → Prop
  | start : Run [] fun _ => 0
  | pass {p : Pass κ} {ps : List (Pass κ)} {misses after : κ → ℕ} :
    Run ps misses → (∀ k, after k ≤ p.ceiling misses k) → Run (p :: ps) after

namespace Run

variable {ps : List (Pass κ)} {misses : κ → ℕ} {k : κ}

/-- A counter is no larger than the number of passes. -/
theorem le_length (h : Run ps misses) : misses k ≤ ps.length := by
  induction h with
  | start => exact Nat.zero_le _
  | @pass p ps misses after _ hafter ih =>
    have hk := hafter k
    unfold Pass.ceiling at hk
    rw [length_cons]
    split_ifs at hk <;> omega

/-- **A counter at `n` stands for `n` absences**: a key counted `n` times was missed in each of the
last `n` passes that was read, and so in all of them if it was absent from those that were not. -/
theorem absent (h : Run ps misses) {n : ℕ} (hn : n ≤ misses k)
    (hunread : ∀ p ∈ ps.take n, p.read = false → p.live k = false) :
    ∀ p ∈ ps.take n, p.live k = false := by
  induction h generalizing n with
  | start => simp
  | @pass p ps misses after _ hafter ih =>
    have hk := hafter k
    unfold Pass.ceiling at hk
    cases n with
    | zero => simp
    | succ n =>
      rw [take_succ_cons, forall_mem_cons] at hunread
      rw [take_succ_cons, forall_mem_cons]
      split_ifs at hk with hread hlive
      · omega
      · exact ⟨by simpa using hlive, ih (by omega) hunread.2⟩
      · exact ⟨hunread.1 (by simpa using hread), ih (by omega) hunread.2⟩

end Run

/-- A program that is called again and again and keeps counters between its calls. -/
structure Loop (κ : Type u) (C : Type v) where
  /-- What a call amounts to. -/
  pass : C → Pass κ
  /-- The counters after a call. -/
  next : (κ → ℕ) → C → κ → ℕ
  next_le : ∀ misses c k, next misses c k ≤ (pass c).ceiling misses k

namespace Loop

variable {C : Type v} (l : Loop κ C)

/-- The counters after some calls, the latest first. -/
def counters (calls : List C) : κ → ℕ := calls.foldr (fun c misses => l.next misses c) fun _ => 0

theorem run (calls : List C) : Run (calls.map l.pass) (l.counters calls) := by
  induction calls with
  | nil => exact .start
  | cons c calls ih => exact ih.pass (l.next_le _ c)

/-- **A key counted `n` times was absent in the last `n` calls exactly if it was in those of them whose
readings failed.** -/
theorem absent_iff {calls : List C} {k : κ} {n : ℕ} (hn : n ≤ l.counters calls k) :
    (∀ c ∈ calls.take n, (l.pass c).live k = false) ↔
      ∀ c ∈ calls.take n, (l.pass c).read = false → (l.pass c).live k = false := by
  refine ⟨fun h c hc _ => h c hc, fun h c hc => ?_⟩
  have hunread : ∀ p ∈ (calls.map l.pass).take n, p.read = false → p.live k = false := by
    rw [← map_take]
    exact forall_mem_map.mpr h
  have hall := (l.run calls).absent hn hunread
  rw [← map_take] at hall
  exact hall _ (mem_map_of_mem hc)

theorem le_length {calls : List C} {k : κ} {n : ℕ} (hn : n ≤ l.counters calls k) :
    n ≤ calls.length := by
  have hlen := (l.run calls).le_length (k := k)
  rw [length_map] at hlen
  exact hn.trans hlen

end Loop

end Debounce
