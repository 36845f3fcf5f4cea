import GpuStack.Lib.Component
import GpuStack.Scaler.Interval

/-!
# Scaler/Search — the counts of coupled roles

Roles that ratios couple are counted together.  `searchComponent` walks the counts of a component role
by role, nearest to what is wanted first, keeps to the range the roles already counted leave, and takes
the best vector that meets the ratios; it looks at no more vectors than its budget.

The vectors it looks at are a list (`leaves`), and what it does with the budget is a walk over that list
(`searchNeighbors_eq`).  So within its budget it finds a vector wherever there is one
(`searchComponent_complete`), and what it finds is in range and meets the ratios
(`searchComponent_sound`).

Quotients are exact, with the tolerance of the code.
-/

namespace GpuStack

open List

/-! ## Vectors and ratios -/

/-- Counts by role; of two entries of a role the first stands. -/
abbrev ReplicaVector := List (RoleName × ℤ)

/-- The count of a role, and zero for one that has none. -/
def ReplicaVector.count (v : ReplicaVector) (name : RoleName) : ℤ := (v.lookup name).getD 0

def ratioEpsilon : ℚ := 1 / 10 ^ 9

/-- A quantity as a number, zero where it is not set. -/
def quantityFloat (quantity : Option ℚ) : ℚ := quantity.getD 0

namespace RoleRatio

variable (r : RoleRatio)

/-- The quotient of two counts is in the band, within the tolerance. -/
def satisfied (num den : ℤ) : Bool :=
  0 < den ∧ quantityFloat r.min - ratioEpsilon ≤ (num : ℚ) / den ∧
    ∀ m ∈ r.max, (num : ℚ) / den ≤ m + ratioEpsilon

/-- The quotient of two counts is in the band. -/
def Met (num den : ℤ) : Prop :=
  0 < den ∧ quantityFloat r.min ≤ (num : ℚ) / den ∧ ∀ m ∈ r.max, (num : ℚ) / den ≤ m

/-- The range a numerator has beside a denominator, and the other way round. -/
def numeratorLower (den : ℤ) : ℤ := ⌈quantityFloat r.min * den - ratioEpsilon⌉

def numeratorUpper (den : ℤ) : Option ℤ := r.max.map fun m => ⌊m * den + ratioEpsilon⌋

def denominatorLower (num : ℤ) : ℤ :=
  match r.max with
  | none => 1
  | some m => if m ≤ 0 then 1 else ⌈num / m - ratioEpsilon⌉

def denominatorUpper (num : ℤ) : Option ℤ :=
  if quantityFloat r.min ≤ 0 then none else some ⌊num / quantityFloat r.min + ratioEpsilon⌋

/-- Both roles are of a component. -/
def inside (component : List RoleName) : Bool :=
  r.numeratorRole ∈ component ∧ r.denominatorRole ∈ component

variable {r} {num den : ℤ}

theorem ratioEpsilon_pos : 0 < ratioEpsilon := by
  norm_num [ratioEpsilon]

theorem Met.satisfied (h : r.Met num den) : r.satisfied num den = true := by
  obtain ⟨hden, hmin, hmax⟩ := h
  have hpos := ratioEpsilon_pos
  refine decide_eq_true ⟨hden, by linarith, fun m hm => ?_⟩
  have := hmax m hm
  linarith

/-- **Two counts in the band are in each other's range.** -/
theorem Met.range (h : r.Met num den) :
    r.numeratorLower den ≤ num ∧ (∀ u ∈ r.numeratorUpper den, num ≤ u) ∧
    r.denominatorLower num ≤ den ∧ ∀ u ∈ r.denominatorUpper num, den ≤ u := by
  obtain ⟨hden, hmin, hmax⟩ := h
  have hpos := ratioEpsilon_pos
  have hden' : (0 : ℚ) < den := by exact_mod_cast hden
  rw [le_div_iff₀ hden'] at hmin
  refine ⟨Int.ceil_le.mpr (by linarith), fun u hu => ?_, ?_, fun u hu => ?_⟩
  · obtain ⟨m, hm, rfl⟩ := Option.mem_map.mp hu
    have hle := hmax m hm
    rw [div_le_iff₀ hden'] at hle
    exact Int.le_floor.mpr (by linarith)
  · unfold denominatorLower
    split
    · omega
    split
    · omega
    · rename_i m hm hneg
      have hle := hmax m hm
      rw [div_le_iff₀ hden'] at hle
      refine Int.ceil_le.mpr ?_
      have : (num : ℚ) / m ≤ den := (div_le_iff₀ (not_le.mp hneg)).mpr (by linarith)
      linarith
  · unfold denominatorUpper at hu
    split at hu
    · cases hu
    · rename_i hneg
      obtain rfl := Option.some.inj hu
      refine Int.le_floor.mpr ?_
      have : (den : ℚ) ≤ num / quantityFloat r.min :=
        (le_div_iff₀ (not_le.mp hneg)).mpr (by linarith)
      linarith

end RoleRatio

/-- The two roles of a disaggregated deployment. -/
def prefillRole : RoleName := ⟨"prefill", by decide⟩

def decodeRole : RoleName := ⟨"decode", by decide⟩

/-- One role for each of another. -/
def evenRatio (numeratorRole denominatorRole : RoleName) : RoleRatio :=
  { numeratorRole, denominatorRole, min := some 1, max := some 1 }

/-- Every ratio is satisfied by the counts. -/
def ratiosSatisfied (values : RoleName → ℤ) (ratios : List RoleRatio) : Bool :=
  ratios.all fun r => r.satisfied (values r.numeratorRole) (values r.denominatorRole)

/-- The roles a role shares a ratio with. -/
def ratioGraph (ratios : List RoleRatio) (name : RoleName) : List RoleName :=
  ratios.flatMap fun r =>
    (if r.numeratorRole = name then [r.denominatorRole] else []) ++
      if r.denominatorRole = name then [r.numeratorRole] else []

theorem mem_ratioGraph {ratios : List RoleRatio} {a b : RoleName} :
    b ∈ ratioGraph ratios a ↔ ∃ r ∈ ratios,
      r.numeratorRole = a ∧ r.denominatorRole = b ∨ r.denominatorRole = a ∧ r.numeratorRole = b := by
  simp only [ratioGraph, mem_flatMap, mem_append]
  refine exists_congr fun r => and_congr_right fun _ => or_congr ?_ ?_
  · split_ifs with h <;> simp [h, eq_comm]
  · split_ifs with h <;> simp [h, eq_comm]

/-! ## Candidates -/

def constraintSearchBudget : ℕ := 2 ^ 14

/-- The values of a range at a distance of at most so much from a center, nearest first and the lower of
two first. -/
def around (center low high : ℤ) (distance : ℕ) : List ℤ :=
  center :: (List.range distance).flatMap fun k : ℕ =>
    [center - (k + 1), center + (k + 1)].filter fun x => low ≤ x ∧ x ≤ high

/-- The values of a range, nearest to a target first, as many as the budget. -/
def orderedCandidates (low high target : ℤ) : List ℤ :=
  if high < low then []
  else (around (clamp target low high) low high (high - low).toNat).take
    (min (high - low + 1).toNat constraintSearchBudget)

theorem mem_around {center low high x : ℤ} {distance : ℕ} : x ∈ around center low high distance ↔
    x = center ∨ low ≤ x ∧ x ≤ high ∧ x ≠ center ∧ (x - center).natAbs ≤ distance := by
  simp only [around, mem_cons, mem_flatMap, mem_range, mem_filter,
    not_mem_nil, or_false, decide_eq_true_eq]
  refine or_congr_right ⟨?_, fun ⟨hlow, hhigh, hne, hnear⟩ => ?_⟩
  · rintro ⟨k, hk, hx, hlow, hhigh⟩
    omega
  · exact ⟨(x - center).natAbs - 1, by omega, by omega, hlow, hhigh⟩

/-- Each is met once. -/
theorem nodup_around (center low high : ℤ) (distance : ℕ) :
    (around center low high distance).Nodup := by
  have hmem : ∀ k : ℕ, ∀ x ∈ [center - (k + 1), center + (k + 1)].filter fun x => low ≤ x ∧ x ≤ high,
      x = center - (k + 1) ∨ x = center + (k + 1) := by
    intro k x hx
    simpa using (mem_filter.mp hx).1
  refine nodup_cons.mpr ⟨fun hcenter => ?_, nodup_flatMap.mpr ⟨fun k _ => ?_, ?_⟩⟩
  · obtain ⟨k, -, hk⟩ := mem_flatMap.mp hcenter
    obtain h | h := hmem k center hk <;> omega
  · refine List.Nodup.filter _ ?_
    simp only [nodup_cons, mem_singleton, not_mem_nil, not_false_eq_true,
      nodup_nil, and_true]
    omega
  · refine pairwise_lt_range.imp fun {k l} hlt x hk hl => ?_
    obtain h | h := hmem k x hk <;> obtain h' | h' := hmem l x hl <;> omega

/-- Distinct values of a range are no more than it has. -/
theorem length_around_le {center low high : ℤ} {distance : ℕ} (hlow : low ≤ center)
    (hhigh : center ≤ high) : (around center low high distance).length ≤ (high - low + 1).toNat := by
  have hsub : (around center low high distance).toFinset ⊆ Finset.Icc low high := by
    intro x hx
    rw [Finset.mem_Icc]
    obtain rfl | ⟨hl, hh, -⟩ := mem_around.mp (mem_toFinset.mp hx)
    · exact ⟨hlow, hhigh⟩
    · exact ⟨hl, hh⟩
  have hcard := Finset.card_le_card hsub
  rw [toFinset_card_of_nodup (nodup_around ..), Int.card_Icc] at hcard
  omega

theorem mem_of_mem_orderedCandidates {low high target x : ℤ}
    (h : x ∈ orderedCandidates low high target) : low ≤ x ∧ x ≤ high := by
  unfold orderedCandidates at h
  split at h
  · exact nomatch h
  · rename_i hle
    obtain rfl | ⟨hlow, hhigh, -⟩ := mem_around.mp (mem_of_mem_take h)
    · exact ⟨le_clamp (not_lt.mp hle), clamp_le (not_lt.mp hle)⟩
    · exact ⟨hlow, hhigh⟩

/-- **Within the budget every value of a range is a candidate.** -/
theorem mem_orderedCandidates {low high target x : ℤ}
    (hbudget : high - low < constraintSearchBudget) (hlow : low ≤ x) (hhigh : x ≤ high) :
    x ∈ orderedCandidates low high target := by
  have hle : low ≤ high := hlow.trans hhigh
  have hcenter : low ≤ clamp target low high := le_clamp hle
  have hcenter' : clamp target low high ≤ high := clamp_le hle
  have hlength : (around (clamp target low high) low high (high - low).toNat).length
      ≤ (high - low + 1).toNat := length_around_le hcenter hcenter'
  unfold orderedCandidates
  rw [if_neg (not_lt.mpr hle), take_of_length_le (by omega), mem_around]
  by_cases heq : x = clamp target low high
  · exact .inl heq
  · exact .inr ⟨hlow, hhigh, heq, by omega⟩

/-! ## The search -/

/-- What a component is searched for: the range and the wanted count of each role. -/
structure SearchProblem where
  component : List RoleName
  ratios : List RoleRatio
  low : ReplicaVector
  high : ReplicaVector
  desired : ReplicaVector

/-- How far a vector is from what is wanted, how far its quotients are from their targets, and how
large it is. -/
structure SearchScore where
  distance : ℚ
  deviation : ℚ
  total : ℚ
deriving DecidableEq

/-- The vector that is best so far, and how many more may be looked at. -/
structure SearchState where
  best : Option (ReplicaVector × SearchScore) := none
  budget : ℕ := constraintSearchBudget

/-- The quotient a ratio aims at. -/
def RoleRatio.aim (r : RoleRatio) : ℚ :=
  if quantityFloat r.target = 0 then (quantityFloat r.min + quantityFloat r.max) / 2
  else quantityFloat r.target

def scoreVector (values desired : ReplicaVector) (ratios : List RoleRatio) : SearchScore where
  distance := (values.map fun e => |(e.2 - desired.count e.1 : ℚ)|).sum
  deviation := (ratios.map fun r =>
    if 0 < values.count r.denominatorRole then
      |(values.count r.numeratorRole : ℚ) / values.count r.denominatorRole - r.aim|
    else 0).sum
  total := (values.map fun e => (e.2 : ℚ)).sum

/-- A score is better: nearer, then better in quotients, then larger. -/
def SearchScore.betterThan (score best : SearchScore) : Bool :=
  score.distance < best.distance ∨
    score.distance = best.distance ∧ score.deviation < best.deviation ∨
    score.distance = best.distance ∧ score.deviation = best.deviation ∧ best.total < score.total

namespace SearchProblem

variable (p : SearchProblem)

/-- Look at a full vector, as long as there is budget. -/
def look (st : SearchState) (values : ReplicaVector) : SearchState :=
  if st.budget = 0 then st
  else if ¬ ratiosSatisfied values.count p.ratios then { st with budget := st.budget - 1 }
  else if st.best.all fun best => (scoreVector values p.desired p.ratios).betterThan best.2 then
    { best := some (values, scoreVector values p.desired p.ratios), budget := st.budget - 1 }
  else { st with budget := st.budget - 1 }

/-- A role has a count. -/
def assigned (assignment : ReplicaVector) (name : RoleName) : Bool := (assignment.lookup name).isSome

/-- The role to count next: one that shares a ratio with a counted one, before any other. -/
def nextRole (assignment : ReplicaVector) : Option RoleName :=
  ((p.component.filter (assigned assignment)).findSome? fun name =>
    (ratioGraph p.ratios name).find? fun next => ¬ assigned assignment next).or
  (p.component.find? fun name => ¬ assigned assignment name)

/-- The bounds the counted roles put on a role. -/
def lowers (assignment : ReplicaVector) (next : RoleName) : List ℤ :=
  p.ratios.flatMap fun r =>
    (if r.numeratorRole = next then
      (assignment.lookup r.denominatorRole).toList.map r.numeratorLower else []) ++
    if r.denominatorRole = next then
      (assignment.lookup r.numeratorRole).toList.map r.denominatorLower else []

def uppers (assignment : ReplicaVector) (next : RoleName) : List ℤ :=
  p.ratios.flatMap fun r =>
    (if r.numeratorRole = next then
      (assignment.lookup r.denominatorRole).toList.flatMap fun den => (r.numeratorUpper den).toList
      else []) ++
    if r.denominatorRole = next then
      (assignment.lookup r.numeratorRole).toList.flatMap fun num => (r.denominatorUpper num).toList
      else []

/-- The values to try for a role. -/
def candidates (assignment : ReplicaVector) (next : RoleName) : List ℤ :=
  orderedCandidates ((p.lowers assignment next).foldl max (p.low.count next))
    ((p.uppers assignment next).foldl min (p.high.count next)) (p.desired.count next)

/-- Count the remaining roles in every way. -/
def searchNeighbors : ℕ → ReplicaVector → SearchState → SearchState
  | 0, assignment, st => p.look st assignment
  | remaining + 1, assignment, st =>
    if st.budget = 0 then st
    else match p.nextRole assignment with
      | none => st
      | some next => (p.candidates assignment next).foldl (fun st value =>
          if st.budget = 0 then st
          else searchNeighbors remaining ((next, value) :: assignment) st) st

/-- The first role with the most ratios. -/
def anchor : Option RoleName :=
  p.component.foldl (fun anchor name =>
    match anchor with
    | none => some name
    | some a =>
      if (ratioGraph p.ratios a).length < (ratioGraph p.ratios name).length then some name
      else some a) none

/-- **The best vector of a component**, if one is found. -/
def searchComponent : Option ReplicaVector :=
  if p.component.any fun name => p.high.count name < p.low.count name then none
  else match p.anchor with
    | none => none
    | some anchor =>
      let values := orderedCandidates (p.low.count anchor) (p.high.count anchor)
        (p.desired.count anchor)
      (values.foldl (fun st value =>
        if st.budget = 0 then st
        else p.searchNeighbors (p.component.length - 1) [(anchor, value)] st) {}).best.map (·.1)

/-! ## The vectors that are looked at -/

/-- The full vectors a search would look at, if it had the budget. -/
def leaves : ℕ → ReplicaVector → List ReplicaVector
  | 0, assignment => [assignment]
  | remaining + 1, assignment =>
    match p.nextRole assignment with
    | none => []
    | some next => (p.candidates assignment next).flatMap fun value =>
        leaves remaining ((next, value) :: assignment)

def allLeaves : List ReplicaVector :=
  match p.anchor with
  | none => []
  | some anchor =>
    (orderedCandidates (p.low.count anchor) (p.high.count anchor) (p.desired.count anchor)).flatMap
      fun value => p.leaves (p.component.length - 1) [(anchor, value)]

/-- **The search stays within its budget**: no range and no number of vectors exceeds it. -/
def WithinBudget : Prop :=
  p.allLeaves.length ≤ constraintSearchBudget ∧
    ∀ name ∈ p.component, p.high.count name - p.low.count name < constraintSearchBudget

variable {p} {st : SearchState} {assignment : ReplicaVector}

theorem foldl_look_of_spent (h : st.budget = 0) (l : List ReplicaVector) :
    l.foldl p.look st = st := by
  induction l with
  | nil => rfl
  | cons values l ih => rw [foldl_cons, look, if_pos h, ih]

/-- A walk over vectors that stops when the budget is spent is a walk over all of them. -/
theorem foldl_guarded {α : Type} {f : α → SearchState → SearchState} {g : α → List ReplicaVector}
    (h : ∀ x st, f x st = (g x).foldl p.look st) (l : List α) :
    l.foldl (fun st x => if st.budget = 0 then st else f x st) st
      = (l.flatMap g).foldl p.look st := by
  induction l generalizing st with
  | nil => rfl
  | cons x l ih =>
    rw [foldl_cons, flatMap_cons, foldl_append, ih]
    split
    · rename_i hspent
      simp only [foldl_look_of_spent hspent]
    · rw [h]

/-- **The search is a walk over its vectors.** -/
theorem searchNeighbors_eq (remaining : ℕ) :
    p.searchNeighbors remaining assignment st = (p.leaves remaining assignment).foldl p.look st := by
  induction remaining generalizing assignment st with
  | zero => rfl
  | succ remaining ih =>
    rw [searchNeighbors, leaves]
    split
    · rename_i hspent
      rw [foldl_look_of_spent hspent]
    · cases p.nextRole assignment with
      | none => rfl
      | some next =>
        exact foldl_guarded (f := fun value => p.searchNeighbors remaining ((next, value) :: assignment))
          (fun _ _ => ih) _

theorem searchComponent_eq (h : ∀ name ∈ p.component, p.low.count name ≤ p.high.count name) :
    p.searchComponent = (p.allLeaves.foldl p.look {}).best.map (·.1) := by
  have hnone : ¬ p.component.any fun name => p.high.count name < p.low.count name := by
    simpa using h
  rw [searchComponent, if_neg hnone, allLeaves]
  cases p.anchor with
  | none => rfl
  | some anchor =>
    dsimp only
    rw [foldl_guarded (f := fun value => p.searchNeighbors (p.component.length - 1) [(anchor, value)])
      fun _ _ => searchNeighbors_eq _]

@[simp] theorem budget_look (values : ReplicaVector) :
    (p.look st values).budget = st.budget - 1 := by
  unfold look
  split_ifs <;> simp_all

/-- A look leaves a best vector where there was one, or where it meets the ratios. -/
theorem isSome_best_look {values : ReplicaVector} (h : st.best.isSome ∨
    st.budget ≠ 0 ∧ ratiosSatisfied values.count p.ratios = true) :
    (p.look st values).best.isSome := by
  cases hbest : st.best with
  | none =>
    obtain ⟨hbudget, hmet⟩ := h.resolve_left (by simp [hbest])
    simp [look, hbudget, hmet, hbest]
  | some best =>
    unfold look
    split_ifs <;> simp [hbest]

/-- What is best was looked at and met the ratios. -/
theorem best_foldl_look {P : ReplicaVector → Prop} {l : List ReplicaVector}
    (hst : ∀ best ∈ st.best, P best.1)
    (hl : ∀ values ∈ l, ratiosSatisfied values.count p.ratios = true → P values) :
    ∀ best ∈ (l.foldl p.look st).best, P best.1 := by
  induction l generalizing st with
  | nil => exact hst
  | cons values l ih =>
    obtain ⟨hvalues, hl⟩ := forall_mem_cons.mp hl
    refine ih ?_ hl
    unfold look
    split
    · exact hst
    split
    · exact hst
    rename_i hmet
    split
    · intro best hbest
      obtain rfl := Option.some.inj hbest
      exact hvalues (by simpa using hmet)
    · exact hst

/-- Where one of the vectors meets the ratios and the budget lasts, there is a best one. -/
theorem isSome_foldl_look {l : List ReplicaVector} (hbudget : l.length ≤ st.budget)
    (h : st.best.isSome ∨ ∃ values ∈ l, ratiosSatisfied values.count p.ratios = true) :
    (l.foldl p.look st).best.isSome := by
  induction l generalizing st with
  | nil => exact h.resolve_right (by simp)
  | cons values l ih =>
    rw [length_cons] at hbudget
    refine ih (by rw [budget_look]; omega) ?_
    obtain hsome | ⟨w, hw, hmet⟩ := h
    · exact .inl (isSome_best_look (.inl hsome))
    · obtain rfl | hw := mem_cons.mp hw
      · exact .inl (isSome_best_look (.inr ⟨by omega, hmet⟩))
      · exact .inr ⟨w, hw, hmet⟩

/-! ## Soundness and completeness -/

variable {v : ReplicaVector} {name next : RoleName}

theorem mem_of_lookup_eq_some {n : ℤ} (h : v.lookup name = some n) : (name, n) ∈ v := by
  obtain ⟨before, after, rfl, -⟩ := lookup_eq_some_iff.mp h
  exact mem_append_right _ mem_cons_self

theorem assigned_iff : assigned v name = true ↔ name ∈ v.map (·.1) := by
  simp only [assigned, lookup_isSome_iff, beq_iff_eq, mem_map, @eq_comm _ name]

theorem lookup_eq_some (h : (v.map (·.1)).Nodup) {e : RoleName × ℤ} (he : e ∈ v) :
    v.lookup e.1 = some e.2 := by
  obtain ⟨n, hn⟩ := Option.isSome_iff_exists.mp (assigned_iff.mpr (mem_map_of_mem he))
  rw [hn, ← inj_on_of_nodup_map h (mem_of_lookup_eq_some hn) he rfl]

theorem foldl_max_le_iff {l : List ℤ} {b x : ℤ} : l.foldl max b ≤ x ↔ b ≤ x ∧ ∀ y ∈ l, y ≤ x := by
  induction l generalizing b with
  | nil => simp
  | cons y l ih => rw [foldl_cons, ih, max_le_iff, forall_mem_cons, and_assoc]

theorem le_foldl_min_iff {l : List ℤ} {b x : ℤ} : x ≤ l.foldl min b ↔ x ≤ b ∧ ∀ y ∈ l, x ≤ y := by
  induction l generalizing b with
  | nil => simp
  | cons y l ih => rw [foldl_cons, ih, le_min_iff, forall_mem_cons, and_assoc]

/-- Each counted role once, and only roles of the component. -/
structure Partial (p : SearchProblem) (assignment : ReplicaVector) : Prop where
  nodup : (assignment.map (·.1)).Nodup
  mem : ∀ e ∈ assignment, e.1 ∈ p.component

/-- A component is a set that no ratio leaves. -/
structure Coupled (p : SearchProblem) : Prop where
  nodup : p.component.Nodup
  closed : ∀ name ∈ p.component, ∀ next ∈ ratioGraph p.ratios name, next ∈ p.component

theorem Partial.cons (h : p.Partial assignment) {next : RoleName} (hmem : next ∈ p.component)
    (hnew : assigned assignment next = false) (value : ℤ) :
    p.Partial ((next, value) :: assignment) where
  nodup := nodup_cons.mpr ⟨fun hold => by simp [assigned_iff.mpr hold] at hnew, h.nodup⟩
  mem := forall_mem_cons.mpr ⟨hmem, h.mem⟩

/-- The next role is one of the component that has no count yet. -/
theorem nextRole_spec (hp : p.Coupled) (h : p.nextRole assignment = some next) :
    next ∈ p.component ∧ assigned assignment next = false := by
  unfold nextRole at h
  obtain hnear | ⟨-, hany⟩ := Option.or_eq_some_iff.mp h
  · obtain ⟨name, hname, hnext⟩ := exists_of_findSome?_eq_some hnear
    exact ⟨hp.closed name (mem_filter.mp hname).1 next (mem_of_find?_eq_some hnext),
      by simpa using find?_some hnext⟩
  · exact ⟨mem_of_find?_eq_some hany, by simpa using find?_some hany⟩

/-- As long as roles remain there is a next one. -/
theorem exists_nextRole (hp : p.Coupled) (h : assignment.length < p.component.length) :
    ∃ next, p.nextRole assignment = some next := by
  by_contra hnone
  push Not at hnone
  have hnext := Option.eq_none_iff_forall_ne_some.mpr hnone
  unfold nextRole at hnext
  have hall := find?_eq_none.mp (Option.or_eq_none_iff.mp hnext).2
  have hsub : p.component ⊆ assignment.map (·.1) := fun name hname =>
    assigned_iff.mp (by simpa using hall name hname)
  have hle := (hp.nodup.subperm hsub).length_le
  rw [length_map] at hle
  omega

/-- The candidates are in range. -/
theorem range_of_mem_candidates {value : ℤ} (h : value ∈ p.candidates assignment next) :
    p.low.count next ≤ value ∧ value ≤ p.high.count next := by
  obtain ⟨hlow, hhigh⟩ := mem_of_mem_orderedCandidates h
  exact ⟨(foldl_max_le_iff.mp hlow).1, (le_foldl_min_iff.mp hhigh).1⟩

/-- **A vector that is looked at counts every role, in range.** -/
theorem leaf_spec (hp : p.Coupled) {remaining : ℕ} (hassignment : p.Partial assignment)
    (hrange : ∀ e ∈ assignment, p.low.count e.1 ≤ e.2 ∧ e.2 ≤ p.high.count e.1)
    (hlength : assignment.length + remaining = p.component.length) {leaf : ReplicaVector}
    (h : leaf ∈ p.leaves remaining assignment) :
    p.Partial leaf ∧ leaf.length = p.component.length ∧
      ∀ e ∈ leaf, p.low.count e.1 ≤ e.2 ∧ e.2 ≤ p.high.count e.1 := by
  induction remaining generalizing assignment with
  | zero =>
    obtain rfl := mem_singleton.mp h
    exact ⟨hassignment, hlength, hrange⟩
  | succ remaining ih =>
    rw [leaves] at h
    split at h
    · exact nomatch h
    · rename_i next hnext
      obtain ⟨hmem, hnew⟩ := nextRole_spec hp hnext
      obtain ⟨value, hvalue, h⟩ := mem_flatMap.mp h
      refine ih (hassignment.cons hmem hnew value)
        (forall_mem_cons.mpr ⟨range_of_mem_candidates hvalue, hrange⟩) ?_ h
      rw [length_cons]
      omega

/-- A count that is in range and in the band of every ratio is a candidate. -/
theorem mem_candidates
    (hwidth : ∀ name ∈ p.component, p.high.count name - p.low.count name < constraintSearchBudget)
    (hassignment : p.Partial assignment) {v : RoleName → ℤ} (hagree : ∀ e ∈ assignment, e.2 = v e.1)
    (hmet : ∀ r ∈ p.ratios, r.inside p.component = true → r.Met (v r.numeratorRole) (v
      r.denominatorRole)) (hnext : next ∈ p.component)
    (hv : p.low.count next ≤ v next ∧ v next ≤ p.high.count next) :
    v next ∈ p.candidates assignment next := by
  have hcounted : ∀ name n, assignment.lookup name = some n → name ∈ p.component ∧ n = v name := by
    intro name n hn
    have he := mem_of_lookup_eq_some hn
    exact ⟨hassignment.mem _ he, hagree _ he⟩
  have hlow : (p.lowers assignment next).foldl max (p.low.count next) ≤ v next := by
    refine foldl_max_le_iff.mpr ⟨hv.1, fun y hy => ?_⟩
    simp only [lowers, mem_flatMap, mem_append, mem_ite_nil_right, mem_map,
      Option.mem_toList] at hy
    obtain ⟨r, hr, ⟨rfl, den, hden, rfl⟩ | ⟨rfl, num, hnum, rfl⟩⟩ := hy
    · obtain ⟨hmem, rfl⟩ := hcounted _ _ hden
      exact (hmet r hr (decide_eq_true ⟨hnext, hmem⟩)).range.1
    · obtain ⟨hmem, rfl⟩ := hcounted _ _ hnum
      exact (hmet r hr (decide_eq_true ⟨hmem, hnext⟩)).range.2.2.1
  have hhigh : v next ≤ (p.uppers assignment next).foldl min (p.high.count next) := by
    refine le_foldl_min_iff.mpr ⟨hv.2, fun y hy => ?_⟩
    simp only [uppers, mem_flatMap, mem_append, mem_ite_nil_right,
      Option.mem_toList] at hy
    obtain ⟨r, hr, ⟨rfl, den, hden, hy⟩ | ⟨rfl, num, hnum, hy⟩⟩ := hy
    · obtain ⟨hmem, rfl⟩ := hcounted _ _ hden
      exact (hmet r hr (decide_eq_true ⟨hnext, hmem⟩)).range.2.1 y hy
    · obtain ⟨hmem, rfl⟩ := hcounted _ _ hnum
      exact (hmet r hr (decide_eq_true ⟨hmem, hnext⟩)).range.2.2.2 y hy
  refine mem_orderedCandidates ?_ hlow hhigh
  have hraised : p.low.count next ≤ (p.lowers assignment next).foldl max (p.low.count next) :=
    (foldl_max_le_iff.mp le_rfl).1
  have hlowered : (p.uppers assignment next).foldl min (p.high.count next) ≤ p.high.count next :=
    (le_foldl_min_iff.mp le_rfl).1
  exact lt_of_le_of_lt (sub_le_sub hlowered hraised) (hwidth next hnext)

/-- **A vector that meets the ratios is looked at.** -/
theorem leaf_of_met (hp : p.Coupled) (hwidth : ∀ name ∈ p.component,
      p.high.count name - p.low.count name < constraintSearchBudget) {v : RoleName → ℤ}
    (hv : ∀ name ∈ p.component, p.low.count name ≤ v name ∧ v name ≤ p.high.count name)
    (hmet : ∀ r ∈ p.ratios, r.inside p.component = true →
      r.Met (v r.numeratorRole) (v r.denominatorRole))
    {remaining : ℕ} (hassignment : p.Partial assignment) (hagree : ∀ e ∈ assignment, e.2 = v e.1)
    (hlength : assignment.length + remaining = p.component.length) :
    ∃ leaf ∈ p.leaves remaining assignment, ∀ e ∈ leaf, e.2 = v e.1 := by
  induction remaining generalizing assignment with
  | zero => exact ⟨assignment, mem_singleton_self _, hagree⟩
  | succ remaining ih =>
    obtain ⟨next, hnext⟩ := exists_nextRole hp (by omega : assignment.length < p.component.length)
    obtain ⟨hmem, hnew⟩ := nextRole_spec hp hnext
    have hcandidate := mem_candidates hwidth hassignment hagree hmet hmem (hv next hmem)
    obtain ⟨leaf, hleaf, hsame⟩ := ih (hassignment.cons hmem hnew (v next))
      (forall_mem_cons.mpr ⟨rfl, hagree⟩) (by rw [length_cons]; omega)
    refine ⟨leaf, ?_, hsame⟩
    rw [leaves, hnext]
    exact mem_flatMap.mpr ⟨v next, hcandidate, hleaf⟩

/-- A full vector has the count of each of its entries. -/
theorem Partial.count (h : p.Partial assignment) {e : RoleName × ℤ} (he : e ∈ assignment) :
    assignment.count e.1 = e.2 := by
  rw [ReplicaVector.count, lookup_eq_some h.nodup he, Option.getD_some]

/-- A full vector counts every role of the component. -/
theorem Partial.exists_mem (h : p.Partial assignment)
    (hlength : assignment.length = p.component.length) (hname : name ∈ p.component) :
    ∃ e ∈ assignment, e.1 = name := by
  have hsub : assignment.map (·.1) ⊆ p.component := by
    intro n hn
    obtain ⟨e, he, rfl⟩ := mem_map.mp hn
    exact h.mem e he
  have hperm := (h.nodup.subperm hsub).perm_of_length_le (by rw [length_map]; omega)
  exact mem_map.mp (hperm.mem_iff.mpr hname)

theorem Partial.count_of_notMem (h : p.Partial assignment) (hname : name ∉ p.component) :
    assignment.count name = 0 := by
  cases hlookup : assignment.lookup name with
  | none => simp [ReplicaVector.count, hlookup]
  | some n => exact absurd (h.mem _ (mem_of_lookup_eq_some hlookup)) hname

theorem anchor_mem {anchor : RoleName} (h : p.anchor = some anchor) : anchor ∈ p.component := by
  have hall : ∀ a, p.anchor = some a → a ∈ p.component := by
    unfold SearchProblem.anchor
    refine foldlRecOn (motive := fun first => ∀ a, first = some a → a ∈ p.component)
      p.component _ (fun a ha => nomatch ha) (fun first hfirst name hname => ?_)
    cases first with
    | none => simpa using hname
    | some a =>
      dsimp only
      split
      · simpa using hname
      · exact hfirst
  exact hall anchor h

theorem exists_anchor (h : p.component ≠ []) : ∃ anchor, p.anchor = some anchor := by
  obtain ⟨first, rest, hcomponent⟩ := exists_cons_of_ne_nil h
  rw [anchor, hcomponent, foldl_cons]
  dsimp only
  clear hcomponent
  induction rest generalizing first with
  | nil => exact ⟨first, rfl⟩
  | cons name rest ih =>
    rw [foldl_cons]
    dsimp only
    split
    · exact ih name
    · exact ih first

/-- Every vector that is looked at is full and in range. -/
theorem allLeaves_spec (hp : p.Coupled) {leaf : ReplicaVector} (h : leaf ∈ p.allLeaves) :
    p.Partial leaf ∧ leaf.length = p.component.length ∧
      ∀ e ∈ leaf, p.low.count e.1 ≤ e.2 ∧ e.2 ≤ p.high.count e.1 := by
  unfold allLeaves at h
  split at h
  · exact nomatch h
  · rename_i anchor hanchor
    have hmem := anchor_mem hanchor
    have hpos := length_pos_of_mem hmem
    obtain ⟨value, hvalue, h⟩ := mem_flatMap.mp h
    have hfirst : p.Partial [(anchor, value)] :=
      ⟨nodup_singleton _, fun e he => mem_singleton.mp he ▸ hmem⟩
    refine leaf_spec hp hfirst (fun e he => ?_) (by simp only [length_singleton]; omega) h
    obtain rfl := mem_singleton.mp he
    exact mem_of_mem_orderedCandidates hvalue

/-- A search has a range for every role. -/
theorem range_of_searchComponent (h : p.searchComponent = some v) :
    ∀ name ∈ p.component, p.low.count name ≤ p.high.count name := by
  unfold searchComponent at h
  split at h
  · cases h
  · rename_i hnone
    simpa using hnone

/-- **What the search finds is in range and meets every ratio.** -/
theorem searchComponent_sound (hp : p.Coupled) (h : p.searchComponent = some v) :
    (∀ name ∈ p.component, p.low.count name ≤ v.count name ∧ v.count name ≤ p.high.count name) ∧
      (∀ name ∉ p.component, v.count name = 0) ∧ ratiosSatisfied v.count p.ratios = true := by
  rw [searchComponent_eq (range_of_searchComponent h)] at h
  obtain ⟨best, hbest, rfl⟩ := Option.map_eq_some_iff.mp h
  refine best_foldl_look (P := fun v => (∀ name ∈ p.component,
    p.low.count name ≤ v.count name ∧ v.count name ≤ p.high.count name) ∧
      (∀ name ∉ p.component, v.count name = 0) ∧ ratiosSatisfied v.count p.ratios = true)
    (by simp) (fun leaf hleaf hmet => ?_) best hbest
  obtain ⟨hproper, hlength, hrange⟩ := allLeaves_spec hp hleaf
  refine ⟨fun name hname => ?_, fun name hname => hproper.count_of_notMem hname, hmet⟩
  obtain ⟨e, he, rfl⟩ := hproper.exists_mem hlength hname
  rw [hproper.count he]
  exact hrange e he

/-- **Within its budget the search finds a vector wherever there is one**, if every ratio is one of
the component's. -/
theorem searchComponent_complete (hp : p.Coupled) (hne : p.component ≠ [])
    (hbudget : p.WithinBudget) (hinside : ∀ r ∈ p.ratios, r.inside p.component = true)
    {v : RoleName → ℤ}
    (hv : ∀ name ∈ p.component, p.low.count name ≤ v name ∧ v name ≤ p.high.count name)
    (hmet : ∀ r ∈ p.ratios, r.Met (v r.numeratorRole) (v r.denominatorRole)) :
    p.searchComponent.isSome := by
  obtain ⟨anchor, hanchor⟩ := exists_anchor hne
  have hmem := anchor_mem hanchor
  have hpos := length_pos_of_mem hmem
  have hfirst : p.Partial [(anchor, v anchor)] :=
    ⟨nodup_singleton _, fun e he => mem_singleton.mp he ▸ hmem⟩
  obtain ⟨leaf, hleaf, hsame⟩ := leaf_of_met hp hbudget.2 hv (fun r hr _ => hmet r hr) hfirst
    (fun e he => mem_singleton.mp he ▸ rfl)
    (by simp only [length_singleton]; omega :
      [(anchor, v anchor)].length + (p.component.length - 1) = p.component.length)
  have hlooked : leaf ∈ p.allLeaves := by
    rw [allLeaves, hanchor]
    exact mem_flatMap.mpr ⟨v anchor,
      mem_orderedCandidates (hbudget.2 anchor hmem) (hv anchor hmem).1 (hv anchor hmem).2, hleaf⟩
  obtain ⟨hproper, hlength, -⟩ := allLeaves_spec hp hlooked
  have hcount : ∀ name ∈ p.component, leaf.count name = v name := by
    intro name hname
    obtain ⟨e, he, rfl⟩ := hproper.exists_mem hlength hname
    rw [hproper.count he, hsame e he]
  have hsatisfied : ratiosSatisfied leaf.count p.ratios = true := by
    refine all_eq_true.mpr fun r hr => ?_
    obtain ⟨hnum, hden⟩ := of_decide_eq_true (hinside r hr)
    rw [hcount _ hnum, hcount _ hden]
    exact (hmet r hr).satisfied
  rw [searchComponent_eq fun name hname => (hv name hname).1.trans (hv name hname).2,
    Option.isSome_map]
  exact isSome_foldl_look hbudget.1 (.inr ⟨leaf, hlooked, hsatisfied⟩)

end SearchProblem

end GpuStack
