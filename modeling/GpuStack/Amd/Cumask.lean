import GpuStack.Device.Api
import GpuStack.Lib.Select

/-!
# Amd/Cumask — compute windows of an AMD card

A slice of an AMD card is a window of compute units.  `windowCUs` turns a percentage into a length, by one
arithmetic for CDNA and another for RDNA; both are `Shape`s, so many allocation units of so many compute
units, handed out in atoms (`exists_shape`), and are reasoned about as such.

`packWindow` places a window.  What it measures of the occupied windows is how many compute units they
cover (`coveredCUs_mergePlacements`), whatever their order and overlaps, and it takes the first start that
covers fewest (`packFrom_spec`).  `amd_windows` is the result for one window; windows placed one after
another fill the card from its start (`windows_laid_in_order`).
-/

namespace GpuStack.Amd

open List

/-! ### Lengths -/

/-- `Topology`, without the field no branch reads. -/
structure Topology where
  name : String
  cu : ℤ
  se : ℤ
  xcc : ℤ
deriving DecidableEq, Repr

/-- `mathx.CeilDiv` -/
def ceilDiv (a b : ℤ) : ℤ := if b = 0 then 0 else (a + b - 1).tdiv b

/-- `mathx.RoundDiv` -/
def roundDiv (a b : ℤ) : ℤ := if b = 0 then 0 else (a + b.tdiv 2).tdiv b

/-- The refusals, by what they name. -/
inductive CumaskError where
  | computeUnits
  | family
  | noXCC
  | shaderEngines
  | oddUnits
  | enginesExceedWGPs
  | quantum
  /-- `%d%% is not a percentage of a card` -/
  | percentage
  /-- Below one atom; `its smallest slice is %d%%`. -/
  | belowAtom (minPercent : ℤ)
deriving DecidableEq, Repr

namespace Topology

variable (t : Topology)

def named (family : String) : Bool := family.toList.isPrefixOf t.name.toList

/-- `family`: whether the arithmetic is CDNA's, if the name is known at all. -/
def family : Option Bool :=
  if t.named "gfx10" || t.named "gfx11" || t.named "gfx12" then some false
  else if t.named "gfx9" then some true
  else none

/-- `IsCDNAFamily` -/
def isCDNAFamily : Bool := t.family = some true

/-- The method `xcc`, which floors the count at one. -/
def xccs : ℤ := max t.xcc 1

/-- `Quantum` -/
def quantum : ℤ := if t.isCDNAFamily then t.xccs else 2 * t.se

/-- `MinPercent` -/
def minPercent : ℤ :=
  if t.isCDNAFamily then ceilDiv (100 * t.xccs - 50) t.cu
  else ceilDiv (100 * t.se - 50) (t.cu.tdiv 2)

/-- The last check of `Validate`, which both families come to. -/
def validateQuantum : Option CumaskError := if t.cu.tmod t.quantum ≠ 0 then some .quantum else none

/-- `Validate` -/
def validate : Option CumaskError :=
  if t.cu ≤ 0 then some .computeUnits
  else match t.family with
    | none => some .family
    | some true => if t.xcc ≤ 0 then some .noXCC else t.validateQuantum
    | some false =>
      if t.se ≤ 0 then some .shaderEngines
      else if t.cu.tmod 2 ≠ 0 then some .oddUnits
      else if t.cu.tdiv 2 < t.se then some .enginesExceedWGPs
      else t.validateQuantum

end Topology

/-- `WindowCUs` -/
def windowCUs (t : Topology) (pct : ℤ) : Except CumaskError ℤ :=
  match t.validate with
  | some err => .error err
  | none =>
    if pct ≤ 0 ∨ 100 < pct then .error .percentage
    else if t.isCDNAFamily then
      let x := t.xccs
      let n := (roundDiv (t.cu * pct) 100).tdiv x * x
      if n = 0 then .error (.belowAtom t.minPercent) else .ok (min n t.cu)
    else
      let wgps := t.cu.tdiv 2
      let n := (roundDiv (wgps * pct) 100).tdiv t.se * t.se
      if n = 0 then .error (.belowAtom t.minPercent) else .ok (2 * min n wgps)

/-- **A card as either arithmetic sees it**: allocation units of `scale` compute units, in atoms. -/
structure Shape where
  units : ℤ
  atom : ℤ
  scale : ℤ
  units_pos : 0 < units
  atom_pos : 0 < atom
  scale_pos : 0 < scale
  tiles : atom ∣ units

namespace Shape

variable (s : Shape)

/-- The allocation units of a percentage, rounded half up and down to whole atoms. -/
def alloc (pct : ℤ) : ℤ := (s.units * pct + 50) / 100 / s.atom * s.atom

theorem atom_dvd_alloc (pct : ℤ) : s.atom ∣ s.alloc pct := dvd_mul_left _ _

theorem alloc_mono {p q : ℤ} (h : p ≤ q) : s.alloc p ≤ s.alloc q := by
  have hround : (s.units * p + 50) / 100 ≤ (s.units * q + 50) / 100 :=
    Int.ediv_le_ediv (by norm_num)
      (by linarith [mul_le_mul_of_nonneg_left h s.units_pos.le])
  exact mul_le_mul_of_nonneg_right (Int.ediv_le_ediv s.atom_pos hround) s.atom_pos.le

theorem alloc_le {pct : ℤ} (h : pct ≤ 100) : s.alloc pct ≤ s.units := by
  have hfull : (s.units * 100 + 50) / 100 = s.units := by omega
  refine (s.alloc_mono h).trans ?_
  rw [alloc, hfull]
  exact Int.ediv_mul_le _ s.atom_pos.ne'

/-- Something is allocated from the smallest percentage on. -/
theorem alloc_pos_iff {pct : ℤ} :
    0 < s.alloc pct ↔ (100 * s.atom - 50 + s.units - 1) / s.units ≤ pct := by
  have hatom := s.atom_pos
  have hatoms : 0 < s.alloc pct ↔ s.atom ≤ (s.units * pct + 50) / 100 := by
    rw [alloc, mul_pos_iff_of_pos_right hatom, ← Int.add_one_le_iff, zero_add,
      Int.le_ediv_iff_mul_le hatom, one_mul]
  rw [hatoms, Int.le_ediv_iff_mul_le (by norm_num), ← Int.lt_add_one_iff (b := pct),
    Int.ediv_lt_iff_lt_mul s.units_pos, add_one_mul]
  constructor <;> intro h <;> linarith

/-- The smallest percentage is one. -/
theorem minPercent_pos : 0 < (100 * s.atom - 50 + s.units - 1) / s.units := by
  rw [← Int.add_one_le_iff, zero_add, Int.le_ediv_iff_mul_le s.units_pos]
  linarith [s.atom_pos]

end Shape

theorem roundDiv_hundred {a : ℤ} (h : 0 ≤ a) : roundDiv a 100 = (a + 50) / 100 := by
  rw [roundDiv, if_neg (by norm_num), show (100 : ℤ).tdiv 2 = 50 from rfl,
    Int.tdiv_eq_ediv_of_nonneg (by linarith)]

theorem ceilDiv_of_pos {a b : ℤ} (ha : 0 < a) (hb : 0 < b) : ceilDiv a b = (a + b - 1) / b := by
  rw [ceilDiv, if_neg hb.ne', Int.tdiv_eq_ediv_of_nonneg (by linarith)]

variable {t : Topology} {cu : ℤ}

/-- **An accepted card has a shape**, and its functions are that shape's. -/
theorem exists_shape (h : t.validate = none) :
    ∃ s : Shape, t.cu = s.scale * s.units ∧ t.quantum = s.scale * s.atom ∧
      t.minPercent = (100 * s.atom - 50 + s.units - 1) / s.units ∧
      ∀ pct, windowCUs t pct = if pct ≤ 0 ∨ 100 < pct then .error .percentage
        else if s.alloc pct = 0 then .error (.belowAtom t.minPercent)
        else .ok (s.scale * min (s.alloc pct) s.units) := by
  simp only [windowCUs, h]
  rw [Topology.validate] at h
  by_cases hcu : t.cu ≤ 0
  · simp [hcu] at h
  rw [if_neg hcu] at h
  -- of the three families, the unknown one is refused
  rcases hfamily : t.family with - | - | - <;> rw [hfamily] at h
  · cases h
  · have hrdna : t.isCDNAFamily = false := by simp [Topology.isCDNAFamily, hfamily]
    dsimp only at h
    rw [Topology.validateQuantum, Topology.quantum, hrdna, if_neg Bool.false_ne_true] at h
    split_ifs at h with hse hodd hwgp htile
    have hhalf : t.cu.tdiv 2 = t.cu / 2 := Int.tdiv_eq_ediv_of_nonneg (by omega)
    rw [not_not, ← Int.dvd_iff_tmod_eq_zero] at hodd htile
    have heven : t.cu = 2 * (t.cu / 2) := (Int.mul_ediv_cancel' hodd).symm
    rw [heven, Int.mul_dvd_mul_iff_left (by norm_num)] at htile
    refine ⟨⟨t.cu / 2, t.se, 2, by omega, by omega, two_pos, htile⟩, heven, ?_, ?_, ?_⟩
    · rw [Topology.quantum, hrdna, if_neg Bool.false_ne_true]
    · rw [Topology.minPercent, hrdna, if_neg Bool.false_ne_true, hhalf,
        ceilDiv_of_pos (by omega) (by omega)]
    · intro pct
      refine ite_congr rfl (fun _ => rfl) fun hpct => ?_
      have hprod : 0 ≤ t.cu / 2 * pct := mul_nonneg (by omega) (by omega)
      simp only [hrdna, Bool.false_eq_true, if_false, hhalf, roundDiv_hundred hprod, Shape.alloc,
        Int.tdiv_eq_ediv_of_nonneg (show 0 ≤ (t.cu / 2 * pct + 50) / 100 by omega)]
      rfl
  · have hcdna : t.isCDNAFamily = true := by simp [Topology.isCDNAFamily, hfamily]
    dsimp only at h
    rw [Topology.validateQuantum, Topology.quantum, hcdna, if_pos rfl] at h
    split_ifs at h with hxcc htile
    have hx : t.xccs = t.xcc := max_eq_left (by omega)
    rw [hx, not_not, ← Int.dvd_iff_tmod_eq_zero] at htile
    refine ⟨⟨t.cu, t.xcc, 1, by omega, by omega, one_pos, htile⟩, (one_mul _).symm, ?_, ?_, ?_⟩
    · rw [Topology.quantum, hcdna, if_pos rfl, hx, one_mul]
    · rw [Topology.minPercent, hcdna, if_pos rfl, hx, ceilDiv_of_pos (by omega) (by omega)]
    · intro pct
      refine ite_congr rfl (fun _ => rfl) fun hpct => ?_
      have hprod : 0 ≤ t.cu * pct := mul_nonneg (by omega) (by omega)
      simp only [hcdna, if_true, hx, roundDiv_hundred hprod, Shape.alloc, one_mul,
        Int.tdiv_eq_ediv_of_nonneg (show 0 ≤ (t.cu * pct + 50) / 100 by omega)]

/-! ### Places -/

/-- The conversion `int32(x)`. -/
def int32 (x : ℤ) : ℤ := Int.bmod x (2 ^ 32)

theorem int32_of_fits {x : ℤ} (hx : 0 ≤ x) (hfits : x < 2 ^ 31) : int32 x = x := by
  rw [int32, Int.bmod_eq_of_le] <;> norm_num <;> omega

/-- The first loop of `mergePlacements`, which clamps to the card. -/
def clampPlacements (placements : List AcceleratorPlacement) (cu : ℤ) : List AcceleratorPlacement :=
  placements.filterMap fun p =>
    let start := max p.start 0
    let stop := min (p.start + p.length) cu
    if stop ≤ start then none else some ⟨int32 start, int32 (stop - start)⟩

/-- The merging loop, on intervals in the order of their starts. -/
def mergeFrom (last : AcceleratorPlacement) : List AcceleratorPlacement → List AcceleratorPlacement
  | [] => [last]
  | p :: ps =>
    if p.start ≤ int32 (last.start + last.length) then
      mergeFrom ⟨last.start, max last.length (int32 (p.start + p.length - last.start))⟩ ps
    else last :: mergeFrom p ps

/-- `mergePlacements` -/
def mergePlacements (placements : List AcceleratorPlacement) (cu : ℤ) : List AcceleratorPlacement :=
  match (clampPlacements placements cu).insertionSort fun p q => p.start ≤ q.start with
  | [] => []
  | p :: ps => mergeFrom p ps

/-- `coveredCUs` -/
def coveredCUs (merged : List AcceleratorPlacement) (start stop : ℤ) : ℤ :=
  (merged.map fun p => max (min (p.start + p.length) stop - max p.start start) 0).sum

/-- The loop of `PackWindow`, over the starts it tries. -/
def packFrom (overlap : ℤ → ℤ) : List ℤ → ℤ × ℤ → ℤ
  | [], (best, _) => best
  | start :: starts, (best, bestOverlap) =>
    if overlap start = 0 then start
    else packFrom overlap starts
      (if bestOverlap < 0 ∨ overlap start < bestOverlap then (start, overlap start)
        else (best, bestOverlap))

/-- `for start := 0; start+length <= t.CU; start += q` -/
def quantisedStarts (q length cu : ℤ) : List ℤ :=
  ((List.range (cu.toNat + 1)).map fun k : ℕ => q * k).filter fun start => start + length ≤ cu

/-- `PackWindow` -/
def packWindow (t : Topology) (length : ℤ) (occupied : List AcceleratorPlacement) :
    AcceleratorPlacement :=
  if length ≤ 0 ∨ t.cu ≤ 0 then ⟨0, 0⟩
  else
    let q := if t.quantum ≤ 0 then 1 else t.quantum
    let length := min length t.cu
    let covered := mergePlacements occupied t.cu
    ⟨int32 (packFrom (fun start => coveredCUs covered start (start + length))
      (quantisedStarts q length t.cu) (0, -1)), int32 length⟩

/-- Some placement has the compute unit. -/
def Covers (ps : List AcceleratorPlacement) (x : ℤ) : Prop :=
  ∃ p ∈ ps, p.start ≤ x ∧ x < p.start + p.length

instance (ps : List AcceleratorPlacement) : DecidablePred (Covers ps) := fun _ =>
  inferInstanceAs (Decidable (∃ p ∈ ps, _))

/-- The compute units that some placement has, of those from `start` up to `stop`. -/
noncomputable def covered (ps : List AcceleratorPlacement) (start stop : ℤ) : Finset ℤ :=
  (Finset.Ico start stop).filter (Covers ps)

theorem covers_cons {p : AcceleratorPlacement} {ps : List AcceleratorPlacement} {x : ℤ} :
    Covers (p :: ps) x ↔ (p.start ≤ x ∧ x < p.start + p.length) ∨ Covers ps x := by
  simp only [Covers, exists_mem_cons_iff]

theorem card_covered_singleton (p : AcceleratorPlacement) (start stop : ℤ) :
    ((covered [p] start stop).card : ℤ) =
      max (min (p.start + p.length) stop - max p.start start) 0 := by
  have hico : covered [p] start stop =
      Finset.Ico (max p.start start) (min (p.start + p.length) stop) := by
    ext x
    simp only [covered, Covers, mem_singleton, exists_eq_left, Finset.mem_filter, Finset.mem_Ico]
    omega
  rw [hico, Int.card_Ico]
  omega

/-- A placement no sum of `int32`s overflows on. -/
structure Fits (p : AcceleratorPlacement) : Prop where
  start : 0 ≤ p.start
  length : 0 < p.length
  stop : p.start + p.length < 2 ^ 31

/-- Merging counts every covered unit once. -/
theorem coveredCUs_mergeFrom {ps : List AcceleratorPlacement} (last : AcceleratorPlacement)
    (hsorted : (last :: ps).Pairwise fun p q => p.start ≤ q.start) (hfits : ∀ p ∈ last :: ps, Fits p)
    (start stop : ℤ) :
    coveredCUs (mergeFrom last ps) start stop = (covered (last :: ps) start stop).card := by
  induction ps generalizing last with
  | nil => simp [mergeFrom, coveredCUs, card_covered_singleton]
  | cons p ps ih =>
    obtain ⟨hlast, hafter⟩ := pairwise_cons.mp hsorted
    obtain ⟨⟨hl0, hlpos, hlstop⟩, hrest⟩ := forall_mem_cons.mp hfits
    obtain ⟨hp0, hppos, hpstop⟩ := hrest p mem_cons_self
    have hp := hlast p mem_cons_self
    rw [mergeFrom, int32_of_fits (by omega) (by omega)]
    split_ifs with hmeets
    · -- the two runs meet, and together are one
      rw [int32_of_fits (by omega) (by omega), ih]
      · refine congrArg (fun s : Finset ℤ => (s.card : ℤ)) (Finset.filter_congr fun x _ => ?_)
        rw [covers_cons, covers_cons, covers_cons, ← or_assoc]
        refine or_congr_left ?_
        dsimp only
        omega
      · exact pairwise_cons.mpr ⟨fun q hq => hlast q (.tail _ hq),
          (pairwise_cons.mp hafter).2⟩
      · exact forall_mem_cons.mpr ⟨⟨hl0, lt_max_of_lt_left hlpos, by dsimp only; omega⟩,
          (forall_mem_cons.mp hrest).2⟩
    · -- all that follows begins after the run ends
      have hsplit : covered (last :: p :: ps) start stop =
          covered [last] start stop ∪ covered (p :: ps) start stop := by
        rw [covered, covered, covered, ← Finset.filter_or]
        refine Finset.filter_congr fun x _ => ?_
        simp [Covers]
      have hdisjoint : Disjoint (covered [last] start stop) (covered (p :: ps) start stop) := by
        refine Finset.disjoint_filter.mpr fun x _ hx => ?_
        rintro ⟨q, hq, hqx⟩
        have hqp : p.start ≤ q.start := by
          rcases mem_cons.mp hq with rfl | hq
          · exact le_rfl
          · exact (pairwise_cons.mp hafter).1 q hq
        simp only [Covers, mem_singleton, exists_eq_left] at hx
        omega
      rw [hsplit, Finset.card_union_of_disjoint hdisjoint, Nat.cast_add, ← ih p hafter hrest,
        card_covered_singleton, coveredCUs, coveredCUs, map_cons, sum_cons]

theorem mem_clampPlacements {placements : List AcceleratorPlacement} (hcu : cu < 2 ^ 31)
    {q : AcceleratorPlacement} : q ∈ clampPlacements placements cu ↔ ∃ p ∈ placements,
      max p.start 0 = q.start ∧ min (p.start + p.length) cu = q.start + q.length ∧ 0 < q.length := by
  rw [clampPlacements, mem_filterMap]
  refine exists_congr fun p => and_congr_right fun _ => ?_
  dsimp only
  split_ifs with hempty
  · simp only [false_iff]
    omega
  · rw [int32_of_fits (by omega) (by omega), int32_of_fits (by omega) (by omega), Option.some.injEq]
    constructor
    · rintro rfl
      dsimp only
      omega
    · rintro ⟨hstart, hstop, -⟩
      rw [hstart, hstop, add_sub_cancel_left]

/-- **What is measured is how many units the occupied windows cover.** -/
theorem coveredCUs_mergePlacements (occupied : List AcceleratorPlacement) {start stop : ℤ}
    (hcu : cu < 2 ^ 31) (hstart : 0 ≤ start) (hstop : stop ≤ cu) :
    coveredCUs (mergePlacements occupied cu) start stop = (covered occupied start stop).card := by
  have hclamp : covered (clampPlacements occupied cu) start stop = covered occupied start stop := by
    refine Finset.filter_congr fun x hx => ?_
    rw [Finset.mem_Ico] at hx
    constructor
    · rintro ⟨q, hq, hqx⟩
      obtain ⟨p, hp, hqstart, hqstop, -⟩ := (mem_clampPlacements hcu).mp hq
      exact ⟨p, hp, by omega, by omega⟩
    · rintro ⟨p, hp, hpx⟩
      refine ⟨⟨max p.start 0, min (p.start + p.length) cu - max p.start 0⟩,
        (mem_clampPlacements hcu).mpr ⟨p, hp, rfl, ?_, ?_⟩, ?_⟩ <;> dsimp only <;> omega
  have hperm := perm_insertionSort (fun p q => p.start ≤ q.start) (clampPlacements occupied cu)
  have hsorted := Select.pairwise_sort (r := fun p q => p.start ≤ q.start) (fun _ _ => Iff.rfl)
    (clampPlacements occupied cu)
  rw [← hclamp, mergePlacements]
  split
  next hnil =>
    rw [hnil, nil_perm] at hperm
    rw [hperm, covered, Finset.filter_false_of_mem fun x _ => by simp [Covers]]
    rfl
  next p ps hcons =>
    rw [hcons] at hperm hsorted
    rw [coveredCUs_mergeFrom p hsorted]
    · refine congrArg (fun s : Finset ℤ => (s.card : ℤ)) (Finset.filter_congr fun x _ => ?_)
      simp only [Covers, hperm.mem_iff]
    · intro q hq
      obtain ⟨p', -, hqstart, hqstop, hpos⟩ := (mem_clampPlacements hcu).mp (hperm.mem_iff.mp hq)
      exact ⟨by omega, hpos, by omega⟩

/-- The lowest of the elements where a function is least. -/
def FirstLeast (f : ℤ → ℤ) (l : List ℤ) (s : ℤ) : Prop :=
  s ∈ l ∧ ∀ s' ∈ l, f s ≤ f s' ∧ (f s' = f s → s ≤ s')

/-- The loop finds the lowest start with the least overlap, of those it has `seen` and has left. -/
theorem packFrom_spec {f : ℤ → ℤ} (hf : ∀ s, 0 ≤ f s) {l seen : List ℤ} {best b : ℤ}
    (hsorted : (seen ++ l).Pairwise (· < ·)) (hne : seen ++ l ≠ [])
    (hbest : (seen = [] ∧ b = -1) ∨ (FirstLeast f seen best ∧ b = f best ∧ 0 < b)) :
    FirstLeast f (seen ++ l) (packFrom f l (best, b)) := by
  induction l generalizing seen best b with
  | nil =>
    rw [append_nil] at hne ⊢
    exact (hbest.resolve_left fun h => hne h.1).1
  | cons s l ih =>
    obtain ⟨-, hl, hlater⟩ := pairwise_append.mp hsorted
    rw [packFrom]
    split_ifs with hzero hbetter
    · refine ⟨by simp, fun s' hs' => ⟨hzero ▸ hf s', fun heq => ?_⟩⟩
      rcases mem_append.mp hs' with hseen | hs'
      · obtain ⟨rfl, -⟩ | ⟨hleast, rfl, hb⟩ := hbest
        · cases hseen
        · have := (hleast.2 s' hseen).1
          omega
      · rcases mem_cons.mp hs' with rfl | hs'
        · exact le_rfl
        · exact ((pairwise_cons.mp hl).1 s' hs').le
    all_goals
      rw [append_cons]
      refine ih (by simpa using hsorted) (by simp) (.inr ?_)
    · refine ⟨⟨by simp, fun s' hs' => ?_⟩, rfl, (hf s).lt_of_ne' hzero⟩
      rcases mem_append.mp hs' with hs' | hs'
      · obtain ⟨rfl, -⟩ | ⟨hleast, rfl, hb⟩ := hbest
        · cases hs'
        · have := (hleast.2 s' hs').1
          omega
      · rw [mem_singleton.mp hs']
        exact ⟨le_rfl, fun _ => le_rfl⟩
    · push Not at hbetter
      obtain ⟨rfl, rfl⟩ | ⟨hleast, rfl, hb⟩ := hbest
      · exact absurd hbetter.1 (by norm_num)
      · refine ⟨⟨by simp [hleast.1], fun s' hs' => ?_⟩, rfl, hb⟩
        rcases mem_append.mp hs' with hs' | hs'
        · exact hleast.2 s' hs'
        · rw [mem_singleton.mp hs']
          exact ⟨hbetter.2, fun _ => (hlater best hleast.1 s mem_cons_self).le⟩

theorem mem_quantisedStarts {q length s : ℤ} (hq : 0 < q) (hlength : 0 < length) :
    s ∈ quantisedStarts q length cu ↔ q ∣ s ∧ 0 ≤ s ∧ s + length ≤ cu := by
  simp only [quantisedStarts, mem_filter, mem_map, mem_range, decide_eq_true_iff]
  constructor
  · rintro ⟨⟨k, -, rfl⟩, hle⟩
    exact ⟨dvd_mul_right .., by positivity, hle⟩
  · rintro ⟨⟨k, rfl⟩, hs, hle⟩
    have hk : 0 ≤ k := nonneg_of_mul_nonneg_right hs hq
    have hkle : k ≤ q * k := le_mul_of_one_le_left hk hq
    exact ⟨⟨k.toNat, by omega, by rw [Int.toNat_of_nonneg hk]⟩, hle⟩

theorem pairwise_quantisedStarts {q length : ℤ} (hq : 0 < q) :
    (quantisedStarts q length cu).Pairwise (· < ·) := by
  refine List.Pairwise.filter _ (pairwise_map.mpr (pairwise_lt_range.imp ?_))
  intro a b hab
  exact mul_lt_mul_of_pos_left (by exact_mod_cast hab) hq

/-- A start on a boundary, with the window inside the card. -/
def Aligned (t : Topology) (n s : ℤ) : Prop := t.quantum ∣ s ∧ 0 ≤ s ∧ s + n ≤ t.cu

/-- How many covered units a window shares. -/
noncomputable def overlap (occupied : List AcceleratorPlacement) (n s : ℤ) : ℕ :=
  (covered occupied s (s + n)).card

/-- The place of a window: no aligned start overlaps less, and none as little lies lower. -/
def Packed (t : Topology) (n : ℤ) (occupied : List AcceleratorPlacement) (s : ℤ) : Prop :=
  Aligned t n s ∧ ∀ s', Aligned t n s' → overlap occupied n s ≤ overlap occupied n s' ∧
    (overlap occupied n s' = overlap occupied n s → s ≤ s')

/-- There is at most one such place, whatever lists cover the same units. -/
theorem Packed.unique {n s s' : ℤ} {occupied occupied' : List AcceleratorPlacement}
    (hs : Packed t n occupied s) (hs' : Packed t n occupied' s')
    (hsame : ∀ x, 0 ≤ x → x < t.cu → (Covers occupied x ↔ Covers occupied' x)) : s = s' := by
  have heq : ∀ r, Aligned t n r → overlap occupied n r = overlap occupied' n r := fun r hr => by
    refine congrArg Finset.card (Finset.filter_congr fun x hx => ?_)
    rw [Finset.mem_Ico] at hx
    obtain ⟨-, hr0, hrn⟩ := hr
    exact hsame x (by omega) (by omega)
  have h := hs.2 s' hs'.1
  have h' := hs'.2 s hs.1
  rw [← heq s hs.1, ← heq s' hs'.1] at h'
  have hle := le_antisymm h.1 h'.1
  exact le_antisymm (h.2 hle.symm) (h'.2 hle)

theorem packWindow_packed (hcu : t.cu < 2 ^ 31) (hq : 0 < t.quantum) {n : ℤ}
    (hpos : 0 < n) (hle : n ≤ t.cu) (occupied : List AcceleratorPlacement) :
    ∃ s, packWindow t n occupied = ⟨s, n⟩ ∧ Packed t n occupied s := by
  have hmem : ∀ s', s' ∈ quantisedStarts t.quantum n t.cu ↔ Aligned t n s' := fun s' =>
    mem_quantisedStarts hq hpos
  have hnonneg : ∀ s', 0 ≤ coveredCUs (mergePlacements occupied t.cu) s' (s' + n) := fun s' =>
    sum_nonneg (by simp)
  obtain ⟨hin, hleast⟩ := @packFrom_spec _ hnonneg (quantisedStarts t.quantum n t.cu) [] 0 (-1)
    (pairwise_quantisedStarts hq) (ne_nil_of_mem ((hmem 0).mpr ⟨dvd_zero _, le_rfl, by omega⟩))
    (.inl ⟨rfl, rfl⟩)
  rw [nil_append] at hin hleast
  have haligned := (hmem _).mp hin
  refine ⟨_, ?_, haligned, fun s' hs' => ?_⟩
  · obtain ⟨-, hs0, hsn⟩ := haligned
    rw [packWindow, if_neg (by omega), if_neg (by omega), min_eq_left hle]
    exact congrArg₂ _ (int32_of_fits hs0 (by omega)) (int32_of_fits hpos.le (by omega))
  · have h := hleast s' ((hmem s').mpr hs')
    beta_reduce at h
    rw [coveredCUs_mergePlacements occupied hcu haligned.2.1 haligned.2.2,
      coveredCUs_mergePlacements occupied hcu hs'.2.1 hs'.2.2] at h
    exact_mod_cast h

/-- What a percentage gives, for those that give anything. -/
theorem windowCUs_eq_ok (h : t.validate = none) :
    ∃ s : Shape, t.cu = s.scale * s.units ∧ t.quantum = s.scale * s.atom ∧
      (∀ pct, t.minPercent ≤ pct ↔ 0 < s.alloc pct) ∧
      ∀ pct n, windowCUs t pct = .ok n ↔
        (0 < s.alloc pct ∧ pct ≤ 100) ∧ n = s.scale * s.alloc pct := by
  obtain ⟨s, hcu, hquantum, hmin, hwindow⟩ := exists_shape h
  refine ⟨s, hcu, hquantum, fun pct => hmin ▸ s.alloc_pos_iff.symm, fun pct n => ?_⟩
  rw [hwindow]
  split_ifs with hpct hzero
  · simp only [false_iff]
    rintro ⟨⟨hpos, hle⟩, -⟩
    have hone := s.minPercent_pos.trans_le (s.alloc_pos_iff.mp hpos)
    omega
  · simp [hzero]
  · push Not at hpct
    have hprod : 0 ≤ s.units * pct := mul_nonneg s.units_pos.le hpct.1.le
    have hnonneg : 0 ≤ s.alloc pct :=
      mul_nonneg (Int.ediv_nonneg (by omega) s.atom_pos.le) s.atom_pos.le
    rw [Except.ok.injEq, min_eq_left (s.alloc_le hpct.2), eq_comm, iff_and_self]
    exact fun _ => ⟨hnonneg.lt_of_ne' hzero, hpct.2⟩

/-- **Windows are well formed, and packed apart whenever possible**, on every card whose compute units an
`int32` can count. -/
theorem amd_windows (t : Topology) (h : t.validate = none) (hcu : t.cu < 2 ^ 31) :
    (∀ pct, (∃ n, windowCUs t pct = .ok n) ↔ t.minPercent ≤ pct ∧ pct ≤ 100) ∧
    (∀ pct n, windowCUs t pct = .ok n → 0 < n ∧ t.quantum ∣ n ∧ n ≤ t.cu) ∧
    (∀ p p' n n', p ≤ p' → windowCUs t p = .ok n → windowCUs t p' = .ok n' → n ≤ n') ∧
    ∀ pct n, windowCUs t pct = .ok n → ∀ occupied,
      (∃ s, packWindow t n occupied = ⟨s, n⟩ ∧ Packed t n occupied s ∧
        ((∃ s', Aligned t n s' ∧ overlap occupied n s' = 0) → overlap occupied n s = 0)) ∧
      ∀ occupied', (∀ x, 0 ≤ x → x < t.cu → (Covers occupied x ↔ Covers occupied' x)) →
        packWindow t n occupied = packWindow t n occupied' := by
  obtain ⟨s, hunits, hquantum, hmin, hok⟩ := windowCUs_eq_ok h
  have hscale := s.scale_pos
  have hform : ∀ pct n, windowCUs t pct = .ok n → 0 < n ∧ t.quantum ∣ n ∧ n ≤ t.cu := by
    intro pct n hn
    obtain ⟨⟨hpos, hhigh⟩, rfl⟩ := (hok pct n).mp hn
    rw [hquantum, hunits]
    exact ⟨mul_pos hscale hpos, mul_dvd_mul_left _ (s.atom_dvd_alloc pct),
      mul_le_mul_of_nonneg_left (s.alloc_le hhigh) hscale.le⟩
  refine ⟨fun pct => ?_, hform, fun p p' n n' hp hn hn' => ?_, fun pct n hn occupied => ?_⟩
  · rw [hmin]
    exact ⟨fun ⟨n, hn⟩ => ((hok pct n).mp hn).1, fun hp => ⟨_, (hok pct _).mpr ⟨hp, rfl⟩⟩⟩
  · rw [((hok p n).mp hn).2, ((hok p' n').mp hn').2]
    exact mul_le_mul_of_nonneg_left (s.alloc_mono hp) hscale.le
  · obtain ⟨hpos, -, hle⟩ := hform pct n hn
    have hq : 0 < t.quantum := hquantum ▸ mul_pos hscale s.atom_pos
    have hpacked := packWindow_packed hcu hq hpos hle
    obtain ⟨s₀, hs₀, hplace⟩ := hpacked occupied
    refine ⟨⟨s₀, hs₀, hplace, fun ⟨s', hs', hfree⟩ => ?_⟩, fun occupied' hsame => ?_⟩
    · exact Nat.le_zero.mp (hfree ▸ (hplace.2 s' hs').1)
    · obtain ⟨s₁, hs₁, hplace'⟩ := hpacked occupied'
      rw [hs₀, hs₁, hplace.unique hplace' hsame]

theorem amd_windows_mi300x :
    let t : Topology := ⟨"gfx942", 304, 32, 8⟩
    windowCUs t 25 = .ok 72 ∧ ∃ s, packWindow t 72 [⟨0, 72⟩, ⟨40, 60⟩] = ⟨s, 72⟩ ∧
      Packed t 72 [⟨0, 72⟩, ⟨40, 60⟩] s := by
  have hok : windowCUs ⟨"gfx942", 304, 32, 8⟩ 25 = .ok 72 := by decide +kernel
  obtain ⟨s, hs, hpacked, -⟩ :=
    ((amd_windows _ (by decide +kernel) (by decide)).2.2.2 25 72 hok [⟨0, 72⟩, ⟨40, 60⟩]).1
  exact ⟨hok, s, hs, hpacked⟩

/-- A card of more units than that is accepted, and its whole window has a negative length. -/
theorem int32_wraps :
    let t : Topology := ⟨"gfx90a", 2 ^ 31, 1, 1⟩
    t.validate = none ∧ windowCUs t 100 = .ok (2 ^ 31) ∧ (packWindow t (2 ^ 31) []).length = -2 ^ 31 := by
  refine ⟨by decide +kernel, by decide +kernel, ?_⟩
  simp only [packWindow]
  decide +kernel

/-! ## Container after container -/

/-- `PlaceLogicalSliced` on a card that was free, the last window first. -/
inductive Placed (t : Topology) : List AcceleratorPlacement → Prop
  | free : Placed t []
  | place {pct n : ℤ} {ws : List AcceleratorPlacement} (hws : Placed t ws)
      (hn : windowCUs t pct = .ok n) : Placed t (packWindow t n ws :: ws)

/-- The compute units of all windows together. -/
def total (ws : List AcceleratorPlacement) : ℤ := (ws.map (·.length)).sum

/-- Beside windows that fill the card from its start, a window is packed right after them. -/
theorem Packed.eq_total {ws : List AcceleratorPlacement} {n s : ℤ} (h : Packed t n ws s) (hpos : 0 < n)
    (haligned : Aligned t n (total ws)) (hfill : ∀ x, Covers ws x ↔ 0 ≤ x ∧ x < total ws) :
    s = total ws := by
  have hfree : overlap ws n (total ws) = 0 :=
    Finset.card_eq_zero.mpr (Finset.filter_eq_empty_iff.mpr fun x hx hcovers =>
      (Finset.mem_Ico.mp hx).1.not_gt ((hfill x).mp hcovers).2)
  obtain ⟨hle, hlow⟩ := h.2 _ haligned
  rw [hfree, Nat.le_zero] at hle
  refine (hlow (hfree.trans hle.symm)).antisymm (not_lt.mp fun hlt => ?_)
  have hfirst : s ∈ covered ws s (s + n) := by simp [covered, hfill, hlt, hpos, h.1.2.1]
  simp [Finset.card_eq_zero.mp hle] at hfirst

/-- **Windows that fit on the card together are laid out one after another**, and share no unit. -/
theorem windows_laid_in_order (h : t.validate = none) (hcu : t.cu < 2 ^ 31)
    {ws : List AcceleratorPlacement} (hplaced : Placed t ws) (hfits : total ws ≤ t.cu) :
    (∀ x, Covers ws x ↔ 0 ≤ x ∧ x < total ws) ∧
      ws.Pairwise fun later earlier => earlier.start + earlier.length ≤ later.start := by
  obtain ⟨shape, hunits, hquantum, -, hok⟩ := windowCUs_eq_ok h
  have hscale := shape.scale_pos
  have hq : 0 < t.quantum := hquantum ▸ mul_pos hscale shape.atom_pos
  -- the windows fill a multiple of the quantum, from the start of the card
  suffices t.quantum ∣ total ws ∧ 0 ≤ total ws ∧ (∀ w ∈ ws, w.start + w.length ≤ total ws) ∧ _ from
    this.2.2.2
  induction hplaced with
  | free => exact ⟨dvd_zero _, le_rfl, by simp, by simp [Covers, total], .nil⟩
  | @place pct n ws _ hn ih =>
    obtain ⟨⟨hpos, hhigh⟩, hlength⟩ := (hok pct n).mp hn
    have hdvd : t.quantum ∣ n := hlength ▸ hquantum ▸ mul_dvd_mul_left _ (shape.atom_dvd_alloc pct)
    have hpos : 0 < n := hlength ▸ mul_pos hscale hpos
    have hle : n ≤ t.cu := by
      rw [hlength, hunits]
      exact mul_le_mul_of_nonneg_left (shape.alloc_le hhigh) hscale.le
    obtain ⟨s, hs, hpacked⟩ := packWindow_packed hcu hq hpos hle ws
    have htotal : total (⟨s, n⟩ :: ws) = n + total ws := sum_cons
    rw [hs] at hfits ⊢
    rw [htotal] at hfits ⊢
    obtain ⟨hmul, hnonneg, hend, hfill, hpair⟩ := ih (by omega)
    obtain rfl := hpacked.eq_total hpos ⟨hmul, hnonneg, by omega⟩ hfill
    refine ⟨dvd_add hdvd hmul, by omega, forall_mem_cons.mpr ⟨(Int.add_comm ..).le, fun w hw => ?_⟩,
      fun x => ?_, pairwise_cons.mpr ⟨hend, hpair⟩⟩
    · exact (hend w hw).trans (by omega)
    · rw [covers_cons, hfill]
      dsimp only
      omega

theorem mi300x_laid_in_order : let t : Topology := ⟨"gfx942", 304, 32, 8⟩
    let first := packWindow t 72 []
    first.start + first.length ≤ (packWindow t 72 [first]).start := by
  have hok : windowCUs ⟨"gfx942", 304, 32, 8⟩ 25 = .ok 72 := by decide +kernel
  exact (pairwise_cons.mp (windows_laid_in_order (by decide +kernel) (by decide)
    ((Placed.free.place hok).place hok) (by decide +kernel)).2).1 _ (.head _)

end GpuStack.Amd
