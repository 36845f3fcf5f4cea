import GpuStack.Admission.Sound

/-!
# Admission/Promise — room promised to one Workload after another

The ledger does not hold the Pods of a Workload answered Ready a moment ago, so every judgment first
fits the demands of all the Workloads answered Ready before it, sorted.  `Judged` is such a sequence
of judgments.

As long as the inflight demands all fit again (`Refits`), what has been promised can be placed at
once.  But they are packed afresh every time, in sorted order and not in the order they were
promised in, and the greedy packing may fail on them; the demand that no longer fits then takes less
than it was promised, and its room is promised to the next Workload.
-/

namespace GpuStack

open List

variable {n : ℕ} {cards : Fin n → CardLedger}

/-! ## The room of a placement -/

theorem units_eq_zero_of_slices_eq_zero (i : Fin n) :
    ∀ {ds : List FamilyDemand} {gs : List (Grant n)},
      (totalLoad ds gs i).slices = 0 → (totalLoad ds gs i).units = 0
  | [], _, _ => rfl
  | _ :: _, [], _ => rfl
  | d :: ds, g :: gs, h => by
    rw [totalLoad, Load.slices_add, Nat.add_eq_zero_iff] at h
    rw [totalLoad, Load.units_add, units_eq_zero_of_slices_eq_zero i h.2, Nat.add_zero]
    cases g with
    | whole is => rfl
    | shares holders => rfl
    | slices is =>
      have hcount : is.count i = 0 := h.1
      simp only [Grant.load, hcount, Nat.mul_zero]

/-- The units a grant asks of all cards together. -/
theorem sum_units_load {κ : Type*} {host : Fin n → κ} {d : FamilyDemand} (hd : d.family = .sliced)
    {g : Grant n} (h : Serves cards host d g) :
    ∑ i, (g.load d i).units = d.unitsPerCard * d.cards := by
  obtain ⟨is, rfl⟩ := h.eq_slices hd
  simp only [Grant.load, ← Finset.mul_sum, sum_count_eq_length, h.2.1]

variable {ds : List FamilyDemand}

theorem sum_units_totalLoad {κ : Type*} {host : Fin n → κ}
    {gs : List (Grant n)} (hds : ∀ d ∈ ds, d.family = .sliced)
    (hserve : List.Forall₂ (Serves cards host) ds gs) :
    ∑ i, (totalLoad ds gs i).units = (ds.map fun d => d.unitsPerCard * d.cards).sum := by
  induction hserve with
  | nil =>
    rw [map_nil, sum_nil]
    exact Finset.sum_eq_zero fun i _ => rfl
  | @cons d g ds gs hg _ ih =>
    simp only [totalLoad, Load.units_add, Finset.sum_add_distrib, map_cons, sum_cons,
      ih fun e he => hds e (.tail _ he),
      sum_units_load (hds d (.head _)) hg]

/-- **Slices that can be placed at once ask for no more than the cards have together.** -/
theorem Placeable.sum_units_le {κ : Type*} {host : Fin n → κ}
    (h : Placeable cards host ds) (hds : ∀ d ∈ ds, d.family = .sliced) :
    (ds.map fun d => d.unitsPerCard * d.cards).sum ≤ ∑ i, (cards i).remaining.toNat := by
  obtain ⟨gs, hserve, hhold⟩ := h
  rw [← sum_units_totalLoad hds hserve]
  refine Finset.sum_le_sum fun i _ => ?_
  obtain hzero | ⟨hunits, -⟩ := (hhold i).slices
  · rw [units_eq_zero_of_slices_eq_zero i hzero]
    exact Nat.zero_le _
  · omega

/-! ## Judgments -/

/-- A Workload that asks only for slices, every one on an assigned node. -/
def AsksSlices (demands : List FamilyDemand) : Prop :=
  ∀ d ∈ demands, d.family = .sliced ∧ d.node ≠ ""

/-- The inflight demands of a judgment: those of the Workloads answered Ready before it, listed in
any order and sorted. -/
def InflightOf (accepted : List (List FamilyDemand)) (inflight : List FamilyDemand) : Prop :=
  ∃ listed, listed.Perm accepted.flatten ∧ inflight = sortDemands listed

/-- **Workloads judged one after another** on an unchanging pool, those answered Ready in order.
Every Workload answered Ready met inflight demands of which `C` holds. -/
inductive Judged (pool : List ScopedDevices) (C : List FamilyDemand → Prop) :
    List (List FamilyDemand) → Prop
  | start : Judged pool C []
  | ready {accepted : List (List FamilyDemand)} {inflight demands : List FamilyDemand} :
      Judged pool C accepted → AsksSlices demands → InflightOf accepted inflight → C inflight →
      (nodeDevicesFeasibility pool inflight demands).1 = .ready →
      Judged pool C (accepted ++ [demands])
  | retry {accepted : List (List FamilyDemand)} {inflight demands : List FamilyDemand} :
      Judged pool C accepted → AsksSlices demands → InflightOf accepted inflight →
      (nodeDevicesFeasibility pool inflight demands).1 = .retry → Judged pool C accepted

/-- Every inflight demand is given all its room again, in its turn. -/
def AllFit (cards : Fin n → CardLedger) : List FamilyDemand → Budgets n → Prop
  | [], _ => True
  | d :: ds, budgets => (fitDemand cards budgets d).2.1 = .ready ∧
      AllFit cards ds (fitDemand cards budgets d).1

instance decidableAllFit (cards : Fin n → CardLedger) :
    ∀ (ds : List FamilyDemand) (budgets : Budgets n), Decidable (AllFit cards ds budgets)
  | [], _ => .isTrue trivial
  | d :: ds, budgets =>
    have := decidableAllFit cards ds (fitDemand cards budgets d).1
    inferInstanceAs (Decidable (_ ∧ _))

/-- The inflight demands still fit on the pool when they are packed afresh. -/
def Refits (pool : List ScopedDevices) (inflight : List FamilyDemand) : Prop :=
  AllFit (collectCards pool).get inflight fun _ => {}

instance (pool : List ScopedDevices) (inflight : List FamilyDemand) :
    Decidable (Refits pool inflight) :=
  inferInstanceAs (Decidable (AllFit _ _ _))

/-- A fit behind inflight demands that all fit is a fit of both lists together. -/
theorem fitDemands_append {clause : String} :
    ∀ {inflight : List FamilyDemand} {budgets : Budgets n} {message message' : String},
      AllFit cards inflight budgets →
      (fitDemands cards clause ds (fitInflight cards inflight budgets) message).1 = .ready →
      (fitDemands cards clause (inflight ++ ds) budgets message').1 = .ready := by
  intro inflight
  induction inflight with
  | nil =>
    intro budgets message message' _ h
    cases ds with
    | nil => rfl
    | cons d ds => exact h
  | cons e es ih =>
    intro budgets message message' ⟨he, hes⟩ h
    have hfit : fitDemand cards budgets e =
        ((fitDemand cards budgets e).1, .ready, (fitDemand cards budgets e).2.2) := by
      rw [← he]
    rw [cons_append, fitDemands, hfit]
    exact ih hes h

theorem Refits.placeable_append {pool : List ScopedDevices} {inflight demands : List FamilyDemand}
    (hfits : Refits pool inflight) (hfam : ∀ d ∈ inflight ++ demands, d.family ≠ .partitioned)
    (h : (nodeDevicesFeasibility pool inflight demands).1 = .ready) :
    Placeable (collectCards pool).get (fun i => ((collectCards pool).get i).hostname)
      (inflight ++ demands) := by
  have hfit : ∃ clause message, (fitDemands (collectCards pool).get clause (inflight ++ demands)
      (fun _ => {}) message).1 = .ready := by
    rw [nodeDevicesFeasibility] at h
    split at h
    · rename_i hnil
      subst hnil
      have hnone : (fitDemands (collectCards pool).get "" []
        (fitInflight (collectCards pool).get inflight fun _ => {}) "").1 = .ready := rfl
      exact ⟨"", "", fitDemands_append hfits hnone⟩
    · exact ⟨_, "", fitDemands_append hfits h⟩
  obtain ⟨clause, message, hready⟩ := hfit
  obtain ⟨gs, hserve, hhold⟩ := fitDemands_sound separates_hostname hfam within_empty hready
  exact ⟨gs, hserve, fun i => Load.zero_add (totalLoad (inflight ++ demands) gs i) ▸ hhold i⟩

theorem Judged.asksSlices {pool : List ScopedDevices} {C : List FamilyDemand → Prop}
    {accepted : List (List FamilyDemand)} (h : Judged pool C accepted) :
    AsksSlices accepted.flatten := by
  induction h with
  | start => exact fun d hd => nomatch hd
  | ready _ hdemands _ _ _ ih =>
    intro d hd
    rw [flatten_append, flatten_singleton, mem_append] at hd
    exact hd.elim (ih d) (hdemands d)
  | retry _ _ _ _ ih => exact ih

/-- **What is promised can be placed**: when every Workload answered Ready met inflight demands that
still fitted, the slices of all of them can be placed at once. -/
theorem promised_slices_placeable {pool : List ScopedDevices}
    (accepted : List (List FamilyDemand)) (h : Judged pool (Refits pool) accepted) :
    Placeable (collectCards pool).get (fun i => ((collectCards pool).get i).hostname)
      accepted.flatten := by
  induction h with
  | start => exact ⟨[], .nil, fun i => ((collectCards pool).get i).holds_zero⟩
  | @ready accepted inflight demands hrun hdemands hof hfits hready ih =>
    obtain ⟨listed, hlisted, rfl⟩ := hof
    have hperm : (sortDemands listed ++ demands).Perm (accepted ++ [demands]).flatten := by
      rw [flatten_append, flatten_singleton]
      exact ((perm_sortDemands listed).trans hlisted).append_right demands
    have hsliced : ∀ d ∈ sortDemands listed ++ demands, d.family ≠ .partitioned := by
      intro d hd
      have hall := (hrun.ready hdemands ⟨listed, hlisted, rfl⟩ hfits hready).asksSlices
      rw [(hall d (hperm.mem_iff.mp hd)).1]
      decide
    exact (hfits.placeable_append hsliced hready).perm hperm
  | retry _ _ _ _ ih => exact ih

/-- A node of two free cards, each with ten slots. -/
def twoCards : List ScopedDevices :=
  [{ devices :=
      { spec := [{ id := "g", manufacturer := "nvidia", accelerators :=
          [{ id := "x", status := { logicalSliced := { count := 10 } } },
           { id := "y", status := { logicalSliced := { count := 10 } } }] }]
        status := ⟨[⟨"g", "nvidia",
          [{ id := "x", remaining := 1600000 }, { id := "y", remaining := 1600000 }]⟩]⟩ }
     scopes := [{ flavor := "f", acceleratorKey := "nvidia-g" }]
     hostname := "h" }]

/-- One slice of so many tenths of a card. -/
def tenths (k : ℕ) : FamilyDemand :=
  { family := .sliced, cards := 1, unitsPerCard := 160000 * k, flavor := "f", node := "h" }

theorem asksSlices_tenths (k : ℕ) : AsksSlices [tenths k] := by
  intro d hd
  obtain rfl := mem_singleton.mp hd
  exact ⟨rfl, (by decide : "h" ≠ "")⟩

theorem inflightOf_flatten (accepted : List (List FamilyDemand)) :
    InflightOf accepted (sortDemands accepted.flatten) := ⟨accepted.flatten, .refl _, rfl⟩

/-- One more slice answered Ready. -/
theorem Judged.tenths {C : List FamilyDemand → Prop} {accepted : List (List FamilyDemand)}
    (h : Judged twoCards C accepted) {k : ℕ} (hC : C (sortDemands accepted.flatten))
    (hready : (nodeDevicesFeasibility twoCards (sortDemands accepted.flatten)
      [GpuStack.tenths k]).1 = .ready) :
    Judged twoCards C (accepted ++ [[GpuStack.tenths k]]) :=
  h.ready (asksSlices_tenths k) (inflightOf_flatten accepted) hC hready

/-- Two halves and a whole card are promised and can be placed. -/
theorem promised_halves_placeable :
    Placeable (collectCards twoCards).get (fun i => ((collectCards twoCards).get i).hostname)
      [tenths 5, tenths 10, tenths 5] :=
  promised_slices_placeable [[tenths 5], [tenths 10], [tenths 5]]
    (((Judged.start.tenths (by decide +kernel) (by decide +kernel)).tenths (by decide +kernel)
      (by decide +kernel)).tenths (by decide +kernel) (by decide +kernel))

/-- **Twenty-one tenths of two cards are promised**: once 2, 5, 3, 3, 3 and 4 tenths have been
answered Ready, they are packed as 5, 4 and 3, 3, 3, the 2 no longer fits, and one more tenth is
answered Ready. -/
theorem promised_more_than_two_cards :
    Judged twoCards (fun _ => True) [[tenths 2], [tenths 5], [tenths 3], [tenths 3], [tenths 3],
      [tenths 4], [tenths 1]] ∧
    ¬ Placeable (collectCards twoCards).get (fun i => ((collectCards twoCards).get i).hostname)
      [tenths 2, tenths 5, tenths 3, tenths 3, tenths 3, tenths 4, tenths 1] := by
  refine ⟨?_, fun h => ?_⟩
  · have h₂ : Judged twoCards (fun _ => True) [[tenths 2], [tenths 5]] :=
      (Judged.start.tenths trivial (by decide +kernel)).tenths trivial (by decide +kernel)
    have h₄ : Judged twoCards (fun _ => True) [[tenths 2], [tenths 5], [tenths 3], [tenths 3]] :=
      (h₂.tenths trivial (by decide +kernel)).tenths trivial (by decide +kernel)
    have h₆ : Judged twoCards (fun _ => True)
        [[tenths 2], [tenths 5], [tenths 3], [tenths 3], [tenths 3], [tenths 4]] :=
      (h₄.tenths trivial (by decide +kernel)).tenths trivial (by decide +kernel)
    exact h₆.tenths trivial (by decide +kernel)
  · exact absurd (h.sum_units_le (by decide)) (by decide +kernel)

end GpuStack
