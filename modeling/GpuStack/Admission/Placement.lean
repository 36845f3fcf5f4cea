import GpuStack.Admission.Fit

/-!
# Admission/Placement — what it means that demands can be placed at once

The fit answers for a number; what stands behind it is a placement.  A **grant** names the cards one
demand is given: whole cards, for every shared holder its own distinct cards, or a card for every
slice.  A **joint placement** grants every demand of a list so that no card is asked for more than it
has (`CardLedger.Holds`): a whole card is untouched and given to nobody else, the shares of a card
are within its free shares, the slices on it are within its units and its slots, and no card serves
two families.

The host a shared holder must stay on is a parameter, so that the same notion can be read at the
hostname the fit groups by and at the node the card really is in.
-/

namespace GpuStack

variable {n : ℕ}

/-! ## Loads -/

/-- What is asked of one card. -/
@[ext] structure Load where
  wholes : ℕ := 0
  shares : ℕ := 0
  units : ℕ := 0
  slices : ℕ := 0
deriving DecidableEq, Repr

namespace Load

instance : Add Load :=
  ⟨fun a b => ⟨a.wholes + b.wholes, a.shares + b.shares, a.units + b.units, a.slices + b.slices⟩⟩

instance : Zero Load := ⟨{}⟩

instance : LE Load :=
  ⟨fun a b => a.wholes ≤ b.wholes ∧ a.shares ≤ b.shares ∧ a.units ≤ b.units ∧ a.slices ≤ b.slices⟩

@[simp] theorem wholes_add (a b : Load) : (a + b).wholes = a.wholes + b.wholes := rfl

@[simp] theorem shares_add (a b : Load) : (a + b).shares = a.shares + b.shares := rfl

@[simp] theorem units_add (a b : Load) : (a + b).units = a.units + b.units := rfl

@[simp] theorem slices_add (a b : Load) : (a + b).slices = a.slices + b.slices := rfl

@[simp] theorem wholes_zero : (0 : Load).wholes = 0 := rfl

@[simp] theorem shares_zero : (0 : Load).shares = 0 := rfl

@[simp] theorem units_zero : (0 : Load).units = 0 := rfl

@[simp] theorem slices_zero : (0 : Load).slices = 0 := rfl

theorem add_zero (a : Load) : a + 0 = a := rfl

theorem zero_add (a : Load) : 0 + a = a := by
  ext <;> simp

theorem add_assoc (a b c : Load) : a + b + c = a + (b + c) := by
  ext <;> simp [Nat.add_assoc]

theorem add_left_comm (a b c : Load) : a + (b + c) = b + (a + c) := by
  ext <;> simp [Nat.add_left_comm]

theorem le_refl (a : Load) : a ≤ a := ⟨Nat.le_refl _, Nat.le_refl _, Nat.le_refl _, Nat.le_refl _⟩

theorem add_le_add_right {a b : Load} (h : a ≤ b) (c : Load) : a + c ≤ b + c :=
  ⟨Nat.add_le_add_right h.1 _, Nat.add_le_add_right h.2.1 _, Nat.add_le_add_right h.2.2.1 _,
    Nat.add_le_add_right h.2.2.2 _⟩

end Load

/-- The card can take slices: it is sliceable, and free or already sliced. -/
def CardLedger.TakesSlices (c : CardLedger) : Prop :=
  c.servesFamily .sliced = true ∧ (c.mode = .none ∨ c.mode = .sliced)

instance (c : CardLedger) : Decidable c.TakesSlices := inferInstanceAs (Decidable (_ ∧ _))

/-- **The card holds the load.** -/
structure CardLedger.Holds (c : CardLedger) (l : Load) : Prop where
  /-- A whole card is untouched in the ledger and serves nothing else. -/
  whole : l.wholes = 0 ∨
    (l.wholes = 1 ∧ l.shares = 0 ∧ l.slices = 0 ∧ resourceMaxUnits ≤ c.remaining)
  /-- Shares are within the free shares, and no slice stands beside them. -/
  shares : l.shares = 0 ∨ ((l.shares : ℤ) ≤ c.freeShares ∧ l.slices = 0)
  /-- Slices are within the units and the slots. -/
  slices : l.slices = 0 ∨ ((l.units : ℤ) ≤ c.remaining ∧ (l.slices : ℤ) ≤ c.freeSlots)

instance (c : CardLedger) (l : Load) : Decidable (c.Holds l) :=
  decidable_of_iff (_ ∧ _ ∧ _) ⟨fun ⟨h₁, h₂, h₃⟩ => ⟨h₁, h₂, h₃⟩,
    fun ⟨h₁, h₂, h₃⟩ => ⟨h₁, h₂, h₃⟩⟩

theorem CardLedger.holds_zero (c : CardLedger) : c.Holds 0 := ⟨.inl rfl, .inl rfl, .inl rfl⟩

/-- Whoever holds a load holds less. -/
theorem CardLedger.Holds.mono {c : CardLedger} {l l' : Load} (h : c.Holds l) (hle : l' ≤ l) :
    c.Holds l' := by
  obtain ⟨hw, hs, hu, hk⟩ := hle
  obtain ⟨h1, h2, h3⟩ := h
  refine ⟨?_, ?_, ?_⟩
  · rcases h1 with h1 | ⟨h1, hs0, hk0, hrem⟩
    · exact .inl (by omega)
    · rcases Nat.eq_zero_or_pos l'.wholes with h0 | h0
      · exact .inl h0
      · exact .inr ⟨by omega, by omega, by omega, hrem⟩
  · rcases h2 with h2 | ⟨h2, hk0⟩
    · exact .inl (by omega)
    · exact .inr ⟨by omega, by omega⟩
  · rcases h3 with h3 | ⟨hu', hk'⟩
    · exact .inl (by omega)
    · exact .inr ⟨by omega, by omega⟩

/-! ## Grants -/

/-- The cards one demand is given. -/
inductive Grant (n : ℕ)
  | whole (cards : List (Fin n))
  | shares (holders : List (List (Fin n)))
  | slices (cards : List (Fin n))

/-- What a grant asks of a card. -/
def Grant.load (d : FamilyDemand) : Grant n → Fin n → Load
  | .whole cards, i => { wholes := cards.count i }
  | .shares holders, i => { shares := holders.flatten.count i }
  | .slices cards, i => { units := d.unitsPerCard * cards.count i, slices := cards.count i }

/-- The card counts of a shared demand's holders, one for each. -/
def FamilyDemand.holderCounts (d : FamilyDemand) : List ℕ :=
  d.sharedNeeds.flatMap fun need => List.replicate need.containers need.cards

/-- **The grant serves the demand**: as many cards as asked for, each covered by the demand and able
to serve its family, the cards of one holder distinct and of one host. -/
def Serves {κ : Type*} (cards : Fin n → CardLedger) (host : Fin n → κ) (d : FamilyDemand) :
    Grant n → Prop
  | .whole is => d.family = .exclusive ∧ is.length = d.cards ∧
      ∀ i ∈ is, (cards i).coveredBy d = true ∧ (cards i).servesFamily .exclusive = true
  | .shares holders => d.family = .shared ∧ holders.map List.length = d.holderCounts ∧
      ∀ h ∈ holders, h.Nodup ∧ (∀ i ∈ h, ∀ j ∈ h, host i = host j) ∧
        ∀ i ∈ h, (cards i).coveredBy d = true ∧ (cards i).servesFamily .shared = true
  | .slices is => d.family = .sliced ∧ is.length = d.cards ∧
      ∀ i ∈ is, (cards i).coveredBy d = true ∧ (cards i).TakesSlices

variable {cards : Fin n → CardLedger}

theorem Serves.eq_shares {κ : Type*} {host : Fin n → κ}
    {d : FamilyDemand} {g : Grant n} (h : Serves cards host d g) (hd : d.family = .shared) :
    ∃ holders, g = .shares holders := by
  cases g with
  | whole is => exact absurd (hd.symm.trans h.1) (by decide)
  | shares holders => exact ⟨holders, rfl⟩
  | slices is => exact absurd (hd.symm.trans h.1) (by decide)

theorem Serves.eq_slices {κ : Type*} {host : Fin n → κ}
    {d : FamilyDemand} {g : Grant n} (h : Serves cards host d g) (hd : d.family = .sliced) :
    ∃ is, g = .slices is := by
  cases g with
  | whole is => exact absurd (hd.symm.trans h.1) (by decide)
  | shares holders => exact absurd (hd.symm.trans h.1) (by decide)
  | slices is => exact ⟨is, rfl⟩

/-- Over all cards, a list counts to its length. -/
theorem sum_count_eq_length (is : List (Fin n)) : ∑ i, is.count i = is.length := by
  simpa using Multiset.sum_count_eq_card (s := Finset.univ) (m := (is : Multiset (Fin n)))
    fun i _ => Finset.mem_univ i

/-- What a list of grants asks of a card. -/
def totalLoad : List FamilyDemand → List (Grant n) → Fin n → Load
  | d :: ds, g :: gs, i => g.load d i + totalLoad ds gs i
  | _, _, _ => 0

/-- **The demands can be placed at once.** -/
def Placeable {κ : Type*} (cards : Fin n → CardLedger) (host : Fin n → κ)
    (ds : List FamilyDemand) : Prop :=
  ∃ gs : List (Grant n), List.Forall₂ (Serves cards host) ds gs ∧
    ∀ i, (cards i).Holds (totalLoad ds gs i)

/-- The order of the demands does not matter. -/
theorem Placeable.perm {κ : Type*} {host : Fin n → κ}
    {ds ds' : List FamilyDemand} (h : Placeable cards host ds) (hp : ds.Perm ds') :
    Placeable cards host ds' := by
  obtain ⟨gs, hserve, hhold⟩ := h
  suffices ∃ gs', List.Forall₂ (Serves cards host) ds' gs' ∧
      ∀ i, totalLoad ds' gs' i = totalLoad ds gs i by
    obtain ⟨gs', hserve', heq⟩ := this
    exact ⟨gs', hserve', fun i => heq i ▸ hhold i⟩
  clear hhold
  induction hp generalizing gs with
  | nil => exact ⟨gs, hserve, fun _ => rfl⟩
  | cons d _ ih =>
    obtain ⟨g, gs, hg, hgs, rfl⟩ := List.forall₂_cons_left_iff.mp hserve
    obtain ⟨gs', hgs', heq⟩ := ih gs hgs
    exact ⟨g :: gs', .cons hg hgs', fun i => by rw [totalLoad, totalLoad, heq i]⟩
  | swap d e ds =>
    obtain ⟨g, gs, hg, hgs, rfl⟩ := List.forall₂_cons_left_iff.mp hserve
    obtain ⟨g', gs, hg', hrest, rfl⟩ := List.forall₂_cons_left_iff.mp hgs
    exact ⟨g' :: g :: gs, .cons hg' (.cons hg hrest), fun i => Load.add_left_comm ..⟩
  | trans _ _ ih₁ ih₂ =>
    obtain ⟨gs₁, hgs₁, heq₁⟩ := ih₁ gs hserve
    obtain ⟨gs₂, hgs₂, heq₂⟩ := ih₂ gs₁ hgs₁
    exact ⟨gs₂, hgs₂, fun i => (heq₂ i).trans (heq₁ i)⟩

end GpuStack
