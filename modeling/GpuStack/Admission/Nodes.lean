import GpuStack.Admission.Sound

/-!
# Admission/Nodes — the hostname of a card and the node it is in

The shared fit puts the cards of one holder on one hostname.  A node whose Node object is gone, or
carries no hostname label, has the empty hostname, and two such nodes look like one.  The fit is
sound for nodes exactly when that never matters: no two nodes of one hostname both have a free share
on cards of one flavor (`Separates` at `nodeOf`).

For the converse, two such cards give demands that are answered Ready and cannot be placed.  The
shares of every other host are first taken by demands that name the host (`eater`), and then one
holder asks for all the cards of the ambiguous hostname (`straddler`).
-/

namespace GpuStack

open List

variable {n : ℕ} {cards : Fin n → CardLedger}

/-! ## The node of a card -/

/-- The position in the pool of the node each card comes from. -/
def cardNodes (pool : List ScopedDevices) : List ℕ :=
  pool.zipIdx.flatMap fun p => (nodeCards p.1).map fun _ => p.2

theorem length_cardNodes (pool : List ScopedDevices) :
    (cardNodes pool).length = (collectCards pool).length := by
  suffices ∀ k, ((pool.zipIdx k).flatMap fun p => (nodeCards p.1).map fun _ => p.2).length
      = (pool.flatMap nodeCards).length from this 0
  induction pool with
  | nil => exact fun _ => rfl
  | cons sd pool ih =>
    intro k
    rw [zipIdx_cons, flatMap_cons, flatMap_cons, length_append,
      length_append, length_map, ih (k + 1)]

/-- The node a card is in. -/
def nodeOf (pool : List ScopedDevices) (i : Fin (collectCards pool).length) : ℕ :=
  (cardNodes pool).get (i.cast (length_cardNodes pool).symm)

/-! ## Demands that use up a host -/

/-- A shared demand for holders of the given needs. -/
def sharesOf (flavor node : String) (needs : List SharedNeed) : FamilyDemand :=
  { family := .shared
    cards := (needs.map fun need => need.cards * need.containers).sum
    flavor := flavor
    node := node
    sharedNeeds := needs }

/-- The cards of a host with a free share under a flavor. -/
def hostCards (cards : Fin n → CardLedger) (flavor host : String) : List (Fin n) :=
  (List.finRange n).filter fun i =>
    0 < (cards i).freeShares && (flavor ∈ (cards i).flavors) && (cards i).hostname = host

/-- The free shares of those cards together. -/
def hostShares (cards : Fin n → CardLedger) (flavor host : String) : ℕ :=
  ∑ i, if i ∈ hostCards cards flavor host then (cards i).freeShares.toNat else 0

/-- One holder for every free share of a host. -/
def eater (cards : Fin n → CardLedger) (flavor host : String) : FamilyDemand :=
  sharesOf flavor host [⟨1, hostShares cards flavor host⟩]

/-- One holder that needs every card of a host. -/
def straddler (cards : Fin n → CardLedger) (flavor host : String) : FamilyDemand :=
  sharesOf flavor host [⟨(hostCards cards flavor host).length, 1⟩]

variable {flavor host : String} {i : Fin n} {d : FamilyDemand} {budgets : Budgets n}

theorem coveredBy_sharesOf {c : CardLedger} {node : String} {needs : List SharedNeed} :
    c.coveredBy (sharesOf flavor node needs) = true ↔
      flavor ∈ c.flavors ∧ (node = "" ∨ c.hostname = node) := by
  simp only [CardLedger.coveredBy, Bool.and_eq_true, Bool.or_eq_true, decide_eq_true_eq]
  exact Iff.rfl

theorem mem_hostCards :
    i ∈ hostCards cards flavor host ↔
      0 < (cards i).freeShares ∧ flavor ∈ (cards i).flavors ∧ (cards i).hostname = host := by
  simp [hostCards, and_assoc]

/-- On an untouched card all shares are free. -/
theorem freeSharesOf_of_untouched (hb : budgets i = {}) (hcov : (cards i).coveredBy d = true) :
    freeSharesOf cards budgets d i = (cards i).freeShares := by
  simp [freeSharesOf, hb, hcov]

theorem freeSharesOf_of_not_coveredBy (hcov : (cards i).coveredBy d = false) :
    freeSharesOf cards budgets d i = 0 := by
  simp [freeSharesOf, hcov]

/-! ## The fit answers Ready -/

theorem mem_hostsWithShares :
    host ∈ hostsWithShares cards budgets d ↔
      ∃ i, 0 < freeSharesOf cards budgets d i ∧ (cards i).hostname = host := by
  simp [hostsWithShares]

/-- The chosen host has at least as many cards as any other. -/
theorem length_sharesOnHost_le (cards : Fin n → CardLedger) (budgets : Budgets n) (d : FamilyDemand) (host : String) :
    (sharesOnHost cards budgets d host).length ≤ (chosenCards cards budgets d).length := by
  -- the longest list seen is kept to the end of the walk over the hosts
  have hfold : ∀ (hosts : List String) (chosen : List (Fin n)),
      chosen.length ≤ (hosts.foldl (widerHost cards budgets d) chosen).length ∧
      ∀ host ∈ hosts, (sharesOnHost cards budgets d host).length
        ≤ (hosts.foldl (widerHost cards budgets d) chosen).length := by
    intro hosts
    induction hosts with
    | nil => exact fun chosen => ⟨le_rfl, fun host h => nomatch h⟩
    | cons first hosts ih =>
      intro chosen
      have hwider : chosen.length ≤ (widerHost cards budgets d chosen first).length ∧
          (sharesOnHost cards budgets d first).length
            ≤ (widerHost cards budgets d chosen first).length := by
        rw [widerHost]
        split <;> omega
      obtain ⟨hkept, hrest⟩ := ih (widerHost cards budgets d chosen first)
      refine ⟨hwider.1.trans hkept, fun host hhost => ?_⟩
      obtain rfl | hhost := mem_cons.mp hhost
      · exact hwider.2.trans hkept
      · exact hrest host hhost
  rcases hnil : sharesOnHost cards budgets d host with _ | ⟨i, is⟩
  · exact Nat.zero_le _
  · have hi : i ∈ sharesOnHost cards budgets d host := hnil ▸ .head _
    rw [← hnil]
    refine (hfold _ []).2 host (mem_hostsWithShares.mpr ⟨i, ?_⟩)
    simpa using (mem_filter.mp hi).2

theorem chosenCards_ne_nil (h : 0 < freeSharesOf cards budgets d i) :
    chosenCards cards budgets d ≠ [] := by
  have hi : i ∈ sharesOnHost cards budgets d (cards i).hostname := by
    simp [sharesOnHost, h]
  have hpos := length_pos_of_mem hi
  have hle := length_sharesOnHost_le cards budgets d (cards i).hostname
  exact ne_nil_of_length_pos (by omega)

/-- Giving one share costs one free share. -/
theorem freeSharesOf_le_giveShare (h : 0 < freeSharesOf cards budgets d i) (j : Fin n) :
    freeSharesOf cards budgets d j
      = freeSharesOf cards (giveShares budgets [i]) d j + if j = i then 1 else 0 := by
  obtain ⟨hwhole, hslices, hcov, -, -⟩ := of_freeSharesOf_pos h
  rcases eq_or_ne j i with rfl | hne
  · simp [freeSharesOf, giveShares, hwhole, hslices, hcov]
    omega
  · simp [freeSharesOf, giveShares, hne]

/-- As many one-card holders as there are free shares are placed, and only cards the demand covers
are touched. -/
theorem placeHolders_one :
    ∀ {k : ℕ} {budgets : Budgets n}, k ≤ ∑ i, (freeSharesOf cards budgets d i).toNat →
      ∃ budgets', placeHolders cards d 1 k budgets = (budgets', .ready) ∧
        ∀ i, (cards i).coveredBy d = false → budgets' i = budgets i
  | 0, budgets, _ => ⟨budgets, rfl, fun _ _ => rfl⟩
  | k + 1, budgets, hk => by
    obtain ⟨i, -, hi⟩ : ∃ i ∈ Finset.univ, 0 < (freeSharesOf cards budgets d i).toNat := by
      refine Finset.exists_lt_of_sum_lt ?_
      rw [Finset.sum_const_zero]
      omega
    have hne := chosenCards_ne_nil (show 0 < freeSharesOf cards budgets d i by omega)
    have hsort := perm_insertionSort (fun a b =>
      freeSharesOf cards budgets d b ≤ freeSharesOf cards budgets d a) (chosenCards cards budgets d)
    obtain ⟨c, rest, hc⟩ := exists_cons_of_length_pos
      (hsort.length_eq.symm ▸ length_pos_of_ne_nil hne)
    -- the holder is given the first card of the chosen host
    have hplace : placeHolder cards d 1 budgets = some (giveShares budgets [c]) := by
      rw [placeHolder, if_neg (not_lt.mpr (length_pos_of_ne_nil hne)), hc]
      rfl
    have hfree : 0 < freeSharesOf cards budgets d c :=
      (holderCards_chosenCards cards budgets d).free c
        (hsort.mem_iff.mp (hc ▸ .head _))
    have hsum : ∑ j, (freeSharesOf cards budgets d j).toNat
        ≤ ∑ j, (freeSharesOf cards (giveShares budgets [c]) d j).toNat + 1 := by
      have hone : ∑ j : Fin n, (if j = c then 1 else 0) = 1 := by simp
      rw [← hone, ← Finset.sum_add_distrib]
      refine Finset.sum_le_sum fun j _ => ?_
      have := freeSharesOf_le_giveShare hfree j
      split_ifs at this ⊢ <;> omega
    obtain ⟨budgets', hrun, hkeep⟩ := placeHolders_one
      (show k ≤ ∑ j, (freeSharesOf cards (giveShares budgets [c]) d j).toNat by omega)
    refine ⟨budgets', by rw [placeHolders, hplace]; exact hrun, fun j hj => ?_⟩
    have hjc : j ≠ c := fun h => by
      rw [h, (of_freeSharesOf_pos hfree).2.2.1] at hj
      exact absurd hj (by decide)
    rw [hkeep j hj, giveShares, foldl_cons, foldl_nil, Function.update_of_ne hjc]

/-- Every free share of an untouched host is taken, and no other host is touched. -/
theorem fitDemand_eater (flavor : String) (hhost : host ≠ "")
    (hb : ∀ i, (cards i).hostname = host → budgets i = {}) :
    ∃ budgets' message, fitDemand cards budgets (eater cards flavor host)
        = (budgets', .ready, message) ∧
      ∀ i, (cards i).hostname ≠ host → budgets' i = budgets i := by
  have hshares : hostShares cards flavor host
      ≤ ∑ i, (freeSharesOf cards budgets (eater cards flavor host) i).toNat := by
    refine Finset.sum_le_sum fun i _ => ?_
    split
    · rename_i hi
      obtain ⟨-, hf, hi⟩ := mem_hostCards.mp hi
      have hcov : (cards i).coveredBy (eater cards flavor host) = true :=
        coveredBy_sharesOf.mpr ⟨hf, .inr hi⟩
      rw [freeSharesOf_of_untouched (hb i hi) hcov]
    · exact Nat.zero_le _
  obtain ⟨budgets', hplace, hkeep⟩ := placeHolders_one hshares
  refine ⟨budgets', demandVerdictMessage .ready (eater cards flavor host), ?_, fun i hi => ?_⟩
  · have hneeds : placeNeeds cards (eater cards flavor host)
        (eater cards flavor host).sharedNeeds budgets = (budgets', .ready) := by
      change placeNeeds cards (eater cards flavor host) [⟨1, hostShares cards flavor host⟩] budgets
        = (budgets', .ready)
      rw [placeNeeds, hplace]
      rfl
    change fitSharedDemand cards budgets (eater cards flavor host) = _
    rw [fitSharedDemand, hneeds]
  · refine hkeep i (Bool.eq_false_iff.mpr fun hcov => hi ?_)
    exact (coveredBy_sharesOf.mp hcov).2.resolve_left hhost

/-- On an untouched host one holder of all its cards is placed. -/
theorem fitDemand_straddler (flavor : String) (hb : ∀ i, (cards i).hostname = host → budgets i = {}) :
    (fitDemand cards budgets (straddler cards flavor host)).2.1 = .ready := by
  have hcards : hostCards cards flavor host
      = sharesOnHost cards budgets (straddler cards flavor host) host := by
    refine filter_congr fun i _ => ?_
    by_cases hi : (cards i).hostname = host
    · rcases hcov : (cards i).coveredBy (straddler cards flavor host) with _ | _
      · have hf : flavor ∉ (cards i).flavors := fun hf =>
          Bool.eq_false_iff.mp hcov (coveredBy_sharesOf.mpr ⟨hf, .inr hi⟩)
        simp [freeSharesOf_of_not_coveredBy hcov, hf]
      · simp [freeSharesOf_of_untouched (hb i hi) hcov, (coveredBy_sharesOf.mp hcov).1]
    · simp [hi]
  have hlen := length_sharesOnHost_le cards budgets (straddler cards flavor host) host
  rw [← hcards, ← not_lt] at hlen
  change (fitSharedDemand cards budgets (straddler cards flavor host)).2.1 = .ready
  have hneeds : (placeNeeds cards (straddler cards flavor host)
      [⟨(hostCards cards flavor host).length, 1⟩] budgets).2 = .ready := by
    rw [placeNeeds, placeHolders, placeHolder, if_neg hlen]
    rfl
  exact hneeds

/-- The hosts of the cards that a demand can name, apart from one. -/
def otherHosts (cards : Fin n → CardLedger) (host : String) : List String :=
  (((List.finRange n).map fun i => (cards i).hostname).dedup).filter fun h => h ≠ "" && h ≠ host

/-- The straddler behind the eaters of the other hosts. -/
def straddlerDemands (cards : Fin n → CardLedger) (flavor host : String) : List FamilyDemand :=
  (otherHosts cards host).map (eater cards flavor) ++ [straddler cards flavor host]

theorem fitDemands_straddler (flavor host : String) :
    (fitDemands cards "" (straddlerDemands cards flavor host) (fun _ => {})
      (verdictMessage .ready [])).1 = .ready := by
  have hmem : ∀ h ∈ otherHosts cards host, h ≠ "" ∧ h ≠ host := fun h hh => by
    simpa using (mem_filter.mp hh).2
  have hnodup : (otherHosts cards host).Nodup := (nodup_dedup _).filter _
  -- the hosts still to be used up and the ambiguous one are untouched
  suffices ∀ (hosts : List String) (budgets : Budgets n) (message : String), hosts.Nodup →
      (∀ h ∈ hosts, h ≠ "" ∧ h ≠ host) →
      (∀ i, (cards i).hostname = host ∨ (cards i).hostname ∈ hosts → budgets i = {}) →
      (fitDemands cards "" (hosts.map (eater cards flavor) ++ [straddler cards flavor host])
        budgets message).1 = .ready from
    this _ _ _ hnodup hmem fun _ _ => rfl
  intro hosts
  induction hosts with
  | nil =>
    intro budgets message _ _ hb
    have hready := fitDemand_straddler flavor fun i hi => hb i (.inl hi)
    rcases hfit : fitDemand cards budgets (straddler cards flavor host) with ⟨b, _ | _, m⟩
    · rw [map_nil, nil_append, fitDemands, hfit]
      rfl
    · rw [hfit] at hready
      cases hready
  | cons h hosts ih =>
    intro budgets message hnd hne hb
    obtain ⟨hh, hnd⟩ := nodup_cons.mp hnd
    obtain ⟨budgets', m, hfit, hkeep⟩ := fitDemand_eater flavor (hne h (.head _)).1
      fun i hi => hb i (.inr (hi ▸ .head _))
    rw [map_cons, cons_append, fitDemands, hfit]
    refine ih budgets' m hnd (fun g hg => hne g (.tail _ hg)) fun i hi => ?_
    rw [hkeep i fun heq => ?_]
    · exact hb i (hi.imp_right (mem_cons_of_mem _))
    · rcases hi with hi | hi
      · exact (hne h (.head _)).2 (heq.symm.trans hi)
      · exact hh (heq ▸ hi)

/-! ## No placement stands behind it -/

theorem CardLedger.Holds.shares_le {c : CardLedger} {l : Load} (h : c.Holds l) :
    l.shares ≤ c.freeShares.toNat := by
  obtain hzero | ⟨hle, -⟩ := h.shares <;> omega

/-- Every demand of a placement has a grant within the whole load. -/
theorem exists_load_le {κ : Type*} {host : Fin n → κ} {ds : List FamilyDemand} {gs : List (Grant n)}
    (hserve : List.Forall₂ (Serves cards host) ds gs) (hd : d ∈ ds) :
    ∃ g, Serves cards host d g ∧ ∀ i, (g.load d i).shares ≤ (totalLoad ds gs i).shares := by
  induction hserve with
  | nil => exact nomatch hd
  | @cons e g ds gs hg _ ih =>
    obtain rfl | hd := mem_cons.mp hd
    · exact ⟨g, hg, fun i => Nat.le_add_right _ _⟩
    · obtain ⟨g', hg', hle⟩ := ih hd
      exact ⟨g', hg', fun i => (hle i).trans (Nat.le_add_left _ _)⟩

/-- A grant within the free shares that serves the eater of a host leaves none of them. -/
theorem shares_eq_of_serves_eater {κ : Type*} {host : Fin n → κ} {name : String} (hname : name ≠ "")
    {g : Grant n} (hg : Serves cards host (eater cards flavor name) g)
    (hle : ∀ i, (g.load (eater cards flavor name) i).shares ≤ (cards i).freeShares.toNat)
    (hi : i ∈ hostCards cards flavor name) :
    (g.load (eater cards flavor name) i).shares = (cards i).freeShares.toNat := by
  obtain ⟨holders, rfl⟩ := hg.eq_shares rfl
  obtain ⟨-, hlens, hholders⟩ := hg
  have hbound : ∀ j ∈ Finset.univ, holders.flatten.count j
      ≤ if j ∈ hostCards cards flavor name then (cards j).freeShares.toNat else 0 := by
    intro j _
    have hj : holders.flatten.count j ≤ (cards j).freeShares.toNat := hle j
    split
    · exact hj
    · rename_i hnot
      rw [Nat.le_zero, count_eq_zero]
      intro hmem
      obtain ⟨h, hh, hjh⟩ := mem_flatten.mp hmem
      obtain ⟨hf, hhost⟩ := coveredBy_sharesOf.mp ((hholders h hh).2.2 j hjh).1
      have hpos := count_pos_iff.mpr hmem
      exact hnot (mem_hostCards.mpr ⟨by omega, hf, hhost.resolve_left hname⟩)
  have htotal : ∑ j, holders.flatten.count j = hostShares cards flavor name := by
    rw [sum_count_eq_length, length_flatten, hlens]
    simp [FamilyDemand.holderCounts, eater, sharesOf]
  have heq := (Finset.sum_eq_sum_iff_of_le hbound).mp htotal i (Finset.mem_univ i)
  rwa [if_pos hi] at heq

/-- **A holder of every card of a hostname needs two nodes.** -/
theorem not_placeable_straddlerDemands {κ : Type*} {host : Fin n → κ} {name : String} {j : Fin n}
    (hi : i ∈ hostCards cards flavor name) (hj : j ∈ hostCards cards flavor name)
    (hne : host i ≠ host j) : ¬ Placeable cards host (straddlerDemands cards flavor name) := by
  intro hplace
  have hcomm : (straddlerDemands cards flavor name).Perm
      (straddler cards flavor name :: (otherHosts cards name).map (eater cards flavor)) :=
    perm_append_comm
  obtain ⟨gs, hserve, hhold⟩ := hplace.perm hcomm
  obtain ⟨g, gs, hg, hgs, rfl⟩ := forall₂_cons_left_iff.mp hserve
  obtain ⟨holders, rfl⟩ := hg.eq_shares rfl
  obtain ⟨-, hlens, hholders⟩ := hg
  obtain ⟨held, rest, rfl, hlen, hrest⟩ := map_eq_cons_iff.mp hlens
  obtain rfl : rest = [] := map_eq_nil_iff.mp hrest
  obtain ⟨hnodup, hhost, hcards⟩ := hholders held (.head _)
  have htotal : ∀ c, held.count c + (totalLoad ((otherHosts cards name).map (eater cards flavor))
      gs c).shares ≤ (cards c).freeShares.toNat := fun c => by
    have := (hhold c).shares_le
    simpa [totalLoad, Grant.load] using this
  -- the shares of every other host are used up, so the holder stays on the hostname
  have hsub : ∀ c ∈ held, c ∈ hostCards cards flavor name := by
    intro c hc
    have hone := count_pos_iff.mpr hc
    have hle := htotal c
    obtain ⟨hf, hcov⟩ := coveredBy_sharesOf.mp (hcards c hc).1
    by_contra hnot
    have hc' : (cards c).hostname ≠ name := fun h =>
      hnot (mem_hostCards.mpr ⟨by omega, hf, h⟩)
    have hname : (cards c).hostname ≠ "" := (hcov.resolve_right hc') ▸ hc'
    have hother : (cards c).hostname ∈ otherHosts cards name := by
      simp [otherHosts, hname, hc']
    obtain ⟨g', hg', hle'⟩ := exists_load_le hgs (mem_map_of_mem hother)
    have hfull := shares_eq_of_serves_eater hname hg'
      (fun k => (hle' k).trans ((Nat.le_add_left _ _).trans (htotal k)))
      (mem_hostCards.mpr ⟨by omega, hf, rfl⟩)
    have := hle' c
    omega
  have hperm : held.Perm (hostCards cards flavor name) :=
    (hnodup.subperm hsub).perm_of_length_le (by rw [hlen])
  exact hne (hhost i (hperm.mem_iff.mpr hi) j (hperm.mem_iff.mpr hj))

/-! ## Soundness for nodes -/

theorem not_separates_iff {κ : Type*} {host : Fin n → κ} :
    ¬ Separates cards host ↔ ∃ flavor name i j, i ∈ hostCards cards flavor name ∧
      j ∈ hostCards cards flavor name ∧ host i ≠ host j := by
  simp only [Separates, mem_hostCards]
  constructor
  · intro h
    push Not at h
    obtain ⟨i, j, hhost, hi, hj, f, hfi, hfj, hne⟩ := h
    exact ⟨f, (cards i).hostname, i, j, ⟨hi, hfi, rfl⟩, ⟨hj, hfj, hhost.symm⟩, hne⟩
  · rintro ⟨f, name, i, j, ⟨hi, hfi, rfl⟩, ⟨hj, hfj, hhost⟩, hne⟩ h
    exact hne (h i j hhost.symm hi hj f hfi hfj)

/-- **Every Ready is backed by a placement on nodes exactly when** no two nodes of one hostname both
have a free share under one flavor. -/
theorem ready_placeable_iff_separates (pool : List ScopedDevices) :
    (∀ demands : List FamilyDemand, (∀ d ∈ demands, d.family ≠ .partitioned) →
      (nodeDevicesFeasibility pool [] demands).1 = .ready →
      Placeable (collectCards pool).get (nodeOf pool) demands) ↔
    Separates (collectCards pool).get (nodeOf pool) := by
  refine ⟨fun h => ?_, fun hsep demands hfam => placeable_of_ready hsep hfam⟩
  by_contra hsep
  obtain ⟨flavor, name, i, j, hi, hj, hne⟩ := not_separates_iff.mp hsep
  refine not_placeable_straddlerDemands hi hj hne (h _ (fun d hd => ?_) ?_)
  · have hshared : d.family = .shared := by
      rcases mem_append.mp hd with hd | hd
      · obtain ⟨_, _, rfl⟩ := mem_map.mp hd
        rfl
      · rw [mem_singleton.mp hd]
        rfl
    rw [hshared]
    decide
  · have hdemands : straddlerDemands (collectCards pool).get flavor name ≠ [] :=
      append_ne_nil_of_right_ne_nil _ (cons_ne_nil _ _)
    rw [nodeDevicesFeasibility, if_neg hdemands]
    exact fitDemands_straddler flavor name

/-- Two nodes whose Node objects are gone, with one free card each. -/
def goneNodes : List ScopedDevices :=
  ["x", "y"].map fun id =>
    { devices :=
        { spec := [{ id := "g", manufacturer := "nvidia", accelerators := [{ id := id }] }]
          status := ⟨[⟨"g", "nvidia", [{ id := id, remaining := 1600000 }]⟩]⟩ }
      scopes := [{ flavor := "f", acceleratorKey := "nvidia-g" }]
      hostname := "" }

/-- **Two cards on one node are promised where every node has one.** -/
theorem ready_without_two_cards_on_a_node :
    (nodeDevicesFeasibility goneNodes [] [sharesOf "f" "" [⟨2, 1⟩]]).1 = .ready ∧
    ¬ Placeable (collectCards goneNodes).get (nodeOf goneNodes) [sharesOf "f" "" [⟨2, 1⟩]] := by
  refine ⟨by decide +kernel, fun ⟨gs, hserve, _⟩ => ?_⟩
  obtain ⟨g, gs, hg, -, rfl⟩ := forall₂_cons_left_iff.mp hserve
  obtain ⟨holders, rfl⟩ := hg.eq_shares rfl
  obtain ⟨-, hlens, hholders⟩ := hg
  obtain ⟨held, rest, rfl, hlen, -⟩ := map_eq_cons_iff.mp hlens
  obtain ⟨hnodup, hhost, -⟩ := hholders held (.head _)
  obtain ⟨a, b, rfl⟩ := length_eq_two.mp hlen
  have hinj : ∀ a b, nodeOf goneNodes a = nodeOf goneNodes b → a = b := by decide +kernel
  have hab : a = b := hinj a b (hhost a (by simp) b (by simp))
  simp [hab] at hnodup

end GpuStack
