import GpuStack.DevicePlugin.Hint
import GpuStack.DevicePlugin.KubeletAllocations

/-!
# DevicePlugin/Tokens — the device IDs an accelerator advertises

Kubelet knows an accelerator by the IDs of its tokens, and hands them back when it allocates.  How many
there are and how they are numbered depends on the mode; what an ID is printed from can be read back from
it in every mode (`advertised_ids_faithful`).
-/

namespace GpuStack

open List

/-! ### Indices -/

/-- The values of `for i := 0; i < limit; i += step`. -/
def steps (limit step : ℕ) : List ℕ := (List.range ((limit + step - 1) / step)).map (· * step)

/-- The indices of the tokens a mode advertises; the pooled modes have as many as their pool. -/
def tokenIndices (mode : DeviceAllocationMode) (poolSize : Int32) : List ℕ :=
  match mode with
  | .exclusive => [0]
  | .shared => steps 1600000 (1600000 / 10)
  | .visibility => List.range 512
  | .sliced | .partitioned => if poolSize.toInt ≤ 0 then [] else List.range poolSize.toInt.toNat
  | .none => []

/-- The device IDs one accelerator advertises; an exclusive one's is `0000`, the padded zero. -/
def Resource.advertisedIDs (res : Resource) (mode : DeviceAllocationMode) (poolSize : Int32) : List String :=
  (tokenIndices mode poolSize).map fun i => ResourceToken.toString ⟨res, i⟩

variable {mode : DeviceAllocationMode} {poolSize : Int32}

theorem nodup_tokenIndices (mode : DeviceAllocationMode) (poolSize : Int32) :
    (tokenIndices mode poolSize).Nodup := by
  unfold tokenIndices
  split
  · exact nodup_singleton 0
  · decide
  · exact nodup_range
  iterate 2
    split
    · exact nodup_nil
    · exact nodup_range
  · exact nodup_nil

theorem lt_of_mem_tokenIndices {i : ℕ} (h : i ∈ tokenIndices mode poolSize) : i < 2 ^ 64 := by
  have hpool := poolSize.toInt_lt
  unfold tokenIndices at h
  split at h
  · simp at h
    omega
  · have : ∀ i ∈ steps 1600000 (1600000 / 10), i < 2 ^ 64 := by decide
    exact this i h
  · have := mem_range.mp h
    omega
  iterate 2
    split at h
    · cases h
    · have := mem_range.mp h
      omega
  · cases h

/-! ### Reading an ID -/

open Text (digitChar value digits)

/-- An index is read digit by digit. -/
theorem foldl_map_digitChar {ds : List ℕ} (h : ∀ d ∈ ds, d < 10) (n : ℕ) :
    (ds.map digitChar).all Char.isDigit ∧
      (ds.map digitChar).foldl (fun n c => 10 * n + (c.toNat - '0'.toNat)) n =
        ds.foldl (fun n d => n * 10 + d) n := by
  induction ds generalizing n with
  | nil => exact ⟨rfl, rfl⟩
  | cons d ds ih =>
    rw [forall_mem_cons] at h
    have hd : (digitChar d).isDigit ∧ (digitChar d).toNat - '0'.toNat = d := by
      have := h.1
      interval_cases d <;> decide
    obtain ⟨hall, hfold⟩ := ih h.2 (n * 10 + d)
    refine ⟨by simpa [hd.1] using hall, ?_⟩
    rw [map_cons, foldl_cons, hd.2, mul_comm, hfold, foldl_cons]

/-- An index in its ID: digits of its own, behind zeros that weigh nothing. -/
theorem padIndex_spec (n : ℕ) :
    ∃ ds : List ℕ, padIndex n = ds.map digitChar ∧ ds ≠ [] ∧ (∀ d ∈ ds, d < 10) ∧ value 10 ds = n := by
  refine ⟨replicate (4 - (Text.printNat n).length) 0 ++ digits 10 n, ?_, ?_, fun d hd => ?_, ?_⟩
  · rw [map_append, map_replicate]
    rfl
  · simp [Text.digits_ne_nil]
  · rcases mem_append.mp hd with hd | hd
    · rw [eq_of_mem_replicate hd]
      decide
    · exact Text.lt_of_mem_digits (by decide) hd
  · have hzeros : ∀ k : ℕ, (replicate k 0).foldl (fun n d => n * 10 + d) 0 = 0 := fun k =>
      foldlRecOn (motive := (· = 0)) _ _ rfl fun n hn d hd => by rw [hn, eq_of_mem_replicate hd]
    rw [value, foldl_append, hzeros]
    exact Text.value_digits 10 n

/-- **A padded index is read back**, and holds no separator. -/
theorem parseUint_padIndex {n : ℕ} (h : n < 2 ^ 64) : parseUint (padIndex n) = some n ∧ ':' ∉ padIndex n := by
  obtain ⟨ds, heq, hne, hdigits, hvalue⟩ := padIndex_spec n
  obtain ⟨hall, hfold⟩ := foldl_map_digitChar hdigits 0
  rw [heq]
  refine ⟨?_, fun hmem => absurd (all_eq_true.mp hall _ hmem) (by decide)⟩
  rw [value] at hvalue
  rw [parseUint, if_neg (by simpa [hne] using hall), hfold, hvalue, if_pos h]

/-- Names an ID can carry: nonempty and without its separator. -/
def Resource.Named (res : Resource) : Prop :=
  (res.group ≠ "" ∧ ':' ∉ res.group.toList) ∧ res.device ≠ "" ∧ ':' ∉ res.device.toList

instance (res : Resource) : Decidable res.Named := by
  unfold Resource.Named
  infer_instance

/-- **A token is read back from its ID.** -/
theorem parseResourceToken_toString {t : ResourceToken} (hnamed : t.resource.Named) (h : t.index < 2 ^ 64) :
    parseResourceToken t.toString = .ok t := by
  obtain ⟨⟨hgroup, hg⟩, hdevice, hd⟩ := hnamed
  obtain ⟨hparse, hindex⟩ := parseUint_padIndex h
  have hsplit : t.toString.toList.splitOn ':' =
      [t.resource.group.toList, t.resource.device.toList, padIndex t.index] := by
    have hprint : t.toString.toList =
        t.resource.group.toList ++ ':' :: (t.resource.device.toList ++ ':' :: padIndex t.index) := by
      simp [ResourceToken.toString, Resource.toString]
    rw [hprint, splitOn_append_cons_self_of_not_mem hg, splitOn_append_cons_self_of_not_mem hd,
      splitOn_eq_singleton hindex]
  rw [parseResourceToken, hsplit]
  simp [hgroup, hdevice, hparse]

/-- **Device tokens are a faithful code**: in every mode the IDs of an inventory are pairwise distinct, and
each is read as a token of the accelerator that advertised it which prints as the same ID. -/
theorem advertised_ids_faithful (mode : DeviceAllocationMode) {cards : List (Resource × Int32)}
    (hdistinct : (cards.map Prod.fst).Nodup) (hnamed : ∀ card ∈ cards, card.1.Named) :
    (cards.flatMap fun card => card.1.advertisedIDs mode card.2).Nodup ∧
      ∀ card ∈ cards, ∀ id ∈ card.1.advertisedIDs mode card.2,
        ∃ t, parseResourceToken id = .ok t ∧ t.resource = card.1 ∧ t.toString = id := by
  have hread : ∀ card ∈ cards, ∀ id ∈ card.1.advertisedIDs mode card.2,
      ∃ i, parseResourceToken id = .ok ⟨card.1, i⟩ ∧ ResourceToken.toString ⟨card.1, i⟩ = id := by
    intro card hcard id hid
    obtain ⟨i, hi, rfl⟩ := mem_map.mp hid
    exact ⟨i, parseResourceToken_toString (hnamed card hcard) (lt_of_mem_tokenIndices hi), rfl⟩
  refine ⟨nodup_flatMap.mpr ⟨fun card hcard => ?_, ?_⟩, fun card hcard id hid => ?_⟩
  · -- one accelerator's indices are distinct, and an ID determines its index
    refine (nodup_map_iff_inj_on (nodup_tokenIndices mode card.2)).mpr fun i hi j hj heq => ?_
    have hi := parseResourceToken_toString (t := ⟨card.1, i⟩) (hnamed card hcard) (lt_of_mem_tokenIndices hi)
    have hj := parseResourceToken_toString (t := ⟨card.1, j⟩) (hnamed card hcard) (lt_of_mem_tokenIndices hj)
    rw [heq, hj] at hi
    exact congrArg ResourceToken.index (Except.ok.inj hi.symm)
  · -- an ID determines its accelerator
    refine (pairwise_map.mp hdistinct).imp_of_mem fun {a b} ha hb hab id hida hidb => hab ?_
    obtain ⟨i, hi, -⟩ := hread a ha id hida
    obtain ⟨j, hj, -⟩ := hread b hb id hidb
    rw [hi] at hj
    exact congrArg ResourceToken.resource (Except.ok.inj hj)
  · obtain ⟨i, hi, hprint⟩ := hread card hcard id hid
    exact ⟨⟨card.1, i⟩, hi, rfl, hprint⟩

theorem advertised_ids_faithful_pair :
    (Resource.advertisedIDs ⟨"g", "a"⟩ .shared 0 ++ Resource.advertisedIDs ⟨"g", "b"⟩ .shared 0).Nodup ∧
      Resource.Named ⟨"g", "a"⟩ := by
  have hdistinct : ([((⟨"g", "a"⟩ : Resource), (0 : Int32)), (⟨"g", "b"⟩, 0)].map Prod.fst).Nodup := by
    decide
  have hnodup := (advertised_ids_faithful .shared hdistinct (by decide)).1
  exact ⟨by simpa using hnodup, by decide⟩

end GpuStack
