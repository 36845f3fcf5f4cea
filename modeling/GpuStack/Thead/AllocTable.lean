import GpuStack.Lib.Probing

/-!
# Thead/AllocTable — the PPU shim's map from a device pointer to what was charged for it

`vppu_alloc_record` and `vppu_alloc_take` keep, process-locally, the card and the bytes of every live
allocation, so that a free returns what its allocation charged.  The map is an open-addressing table of
`VPPU_ALLOC_SLOTS` slots whose states are spelled in the key itself: `EMPTY` ends a probe chain and `DEAD`
marks a slot whose entry was taken.

Read through `AllocSlot.view` the two functions are those of `Probing` (`view_recordIn`, `view_takeIn`), so a
run of calls answers as the map of the live keys would (`table_answers_history`).  The two values that spell the states
of a slot are not keys: `vppu_alloc_record` drops them without a word (`reserved_key_dropped`).
-/

namespace GpuStack.Thead

open Probing

/-- `VPPU_ALLOC_SLOTS` -/
abbrev vppuAllocSlots : ℕ := 1024

/-- `VPPU_ALLOC_EMPTY` -/
def vppuAllocEmpty : UInt64 := 0

/-- `VPPU_ALLOC_DEAD` -/
def vppuAllocDead : UInt64 := 0xFFFFFFFFFFFFFFFF

/-- `struct vppu_alloc_slot` -/
structure AllocSlot where
  key : UInt64
  bytes : UInt64
  device : ℤ
deriving DecidableEq, Repr

/-- `alloc_table` and `alloc_overflows`, the statics of the process. -/
structure AllocState where
  allocTable : Fin vppuAllocSlots → AllocSlot
  allocOverflows : UInt64

/-- `reset_alloc_table` -/
def resetAllocTable : AllocState where
  allocTable := fun _ => ⟨0, 0, 0⟩
  allocOverflows := 0

/-- `alloc_home` -/
def allocHome (key : UInt64) : Fin vppuAllocSlots :=
  let mixed := key * 0x9E3779B97F4A7C15
  Fin.ofNat vppuAllocSlots (mixed >>> 32).toNat

/-- `alloc_reserved` -/
def allocReserved (key : UInt64) : Bool := key = vppuAllocEmpty || key = vppuAllocDead

/-- The slots in the order both loops visit them, `(home + probe) % VPPU_ALLOC_SLOTS`. -/
def probes (key : UInt64) : List (Fin vppuAllocSlots) :=
  (List.range vppuAllocSlots).map fun probe => allocHome key + Fin.ofNat vppuAllocSlots probe

/-- The loop of `vppu_alloc_record`; `none` when it ran off the table. -/
def recordIn (key : UInt64) (device : ℤ) (bytes : UInt64) :
    List (Fin vppuAllocSlots) → (Fin vppuAllocSlots → AllocSlot) →
      Option (Fin vppuAllocSlots → AllocSlot)
  | [], _ => none
  | i :: walk, t =>
    if (t i).key = vppuAllocEmpty ∨ (t i).key = vppuAllocDead then
      some (Function.update t i ⟨key, bytes, device⟩)
    else recordIn key device bytes walk t

/-- The loop of `vppu_alloc_take`. -/
def takeIn (key : UInt64) :
    List (Fin vppuAllocSlots) → (Fin vppuAllocSlots → AllocSlot) →
      Option ((ℤ × UInt64) × (Fin vppuAllocSlots → AllocSlot))
  | [], _ => none
  | i :: walk, t =>
    if (t i).key = key then
      some (((t i).device, (t i).bytes), Function.update t i ⟨vppuAllocDead, 0, -1⟩)
    else if (t i).key = vppuAllocEmpty then none
    else takeIn key walk t

/-- `vppu_alloc_record` -/
def AllocState.vppuAllocRecord (s : AllocState) (key : UInt64) (device : ℤ) (bytes : UInt64) :
    AllocState :=
  if allocReserved key then s
  else
    match recordIn key device bytes (probes key) s.allocTable with
    | some t => { s with allocTable := t }
    -- the charge stands and the record is dropped
    | none => { s with allocOverflows := s.allocOverflows + 1 }

/-- `vppu_alloc_take`: what the key held, if it was found. -/
def AllocState.vppuAllocTake (s : AllocState) (key : UInt64) : Option (ℤ × UInt64) × AllocState :=
  if allocReserved key then (none, s)
  else
    match takeIn key (probes key) s.allocTable with
    | some (held, t) => (some held, { s with allocTable := t })
    | none => (none, s)

/-! ### The slots as cells -/

/-- What a slot says. -/
def AllocSlot.view (slot : AllocSlot) : Cell UInt64 (ℤ × UInt64) :=
  if slot.key = vppuAllocEmpty then .empty
  else if slot.key = vppuAllocDead then .dead
  else .live slot.key (slot.device, slot.bytes)

variable {key : UInt64}

theorem allocReserved_eq_false :
    allocReserved key = false ↔ key ≠ vppuAllocEmpty ∧ key ≠ vppuAllocDead := by
  simp [allocReserved]

theorem view_mk {bytes : UInt64} {device : ℤ} (hkey : allocReserved key = false) :
    AllocSlot.view ⟨key, bytes, device⟩ = .live key (device, bytes) := by
  obtain ⟨hempty, hdead⟩ := allocReserved_eq_false.mp hkey
  rw [AllocSlot.view, if_neg hempty, if_neg hdead]

theorem view_dead (bytes : UInt64) (device : ℤ) :
    AllocSlot.view ⟨vppuAllocDead, bytes, device⟩ = .dead := rfl

/-- The record loop is a record along the same walk. -/
theorem view_recordIn (hkey : allocReserved key = false) (device : ℤ) (bytes : UInt64)
    (walk : List (Fin vppuAllocSlots)) (t : Fin vppuAllocSlots → AllocSlot) :
    (recordIn key device bytes walk t).map (AllocSlot.view ∘ ·) =
      recordFrom key (device, bytes) walk (AllocSlot.view ∘ t) := by
  induction walk with
  | nil => rfl
  | cons i walk ih =>
    rw [recordIn, recordFrom, Function.comp_apply]
    by_cases hempty : (t i).key = vppuAllocEmpty
    · rw [if_pos (.inl hempty), AllocSlot.view, if_pos hempty, Option.map_some, Function.comp_update,
        view_mk hkey]
    · by_cases hdead : (t i).key = vppuAllocDead
      · rw [if_pos (.inr hdead), AllocSlot.view, if_neg hempty, if_pos hdead, Option.map_some,
          Function.comp_update, view_mk hkey]
      · rw [if_neg (not_or.mpr ⟨hempty, hdead⟩), AllocSlot.view, if_neg hempty, if_neg hdead]
        exact ih

/-- …and the take loop a take. -/
theorem view_takeIn (hkey : allocReserved key = false)
    (walk : List (Fin vppuAllocSlots)) (t : Fin vppuAllocSlots → AllocSlot) :
    (takeIn key walk t).map (Prod.map id (AllocSlot.view ∘ ·)) =
      takeFrom key walk (AllocSlot.view ∘ t) := by
  obtain ⟨hkempty, hkdead⟩ := allocReserved_eq_false.mp hkey
  induction walk with
  | nil => rfl
  | cons i walk ih =>
    rw [takeIn, takeFrom, Function.comp_apply]
    by_cases hempty : (t i).key = vppuAllocEmpty
    · rw [if_neg fun h => hkempty (h.symm.trans hempty), if_pos hempty, AllocSlot.view, if_pos hempty]
      rfl
    · by_cases hdead : (t i).key = vppuAllocDead
      · rw [if_neg fun h => hkdead (h.symm.trans hdead), if_neg hempty, AllocSlot.view, if_neg hempty,
          if_pos hdead]
        exact ih
      · have hview : (t i).view = .live (t i).key ((t i).device, (t i).bytes) := by
          rw [AllocSlot.view, if_neg hempty, if_neg hdead]
        rw [hview]
        by_cases hfound : (t i).key = key
        · simp only [if_pos hfound, Option.map_some, Prod.map, id_eq, Function.comp_update, view_dead]
        · simp only [if_neg hfound, if_neg hempty]
          exact ih

/-! ### Runs of calls -/

/-- The cells of a state stand for a map of keys to what was recorded for them. -/
def AllocState.Holds (s : AllocState) (m : AList fun _ : UInt64 => ℤ × UInt64) : Prop :=
  Represents probes (AllocSlot.view ∘ s.allocTable) m

variable {s : AllocState} {m : AList fun _ : UInt64 => ℤ × UInt64} {key : UInt64}

theorem holds_resetAllocTable : resetAllocTable.Holds ∅ := represents_empty

/-- Every probe sequence visits every slot. -/
theorem mem_probes (key : UInt64) (i : Fin vppuAllocSlots) : i ∈ probes key := by
  refine List.mem_map.mpr ⟨(i - allocHome key).val, List.mem_range.mpr (Fin.isLt _), ?_⟩
  rw [Fin.ofNat_val_eq_self]
  exact add_sub_cancel _ _

/-- **A key that is not live is recorded**, as long as the table has room for it. -/
theorem AllocState.Holds.record (h : s.Holds m) (hkey : allocReserved key = false) (hnew : key ∉ m)
    (device : ℤ) (bytes : UInt64)
    (hroom : (m.insert key (device, bytes)).entries.length ≤ vppuAllocSlots) :
    (s.vppuAllocRecord key device bytes).Holds (m.insert key (device, bytes)) := by
  have hnone : m.lookup key = none := AList.lookup_eq_none.mpr hnew
  rw [AList.entries_insert_of_notMem hnew, List.length_cons] at hroom
  obtain ⟨i, hfree⟩ := Represents.exists_free h (by rw [Fintype.card_fin]; omega)
  obtain ⟨t', ht'⟩ := Option.isSome_iff_exists.mp
    (isSome_recordFrom (k := key) (v := (device, bytes)) (mem_probes key i) hfree)
  obtain ⟨t, ht, rfl⟩ := Option.map_eq_some_iff.mp ((view_recordIn hkey ..).trans ht')
  rw [AllocState.vppuAllocRecord, hkey, if_neg Bool.false_ne_true, ht]
  exact Represents.record h hnone ht'

/-- **A take answers with what the map has under the key**, and takes it out of the map. -/
theorem AllocState.Holds.take (h : s.Holds m) (hmap : ∀ k ∈ m, allocReserved k = false)
    (key : UInt64) :
    (s.vppuAllocTake key).1 = m.lookup key ∧ (s.vppuAllocTake key).2.Holds (m.erase key) := by
  have herase : m.lookup key = none → m.erase key = m := fun hnone =>
    AList.ext (List.kerase_of_notMem_keys (AList.lookup_eq_none.mp hnone))
  rw [AllocState.vppuAllocTake]
  cases hkey : allocReserved key with
  | true =>
    have hnone : m.lookup key = none := AList.lookup_eq_none.mpr fun hmem => by
      rw [hmap key hmem] at hkey
      cases hkey
    rw [if_pos rfl, hnone, herase hnone]
    exact ⟨rfl, h⟩
  | false =>
    rw [if_neg Bool.false_ne_true]
    cases hlookup : m.lookup key with
    | none =>
      have htake := (view_takeIn hkey ..).trans (Represents.take_of_none h hlookup)
      rw [Option.map_eq_none_iff.mp htake, herase hlookup]
      exact ⟨rfl, h⟩
    | some held =>
      obtain ⟨t', ht', hrep⟩ := Represents.take h hlookup
      obtain ⟨⟨held', t⟩, ht, hpair⟩ := Option.map_eq_some_iff.mp ((view_takeIn hkey ..).trans ht')
      obtain ⟨rfl, rfl⟩ := Prod.mk.inj hpair
      rw [ht]
      exact ⟨rfl, hrep⟩

/-- A call of the shim. -/
inductive AllocCall where
  | record (key : UInt64) (device : ℤ) (bytes : UInt64)
  | take (key : UInt64)
deriving DecidableEq, Repr

/-- What the takes of a run answer. -/
def AllocState.answers : AllocState → List AllocCall → List (Option (ℤ × UInt64))
  | _, [] => []
  | s, .record key device bytes :: calls => (s.vppuAllocRecord key device bytes).answers calls
  | s, .take key :: calls => (s.vppuAllocTake key).1 :: (s.vppuAllocTake key).2.answers calls

/-- What they should answer: a take of a live key what was recorded for it, and the key is live no more. -/
def liveAnswers :
    (AList fun _ : UInt64 => ℤ × UInt64) → List AllocCall → List (Option (ℤ × UInt64))
  | _, [] => []
  | m, .record key device bytes :: calls => liveAnswers (m.insert key (device, bytes)) calls
  | m, .take key :: calls => m.lookup key :: liveAnswers (m.erase key) calls

/-- No key is recorded while it is live, and at no time are more keys live than the table has slots. -/
def Orderly : (AList fun _ : UInt64 => ℤ × UInt64) → List AllocCall → Prop
  | _, [] => True
  | m, .record key device bytes :: calls =>
    key ∉ m ∧ (m.insert key (device, bytes)).entries.length ≤ vppuAllocSlots ∧
      Orderly (m.insert key (device, bytes)) calls
  | m, .take key :: calls => Orderly (m.erase key) calls

instance Orderly.decidable :
    (m : AList fun _ : UInt64 => ℤ × UInt64) → (calls : List AllocCall) → Decidable (Orderly m calls)
  | _, [] => isTrue trivial
  | m, .record key device bytes :: calls =>
    have := Orderly.decidable (m.insert key (device, bytes)) calls
    inferInstanceAs (Decidable (_ ∧ _ ∧ _))
  | m, .take key :: calls => Orderly.decidable (m.erase key) calls

/-- The call records no value that spells a slot's state. -/
def AllocCall.unreserved : AllocCall → Bool
  | .record key _ _ => !allocReserved key
  | .take _ => true

theorem AllocState.Holds.answers_eq (h : s.Holds m) (hmap : ∀ k ∈ m, allocReserved k = false)
    {calls : List AllocCall} (horder : Orderly m calls) (hkeys : ∀ c ∈ calls, c.unreserved) :
    s.answers calls = liveAnswers m calls := by
  induction calls generalizing s m with
  | nil => rfl
  | cons call calls ih =>
    obtain ⟨hcall, hrest⟩ := List.forall_mem_cons.mp hkeys
    cases call with
    | record key device bytes =>
      obtain ⟨hnew, hroom, horder⟩ := horder
      have hkey : allocReserved key = false := by simpa [AllocCall.unreserved] using hcall
      refine ih (h.record hkey hnew device bytes hroom) (fun k hk => ?_) horder hrest
      rcases (AList.mem_insert m).mp hk with rfl | hk
      · exact hkey
      · exact hmap k hk
    | take key =>
      obtain ⟨hheld, hkept⟩ := h.take hmap key
      rw [AllocState.answers, liveAnswers, hheld]
      exact congrArg _ (ih hkept (fun k hk => hmap k (AList.mem_erase.mp hk).2) horder hrest)

/-- **The allocation table never loses a record**: over every run of calls that records no live key again,
no reserved value, and never more keys than there are slots, the takes answer as the map of the live
keys does. -/
theorem table_answers_history (calls : List AllocCall) (horder : Orderly ∅ calls)
    (hkeys : ∀ c ∈ calls, c.unreserved) : resetAllocTable.answers calls = liveAnswers ∅ calls :=
  holds_resetAllocTable.answers_eq (fun _ hk => absurd hk (AList.notMem_empty _)) horder hkeys

/-- Two keys, one of them taken twice. -/
theorem table_answers_two_keys :
    resetAllocTable.answers
      [.record 0x10000 2 4096, .record 0x20000 1 8, .take 0x10000, .take 0x10000, .take 0x20000] =
        [some (2, 4096), none, some (1, 8)] :=
  (table_answers_history _ (by decide +kernel) (by decide +kernel)).trans (by decide +kernel)

/-- A reserved value is a live key of the run, but the table dropped it. -/
theorem reserved_key_dropped :
    Orderly ∅ [.record 0 0 8, .take 0] ∧
      resetAllocTable.answers [.record 0 0 8, .take 0] = [none] ∧
      liveAnswers ∅ [.record 0 0 8, .take 0] = [some (0, 8)] := by
  decide +kernel

end GpuStack.Thead
