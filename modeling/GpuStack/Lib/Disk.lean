import Mathlib

/-!
# Lib/Disk — a file, and what a crash leaves of it

A file is its bytes and the positions among them that have reached the disk.  A write fills the gap
before it with zeros and is not durable; a sync makes every byte so.  A crash may lose the end of a
file and zero any byte of it that was not synced.

What lies before a write is as it was (`take_splice`), and a crash keeps every run of synced bytes
(`Crash.take`).
-/

namespace Disk

open List

universe u

variable {α : Type u} [Zero α]

/-- The bytes of a file after a write of `new` at `pos`. -/
def splice (bytes : List α) (pos : ℕ) (new : List α) : List α :=
  bytes.take pos ++ List.replicate (pos - bytes.length) 0 ++ new ++ bytes.drop (pos + new.length)

theorem length_splice (bytes : List α) (pos : ℕ) (new : List α) :
    (splice bytes pos new).length = max bytes.length (pos + new.length) := by
  simp only [splice, length_append, length_take, length_replicate, length_drop]
  omega

variable {i pos : ℕ}

theorem splice_getElem?_of_lt (bytes new : List α) (hi : i < pos)
    (hlen : i < bytes.length) : (splice bytes pos new)[i]? = bytes[i]? := by
  have htake : i < (bytes.take pos).length := by rw [length_take]; omega
  rw [splice, append_assoc, append_assoc, getElem?_append_left htake,
    getElem?_take_of_lt hi]

theorem splice_getElem?_of_mem (bytes new : List α) (hi : i < new.length) :
    (splice bytes pos new)[pos + i]? = new[i]? := by
  have hhead : (bytes.take pos ++ replicate (pos - bytes.length) 0).length = pos := by
    rw [length_append, length_take, length_replicate]
    omega
  rw [splice, append_assoc, getElem?_append_right (by omega), hhead,
    Nat.add_sub_cancel_left, getElem?_append_left hi]

theorem splice_getElem?_of_le (bytes new : List α) (hi : pos + new.length ≤ i)
    (hlen : i < bytes.length) : (splice bytes pos new)[i]? = bytes[i]? := by
  have hhead : (bytes.take pos ++ replicate (pos - bytes.length) 0 ++ new).length =
      pos + new.length := by
    rw [length_append, length_append, length_take, length_replicate]
    omega
  rw [splice, getElem?_append_right (by omega), hhead, getElem?_drop]
  congr 1
  omega

/-- **What lies before a write is as it was.** -/
theorem take_splice (bytes new : List α) {n : ℕ} (hn : n ≤ pos) (hlen : n ≤ bytes.length) :
    (splice bytes pos new).take n = bytes.take n := by
  have htake : n ≤ (bytes.take pos).length := by rw [length_take]; omega
  rw [splice, append_assoc, append_assoc, take_append_of_le_length htake,
    take_take, Nat.min_eq_left hn]

/-- A write inside the file, or at its end, is what comes after the bytes before it. -/
theorem take_splice_end (bytes new : List α) (hlen : pos ≤ bytes.length) :
    (splice bytes pos new).take (pos + new.length) = bytes.take pos ++ new := by
  have hgap : pos - bytes.length = 0 := by omega
  have hhead : (bytes.take pos ++ new).length = pos + new.length := by
    rw [length_append, length_take]
    omega
  rw [splice, hgap, replicate_zero, append_nil, ← hhead, take_left]

/-- A write at the end of the file. -/
theorem splice_length (bytes new : List α) : splice bytes bytes.length new = bytes ++ new := by
  rw [splice, take_length, Nat.sub_self, replicate_zero, append_nil,
    drop_eq_nil_of_le (Nat.le_add_right _ _), append_nil]

/-! ## A file -/

/-- A file: its bytes, and the positions whose byte is durable. -/
structure File (α : Type u) where
  bytes : List α := []
  synced : Finset ℕ := ∅
deriving DecidableEq

namespace File

variable (f : File α)

/-- Write `new` at `pos`. -/
def write (pos : ℕ) (new : List α) : File α where
  bytes := splice f.bytes pos new
  synced := f.synced.filter fun i => i < pos ∨ pos + new.length ≤ i

omit [Zero α] in
/-- Cut the file to its first `n` bytes. -/
def truncate (n : ℕ) : File α where
  bytes := f.bytes.take n
  synced := f.synced.filter (· < n)

omit [Zero α] in
/-- Make every byte durable. -/
def sync : File α := { f with synced := Finset.range f.bytes.length }

/-- The first `n` bytes are durable. -/
def Durable (n : ℕ) : Prop := ∀ i < n, i ∈ f.synced

/-- **What a crash may leave of a file**: no byte it did not have, every durable one, and of the rest
what it was, a zero or nothing. -/
structure Crash (f f' : File α) : Prop where
  length : f'.bytes.length ≤ f.bytes.length
  kept : ∀ i ∈ f.synced, i < f.bytes.length → f'.bytes[i]? = f.bytes[i]?
  zeroed : ∀ i < f'.bytes.length, f'.bytes[i]? = f.bytes[i]? ∨ f'.bytes[i]? = some 0

variable {f}

/-- **A crash keeps a run of durable bytes.** -/
theorem Crash.take {f' : File α} (h : Crash f f') {n : ℕ} (hn : n ≤ f.bytes.length)
    (hdurable : f.Durable n) : f'.bytes.take n = f.bytes.take n := by
  refine ext_getElem? fun i => ?_
  rw [getElem?_take, getElem?_take]
  split
  · next hi => exact h.kept i (hdurable i hi) (by omega)
  · rfl

end File

end Disk
