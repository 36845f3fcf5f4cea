import Mathlib
import GpuStack.Lib.Text
import GpuStack.Lib.Utf8

/-!
# ModelArtifact/MountInfo — the paths of a mount table

The kernel writes a path into `mountinfo` with its white space and its backslashes as octal escapes, so
that a line splits at its blanks.  A rebuild of the store reads the paths back (`unescape_escapePath`).
-/

namespace GpuStack.ModelArtifact

open Utf8

local instance lawfulBEqByte : LawfulBEq Byte := inferInstance

def backslash : Byte := byte 92

/-- The bytes the kernel escapes: space, tab, newline and backslash. -/
def escapedBytes : List Byte := [byte 32, byte 9, byte 10, backslash]

/-- A byte as the kernel writes it into a path of `mountinfo`: itself, or three octal digits. -/
def escapeByte (b : Byte) : GoString :=
  if b ∈ escapedBytes then backslash :: (Text.fixed 8 3 b.val).map fun d => byte (48 + d) else [b]

/-- A path as the kernel writes it. -/
def escapePath (path : GoString) : GoString := path.flatMap escapeByte

/-- `strconv.ParseUint(_, 8, 8)` on the bytes that follow a backslash. -/
def parseOctal (digits : GoString) : Option ℕ := Text.parseUint 8 8 (digits.map fun b => Char.ofNat b.val)

/-- The scan: a backslash with three bytes after it starts an escape when they are an octal byte. -/
def unescapeFrom : GoString → GoString
  | b :: x :: y :: z :: rest =>
    if b = backslash then
      match parseOctal [x, y, z] with
      | some v => byte v :: unescapeFrom rest
      | none => b :: unescapeFrom (x :: y :: z :: rest)
    else b :: unescapeFrom (x :: y :: z :: rest)
  | s => s

def unescapeMountInfo (s : GoString) : GoString := if backslash ∉ s then s else unescapeFrom s

variable {b : Byte} {s : GoString}

/-- A byte that is no backslash is passed over. -/
theorem unescapeFrom_cons (h : b ≠ backslash) : unescapeFrom (b :: s) = b :: unescapeFrom s := by
  match s with
  | [] | [_] | [_, _] => rfl
  | x :: y :: z :: rest => rw [unescapeFrom, if_neg h]

theorem unescapeFrom_of_notMem (h : backslash ∉ s) : unescapeFrom s = s := by
  induction s with
  | nil => rfl
  | cons b s ih =>
    rw [List.mem_cons, not_or] at h
    rw [unescapeFrom_cons (Ne.symm h.1), ih h.2]

/-- The check for a backslash only saves the scan. -/
theorem unescapeMountInfo_eq (s : GoString) : unescapeMountInfo s = unescapeFrom s := by
  unfold unescapeMountInfo
  split
  next h => exact (unescapeFrom_of_notMem h).symm
  next => rfl

/-- **An escape is read as the byte it was written for**, whatever follows it. -/
theorem unescapeFrom_escapeByte (b : Byte) (s : GoString) :
    unescapeFrom (escapeByte b ++ s) = b :: unescapeFrom s := by
  unfold escapeByte
  split
  next h =>
    -- four bytes are escaped, and each is read back from its own digits
    simp only [escapedBytes, List.mem_cons, List.not_mem_nil, or_false] at h
    rcases h with rfl | rfl | rfl | rfl <;> rfl
  next h =>
    refine unescapeFrom_cons fun hb => h ?_
    rw [hb]
    decide

/-- **Every path is read back as it was before the kernel escaped it.** -/
theorem unescape_escapePath (path : GoString) : unescapeMountInfo (escapePath path) = path := by
  rw [unescapeMountInfo_eq]
  induction path with
  | nil => rfl
  | cons b path ih => rw [escapePath, List.flatMap_cons, unescapeFrom_escapeByte, ← escapePath, ih]

end GpuStack.ModelArtifact
