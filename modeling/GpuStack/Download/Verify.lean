import GpuStack.Lib.Disk

/-!
# Download/Verify — hashing a file as it arrives

A file is verified while it is received: its bytes go through a hash in byte order, and the state of the
hash is written to a checkpoint beside it, so that a later source resumes from there.  The state is an
exact function of the bytes hashed, and stands here as those bytes.

`resume` is the one place that decides what of a file is kept; `resumableOffset` decides the same ahead
of it (`length_resume`).
-/

namespace GpuStack.Download

variable {α δ : Type}

/-- A line of the manifest: the size and the digest of a file, and the hash that makes it. -/
structure ManifestFile (α δ : Type) where
  size : ℕ
  digest : δ
  hash : List α → δ

/-- What lies at the path of a checkpoint.  `readable` is whether this build can restore the state. -/
inductive Checkpoint (α : Type)
  | absent
  | unreadable
  | saved (hashed : List α) (readable : Bool)
deriving DecidableEq

/-- A file being downloaded, and its checkpoint. -/
structure Dir (α : Type) where
  dest : Disk.File α := {}
  checkpoint : Checkpoint α := .absent
deriving DecidableEq

/-! ## Effects on the directory -/

inductive DiskOp (α : Type)
  | write (pos : ℕ) (bytes : List α)
  | truncate (n : ℕ)
  | sync
  | save (hashed : List α)
  | removeFile
  | removeCheckpoint
deriving DecidableEq

def Dir.apply [Zero α] (d : Dir α) : DiskOp α → Dir α
  | .write pos bytes => { d with dest := d.dest.write pos bytes }
  | .truncate n => { d with dest := d.dest.truncate n }
  | .sync => { d with dest := d.dest.sync }
  | .save hashed => { d with checkpoint := .saved hashed true }
  | .removeFile => { d with dest := {} }
  | .removeCheckpoint => { d with checkpoint := .absent }

def Dir.applyAll [Zero α] (d : Dir α) (ops : List (DiskOp α)) : Dir α := ops.foldl Dir.apply d

@[simp] theorem Dir.applyAll_nil [Zero α] (d : Dir α) : d.applyAll [] = d := rfl

@[simp] theorem Dir.applyAll_cons [Zero α] (d : Dir α) (op : DiskOp α) (ops : List (DiskOp α)) :
    d.applyAll (op :: ops) = (d.apply op).applyAll ops := rfl

/-! ## The verifier -/

variable (m : ManifestFile α δ)

/-- The hashed bytes have the manifest's size and digest. -/
def check [DecidableEq δ] (hashed : List α) : Bool := hashed.length = m.size ∧ m.hash hashed = m.digest

/-- What a download carries over from before: the offset of a checkpoint that is valid for the file on
disk. -/
def resumableOffset (d : Dir α) : ℕ :=
  match d.checkpoint with
  | .saved hashed _ =>
    if m.size < hashed.length then 0
    else if d.dest.bytes.length < hashed.length then 0
    else hashed.length
  | _ => 0

/-- **Where a download continues from**: the bytes its verifier has hashed, and the cut it makes.  Only
a checkpoint is trusted; one whose state cannot be restored is hashed again from disk. -/
def resume (d : Dir α) : List α × List (DiskOp α) :=
  match d.checkpoint with
  | .saved hashed readable =>
    if m.size < hashed.length then ([], [.truncate 0])
    else if d.dest.bytes.length < hashed.length then ([], [.truncate 0])
    else (if readable then hashed else d.dest.bytes.take hashed.length, [.truncate hashed.length])
  | _ => ([], [.truncate 0])

/-- `resumableOffset` decides as `resume` does. -/
theorem length_resume (d : Dir α) : (resume m d).1.length = resumableOffset m d := by
  rw [resume, resumableOffset]
  split
  · split_ifs
    · rfl
    · rfl
    · rfl
    · rw [List.length_take]
      omega
  · rfl

theorem resume_ops (d : Dir α) : (resume m d).2 = [.truncate (resumableOffset m d)] := by
  rw [resume, resumableOffset]
  split
  · split_ifs <;> rfl
  · rfl

theorem resumableOffset_le (d : Dir α) :
    resumableOffset m d ≤ m.size ∧ resumableOffset m d ≤ d.dest.bytes.length := by
  rw [resumableOffset]
  split
  · split_ifs <;> omega
  · omega

section Saved

variable {m} {d : Dir α} {hashed : List α} {readable : Bool}

theorem resumableOffset_saved (hd : d.checkpoint = .saved hashed readable)
    (hsize : hashed.length ≤ m.size) (hlen : hashed.length ≤ d.dest.bytes.length) :
    resumableOffset m d = hashed.length := by
  rw [resumableOffset, hd]
  dsimp only
  rw [if_neg (by omega), if_neg (by omega)]

theorem resume_saved (hd : d.checkpoint = .saved hashed readable) (hsize : hashed.length ≤ m.size)
    (hlen : hashed.length ≤ d.dest.bytes.length) :
    (resume m d).1 = if readable then hashed else d.dest.bytes.take hashed.length := by
  rw [resume, hd]
  dsimp only
  rw [if_neg (by omega), if_neg (by omega)]

/-- A checkpoint the file is too short for. -/
theorem resumableOffset_short (hd : d.checkpoint = .saved hashed readable)
    (hlen : d.dest.bytes.length < hashed.length) : resumableOffset m d = 0 := by
  rw [resumableOffset, hd]
  dsimp only
  rw [if_pos hlen, ite_self]

end Saved

/-! ## The stream hasher -/

/-- A hasher of the peer path, and the position its next checkpoint is due at. -/
structure StreamHasher (α : Type) where
  hashed : List α
  next : ℕ
deriving DecidableEq

/-- The first boundary past an offset: the loop of `Hash`, which makes no more than `fuel` rounds. -/
def passBoundaries (interval offset : ℕ) : ℕ → ℕ → ℕ
  | 0, next => next
  | fuel + 1, next =>
    if next ≤ offset then passBoundaries interval offset fuel (next + interval) else next

/-- A hasher that continues after the bytes already hashed. -/
def StreamHasher.resumed (interval : ℕ) (hashed : List α) : StreamHasher α where
  hashed := hashed
  next := if 0 < interval ∧ 0 < hashed.length then (hashed.length / interval + 1) * interval
    else interval

/-- A checkpoint is due once the bytes of `chunk` are hashed. -/
def StreamHasher.due (interval : ℕ) (h : StreamHasher α) (chunk : List α) : Bool :=
  0 < interval ∧ h.next ≤ (h.hashed ++ chunk).length

/-- **Hash the next bytes.** -/
def StreamHasher.hash (interval : ℕ) (h : StreamHasher α) (chunk : List α) : StreamHasher α where
  hashed := h.hashed ++ chunk
  next := if 0 < interval then
      passBoundaries interval (h.hashed ++ chunk).length ((h.hashed ++ chunk).length + 1) h.next
    else h.next

end GpuStack.Download
