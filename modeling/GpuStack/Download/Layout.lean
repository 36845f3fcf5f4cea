import GpuStack.Download.Machine

/-!
# Download/Layout — how much of a file lies on disk

What a fetch has received fixes the length of the file, whoever the bytes came from and whatever they
are: a peer's file ends where its hash does, the hub's first segment where its last byte was written,
and the segments after it tile the rest (`Tiles`).  Every transition keeps this (`layout_transition`).

What a fetch has hashed stays on disk as it was hashed (`onDisk_transition`), once it resumes from bytes
that are.
-/

namespace GpuStack.Download

open List

variable {α δ : Type}

/-! ## Segments -/

/-- The segments lie end to end between two positions, none empty. -/
def Tiles : ℕ → List Segment → ℕ → Prop
  | start, [], stop => start = stop
  | start, g :: rest, stop =>
    g.start = start ∧ g.start < g.stop ∧ g.start ≤ g.pos ∧ g.pos ≤ g.stop ∧ Tiles g.stop rest stop

variable {todo : List Segment} {start stop : ℕ} {g : Segment}

theorem Tiles.le (h : Tiles start todo stop) : start ≤ stop := by
  induction todo generalizing start with
  | nil => exact Nat.le_of_eq h
  | cons g rest ih =>
    obtain ⟨rfl, hlt, -, -, hrest⟩ := h
    exact hlt.le.trans (ih hrest)

theorem Tiles.mem (h : Tiles start todo stop) (hg : g ∈ todo) :
    start ≤ g.start ∧ g.start < g.stop ∧ g.start ≤ g.pos ∧ g.pos ≤ g.stop ∧
      g.stop ≤ stop := by
  induction todo generalizing start with
  | nil => cases hg
  | cons head rest ih =>
    obtain ⟨rfl, hlt, hpos, hstop, hrest⟩ := h
    rcases mem_cons.mp hg with rfl | hmem
    · exact ⟨le_rfl, hlt, hpos, hstop, hrest.le⟩
    · obtain ⟨hge, hrange⟩ := ih hrest hmem
      exact ⟨by omega, hrange⟩

/-- More of a segment is received. -/
theorem Tiles.set {i : ℕ} (h : Tiles start todo stop) (hget : todo[i]? = some g) {pos : ℕ}
    (hge : g.pos ≤ pos) (hle : pos ≤ g.stop) :
    Tiles start (todo.set i { g with pos := pos }) stop := by
  induction todo generalizing start i with
  | nil => cases hget
  | cons head rest ih =>
    obtain ⟨hstart, hlt, hpos, hstop, hrest⟩ := h
    cases i with
    | zero =>
      cases hget
      exact ⟨hstart, hlt, by dsimp only; omega, hle, hrest⟩
    | succ i => exact ⟨hstart, hlt, hpos, hstop, ih hrest hget⟩

theorem tiles_segments {segment size : ℕ} (hsegment : 0 < segment) (fuel start : ℕ)
    (hstart : start ≤ size) (hfuel : size - start ≤ fuel) :
    Tiles start (segments segment size fuel start) size := by
  induction fuel generalizing start with
  | zero => exact (show start = size by omega)
  | succ fuel ih =>
    unfold segments
    split
    · next hlt =>
      refine ⟨rfl, by dsimp only; omega, le_rfl, by dsimp only; omega, ?_⟩
      by_cases hin : start + segment ≤ size
      · dsimp only
        rw [Nat.min_eq_left hin]
        exact ih (start + segment) hin (by omega)
      · -- The last segment ends with the file, and none follows it.
        have hnone : segments segment size fuel (start + segment) = [] := by
          cases fuel with
          | zero => rfl
          | succ fuel => rw [segments, if_neg (by omega)]
        rw [hnone]
        exact (show min (start + segment) size = size by omega)
    · exact (show start = size by omega)

/-- No segment of a fetch that begins them has been received. -/
theorem pos_of_mem_segments {segment size fuel : ℕ} (hg : g ∈ segments segment size fuel start) :
    g.pos = g.start := by
  induction fuel generalizing start with
  | zero => cases hg
  | succ fuel ih =>
    unfold segments at hg
    split at hg
    · rcases mem_cons.mp hg with rfl | hmem
      · rfl
      · exact ih hmem
    · cases hg

/-! ## The length of the file -/

/-- **What the file's length is**, given what its fetch is doing. -/
def Layout (m : ManifestFile α δ) (d : Dir α) : Proc α → Prop
  | .idle | .finished => True
  | .peer h => d.dest.bytes.length = h.hashed.length
  | .first hashed pos _ => d.dest.bytes.length = pos ∧ hashed.length ≤ pos ∧ pos ≤ m.size
  | .parallel hashed todo _ =>
    hashed.length ≤ d.dest.bytes.length ∧ d.dest.bytes.length ≤ m.size ∧
      Tiles hashed.length todo m.size ∧
        ∀ g ∈ todo, g.start < g.pos → g.pos ≤ d.dest.bytes.length
  | .verify hashed => d.dest.bytes.length = m.size ∧ hashed.length = m.size

section Effects

variable [Zero α] (d : Dir α)

theorem length_write (pos : ℕ) (bytes : List α) :
    (d.apply (.write pos bytes)).dest.bytes.length = max d.dest.bytes.length (pos + bytes.length) :=
  Disk.length_splice d.dest.bytes pos bytes

theorem length_truncate (n : ℕ) :
    (d.apply (.truncate n)).dest.bytes.length = min n d.dest.bytes.length :=
  length_take

/-- A checkpoint leaves the bytes of the file. -/
theorem bytes_of_checkpointed {ops : List (DiskOp α)} {hashed : List α}
    (hops : ops = [] ∨ ops = checkpointOps hashed) :
    (d.applyAll ops).dest.bytes = d.dest.bytes := by
  rcases hops with rfl | rfl
  · rfl
  · rfl

end Effects

theorem length_hashedTo (d : Dir α) (hashed : List α) (hstart : start ≤ stop)
    (hstop : stop ≤ d.dest.bytes.length) :
    (hashedTo d hashed start stop).length = hashed.length + (stop - start) := by
  rw [hashedTo, length_append, length_take, length_drop]
  omega

section Steps

variable {t : Tuning} {m : ManifestFile α δ} {d : Dir α} {p : Proc α} {e : Event α} {a : Act α}

variable {hashed : List α}

theorem firstStop_le (t : Tuning) (m : ManifestFile α δ) (hashed : List α) (whole : Bool) :
    firstStop t m hashed whole ≤ m.size := by
  rw [firstStop]
  split
  · exact le_rfl
  · exact Nat.min_le_right _ _

/-- Bytes of a segment are received within the file and where no other segment's are. -/
theorem layout_receive [Zero α] {todo : List Segment} {last i : ℕ} {g : Segment}
    (h : Layout m d (.parallel hashed todo last)) (hget : todo[i]? = some g) {bytes : List α}
    (hlen : g.pos + bytes.length ≤ g.stop) :
    Layout m (d.applyAll [.write g.pos bytes])
      (.parallel hashed (todo.set i { g with pos := g.pos + bytes.length }) last) := by
  obtain ⟨hhashed, hsize, htiles, hreached⟩ := h
  have hmem := htiles.mem (mem_of_getElem? hget)
  have hlength : (d.applyAll [.write g.pos bytes]).dest.bytes.length =
      max d.dest.bytes.length (g.pos + bytes.length) := length_write d g.pos bytes
  refine ⟨by omega, by omega, htiles.set hget (by omega) hlen, fun g' hg' hlt => ?_⟩
  rcases mem_or_eq_of_mem_set hg' with hold | rfl
  · exact (hreached g' hold hlt).trans (by omega)
  · dsimp only
    omega

/-- A segment received to its end is hashed. -/
theorem length_hashedTo_head {rest : List Segment} {last : ℕ} {g : Segment}
    (h : Layout m d (.parallel hashed (g :: rest) last)) (hpos : g.pos = g.stop) :
    (hashedTo d hashed g.start g.stop).length = g.stop ∧ g.stop ≤ d.dest.bytes.length := by
  obtain ⟨-, -, ⟨hstart, hlt, -, -, -⟩, hreached⟩ := h
  have hstop : g.stop ≤ d.dest.bytes.length := hpos ▸ hreached g mem_cons_self (by omega)
  rw [length_hashedTo d hashed (by omega) hstop]
  exact ⟨by omega, hstop⟩

/-- **Every transition keeps the layout.** -/
theorem layout_transition [Zero α] [DecidableEq δ] (h : Layout m d p)
    (ht : Transition t m d p e a) : Layout m (d.applyAll a.ops) a.proc := by
  obtain ⟨hsize, hbytes⟩ := resumableOffset_le m d
  have htruncate : (d.applyAll [.truncate (resumableOffset m d)]).dest.bytes.length =
      resumableOffset m d := by
    rw [Dir.applyAll_cons, Dir.applyAll_nil, length_truncate, Nat.min_eq_left hbytes]
  cases ht with
  | peerBegin => exact htruncate.trans (length_resume m d).symm
  | peerReceive h' chunk hne hchunk hlen =>
    have hwrite := length_write d h'.hashed.length chunk
    rw [show d.dest.bytes.length = h'.hashed.length from h] at hwrite
    have hlength : (h'.hash t.interval chunk).hashed.length = h'.hashed.length + chunk.length :=
      length_append
    dsimp only
    split
    · exact hwrite.trans (by omega)
    · exact hwrite.trans (by omega)
  | peerFail | peerVerified | peerRefused | fail | mismatch | checked | refused => trivial
  | hubBegin hlt => exact ⟨htruncate, (length_resume m d).le, hsize⟩
  | hubComplete hle =>
    have hall : resumableOffset m d = m.size := by omega
    exact ⟨htruncate.trans hall, (length_resume m d).trans hall⟩
  | firstReceive hashed pos whole bytes hne hchunk hlen =>
    obtain ⟨hpos, hhashed, -⟩ := h
    have hwrite := length_write d pos bytes
    have hstop := firstStop_le t m hashed whole
    exact ⟨hwrite.trans (by omega), by omega, by omega⟩
  | firstWhole | firstRetry => exact h
  | firstRestart hashed pos whole hpos => exact ⟨by simp [length_truncate], le_rfl, Nat.zero_le _⟩
  | firstLast hashed pos whole hstop hsize' =>
    obtain ⟨hpos, hhashed, hle⟩ := h
    have hlength := length_hashedTo d hashed hhashed hpos.ge
    exact ⟨by dsimp only [Dir.applyAll_nil]; omega, by omega⟩
  | firstHash hashed pos whole hstop hsize' =>
    obtain ⟨hpos, hhashed, hle⟩ := h
    have hlength : (hashedTo d hashed hashed.length pos).length = pos := by
      rw [length_hashedTo d hashed hhashed hpos.ge]
      omega
    refine ⟨by dsimp only [Dir.applyAll_nil]; omega, by dsimp only [Dir.applyAll_nil]; omega, ?_, ?_⟩
    · rw [hlength]
      exact tiles_segments t.segment_pos m.size pos hle (by omega)
    · intro g hg hlt
      rw [pos_of_mem_segments hg] at hlt
      exact absurd hlt (lt_irrefl _)
  | receive hashed todo last i g bytes hget hwindow hne hchunk hlen => exact layout_receive h hget hlen
  | hashLast hashed last g hpos ops hops =>
    obtain ⟨hlength, hstop⟩ := length_hashedTo_head h hpos
    obtain ⟨-, hle, ⟨-, -, -, -, hend⟩, -⟩ := h
    have hsame := bytes_of_checkpointed d hops
    have hlast : g.stop = m.size := hend
    exact ⟨by rw [hsame]; omega, by omega⟩
  | hash hashed rest last last' g hrest hpos ops hops =>
    obtain ⟨hlength, hstop⟩ := length_hashedTo_head h hpos
    obtain ⟨-, hle, ⟨-, -, -, -, hend⟩, hreached⟩ := h
    have hsame := bytes_of_checkpointed d hops
    dsimp only [Layout]
    rw [hsame, hlength]
    exact ⟨hstop, hle, hend, fun g' hg' => hreached g' (.tail _ hg')⟩

theorem layout_step [Zero α] [DecidableEq δ] {s s' : State α} (hl : Layout m s.dir s.proc)
    (h : s.step t m e = some s') : Layout m s'.dir s'.proc := by
  obtain ⟨a, ht, rfl⟩ := State.transition_of_step h
  exact layout_transition hl ht

/-! ## The bytes that are hashed -/

/-- What a fetch has hashed is what the file starts with. -/
def OnDisk (d : Dir α) (hashed : List α) : Prop := d.dest.bytes.take hashed.length = hashed

theorem hashedTo_eq_take (h : OnDisk d hashed) {stop : ℕ} (hstop : hashed.length ≤ stop) :
    hashedTo d hashed hashed.length stop = d.dest.bytes.take stop := by
  have hsplit : stop = hashed.length + (stop - hashed.length) := by omega
  nth_rewrite 2 [hsplit]
  rw [take_add, show d.dest.bytes.take hashed.length = hashed from h, hashedTo]

theorem onDisk_take (n : ℕ) : OnDisk d (d.dest.bytes.take n) := by
  rw [OnDisk, length_take]
  by_cases hn : n ≤ d.dest.bytes.length
  · rw [Nat.min_eq_left hn]
  · rw [Nat.min_eq_right (by omega), take_length, take_of_length_le (by omega)]

/-- A file whose fetch has hashed all of it is what was hashed. -/
theorem OnDisk.eq (h : OnDisk d hashed) (hlen : d.dest.bytes.length = hashed.length) :
    d.dest.bytes = hashed := by
  rw [OnDisk, ← hlen, take_length] at h
  exact h

theorem onDisk_write [Zero α] (h : OnDisk d hashed) {pos : ℕ} (hpos : hashed.length ≤ pos)
    (hlen : hashed.length ≤ d.dest.bytes.length) (bytes : List α) :
    OnDisk (d.apply (.write pos bytes)) hashed :=
  (Disk.take_splice d.dest.bytes bytes hpos hlen).trans h

/-- **What a fetch has hashed stays on disk**, once it has begun. -/
theorem onDisk_transition [Zero α] [DecidableEq δ] (hl : Layout m d p) (h : OnDisk d p.hashed)
    (hp : p ≠ .idle) (ht : Transition t m d p e a) : OnDisk (d.applyAll a.ops) a.proc.hashed := by
  cases ht with
  | peerBegin | hubBegin | hubComplete => exact absurd rfl hp
  | peerReceive h' chunk hne hchunk hlen =>
    have hlength : d.dest.bytes.length = h'.hashed.length := hl
    have hbytes : d.dest.bytes.take h'.hashed.length = h'.hashed := h
    have hwrite := Disk.take_splice_end d.dest.bytes chunk hlength.ge
    rw [hbytes, ← length_append] at hwrite
    dsimp only
    split
    · exact hwrite
    · exact hwrite
  | peerFail | peerVerified | peerRefused | fail | mismatch | checked | refused => rfl
  | firstReceive hashed pos whole bytes hne hchunk hlen =>
    obtain ⟨hpos, hhashed, -⟩ := hl
    exact onDisk_write h hhashed (hpos ▸ hhashed) bytes
  | firstWhole | firstRetry => exact h
  | firstRestart => rfl
  | firstLast hashed pos whole hstop hsize | firstHash hashed pos whole hstop hsize =>
    have hread : hashedTo d hashed hashed.length pos = d.dest.bytes.take pos :=
      hashedTo_eq_take h hl.2.1
    dsimp only [Proc.hashed, Dir.applyAll_nil]
    rw [hread]
    exact onDisk_take pos
  | receive hashed todo last i g bytes hget hwindow hne hchunk hlen =>
    obtain ⟨hhashed, -, htiles, -⟩ := hl
    have hmem := htiles.mem (mem_of_getElem? hget)
    exact onDisk_write h (by dsimp only [Proc.hashed]; omega) hhashed bytes
  | hashLast hashed last g hpos ops hops | hash hashed _ last _ g _ hpos ops hops =>
    obtain ⟨-, -, ⟨hstart, hlt, -, -, -⟩, -⟩ := hl
    have hread : hashedTo d hashed hashed.length g.stop = d.dest.bytes.take g.stop :=
      hashedTo_eq_take h (show hashed.length ≤ g.stop by omega)
    dsimp only [Proc.hashed]
    rw [OnDisk, bytes_of_checkpointed d hops, hstart, hread]
    exact onDisk_take g.stop

/-- A fetch that reports success has checked what it hashed, which is all of the file. -/
theorem finished_of_transition [Zero α] [DecidableEq δ] (ht : Transition t m d p e a)
    (ha : a.proc = .finished) : check m p.hashed ∧ (d.applyAll a.ops).dest.bytes = d.dest.bytes ∧
      (Layout m d p → d.dest.bytes.length = p.hashed.length) := by
  cases ht with
  | peerVerified h' hcheck => exact ⟨hcheck, rfl, id⟩
  | checked hashed hcheck => exact ⟨hcheck, rfl, fun hl => hl.1.trans hl.2.symm⟩
  | _ => cases ha

/-- The file is then what passed the check. -/
theorem check_transition [Zero α] [DecidableEq δ] (hl : Layout m d p) (h : OnDisk d p.hashed)
    (ht : Transition t m d p e a) (ha : a.proc = .finished) : check m (d.applyAll a.ops).dest.bytes := by
  obtain ⟨hcheck, hbytes, hlength⟩ := finished_of_transition ht ha
  rw [hbytes, h.eq (hlength hl)]
  exact hcheck

end Steps

/-! ## A peer that delivers byte by byte -/

/-- A manifest line whose digest is the content itself. -/
def plainFile (content : List (UInt8)) : ManifestFile (UInt8) (List (UInt8)) where
  size := content.length
  digest := content
  hash := id

section Deliver

variable [Zero α] [DecidableEq δ] {t : Tuning} {m : ManifestFile α δ} {bytes hashed : List α}
  {cp : Checkpoint α} {next : ℕ} {received fromPeers : ℤ}

/-- A file of a peer's none of which is synced. -/
def delivered (bytes hashed : List α) (cp : Checkpoint α) (next : ℕ) (received fromPeers : ℤ) :
    State α where
  dir := ⟨⟨bytes, ∅⟩, cp⟩
  proc := .peer ⟨hashed, next⟩
  received := received
  fromPeers := fromPeers

theorem passBoundaries_of_lt {interval offset next : ℕ} (h : offset < next) (fuel : ℕ) :
    passBoundaries interval offset fuel next = next := by
  cases fuel with
  | zero => rfl
  | succ fuel => rw [passBoundaries, if_neg (by omega)]

omit [Zero α] in
theorem act_delivered (b : α) (hsize : hashed.length + 1 ≤ m.size) (d : Dir α) :
    act t m d (.peer ⟨hashed, next⟩) (.peerReceive [b]) = some {
      ops := .write hashed.length [b] ::
        (if StreamHasher.due t.interval ⟨hashed, next⟩ [b] then [.save (hashed ++ [b])] else [])
      proc := .peer (StreamHasher.hash t.interval ⟨hashed, next⟩ [b]), count := 1 } := by
  have hguard : [b] ≠ [] ∧ [b].length ≤ t.readChunk ∧ (hashed ++ [b]).length ≤ m.size :=
    ⟨cons_ne_nil _ _, t.readChunk_pos, by rw [length_append]; exact hsize⟩
  exact if_pos hguard

theorem write_delivered (b : α) (hlen : bytes.length = hashed.length) :
    Dir.apply ⟨⟨bytes, ∅⟩, cp⟩ (.write hashed.length [b]) = ⟨⟨bytes ++ [b], ∅⟩, cp⟩ := by
  rw [Dir.apply, Disk.File.write, ← hlen, Disk.splice_length, Finset.filter_empty]

theorem step_delivered (b : α) (hlen : bytes.length = hashed.length)
    (hsize : hashed.length + 1 ≤ m.size) :
    (delivered bytes hashed cp next received fromPeers).step t m (.peerReceive [b]) =
      some { dir := ⟨⟨bytes ++ [b], ∅⟩,
               if StreamHasher.due t.interval ⟨hashed, next⟩ [b] then .saved (hashed ++ [b]) true else cp⟩
             proc := .peer (StreamHasher.hash t.interval ⟨hashed, next⟩ [b])
             received := received + 1, fromPeers := fromPeers + 1 } := by
  rw [State.step, delivered, act_delivered b hsize, Option.map_some, Dir.applyAll_cons,
    write_delivered b hlen]
  split
  · rfl
  · rfl

/-- A byte that makes no checkpoint due. -/
theorem step_delivered_between (b : α) (hlen : bytes.length = hashed.length)
    (hnext : hashed.length + 1 < next) (hsize : hashed.length + 1 ≤ m.size) :
    (delivered bytes hashed cp next received fromPeers).step t m (.peerReceive [b]) =
      some (delivered (bytes ++ [b]) (hashed ++ [b]) cp next (received + 1) (fromPeers + 1)) := by
  have hlength : (hashed ++ [b]).length = hashed.length + 1 := length_append
  have hdue : StreamHasher.due t.interval ⟨hashed, next⟩ [b] = false := by
    rw [StreamHasher.due, decide_eq_false_iff_not]
    rintro ⟨-, hle⟩
    dsimp only at hle
    omega
  have hhash : StreamHasher.hash t.interval ⟨hashed, next⟩ [b] = ⟨hashed ++ [b], next⟩ := by
    rw [StreamHasher.hash, passBoundaries_of_lt (by dsimp only; omega), ite_self]
  rw [step_delivered b hlen hsize, hdue, hhash]
  rfl

/-- Bytes that make no checkpoint due. -/
theorem steps_delivered (new : List α) (hlen : bytes.length = hashed.length)
    (hnext : hashed.length + new.length < next) (hsize : hashed.length + new.length ≤ m.size) :
    (delivered bytes hashed cp next received fromPeers).steps t m
        (new.map fun b => .peerReceive [b]) =
      some (delivered (bytes ++ new) (hashed ++ new) cp next (received + new.length)
        (fromPeers + new.length)) := by
  induction new generalizing bytes hashed received fromPeers with
  | nil => simp
  | cons b new ih =>
    rw [length_cons] at hnext hsize
    have hlength : (hashed ++ [b]).length = hashed.length + 1 := length_append
    have hlength' : (bytes ++ [b]).length = bytes.length + 1 := length_append
    rw [map_cons, State.steps_cons, step_delivered_between b hlen (by omega) (by omega),
      Option.bind_some, ih (by omega) (by omega) (by omega), append_assoc, append_assoc,
      singleton_append, length_cons]
    congr 2
    · push_cast; ring
    · push_cast; ring

/-- The byte a checkpoint is due with. -/
theorem step_delivered_due (b : α) (hinterval : 0 < t.interval) (hlen : bytes.length = hashed.length)
    (hnext : hashed.length + 1 = next) (hsize : hashed.length + 1 ≤ m.size) :
    (delivered bytes hashed cp next received fromPeers).step t m (.peerReceive [b]) =
      some (delivered (bytes ++ [b]) (hashed ++ [b]) (.saved (hashed ++ [b]) true) (next + t.interval)
        (received + 1) (fromPeers + 1)) := by
  have hlength : (hashed ++ [b]).length = hashed.length + 1 := length_append
  have hdue : StreamHasher.due t.interval ⟨hashed, next⟩ [b] = true := by
    rw [StreamHasher.due, decide_eq_true_iff]
    exact ⟨hinterval, by dsimp only; omega⟩
  have hhash : StreamHasher.hash t.interval ⟨hashed, next⟩ [b] = ⟨hashed ++ [b], next + t.interval⟩ := by
    rw [StreamHasher.hash, if_pos hinterval, passBoundaries, if_pos (by dsimp only; omega),
      passBoundaries_of_lt (by dsimp only; omega)]
  rw [step_delivered b hlen hsize, hdue, hhash]
  rfl

/-- The last byte has come, and what was hashed passes. -/
theorem step_delivered_verify (hcheck : check m hashed) :
    (delivered bytes hashed cp next received fromPeers).step t m .peerVerify =
      some { dir := ⟨⟨bytes, ∅⟩, .saved hashed true⟩, proc := .finished
             received := received, fromPeers := fromPeers } := by
  have hall : ¬ hashed.length < m.size := Nat.not_lt.mpr (of_decide_eq_true hcheck).1.ge
  have hact : act t m ⟨⟨bytes, ∅⟩, cp⟩ (.peer ⟨hashed, next⟩) .peerVerify =
      some { ops := [.save hashed], proc := .finished } := (if_neg hall).trans (if_pos hcheck)
  rw [State.step, delivered, hact]
  simp [Dir.apply]

/-- A peer that is asked for a file nothing can be resumed of. -/
theorem step_peerBegin_anew {d : Dir α} (hoffset : resumableOffset m d = 0) :
    State.step t m { dir := d } .peerBegin = some (delivered [] [] d.checkpoint t.interval 0 0) := by
  have hnone : (resume m d).1 = [] := eq_nil_of_length_eq_zero ((length_resume m d).trans hoffset)
  have hact : act t m d .idle .peerBegin = some {
      ops := (resume m d).2, proc := .peer (.resumed t.interval (resume m d).1) } := rfl
  have hnext : StreamHasher.resumed t.interval ([] : List α) = ⟨[], t.interval⟩ := by
    rw [StreamHasher.resumed, if_neg fun h => absurd h.2 (lt_irrefl 0)]
  rw [State.step, hact, resume_ops, hoffset, hnone, hnext, delivered]
  simp [Dir.apply, Disk.File.truncate, Event.ofPeer]

/-- A peer that is asked for the rest of a file. -/
theorem step_peerBegin_resumed (hinterval : 0 < t.interval) (hlen : bytes.length = hashed.length)
    (hpos : 0 < hashed.length) (hsize : hashed.length ≤ m.size) :
    State.step t m { dir := ⟨⟨bytes, ∅⟩, .saved hashed true⟩ } .peerBegin =
      some (delivered bytes hashed (.saved hashed true) ((hashed.length / t.interval + 1) * t.interval)
        0 0) := by
  have hoffset : resumableOffset m ⟨⟨bytes, ∅⟩, .saved hashed true⟩ = hashed.length :=
    resumableOffset_saved rfl hsize hlen.ge
  have hhashed : (resume m ⟨⟨bytes, ∅⟩, .saved hashed true⟩).1 = hashed := by
    rw [resume_saved rfl hsize hlen.ge, if_pos rfl]
  have hact : act t m ⟨⟨bytes, ∅⟩, .saved hashed true⟩ .idle .peerBegin = some {
      ops := (resume m ⟨⟨bytes, ∅⟩, .saved hashed true⟩).2
      proc := .peer (.resumed t.interval (resume m ⟨⟨bytes, ∅⟩, .saved hashed true⟩).1) } := rfl
  have hnext : StreamHasher.resumed t.interval hashed =
      ⟨hashed, (hashed.length / t.interval + 1) * t.interval⟩ := by
    rw [StreamHasher.resumed, if_pos ⟨hinterval, hpos⟩]
  have hcut : bytes.take hashed.length = bytes := take_of_length_le hlen.le
  rw [State.step, hact, resume_ops, hoffset, hhashed, hnext, delivered]
  simp [Dir.apply, Disk.File.truncate, hcut, Event.ofPeer]

/-- A peer that delivers as many bytes as a checkpoint is written after. -/
theorem steps_delivered_interval (b : α) (hinterval : 0 < t.interval) (hsize : t.interval ≤ m.size) :
    (delivered [] [] cp t.interval received fromPeers).steps t m
        (List.replicate t.interval (.peerReceive [b])) =
      some (delivered (List.replicate t.interval b) (List.replicate t.interval b)
        (.saved (List.replicate t.interval b) true) (t.interval + t.interval)
        (received + t.interval) (fromPeers + t.interval)) := by
  obtain ⟨n, hn⟩ : ∃ n, t.interval = n + 1 := ⟨t.interval - 1, by omega⟩
  have hevents : replicate t.interval (Event.peerReceive [b]) =
      (replicate n b).map (fun b => Event.peerReceive [b]) ++ [.peerReceive [b]] := by
    rw [map_replicate, hn, replicate_succ']
  have hbytes : replicate t.interval b = replicate n b ++ [b] := by
    rw [hn, replicate_succ']
  have hlength : (replicate n b).length = n := length_replicate
  rw [hevents, hbytes, State.steps_append, steps_delivered _ rfl (by simp; omega) (by simp; omega),
    Option.bind_some, State.steps_cons, nil_append,
    step_delivered_due b hinterval rfl (by omega) (by omega), Option.bind_some, State.steps_nil, hlength]
  congr 2
  · rw [hn]; push_cast; ring
  · rw [hn]; push_cast; ring

end Deliver

section LongFile

variable {t : Tuning}

/-- A file one byte longer than a peer's checkpoints are apart. -/
def longFile (t : Tuning) : ManifestFile (UInt8) (List (UInt8)) :=
  plainFile (List.replicate (t.interval + 1) 1)

theorem size_longFile : (longFile t).size = t.interval + 1 := length_replicate

/-- A peer delivers the file up to its first checkpoint. -/
theorem steps_first_checkpoint (hpos : 0 < t.interval) {d : Dir (UInt8)}
    (hoffset : resumableOffset (longFile t) d = 0) (b : UInt8) :
    State.steps t (longFile t) { dir := d }
        (.peerBegin :: List.replicate t.interval (.peerReceive [b])) =
      some (delivered (List.replicate t.interval b) (List.replicate t.interval b)
        (.saved (List.replicate t.interval b) true) (t.interval + t.interval)
        t.interval t.interval) := by
  rw [State.steps_cons, step_peerBegin_anew hoffset, Option.bind_some,
    steps_delivered_interval b hpos (by rw [size_longFile]; omega), zero_add]

end LongFile

end GpuStack.Download
