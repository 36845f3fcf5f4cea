import GpuStack.Download.Verify

/-!
# Download/Machine — a file fetched from peers and from the hub

The fetch of one file, event by event.  A peer is read in byte order, each chunk written, hashed and now
and then checkpointed.  The hub is read in segments: the first alone, the rest at once within a window,
each hashed from disk when the bytes before it are; a hub that does not honor ranges makes the file
start over.  Requests, retries and the order the segments arrive in are the events; a request that
fails is retried from its last byte, which changes nothing here.

Each event is a list of effects on the directory, what the fetch goes on with, and what it tells the
attempt's count.
-/

namespace GpuStack.Download

variable {α δ : Type}

/-- The tuning of a fetch: how often a peer's bytes are checkpointed, the most bytes that are read at
once, the hub's segment and window, and how often the hub's bytes are checkpointed. -/
structure Tuning where
  interval : ℕ
  readChunk : ℕ
  segment : ℕ
  window : ℕ
  checkpointBytes : ℕ
  readChunk_pos : 0 < readChunk
  segment_pos : 0 < segment
  window_pos : 0 < window

/-- The tuning the code runs with. -/
def defaultTuning : Tuning where
  interval := 64 * 2 ^ 20
  readChunk := 32 * 2 ^ 10
  segment := 64 * 2 ^ 20
  window := 4
  checkpointBytes := 256 * 2 ^ 20
  readChunk_pos := by norm_num
  segment_pos := by norm_num
  window_pos := by norm_num

/-- A byte range of the hub's, received up to `pos`. -/
structure Segment where
  start : ℕ
  pos : ℕ
  stop : ℕ
deriving DecidableEq, Repr

/-- What the fetch of a file is doing. -/
inductive Proc (α : Type)
  | idle
  /-- Reading a peer. -/
  | peer (h : StreamHasher α)
  /-- Reading the hub's first segment, from the hashed bytes on; `whole` once the hub has answered with
  all of the file. -/
  | first (hashed : List α) (pos : ℕ) (whole : Bool)
  /-- Reading the hub's other segments. -/
  | parallel (hashed : List α) (todo : List Segment) (lastCheckpoint : ℕ)
  /-- Every byte is hashed. -/
  | verify (hashed : List α)
  | finished
deriving DecidableEq

/-- The bytes the verifier has hashed. -/
def Proc.hashed : Proc α → List α
  | .peer h => h.hashed
  | .first hashed _ _ | .parallel hashed _ _ | .verify hashed => hashed
  | .idle | .finished => []

/-- Segments of the hub are being read. -/
def Proc.fetching : Proc α → Bool
  | .first .. | .parallel .. => true
  | _ => false

inductive Event (α : Type)
  | peerBegin
  | peerReceive (chunk : List α)
  | peerFail
  | peerVerify
  | hubBegin
  | hubReceive (i : ℕ) (bytes : List α)
  | hubWhole
  | hubRetry
  | hubRestart
  | hubHash
  | hubFail
  | hubMismatch
  | hubCheck
deriving DecidableEq

def Event.ofPeer : Event α → Bool
  | .peerBegin | .peerReceive _ | .peerFail | .peerVerify => true
  | _ => false

/-- An event of the hub's fetch once it has begun. -/
def Event.ofHub : Event α → Bool
  | .peerBegin | .peerReceive _ | .peerFail | .peerVerify | .hubBegin => false
  | _ => true

/-- What an event does: the effects in their order, what the fetch goes on with, and what the count is
told. -/
structure Act (α : Type) where
  ops : List (DiskOp α) := []
  proc : Proc α
  count : ℤ := 0
deriving DecidableEq

/-- The segments of `[start, size)`; there are no more than `fuel`. -/
def segments (segment size : ℕ) : ℕ → ℕ → List Segment
  | 0, _ => []
  | fuel + 1, start =>
    if start < size then
      ⟨start, start, min (start + segment) size⟩ :: segments segment size fuel (start + segment)
    else []

/-- The hashed bytes once those of a range have been read back from disk. -/
def hashedTo (d : Dir α) (hashed : List α) (start stop : ℕ) : List α :=
  hashed ++ (d.dest.bytes.drop start).take (stop - start)

/-- Where the first request ends: the segment's end, or the file's once the hub sends all of it. -/
def firstStop (t : Tuning) (m : ManifestFile α δ) (hashed : List α) (whole : Bool) : ℕ :=
  if whole then m.size else min (hashed.length + t.segment) m.size

/-- A checkpoint of the hub path: the file is synced, then the hashed position recorded. -/
def checkpointOps (hashed : List α) : List (DiskOp α) := [.sync, .save hashed]

def removeOps : List (DiskOp α) := [.removeFile, .removeCheckpoint]

section Step

variable [DecidableEq δ] (t : Tuning) (m : ManifestFile α δ) (d : Dir α)

/-- A peer's file: resume, receive, verify. -/
def peerAct : Proc α → Event α → Option (Act α)
  | .idle, .peerBegin =>
    some { ops := (resume m d).2, proc := .peer (.resumed t.interval (resume m d).1) }
  | .peer h, .peerReceive chunk =>
    if chunk ≠ [] ∧ chunk.length ≤ t.readChunk ∧ (h.hashed ++ chunk).length ≤ m.size then some {
      -- The bytes are on disk before the hash covers them; nothing is synced.
      ops := .write h.hashed.length chunk ::
        (if h.due t.interval chunk then [.save (h.hashed ++ chunk)] else [])
      proc := .peer (h.hash t.interval chunk)
      count := chunk.length }
    else none
  | .peer h, .peerFail => if h.hashed.length < m.size then some { proc := .idle } else none
  | .peer h, .peerVerify =>
    if h.hashed.length < m.size then none
    else if check m h.hashed then some { ops := [.save h.hashed], proc := .finished }
    else some { proc := .idle }
  | _, _ => none

/-- The hub's first segment. -/
def firstAct (hashed : List α) (pos : ℕ) (whole : Bool) : Event α → Option (Act α)
  | .hubReceive 0 bytes =>
    if bytes ≠ [] ∧ bytes.length ≤ t.readChunk ∧ pos + bytes.length ≤ firstStop t m hashed whole then
      some { ops := [.write pos bytes], proc := .first hashed (pos + bytes.length) whole
             count := bytes.length }
    else none
  | .hubWhole => if pos = 0 ∧ whole = false then some { proc := .first hashed pos true } else none
  | .hubRetry => some { proc := .first hashed pos false }
  -- A resume the hub does not honor: all the file was counted as holding is told back.
  | .hubRestart =>
    if 0 < hashed.length then some { ops := [.truncate 0], proc := .first [] 0 false, count := -pos }
    else none
  | .hubHash =>
    if firstStop t m hashed whole ≤ pos then
      let hashed' := hashedTo d hashed hashed.length pos
      if m.size ≤ pos then some { proc := .verify hashed' }
      else some { proc := .parallel hashed' (segments t.segment m.size m.size pos) hashed'.length }
    else none
  | .hubFail => some { ops := checkpointOps hashed, proc := .idle }
  | .hubMismatch => some { ops := checkpointOps hashed ++ removeOps, proc := .idle }
  | _ => none

/-- The hub's other segments, each within the window, hashed in their order. -/
def parallelAct (hashed : List α) (todo : List Segment) (lastCheckpoint : ℕ) :
    Event α → Option (Act α)
  | .hubReceive i bytes =>
    match todo[i]? with
    | none => none
    | some s =>
      if i < t.window ∧ bytes ≠ [] ∧ bytes.length ≤ t.readChunk ∧ s.pos + bytes.length ≤ s.stop then
        some { ops := [.write s.pos bytes]
               proc := .parallel hashed (todo.set i { s with pos := s.pos + bytes.length }) lastCheckpoint
               count := bytes.length }
      else none
  | .hubHash =>
    match todo with
    | [] => none
    | s :: rest =>
      if s.pos = s.stop then
        let hashed' := hashedTo d hashed s.start s.stop
        let due := lastCheckpoint + t.checkpointBytes ≤ hashed'.length ∧ hashed'.length < m.size
        some { ops := if due then checkpointOps hashed' else []
               proc := if rest = [] then .verify hashed'
                 else .parallel hashed' rest (if due then hashed'.length else lastCheckpoint) }
      else none
  | .hubFail => some { ops := checkpointOps hashed, proc := .idle }
  | .hubMismatch => some { ops := checkpointOps hashed ++ removeOps, proc := .idle }
  | _ => none

/-- The hub's file: resume, the first segment, the others, the check. -/
def hubAct : Proc α → Event α → Option (Act α)
  | .idle, .hubBegin =>
    some { ops := (resume m d).2
           proc := if (resume m d).1.length < m.size then
               .first (resume m d).1 (resume m d).1.length false
             else .verify (resume m d).1 }
  | .first hashed pos whole, e => firstAct t m d hashed pos whole e
  | .parallel hashed todo last, e => parallelAct t m d hashed todo last e
  | .verify hashed, .hubCheck =>
    if check m hashed then some { ops := .sync :: checkpointOps hashed, proc := .finished }
    else some { ops := .sync :: removeOps, proc := .idle }
  | _, _ => none

/-- **What an event does**, if it can happen. -/
def act (p : Proc α) (e : Event α) : Option (Act α) :=
  if e.ofPeer then peerAct t m d p e else hubAct t m d p e

variable {t m d}

theorem act_of_hub {p : Proc α} {e : Event α} (he : e.ofPeer = false) :
    act t m d p e = hubAct t m d p e :=
  if_neg (by rw [he]; exact Bool.false_ne_true)

theorem act_hubRestart {hashed : List α} {pos : ℕ} {whole : Bool} (hpos : 0 < hashed.length) :
    act t m d (.first hashed pos whole) .hubRestart =
      some { ops := [.truncate 0], proc := .first [] 0 false, count := -pos } :=
  if_pos hpos

end Step

/-- A peer is given up. -/
def GivesUp [DecidableEq δ] (m : ManifestFile α δ) (p : Proc α) (e : Event α) : Prop :=
  e = .peerFail ∨ e = .peerVerify ∧ ¬ check m p.hashed

/-! ## What an event can do -/

/-- **The transitions of a fetch**, each with the guard it is taken under. -/
inductive Transition (t : Tuning) (m : ManifestFile α δ) (d : Dir α) [DecidableEq δ] :
    Proc α → Event α → Act α → Prop
  | peerBegin : Transition t m d .idle .peerBegin
      { ops := [.truncate (resumableOffset m d)], proc := .peer (.resumed t.interval (resume m d).1) }
  | peerReceive (h : StreamHasher α) (chunk : List α) (hne : chunk ≠ [])
      (hchunk : chunk.length ≤ t.readChunk) (hlen : (h.hashed ++ chunk).length ≤ m.size) :
      Transition t m d (.peer h) (.peerReceive chunk)
        { ops := .write h.hashed.length chunk ::
            (if h.due t.interval chunk then [.save (h.hashed ++ chunk)] else [])
          proc := .peer (h.hash t.interval chunk), count := chunk.length }
  | peerFail (h : StreamHasher α) (hlt : h.hashed.length < m.size) :
      Transition t m d (.peer h) .peerFail { proc := .idle }
  | peerVerified (h : StreamHasher α) (hcheck : check m h.hashed) :
      Transition t m d (.peer h) .peerVerify { ops := [.save h.hashed], proc := .finished }
  | peerRefused (h : StreamHasher α) (hcheck : ¬ check m h.hashed) :
      Transition t m d (.peer h) .peerVerify { proc := .idle }
  | hubBegin (hlt : resumableOffset m d < m.size) : Transition t m d .idle .hubBegin
      { ops := [.truncate (resumableOffset m d)]
        proc := .first (resume m d).1 (resumableOffset m d) false }
  | hubComplete (hle : m.size ≤ resumableOffset m d) : Transition t m d .idle .hubBegin
      { ops := [.truncate (resumableOffset m d)], proc := .verify (resume m d).1 }
  | firstReceive (hashed : List α) (pos : ℕ) (whole : Bool) (bytes : List α) (hne : bytes ≠ [])
      (hchunk : bytes.length ≤ t.readChunk) (hlen : pos + bytes.length ≤ firstStop t m hashed whole) :
      Transition t m d (.first hashed pos whole) (.hubReceive 0 bytes)
        { ops := [.write pos bytes], proc := .first hashed (pos + bytes.length) whole
          count := bytes.length }
  | firstWhole (hashed : List α) : Transition t m d (.first hashed 0 false) .hubWhole
      { proc := .first hashed 0 true }
  | firstRetry (hashed : List α) (pos : ℕ) (whole : Bool) :
      Transition t m d (.first hashed pos whole) .hubRetry { proc := .first hashed pos false }
  | firstRestart (hashed : List α) (pos : ℕ) (whole : Bool) (hpos : 0 < hashed.length) :
      Transition t m d (.first hashed pos whole) .hubRestart
        { ops := [.truncate 0], proc := .first [] 0 false, count := -pos }
  | firstLast (hashed : List α) (pos : ℕ) (whole : Bool) (hstop : firstStop t m hashed whole ≤ pos)
      (hsize : m.size ≤ pos) : Transition t m d (.first hashed pos whole) .hubHash
        { proc := .verify (hashedTo d hashed hashed.length pos) }
  | firstHash (hashed : List α) (pos : ℕ) (whole : Bool) (hstop : firstStop t m hashed whole ≤ pos)
      (hsize : pos < m.size) : Transition t m d (.first hashed pos whole) .hubHash
        { proc := .parallel (hashedTo d hashed hashed.length pos)
            (segments t.segment m.size m.size pos) (hashedTo d hashed hashed.length pos).length }
  | receive (hashed : List α) (todo : List Segment) (last i : ℕ) (g : Segment) (bytes : List α)
      (hget : todo[i]? = some g) (hwindow : i < t.window) (hne : bytes ≠ [])
      (hchunk : bytes.length ≤ t.readChunk) (hlen : g.pos + bytes.length ≤ g.stop) :
      Transition t m d (.parallel hashed todo last) (.hubReceive i bytes)
        { ops := [.write g.pos bytes]
          proc := .parallel hashed (todo.set i { g with pos := g.pos + bytes.length }) last
          count := bytes.length }
  | hashLast (hashed : List α) (last : ℕ) (g : Segment) (hpos : g.pos = g.stop) (ops : List (DiskOp α))
      (hops : ops = [] ∨ ops = checkpointOps (hashedTo d hashed g.start g.stop)) :
      Transition t m d (.parallel hashed [g] last) .hubHash
        { ops := ops, proc := .verify (hashedTo d hashed g.start g.stop) }
  | hash (hashed : List α) (rest : List Segment) (last last' : ℕ) (g : Segment) (hrest : rest ≠ [])
      (hpos : g.pos = g.stop) (ops : List (DiskOp α))
      (hops : ops = [] ∨ ops = checkpointOps (hashedTo d hashed g.start g.stop)) :
      Transition t m d (.parallel hashed (g :: rest) last) .hubHash
        { ops := ops, proc := .parallel (hashedTo d hashed g.start g.stop) rest last' }
  | fail (p : Proc α) (hp : p.fetching) : Transition t m d p .hubFail
      { ops := checkpointOps p.hashed, proc := .idle }
  | mismatch (p : Proc α) (hp : p.fetching) : Transition t m d p .hubMismatch
      { ops := checkpointOps p.hashed ++ removeOps, proc := .idle }
  | checked (hashed : List α) (hcheck : check m hashed) :
      Transition t m d (.verify hashed) .hubCheck
        { ops := .sync :: checkpointOps hashed, proc := .finished }
  | refused (hashed : List α) (hcheck : ¬ check m hashed) :
      Transition t m d (.verify hashed) .hubCheck { ops := .sync :: removeOps, proc := .idle }

section Inversion

variable [DecidableEq δ] {t : Tuning} {m : ManifestFile α δ} {d : Dir α} {a : Act α} {e : Event α}

theorem transition_peerAct {p : Proc α} (h : peerAct t m d p e = some a) : Transition t m d p e a := by
  unfold peerAct at h
  split at h
  · cases h
    rw [resume_ops]
    exact .peerBegin
  · obtain ⟨⟨hne, hchunk, hlen⟩, ⟨⟩⟩ := Option.ite_none_right_eq_some.mp h
    exact .peerReceive _ _ hne hchunk hlen
  · obtain ⟨hlt, ⟨⟩⟩ := Option.ite_none_right_eq_some.mp h
    exact .peerFail _ hlt
  · obtain ⟨-, h⟩ := Option.ite_none_left_eq_some.mp h
    split at h
    · next hcheck => cases h; exact .peerVerified _ hcheck
    · next hcheck => cases h; exact .peerRefused _ hcheck
  · cases h

theorem transition_firstAct {hashed : List α} {pos : ℕ} {whole : Bool}
    (h : firstAct t m d hashed pos whole e = some a) :
    Transition t m d (.first hashed pos whole) e a := by
  unfold firstAct at h
  split at h
  · obtain ⟨⟨hne, hchunk, hlen⟩, ⟨⟩⟩ := Option.ite_none_right_eq_some.mp h
    exact .firstReceive hashed pos whole _ hne hchunk hlen
  · obtain ⟨⟨rfl, rfl⟩, ⟨⟩⟩ := Option.ite_none_right_eq_some.mp h
    exact .firstWhole hashed
  · cases h; exact .firstRetry hashed pos whole
  · obtain ⟨hpos, ⟨⟩⟩ := Option.ite_none_right_eq_some.mp h
    exact .firstRestart hashed pos whole hpos
  · obtain ⟨hstop, h⟩ := Option.ite_none_right_eq_some.mp h
    dsimp only at h
    split at h
    · next hsize => cases h; exact .firstLast hashed pos whole hstop hsize
    · next hsize => cases h; exact .firstHash hashed pos whole hstop (Nat.lt_of_not_le hsize)
  · cases h; exact .fail (.first hashed pos whole) rfl
  · cases h; exact .mismatch (.first hashed pos whole) rfl
  · cases h

theorem transition_parallelAct {hashed : List α} {todo : List Segment} {last : ℕ}
    (h : parallelAct t m d hashed todo last e = some a) :
    Transition t m d (.parallel hashed todo last) e a := by
  unfold parallelAct at h
  split at h
  · split at h
    · cases h
    · next g hget =>
      obtain ⟨⟨hwindow, hne, hchunk, hlen⟩, ⟨⟩⟩ := Option.ite_none_right_eq_some.mp h
      exact .receive hashed todo last _ g _ hget hwindow hne hchunk hlen
  · split at h
    · cases h
    · next g rest =>
      obtain ⟨hpos, ⟨⟩⟩ := Option.ite_none_right_eq_some.mp h
      -- A checkpoint is written, or none is due.
      have hops : ∀ (due : Prop) [Decidable due] (hashed' : List α),
          (if due then checkpointOps hashed' else []) = [] ∨
            (if due then checkpointOps hashed' else []) = checkpointOps hashed' :=
        fun due _ hashed' => (ite_eq_or_eq due _ _).symm
      by_cases hrest : rest = []
      · subst hrest
        rw [if_pos rfl]
        exact .hashLast hashed last g hpos _ (hops _ _)
      · rw [if_neg hrest]
        exact .hash hashed rest last _ g hrest hpos _ (hops _ _)
  · cases h; exact .fail (.parallel hashed todo last) rfl
  · cases h; exact .mismatch (.parallel hashed todo last) rfl
  · cases h

theorem transition_hubAct {p : Proc α} (h : hubAct t m d p e = some a) : Transition t m d p e a := by
  unfold hubAct at h
  split at h
  · cases h
    rw [resume_ops, length_resume]
    split
    · next hlt => exact .hubBegin hlt
    · next hlt => exact .hubComplete (Nat.le_of_not_lt hlt)
  · exact transition_firstAct h
  · exact transition_parallelAct h
  · next hashed =>
    split at h
    · next hcheck => cases h; exact .checked hashed hcheck
    · next hcheck => cases h; exact .refused hashed hcheck
  · cases h

/-- **Every event is one of the transitions.** -/
theorem transition_of_act {p : Proc α} (h : act t m d p e = some a) : Transition t m d p e a := by
  unfold act at h
  split at h
  · exact transition_peerAct h
  · exact transition_hubAct h

end Inversion

/-! ## An attempt -/

/-- The file of an attempt: its directory, what its fetch is doing, the attempt's received count as far
as this file goes, and what of it came from peers. -/
structure State (α : Type) where
  dir : Dir α
  proc : Proc α := .idle
  received : ℤ := 0
  fromPeers : ℤ := 0

/-- One event of an attempt. -/
def State.step [Zero α] [DecidableEq δ] (t : Tuning) (m : ManifestFile α δ) (s : State α) (e : Event α) :
    Option (State α) :=
  (act t m s.dir s.proc e).map fun a => {
    dir := s.dir.applyAll a.ops
    proc := a.proc
    received := s.received + a.count
    fromPeers := if e.ofPeer then s.fromPeers + a.count else s.fromPeers }

/-- Events one after the other, each of them possible. -/
def State.steps [Zero α] [DecidableEq δ] (t : Tuning) (m : ManifestFile α δ) (s : State α)
    (es : List (Event α)) : Option (State α) :=
  es.foldlM (State.step t m) s

section Steps

variable [Zero α] [DecidableEq δ] {t : Tuning} {m : ManifestFile α δ} {s s' : State α}
theorem State.transition_of_step {e : Event α} (h : s.step t m e = some s') :
    ∃ a, Transition t m s.dir s.proc e a ∧ s' = {
      dir := s.dir.applyAll a.ops, proc := a.proc, received := s.received + a.count
      fromPeers := if e.ofPeer then s.fromPeers + a.count else s.fromPeers } := by
  obtain ⟨a, hact, rfl⟩ := Option.map_eq_some_iff.mp h
  exact ⟨a, transition_of_act hact, rfl⟩


@[simp] theorem State.steps_nil : s.steps t m [] = some s := rfl

theorem State.steps_cons (e : Event α) (es : List (Event α)) :
    s.steps t m (e :: es) = (s.step t m e).bind fun s' => s'.steps t m es := rfl

theorem State.steps_append (es es' : List (Event α)) :
    s.steps t m (es ++ es') = (s.steps t m es).bind fun s' => s'.steps t m es' :=
  List.foldlM_append ..

theorem State.steps_cons_eq_some {e : Event α} {es : List (Event α)}
    (h : s.steps t m (e :: es) = some s') :
    ∃ s₁, s.step t m e = some s₁ ∧ s₁.steps t m es = some s' :=
  Option.bind_eq_some_iff.mp h

/-- What one event keeps, a run of them keeps. -/
theorem State.steps_induction {P : State α → Prop} {es : List (Event α)}
    (hstep : ∀ e ∈ es, ∀ s s' : State α, s.step t m e = some s' → P s → P s')
    (h : s.steps t m es = some s') (hs : P s) : P s' := by
  induction es generalizing s with
  | nil => cases h; exact hs
  | cons e es ih =>
    obtain ⟨s₁, h₁, hes⟩ := State.steps_cons_eq_some h
    exact ih (fun e' he' => hstep e' (List.mem_cons_of_mem _ he')) hes
      (hstep e List.mem_cons_self s s₁ h₁ hs)

end Steps

/-- The state an attempt starts the file in: the count is seeded with what a resume carries over. -/
def State.start (m : ManifestFile α δ) (d : Dir α) : State α :=
  { dir := d, received := resumableOffset m d }

/-- The peers are spent, and what they delivered is withdrawn. -/
def State.fallBack (s : State α) : State α :=
  { s with received := s.received - s.fromPeers, fromPeers := 0 }

end GpuStack.Download
