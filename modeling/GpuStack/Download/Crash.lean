import GpuStack.Download.Layout

/-!
# Download/Crash — a file fetched over stops and crashes

A fetch may be cut short between any two of its effects, by its process or by its machine, and the next
one resumes from what it left.  A resume trusts the checkpoint, so a success is a success of the file on
disk as long as every checkpoint is of the bytes on disk (`Trusted`).

Two things break that.  A peer's checkpoint is written without a sync, so a machine crash can zero bytes
it covers; and a file that starts over keeps the checkpoint of before, which is taken for the new
bytes' once there are enough of them.  `Guard` is what a run has to avoid, and a run that does reports
success only of the file the manifest names.
-/

namespace GpuStack.Download

open List

variable {α δ : Type}

/-- A checkpoint the file is long enough for is of the bytes the file starts with. -/
def Trusted (d : Dir α) : Prop :=
  ∀ hashed readable, d.checkpoint = .saved hashed readable →
    hashed.length ≤ d.dest.bytes.length → OnDisk d hashed

/-! ## Runs -/

/-- Something that happens to a file: an event of its fetch, a process that stops with `done` effects of
an event made, or a machine that crashes then.  `readable` is whether the next process can restore the
state of a hash. -/
inductive Happening (α : Type)
  | event (e : Event α)
  | stop (during : Option (Event α)) (done : ℕ) (readable : Bool)
  | crash (during : Option (Event α)) (done : ℕ) (left : Disk.File α) (readable : Bool)

def Dir.rebuilt (d : Dir α) (readable : Bool) : Dir α :=
  match d.checkpoint with
  | .saved hashed _ => { d with checkpoint := .saved hashed readable }
  | _ => d

section Runs

variable [Zero α] [DecidableEq δ] (t : Tuning) (m : ManifestFile α δ) (s : State α)

/-- The directory some effects into an event, and what the fetch would go on with. -/
def State.partway : Option (Event α) → ℕ → Option (Dir α × Proc α)
  | none, _ => some (s.dir, s.proc)
  | some e, done =>
    (act t m s.dir s.proc e).map fun a => (s.dir.applyAll (a.ops.take done), a.proc)

inductive Happens : Happening α → State α → Prop
  | event (e : Event α) (s' : State α) (h : s.step t m e = some s') : Happens (.event e) s'
  | stop (during : Option (Event α)) (done : ℕ) (readable : Bool) (d : Dir α) (p : Proc α)
      (h : s.partway t m during done = some (d, p)) :
      Happens (.stop during done readable) { dir := d.rebuilt readable }
  | crash (during : Option (Event α)) (done : ℕ) (left : Disk.File α) (readable : Bool) (d : Dir α)
      (p : Proc α) (h : s.partway t m during done = some (d, p)) (hleft : Disk.File.Crash d.dest left) :
      Happens (.crash during done left readable)
        { dir := Dir.rebuilt { d with dest := left } readable }

/-- **A run of a file** from a directory that holds nothing of it, all of whose happenings are allowed. -/
inductive Run (allowed : State α → Happening α → Prop) : State α → Prop
  | start : Run allowed { dir := {} }
  | next (s s' : State α) (l : Happening α) (hrun : Run allowed s) (hallowed : allowed s l)
      (h : Happens t m s l s') : Run allowed s'

end Runs

/-! ## What a run has to avoid -/

/-- A fetch is under way. -/
def Proc.running : Proc α → Bool
  | .idle | .finished => false
  | _ => true

/-- A checkpoint the file is long enough for is one the running fetch continues, and not one of before
it started the file over. -/
def Continued (d : Dir α) (p p' : Proc α) : Prop :=
  p.running → ∀ hashed readable, d.checkpoint = .saved hashed readable →
    hashed.length ≤ d.dest.bytes.length → hashed <+: p.hashed ∨ hashed <+: p'.hashed

/-- What a checkpoint covers has reached the disk. -/
def Synced (d : Dir α) : Prop :=
  ∀ hashed readable, d.checkpoint = .saved hashed readable →
    hashed.length ≤ d.dest.bytes.length → d.dest.Durable hashed.length

section Guard

variable [DecidableEq δ] (m : ManifestFile α δ)

/-- **What a run has to avoid**: a peer given up, a stop or a crash while the file has outgrown a
checkpoint of before it was started over, and a crash before what a checkpoint covers is synced. -/
def Guard [Zero α] (t : Tuning) (s : State α) : Happening α → Prop
  | .event e => GivesUp m s.proc e → Continued s.dir s.proc s.proc
  | .stop during done _ => ∀ d p, s.partway t m during done = some (d, p) → Continued d s.proc p
  | .crash during done _ _ =>
    ∀ d p, s.partway t m during done = some (d, p) → Continued d s.proc p ∧ Synced d

end Guard

/-! ## Checkpoints that can be trusted -/

section Trust

variable {d : Dir α}

theorem OnDisk.of_isPrefix {hashed hashed' : List α} (h : OnDisk d hashed) (hp : hashed' <+: hashed) :
    OnDisk d hashed' := by
  obtain ⟨rest, rfl⟩ := hp
  have htake := congrArg (take hashed'.length) (show _ = _ from h)
  rw [take_take, take_left, length_append, Nat.min_eq_left (by omega)] at htake
  exact htake

theorem onDisk_nil : OnDisk d [] := rfl

/-- A checkpoint of what the fetch has hashed can be trusted. -/
theorem trusted_of_saved {hashed : List α} {readable : Bool} (h : OnDisk d hashed)
    (hd : d.checkpoint = .saved hashed readable) : Trusted d := by
  intro hashed' readable' hd' _
  cases hd.symm.trans hd'
  exact h

theorem trusted_of_absent (h : d.checkpoint = .absent) : Trusted d :=
  fun _ _ hd _ => absurd (h.symm.trans hd) (by simp)

theorem Trusted.rebuilt (h : Trusted d) (readable : Bool) : Trusted (d.rebuilt readable) := by
  unfold Dir.rebuilt
  split
  · next hashed readable' hd =>
    intro hashed' readable'' hd' hlen
    cases hd'
    exact h hashed readable' hd hlen
  · exact h

theorem Trusted.crash {left : Disk.File α} [Zero α] (h : Trusted d) (hsynced : Synced d)
    (hleft : Disk.File.Crash d.dest left) : Trusted { d with dest := left } := by
  intro hashed readable hd hlen
  have hlen' : hashed.length ≤ d.dest.bytes.length := le_trans hlen hleft.length
  have hkept := hleft.take hlen' (hsynced hashed readable hd hlen')
  exact hkept.trans (h hashed readable hd hlen')

variable (m : ManifestFile α δ)

/-- **A resume continues from bytes that are on disk.** -/
theorem Trusted.onDisk_resume [Zero α] (h : Trusted d) :
    OnDisk (d.applyAll [.truncate (resumableOffset m d)]) (resume m d).1 := by
  have hcut : ∀ n, (d.applyAll [.truncate n]).dest.bytes = d.dest.bytes.take n := fun _ => rfl
  rw [OnDisk, hcut, length_resume, take_take, Nat.min_self, resume, resumableOffset]
  split
  · next hashed readable hd =>
    split_ifs
    · rfl
    · rfl
    · exact h hashed readable hd (by omega)
    · rfl
  · rfl

/-- The cut a resume makes leaves its checkpoint. -/
theorem Trusted.truncate [Zero α] (h : Trusted d) :
    Trusted (d.applyAll [.truncate (resumableOffset m d)]) := by
  intro hashed readable hd hlen
  have hcut : (d.applyAll [.truncate (resumableOffset m d)]).dest.bytes =
      d.dest.bytes.take (resumableOffset m d) := rfl
  have hd' : d.checkpoint = .saved hashed readable := hd
  rw [hcut, length_take] at hlen
  rw [OnDisk, hcut, take_take, Nat.min_eq_left (by omega)]
  exact h hashed readable hd' (by omega)

end Trust

/-! ## An event cut short -/

/-- An effect that leaves the bytes of the file, or removes it. -/
def DiskOp.Keeps : DiskOp α → Prop
  | .write .. | .truncate _ => False
  | _ => True

section Partway

variable [Zero α] {t : Tuning} {m : ManifestFile α δ} {d : Dir α} {p : Proc α} {e : Event α} {a : Act α}

theorem bytes_of_keeps (d : Dir α) {ops : List (DiskOp α)} (hops : ∀ op ∈ ops, op.Keeps) :
    (d.applyAll ops).dest.bytes = d.dest.bytes ∨ (d.applyAll ops).dest.bytes = [] := by
  induction ops generalizing d with
  | nil => exact Or.inl rfl
  | cons op ops ih =>
    have hop : (d.apply op).dest.bytes = d.dest.bytes ∨ (d.apply op).dest.bytes = [] := by
      cases op with
      | write | truncate => exact absurd (hops _ mem_cons_self) id
      | sync | save | removeCheckpoint => exact Or.inl rfl
      | removeFile => exact Or.inr rfl
    rcases ih (d.apply op) fun o ho => hops o (.tail _ ho) with hsame | hnone
    · exact hop.imp hsame.trans hsame.trans
    · exact Or.inr hnone

omit [Zero α] in
theorem onDisk_congr {d' : Dir α} (hbytes : d'.dest.bytes = d.dest.bytes) {hashed : List α} :
    OnDisk d' hashed ↔ OnDisk d hashed := by
  rw [OnDisk, OnDisk, hbytes]

omit [Zero α] in
theorem onDisk_of_empty (hbytes : d.dest.bytes = []) {hashed : List α}
    (hlen : hashed.length ≤ d.dest.bytes.length) : OnDisk d hashed := by
  rw [hbytes] at hlen
  rw [eq_nil_of_length_eq_zero (Nat.le_zero.mp hlen)]
  exact onDisk_nil

/-- Effects that leave the bytes leave what is hashed of them. -/
theorem onDisk_of_keeps {ops : List (DiskOp α)} (hops : ∀ op ∈ ops, op.Keeps) {hashed : List α}
    (hlen : hashed.length ≤ (d.applyAll ops).dest.bytes.length) (h : OnDisk d hashed) :
    OnDisk (d.applyAll ops) hashed := by
  rcases bytes_of_keeps d hops with hsame | hnone
  · exact (onDisk_congr hsame).mpr h
  · exact onDisk_of_empty hnone hlen

/-- What an event has hashed without writing a byte was on disk before it. -/
theorem onDisk_before_of_keeps {ops : List (DiskOp α)} (hops : ∀ op ∈ ops, op.Keeps)
    {hashed : List α} (h : OnDisk (d.applyAll ops) hashed) : OnDisk d hashed := by
  rcases bytes_of_keeps d hops with hsame | hnone
  · exact (onDisk_congr hsame).mp h
  · have hnil : hashed = [] := by
      rw [← show _ = hashed from h, hnone, take_nil]
    rw [hnil]
    exact onDisk_nil

variable [DecidableEq δ]

/-- An event that writes no byte, cut short. -/
theorem onDisk_partway_of_keeps (hl : Layout m d p) (h : OnDisk d p.hashed) (hp : p ≠ .idle)
    (ht : Transition t m d p e a) (hops : ∀ op ∈ a.ops, op.Keeps) (done : ℕ) {hashed : List α}
    (hlen : hashed.length ≤ (d.applyAll (a.ops.take done)).dest.bytes.length)
    (hcont : hashed <+: p.hashed ∨ hashed <+: a.proc.hashed) :
    OnDisk (d.applyAll (a.ops.take done)) hashed := by
  refine onDisk_of_keeps (fun op hop => hops op (mem_of_mem_take hop)) hlen ?_
  rcases hcont with hbefore | hafter
  · exact h.of_isPrefix hbefore
  · exact (onDisk_before_of_keeps hops (onDisk_transition hl h hp ht)).of_isPrefix hafter

/-- An event that first writes bytes past what is hashed, cut short. -/
theorem onDisk_partway_of_write (hl : Layout m d p) (h : OnDisk d p.hashed) (hp : p ≠ .idle)
    (ht : Transition t m d p e a) {pos : ℕ} {bytes : List α} {ops : List (DiskOp α)}
    (ha : a.ops = .write pos bytes :: ops) (hops : ∀ op ∈ ops, op.Keeps)
    (hgrows : p.hashed <+: a.proc.hashed)
    (hshort : ∀ hashed, hashed <+: a.proc.hashed → hashed.length ≤ d.dest.bytes.length →
      OnDisk d hashed) (done : ℕ) {hashed : List α}
    (hlen : hashed.length ≤ (d.applyAll (a.ops.take done)).dest.bytes.length)
    (hcont : hashed <+: p.hashed ∨ hashed <+: a.proc.hashed) :
    OnDisk (d.applyAll (a.ops.take done)) hashed := by
  have hafter : hashed <+: a.proc.hashed := hcont.elim (fun h => h.trans hgrows) id
  have hdisk := onDisk_transition hl h hp ht
  rw [ha] at hlen hdisk ⊢
  cases done with
  | zero => exact hshort hashed hafter hlen
  | succ done =>
    refine onDisk_of_keeps (fun op hop => hops op (mem_of_mem_take hop)) hlen ?_
    exact (onDisk_before_of_keeps hops hdisk).of_isPrefix hafter

/-- **An event cut short leaves on disk what the fetch has hashed.** -/
theorem onDisk_partway (hl : Layout m d p) (h : OnDisk d p.hashed) (hp : p.running)
    (ht : Transition t m d p e a) (done : ℕ) {hashed : List α}
    (hlen : hashed.length ≤ (d.applyAll (a.ops.take done)).dest.bytes.length)
    (hcont : hashed <+: p.hashed ∨ hashed <+: a.proc.hashed) :
    OnDisk (d.applyAll (a.ops.take done)) hashed := by
  have hidle : p ≠ .idle := by rintro rfl; cases hp
  by_cases hkeeps : ∀ op ∈ a.ops, op.Keeps
  · exact onDisk_partway_of_keeps hl h hidle ht hkeeps done hlen hcont
  cases ht with
  | peerBegin | hubBegin | hubComplete => exact absurd rfl hidle
  | hashLast hashed last g hpos ops hops | hash hashed rest last last' g hrest hpos ops hops =>
    rcases hops with rfl | rfl <;> simp [checkpointOps, DiskOp.Keeps] at hkeeps
  | peerReceive h' chunk hne hchunk hlen' =>
    have htail : ∀ op ∈ (if h'.due t.interval chunk then [DiskOp.save (h'.hashed ++ chunk)] else []),
        op.Keeps := by
      intro op hop
      split at hop
      · cases mem_singleton.mp hop
        trivial
      · cases hop
    refine onDisk_partway_of_write hl h hidle (.peerReceive h' chunk hne hchunk hlen') rfl htail
      (prefix_append _ _) (fun hashed' hpre hshort => ?_) done hlen hcont
    have hlength : d.dest.bytes.length = h'.hashed.length := hl
    exact h.of_isPrefix (prefix_of_prefix_length_le hpre (prefix_append _ _)
      (hshort.trans hlength.le))
  | firstReceive hashed' pos whole bytes hne hchunk hlen' =>
    exact onDisk_partway_of_write hl h hidle (.firstReceive hashed' pos whole bytes hne hchunk hlen')
      rfl (by simp) (prefix_refl _) (fun _ hpre _ => h.of_isPrefix hpre) done hlen hcont
  | receive hashed' todo last i g bytes hget hwindow hne hchunk hlen' =>
    exact onDisk_partway_of_write hl h hidle
      (.receive hashed' todo last i g bytes hget hwindow hne hchunk hlen')
      rfl (by simp) (prefix_refl _) (fun _ hpre _ => h.of_isPrefix hpre) done hlen hcont
  | firstRestart hashed' pos whole hpos =>
    cases done with
    | zero =>
      rcases hcont with hbefore | hafter
      · exact h.of_isPrefix hbefore
      · exact onDisk_nil.of_isPrefix hafter
    | succ done =>
      dsimp only at hlen ⊢
      rw [take_succ_cons, take_nil] at hlen ⊢
      exact onDisk_of_empty (show d.dest.bytes.take 0 = [] from take_zero) hlen
  | _ => simp [checkpointOps, removeOps, DiskOp.Keeps] at hkeeps

/-! ## Every run -/

/-- What holds of a file in every guarded run: what its fetch has hashed is on disk, its checkpoint can
be trusted once no fetch is under way, and a file reported as fetched is the manifest's. -/
structure Sound (m : ManifestFile α δ) (s : State α) : Prop where
  layout : Layout m s.dir s.proc
  onDisk : OnDisk s.dir s.proc.hashed
  trusted : s.proc.running = false → Trusted s.dir
  exact_of_finished : s.proc = .finished → check m s.dir.dest.bytes

omit [Zero α] in
/-- A file that nothing is fetching. -/
theorem sound_of_trusted {d : Dir α} (h : Trusted d) :
    Sound m { dir := d } where
  layout := trivial
  onDisk := onDisk_nil
  trusted := fun _ => h
  exact_of_finished := fun hfinished => by cases hfinished

/-- **Wherever a fetch is cut short, its checkpoint can be trusted**, if it is one it continues. -/
theorem Sound.partway {s : State α} (hs : Sound m s) {during : Option (Event α)} {done : ℕ} {p' : Proc α}
    (h : s.partway t m during done = some (d, p')) (hcont : Continued d s.proc p') : Trusted d := by
  cases during with
  | none =>
    cases h
    by_cases hrun : s.proc.running
    · intro hashed readable hd hlen
      exact hs.onDisk.of_isPrefix ((hcont hrun hashed readable hd hlen).elim id id)
    · exact hs.trusted (Bool.eq_false_iff.mpr hrun)
  | some e =>
    obtain ⟨a, hact, hda⟩ := Option.map_eq_some_iff.mp h
    cases hda
    have ht := transition_of_act hact
    by_cases hrun : s.proc.running
    · intro hashed readable hd hlen
      exact onDisk_partway hs.layout hs.onDisk hrun ht done hlen (hcont hrun hashed readable hd hlen)
    · -- Only a resume starts from a file nothing is fetching.
      have htrusted := hs.trusted (Bool.eq_false_iff.mpr hrun)
      have hcut : a.ops = [.truncate (resumableOffset m s.dir)] := by
        generalize s.proc = p at ht hrun
        cases ht with
        | peerBegin | hubBegin | hubComplete => rfl
        | fail _ hp | mismatch _ hp => cases p <;> simp_all [Proc.fetching, Proc.running]
        | _ => exact absurd rfl hrun
      rw [hcut]
      cases done with
      | zero => exact htrusted
      | succ done =>
        rw [take_succ_cons, take_nil]
        exact htrusted.truncate m

theorem Sound.onDisk_event {s : State α} (hs : Sound m s) (ht : Transition t m s.dir s.proc e a) :
    OnDisk (s.dir.applyAll a.ops) a.proc.hashed := by
  by_cases hidle : s.proc = .idle
  · have htrusted := hs.trusted (by rw [hidle]; rfl)
    rw [hidle] at ht
    cases ht with
    | peerBegin | hubBegin | hubComplete => exact htrusted.onDisk_resume m
    | fail _ hp | mismatch _ hp => cases hp
  · exact onDisk_transition hs.layout hs.onDisk hidle ht

/-- A fetch that is over leaves a checkpoint that can be trusted. -/
theorem Sound.trusted_event {s : State α} (hs : Sound m s) (ht : Transition t m s.dir s.proc e a)
    (hguard : GivesUp m s.proc e → Continued s.dir s.proc s.proc) (hover : a.proc.running = false) :
    Trusted (s.dir.applyAll a.ops) := by
  obtain ⟨hl, hdisk, -, -⟩ := hs
  generalize s.proc = p at hl hdisk ht hguard
  -- A peer given up leaves the directory as it is.
  have hgiven : GivesUp m p e → p.running → Trusted s.dir := fun hgives hrun hashed readable hd hlen =>
    hdisk.of_isPrefix ((hguard hgives hrun hashed readable hd hlen).elim id id)
  cases ht with
  | peerFail h' hlt => exact hgiven (Or.inl rfl) rfl
  | peerRefused h' hcheck => exact hgiven (Or.inr ⟨rfl, hcheck⟩) rfl
  | peerVerified | checked | fail => exact trusted_of_saved hdisk rfl
  | mismatch | refused => exact trusted_of_absent rfl
  | _ => cases hover

/-- **One happening.** -/
theorem Sound.next {s s' : State α} {l : Happening α} (hs : Sound m s) (hguard : Guard m t s l)
    (h : Happens t m s l s') : Sound m s' := by
  cases h with
  | event e s' hstep =>
    obtain ⟨a, ht, rfl⟩ := State.transition_of_step hstep
    exact ⟨layout_transition hs.layout ht, hs.onDisk_event ht, hs.trusted_event ht hguard,
      check_transition hs.layout hs.onDisk ht⟩
  | stop during done readable d p hpart =>
    exact sound_of_trusted ((hs.partway hpart (hguard d p hpart)).rebuilt readable)
  | crash during done left readable d p hpart hleft =>
    obtain ⟨hcont, hsynced⟩ := hguard d p hpart
    exact sound_of_trusted (((hs.partway hpart hcont).crash hsynced hleft).rebuilt readable)

theorem sound_of_run {s : State α} (hrun : Run t m (Guard m t) s) : Sound m s := by
  induction hrun with
  | start => exact sound_of_trusted (trusted_of_absent rfl)
  | next s s' l hrun hguard h ih => exact ih.next hguard h

end Partway

/-- Events are happenings. -/
theorem Run.steps [Zero α] [DecidableEq δ] {t : Tuning} {m : ManifestFile α δ}
    {allowed : State α → Happening α → Prop} {s s' : State α} {es : List (Event α)}
    (hrun : Run t m allowed s) (hallowed : ∀ e ∈ es, ∀ s, allowed s (.event e))
    (h : s.steps t m es = some s') : Run t m allowed s' :=
  State.steps_induction (fun e he s s' hstep hs =>
    .next s s' (.event e) hs (hallowed e he s) (.event e s' hstep)) h hrun

/-! ## Two ways to lose a checkpoint's bytes -/

section Lost

variable {t : Tuning}

/-- A peer delivers the last byte of a file whose checkpoint is of other bytes, and it passes. -/
theorem steps_last_byte (hpos : 1 < t.interval) {bytes : List (UInt8)}
    (hlen : bytes.length = t.interval) :
    State.steps t (longFile t) { dir := ⟨⟨bytes, ∅⟩, .saved (List.replicate t.interval 1) true⟩ }
        [.peerBegin, .peerReceive [1], .peerVerify] =
      some { dir := ⟨⟨bytes ++ [1], ∅⟩, .saved (List.replicate t.interval 1 ++ [1]) true⟩
             proc := .finished, received := 0 + 1, fromPeers := 0 + 1 } := by
  have hlength : (replicate t.interval (1 : UInt8)).length = t.interval := length_replicate
  have hsize := size_longFile (t := t)
  have hnext : (t.interval / t.interval + 1) * t.interval = t.interval + t.interval := by
    rw [Nat.div_self (by omega)]
    omega
  have hcheck : check (longFile t) (replicate t.interval 1 ++ [1]) = true := by
    rw [← replicate_succ', check, decide_eq_true_iff]
    exact ⟨rfl, rfl⟩
  rw [State.steps_cons, step_peerBegin_resumed (by omega) (by omega) (by omega) (by omega),
    Option.bind_some, State.steps_cons, hlength, hnext,
    step_delivered_between 1 (by omega) (by omega) (by omega), Option.bind_some, State.steps_cons,
    step_delivered_verify hcheck, Option.bind_some, State.steps_nil]

/-- Bytes of the file before its last that are not the content's. -/
theorem hash_ne_digest (hpos : 0 < t.interval) {b : UInt8} (hb : b ≠ 1) :
    (longFile t).hash (List.replicate t.interval b ++ [1]) ≠ (longFile t).digest := by
  intro heq
  have hdigest : replicate t.interval b ++ [1] = replicate (t.interval + 1) 1 := heq
  have hmem : b ∈ replicate t.interval b ++ [1] := by simp [hpos.ne']
  rw [hdigest] at hmem
  exact hb (eq_of_mem_replicate hmem)

end Lost

section Counterexamples

variable {t : Tuning} {crashes : Bool}

def Happening.isCrash : Happening α → Bool
  | .crash .. => true
  | _ => false

/-- A run of the long file in which anything may happen, a machine crash only where `crashes`. -/
abbrev AnyRun (t : Tuning) (crashes : Bool) (s : State (UInt8)) : Prop :=
  Run t (longFile t) (fun _ l => l.isCrash = true → crashes = true) s

theorem AnyRun.events {s s' : State (UInt8)} {es : List (Event (UInt8))} (hrun : AnyRun t crashes s)
    (h : s.steps t (longFile t) es = some s') : AnyRun t crashes s' :=
  Run.steps hrun (fun _ _ _ he => by cases he) h

/-- The process stops some effects into an event, or between two. -/
theorem AnyRun.stopped {s : State (UInt8)} (hrun : AnyRun t crashes s)
    {during : Option (Event (UInt8))} {done : ℕ} {d : Dir (UInt8)} {p : Proc (UInt8)}
    (h : s.partway t (longFile t) during done = some (d, p)) :
    AnyRun t crashes { dir := d.rebuilt true } :=
  .next _ _ (.stop during done true) hrun (fun he => by cases he) (.stop during done true d p h)

/-- A file of other bytes under the checkpoint of the content's is reported as fetched. -/
theorem AnyRun.spoiled (hpos : 1 < t.interval) {b : UInt8} (hb : b ≠ 1)
    (hrun : AnyRun t crashes
      { dir := ⟨⟨List.replicate t.interval b, ∅⟩, .saved (List.replicate t.interval 1) true⟩ }) :
    ∃ s, AnyRun t crashes s ∧ s.proc = .finished ∧
      (longFile t).hash s.dir.dest.bytes ≠ (longFile t).digest :=
  ⟨_, hrun.events (steps_last_byte hpos length_replicate), rfl, hash_ne_digest (by omega) hb⟩

/-- A machine crash zeroes what a peer's checkpoint covers. -/
theorem anyRun_crashed (hpos : 0 < t.interval) : AnyRun t true
    { dir := ⟨⟨List.replicate t.interval 0, ∅⟩, .saved (List.replicate t.interval 1) true⟩ } := by
  have hdelivered : AnyRun t true _ :=
    AnyRun.events .start (steps_first_checkpoint (t := t) hpos rfl 1)
  have hcrash : Disk.File.Crash ⟨replicate t.interval (1 : UInt8), ∅⟩
      ⟨replicate t.interval 0, ∅⟩ := by
    refine ⟨by rw [length_replicate, length_replicate], ?_, ?_⟩
    · intro i hi
      exact absurd hi (Finset.notMem_empty i)
    · intro i hi
      rw [length_replicate] at hi
      exact Or.inr (getElem?_replicate_of_lt hi)
  exact .next _ _ (.crash none 0 _ true) hdelivered (fun _ => rfl)
    (.crash none 0 _ true _ _ rfl hcrash)

/-- The hub is asked for the rest of a file. -/
theorem step_hubBegin_resumed {m : ManifestFile α δ} [Zero α] [DecidableEq δ] {bytes hashed : List α}
    {pos : ℕ} (hlen : bytes.length = hashed.length) (hpos : hashed.length = pos) (hsize : pos < m.size) :
    State.step t m { dir := ⟨⟨bytes, ∅⟩, .saved hashed true⟩ } .hubBegin =
      some { dir := ⟨⟨bytes, ∅⟩, .saved hashed true⟩, proc := .first hashed pos false } := by
  subst hpos
  have hhashed : (resume m ⟨⟨bytes, ∅⟩, .saved hashed true⟩).1 = hashed := by
    rw [resume_saved rfl hsize.le hlen.ge, if_pos rfl]
  have hops : (resume m ⟨⟨bytes, ∅⟩, .saved hashed true⟩).2 = [.truncate hashed.length] := by
    rw [resume_ops, resumableOffset_saved rfl hsize.le hlen.ge]
  have hact : act t m ⟨⟨bytes, ∅⟩, .saved hashed true⟩ .idle .hubBegin = some {
      ops := [.truncate hashed.length], proc := .first hashed hashed.length false } := by
    rw [act_of_hub rfl, hubAct, hops, hhashed, if_pos hsize]
  have hcut : bytes.take hashed.length = bytes := take_of_length_le hlen.le
  rw [State.step, hact]
  simp [Dir.apply, Disk.File.truncate, hcut, Event.ofPeer]

/-- A hub that does not honor a resume makes the file start over, and the process stops there: the
checkpoint of before is still on disk. -/
theorem anyRun_started_over (hpos : 0 < t.interval) : AnyRun t crashes
    { dir := ⟨⟨[], ∅⟩, .saved (List.replicate t.interval 1) true⟩ } := by
  have hdelivered : AnyRun t crashes _ :=
    AnyRun.events .start (steps_first_checkpoint (t := t) hpos rfl 1)
  have hstopped : AnyRun t crashes
      { dir := ⟨⟨replicate t.interval 1, ∅⟩, .saved (replicate t.interval 1) true⟩ } :=
    hdelivered.stopped (show State.partway t (longFile t) _ none 0 = some (_, _) from rfl)
  have hlength : (replicate t.interval (1 : UInt8)).length = t.interval := length_replicate
  have hsize : t.interval < (longFile t).size := size_longFile ▸ Nat.lt_succ_self t.interval
  have hbegun : AnyRun t crashes
      { dir := ⟨⟨replicate t.interval 1, ∅⟩, .saved (replicate t.interval 1) true⟩
        proc := .first (replicate t.interval 1) t.interval false } :=
    .next _ _ (.event .hubBegin) hstopped (fun he => by cases he)
      (.event _ _ (step_hubBegin_resumed rfl hlength hsize))
  have hpart : State.partway t (longFile t)
      { dir := ⟨⟨replicate t.interval 1, ∅⟩, .saved (replicate t.interval 1) true⟩
        proc := .first (replicate t.interval 1) t.interval false } (some .hubRestart) 1 =
      some (⟨⟨[], ∅⟩, .saved (replicate t.interval 1) true⟩, .first [] 0 false) := by
    rw [State.partway, act_hubRestart (by omega)]
    rfl
  exact hbegun.stopped hpart

/-- Other bytes come in until there are as many as the checkpoint of before covers, and the process
stops before they are checkpointed themselves. -/
theorem anyRun_outgrown (hpos : 0 < t.interval) : AnyRun t crashes
    { dir := ⟨⟨List.replicate t.interval 2, ∅⟩, .saved (List.replicate t.interval 1) true⟩ } := by
  obtain ⟨n, hn⟩ : ∃ n, t.interval = n + 1 := ⟨t.interval - 1, by omega⟩
  have hlength : (replicate n (2 : UInt8)).length = n := length_replicate
  have hsize := size_longFile (t := t)
  have hanew : State.step t (longFile t)
      { dir := ⟨⟨[], ∅⟩, .saved (replicate t.interval 1) true⟩ } .peerBegin = _ :=
    step_peerBegin_anew (resumableOffset_short rfl (by rw [length_replicate]; exact hpos))
  have hbegun : AnyRun t crashes _ := (anyRun_started_over hpos).events
    (show State.steps t (longFile t) _ [.peerBegin] = some _ by rw [State.steps_cons, hanew]; rfl)
  have hmost := hbegun.events (steps_delivered (replicate n 2) rfl (by simp; omega) (by simp; omega))
  have hbytes : [] ++ replicate n (2 : UInt8) ++ [2] = replicate t.interval 2 := by
    rw [nil_append, hn, replicate_succ']
  have hpart : (delivered ([] ++ replicate n 2) ([] ++ replicate n 2)
      (.saved (replicate t.interval (1 : UInt8)) true) t.interval
      (0 + (replicate n (2 : UInt8)).length) (0 + (replicate n (2 : UInt8)).length)).partway
        t (longFile t) (some (.peerReceive [2])) 1 =
      some (⟨⟨replicate t.interval 2, ∅⟩, .saved (replicate t.interval 1) true⟩,
        .peer (StreamHasher.hash t.interval ⟨[] ++ replicate n 2, t.interval⟩ [2])) := by
    rw [State.partway, delivered, act_delivered 2 (by simp; omega), Option.map_some]
    dsimp only
    rw [take_succ_cons, take_zero, Dir.applyAll_cons, Dir.applyAll_nil,
      write_delivered 2 rfl, hbytes]
  exact hmost.stopped hpart

end Counterexamples

/-- **A fetched file is the file the manifest names**, over every run that is guarded: whenever a fetch
reports success the bytes on disk have the manifest's size and digest. -/
theorem fetched_matches_manifest [Zero α] [DecidableEq δ] (t : Tuning) (m : ManifestFile α δ)
    (s : State α) (hrun : Run t m (Guard m t) s) (hfinished : s.proc = .finished) :
    s.dir.dest.bytes.length = m.size ∧ m.hash s.dir.dest.bytes = m.digest := by
  have hcheck := (sound_of_run hrun).exact_of_finished hfinished
  exact of_decide_eq_true hcheck

/-- A byte comes from a peer that is then cut off by a crash, and from the hub. -/
theorem fetched_matches_manifest_after_crash :
    (∃ s, Run defaultTuning (plainFile [7]) (Guard (plainFile [7]) defaultTuning) s ∧
        s.proc = .finished ∧ s.dir.dest.bytes.length = (plainFile [7]).size ∧
          (plainFile [7]).hash s.dir.dest.bytes = (plainFile [7]).digest) := by
  have hbegun : Run defaultTuning (plainFile [7]) (Guard (plainFile [7]) defaultTuning)
      (delivered [] [] .absent defaultTuning.interval 0 0) :=
    .next _ _ (.event .peerBegin) .start (fun h => by rcases h with h | ⟨h, -⟩ <;> cases h)
      (.event _ _ (step_peerBegin_anew rfl))
  have hdelivered := Run.next _ _ (.event (.peerReceive [7])) hbegun
    (fun h => by rcases h with h | ⟨h, -⟩ <;> cases h)
    (.event _ _ (step_delivered_between 7 rfl (by decide) le_rfl))
  -- No checkpoint is on disk for the crash to outlive.
  have hcrashed := Run.next _ { dir := {} } (.crash none 0 {} true) hdelivered
    (fun d p hpart => by
      cases hpart
      exact ⟨fun _ _ _ hd => (by cases hd), fun _ _ hd => (by cases hd)⟩)
    (.crash none 0 {} true _ _ rfl ⟨Nat.zero_le _, fun i hi => absurd hi (Finset.notMem_empty i),
      fun i hi => absurd hi (Nat.not_lt_zero i)⟩)
  have hfetched := hcrashed.steps (fun e he s hgives => by rcases hgives with rfl | ⟨rfl, -⟩ <;> simp at he)
    (show State.steps _ _ _ [.hubBegin, .hubReceive 0 [7], .hubHash, .hubCheck] = some _ from rfl)
  exact ⟨_, hfetched, rfl, fetched_matches_manifest _ _ _ hfetched rfl⟩

/-- **A crash that zeroes what a peer's checkpoint covers, and a checkpoint that outlives the file it is
of**: either way, the second without any crash, bytes that are not the content's are reported as
fetched. -/
theorem fetched_matches_manifest_fails :
    (∃ s, AnyRun defaultTuning true s ∧ s.proc = .finished ∧
        (longFile defaultTuning).hash s.dir.dest.bytes ≠ (longFile defaultTuning).digest) ∧
      ∃ s, AnyRun defaultTuning false s ∧ s.proc = .finished ∧
        (longFile defaultTuning).hash s.dir.dest.bytes ≠ (longFile defaultTuning).digest := by
  have hpos : 1 < defaultTuning.interval := by norm_num [defaultTuning]
  exact ⟨(anyRun_crashed (by omega)).spoiled hpos (by decide),
    (anyRun_outgrown (by omega)).spoiled hpos (by decide)⟩

end GpuStack.Download
