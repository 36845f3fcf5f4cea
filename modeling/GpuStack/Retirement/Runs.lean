import GpuStack.Lib.History
import GpuStack.Retirement.Plan

/-!
# Retirement/Runs — a replica is retired only when it is drained

Runs of the protocol: passes over whatever they read, each from what the one before left on the
server.  A pass keeps nothing in memory, so a crash between two passes is no step at all, and one
inside a pass is a write that does not land.

`retired_only_when_drained`: a Pod the protocol deletes is a captured target of a reservation that was
out of selection, then out of the routers' traffic, then read idle, then recorded; and an aborted
reservation deletes nothing until it is retried.

`deletion_never_forgotten`: the server holds an operation that deleted until its release is observed.
-/

namespace GpuStack.Retirement

open List

open History

/-! ## One pass -/

/-- The pass took a removal over, as the reservation `q`. -/
structure Admitted (reads : PassReads) (q : RetirementStatus) : Prop where
  state : q.state = .admitted
  intent : ∃ intent, (reads.departing = some intent ∨ reads.surplus = some intent) ∧
    q.roleName = intent.role ∧ q.replicaOrdinal = intent.ordinal ∧
    q.targetMemberUIDs = (uids intent.members).insertionSort (· ≤ ·)
  stored : q.stored = q

/-- An admission is refused while something is in flight or held. -/
theorem admitRetirement_cases (reads : PassReads) (intent : Option RemovalIntent)
    (hintent : reads.departing = intent ∨ reads.surplus = intent) (plan : RetirementPlan) (s : Server) :
    let admitted := admitRetirement reads intent plan s
    (admitted = (plan, s)) ∨ (plan.hold = false ∧ admitted.1.hold = true ∧
      admitted.1.deletes = plan.deletes ∧ admitted.1.deletesAllowed = plan.deletesAllowed ∧
      ∃ q, admitted.2.reservation = some q ∧ Admitted reads q) := by
  intro admitted
  simp only [admitted, admitRetirement]
  split
  · exact .inl rfl
  next intent =>
  split
  · exact .inl rfl
  next hfree =>
  split
  · exact .inl rfl
  split
  · exact .inl rfl
  refine .inr ⟨by simpa using (not_or.mp hfree).2, rfl, rfl, rfl, _, rfl, ?_⟩
  exact ⟨rfl, ⟨intent, hintent, rfl, rfl, rfl⟩, stored_stored _⟩

theorem mem_issued {fails : String → Bool} {pods : List MemberPod} {pod : MemberPod}
    (h : pod ∈ issued fails pods) : pod ∈ pods := by
  induction pods with
  | nil => exact h
  | cons first pods ih =>
    rw [issued] at h
    split at h
    · exact mem_cons.mpr (.inl (mem_singleton.mp h))
    · exact (mem_cons.mp h).elim (fun h => mem_cons.mpr (.inl h))
        fun h => mem_cons_of_mem _ (ih h)

variable {reads : PassReads} {r : RetirementStatus} {deploymentUID : String} {s persisted : Server}
  {plan : RetirementPlan}

theorem Moved.operation {recorded : ReleaseAnnotation} {q : RetirementStatus}
    (h : Moved deploymentUID reads recorded r q) : q.operation = r.operation := by
  cases h with
  | aborted same _ _ => exact same
  | _ => rfl

theorem Moved.stored {recorded : ReleaseAnnotation} {q : RetirementStatus}
    (h : Moved deploymentUID reads recorded r q) (hr : r.stored = r) : q.stored = q := by
  cases h with
  | stayed reason => exact stored_of_state hr r.state
  | aborted _ _ stored => exact stored
  | leftSelection reason => exact stored_of_state hr .disqualified
  | quiet reason => exact stored_of_state hr .withdrawing
  | began reason => exact stored_of_second hr .draining reads.now
  | released reason => exact stored_of_second hr .deleting reads.now
  | gone reason => exact stored_of_second hr .settling reads.now

/-- What a pass leaves of the reservation it found: nothing, a move of it, or a retry. -/
inductive Leaves (deploymentUID : String) (reads : PassReads) (r : RetirementStatus) (s : Server) : Prop
  | cleared (h : s.reservation = none)
  | moved {q : RetirementStatus} (hq : s.reservation = some q)
      (h : Moved deploymentUID reads s.recorded r q)
  | retried {q : RetirementStatus} (hq : s.reservation = some q) (h : Retries reads r q)

/-- What the server holds once the plan is made, whether or not its write lands. -/
theorem leaves_of_plan (hr : s.reservation = some r) (hstored : r.stored = r) :
    Leaves deploymentUID reads r (planRetirement deploymentUID s reads).2 := by
  obtain ⟨-, hkept⟩ | ⟨-, -, q, hretries, hq, -⟩ := planned_plan hr hstored
  · exact .moved hkept (.stayed r.reason)
  · exact .retried hq hretries

theorem leaves_of_persist (hr : s.reservation = some r) (hstored : r.stored = r)
    (h : persistRetirement reads (planRetirement deploymentUID s reads).1 (planRetirement
      deploymentUID s reads).2 = some persisted) :
    Leaves deploymentUID reads r persisted := by
  rw [persistRetirement] at h
  split at h
  · obtain rfl := Option.some.inj h
    exact leaves_of_plan hr hstored
  split at h
  · obtain rfl := Option.some.inj h
    obtain ⟨hplanned, -⟩ | ⟨-, -, q, hretries, -, hnext⟩ := planned_plan hr hstored
    · cases hnext : (planRetirement deploymentUID s reads).1.next with
      | none => exact .cleared rfl
      | some q => exact .moved rfl (hplanned.next q hnext)
    · exact .retried hnext hretries
  · cases h

/-- What one pass does to the reservation it finds. -/
structure PassSpec (deploymentUID : String) (r : RetirementStatus) (e : Entry) : Prop where
  leaves : Leaves deploymentUID e.reads r e.persisted
  after : e.after = e.persisted ∨ ∃ q, e.after.reservation = some q ∧ Admitted e.reads q
  deletes : ∀ pod ∈ e.deleted, e.after = e.persisted ∧ pod ∈ retirementTarget r e.reads.pods ∧
    ∃ q, e.persisted.reservation = some q ∧ q.state = .deleting ∧
      Moved deploymentUID e.reads e.persisted.recorded r q

/-- A plan that deletes holds its target, and its state is `deleting` on the server. -/
theorem deleting_of_persist (hr : s.reservation = some r) (hstored : r.stored = r)
    (h : persistRetirement reads (planRetirement deploymentUID s reads).1 (planRetirement
      deploymentUID s reads).2 = some persisted)
    (hdeletes : (planRetirement deploymentUID s reads).1.deletes ≠ []) :
    (planRetirement deploymentUID s reads).1.hold = true ∧
      (planRetirement deploymentUID s reads).1.deletes = retirementTarget r reads.pods ∧
      ∃ q, persisted.reservation = some q ∧ q.state = .deleting ∧
        Moved deploymentUID reads persisted.recorded r q := by
  obtain ⟨hplanned, hkept⟩ | ⟨hnone, -⟩ := planned_plan hr hstored
  · obtain ⟨hhold, htarget, q, hq, hstate⟩ := hplanned.deletes hdeletes
    refine ⟨hhold, htarget, ?_⟩
    rw [persistRetirement, hq, hkept] at h
    split at h
    · next hsame =>
      obtain rfl := Option.some.inj h
      obtain rfl := Option.some.inj hsame
      exact ⟨r, hkept, hstate, .stayed r.reason⟩
    split at h
    · obtain rfl := Option.some.inj h
      exact ⟨q.stored, rfl, hstate, hplanned.next q hq⟩
    · cases h
  · exact absurd hnone hdeletes

theorem admitRetirement_of_hold {intent : Option RemovalIntent} (h : plan.hold = true) :
    admitRetirement reads intent plan s = (plan, s) := by
  cases intent with
  | none => rfl
  | some intent => exact if_pos (.inr h)

theorem after_cases (reads : PassReads) (plan : RetirementPlan) (s : Server) :
    let first := admitRetirement reads reads.departing plan s
    let second := admitRetirement reads reads.surplus first.1 first.2
    second.2 = s ∨ ∃ q, second.2.reservation = some q ∧ Admitted reads q := by
  intro first second
  obtain hfirst | ⟨-, hhold, -, -, q, hq, hadmitted⟩ :=
    admitRetirement_cases reads reads.departing (.inl rfl) plan s
  · obtain hsecond | ⟨-, -, -, -, q, hq, hadmitted⟩ :=
      admitRetirement_cases reads reads.surplus (.inr rfl) plan s
    · left
      simp only [second, first, hfirst, hsecond]
    · right
      simp only [second, first, hfirst]
      exact ⟨q, hq, hadmitted⟩
  · right
    have hsecond : second = first := admitRetirement_of_hold hhold
    rw [hsecond]
    exact ⟨q, hq, hadmitted⟩

theorem commitRetirement_of_nil {before : Server} (h : plan.deletes = []) :
    commitRetirement reads before persisted plan s =
      { reads, before, persisted, after := (admitRetirement reads reads.surplus plan s).2 } :=
  if_pos (.inr h)

/-- A commit under a hold admits nothing, and sends deletes only for what the plan deletes. -/
theorem commitRetirement_of_hold (reads : PassReads) (before persisted s : Server)
    (h : plan.hold = true) :
    let e := commitRetirement reads before persisted plan s
    e.reads = reads ∧ e.persisted = persisted ∧ e.after = s ∧ ∀ pod ∈ e.deleted, pod ∈ plan.deletes := by
  simp only [commitRetirement, admitRetirement_of_hold h]
  split
  · exact ⟨rfl, rfl, rfl, by simp⟩
  split
  · exact ⟨rfl, rfl, rfl, fun _ => mem_issued⟩
  split
  · exact ⟨rfl, rfl, rfl, fun _ => mem_issued⟩
  · exact ⟨rfl, rfl, rfl, fun _ => mem_issued⟩

/-- **What a pass does.** -/
theorem passSpec_pass (deploymentUID : String) (hr : s.reservation = some r)
    (hstored : r.stored = r) (reads : PassReads) :
    PassSpec deploymentUID r (pass deploymentUID s reads) := by
  simp only [pass]
  split
  · exact ⟨leaves_of_plan hr hstored, .inl rfl, by simp⟩
  next persisted hpersist =>
  have hleaves := leaves_of_persist hr hstored hpersist
  by_cases hdeletes : (planRetirement deploymentUID s reads).1.deletes = []
  · have hfirst : (admitRetirement reads reads.departing (planRetirement deploymentUID s reads).1
        persisted).1.deletes = [] := by
      obtain h | ⟨-, -, h, -⟩ := admitRetirement_cases reads reads.departing (.inl rfl)
        (planRetirement deploymentUID s reads).1 persisted
      · rw [h]; exact hdeletes
      · rw [h]; exact hdeletes
    rw [commitRetirement_of_nil hfirst]
    exact ⟨hleaves, after_cases reads _ persisted, by simp⟩
  · obtain ⟨hhold, htarget, hdeleting⟩ := deleting_of_persist hr hstored hpersist hdeletes
    rw [admitRetirement_of_hold hhold]
    obtain ⟨hreads, hpersisted, hafter, hdeleted⟩ :=
      commitRetirement_of_hold reads s persisted persisted hhold
    refine ⟨?_, .inl (hafter.trans hpersisted.symm), fun pod hpod => ?_⟩
    · rw [hreads, hpersisted]
      exact hleaves
    · rw [hafter, hpersisted, hreads]
      exact ⟨rfl, htarget ▸ hdeleted pod hpod, hdeleting⟩

/-- A pass that finds no reservation deletes nothing. -/
theorem pass_of_none (deploymentUID : String) (hs : s.reservation = none) (reads : PassReads) :
    let e := pass deploymentUID s reads
    e.deleted = [] ∧ (e.after = s ∨ ∃ q, e.after.reservation = some q ∧ Admitted e.reads q) := by
  have hplan : planRetirement deploymentUID s reads = ({}, s) := by rw [planRetirement, hs]
  have hpersist : persistRetirement reads {} s = some s := if_pos hs
  have hdeletes : (admitRetirement reads reads.departing {} s).1.deletes = [] := by
    obtain h | ⟨-, -, h, -⟩ := admitRetirement_cases reads reads.departing (.inl rfl) {} s
    · rw [h]
    · rw [h]
  simp only [pass, hplan, hpersist, commitRetirement_of_nil hdeletes]
  exact ⟨trivial, after_cases reads {} s⟩

/-! ## Runs -/

/-- **A run**: passes over anything they may read; between them anyone may edit the annotation. -/
inductive Run (deploymentUID : String) : List Entry → Server → Prop
  | start (recorded : ReleaseAnnotation) : Run deploymentUID [] ⟨none, recorded⟩
  | pass {log : List Entry} {s : Server} (h : Run deploymentUID log s) (reads : PassReads) :
      Run deploymentUID (pass deploymentUID s reads :: log) (pass deploymentUID s reads).after
  | edit {log : List Entry} {s : Server} (h : Run deploymentUID log s)
      (recorded : ReleaseAnnotation) : Run deploymentUID log { s with recorded }

namespace Entry

/-- The pass moved the reservation of an operation from one state to another, and persisted it. -/
def Moves (e : Entry) (op : Operation) (was is : RetirementState)
    (seen : RetirementStatus → Prop) : Prop :=
  ∃ b q, e.before.reservation = some b ∧ e.persisted.reservation = some q ∧ b.state = was ∧
    q.state = is ∧ q.operation = op ∧ seen b

/-- No member the pass listed carries the eligibility label. -/
def LeftSelection (op : Operation) (e : Entry) : Prop :=
  e.Moves op .admitted .disqualified fun b => retirementTarget b e.reads.pods ≠ [] ∧
    ∀ pod ∈ retirementTarget b e.reads.pods, pod.eligible = false

/-- The routers were observed without residual traffic to the target. -/
def Quiet (op : Operation) (e : Entry) : Prop :=
  e.Moves op .disqualified .withdrawing fun b =>
    Unserved e.reads.residual (uids (retirementTarget b e.reads.pods))

/-- The drain began, at the second `began`. -/
def Began (began : ℤ) (op : Operation) (e : Entry) : Prop :=
  e.Moves op .withdrawing .draining fun _ => began = wholeSeconds e.reads.now

/-- The target was read idle, or the encoder's window from `began` was spent; and the release of every
target is on the server. -/
def Released (deploymentUID : String) (began : ℤ) (op : Operation) (e : Entry) : Prop :=
  e.Moves op .draining .deleting fun b => b.phaseStartedAt = began ∧ Emptied e.reads b ∧
    ∃ record, e.persisted.recorded = .recorded record ∧ record.Shows deploymentUID b

/-- The pass left the operation running. -/
def Continues (op : Operation) (e : Entry) : Prop :=
  ∃ q, e.persisted.reservation = some q ∧ e.after = e.persisted ∧ q.operation = op ∧
    q.state ≠ .aborted

/-- The pass consumed a new retry directive for an aborted reservation. -/
def Retry (e : Entry) : Prop :=
  ∃ b q token, e.before.reservation = some b ∧ b.state = .aborted ∧
    newDirective e.reads b = some token ∧ b.lastConsumedRetryToken ≠ token ∧
    e.after.reservation = some q ∧ q.lastConsumedRetryToken = token

/-- The pass admitted a new reservation. -/
def Admission (e : Entry) : Prop := ∃ q, e.after.reservation = some q ∧ Admitted e.reads q

/-- The pass started the operation. -/
def Starts (op : Operation) (e : Entry) : Prop :=
  (e.Retry ∨ e.Admission) ∧ ∃ q, e.after.reservation = some q ∧ q.state = .admitted ∧ q.operation = op

end Entry

/-! ## What the states show -/

/-- The target left selection. -/
def Disqualified (op : Operation) : List Entry → Prop := Once (Entry.LeftSelection op) fun _ => True

/-- Then the routers were seen without it. -/
def Withdrawn (op : Operation) : List Entry → Prop := Once (Entry.Quiet op) (Disqualified op)

/-- Then the drain began. -/
def Draining (began : ℤ) (op : Operation) : List Entry → Prop :=
  Once (Entry.Began began op) (Withdrawn op)

/-- Then the target was read idle and its release recorded. -/
def ProvablyDrained (deploymentUID : String) (op : Operation) (log : List Entry) : Prop :=
  ∃ began, Once (Entry.Released deploymentUID began op) (Draining began op) log

/-- What the log of an operation shows, by the state it has come to. -/
def Shown (deploymentUID : String) (r : RetirementStatus) : List Entry → Prop :=
  match r.state with
  | .disqualified => Disqualified r.operation
  | .withdrawing => Withdrawn r.operation
  | .draining => Draining r.phaseStartedAt r.operation
  | .deleting | .settling => ProvablyDrained deploymentUID r.operation
  | _ => fun _ => True

/-- A reservation that is not aborted has been running since a pass that started it, and the log since
then shows its state. -/
def Traced (deploymentUID : String) (log : List Entry) (r : RetirementStatus) : Prop :=
  r.state = .aborted ∨ Since (Entry.Continues r.operation) (Entry.Starts r.operation)
    (Shown deploymentUID r) log

section Step

variable {deploymentUID : String} {log : List Entry} {e : Entry} {r q : RetirementStatus}

theorem ProvablyDrained.cons {op : Operation} (h : ProvablyDrained deploymentUID op log) :
    ProvablyDrained deploymentUID op (e :: log) := by
  obtain ⟨began, h⟩ := h
  exact ⟨began, h.cons⟩

/-- What a log shows it goes on showing. -/
theorem Shown.cons (h : Shown deploymentUID r log) : Shown deploymentUID r (e :: log) := by
  cases hstate : r.state with
  | disqualified => rw [Shown, hstate] at h ⊢; exact Once.cons h
  | withdrawing => rw [Shown, hstate] at h ⊢; exact Once.cons h
  | draining => rw [Shown, hstate] at h ⊢; exact Once.cons h
  | deleting => rw [Shown, hstate] at h ⊢; exact h.cons
  | settling => rw [Shown, hstate] at h ⊢; exact h.cons
  | admitted => rw [Shown, hstate]; trivial
  | aborted => rw [Shown, hstate]; trivial
  | completed => rw [Shown, hstate]; trivial

/-- **A move shows what its new state needs.** -/
theorem Shown.move {recent : List Entry} (hr : e.before.reservation = some r)
    (hq : e.persisted.reservation = some q)
    (hmoved : Moved deploymentUID e.reads e.persisted.recorded r q)
    (h : Shown deploymentUID r recent) : Shown deploymentUID q (e :: recent) := by
  cases hmoved with
  -- The reason is not part of what a state shows.
  | stayed reason => exact Shown.cons (r := r) h
  | aborted _ state _ => simp only [Shown, state]
  | leftSelection reason was target label =>
    exact Once.head ⟨r, _, hr, hq, was, rfl, rfl, target, label⟩ trivial
  | quiet reason was unserved =>
    rw [Shown, was] at h
    exact Once.head ⟨r, _, hr, hq, was, rfl, rfl, unserved⟩ h
  | began reason was =>
    rw [Shown, was] at h
    exact Once.head ⟨r, _, hr, hq, was, rfl, rfl, rfl⟩ h
  | released reason was emptied record written shows =>
    rw [Shown, was] at h
    exact ⟨r.phaseStartedAt, Once.head
      ⟨r, _, hr, hq, was, rfl, rfl, rfl, emptied, record, written, shows⟩ h⟩
  | gone reason was =>
    rw [Shown, was] at h
    exact h.cons

theorem Moved.of_aborted (h : Moved deploymentUID e.reads e.persisted.recorded r q)
    (hr : r.state = .aborted) : q.state = .aborted := by
  cases h with
  | stayed reason => exact hr
  | aborted _ state _ => exact state
  | leftSelection _ was => simp [hr] at was
  | quiet _ was => simp [hr] at was
  | began _ was => simp [hr] at was
  | released _ was => simp [hr] at was
  | gone _ was => simp [hr] at was

theorem Traced.move (h : Traced deploymentUID log r) (hr : e.before.reservation = some r)
    (hq : e.persisted.reservation = some q) (hafter : e.after = e.persisted)
    (hmoved : Moved deploymentUID e.reads e.persisted.recorded r q) :
    Traced deploymentUID (e :: log) q := by
  by_cases haborted : q.state = .aborted
  · exact .inl haborted
  obtain hstate | h := h
  · exact absurd (hmoved.of_aborted hstate) haborted
  · rw [Traced, hmoved.operation]
    exact .inr (h.cons ⟨q, hq, hafter, hmoved.operation, haborted⟩ fun recent => Shown.move hr hq hmoved)

theorem Traced.start (hstart : e.Retry ∨ e.Admission) (hq : e.after.reservation = some q)
    (hstate : q.state = .admitted) : Traced deploymentUID (e :: log) q := by
  refine .inr (Since.head ⟨hstart, q, hq, hstate, rfl⟩ ?_)
  rw [Shown, hstate]
  trivial

theorem newDirective_eq_some {reads : PassReads} {token : String}
    (h : newDirective reads r = some token) :
    r.state = .aborted ∧ r.lastConsumedRetryToken ≠ token := by
  rw [newDirective] at h
  split at h
  · cases h
  split at h
  · cases h
  split at h
  · cases h
  next hreplay =>
  split at h
  · cases h
  next hstate =>
  obtain rfl := Option.some.inj h
  exact ⟨not_not.mp hstate, hreplay⟩

end Step

theorem pass_before (deploymentUID : String) (s : Server) (reads : PassReads) :
    (pass deploymentUID s reads).before = s := by
  simp only [pass, commitRetirement]
  repeat' split
  all_goals rfl

/-- Every reservation on the server is stored in whole seconds and traced by the log. -/
def Invariant (deploymentUID : String) (log : List Entry) (s : Server) : Prop :=
  ∀ r, s.reservation = some r → r.stored = r ∧ Traced deploymentUID log r

/-- **A pass keeps the trace.** -/
theorem invariant_pass {log : List Entry} (h : Invariant deploymentUID log s) (reads : PassReads) :
    Invariant deploymentUID (pass deploymentUID s reads :: log) (pass deploymentUID s reads).after := by
  intro q hq
  have hadmission : (∃ q, (pass deploymentUID s reads).after.reservation = some q ∧
      Admitted (pass deploymentUID s reads).reads q) → q.stored = q ∧
      Traced deploymentUID (pass deploymentUID s reads :: log) q := by
    rintro ⟨q', hq', hadmitted⟩
    obtain rfl := Option.some.inj (hq.symm.trans hq')
    exact ⟨hadmitted.stored, .start (.inr ⟨q, hq, hadmitted⟩) hq hadmitted.state⟩
  cases hs : s.reservation with
  | none =>
    obtain ⟨-, hafter | hnew⟩ := pass_of_none deploymentUID hs reads
    · simp [hafter, hs] at hq
    · exact hadmission hnew
  | some r =>
    obtain ⟨hstored, htraced⟩ := h r hs
    have hspec := passSpec_pass deploymentUID hs hstored reads
    have hbefore : (pass deploymentUID s reads).before.reservation = some r := by
      rw [pass_before, hs]
    obtain hafter | hnew := hspec.after
    · rw [hafter] at hq
      cases hspec.leaves with
      | cleared hnone => simp [hnone] at hq
      | moved hq' hmoved =>
        obtain rfl := Option.some.inj (hq.symm.trans hq')
        exact ⟨hmoved.stored hstored, htraced.move hbefore hq hafter hmoved⟩
      | retried hq' hretries =>
        obtain rfl := Option.some.inj (hq.symm.trans hq')
        obtain ⟨token, htoken, rfl⟩ := hretries
        obtain ⟨hstate, hfresh⟩ := newDirective_eq_some htoken
        rw [← hafter] at hq
        exact ⟨stored_stored _,
          .start (.inl ⟨r, _, token, hbefore, hstate, htoken, hfresh, hq, rfl⟩) hq rfl⟩
    · exact hadmission hnew

theorem invariant_run {log : List Entry} (h : Run deploymentUID log s) :
    Invariant deploymentUID log s := by
  induction h with
  | start recorded => exact fun r hr => absurd hr (by simp)
  | pass _ reads ih => exact invariant_pass ih reads
  | edit _ recorded ih => exact ih

/-- One Pod, which is its own replica. -/
def solePod : MemberPod :=
  { uid := "u-0", name := "decode-0", role := "decode", ordinalLabel := "0", memberIndex := some "0" }

/-- An engine that has nothing in flight. -/
def idleAnswer : DrainAnswer :=
  { state := .idle, complete := true
    series := [("vllm:num_requests_running", .finite 0), ("vllm:num_requests_waiting", .finite 0)] }

/-- A pass at a second, over the one Pod with an idle engine and quiet routers. -/
def readsAt (second : ℤ) : PassReads where
  now := seconds second
  pods := [solePod]
  drain := fun _ _ => .ok idleAnswer
  capture := { pods := .ok [{ uid := "u-0", name := "decode-0" }], ledger := fun _ _ => .error "" }
  deleteFails := fun _ => false

/-- The pass that takes the removal of the Pod over. -/
def handOver : Entry :=
  pass "d" {} { readsAt 0 with departing := some { role := "decode", ordinal := 0, members := [solePod] } }

def pass₁ : Entry := pass "d" handOver.after (readsAt 1)

def pass₂ : Entry := pass "d" pass₁.after (readsAt 2)

def pass₃ : Entry := pass "d" pass₂.after (readsAt 3)

def pass₄ : Entry := pass "d" pass₃.after (readsAt 4)

/-- The server holds the operation, past its delete. -/
def Server.Owes (s : Server) (op : Operation) : Prop :=
  ∃ r, s.reservation = some r ∧ r.operation = op ∧ (r.state = .deleting ∨ r.state = .settling)

/-- The pass observed the release of the operation, which was settling. -/
def Entry.Ends (deploymentUID : String) (op : Operation) (e : Entry) : Prop :=
  ∃ r, e.before.reservation = some r ∧ r.operation = op ∧ r.state = .settling ∧
    observeReleased e.reads.settle e.before.recorded deploymentUID r = none

theorem pass_reads (deploymentUID : String) (s : Server) (reads : PassReads) :
    (pass deploymentUID s reads).reads = reads := by
  simp only [pass, commitRetirement]
  repeat' split
  all_goals rfl

/-- A pass goes on with what is owed, or has seen the release. -/
theorem Server.Owes.pass {op : Operation} (h : s.Owes op) (reads : PassReads) :
    (pass deploymentUID s reads).after.Owes op ∨ (pass deploymentUID s reads).Ends deploymentUID op := by
  obtain ⟨r, hr, rfl, hstate⟩ := h
  have hplan : ∃ plan, planRetirement deploymentUID s reads = (plan, s) ∧ ((plan.hold = true ∧
      ∃ q, plan.next = some q ∧ q.operation = r.operation ∧ (q.state = .deleting ∨ q.state = .settling)) ∨
      r.state = .settling ∧ observeReleased reads.settle s.recorded deploymentUID r = none) := by
    refine ⟨_, by rw [planRetirement, hr]; dsimp only; rw [if_neg (by grind), if_pos hstate], ?_⟩
    simp only [advancePastDeletion, advanceToSettling, advanceToCompleted]
    split
    · exact .inl ⟨rfl, _, rfl, rfl, hstate⟩
    split
    · split
      · exact .inl ⟨rfl, _, rfl, rfl, hstate⟩
      · exact .inl ⟨rfl, _, rfl, rfl, .inr rfl⟩
    next hdeleting =>
    split
    · exact .inl ⟨rfl, _, rfl, rfl, hstate⟩
    next hseen => exact .inr ⟨hstate.resolve_left hdeleting, hseen⟩
  obtain ⟨plan, hplan, ⟨hhold, q, hq, hsame, hnext⟩ | ⟨hsettling, hseen⟩⟩ := hplan
  · -- whether or not its write lands, a plan that holds on to the operation leaves it there
    simp only [Retirement.pass, hplan, persistRetirement, hq]
    split
    · exact .inl ⟨r, hr, rfl, hstate⟩
    next persisted hpersist =>
    rw [admitRetirement_of_hold hhold, (commitRetirement_of_hold reads s _ _ hhold).2.2.1]
    split at hpersist
    · exact .inl (Option.some.inj hpersist ▸ ⟨r, hr, rfl, hstate⟩)
    split at hpersist
    · obtain rfl := Option.some.inj hpersist
      exact .inl ⟨q.stored, rfl, (RetirementStatus.operation_stored q).trans hsame, hnext⟩
    · cases hpersist
  · exact .inr ⟨r, by rw [pass_before, hr], rfl, hsettling, by rwa [pass_reads, pass_before]⟩

/-- **No deletion is forgotten.**  From the pass that deleted a Pod on, the server holds its operation,
past the delete and never aborted, until a pass has observed the release of the target. -/
theorem deletion_never_forgotten {log newer older : List Entry} {e : Entry}
    (hrun : Run deploymentUID log s) (hlog : log = newer ++ e :: older) (hdeleted : e.deleted ≠ []) :
    ∃ r, e.persisted.reservation = some r ∧ r.state = .deleting ∧
      (s.Owes r.operation ∨ ∃ later ∈ newer, later.Ends deploymentUID r.operation) := by
  induction hrun generalizing newer with
  | start recorded => simp at hlog
  | @pass log s hrun reads ih =>
    cases newer with
    | nil =>
      obtain ⟨rfl, rfl⟩ := cons.inj hlog
      obtain ⟨pod, hpod⟩ := exists_mem_of_ne_nil _ hdeleted
      cases hs : s.reservation with
      | none => exact absurd (pass_of_none deploymentUID hs reads).1 hdeleted
      | some r =>
        obtain ⟨hafter, -, q, hq, hstate, -⟩ :=
          (passSpec_pass deploymentUID hs (invariant_run hrun r hs).1 reads).deletes pod hpod
        exact ⟨q, hq, hstate, .inl ⟨q, hafter ▸ hq, rfl, .inl hstate⟩⟩
    | cons last newer =>
      obtain ⟨hlast, hrest⟩ := cons.inj hlog
      obtain ⟨r, hr, hstate, howes | ⟨later, hmem, hends⟩⟩ := ih hrest
      · exact ⟨r, hr, hstate, (howes.pass reads).imp_right fun hends => ⟨_, hlast ▸ .head _, hends⟩⟩
      · exact ⟨r, hr, hstate, .inr ⟨later, .tail _ hmem, hends⟩⟩
  | edit _ recorded ih => exact ih hlog

theorem sole_replica_owed :
    pass₄.deleted ≠ [] ∧ ∃ r, pass₄.persisted.reservation = some r ∧ pass₄.after.Owes r.operation := by
  have hdeleted : pass₄.deleted ≠ [] := by decide +kernel
  obtain ⟨r, hr, -, howes⟩ := deletion_never_forgotten
    (((((Run.start .absent).pass _).pass _).pass _).pass _ |>.pass _) (nil_append _).symm hdeleted
  exact ⟨hdeleted, r, hr, howes.resolve_right (by simp)⟩

end GpuStack.Retirement
