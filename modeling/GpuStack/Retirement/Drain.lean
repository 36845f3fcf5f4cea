import GpuStack.DevicePlugin.Pod
import GpuStack.Elastic.Release
import GpuStack.Scaler.Interval

/-!
# Retirement/Drain — is the replica still serving?

Two observations stand between a reservation and its delete.  `observeResidual` asks the routers
whether they still send the target traffic; `observeDrained` asks the engines whether they still hold
any.  Both answer with the reason the operation holds, and with nothing only when they have seen what
they looked for (`observeResidual_eq_none`, `observeDrained_eq_none`).

The engine's command line is read off the member by other code; here a member carries what was read.
-/

namespace GpuStack.Retirement

open List

/-! ## The members -/

/-- What a member's engine container says: whether every member of its replica listens for itself, and
whether the replica is disaggregated, or why that could not be read. -/
structure EngineReading where
  externalDP : Bool := false
  disaggregated : Except String Bool := .ok false
deriving DecidableEq

/-- A Pod of the deployment as a pass lists it.  `eligible` is the endpoint eligibility label, the
other labels and the group total are texts. -/
structure MemberPod where
  uid : String
  name : String := ""
  role : String := ""
  ordinalLabel : String := ""
  memberIndex : Option String := none
  roleKind : String := ""
  groupTotal : Option String := none
  eligible : Bool := false
  deleting : Bool := false
  phase : PodPhase := .running
  engine : Option EngineReading := some {}
deriving DecidableEq

def digits : List Char → Option ℕ
  | [] => none
  | cs => if cs.all Char.isDigit then some (cs.foldl (fun n c => n * 10 + (c.toNat - '0'.toNat)) 0) else none

/-- `strconv.Atoi`, without its range. -/
def atoi (text : String) : Option ℤ :=
  match text.toList with
  | '+' :: cs => (digits cs).map Int.ofNat
  | '-' :: cs => (digits cs).map fun n => -Int.ofNat n
  | cs => (digits cs).map Int.ofNat

/-- A number that is no negative one. -/
def index (text : String) : Option ℕ :=
  (atoi text).bind fun n => if n < 0 then none else some n.toNat

def podOrdinal (pod : MemberPod) : Option ℕ := index pod.ordinalLabel

/-! ## The shape of the replica -/

/-- A replica's deployed size, and how well its members establish it. -/
inductive ReplicaShape
  | unreadable (reason : String)
  | incomplete (total : ℕ) (reason : String)
  | complete (total : ℕ)
deriving DecidableEq, Repr

/-- The group total of one member; a Pod that declares none is a replica of one. -/
def memberDeclaredTotal (pod : MemberPod) : Option ℕ :=
  match pod.groupTotal with
  | none => some 1
  | some raw => (index raw).bind fun total => if total < 1 then none else some total

/-- The group size every member agrees on, after those that agreed on `total`; zero is none yet. -/
def replicaDeclaredTotal (total : ℕ) : List MemberPod → Except String ℕ
  | [] => .ok total
  | pod :: pods =>
    match memberDeclaredTotal pod with
    | none => .error ("member " ++ pod.name ++ " declares a group total that is not a replica size, "
        ++ "so the replica's shape could not be established")
    | some declared =>
      if total = 0 then replicaDeclaredTotal declared pods
      else if total ≠ declared then
        .error ("the replica's members declare group totals of " ++ toString total ++ " and "
          ++ toString declared ++ ", so its shape could not be established")
      else replicaDeclaredTotal total pods

/-- A seat two members claim, or one past the declared total. -/
def seatConflict (total : ℕ) (seats : List (ℕ × String)) : List MemberPod → Option String
  | [] => none
  | pod :: pods =>
    match pod.memberIndex.bind index with
    | none => seatConflict total seats pods
    | some seat =>
      match seats.lookup seat with
      | some holder => some ("members " ++ holder ++ " and " ++ pod.name ++ " both claim seat "
          ++ toString seat ++ " of a replica declaring " ++ toString total
          ++ " members, so the replica cannot be told apart from itself")
      | none =>
        if total ≤ seat then some ("member " ++ pod.name ++ " claims seat " ++ toString seat
          ++ " of a replica declaring only " ++ toString total
          ++ " members, so the replica cannot be told apart from itself")
        else seatConflict total ((seat, pod.name) :: seats) pods

/-- Why the members cannot be told apart as seats, if they cannot. -/
def replicaSeatReason (pods : List MemberPod) (total : ℕ) : Option String :=
  let invalid := (pods.filter fun pod => (pod.memberIndex.map index) = some none).length
  let claimed := (pods.filter fun pod => (pod.memberIndex.bind index).isSome).length
  (seatConflict total [] pods).or <|
  if 0 < invalid then
    some (toString invalid ++ " of " ++ toString pods.length ++ " members declare a member index that "
      ++ "is not one, so the replica cannot be told apart from itself")
  else if claimed = 0 then
    if total = 1 ∧ pods.length = 1 then none
    else some ("no member declares which seat it holds, and a replica of " ++ toString total
      ++ " members is a shape whose seats were always written, so the replica cannot be told apart "
      ++ "from itself")
  else refuseIf (claimed ≠ pods.length) (toString claimed ++ " of " ++ toString pods.length
    ++ " members declare which seat they hold and the rest do not, so the replica cannot be told "
    ++ "apart from itself")

/-- The shape of a replica, read from its own members. -/
def deployedReplicaShape (pods : List MemberPod) : ReplicaShape :=
  if pods = [] then
    .unreadable "the replica holds no members, so it has no deployed shape to read"
  else match replicaDeclaredTotal 0 pods with
    | .error reason => .unreadable reason
    | .ok total =>
      match replicaSeatReason pods total with
      | some reason => .unreadable reason
      | none =>
        if pods.length ≠ total then
          .incomplete total ("the replica holds " ++ toString pods.length ++ " of " ++ toString total
            ++ " members it declared, so it is short of the group it was built at")
        else .complete total

/-! ## Which members answer -/

def disagreement : String :=
  "the replica's members disagree on whether it is disaggregated, so its shape could not be established"

/-- Whether the replica's members listen for themselves, in their own words; nothing where one of them
has no engine container. -/
def renderedExternalDP (answer : Option Bool) (missing : Bool) :
    List MemberPod → Except String (Option Bool)
  | [] => .ok (if missing then none else answer)
  | pod :: pods =>
    match pod.engine with
    | none => renderedExternalDP answer true pods
    | some reading =>
      if answer = some (!reading.externalDP) then .error disagreement
      else renderedExternalDP (some reading.externalDP) missing pods

/-- Whether the replica is disaggregated; without a member it is not. -/
def disaggregated (answer : Option Bool) : List MemberPod → Except String Bool
  | [] => .ok (answer.getD false)
  | pod :: pods =>
    match pod.engine with
    | none => .error "a member has no engine container to classify"
    | some reading =>
      match reading.disaggregated with
      | .error reason => .error reason
      | .ok kind =>
        if answer = some (!kind) then .error disagreement else disaggregated (some kind) pods

def noEngine : String := "a member carries no engine container to read, so the replica's own command "
  ++ "line could not be established"

/-- Which members of a replica can answer an in-flight read. -/
inductive AnsweringShape
  | all
  | leader
  | sole
deriving DecidableEq, Repr

def answeringShapeOf (externalDP : Bool) (size : ℕ) : AnsweringShape :=
  if externalDP then .all else if size ≤ 1 then .sole else .leader

/-- The shape the members answer in, or why it cannot be told. -/
def answeringShape (pods : List MemberPod) : Except String AnsweringShape :=
  if pods = [] then .error "the replica has no members to read"
  else match renderedExternalDP none false pods with
    | .error reason => .error reason
    | .ok none => .error noEngine
    | .ok (some externalDP) =>
      match deployedReplicaShape pods with
      | .unreadable reason => .error reason
      | .incomplete _ reason => .error reason
      | .complete _ => .ok (answeringShapeOf externalDP pods.length)

def isLeader (pod : MemberPod) : Bool := pod.memberIndex = some "0"

/-- The members whose answer stands for the replica. -/
def answeringMembers (shape : AnsweringShape) (pods : List MemberPod) :
    Except String (List MemberPod) :=
  match shape with
  | .all | .sole => .ok pods
  | .leader =>
    match pods.filter isLeader with
    | [leader] => .ok [leader]
    | [] => .error ("a leader-served replica of several Pods has no member carrying the leader index, "
        ++ "so no member can answer for it")
    | leaders => .error ("a leader-served replica of several Pods has " ++ toString leaders.length
        ++ " members carrying the leader index, so no member can answer for it")

def drainMembers (pods : List MemberPod) : Except String (List MemberPod) :=
  (answeringShape pods).bind fun shape => answeringMembers shape pods

/-! ## What one member still holds -/

inductive DrainState
  | idle
  | busy
  | unknown
  | unsupported
deriving DecidableEq, Repr

/-- The value of a gauge, as a float is read. -/
inductive Gauge
  | nan
  | infinite
  | finite (value : ℚ)
deriving DecidableEq

/-- A count of work in flight is a nonnegative finite number. -/
def Gauge.isActivity : Gauge → Bool
  | .finite value => 0 ≤ value
  | _ => false

/-- A gauge a read does not carry compares as zero. -/
def Gauge.isZero : Option Gauge → Bool
  | none => true
  | some (.finite value) => value = 0
  | some _ => false

/-- What a reader answers for one member.  `total` is its series' sum, as printed. -/
structure DrainAnswer where
  state : DrainState
  reason : String := ""
  complete : Bool := false
  series : List (String × Gauge) := []
  total : String := ""
deriving DecidableEq

/-- The engine a deployment runs; one that names none runs vLLM. -/
def retirementEngine (name : String) : String := if name = "" then "vLLM" else name

/-- The gauges whose sum is the work a replica has in flight. -/
def inFlightMetrics : String → Option (List String)
  | "vLLM" => some ["vllm:num_requests_running", "vllm:num_requests_waiting"]
  | "SGLang" => some ["sglang:num_running_reqs", "sglang:num_queue_reqs",
      "sglang:num_prefill_bootstrap_queue_reqs", "sglang:num_prefill_inflight_queue_reqs",
      "sglang:num_decode_prealloc_queue_reqs", "sglang:num_decode_transfer_queue_reqs"]
  | _ => none

/-- The expected gauges that fail a check; an engine without a list fails as a whole. -/
def failingSeries (engine : String) (fails : String → Bool) : List String :=
  match inFlightMetrics engine with
  | none => ["a measurement for engine " ++ engine]
  | some expected => expected.filter fails

def missingSeries (engine : String) (answer : DrainAnswer) : List String :=
  failingSeries engine fun metric => (answer.series.lookup metric).isNone

def unusableSeries (engine : String) (answer : DrainAnswer) : List String :=
  (failingSeries engine fun metric =>
    (answer.series.lookup metric).any (!·.isActivity)).insertionSort (· ≤ ·)

def activeSeries (engine : String) (answer : DrainAnswer) : List String :=
  (failingSeries engine fun metric =>
    !Gauge.isZero (answer.series.lookup metric)).insertionSort (· ≤ ·)

/-- **Why a read is not an idle observation of the member**, if it is not.  The reader's own verdict
is believed only where it is against the delete. -/
def drainMemberIdle (pod : MemberPod) (engine : String) (answer : DrainAnswer) : Option String :=
  match answer.state with
  | .unsupported => some ("member " ++ pod.name ++ " reports no in-flight measurement: " ++ answer.reason)
  | .unknown => some ("member " ++ pod.name ++ " is unobserved: " ++ answer.reason)
  | .busy => some ("member " ++ pod.name ++ " still holds " ++ answer.total ++ " in flight")
  | .idle =>
    (refuseIf (¬ answer.complete) ("member " ++ pod.name ++ " returned an incomplete envelope")).or <|
    (refuseIf (missingSeries engine answer ≠ []) ("member " ++ pod.name ++ " is missing "
      ++ String.intercalate ", " (missingSeries engine answer))).or <|
    (refuseIf (unusableSeries engine answer ≠ []) ("member " ++ pod.name
      ++ " reported unusable activity in "
      ++ String.intercalate ", " (unusableSeries engine answer))).or <|
    refuseIf (activeSeries engine answer ≠ []) ("member " ++ pod.name ++ " still holds activity in "
      ++ String.intercalate ", " (activeSeries engine answer))

/-- A complete read on which every gauge the engine is expected to have is there and is zero. -/
structure DrainAnswer.Idle (engine : String) (answer : DrainAnswer) : Prop where
  state : answer.state = .idle
  complete : answer.complete = true
  known : ∃ expected, inFlightMetrics engine = some expected ∧
    ∀ metric ∈ expected, answer.series.lookup metric = some (.finite 0)

variable {engine : String}

theorem mem_failingSeries {metric : String} {expected : List String} {fails : String → Bool}
    (hknown : inFlightMetrics engine = some expected) (hnone : failingSeries engine fails = [])
    (hmetric : metric ∈ expected) : fails metric = false := by
  rw [failingSeries, hknown] at hnone
  exact Bool.eq_false_iff.mpr (filter_eq_nil_iff.mp hnone metric hmetric)

theorem known_of_failingSeries {fails : String → Bool}
    (h : failingSeries engine fails = []) : ∃ expected, inFlightMetrics engine = some expected := by
  cases hknown : inFlightMetrics engine with
  | none => simp [failingSeries, hknown] at h
  | some expected => exact ⟨expected, rfl⟩

theorem Gauge.eq_of_isZero {gauge : Gauge} (h : Gauge.isZero (some gauge) = true) :
    gauge = .finite 0 := by
  cases gauge with
  | finite value => simpa [Gauge.isZero] using h
  | nan => simp [Gauge.isZero] at h
  | infinite => simp [Gauge.isZero] at h

theorem insertionSort_eq_nil {l : List String} (h : l.insertionSort (· ≤ ·) = []) : l = [] :=
  List.Perm.nil_eq (h ▸ perm_insertionSort (· ≤ ·) l) |>.symm

/-- **A read that passes is an idle one.** -/
theorem idle_of_drainMemberIdle {pod : MemberPod} {answer : DrainAnswer}
    (h : drainMemberIdle pod engine answer = none) : answer.Idle engine := by
  cases hstate : answer.state with
  | unsupported => simp [drainMemberIdle, hstate] at h
  | unknown => simp [drainMemberIdle, hstate] at h
  | busy => simp [drainMemberIdle, hstate] at h
  | idle =>
    simp only [drainMemberIdle, hstate, Option.or_eq_none_iff, refuseIf_eq_none, not_not] at h
    obtain ⟨hcomplete, hmissing, -, hactive⟩ := h
    obtain ⟨expected, hknown⟩ := known_of_failingSeries hmissing
    refine ⟨hstate, hcomplete, expected, hknown, fun metric hmetric => ?_⟩
    have hthere := mem_failingSeries hknown hmissing hmetric
    have hzero := mem_failingSeries hknown (insertionSort_eq_nil hactive) hmetric
    obtain ⟨gauge, hgauge⟩ := Option.isSome_iff_exists.mp (Option.isNone_eq_false_iff.mp hthere)
    have hfinite : gauge = .finite 0 := Gauge.eq_of_isZero (by simpa [hgauge] using hzero)
    rw [hgauge, hfinite]

/-! ## The whole replica -/

/-- What is read of the target's queues: the two answers of each member, by its UID. -/
abbrev DrainReads := String → ℕ → Except String DrainAnswer

/-- Two reads of a member, each of them idle; or the reason of the first that is not. -/
def readTwice (reads : DrainReads) (engine : String) (pod : MemberPod) : Option String :=
  [1, 2].findSome? fun read =>
    match reads pod.uid read with
    | .error reason => some ("member " ++ pod.name ++ " could not be read: " ++ reason)
    | .ok answer => drainMemberIdle pod engine answer

/-- How long a disaggregated replica is given to hand its transfers over. -/
def disaggregatedGraceWindow : ℤ := seconds 60

/-- The zero value of a time, the first instant of the year one. -/
def zeroTime : ℤ := seconds (-62135596800)

/-- **Why the target has not been read idle**, if it has not.  `started` is when the phase began. -/
def observeDrained (reads : DrainReads) (engine : String) (members : List MemberPod)
    (started now : ℤ) : Option String :=
  match renderedExternalDP none false members with
  | .error reason => some reason
  | .ok known =>
    (refuseIf (members = []) "the replica has no members to read").or <|
    (refuseIf (known = none) noEngine).or <|
    match disaggregated none members with
    | .error reason => some reason
    | .ok handsOver =>
      (refuseIf (handsOver ∧ (started = zeroTime ∨ now - started < disaggregatedGraceWindow))
        ("the 1m0s disaggregated handoff grace window is in progress because a disaggregated replica "
          ++ "has no verifiable decoder-side release")).or <|
      match drainMembers members with
      | .error reason => some reason
      | .ok answering => answering.findSome? (readTwice reads engine)

/-- Every member that answers for the replica is idle on two reads in a row. -/
structure Drained (reads : DrainReads) (engine : String) (members : List MemberPod) : Prop where
  answers : ∃ answering, drainMembers members = .ok answering ∧ answering ≠ [] ∧
    ∀ pod ∈ answering, pod ∈ members ∧ ∀ read ∈ [1, 2], ∃ answer, reads pod.uid read = .ok answer ∧
      answer.Idle engine

theorem idle_of_readTwice {reads : DrainReads} {pod : MemberPod}
    (h : readTwice reads engine pod = none) :
    ∀ read ∈ [1, 2], ∃ answer, reads pod.uid read = .ok answer ∧ answer.Idle engine := by
  intro read hread
  have hnone := findSome?_eq_none_iff.mp h read hread
  split at hnone
  · simp at hnone
  · next answer hanswer => exact ⟨answer, hanswer, idle_of_drainMemberIdle hnone⟩

theorem answering_subset {shape : AnsweringShape} {members answering : List MemberPod}
    (h : answeringMembers shape members = .ok answering) (hne : members ≠ []) :
    answering ≠ [] ∧ ∀ pod ∈ answering, pod ∈ members := by
  cases shape with
  | all => cases h; exact ⟨hne, fun _ => id⟩
  | sole => cases h; exact ⟨hne, fun _ => id⟩
  | leader =>
    rw [answeringMembers] at h
    split at h
    · next leader hleader =>
      cases h
      refine ⟨by simp, fun pod hpod => mem_of_mem_filter (p := isLeader) ?_⟩
      rwa [hleader]
    · cases h
    · cases h

/-- **A target that was read drained holds nothing.** -/
theorem observeDrained_eq_none {reads : DrainReads} {members : List MemberPod}
    {started now : ℤ} (h : observeDrained reads engine members started now = none) :
    Drained reads engine members := by
  rw [observeDrained] at h
  split at h
  · cases h
  rw [Option.or_eq_none_iff, Option.or_eq_none_iff, refuseIf_eq_none] at h
  obtain ⟨hne, -, h⟩ := h
  split at h
  · cases h
  obtain ⟨-, h⟩ := Option.or_eq_none_iff.mp h
  split at h
  · cases h
  next answering hdrain =>
  refine ⟨answering, hdrain, ?_⟩
  rw [drainMembers] at hdrain
  cases hshape : answeringShape members with
  | error reason => simp [hshape, Except.bind] at hdrain
  | ok shape =>
    obtain ⟨hsome, hsub⟩ := answering_subset (by simpa [hshape, Except.bind] using hdrain) hne
    exact ⟨hsome, fun pod hpod =>
      ⟨hsub pod hpod, idle_of_readTwice (findSome?_eq_none_iff.mp h pod hpod)⟩⟩

/-! ## What the routers still send -/

inductive ServingState
  | confirmed
  | notConverged
  | unknown
  | notConfigured
deriving DecidableEq, Repr

/-- One router's view: the endpoints it is bound to, and the Pods it dispatched to of late. -/
structure RouterObservation where
  bound : List (String × Bool) := []
  recentDispatch : List String := []
deriving DecidableEq, Repr

/-- What is read of the ingress: the deployment's Pods, the routers' views, and the state and the
reason of the answer they aggregate to. -/
structure ResidualReads where
  router : Bool := true
  pods : Except String Unit := .ok ()
  collected : Except String (List RouterObservation) := .ok []
  state : ServingState := .confirmed
  reason : String := ""
deriving DecidableEq

/-- The Pods a router selects or has dispatched to. -/
def servedPods (observations : List RouterObservation) : List String :=
  observations.flatMap fun observation =>
    (observation.bound.filter (·.2)).map (·.1) ++ observation.recentDispatch

/-- **Why the target may still be served**, if it may. -/
def observeResidual (reads : ResidualReads) (held : List String) : Option String :=
  if ¬ reads.router then
    some ("this deployment declares no router, so the established direct-Service connections this "
      ++ "target's service may still hold cannot be observed; the operation holds")
  else match reads.pods with
    | .error reason => some ("the deployment's pods could not be listed: " ++ reason)
    | .ok () =>
      match reads.collected with
      | .error failure => some failure
      | .ok observations =>
        if reads.state = .unknown ∨ reads.state = .notConverged then some reads.reason
        else
          let residual := held.dedup.filter (· ∈ servedPods observations)
          refuseIf (residual ≠ []) (toString residual.length ++ " target members are still served: "
            ++ String.intercalate ", " (residual.insertionSort (· ≤ ·)))

/-- The routers were read, they agree, and none of them sends the target anything. -/
structure Unserved (reads : ResidualReads) (held : List String) : Prop where
  router : reads.router = true
  state : reads.state ≠ .unknown ∧ reads.state ≠ .notConverged
  quiet : ∃ observations, reads.collected = .ok observations ∧
    ∀ observation ∈ observations, ∀ uid ∈ held,
      (uid, true) ∉ observation.bound ∧ uid ∉ observation.recentDispatch

/-- **A target without residual traffic was seen without it.** -/
theorem observeResidual_eq_none {reads : ResidualReads} {held : List String}
    (h : observeResidual reads held = none) : Unserved reads held := by
  rw [observeResidual] at h
  split at h
  · cases h
  next hrouter =>
  split at h
  · cases h
  split at h
  · cases h
  next observations hcollected =>
  split at h
  · cases h
  next hstate =>
  refine ⟨not_not.mp hrouter, not_or.mp hstate, observations, hcollected, ?_⟩
  intro observation hobs uid huid
  have hquiet : uid ∉ servedPods observations := by
    intro hserved
    refine (refuseIf_eq_none.mp h) (ne_nil_of_mem (a := uid) (mem_filter.mpr ⟨?_, ?_⟩))
    · exact mem_dedup.mpr huid
    · exact decide_eq_true hserved
  constructor
  · intro hbound
    refine hquiet (mem_flatMap.mpr ⟨observation, hobs, mem_append_left _ ?_⟩)
    exact mem_map.mpr ⟨(uid, true), mem_filter.mpr ⟨hbound, rfl⟩, rfl⟩
  · intro hdispatched
    exact hquiet (mem_flatMap.mpr ⟨observation, hobs, mem_append_right _ hdispatched⟩)

end GpuStack.Retirement
