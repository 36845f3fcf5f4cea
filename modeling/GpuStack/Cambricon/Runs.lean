import GpuStack.Cambricon.Reclaim

/-!
# Cambricon/Runs — instances, profiles and markers over whole runs

A reservation finds or creates a profile, creates an instance from it and writes a marker; a pass of the
loop destroys what dead Pods left and then every profile without an instance.  Both are given as the
states after each of their driver and file steps, so a crash is a prefix.

`Effect` lists what one such step can do, and is all that the safety of a run rests on (`Effect.gentle`,
`Effect.backed`).  A Pod that three passes miss is left no instance (`decodeInstanceUID_ne_of_thrice`), as
long as an instance that shares its name with a marked one of another card is not taken for marked.
-/

namespace GpuStack.Cambricon

open List

def smluHashLen : ℕ := 12

/-- An instance, with the profile it was cut from, its quota and its device node. -/
structure Smlu extends SmluInstance where
  profileID : ℤ
  coresPct : ℤ
  memMiB : ℤ
  devNode : String
deriving DecidableEq, Repr

structure ProfileKey where
  card : String
  profileID : ℤ
deriving DecidableEq, Repr

def Smlu.profile (i : Smlu) : ProfileKey := ⟨i.card, i.profileID⟩

/-- The driver's instances and profiles, the marker files and the loop's counters. -/
structure SmluNode where
  instances : List Smlu
  profiles : List ProfileKey
  files : List (String × Option SmluMarker)
  misses : String → ℕ

/-- The name of a container's instance; `sum` is the hash, in hexadecimal digits. -/
def encodeInstanceName (sum : String → String) (podUID container : String) : String :=
  smluInstancePrefix ++ smluNameSep ++ podUID ++ smluNameSep ++
    String.ofList ((sum container).toList.take smluHashLen)

/-! ### A reservation -/

structure SmluRequest where
  podUID : String
  container : String
  card : String
  coresPct : ℤ
  memMiB : ℤ
deriving DecidableEq, Repr

/-- `markerPath`, below the directory of the Pods. -/
def SmluRequest.self (q : SmluRequest) : String := s!"{q.podUID}/{q.container}/cambricon-smlu.json"

/-- What the driver and the disk answer a reservation.  The driver may refuse to create; it destroys what
it is told to. -/
structure ReserveAnswers where
  mode : Except String Unit
  list : Except String Unit
  createProfile : Except String ℤ
  createInstance : Except String String
  write : Except String Unit
  /-- Whether a write that failed left the marker in place. -/
  linked : Bool

namespace SmluNode

variable (sum : String → String) (n : SmluNode)

/-- Take back a profile that was created for the call. -/
def dropProfile (created : Bool) (key : ProfileKey) : List SmluNode :=
  if created then [{ n with profiles := n.profiles.filter (· ≠ key) }] else []

/-- The second half of `reserveInstance`, from the profile on. -/
def instantiate (q : SmluRequest) (a : ReserveAnswers) (profileID : ℤ) (created : Bool) :
    List SmluNode × Except String Smlu :=
  let name := encodeInstanceName sum q.podUID q.container
  match a.createInstance with
  | .error err => (n.dropProfile created ⟨q.card, profileID⟩,
      .error s!"card {q.card}: create smlu instance: {err}")
  | .ok devNode =>
    let i : Smlu := ⟨⟨q.card, name⟩, profileID, q.coresPct, q.memMiB, devNode⟩
    let m : SmluMarker := ⟨q.podUID, q.container, q.card, name, profileID, q.coresPct, q.memMiB⟩
    let n₁ := { n with instances := n.instances ++ [i] }
    let n₂ := { n₁ with files := if a.write.isOk || a.linked then n.files ++ [(q.self, some m)] else n.files }
    match a.write with
    | .ok _ => ([n₁, n₂], .ok i)
    | .error err =>
      let n₃ := { n₂ with
        instances := n₂.instances.filter fun j => ¬(j.card = q.card ∧ j.name = name) }
      (n₁ :: n₂ :: n₃ :: n₃.dropProfile created ⟨q.card, profileID⟩, .error err)

/-- `reserveInstance`: the states after each of its steps, and what it answers. -/
def reserveInstance (q : SmluRequest) (a : ReserveAnswers) : List SmluNode × Except String Smlu :=
  match n.files.lookup q.self with
  | some contents =>
    match Records.parse (fun _ m => m.complete) q.self contents with
    | none => ([], .error s!"read self marker {q.self}")
    | some m =>
      if m.card ≠ q.card ∨ m.coresPct ≠ q.coresPct ∨ m.memMiB ≠ q.memMiB then
        ([], .error (s!"marker {q.self} mismatches request (card={q.card} cores={q.coresPct} " ++
          s!"mem={q.memMiB}): fail closed"))
      else match a.list with
      | .error err => ([], .error s!"list smlu instances: {err}")
      | .ok _ => match n.instances.find? (·.name = m.inst) with
        | some i => ([], .ok i)
        | none => ([], .error s!"marker {q.self} references missing instance {m.inst}: fail closed")
  | none =>
    match a.mode with
    | .error err => ([], .error err)
    | .ok _ => match a.list with
      | .error err => ([], .error s!"list smlu instances: {err}")
      | .ok _ =>
        -- `findOrCreateProfile` looks for a profile among the instances
        match n.instances.find? fun i =>
          i.card = q.card ∧ i.coresPct = q.coresPct ∧ i.memMiB = q.memMiB with
        | some i => n.instantiate sum q a i.profileID false
        | none => match a.createProfile with
          | .error err => ([], .error s!"card {q.card}: create smlu profile: {err}")
          | .ok id =>
            let n' := { n with profiles := n.profiles ++ [⟨q.card, id⟩] }
            let rest := n'.instantiate sum q a id true
            (n' :: rest.1, rest.2)

end SmluNode

/-! ### A pass of the loop -/

structure SmluPass where
  livePodUIDs : List String
  unlinkFails : String → Bool

namespace SmluNode

variable (n : SmluNode) (p : SmluPass)

/-- What a pass finds, its driver answering every call. -/
def call : ReclaimCall :=
  ⟨p.livePodUIDs, .ok (n.instances.map Smlu.toSmluInstance), n.files, fun _ => false, p.unlinkFails⟩

/-- The markers a pass unlinks. -/
def unlinked : List MarkerEntry :=
  (((n.call p).pods.filter ((n.call p).due n.misses)).flatMap (n.call p).markersOf).filter fun e =>
    !p.unlinkFails e.path

/-- The per-Pod part of `reconcile`. -/
def reclaimed : SmluNode :=
  { n with
    instances := n.instances.filter fun i =>
      !((n.call p).destroyed n.misses).any fun x => x.2 == ⟨i.card, i.name⟩
    files := n.files.filter fun file => !(n.unlinked p).any fun e => (e.path, some e.marker) == file
    misses := (n.call p).counted n.misses }

/-- `gcOrphanProfiles` -/
def gcOrphanProfiles : SmluNode :=
  { n with profiles := n.profiles.filter fun key => n.instances.any (·.profile == key) }

/-- `reconcile` -/
def reconcile : SmluNode := (n.reclaimed p).gcOrphanProfiles

end SmluNode

/-! ### Runs -/

/-- What happens to a node: a reservation, which a crash may cut after any of its steps, a pass of the loop,
and a restart. -/
inductive SmluEvent
  | reserve (q : SmluRequest) (a : ReserveAnswers) (crash : Option ℕ)
  | reclaim (p : SmluPass)
  | restart

namespace SmluNode

variable (sum : String → String) (n : SmluNode)

/-- The states an event goes through. -/
def trace : SmluEvent → List SmluNode
  | .reserve q a none => (n.reserveInstance sum q a).1
  | .reserve q a (some steps) => (n.reserveInstance sum q a).1.take steps
  | .reclaim p => [n.reclaimed p, n.reconcile p]
  | .restart => []

/-- The state an event leads to; a process that starts again has counted nothing. -/
def after (e : SmluEvent) : SmluNode :=
  let last := (n.trace sum e).getLastD n
  match e with
  | .reserve _ _ none | .reclaim _ => last
  | .reserve _ _ (some _) | .restart => { last with misses := fun _ => 0 }

/-- The driver gives a new profile an ID that no profile of the card has. -/
def Fresh : SmluEvent → Prop
  | .reserve q a _ => ∀ id, a.createProfile = .ok id → ⟨q.card, id⟩ ∉ n.profiles
  | _ => True

/-- Every instance is cut from a profile the driver has. -/
def Backed : Prop := ∀ i ∈ n.instances, i.profile ∈ n.profiles

end SmluNode

/-- The nodes that events lead to. -/
inductive SmluReach (sum : String → String) (n₀ : SmluNode) : SmluNode → Prop
  | start : SmluReach sum n₀ n₀
  | step {n : SmluNode} (e : SmluEvent) : SmluReach sum n₀ n → n.Fresh e → SmluReach sum n₀ (n.after sum e)

/-- A name the operator gave, or that carries a Pod as its names do. -/
def OperatorNamed (sum : String → String) (name : String) : Prop :=
  (decodeInstanceUID name).isSome = true ∨ ∃ uid c, name = encodeInstanceName sum uid c

/-- A marker names the instance. -/
def SmluNode.Marks (n : SmluNode) (i : Smlu) : Prop :=
  ∃ e ∈ scanMarkers n.files, e.marker.card = i.card ∧ e.marker.inst = i.name

/-- **What one driver or file step can do.** -/
inductive Effect (sum : String → String) (n : SmluNode) : SmluNode → Prop
  | createProfile (key : ProfileKey) : Effect sum n { n with profiles := n.profiles ++ [key] }
  | createInstance (i : Smlu) : i.profile ∈ n.profiles →
      Effect sum n { n with instances := n.instances ++ [i] }
  | write (files : List (String × Option SmluMarker)) : Effect sum n { n with files }
  | destroyInstances (keep : Smlu → Bool) (files : List (String × Option SmluMarker))
      (misses : String → ℕ) :
      (∀ i ∈ n.instances, keep i = false → OperatorNamed sum i.name ∨ n.Marks i) →
      Effect sum n { n with instances := n.instances.filter keep, files, misses }
  | destroyProfiles (keep : ProfileKey → Bool) : (∀ i ∈ n.instances, keep i.profile = true) →
      Effect sum n { n with profiles := n.profiles.filter keep }

/-- A step destroys no foreign instance that no marker names, and no profile in use. -/
def Gentle (sum : String → String) (m m' : SmluNode) : Prop :=
  (∀ i ∈ m.instances, i ∉ m'.instances → OperatorNamed sum i.name ∨ m.Marks i) ∧
    ∀ key ∈ m.profiles, key ∉ m'.profiles → ∀ i ∈ m.instances, i.profile ≠ key

section Step

variable {sum : String → String} {n m m' : SmluNode} {q : SmluRequest} {a : ReserveAnswers} {p : SmluPass}

theorem Effect.gentle (h : Effect sum m m') : Gentle sum m m' := by
  cases h with
  | createProfile key => exact ⟨fun i hi hn => absurd hi hn, fun k hk hn =>
      absurd (mem_append_left _ hk) hn⟩
  | createInstance i _ => exact ⟨fun j hj hn => absurd (mem_append_left _ hj) hn, fun k hk hn =>
      absurd hk hn⟩
  | write files => exact ⟨fun i hi hn => absurd hi hn, fun k hk hn => absurd hk hn⟩
  | destroyInstances keep files misses hkeep =>
    refine ⟨fun i hi hn => hkeep i hi ?_, fun k hk hn => absurd hk hn⟩
    simpa [hi] using hn
  | destroyProfiles keep hkeep =>
    refine ⟨fun i hi hn => absurd hi hn, fun k hk hn i hi hik => hn ?_⟩
    exact mem_filter.mpr ⟨hk, hik ▸ hkeep i hi⟩

theorem Effect.backed (h : Effect sum m m') (hm : m.Backed) : m'.Backed := by
  cases h with
  | createProfile key => exact fun i hi => mem_append_left _ (hm i hi)
  | createInstance i hi =>
    intro j hj
    rcases mem_append.mp hj with hj | hj
    · exact hm j hj
    · exact mem_singleton.mp hj ▸ hi
  | write files => exact hm
  | destroyInstances keep files misses _ => exact fun i hi => hm i (mem_of_mem_filter hi)
  | destroyProfiles keep hkeep => exact fun i hi => mem_filter.mpr ⟨hm i hi, hkeep i hi⟩

/-- A profile that no instance uses is taken back. -/
theorem isChain_dropProfile {created : Bool} {key : ProfileKey}
    (h : created = true → ∀ i ∈ n.instances, i.profile ≠ key) :
    (n :: n.dropProfile created key).IsChain (Effect sum) := by
  unfold SmluNode.dropProfile
  split_ifs with hcreated
  · exact isChain_pair.mpr (.destroyProfiles _ fun i hi => by simpa using h hcreated i hi)
  · exact isChain_singleton _

theorem isChain_instantiate {id : ℤ} {created : Bool} (hid : ⟨q.card, id⟩ ∈ n.profiles)
    (h : created = true → ∀ i ∈ n.instances, i.profile ≠ ⟨q.card, id⟩) :
    (n :: (n.instantiate sum q a id created).1).IsChain (Effect sum) := by
  unfold SmluNode.instantiate
  cases a.createInstance with
  | error err => exact isChain_dropProfile h
  | ok devNode =>
    cases a.write with
    | ok _ => exact .cons_cons (Effect.createInstance _ hid) (isChain_pair.mpr (Effect.write _))
    | error err =>
      refine .cons_cons (Effect.createInstance _ hid) (.cons_cons (Effect.write _)
        (.cons_cons (Effect.destroyInstances _ _ _ ?_) (isChain_dropProfile fun hcreated i hi => ?_)))
      · intro i _ hi
        simp only [decide_eq_false_iff_not, not_not] at hi
        exact .inl (.inr ⟨q.podUID, q.container, hi.2⟩)
      · simp only [mem_filter, mem_append, mem_singleton, decide_eq_true_iff] at hi
        obtain ⟨hi | rfl, hname⟩ := hi
        · exact h hcreated i hi
        · exact absurd ⟨rfl, rfl⟩ hname

theorem isChain_reserveInstance (hn : n.Backed)
    (hfresh : ∀ id, a.createProfile = .ok id → ⟨q.card, id⟩ ∉ n.profiles) :
    (n :: (n.reserveInstance sum q a).1).IsChain (Effect sum) := by
  have hnone : [n].IsChain (Effect sum) := isChain_singleton _
  unfold SmluNode.reserveInstance
  split
  · -- a marker of its own leaves nothing to do
    split
    · exact hnone
    · split_ifs
      · exact hnone
      · split
        · exact hnone
        · split <;> exact hnone
  · split
    · exact hnone
    · split
      · exact hnone
      · split
        next i hi =>
          have hquota := find?_some hi
          have hprofile := hn i (mem_of_find?_eq_some hi)
          rw [decide_eq_true_iff] at hquota
          rw [Smlu.profile, hquota.1] at hprofile
          exact isChain_instantiate hprofile (by simp)
        · split
          · exact hnone
          next id hid =>
            refine .cons_cons (Effect.createProfile _) (isChain_instantiate (by simp) ?_)
            intro _ i hi hprofile
            exact hfresh id hid (hprofile ▸ hn i hi)

/-- **What a pass destroys**: what stands under the Pods that are due. -/
theorem mem_destroyed_call {uid : String} {ref : SmluRef} :
    (uid, ref) ∈ (n.call p).destroyed n.misses ↔
      (n.call p).due n.misses uid = true ∧ ref ∈ (n.call p).targets uid := by
  constructor
  · intro h
    refine ⟨ReclaimCall.due_of_mem_destroyed _ _ h, ?_⟩
    simp only [ReclaimCall.destroyed, SmluNode.call, mem_flatMap, mem_map] at h
    obtain ⟨uid', -, ref', href, hpair⟩ := h
    obtain ⟨rfl, rfl⟩ := Prod.mk.inj hpair
    exact mem_of_mem_filter href
  · rintro ⟨hdue, href⟩
    have hpod : uid ∈ (n.call p).pods := by
      simp only [ReclaimCall.targets, mem_append, mem_map, ReclaimCall.markersOf,
        ReclaimCall.carrying, mem_filter, Bool.and_eq_true, beq_iff_eq] at href
      simp only [ReclaimCall.pods, mem_append, mem_map, mem_filterMap]
      obtain ⟨e, ⟨he, huid⟩, -⟩ | ⟨i, ⟨hi, -, huid⟩, -⟩ := href
      · exact .inl ⟨e, he, huid⟩
      · exact .inr ⟨i, hi, huid⟩
    simp only [ReclaimCall.destroyed, SmluNode.call, mem_flatMap, mem_filter, mem_map]
    exact ⟨uid, ⟨hpod, hdue⟩, ref, ⟨href, rfl⟩, rfl⟩

theorem effect_reclaimed : Effect sum n (n.reclaimed p) := by
  refine .destroyInstances _ _ _ fun i hi hkeep => ?_
  simp only [Bool.not_eq_false', any_eq_true, beq_iff_eq] at hkeep
  obtain ⟨⟨uid, ref⟩, hmem, rfl⟩ := hkeep
  have href := (mem_destroyed_call.mp hmem).2
  simp only [ReclaimCall.targets, mem_append, mem_map, ReclaimCall.markersOf,
    ReclaimCall.carrying, mem_filter, Bool.and_eq_true, beq_iff_eq, SmluRef.mk.injEq] at href
  obtain ⟨e, ⟨he, -⟩, hcard, hinst⟩ | ⟨i', ⟨-, -, huid⟩, -, hname⟩ := href
  · exact .inr ⟨e, he, hcard, hinst⟩
  · exact .inl (.inl (by rw [← hname, huid]; rfl))

theorem effect_gcOrphanProfiles : Effect sum n n.gcOrphanProfiles :=
  .destroyProfiles _ fun i hi => any_eq_true.mpr ⟨i, hi, by simp⟩

/-- Every event is a chain of such steps. -/
theorem isChain_trace (hn : n.Backed) {e : SmluEvent} (hfresh : n.Fresh e) :
    (n :: n.trace sum e).IsChain (Effect sum) := by
  cases e with
  | reserve q a crash =>
    have h : (n :: (n.reserveInstance sum q a).1).IsChain (Effect sum) :=
      isChain_reserveInstance hn hfresh
    cases crash with
    | none => exact h
    | some steps => exact h.take (steps + 1)
  | reclaim p => exact .cons_cons effect_reclaimed (isChain_pair.mpr effect_gcOrphanProfiles)
  | restart => exact isChain_singleton _

theorem SmluReach.backed {n₀ : SmluNode} (h₀ : n₀.Backed) (h : SmluReach sum n₀ n) : n.Backed := by
  induction h with
  | start => exact h₀
  | @step n e _ hfresh ih =>
    have hlast : ((n.trace sum e).getLastD n).Backed :=
      (isChain_trace ih hfresh).induction _ _ (fun _ _ h => h.backed) (fun _ => ih) _
        getLastD_mem_cons
    unfold SmluNode.after
    split <;> exact hlast

end Step

/-! ### Convergence -/

/-- Every instance whose name carries the Pod is named by a marker of the Pod, or its name by none. -/
def SmluNode.Sole (n : SmluNode) (uid : String) : Prop :=
  ∀ i ∈ n.instances, decodeInstanceUID i.name = some uid →
    (∀ e ∈ scanMarkers n.files, e.marker.inst ≠ i.name) ∨
      ∃ e ∈ scanMarkers n.files, e.marker.podUID = uid ∧ e.marker.card = i.card ∧ e.marker.inst = i.name

section Converge

variable {n : SmluNode} {p : SmluPass} {uid : String} {i : Smlu}

theorem SmluNode.Sole.mem_targets (h : n.Sole uid) (hi : i ∈ n.instances)
    (huid : decodeInstanceUID i.name = some uid) : ⟨i.card, i.name⟩ ∈ (n.call p).targets uid := by
  simp only [ReclaimCall.targets, mem_append, mem_map, ReclaimCall.markersOf,
    ReclaimCall.carrying, mem_filter, Bool.and_eq_true, beq_iff_eq, SmluRef.mk.injEq,
    Bool.not_eq_true', any_eq_false]
  rcases h i hi huid with hnone | ⟨e, he, hpod, hcard, hinst⟩
  · exact .inr ⟨i.toSmluInstance, ⟨mem_map_of_mem hi, fun e he => hnone e he, huid⟩, rfl, rfl⟩
  · exact .inl ⟨e, ⟨he, hpod⟩, hcard, hinst⟩

/-- An instance of an absent Pod outlives a pass only while the Pod is not counted out, and is then
counted once more. -/
theorem SmluNode.Sole.reconcile (h : n.Sole uid) (habsent : uid ∉ p.livePodUIDs)
    (hi : i ∈ (n.reconcile p).instances) (huid : decodeInstanceUID i.name = some uid) :
    (n.reconcile p).Sole uid ∧ (n.reconcile p).misses uid = n.misses uid + 1 ∧ n.misses uid < 2 := by
  have hmem := mem_filter.mp hi
  have htargets := h.mem_targets (p := p) hmem.1 huid
  have htouched : (n.call p).touched uid = true := by
    simp only [ReclaimCall.touched, Bool.not_eq_true', isEmpty_eq_false_iff_exists_mem]
    exact ⟨_, htargets⟩
  have hlive : (n.call p).live uid = false := by simpa [ReclaimCall.live, SmluNode.call] using habsent
  have hdue : (n.call p).due n.misses uid = false := by
    by_contra hdue
    rw [Bool.not_eq_false] at hdue
    have hdestroyed := mem_destroyed_call.mpr ⟨hdue, htargets⟩
    simp only [Bool.not_eq_true', any_eq_false] at hmem
    exact hmem.2 _ hdestroyed (by simp)
  have hdone : (n.call p).done n.misses uid = false := by simp [ReclaimCall.done, hdue]
  refine ⟨fun j hj hjuid => ?_, ?_, ?_⟩
  · rcases h j (mem_of_mem_filter hj) hjuid with hnone | ⟨e, he, hpod, hcard, hinst⟩
    · exact .inl fun e he => hnone e (Records.mem_scan_filter he)
    · -- the markers of a Pod that is not due stay
      refine .inr ⟨e, ?_, hpod, hcard, hinst⟩
      obtain ⟨contents, hfile, hparse⟩ := Records.mem_scan.mp he
      obtain rfl := Option.eq_some_of_filter_eq_some hparse
      refine Records.mem_scan.mpr ⟨_, mem_filter.mpr ⟨hfile, ?_⟩, hparse⟩
      simp only [Bool.not_eq_true', any_eq_false, beq_iff_eq, Prod.mk.injEq, Option.some.injEq]
      rintro e' he' ⟨-, hmarker⟩
      simp only [SmluNode.unlinked, mem_filter, mem_flatMap, ReclaimCall.markersOf,
        beq_iff_eq] at he'
      obtain ⟨⟨uid', ⟨-, hdue'⟩, -, hpod'⟩, -⟩ := he'
      rw [← hpod', hmarker, hpod, hdue] at hdue'
      cases hdue'
  · change Debounce.settle _ _ uid = _
    rw [Debounce.settle, hdone, Debounce.tally, htouched, hlive]
    rfl
  · by_contra hmisses
    rw [Bool.eq_false_iff] at hdue
    exact hdue ((ReclaimCall.due_iff _ _).mpr ⟨htouched, hlive, not_lt.mp hmisses⟩)

/-- **Three passes that miss a Pod leave it no instance.** -/
theorem decodeInstanceUID_ne_of_thrice {p₁ p₂ p₃ : SmluPass} (h : n.Sole uid)
    (h₁ : uid ∉ p₁.livePodUIDs) (h₂ : uid ∉ p₂.livePodUIDs) (h₃ : uid ∉ p₃.livePodUIDs) :
    ∀ i ∈ (((n.reconcile p₁).reconcile p₂).reconcile p₃).instances,
      decodeInstanceUID i.name ≠ some uid := by
  intro i hi huid
  have hi₂ : i ∈ ((n.reconcile p₁).reconcile p₂).instances := mem_of_mem_filter hi
  have hi₁ : i ∈ (n.reconcile p₁).instances := mem_of_mem_filter hi₂
  obtain ⟨hsole₁, hmisses₁, -⟩ := h.reconcile h₁ hi₁ huid
  obtain ⟨hsole₂, hmisses₂, -⟩ := hsole₁.reconcile h₂ hi₂ huid
  obtain ⟨-, -, hlt⟩ := hsole₂.reconcile h₃ hi huid
  omega

end Converge

/-- **Reclaim converges and touches nothing foreign.**  In every state of every run: no step of what
happens next destroys a foreign instance that no marker names, or a profile in use; after a pass every
profile has an instance; and three passes that miss a Pod leave it no instance, unless a marker has the
name of one on another card. -/
theorem reclaim_converges (sum : String → String) (n₀ : SmluNode) (h₀ : n₀.Backed) (n : SmluNode)
    (h : SmluReach sum n₀ n) :
    (∀ e, n.Fresh e → (n :: n.trace sum e).IsChain (Gentle sum)) ∧
    (∀ p, ∀ key ∈ (n.reconcile p).profiles, ∃ i ∈ (n.reconcile p).instances, i.profile = key) ∧
    ∀ uid, n.Sole uid → ∀ p₁ p₂ p₃ : SmluPass, uid ∉ p₁.livePodUIDs → uid ∉ p₂.livePodUIDs →
      uid ∉ p₃.livePodUIDs → ∀ i ∈ (((n.reconcile p₁).reconcile p₂).reconcile p₃).instances,
        decodeInstanceUID i.name ≠ some uid := by
  refine ⟨fun e hfresh => (isChain_trace (h.backed h₀) hfresh).imp fun _ _ => Effect.gentle,
    fun p key hkey => ?_, fun uid hsole p₁ p₂ p₃ => decodeInstanceUID_ne_of_thrice hsole⟩
  obtain ⟨i, hi, hprofile⟩ := any_eq_true.mp (mem_filter.mp hkey).2
  exact ⟨i, hi, beq_iff_eq.mp hprofile⟩

/-! ### A container reserved twice -/

/-- Nothing is sliced yet. -/
def SmluNode.bare : SmluNode := ⟨[], [], [], fun _ => 0⟩

def podOn (card : String) : SmluRequest := ⟨"pod-a", "main", card, 50, 8192⟩

def willing : ReserveAnswers := ⟨.ok (), .ok (), .ok 0, .ok "/dev/cambricon0", .ok (), true⟩

/-- A pass that is given no Pod. -/
def deserted : SmluPass := ⟨[], fun _ => false⟩

/-- The Pod's slice. -/
def reservedOnce : SmluNode := SmluNode.bare.after id (.reserve (podOn "mlu-0") willing none)

theorem reclaim_converges_reservedOnce :
    reservedOnce.instances ≠ [] ∧ ∀ i ∈ (((reservedOnce.reconcile deserted).reconcile
      deserted).reconcile deserted).instances, decodeInstanceUID i.name ≠ some "pod-a" := by
  have hreach : SmluReach id .bare reservedOnce := .step _ .start fun _ _ => not_mem_nil
  refine ⟨by decide +kernel, (reclaim_converges id .bare (fun _ hi => nomatch hi)
    reservedOnce hreach).2.2 "pod-a" ?_ deserted deserted deserted ?_ ?_ ?_⟩
  · unfold SmluNode.Sole
    decide +kernel
  all_goals exact not_mem_nil

/-- The first reservation is cut after its instance, and the second is given another card. -/
def reservedTwice : SmluNode :=
  (SmluNode.bare.after id (.reserve (podOn "mlu-0") willing (some 2))).after id
    (.reserve (podOn "mlu-1") willing none)

/-- Three passes without the Pod leave its first instance, the name of which the second one's marker has. -/
theorem unmarked_namesake_stays :
    SmluReach id .bare reservedTwice ∧
    ((((reservedTwice.reconcile deserted).reconcile deserted).reconcile deserted).instances.map
      fun i => (i.card, decodeInstanceUID i.name)) = [("mlu-0", some "pod-a")] := by
  refine ⟨.step _ (.step _ .start fun _ _ => not_mem_nil) fun new _ hmem => ?_, by decide +kernel⟩
  have hprofiles : (SmluNode.bare.after id (.reserve (podOn "mlu-0") willing (some 2))).profiles =
      [⟨"mlu-0", 0⟩] := by decide +kernel
  rw [hprofiles, mem_singleton, ProfileKey.mk.injEq] at hmem
  exact absurd hmem.1 (by decide)

end GpuStack.Cambricon
