import GpuStack.Cambricon.Reclaim
import GpuStack.Metax.Reclaim
import GpuStack.Nvidia.Reclaim

/-!
# Reclaim/Absences — three consecutive absences

The three reclaim loops count the passes that missed a Pod and act on the third.  A call whose readings
fail is over before it looks at the live Pods, and it leaves the counters as they were: it neither counts
a Pod as missed nor sets a live one back.

So a slice is destroyed after the Pod was absent from this call and from the two before it, exactly if
it was absent from those of the two whose readings failed (`destroyed_iff_absent`).
-/

namespace GpuStack

/-- The live set given to a call lacks a Pod, and so do those given to the two calls before it; the
latest call is first. -/
def ThriceAbsent {C : Type} (livePodUIDs : C → List String) (uid : String) (c : C) (calls : List C) :
    Prop :=
  2 ≤ calls.length ∧ ∀ d ∈ c :: calls.take 2, uid ∉ livePodUIDs d

variable {uid : String}

/-- What a counter at two leaves open, for a loop that looks a Pod up in the live set it is given. -/
theorem thriceAbsent_iff {C κ : Type} (l : Debounce.Loop κ C) {livePodUIDs : C → List String} {k : κ} (hlive : ∀ c, (l.pass c).live k = (livePodUIDs c).contains uid)
    {c : C} {calls : List C} (hn : 2 ≤ l.counters calls k)
    (hc : (livePodUIDs c).contains uid = false) :
    ThriceAbsent livePodUIDs uid c calls ↔
      ∀ d ∈ calls.take 2, (l.pass d).read = false → uid ∉ livePodUIDs d := by
  have habsent := l.absent_iff hn
  simp only [hlive, List.contains_eq_mem, decide_eq_false_iff_not] at habsent hc
  rw [ThriceAbsent, List.forall_mem_cons, habsent]
  exact ⟨fun h => h.2.2, fun h => ⟨l.le_length hn, hc, h⟩⟩

theorem cambricon_thriceAbsent_iff {calls : List Cambricon.ReclaimCall} {c : Cambricon.ReclaimCall} {ref : Cambricon.SmluRef}
    (h : (uid, ref) ∈ c.destroyed (Cambricon.ReclaimCall.loop.counters calls)) :
    ThriceAbsent Cambricon.ReclaimCall.livePodUIDs uid c calls ↔
      ∀ d ∈ calls.take 2, d.instances.isOk = false → uid ∉ d.livePodUIDs := by
  obtain ⟨-, hlive, hmiss⟩ := (c.due_iff _).mp (c.due_of_mem_destroyed _ h)
  exact thriceAbsent_iff Cambricon.ReclaimCall.loop (fun _ => rfl) hmiss hlive

theorem metax_thriceAbsent_iff {calls : List Metax.Survey} {c : Metax.Survey}
    {key : Metax.SubdevKey} (h : (uid, key) ∈ c.destroyed (Metax.Survey.loop.counters calls)) :
    ThriceAbsent (fun d : Metax.Survey => d.pass.livePodUIDs) uid c calls ↔
      ∀ d ∈ calls.take 2, d.pass.list.isOk = false → uid ∉ d.pass.livePodUIDs := by
  obtain ⟨-, hlive, hmiss⟩ := (c.due_iff _).mp (c.due_of_mem_destroyed _ h)
  exact thriceAbsent_iff Metax.Survey.loop (k := .pod uid) (fun _ => rfl) hmiss hlive

theorem nvidia_thriceAbsent_iff {calls : List Nvidia.ReclaimCall} {c : Nvidia.ReclaimCall}
    {card : String} {i : Nvidia.MigInstance}
    (h : (uid, card, i) ∈ c.destroyed (Nvidia.ReclaimCall.loop.counters calls)) :
    ThriceAbsent Nvidia.ReclaimCall.livePodUIDs uid c calls ↔
      ∀ d ∈ calls.take 2, d.snapshot.isSome = false → uid ∉ d.livePodUIDs := by
  obtain ⟨hmiss, hlive⟩ := c.due_of_mem_destroyed h
  exact thriceAbsent_iff Nvidia.ReclaimCall.loop (k := .pod uid) (fun d => d.keyLive_pod uid) hmiss
    hlive

/-- **Reclaim waits for three consecutive absences exactly if no failed call hides a live Pod.**  Of the
slices that a call destroys as a Pod's, with the counters that any sequence of calls left, the Pod was
absent from that call and the two before it if and only if it was absent from those of the two whose
listing or claims read failed. -/
theorem destroyed_iff_absent (uid : String) :
    (∀ (calls : List Nvidia.ReclaimCall) (c : Nvidia.ReclaimCall) (card : String)
      (i : Nvidia.MigInstance), (uid, card, i) ∈ c.destroyed (Nvidia.ReclaimCall.loop.counters calls) →
        (ThriceAbsent Nvidia.ReclaimCall.livePodUIDs uid c calls ↔
          ∀ d ∈ calls.take 2, d.snapshot.isSome = false → uid ∉ d.livePodUIDs)) ∧
    (∀ (calls : List Metax.Survey) (c : Metax.Survey) (key : Metax.SubdevKey),
      (uid, key) ∈ c.destroyed (Metax.Survey.loop.counters calls) →
        (ThriceAbsent (fun d : Metax.Survey => d.pass.livePodUIDs) uid c calls ↔
          ∀ d ∈ calls.take 2, d.pass.list.isOk = false → uid ∉ d.pass.livePodUIDs)) ∧
    (∀ (calls : List Cambricon.ReclaimCall) (c : Cambricon.ReclaimCall)
      (ref : Cambricon.SmluRef), (uid, ref) ∈ c.destroyed (Cambricon.ReclaimCall.loop.counters calls) →
        (ThriceAbsent Cambricon.ReclaimCall.livePodUIDs uid c calls ↔
          ∀ d ∈ calls.take 2, d.instances.isOk = false → uid ∉ d.livePodUIDs)) :=
  ⟨fun _ _ _ _ => nvidia_thriceAbsent_iff, fun _ _ _ => metax_thriceAbsent_iff,
    fun _ _ _ => cambricon_thriceAbsent_iff⟩

/-! ### A live Pod behind a listing that fails -/

/-- A Cambricon call that finds the one marker of `pod-a`. -/
def smluCall (live : List String) (listed : Bool) : Cambricon.ReclaimCall where
  livePodUIDs := live
  instances := if listed then .ok [⟨"mlu-0", "gpustack:pod-a:0"⟩] else .error "cndev: list"
  files := [("pod-a/main/smlu.json", some ⟨"pod-a", "main", "mlu-0", "gpustack:pod-a:0", 0, 50, 8192⟩)]
  destroyFails _ := false
  unlinkFails _ := false

/-- A MetaX call that finds the one marker of `pod-a`. -/
def sgpuCall (live : List String) (listed : Bool) : Metax.Survey where
  pass := ⟨live, if listed then .ok () else .error "sysfs: list", fun _ => false, fun _ => false⟩
  registry := []
  markers := [⟨⟨"pod-a", "main"⟩, ⟨"pod-a", "main", "0000:01:00.0", 0, 50, 8192⟩⟩]

/-- An NVIDIA call that finds the one marker of `pod-a` and its partition. -/
def migCall (live : List String) (listed : Bool) : Nvidia.ReclaimCall where
  livePodUIDs := live
  claims := .ok fun _ => []
  instances := if listed then .ok [("gpu-0", ⟨1, 0, 1, ⟨0, 1⟩, "MIG-0"⟩)] else .error "nvml: list"
  files := [(Nvidia.markerPath "pod-a" "main" "gpu-0",
    some ⟨"pod-a", "main", "gpu-0", "1g.10gb", 1, 0, "MIG-0", 1, 0, 1⟩)]
  cardInstances _ _ := .ok [⟨1, 0, 1, ⟨0, 1⟩, "MIG-0"⟩]
  cardFiles _ _ := [(Nvidia.markerPath "pod-a" "main" "gpu-0",
    some ⟨"pod-a", "main", "gpu-0", "1g.10gb", 1, 0, "MIG-0", 1, 0, 1⟩)]
  orphanFiles _ := []
  processes _ _ := .counted 0
  destroyFails _ _ := false
  unlinkFails _ := false

/-- Two calls miss the Pod, one is given it but cannot list, and the next destroys its slice. -/
theorem destroyed_though_live :
    (("pod-a", "gpu-0", ⟨1, 0, 1, ⟨0, 1⟩, "MIG-0"⟩) ∈ (migCall [] true).destroyed
        (Nvidia.ReclaimCall.loop.counters [migCall ["pod-a"] false, migCall [] true, migCall [] true]) ∧
      "pod-a" ∈ (migCall ["pod-a"] false).livePodUIDs) ∧
    (("pod-a", ⟨"0000:01:00.0", 0⟩) ∈ (sgpuCall [] true).destroyed
        (Metax.Survey.loop.counters [sgpuCall ["pod-a"] false, sgpuCall [] true, sgpuCall [] true]) ∧
      "pod-a" ∈ (sgpuCall ["pod-a"] false).pass.livePodUIDs) ∧
    ("pod-a", ⟨"mlu-0", "gpustack:pod-a:0"⟩) ∈ (smluCall [] true).destroyed
        (Cambricon.ReclaimCall.loop.counters
          [smluCall ["pod-a"] false, smluCall [] true, smluCall [] true]) ∧
      "pod-a" ∈ (smluCall ["pod-a"] false).livePodUIDs :=
  ⟨⟨by decide +kernel, by decide⟩, ⟨by decide +kernel, by decide⟩, by decide +kernel, by decide⟩

/-- Three calls that list and miss the Pod. -/
theorem destroyed_iff_absent_drained :
    ThriceAbsent Nvidia.ReclaimCall.livePodUIDs "pod-a" (migCall [] true)
        [migCall [] true, migCall [] true] ↔
      ∀ d ∈ [migCall [] true, migCall [] true].take 2, d.snapshot.isSome = false →
        "pod-a" ∉ d.livePodUIDs :=
  (destroyed_iff_absent "pod-a").1 [migCall [] true, migCall [] true] (migCall [] true) "gpu-0"
    ⟨1, 0, 1, ⟨0, 1⟩, "MIG-0"⟩ (by decide +kernel)

end GpuStack
