import GpuStack.Metax.Reclaim

/-!
# Metax/Retry — what becomes of a removal that failed

`destroy` removes a Pod's subdevices and then its markers, the markers whether or not the subdevices
went.  A subdevice that stayed is then one that nobody is known to own, and waits for its card to drain.

`Begun` slices are those a pass has tried to remove for the Pod they were recorded for.  While no pass
takes the marker of a slice it could not remove, and no pass finds such a Pod alive, each of them that
still exists is recorded and its Pod counted out (`Pending.reconcile`); so every pass tries it again
(`removal_retried`).
-/

namespace GpuStack.Metax

open List

/-- A readable marker of the Pod names the slice. -/
def Node.Recorded (n : Node) (uid : String) (key : SubdevKey) : Prop :=
  ∃ e ∈ scanMarkers n.files, e.marker.podUID = uid ∧ e.marker.wholeCard = false ∧ e.marker.key = key

/-- The subdevice exists. -/
def Node.Holds (n : Node) (key : SubdevKey) : Prop := ∃ sd ∈ n.registry, sd.key = key

/-- The recorded slices of the Pods whose reclaim a pass carries out. -/
def Node.begins (n : Node) (pass : ReclaimPass) : Set (String × SubdevKey) :=
  {x | pass.list.isOk = true ∧ (n.survey pass).due n.misses (.pod x.1) = true ∧ n.Recorded x.1 x.2}

/-- A pass that answers takes no marker of a slice it fails to remove, and finds no Pod alive whose
reclaim has begun and is not over. -/
structure Keeps (n : Node) (begun : Set (String × SubdevKey)) (pass : ReclaimPass) : Prop where
  record : ∀ e ∈ scanMarkers n.files, e.marker.wholeCard = false →
    (n.survey pass).due n.misses (.pod e.marker.podUID) = true →
    pass.removeFails e.marker.key = true → pass.unlinkFails e.path = true
  absent : ∀ x ∈ begun, n.Holds x.2 → pass.livePodUIDs.contains x.1 = false

/-- The nodes that passes of the loop lead to, and the slices whose reclaim has begun on the way. -/
inductive Begun (n₀ : Node) : Node → Set (String × SubdevKey) → Prop
  | start : Begun n₀ n₀ ∅
  | pass {n : Node} {begun : Set (String × SubdevKey)} (pass : ReclaimPass) : Begun n₀ n begun →
      (pass.list.isOk = true → Keeps n begun pass) →
      Begun n₀ (n.reconcile pass) (begun ∪ n.begins pass)

/-- A slice whose reclaim has begun and that exists is recorded, and its Pod is counted out. -/
def Pending (n : Node) (begun : Set (String × SubdevKey)) : Prop :=
  ∀ x ∈ begun, n.Holds x.2 → n.Recorded x.1 x.2 ∧ 2 ≤ n.misses (.pod x.1)

section Pass

variable {n : Node} {begun : Set (String × SubdevKey)} {pass : ReclaimPass} {uid : String}
  {key : SubdevKey}

theorem Node.Recorded.mem_subdevices (h : n.Recorded uid key) :
    key ∈ (n.survey pass).subdevices (.pod uid) :=
  (Survey.mem_subdevices_pod _).mpr (.inl h)

/-- A Pod counted out that is again absent is due. -/
theorem Node.Recorded.due (h : n.Recorded uid key) (hmisses : 2 ≤ n.misses (.pod uid))
    (habsent : pass.livePodUIDs.contains uid = false) :
    (n.survey pass).due n.misses (.pod uid) = true := by
  refine (Survey.due_iff _ _).mpr ⟨?_, habsent, hmisses⟩
  simp only [Survey.touched, Bool.or_eq_true, Bool.not_eq_true', isEmpty_eq_false_iff_exists_mem]
  exact .inl ⟨key, h.mem_subdevices⟩

/-- What a pass that answers leaves. -/
theorem reconcile_of_isOk (h : pass.list.isOk = true) :
    n.reconcile pass =
      { registry := n.registry.filter fun sd =>
          !(((n.survey pass).removals n.misses).contains sd.key && !pass.removeFails sd.key)
        files := n.files.filter fun file =>
          !(((n.survey pass).unlinks n.misses).any fun e => e.path == file.1 && !pass.unlinkFails e.path)
        misses := (n.survey pass).counted n.misses } := by
  cases hlist : pass.list with
  | error err => simp [hlist, Except.isOk, Except.toBool] at h
  | ok _ => simp only [Node.reconcile, hlist]

theorem holds_of_reconcile (hlist : pass.list.isOk = true) (h : (n.reconcile pass).Holds key) :
    n.Holds key := by
  obtain ⟨sd, hsd, rfl⟩ := h
  rw [reconcile_of_isOk hlist] at hsd
  exact ⟨sd, mem_of_mem_filter hsd, rfl⟩

/-- A slice that is due and outlives the pass could not be removed. -/
theorem removeFails_of_holds (hlist : pass.list.isOk = true)
    (hdue : (n.survey pass).due n.misses (.pod uid) = true) (hrec : n.Recorded uid key)
    (h : (n.reconcile pass).Holds key) : pass.removeFails key = true := by
  obtain ⟨sd, hsd, rfl⟩ := h
  obtain ⟨-, hlive, hmisses⟩ := (Survey.due_iff _ _).mp hdue
  have hremoved : sd.key ∈ (n.survey pass).removals n.misses :=
    (Survey.mem_removals _ _).mpr ⟨.pod uid, hlive, hmisses, hrec.mem_subdevices⟩
  rw [reconcile_of_isOk hlist] at hsd
  simpa [hremoved] using (mem_filter.mp hsd).2

/-- Its marker stays with it, and the Pod stays counted out. -/
theorem Node.Recorded.reconcile (hrec : n.Recorded uid key) (hkeeps : Keeps n begun pass)
    (hlist : pass.list.isOk = true) (hdue : (n.survey pass).due n.misses (.pod uid) = true)
    (hfails : pass.removeFails key = true) :
    (n.reconcile pass).Recorded uid key ∧ 2 ≤ (n.reconcile pass).misses (.pod uid) := by
  obtain ⟨htouched, hlive, hmisses⟩ := (Survey.due_iff _ _).mp hdue
  rw [reconcile_of_isOk hlist]
  constructor
  · obtain ⟨e, he, rfl, hpart, rfl⟩ := hrec
    have hstays := hkeeps.record e he hpart hdue hfails
    obtain ⟨contents, hfile, hparse⟩ := Records.mem_scan.mp he
    refine ⟨e, Records.mem_scan.mpr ⟨contents, mem_filter.mpr ⟨hfile, ?_⟩, hparse⟩, rfl,
      hpart, rfl⟩
    simp only [Bool.not_eq_true', any_eq_false, Bool.and_eq_true, beq_iff_eq, not_and]
    rintro e' - hpath
    simp [hpath, hstays]
  · have hdone : (n.survey pass).done n.misses (.pod uid) = false := by
      rw [Survey.done, Bool.and_eq_false_iff, Bool.and_eq_false_iff]
      refine .inl (.inr (all_eq_false.mpr ⟨key, hrec.mem_subdevices, ?_⟩))
      simp [Node.survey, hfails]
    have hcounted : (n.survey pass).counted n.misses (.pod uid) = n.misses (.pod uid) + 1 := by
      simp [Survey.counted, Debounce.settle, hdone, Debounce.tally, htouched, hlive]
    dsimp only
    omega

/-- **A pass keeps what is pending recorded and counted out.** -/
theorem Pending.reconcile (h : Pending n begun) (hkeeps : pass.list.isOk = true → Keeps n begun pass) :
    Pending (n.reconcile pass) (begun ∪ n.begins pass) := by
  intro x hx hholds
  cases hlist : pass.list.isOk with
  | false =>
    have hsame : n.reconcile pass = n := by
      cases hok : pass.list with
      | error err => simp only [Node.reconcile, hok]
      | ok _ => simp [hok, Except.isOk, Except.toBool] at hlist
    rw [hsame] at hholds ⊢
    exact h x (hx.resolve_right fun hbegins => Bool.false_ne_true (hlist.symm.trans hbegins.1)) hholds
  | true =>
    have hkeep := hkeeps hlist
    obtain ⟨hrec, hdue⟩ : n.Recorded x.1 x.2 ∧ (n.survey pass).due n.misses (.pod x.1) = true := by
      rcases hx with hx | ⟨-, hdue, hrec⟩
      · have hheld := holds_of_reconcile hlist hholds
        obtain ⟨hrec, hmisses⟩ := h x hx hheld
        exact ⟨hrec, hrec.due hmisses (hkeep.absent x hx hheld)⟩
      · exact ⟨hrec, hdue⟩
    exact hrec.reconcile hkeep hlist hdue (removeFails_of_holds hlist hdue hrec hholds)

/-- Where a pass takes every marker of a slice, and nothing was counted on its card before, the next
pass does not try it. -/
theorem not_retried (hplain : ∀ sd ∈ n.registry, sd.tag = "") (hlist : pass.list.isOk = true)
    (hcard : n.misses (.card key.bdf) = 0)
    (hlost : ∀ e ∈ scanMarkers n.files, e.marker.wholeCard = false → e.marker.key = key →
      (n.survey pass).due n.misses (.pod e.marker.podUID) = true ∧ pass.unlinkFails e.path = false)
    (next : ReclaimPass) :
    key ∉ ((n.reconcile pass).survey next).removals (n.reconcile pass).misses := by
  rw [reconcile_of_isOk hlist, Survey.mem_removals]
  rintro ⟨k, -, hmisses, hkey⟩
  cases k with
  | pod uid =>
    rcases (Survey.mem_subdevices_pod _).mp hkey with ⟨e, he, -, hpart, hekey⟩ | ⟨sd, hsd, -, htag, -⟩
    · -- the marker it would be found by is among those taken
      obtain ⟨contents, hfile, hparse⟩ := Records.mem_scan.mp he
      obtain ⟨hfile, hkept⟩ := mem_filter.mp hfile
      have hmem : e ∈ scanMarkers n.files := Records.mem_scan.mpr ⟨contents, hfile, hparse⟩
      obtain ⟨hdue, hunlink⟩ := hlost e hmem hpart hekey
      have htaken : e ∈ (n.survey pass).unlinks n.misses :=
        mem_flatMap.mpr ⟨.pod e.marker.podUID, mem_filter.mpr
          ⟨Survey.mem_keys _ ((Survey.due_iff _ _).mp hdue).1, hdue⟩,
          (Survey.mem_markersOf _).mpr ⟨hmem, rfl⟩⟩
      simp only [Bool.not_eq_true', any_eq_false] at hkept
      exact hkept e htaken (by simp [hunlink])
    · have hnobody : decodeAliasUID "" = none := by decide +kernel
      rw [hplain sd (mem_of_mem_filter hsd), hnobody] at htag
      cases htag
  | card bdf =>
    obtain ⟨rfl, -⟩ := (Survey.mem_subdevices_card _).mp hkey
    have hle : (n.survey pass).counted n.misses (.card key.bdf) ≤ _ := Debounce.settle_tally_le _ _
    rw [Debounce.Pass.ceiling, hcard] at hle
    dsimp only at hmisses
    split_ifs at hle <;> omega

end Pass

theorem Begun.pending {n₀ n : Node} {begun : Set (String × SubdevKey)} (h : Begun n₀ n begun) :
    Pending n begun := by
  induction h with
  | start => rintro x ⟨⟩
  | pass pass _ hkeeps ih => exact ih.reconcile hkeeps

/-- **A removal that failed is tried again** by the next pass that answers and does not find the Pod, as
long as no pass took the marker of a slice it could not remove; and where one did, it is not, unless the
card was being counted already. -/
theorem removal_retried (n₀ : Node) :
    (∀ n begun, Begun n₀ n begun → ∀ next : ReclaimPass, next.list.isOk = true →
      ∀ x ∈ begun, n.Holds x.2 → next.livePodUIDs.contains x.1 = false →
        x.2 ∈ (n.survey next).removals n.misses) ∧
    ∀ pass : ReclaimPass, pass.list.isOk = true → (∀ sd ∈ n₀.registry, sd.tag = "") →
      ∀ key, n₀.misses (.card key.bdf) = 0 →
      (∀ e ∈ scanMarkers n₀.files, e.marker.wholeCard = false → e.marker.key = key →
        (n₀.survey pass).due n₀.misses (.pod e.marker.podUID) = true ∧
          pass.unlinkFails e.path = false) →
      ∀ next, key ∉ ((n₀.reconcile pass).survey next).removals (n₀.reconcile pass).misses := by
  refine ⟨fun n begun h next _ x hx hholds habsent => ?_, fun pass hlist hplain key hcard hlost =>
    not_retried hplain hlist hcard hlost⟩
  obtain ⟨hrec, hmisses⟩ := h.pending x hx hholds
  exact (Survey.mem_removals _ _).mpr ⟨.pod x.1, habsent, hmisses, hrec.mem_subdevices⟩

/-! ### One Pod's slice, on a card another Pod holds a slice of -/

/-- Two Pods' slices of one card, the first Pod missed twice. -/
def neighbours : Node where
  registry := [⟨"0000:01:00.0", 0, ""⟩, ⟨"0000:01:00.0", 1, ""⟩]
  files := [(⟨"pod-a", "main"⟩, some ⟨"pod-a", "main", "0000:01:00.0", 0, 50, 8192⟩),
    (⟨"pod-b", "main"⟩, some ⟨"pod-b", "main", "0000:01:00.0", 1, 50, 8192⟩)]
  misses k := if k = .pod "pod-a" then 2 else 0

/-- The first Pod is gone, its removal fails, and its marker is or is not taken. -/
def failing (kept : Bool) : ReclaimPass :=
  ⟨["pod-b"], .ok (), fun key => key.index = 0, fun _ => kept⟩

theorem removal_retried_kept :
    ⟨"0000:01:00.0", 0⟩ ∈ ((neighbours.reconcile (failing true)).survey (failing true)).removals
      (neighbours.reconcile (failing true)).misses := by
  have hbegun : Begun neighbours (neighbours.reconcile (failing true)) _ :=
    .pass (failing true) .start fun _ => ⟨fun _ _ _ _ _ => rfl, fun x hx => hx.elim⟩
  refine (removal_retried neighbours).1 _ _ hbegun (failing true) rfl ("pod-a", ⟨"0000:01:00.0", 0⟩)
    (.inr ⟨rfl, by decide +kernel, ?_⟩) ?_ (by decide)
  · exact ⟨⟨⟨"pod-a", "main"⟩, ⟨"pod-a", "main", "0000:01:00.0", 0, 50, 8192⟩⟩, by decide +kernel, rfl,
      by decide, rfl⟩
  · exact ⟨⟨"0000:01:00.0", 0, ""⟩, by decide +kernel, rfl⟩

/-- The slice outlives the pass that should have removed it, its marker does not, and the next pass,
again without the Pod, does not try. -/
theorem removal_forgotten :
    (neighbours.survey (failing false)).due neighbours.misses (.pod "pod-a") = true ∧
    (neighbours.reconcile (failing false)).registry = neighbours.registry ∧
    ((neighbours.reconcile (failing false)).survey (failing false)).removals
      (neighbours.reconcile (failing false)).misses = [] := by
  decide +kernel

end GpuStack.Metax
