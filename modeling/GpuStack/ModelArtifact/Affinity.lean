import Mathlib

/-!
# ModelArtifact/Affinity — a volume's node affinity on the Pod that mounts it

`injectModelArtifactAffinity` adds the required node affinity of a persistent volume to a Pod's own by crossing
the alternatives of the two: a crossed term carries the requirements of one term of each.

A node selector is a list of alternatives, and a term without any requirement matches no node.  Where neither
side has such a term the crossing is the conjunction.  Where one has, the crossed term carries the
requirements of the other side alone, and so lets in what that side lets in (`matches_cross`).
`inject_and_iff` says for which nodes the result is still the conjunction, and `empty_term_dropped` is a Pod
that no node satisfied and that the injection makes schedulable.

How a single requirement is read is left to a `Reading`, so the results hold for every operator.
-/

namespace GpuStack.ModelArtifact

/-! ### Node selectors -/

/-- `core.NodeSelectorOperator` -/
inductive NodeSelectorOperator where
  | opIn
  | opNotIn
  | opExists
  | opDoesNotExist
  | opGt
  | opLt
deriving DecidableEq, Repr

/-- `core.NodeSelectorRequirement` -/
structure NodeSelectorRequirement where
  key : String
  operator : NodeSelectorOperator
  values : List String
deriving DecidableEq, Repr

/-- `core.NodeSelectorTerm` -/
structure NodeSelectorTerm where
  matchExpressions : List NodeSelectorRequirement := []
  matchFields : List NodeSelectorRequirement := []
deriving DecidableEq, Repr

/-- `core.NodeSelector` -/
structure NodeSelector where
  nodeSelectorTerms : List NodeSelectorTerm
deriving DecidableEq, Repr

/-- `core.NodeAffinity`, of which only the required part is touched. -/
structure NodeAffinity where
  requiredDuringSchedulingIgnoredDuringExecution : Option NodeSelector := none
deriving DecidableEq, Repr

/-- `core.Affinity` -/
structure Affinity where
  nodeAffinity : Option NodeAffinity := none
deriving DecidableEq, Repr

/-- `core.Pod` -/
structure Pod where
  affinity : Option Affinity := none
deriving DecidableEq, Repr

/-- The Pod's own required node affinity. -/
def Pod.required (pod : Pod) : Option NodeSelector :=
  pod.affinity.bind fun a => a.nodeAffinity.bind (·.requiredDuringSchedulingIgnoredDuringExecution)

/-- A term of each, joined. -/
def NodeSelectorTerm.join (a b : NodeSelectorTerm) : NodeSelectorTerm where
  matchExpressions := a.matchExpressions ++ b.matchExpressions
  matchFields := a.matchFields ++ b.matchFields

/-- The two lists of alternatives, crossed. -/
def NodeSelector.cross (existing required : NodeSelector) : NodeSelector where
  nodeSelectorTerms := existing.nodeSelectorTerms.flatMap fun a => required.nodeSelectorTerms.map a.join

/-- `injectModelArtifactAffinity` -/
def injectModelArtifactAffinity (pod : Pod) : Option NodeSelector → Pod
  | none => pod
  | some required =>
    if required.nodeSelectorTerms = [] then pod
    else
      let affinity := pod.affinity.getD {}
      let na := affinity.nodeAffinity.getD {}
      let injected :=
        match na.requiredDuringSchedulingIgnoredDuringExecution with
        | none => required
        | some existing =>
          if existing.nodeSelectorTerms = [] then required else existing.cross required
      let na := { na with requiredDuringSchedulingIgnoredDuringExecution := some injected }
      { pod with affinity := some { affinity with nodeAffinity := some na } }

/-! ### The Kubernetes meaning -/

/-- How one requirement is read on a node: on its labels, and on its fields. -/
structure Reading (N : Type) where
  label : N → NodeSelectorRequirement → Bool
  field : N → NodeSelectorRequirement → Bool

/-- A term without any requirement. -/
def NodeSelectorTerm.isEmpty (t : NodeSelectorTerm) : Bool :=
  t.matchExpressions.isEmpty && t.matchFields.isEmpty

section Meaning

variable {N : Type} (r : Reading N) (node : N)

/-- Every requirement of the term is met. -/
def NodeSelectorTerm.Met (t : NodeSelectorTerm) : Prop :=
  (∀ e ∈ t.matchExpressions, r.label node e) ∧ ∀ f ∈ t.matchFields, r.field node f

/-- A term matches when it has requirements and all are met. -/
def NodeSelectorTerm.Matches (t : NodeSelectorTerm) : Prop := t.isEmpty = false ∧ t.Met r node

/-- The terms are alternatives. -/
def NodeSelector.Matches (s : NodeSelector) : Prop := ∃ t ∈ s.nodeSelectorTerms, t.Matches r node

/-- The node satisfies the Pod's required node affinity; every node satisfies an absent one. -/
def Pod.Satisfied (pod : Pod) : Prop := ∀ s, pod.required = some s → s.Matches r node

variable {r node}

theorem met_join {a b : NodeSelectorTerm} : (a.join b).Met r node ↔ a.Met r node ∧ b.Met r node := by
  simp only [NodeSelectorTerm.Met, NodeSelectorTerm.join, List.forall_mem_append]
  tauto

theorem isEmpty_join (a b : NodeSelectorTerm) : (a.join b).isEmpty = (a.isEmpty && b.isEmpty) := by
  rw [Bool.eq_iff_iff]
  simp only [NodeSelectorTerm.isEmpty, NodeSelectorTerm.join, Bool.and_eq_true, List.isEmpty_iff,
    List.append_eq_nil_iff]
  tauto

theorem met_of_isEmpty {t : NodeSelectorTerm} (h : t.isEmpty) : t.Met r node := by
  obtain ⟨he, hf⟩ := Bool.and_eq_true_iff.mp h
  rw [List.isEmpty_iff] at he hf
  simp [NodeSelectorTerm.Met, he, hf]

/-- A joined term matches when both do, or when one has no requirement and the other matches. -/
theorem matches_join {a b : NodeSelectorTerm} :
    (a.join b).Matches r node ↔
      (a.Matches r node ∧ b.Matches r node) ∨ (a.isEmpty ∧ b.Matches r node) ∨
        (b.isEmpty ∧ a.Matches r node) := by
  rw [NodeSelectorTerm.Matches, isEmpty_join, met_join, NodeSelectorTerm.Matches,
    NodeSelectorTerm.Matches]
  cases ha : a.isEmpty <;> cases hb : b.isEmpty
  · simp
  · simp [met_of_isEmpty hb]
  · simp [met_of_isEmpty ha]
  · simp

/-- **What the crossing lets in**: what both sides let in, and what either lets in beside an empty term of the
other. -/
theorem matches_cross {existing required : NodeSelector} :
    (existing.cross required).Matches r node ↔
      (existing.Matches r node ∧ required.Matches r node) ∨
        ((∃ a ∈ existing.nodeSelectorTerms, a.isEmpty) ∧ required.Matches r node) ∨
          ((∃ b ∈ required.nodeSelectorTerms, b.isEmpty) ∧ existing.Matches r node) := by
  simp only [NodeSelector.Matches, NodeSelector.cross, List.mem_flatMap, List.mem_map]
  constructor
  · rintro ⟨t, ⟨a, ha, b, hb, rfl⟩, ht⟩
    obtain ⟨hma, hmb⟩ | ⟨hea, hmb⟩ | ⟨heb, hma⟩ := matches_join.mp ht
    · exact .inl ⟨⟨a, ha, hma⟩, b, hb, hmb⟩
    · exact .inr (.inl ⟨⟨a, ha, hea⟩, b, hb, hmb⟩)
    · exact .inr (.inr ⟨⟨b, hb, heb⟩, a, ha, hma⟩)
  · rintro (⟨⟨a, ha, hma⟩, b, hb, hmb⟩ | ⟨⟨a, ha, hea⟩, b, hb, hmb⟩ | ⟨⟨b, hb, heb⟩, a, ha, hma⟩)
    · exact ⟨_, ⟨a, ha, b, hb, rfl⟩, matches_join.mpr (.inl ⟨hma, hmb⟩)⟩
    · exact ⟨_, ⟨a, ha, b, hb, rfl⟩, matches_join.mpr (.inr (.inl ⟨hea, hmb⟩))⟩
    · exact ⟨_, ⟨a, ha, b, hb, rfl⟩, matches_join.mpr (.inr (.inr ⟨heb, hma⟩))⟩

/-! ### The injection -/

/-- What the injection leaves in the Pod. -/
theorem required_inject (pod : Pod) {required : NodeSelector}
    (hterms : required.nodeSelectorTerms ≠ []) :
    (injectModelArtifactAffinity pod (some required)).required = some
      (match pod.required with
      | none => required
      | some existing =>
        if existing.nodeSelectorTerms = [] then required else existing.cross required) := by
  obtain ⟨_ | ⟨_ | ⟨_ | existing⟩⟩⟩ := pod <;>
    simp [injectModelArtifactAffinity, Pod.required, hterms]

theorem satisfied_of_required {pod : Pod} {s : NodeSelector} (h : pod.required = some s) :
    pod.Satisfied r node ↔ s.Matches r node := by
  simp [Pod.Satisfied, h]

variable (r node)

/-- **The nodes for which the injection is the conjunction.**  Where the Pod's required affinity has no term or
an empty one, a node that the volume allows must satisfy it through another term; where the volume's
selector has an empty term, a node that satisfies the Pod's affinity must be allowed by another term. -/
def Conjoins (pod : Pod) (required : NodeSelector) : Prop :=
  ∀ existing, pod.required = some existing →
    ((existing.nodeSelectorTerms = [] ∨ ∃ a ∈ existing.nodeSelectorTerms, a.isEmpty) →
      required.Matches r node → existing.Matches r node) ∧
    ((∃ b ∈ required.nodeSelectorTerms, b.isEmpty) →
      existing.Matches r node → required.Matches r node)

/-- **Adding a volume's node affinity is a conjunction** for exactly the nodes that `Conjoins` names. -/
theorem inject_and_iff (pod : Pod) (required : NodeSelector)
    (hterms : required.nodeSelectorTerms ≠ []) :
    ((injectModelArtifactAffinity pod (some required)).Satisfied r node ↔
        pod.Satisfied r node ∧ required.Matches r node) ↔ Conjoins r node pod required := by
  rw [satisfied_of_required (required_inject pod hterms)]
  cases hpod : pod.required with
  | none => simp [Pod.Satisfied, Conjoins, hpod]
  | some existing =>
    rw [satisfied_of_required hpod]
    simp only [Conjoins, hpod, Option.some.injEq, forall_eq']
    split
    next hnil =>
      have hnone : ¬existing.Matches r node := by simp [NodeSelector.Matches, hnil]
      simp [hnil, hnone]
    next hne =>
      have hlaw : ∀ A B E R : Prop,
          (E ∧ R ∨ A ∧ R ∨ B ∧ E ↔ E ∧ R) ↔ (A → R → E) ∧ (B → E → R) := by tauto
      rw [matches_cross]
      simp only [hne, false_or]
      exact hlaw ..

/-- Where no term is empty and the Pod's affinity has terms, if it is there at all, every node does. -/
theorem conjoins_of_nonempty {pod : Pod} {required : NodeSelector}
    (hpod : ∀ existing, pod.required = some existing → existing.nodeSelectorTerms ≠ [] ∧
      ∀ a ∈ existing.nodeSelectorTerms, a.isEmpty = false)
    (hrequired : ∀ b ∈ required.nodeSelectorTerms, b.isEmpty = false) :
    Conjoins r node pod required := by
  intro existing hexisting
  obtain ⟨hne, hterms⟩ := hpod existing hexisting
  constructor
  · rintro (hnil | ⟨a, ha, hempty⟩)
    · exact absurd hnil hne
    · exact absurd (hterms a ha) (by simp [hempty])
  · rintro ⟨b, hb, hempty⟩
    exact absurd (hrequired b hb) (by simp [hempty])

end Meaning

/-! ### A reading of the operators -/

/-- Labels of a node, read as Kubernetes does. -/
def readRequirement (labels : List (String × String)) (q : NodeSelectorRequirement) : Bool :=
  match q.operator, labels.lookup q.key with
  | .opIn, some v => v ∈ q.values
  | .opIn, none => false
  | .opNotIn, some v => v ∉ q.values
  | .opNotIn, none => true
  | .opExists, v => v.isSome
  | .opDoesNotExist, v => v.isNone
  | .opGt, some v => compared v fun x y => y < x
  | .opLt, some v => compared v fun x y => x < y
  | _, none => false
where
  compared (v : String) (holds : ℤ → ℤ → Bool) : Bool :=
    match v.toInt?, q.values.map String.toInt? with
    | some x, [some y] => holds x y
    | _, _ => false

/-- A node as its labels and its fields. -/
def labelled : Reading (List (String × String) × List (String × String)) where
  label node := readRequirement node.1
  field node := readRequirement node.2

/-- A volume in zone `a`. -/
def zoneA : NodeSelector := ⟨[{ matchExpressions := [⟨"zone", .opIn, ["a"]⟩] }]⟩

/-- A Pod whose required affinity is one empty term. -/
def unplaceable : Pod := ⟨some ⟨some ⟨some ⟨[{}]⟩⟩⟩⟩

/-- A Pod that wants a GPU node. -/
def wantsGpu : Pod := ⟨some ⟨some ⟨some ⟨[{ matchExpressions := [⟨"gpu", .opExists, []⟩] }]⟩⟩⟩⟩

/-- The ordinary case, for a GPU node of another zone. -/
theorem inject_and_iff_wantsGpu :
    (injectModelArtifactAffinity wantsGpu (some zoneA)).Satisfied labelled
        ([("gpu", "1"), ("zone", "b")], []) ↔
      wantsGpu.Satisfied labelled ([("gpu", "1"), ("zone", "b")], []) ∧
        zoneA.Matches labelled ([("gpu", "1"), ("zone", "b")], []) :=
  (inject_and_iff labelled _ wantsGpu zoneA (by decide)).mpr
    (conjoins_of_nonempty _ _ (by simp [wantsGpu, Pod.required, NodeSelectorTerm.isEmpty])
      (by simp [zoneA, NodeSelectorTerm.isEmpty]))

/-- **A Pod that no node satisfies becomes schedulable**: its empty term is dropped in the crossing. -/
theorem empty_term_dropped :
    ¬unplaceable.Satisfied labelled ([("zone", "a")], []) ∧
      (injectModelArtifactAffinity unplaceable (some zoneA)).Satisfied labelled
        ([("zone", "a")], []) := by
  constructor
  · rw [satisfied_of_required rfl]
    simp [NodeSelector.Matches, NodeSelectorTerm.Matches, NodeSelectorTerm.isEmpty]
  · rw [satisfied_of_required (required_inject _ (by decide))]
    refine ⟨{ matchExpressions := [⟨"zone", .opIn, ["a"]⟩] }, by decide, by decide, ?_, by simp⟩
    simp only [List.mem_singleton, forall_eq]
    decide

end GpuStack.ModelArtifact
