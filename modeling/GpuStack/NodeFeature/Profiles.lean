import GpuStack.Lib.Text

/-!
# NodeFeature/Profiles — the names of hardware partition profiles

A partition profile is requested by a resource key that ends in the profile's name.  T-Head's
library writes the two numbers of a profile without a separator and the key carries one, so the name
is respelled on the way out and on the way back.

A key is read by looking for a manufacturer whose keys begin as it does, in no fixed order.  What is
read is the profile that was published as long as no manufacturer's keys begin as another's do; the
environment renames both parts of a key's beginning, and can make them alike
(`renamed_key_misread`).
-/

namespace GpuStack.NodeFeature

open List

/-! ### Geometry names -/

/-- A match of `^([0-9]+)g<sep>([0-9]+)gb$`, with what it captures. -/
def matchGeometry (sep : List Char) (name : List Char) : Option (List Char × List Char) :=
  let first := name.takeWhile Char.isDigit
  match ('g' :: sep).isPrefixOf? (name.dropWhile Char.isDigit) with
  | none => none
  | some rest =>
    let second := rest.takeWhile Char.isDigit
    if first ≠ [] ∧ second ≠ [] ∧ rest.dropWhile Char.isDigit = ['g', 'b'] then some (first, second)
    else none

/-- The name of a geometry. -/
def geometry (sep : List Char) (numbers : List Char × List Char) : List Char :=
  numbers.1 ++ 'g' :: (sep ++ (numbers.2 ++ ['g', 'b']))

/-- Two numerals. -/
def Numerals (numbers : List Char × List Char) : Prop :=
  (numbers.1 ≠ [] ∧ ∀ c ∈ numbers.1, c.isDigit) ∧ numbers.2 ≠ [] ∧ ∀ c ∈ numbers.2, c.isDigit

variable {sep name t : List Char} {numbers : List Char × List Char}

theorem takeWhile_digits_append (h : ∀ c ∈ t, c.isDigit) (rest : List Char) :
    (t ++ 'g' :: rest).takeWhile Char.isDigit = t ∧
      (t ++ 'g' :: rest).dropWhile Char.isDigit = 'g' :: rest := by
  rw [takeWhile_append_of_pos h, dropWhile_append_of_pos h, takeWhile_cons_of_neg (by decide),
    dropWhile_cons_of_neg (by decide), append_nil]
  exact ⟨rfl, rfl⟩

/-- A geometry's name is matched, and what is captured are its numbers. -/
theorem matchGeometry_geometry (h : Numerals numbers) :
    matchGeometry sep (geometry sep numbers) = some numbers := by
  have hfirst := takeWhile_digits_append h.1.2 (sep ++ (numbers.2 ++ ['g', 'b']))
  have hsecond := takeWhile_digits_append h.2.2 ['b']
  have hcut : ('g' :: sep).isPrefixOf? ('g' :: (sep ++ (numbers.2 ++ ['g', 'b']))) =
      some (numbers.2 ++ ['g', 'b']) := by
    rw [isPrefixOf?_eq_some_iff_append_eq]
    rfl
  simp only [matchGeometry, geometry, hfirst.1, hfirst.2, hcut, hsecond.1, hsecond.2]
  exact if_pos ⟨h.1.1, h.2.1, trivial⟩

/-- Whatever is matched is a geometry's name. -/
theorem eq_geometry_of_match (h : matchGeometry sep name = some numbers) :
    name = geometry sep numbers ∧ Numerals numbers := by
  simp only [matchGeometry] at h
  split at h
  next => cases h
  next rest hcut =>
    obtain ⟨⟨hfirst, hsecond, hend⟩, hpair⟩ := Option.ite_none_right_eq_some.mp h
    obtain rfl := Option.some.inj hpair
    rw [isPrefixOf?_eq_some_iff_append_eq] at hcut
    refine ⟨?_, ⟨hfirst, fun _ => mem_takeWhile_imp⟩, hsecond, fun _ => mem_takeWhile_imp⟩
    rw [geometry, ← hend, takeWhile_append_dropWhile, ← cons_append, hcut,
      takeWhile_append_dropWhile]

/-- A name has one of the two spellings, not both. -/
theorem matchGeometry_other (h : Numerals numbers) :
    matchGeometry ['.'] (geometry [] numbers) = none ∧
      matchGeometry [] (geometry ['.'] numbers) = none := by
  obtain ⟨first, second⟩ := numbers
  obtain ⟨c, second, rfl⟩ := exists_cons_of_ne_nil h.2.1
  have hdigit : c.isDigit := h.2.2 c mem_cons_self
  have hc : c ≠ '.' := by
    rintro rfl
    exact absurd hdigit (by decide)
  have hfirst := takeWhile_digits_append (t := first) h.1.2
  constructor
  · simp only [matchGeometry, geometry, (hfirst _).2, nil_append, cons_append]
    simp [isPrefixOf?, Ne.symm hc]
  · simp only [matchGeometry, geometry, (hfirst _).1, (hfirst _).2, cons_append, nil_append]
    simp [isPrefixOf?]

/-! ### The two spellings -/

/-- The manufacturers whose library writes no separator. -/
def separatorless : List String := ["thead"]

/-- Put a geometry's name from one spelling into the other, and leave every other name. -/
def respell (old new name : List Char) : List Char :=
  ((matchGeometry old name).map (geometry new)).getD name

def publishPartitionedProfileName (manufacturer : String) (profile : List Char) : List Char :=
  if manufacturer ∉ separatorless then profile else respell [] ['.'] profile

def vendorPartitionedProfileName (manufacturer : String) (profile : List Char) : List Char :=
  if manufacturer ∉ separatorless then profile else respell ['.'] [] profile

theorem respell_geometry (old new : List Char) (h : Numerals numbers) :
    respell old new (geometry old numbers) = geometry new numbers := by
  rw [respell, matchGeometry_geometry h]
  rfl

/-- A name is respelled or left. -/
theorem respell_cases (old new name : List Char) :
    (∃ numbers, Numerals numbers ∧ name = geometry old numbers ∧
      respell old new name = geometry new numbers) ∨ respell old new name = name := by
  cases h : matchGeometry old name with
  | none => exact .inr (by rw [respell, h]; rfl)
  | some numbers =>
    obtain ⟨rfl, hnum⟩ := eq_geometry_of_match h
    exact .inl ⟨numbers, hnum, rfl, respell_geometry old new hnum⟩

/-- **Respelling loses nothing**: a name and its other spelling are respelled alike, when no name
has both spellings. -/
theorem respell_respell {old new : List Char} (name : List Char)
    (h : ∀ numbers, Numerals numbers → matchGeometry new (geometry old numbers) = none) :
    respell new old (respell old new name) = respell new old name := by
  obtain ⟨numbers, hnum, rfl, heq⟩ | heq := respell_cases old new name
  · rw [heq, respell_geometry new old hnum, respell, h numbers hnum]
    rfl
  · rw [heq]

theorem respell_idem {old new : List Char} (name : List Char)
    (h : ∀ numbers, Numerals numbers → matchGeometry old (geometry new numbers) = none) :
    respell old new (respell old new name) = respell old new name := by
  obtain ⟨numbers, hnum, rfl, heq⟩ | heq := respell_cases old new name
  · rw [heq, respell, h numbers hnum]
    rfl
  · rw [heq, heq]

theorem vendor_publish (manufacturer : String) (profile : List Char) :
    vendorPartitionedProfileName manufacturer (publishPartitionedProfileName manufacturer profile) =
      vendorPartitionedProfileName manufacturer profile := by
  unfold vendorPartitionedProfileName publishPartitionedProfileName
  split
  next => rfl
  next => exact respell_respell profile fun _ hnum => (matchGeometry_other hnum).1

/-! ### Resource keys -/

/-- What the environment sets in place of the built-in names; the empty text sets nothing. -/
structure Environment where
  resourceName : String → List Char := fun _ => []
  partitionKind : String → List Char := fun _ => []

/-- The manufacturers with hardware partitions: their resource and their word for a partition. -/
def partitionKinds : List (String × List Char × List Char) :=
  [("nvidia", "nvidia.com/gpu".toList, "mig".toList),
    ("thead", "alibabacloud.com/ppu".toList, "mig".toList),
    ("hygon", "hygon.com/dcu".toList, "mig".toList)]

def overridden (set builtin : List Char) : List Char := if set = [] then builtin else set

/-- What the partition keys of each manufacturer begin with. -/
def Environment.keyStarts (env : Environment) : List (String × List Char) :=
  partitionKinds.map fun m => (m.1,
    overridden (env.resourceName m.1) m.2.1 ++ ".partitioned.".toList ++
      overridden (env.partitionKind m.1) m.2.2 ++ ['-'])

/-- The key of a profile, empty when there is none.  `valid` is the check of the API machinery. -/
def partitionedProfileResourceName (valid : List Char → Bool) (env : Environment)
    (manufacturer : String) (profile : List Char) : List Char :=
  match env.keyStarts.lookup manufacturer with
  | none => []
  | some start =>
    let name := start ++ publishPartitionedProfileName manufacturer profile
    if profile = [] ∨ !valid name then [] else name

/-- The manufacturer and the published name a key carries, the manufacturers tried in some order. -/
def partitionedProfileOf (order : List (String × List Char)) (key : List Char) :
    Option (String × List Char) :=
  order.findSome? fun m => ((m.2.isPrefixOf? key).filter (· ≠ [])).map fun profile => (m.1, profile)

def vendorPartitionedProfileOf (order : List (String × List Char)) (key : List Char) :
    Option (List Char) :=
  (partitionedProfileOf order key).map fun m => vendorPartitionedProfileName m.1 m.2

/-- The keys of no manufacturer begin as those of another. -/
def KeysApart (starts : List (String × List Char)) : Prop :=
  ∀ m ∈ starts, ∀ m' ∈ starts, m.2 <+: m'.2 → m = m'

instance (starts : List (String × List Char)) : Decidable (KeysApart starts) := by
  unfold KeysApart
  infer_instance

theorem publish_ne_nil {manufacturer : String} {profile : List Char} (h : profile ≠ []) :
    publishPartitionedProfileName manufacturer profile ≠ [] := by
  unfold publishPartitionedProfileName
  split
  next => exact h
  next =>
    obtain ⟨numbers, -, -, heq⟩ | heq := respell_cases [] ['.'] profile
    · simp [heq, geometry]
    · rwa [heq]

/-- Only the manufacturer of a key recognises it. -/
theorem partitionedProfileOf_append {starts order : List (String × List Char)}
    (hperm : order.Perm starts) (hapart : KeysApart starts) {m : String × List Char}
    (hm : m ∈ starts) {profile : List Char} (hne : profile ≠ []) :
    partitionedProfileOf order (m.2 ++ profile) = some (m.1, profile) := by
  have hread : (m.2.isPrefixOf? (m.2 ++ profile)).filter (· ≠ []) = some profile := by
    rw [isPrefixOf?_eq_some_iff_append_eq.mpr rfl, Option.filter_some_pos (by simpa using hne)]
  cases hfound : partitionedProfileOf order (m.2 ++ profile) with
  | none =>
    have := findSome?_eq_none_iff.mp hfound m (hperm.mem_iff.mpr hm)
    rw [hread] at this
    cases this
  | some found =>
    obtain ⟨m', hm', hfound⟩ := exists_of_findSome?_eq_some hfound
    obtain ⟨rest, hrest, rfl⟩ := Option.map_eq_some_iff.mp hfound
    have hcut := isPrefixOf?_eq_some_iff_append_eq.mp (Option.filter_eq_some_iff.mp hrest).1
    -- two beginnings of one key: the shorter begins the longer
    have hsame : m' = m := by
      rcases prefix_or_prefix_of_prefix ⟨rest, hcut⟩ ⟨profile, rfl⟩ with hstart | hstart
      · exact hapart m' (hperm.mem_iff.mp hm') m hm hstart
      · exact (hapart m hm m' (hperm.mem_iff.mp hm') hstart).symm
    obtain rfl := hsame
    rw [append_cancel_left hcut]

/-- **A profile's name survives its key**: in an environment that keeps the keys of the
manufacturers apart, the vendor's spelling is read back from the key of every profile that has one,
whatever order the manufacturers are tried in; and on the names of profiles the two spellings are
idempotent and undo each other. -/
theorem profile_survives_key (valid : List Char → Bool) {env : Environment}
    (hapart : KeysApart env.keyStarts) {order : List (String × List Char)}
    (hperm : order.Perm env.keyStarts) (manufacturer : String) :
    let publish := publishPartitionedProfileName manufacturer
    let vendor := vendorPartitionedProfileName manufacturer
    (∀ profile, partitionedProfileResourceName valid env manufacturer profile ≠ [] →
      vendorPartitionedProfileOf order
        (partitionedProfileResourceName valid env manufacturer profile) = some (vendor profile)) ∧
    (∀ profile, publish (publish profile) = publish profile ∧
      vendor (vendor profile) = vendor profile) ∧
    ∀ numbers, Numerals numbers → vendor (publish (geometry [] numbers)) = geometry [] numbers ∧
      publish (vendor (geometry ['.'] numbers)) = geometry ['.'] numbers := by
  refine ⟨fun profile hkey => ?_, fun profile => ?_, fun numbers hnum => ?_⟩
  · unfold partitionedProfileResourceName at hkey ⊢
    cases hstart : env.keyStarts.lookup manufacturer with
    | none => simp [hstart] at hkey
    | some start =>
      simp only [hstart] at hkey ⊢
      split at hkey
      next => exact absurd rfl hkey
      next hok =>
        rw [not_or] at hok
        obtain ⟨before, after, heq, -⟩ := lookup_eq_some_iff.mp hstart
        have hm : (manufacturer, start) ∈ env.keyStarts := heq ▸ mem_append_right _ mem_cons_self
        rw [if_neg (not_or.mpr hok), vendorPartitionedProfileOf,
          partitionedProfileOf_append hperm hapart hm (publish_ne_nil hok.1), Option.map_some,
          vendor_publish]
  · unfold publishPartitionedProfileName vendorPartitionedProfileName
    split
    next => exact ⟨rfl, rfl⟩
    next =>
      exact ⟨respell_idem profile fun _ hnum => (matchGeometry_other hnum).2,
        respell_idem profile fun _ hnum => (matchGeometry_other hnum).1⟩
  · unfold publishPartitionedProfileName vendorPartitionedProfileName
    split
    next => exact ⟨rfl, rfl⟩
    next => simp only [respell_geometry _ _ hnum, and_self]

/-- The built-in names keep the keys apart. -/
theorem profile_survives_builtin_key :
    KeysApart (Environment.keyStarts {}) ∧
      vendorPartitionedProfileOf (Environment.keyStarts {})
        (partitionedProfileResourceName (fun _ => true) {} "thead" "4g48gb".toList)
          = some "4g48gb".toList := by
  have hapart : KeysApart (Environment.keyStarts {}) := by decide +kernel
  exact ⟨hapart, (profile_survives_key (fun _ => true) hapart (.refl _) "thead").1 "4g48gb".toList
    (by decide +kernel)⟩

/-- An environment that gives T-Head's accelerators the name of NVIDIA's. -/
def renamed : Environment where
  resourceName m := if m = "thead" then "nvidia.com/gpu".toList else []

/-- **Keys made alike are misread**: the profile comes back in the spelling of the key. -/
theorem renamed_key_misread :
    let key := partitionedProfileResourceName (fun _ => true) renamed "thead" "4g48gb".toList
    key ≠ [] ∧ vendorPartitionedProfileOf renamed.keyStarts key = some "4g.48gb".toList ∧
      vendorPartitionedProfileName "thead" "4g48gb".toList = "4g48gb".toList := by
  decide +kernel

end GpuStack.NodeFeature
