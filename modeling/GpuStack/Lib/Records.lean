import Mathlib

/-!
# Lib/Records — records kept one to a file

A program keeps its records one to a file and finds them again by walking the files.  A file is a path
and what it holds, if that can be read at all; a record counts only if it is valid where it lies.
`scan` is the walk, `corrupt` the paths it cannot read, and `spoil` a file that loses its contents.

What is scanned only shrinks when a file is spoiled or removed (`mem_scan_spoil`, `mem_scan_filter`),
and a file added contributes its own record and no other (`mem_scan_add`).
-/

namespace Records

universe u v

variable {π : Type u} {μ : Type v}

/-- A record and where it lies. -/
structure Entry (π : Type u) (μ : Type v) where
  path : π
  marker : μ
deriving DecidableEq, Repr

variable (valid : π → μ → Bool)

/-- Read a file's record. -/
def parse (path : π) (contents : Option μ) : Option μ := contents.filter (valid path)

/-- The records that can be read. -/
def scan (files : List (π × Option μ)) : List (Entry π μ) :=
  files.filterMap fun file => (parse valid file.1 file.2).map (Entry.mk file.1)

/-- The paths that cannot. -/
def corrupt (files : List (π × Option μ)) : List π :=
  (files.filter fun file => (parse valid file.1 file.2).isNone).map Prod.fst

/-- A file loses its contents. -/
def spoil [DecidableEq π] (path : π) (files : List (π × Option μ)) : List (π × Option μ) :=
  files.map fun file => if file.1 = path then (path, none) else file

variable {valid} {files : List (π × Option μ)} {path : π} {e : Entry π μ}

theorem mem_scan :
    e ∈ scan valid files ↔
      ∃ contents, (e.path, contents) ∈ files ∧ parse valid e.path contents = some e.marker := by
  simp only [scan, List.mem_filterMap, Option.map_eq_some_iff]
  constructor
  · rintro ⟨⟨path, contents⟩, hfile, m, hm, rfl⟩
    exact ⟨contents, hfile, hm⟩
  · rintro ⟨contents, hfile, hm⟩
    exact ⟨(e.path, contents), hfile, e.marker, hm, rfl⟩

theorem mem_corrupt :
    path ∈ corrupt valid files ↔ ∃ contents, (path, contents) ∈ files ∧
      parse valid path contents = none := by
  simp only [corrupt, List.mem_map, List.mem_filter, Option.isNone_iff_eq_none]
  constructor
  · rintro ⟨⟨path', contents⟩, ⟨hfile, hnone⟩, rfl⟩
    exact ⟨contents, hfile, hnone⟩
  · rintro ⟨contents, hfile, hnone⟩
    exact ⟨(path, contents), ⟨hfile, hnone⟩, rfl⟩

/-- What is scanned is valid where it lies. -/
theorem valid_of_mem_scan (h : e ∈ scan valid files) : valid e.path e.marker = true := by
  obtain ⟨contents, -, hparse⟩ := mem_scan.mp h
  exact (Option.filter_eq_some_iff.mp hparse).2

theorem mem_of_lookup [BEq π] [LawfulBEq π] {contents : Option μ}
    (h : files.lookup path = some contents) : (path, contents) ∈ files := by
  obtain ⟨before, after, rfl, -⟩ := List.lookup_eq_some_iff.mp h
  simp

/-- A record that can be read is scanned. -/
theorem mem_scan_of_lookup [BEq π] [LawfulBEq π] {contents : Option μ} {m : μ}
    (h : files.lookup path = some contents) (hm : parse valid path contents = some m) :
    ⟨path, m⟩ ∈ scan valid files :=
  mem_scan.mpr ⟨contents, mem_of_lookup h, hm⟩

/-- A file is added, or is not. -/
theorem mem_scan_add {m : μ} {linked : Bool}
    (h : e ∈ scan valid (if linked then files ++ [(path, some m)] else files)) :
    e ∈ scan valid files ∨ linked = true ∧ e = ⟨path, m⟩ := by
  cases linked with
  | false => exact .inl h
  | true =>
    obtain ⟨contents, hfile, hparse⟩ := mem_scan.mp h
    rcases List.mem_append.mp hfile with hfile | hfile
    · exact .inl (mem_scan.mpr ⟨contents, hfile, hparse⟩)
    · obtain ⟨hpath, rfl⟩ := Prod.mk.inj (List.mem_singleton.mp hfile)
      obtain rfl : m = e.marker := by simpa using Option.eq_some_of_filter_eq_some hparse
      exact .inr ⟨rfl, by rw [← hpath]⟩

/-- The records of more files are more. -/
theorem mem_scan_append {more : List (π × Option μ)} (h : e ∈ scan valid files) :
    e ∈ scan valid (files ++ more) := by
  obtain ⟨contents, hfile, hparse⟩ := mem_scan.mp h
  exact mem_scan.mpr ⟨contents, List.mem_append_left _ hfile, hparse⟩

/-- Where every file can be read, a record written is scanned. -/
theorem mem_scan_of_readable {m : μ} (hread : corrupt valid files = [])
    (h : (path, some m) ∈ files) : ⟨path, m⟩ ∈ scan valid files := by
  refine mem_scan.mpr ⟨some m, h, ?_⟩
  rcases hparse : parse valid path (some m) with _ | m'
  · have hmem := mem_corrupt.mpr ⟨some m, h, hparse⟩
    rw [hread] at hmem
    cases hmem
  · have hm : some m = some m' := Option.eq_some_of_filter_eq_some hparse
    rw [hm]

theorem mem_scan_spoil [DecidableEq π] (h : e ∈ scan valid (spoil path files)) :
    e ∈ scan valid files := by
  obtain ⟨contents, hfile, hparse⟩ := mem_scan.mp h
  obtain ⟨file, hmem, hfile⟩ := List.mem_map.mp hfile
  split_ifs at hfile
  · obtain ⟨-, rfl⟩ := Prod.mk.inj hfile
    simp [parse] at hparse
  · exact mem_scan.mpr ⟨contents, hfile ▸ hmem, hparse⟩

theorem mem_scan_filter {p : π × Option μ → Bool} (h : e ∈ scan valid (files.filter p)) :
    e ∈ scan valid files := by
  obtain ⟨contents, hfile, hparse⟩ := mem_scan.mp h
  exact mem_scan.mpr ⟨contents, List.mem_of_mem_filter hfile, hparse⟩

end Records
