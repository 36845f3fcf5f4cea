import GpuStack.Hygon.Vdev

/-!
# Hygon/Slices — the slices of a card share nothing

The records on disk are all there is: every call reads them anew.  `Apart` is what they keep to, and a
call that writes keeps it, because the record it writes is read as it was written and is apart from all
the records it has read, which are all the others.  A record that it cannot read stops it.
-/

namespace GpuStack.Hygon

open Text

/-- What happens to the records: a call, work directories removed, a record that can no longer be
opened or can again, and a record whose text is damaged beyond reading. -/
inductive Event
  | allocate (w : WriteEnd) (q : Request)
  | remove (gone : String → Bool)
  | permit (path : String) (readable : Bool)
  | damage (path : String) (text : List Char)

/-- Change one file. -/
def alter (disk : Disk) (path : String) (f : File → File) : Disk :=
  disk.map fun file => if file.1 = path then (file.1, f file.2) else file

/-- `cores` are the compute units of each card. -/
def step (cores : List Char → ℕ) (disk : Disk) : Event → Disk
  | .allocate w q => (allocateVdev (cores q.card.text) w disk q).1
  | .remove gone => disk.filter fun file => !gone file.1
  | .permit path readable => alter disk path fun f => { f with readable := readable }
  | .damage path text =>
    match parseVdevConf text with
    | .error _ => alter disk path fun f => { f with text := text }
    | .ok _ => disk

/-- The disks that runs reach. -/
inductive Reach (cores : List Char → ℕ) : Disk → Prop
  | start : Reach cores []
  | step {disk : Disk} (e : Event) : Reach cores disk → Reach cores (step cores disk e)

/-- A path holds a record, whether or not it can be opened now. -/
def Recorded (disk : Disk) (path : String) (c : VdevConf) : Prop :=
  ∃ f, (path, f) ∈ disk ∧ parseVdevConf f.text = .ok c

/-- The records lie on their cards and are apart from each other. -/
structure Apart (cores : List Char → ℕ) (disk : Disk) : Prop where
  within : ∀ {path c}, Recorded disk path c → c.mask.units ⊆ Finset.range (cores c.pciBusID)
  cuCount : ∀ {path c}, Recorded disk path c → c.cuCount = c.mask.units.card
  apart : ∀ {path c path' c'}, Recorded disk path c → Recorded disk path' c' → path ≠ path' →
    c.pciBusID = c'.pciBusID → Disjoint c.mask.units c'.mask.units ∧ c.pipeID ≠ c'.pipeID

variable {cores : List Char → ℕ} {disk disk' : Disk}

/-- Fewer records. -/
theorem Apart.mono (h : Apart cores disk)
    (hfewer : ∀ path c, Recorded disk' path c → Recorded disk path c) : Apart cores disk' :=
  ⟨fun hc => h.within (hfewer _ _ hc), fun hc => h.cuCount (hfewer _ _ hc),
    fun hc hc' => h.apart (hfewer _ _ hc) (hfewer _ _ hc')⟩

variable {c : VdevConf}

/-- The records after a file was replaced: the one written, and the others. -/
theorem Recorded.of_replaceFile {self path : String} {c' : VdevConf} (hc : c.Sound)
    (h : Recorded (replaceFile disk self c.render) path c') :
    (path = self ∧ c' = c) ∨ (path ≠ self ∧ Recorded disk path c') := by
  obtain ⟨f, hf, hparse⟩ := h
  rcases List.mem_append.mp hf with hf | hf
  · obtain ⟨hmem, hne⟩ := List.mem_filter.mp hf
    exact .inr ⟨by simpa using hne, f, hmem, hparse⟩
  · obtain ⟨rfl, rfl⟩ := Prod.mk.inj (List.mem_singleton.mp hf)
    rw [parseVdevConf_render hc] at hparse
    exact .inl ⟨rfl, (Except.ok.inj hparse).symm⟩

/-- A file that parses now holds that record. -/
theorem parse_text_of_parse {f : File} (h : f.parse = .ok c) :
    parseVdevConf f.text = .ok c := by
  unfold File.parse at h
  split at h
  · exact h
  · cases h

/-- A record written is apart from all the others. -/
theorem Apart.replaceFile (h : Apart cores disk) {q : Request} {confs : List VdevConf}
    (hscan : scanVdevConfs disk q.self = .ok confs)
    (hd : Derived confs (cores q.card.text) q c) :
    Apart cores (replaceFile disk q.self c.render) := by
  -- Every other record was read by the scan, so the new one is apart from it.
  have hother : ∀ path c', Recorded disk path c' → path ≠ q.self → c.pciBusID = c'.pciBusID →
      Disjoint c.mask.units c'.mask.units ∧ c.pipeID ≠ c'.pipeID := by
    rintro path c' ⟨f, hf, hparse⟩ hne hcard
    obtain ⟨c'', hc'', hfile⟩ := mem_of_scanVdevConfs hscan hf hne
    rw [parse_text_of_parse hfile] at hparse
    obtain rfl := Except.ok.inj hparse
    exact hd.apart _ hc'' (hcard.symm.trans hd.card)
  constructor
  · intro path c' hc'
    rcases hc'.of_replaceFile hd.sound with ⟨-, rfl⟩ | ⟨-, hc'⟩
    · rw [hd.card]
      exact hd.within
    · exact h.within hc'
  · intro path c' hc'
    rcases hc'.of_replaceFile hd.sound with ⟨-, rfl⟩ | ⟨-, hc'⟩
    · rw [hd.cuCount, CuMask.count_eq_card]
    · exact h.cuCount hc'
  · intro path c₁ path' c₂ h₁ h₂ hne hcard
    rcases h₁.of_replaceFile hd.sound with ⟨rfl, rfl⟩ | ⟨hne₁, hold₁⟩ <;>
      rcases h₂.of_replaceFile hd.sound with ⟨rfl, rfl⟩ | ⟨hne₂, hold₂⟩
    · exact absurd rfl hne
    · exact hother _ _ hold₂ hne₂ hcard
    · obtain ⟨hdisjoint, hpipe⟩ := hother _ _ hold₁ hne₁ hcard.symm
      exact ⟨hdisjoint.symm, hpipe.symm⟩
    · exact h.apart hold₁ hold₂ hne hcard

/-- A file altered so that it holds its record still or none at all. -/
theorem recorded_of_alter {path : String} {f : File → File}
    (hf : ∀ file c, parseVdevConf (f file).text = .ok c → parseVdevConf file.text = .ok c)
    {path' : String} (h : Recorded (alter disk path f) path' c) :
    Recorded disk path' c := by
  obtain ⟨file, hfile, hparse⟩ := h
  obtain ⟨⟨path₀, file₀⟩, hmem, heq⟩ := List.mem_map.mp hfile
  split at heq
  · obtain ⟨rfl, rfl⟩ := Prod.mk.inj heq
    exact ⟨file₀, hmem, hf file₀ c hparse⟩
  · obtain ⟨rfl, rfl⟩ := Prod.mk.inj heq
    exact ⟨_, hmem, hparse⟩

/-- **Every event keeps the records apart.** -/
theorem Apart.step (h : Apart cores disk) (e : Event) : Apart cores (step cores disk e) := by
  cases e with
  | allocate w q =>
    rcases allocateVdev_cases (cores q.card.text) w disk q with hsame | ⟨confs, c, hscan, hc, hdisk⟩
    · rwa [Hygon.step, hsame]
    · rw [Hygon.step, hdisk]
      exact h.replaceFile hscan (derived_deriveVdev hc)
  | remove gone =>
    refine h.mono fun path c hc => ?_
    obtain ⟨f, hf, hparse⟩ := hc
    exact ⟨f, List.mem_of_mem_filter hf, hparse⟩
  | permit path readable =>
    refine h.mono fun _ _ hc => ?_
    exact recorded_of_alter (f := fun f => { f with readable := readable }) (fun _ _ hp => hp) hc
  | damage path text =>
    rw [Hygon.step]
    split
    next err htext =>
      refine h.mono fun _ _ => recorded_of_alter fun _ c hparse => ?_
      rw [htext] at hparse
      cases hparse
    · exact h

theorem Reach.apart (hreach : Reach cores disk) : Apart cores disk := by
  induction hreach with
  | start =>
    have hnone : ∀ path c, ¬ Recorded [] path c := fun path c ⟨f, hf, _⟩ => List.not_mem_nil hf
    exact ⟨fun hc => absurd hc (hnone _ _), fun hc => absurd hc (hnone _ _),
      fun hc => absurd hc (hnone _ _)⟩
  | step e _ ih => exact ih.step e

/-- A record that cannot be read, other than the caller's own, keeps a call from writing. -/
theorem allocateVdev_of_unreadable {n : ℕ} {w : WriteEnd} {q : Request} {file : String × File}
    (hfile : file ∈ disk) (hne : file.1 ≠ q.self) (hbad : ∀ c, file.2.parse ≠ .ok c) :
    (allocateVdev n w disk q).1 = disk := by
  rcases allocateVdev_cases n w disk q with hsame | ⟨confs, c, hscan, -, -⟩
  · exact hsame
  · obtain ⟨c', -, hparse⟩ := mem_of_scanVdevConfs hscan hfile hne
    exact absurd hparse (hbad c')

/-- **The slices of a card share nothing.**  On every disk that a run of calls, removals, stops and
damage reaches, the records that name one card have disjoint compute units among those of the card and
distinct pipe ids, and each counts its units; and while a record other than the caller's own cannot be
read, a call leaves the disk as it is. -/
theorem slices_share_nothing (cores : List Char → ℕ) {disk : Disk} (hreach : Reach cores disk) :
    Apart cores disk ∧ ∀ (w : WriteEnd) (q : Request), (∃ file ∈ disk, file.1 ≠ q.self ∧
      ∀ c, file.2.parse ≠ .ok c) → (allocateVdev (cores q.card.text) w disk q).1 = disk :=
  ⟨hreach.apart, fun _ _ ⟨_, hfile, hne, hbad⟩ => allocateVdev_of_unreadable hfile hne hbad⟩

/-! ### Two slices of one card -/

def dcu : BusID where
  text := "0000:33:00.0".toList
  named := by decide
  solid := by
    have hall : ("0000:33:00.0".toList.all fun ch => !isSpace ch) = true := by decide
    simpa using hall

def halfOf (self : String) : Request := ⟨self, dcu, 50, 8192, 0⟩

def twoSlices : Disk :=
  step (fun _ => 120) (step (fun _ => 120) [] (.allocate .published (halfOf "pod-a/vdev0.conf")))
    (.allocate .published (halfOf "pod-b/vdev0.conf"))

theorem slices_share_nothing_halves :
    twoSlices.length = 2 ∧ Apart (fun _ => 120) twoSlices :=
  ⟨by decide +kernel, (slices_share_nothing _ ((Reach.start.step _).step _)).1⟩

end GpuStack.Hygon
