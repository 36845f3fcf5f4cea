import GpuStack.ModelArtifact.Manifest

/-!
# ModelArtifact/Glob — the patterns that select a manifest's entries

`compilePattern` turns a pattern into tokens as CPython's `fnmatch` does, and `globMatch` walks a name along
the tokens.  The walk remembers the most recent star only, and on a failure lets that star take one rune
more.

What a pattern means is `Spells`: the name is cut into consecutive pieces, one to a token.  The walk is correct
from any of its states (`walk_spells`): what it still answers is whether the rest of the pattern spells the rest
of the name, or the pattern after the last star some shorter rest.  The earlier stars need no retry, because
the tokens between two stars take one rune each (`drop_of_spells`): whatever an earlier star could still do,
the last one can.  `globMatch_iff` and `filter_is_language` are the results.
-/

namespace GpuStack.ModelArtifact

open List

open Utf8

/-! ### Compiling -/

/-- `globTokenKind` -/
inductive GlobTokenKind where
  | literal
  | any
  | star
  | set
  | never
deriving DecidableEq, Repr

/-- `globToken` -/
structure GlobToken where
  kind : GlobTokenKind
  literal : ℕ := 0
  negated : Bool := false
  ranges : List (ℕ × ℕ) := []
deriving DecidableEq, Repr

def runeBang : ℕ := 33
def runeStar : ℕ := 42
def runeDash : ℕ := 45
def runeQuestion : ℕ := 63
def runeOpen : ℕ := 91
def runeClose : ℕ := 93

/-- Cut the text of a set at its hyphens.  A chunk has at least `least` runes before the hyphen that ends it,
and a hyphen at the very end belongs to the last chunk. -/
def splitChunks : ℕ → ℕ → List ℕ → List (List ℕ)
  | 0, _, body => [body]
  | fuel + 1, least, body =>
    match (body.drop least).dropWhile (· ≠ runeDash) with
    | [] => [body]
    | _ :: rest =>
      let chunk := body.take least ++ (body.drop least).takeWhile (· ≠ runeDash)
      if rest = [] then [chunk ++ [runeDash]] else chunk :: splitChunks fuel 2 rest

/-- Remove the ranges whose bounds are reversed, from the last to the first: both bounds go. -/
def mergeChunks : List (List ℕ) → List (List ℕ)
  | [] => []
  | chunk :: chunks =>
    match mergeChunks chunks with
    | [] => [chunk]
    | next :: rest =>
      if next.headD 0 < chunk.getLastD 0 then (chunk.dropLast ++ next.tail) :: rest
      else chunk :: next :: rest

/-- The runes of a set, each with whether it ends a range that the rune before it begins. -/
def setMembers (chunks : List (List ℕ)) : List (ℕ × Bool) :=
  (chunks.head?.toList.flatMap fun chunk => chunk.map (·, false)) ++
    chunks.tail.flatMap fun chunk => chunk.zipIdx.map fun r => (r.1, decide (r.2 = 0))

/-- The ranges of a set. -/
def setRanges : List (ℕ × Bool) → List (ℕ × ℕ)
  | [] => []
  | [(lo, _)] => [(lo, lo)]
  | (lo, _) :: (hi, true) :: rest => (lo, hi) :: setRanges rest
  | (lo, _) :: (r, false) :: rest => (lo, lo) :: setRanges ((r, false) :: rest)

/-- `compileSet`, of the text between `[` and its `]`. -/
def compileSet (body : List ℕ) : GlobToken :=
  let chunks :=
    if runeDash ∈ body then
      mergeChunks (splitChunks body.length (if body.head? = some runeBang then 2 else 1) body)
    else [body]
  match setMembers chunks with
  | [] => { kind := .never }
  | (r, flag) :: rest =>
    if r = runeBang then
      if rest = [] then { kind := .any } else { kind := .set, negated := true, ranges := setRanges rest }
    else { kind := .set, ranges := setRanges ((r, flag) :: rest) }

/-- Where the bracket that is open before `rest` closes: past a `!`, and past a `]` that comes first. -/
def closing (rest : List ℕ) : Option ℕ :=
  let j := if rest.head? = some runeBang then 1 else 0
  let j := if (rest.drop j).head? = some runeClose then j + 1 else j
  ((rest.drop j).findIdx? (· = runeClose)).map (j + ·)

/-- The loop of `compilePattern`, given steps enough. -/
def compileFrom : ℕ → List GlobToken → List ℕ → List GlobToken
  | 0, toks, _ => toks
  | _ + 1, toks, [] => toks
  | fuel + 1, toks, c :: rest =>
    if c = runeStar then
      -- consecutive stars are one
      if (toks.getLast?.map (·.kind)) = some .star then compileFrom fuel toks rest
      else compileFrom fuel (toks ++ [{ kind := .star }]) rest
    else if c = runeQuestion then compileFrom fuel (toks ++ [{ kind := .any }]) rest
    else if c = runeOpen then
      match closing rest with
      | none => compileFrom fuel (toks ++ [{ kind := .literal, literal := runeOpen }]) rest
      | some j => compileFrom fuel (toks ++ [compileSet (rest.take j)]) (rest.drop (j + 1))
    else compileFrom fuel (toks ++ [{ kind := .literal, literal := c }]) rest

/-- `compilePattern` -/
def compilePattern (pattern : GoString) : List GlobToken :=
  let pat := runes pattern
  compileFrom pat.length [] pat

/-! ### Matching -/

/-- `globToken.matchRune` -/
def GlobToken.matchRune (t : GlobToken) (r : ℕ) : Bool :=
  match t.kind with
  | .literal => r = t.literal
  | .any => true
  | .set => (t.ranges.any fun rg => rg.1 ≤ r && r ≤ rg.2) != t.negated
  | _ => false

/-- The state of the loop of `match`: what is left of the pattern and of the name, and what was left after the
most recent star and where that star began. -/
structure Walk where
  toks : List GlobToken
  name : List ℕ
  star : Option (List GlobToken × List ℕ)
deriving DecidableEq, Repr

/-- One round of the loop: the next state, or the answer. -/
def Walk.step : Walk → Walk ⊕ Bool
  | ⟨toks, [], _⟩ => .inr ((toks.dropWhile (·.kind = .star)).isEmpty)
  | ⟨t :: toks, r :: name, star⟩ =>
    if t.kind = .star then .inl ⟨toks, r :: name, some (toks, r :: name)⟩
    else if t.matchRune r then .inl ⟨toks, name, star⟩
    else retry star
  | ⟨[], _ :: _, star⟩ => retry star
where
  /-- Let the star take one rune more. -/
  retry : Option (List GlobToken × List ℕ) → Walk ⊕ Bool
    | some (toks, _ :: name) => .inl ⟨toks, name, some (toks, name)⟩
    | _ => .inr false

/-- The loop, given rounds enough. -/
def Walk.run : ℕ → Walk → Option Bool
  | 0, _ => none
  | fuel + 1, w =>
    match w.step with
    | .inl w' => run fuel w'
    | .inr answer => some answer

/-- As many rounds as the loop can take. -/
def rounds (toks : List GlobToken) (name : List ℕ) : ℕ := (name.length + 2) * (toks.length + 1)

/-- `globPattern.match` -/
def globMatch (toks : List GlobToken) (name : List ℕ) : Bool :=
  (Walk.run (rounds toks name) ⟨toks, name, none⟩).getD false

/-- `compilePatterns` -/
def compilePatterns (patterns : List GoString) : List (List GlobToken) :=
  patterns.map fun p => compilePattern (if p.getLast? = some slash then p ++ ascii "*" else p)

/-- `matchAny` -/
def matchAny (patterns : List (List GlobToken)) (name : GoString) : Bool :=
  patterns.any (globMatch · (runes name))

/-- `FilterEntries` -/
def filterEntries (entries : List ManifestEntry) (allow ignored : List GoString) :
    List ManifestEntry :=
  if allow = [] ∧ ignored = [] then entries
  else
    let allowed := compilePatterns allow
    let ignored := compilePatterns ignored
    entries.filter fun e =>
      !(!allowed.isEmpty && !matchAny allowed e.path) && !matchAny ignored e.path

/-! ### What a pattern means -/

/-- The pieces a token takes: a star any run of runes, every other token one rune that it matches. -/
def GlobToken.Takes (t : GlobToken) (piece : List ℕ) : Prop :=
  if t.kind = .star then True else ∃ r, piece = [r] ∧ t.matchRune r

/-- **The name is cut into consecutive pieces, one to a token.** -/
def Spells (toks : List GlobToken) (name : List ℕ) : Prop :=
  ∃ pieces : List (List ℕ), pieces.flatten = name ∧ List.Forall₂ GlobToken.Takes toks pieces

variable {t : GlobToken} {toks : List GlobToken} {r : ℕ} {name : List ℕ}

theorem spells_nil : Spells [] name ↔ name = [] := by
  constructor
  · rintro ⟨pieces, rfl, hpieces⟩
    rw [forall₂_nil_left_iff.mp hpieces]
    rfl
  · rintro rfl
    exact ⟨[], rfl, .nil⟩

theorem spells_cons : Spells (t :: toks) name ↔
    ∃ piece rest, name = piece ++ rest ∧ t.Takes piece ∧ Spells toks rest := by
  constructor
  · rintro ⟨pieces, rfl, hpieces⟩
    obtain ⟨piece, pieces', htakes, hrest, rfl⟩ := forall₂_cons_left_iff.mp hpieces
    exact ⟨piece, pieces'.flatten, rfl, htakes, pieces', rfl, hrest⟩
  · rintro ⟨piece, rest, rfl, htakes, pieces, rfl, hpieces⟩
    exact ⟨piece :: pieces, rfl, .cons htakes hpieces⟩

/-- A star takes what comes before some rest of the name. -/
theorem spells_star (ht : t.kind = .star) :
    Spells (t :: toks) name ↔ ∃ rest, rest <:+ name ∧ Spells toks rest := by
  rw [spells_cons]
  constructor
  · rintro ⟨piece, rest, rfl, -, hrest⟩
    exact ⟨rest, suffix_append .., hrest⟩
  · rintro ⟨rest, ⟨piece, rfl⟩, hrest⟩
    exact ⟨piece, rest, rfl, by rw [GlobToken.Takes, if_pos ht]; trivial, hrest⟩

/-- Any other token takes the first rune. -/
theorem spells_one (ht : t.kind ≠ .star) :
    Spells (t :: toks) name ↔ ∃ r rest, name = r :: rest ∧ t.matchRune r ∧ Spells toks rest := by
  rw [spells_cons]
  simp only [GlobToken.Takes, if_neg ht]
  constructor
  · rintro ⟨_, rest, rfl, ⟨r, rfl, hr⟩, hrest⟩
    exact ⟨r, rest, rfl, hr, hrest⟩
  · rintro ⟨r, rest, rfl, hr, hrest⟩
    exact ⟨[r], rest, rfl, ⟨r, rfl, hr⟩, hrest⟩

/-- The empty name is spelled by stars alone. -/
theorem spells_empty : Spells toks [] ↔ toks.dropWhile (·.kind = .star) = [] := by
  induction toks with
  | nil => simp [spells_nil]
  | cons t toks ih =>
    by_cases ht : t.kind = .star
    · rw [spells_star ht, dropWhile_cons_of_pos (by simpa using ht), ← ih]
      simp
    · rw [spells_one ht, dropWhile_cons_of_neg (by simpa using ht)]
      simp

/-- Tokens that are no stars take one rune each. -/
theorem drop_of_spells {between : List GlobToken} (hbetween : ∀ t ∈ between, t.kind ≠ .star)
    (h : Spells (between ++ toks) name) :
    between.length ≤ name.length ∧ Spells toks (name.drop between.length) := by
  induction between generalizing name with
  | nil => exact ⟨Nat.zero_le _, h⟩
  | cons t between ih =>
    obtain ⟨ht, hbetween⟩ := forall_mem_cons.mp hbetween
    obtain ⟨r, rest, rfl, -, hrest⟩ := (spells_one ht).mp h
    obtain ⟨hle, hspells⟩ := ih hbetween hrest
    exact ⟨Nat.succ_le_succ hle, hspells⟩

/-! ### The walk -/

/-- What the walk has passed since its last star, tokens that are no stars and as many runes; and no more than
`bound` tokens are ever left. -/
structure Walk.Wellformed (bound : ℕ) (w : Walk) : Prop where
  length_le : w.toks.length ≤ bound
  passed : ∀ toks name, w.star = some (toks, name) → toks.length ≤ bound ∧
    ∃ between : List GlobToken, (∀ t ∈ between, t.kind ≠ .star) ∧ toks = between ++ w.toks ∧
      between.length ≤ name.length ∧ w.name = name.drop between.length

/-- Some shorter rest would do for the last star. -/
def Walk.Retries (w : Walk) : Prop :=
  ∃ toks name rest, w.star = some (toks, name) ∧ rest <:+ name ∧ rest ≠ name ∧ Spells toks rest

/-- **What a state still answers.** -/
def Walk.Answers (w : Walk) : Prop := Spells w.toks w.name ∨ w.Retries

/-- The rounds a state has left: one for every token, for every place the last star may still begin at. -/
def Walk.cost (bound : ℕ) (w : Walk) : ℕ :=
  (match w.star with
    | none => w.name.length + 1
    | some (_, name) => name.length) * (bound + 1) + w.toks.length

variable {bound : ℕ} {w w' : Walk}

/-- A retry of an earlier star is a choice of the next one. -/
theorem Walk.Wellformed.spells_of_retries (hw : w.Wellformed bound) (ht : t.kind = .star)
    (htoks : w.toks = t :: toks) (h : w.Retries) : Spells w.toks w.name := by
  obtain ⟨stoks, sname, rest, hstar, ⟨front, rfl⟩, -, hspells⟩ := h
  obtain ⟨-, between, hbetween, rfl, -, hname⟩ := hw.passed stoks _ hstar
  obtain ⟨-, hdrop⟩ := drop_of_spells hbetween hspells
  rw [htoks] at hdrop ⊢
  obtain ⟨rest', hrest', hspells'⟩ := (spells_star ht).mp hdrop
  refine (spells_star ht).mpr ⟨rest', hrest'.trans ?_, hspells'⟩
  have hlater : rest.drop between.length =
      (front ++ rest).drop (front.length + between.length) := by
    rw [← drop_drop, drop_left]
  rw [hname, hlater]
  exact drop_suffix_drop_left _ (Nat.le_add_left _ _)

/-- At the end of the name no retry is left: the runes between would not be there. -/
theorem Walk.Wellformed.not_retries (hw : w.Wellformed bound) (hname : w.name = []) :
    ¬w.Retries := by
  rintro ⟨stoks, sname, rest, hstar, hsuffix, hne, hspells⟩
  obtain ⟨-, between, hbetween, rfl, -, hdrop⟩ := hw.passed stoks sname hstar
  obtain ⟨hrest, -⟩ := drop_of_spells hbetween hspells
  rw [hname, eq_comm, drop_eq_nil_iff] at hdrop
  exact hne (hsuffix.eq_of_length (le_antisymm hsuffix.length_le (hdrop.trans hrest)))

/-- A round that fails here answers what its star still answers, one rune on. -/
theorem Walk.Wellformed.retry (hw : w.Wellformed bound) (hfail : ¬Spells w.toks w.name)
    (h : Walk.step.retry w.star = .inl w') :
    w'.Wellformed bound ∧ (w'.Answers ↔ w.Answers) ∧ w'.cost bound < w.cost bound := by
  obtain ⟨toks, name, star⟩ := w
  rcases star with _ | ⟨stoks, _ | ⟨r, sname⟩⟩
  · cases h
  · cases h
  · obtain rfl := Sum.inl.inj h
    obtain ⟨hle, -⟩ := hw.passed stoks _ rfl
    refine ⟨⟨hle, fun ts n hs => ?_⟩, ?_, ?_⟩
    · obtain ⟨rfl, rfl⟩ := Prod.mk.inj (Option.some.inj hs)
      exact ⟨hle, [], by simp, rfl, Nat.zero_le _, rfl⟩
    · simp only [Walk.Answers, hfail, false_or, Walk.Retries, Option.some.injEq, Prod.mk.injEq]
      constructor
      · rintro (hspells | ⟨_, _, rest, ⟨rfl, rfl⟩, hsuffix, -, hspells⟩)
        · exact ⟨stoks, _, sname, ⟨rfl, rfl⟩, suffix_cons .., by simp, hspells⟩
        · refine ⟨stoks, _, rest, ⟨rfl, rfl⟩, hsuffix.trans (suffix_cons ..), ?_, hspells⟩
          rintro rfl
          exact absurd hsuffix.length_le (by simp)
      · rintro ⟨_, _, rest, ⟨rfl, rfl⟩, hsuffix, hne, hspells⟩
        have hrest := (suffix_cons_iff.mp hsuffix).resolve_left hne
        by_cases hsname : rest = sname
        · exact .inl (hsname ▸ hspells)
        · exact .inr ⟨stoks, sname, rest, ⟨rfl, rfl⟩, hrest, hsname, hspells⟩
    · simp only [Walk.cost, length_cons, Nat.succ_mul]
      omega

/-- **A round keeps what the walk answers.** -/
theorem Walk.Wellformed.step (hw : w.Wellformed bound) (h : w.step = .inl w') :
    w'.Wellformed bound ∧ (w'.Answers ↔ w.Answers) ∧ w'.cost bound < w.cost bound := by
  obtain ⟨toks, name, star⟩ := w
  rcases name with _ | ⟨r, name⟩
  · cases h
  rcases toks with _ | ⟨t, toks⟩
  · exact hw.retry (by simp [spells_nil]) h
  have hle : toks.length + 1 ≤ bound := hw.length_le
  rw [Walk.step] at h
  split_ifs at h with ht hr
  · obtain rfl := Sum.inl.inj h
    refine ⟨⟨Nat.le_of_succ_le hle, fun ts n hs => ?_⟩, ?_, ?_⟩
    · obtain ⟨rfl, rfl⟩ := Prod.mk.inj (Option.some.inj hs)
      exact ⟨Nat.le_of_succ_le hle, [], by simp, rfl, Nat.zero_le _, rfl⟩
    · have hstar : Walk.Answers ⟨t :: toks, r :: name, star⟩ ↔ Spells (t :: toks) (r :: name) :=
        or_iff_left_of_imp (hw.spells_of_retries ht rfl)
      rw [hstar, spells_star ht]
      simp only [Walk.Answers, Walk.Retries, Option.some.injEq, Prod.mk.injEq]
      constructor
      · rintro (hspells | ⟨_, _, rest, ⟨rfl, rfl⟩, hsuffix, -, hspells⟩)
        · exact ⟨_, suffix_rfl, hspells⟩
        · exact ⟨rest, hsuffix, hspells⟩
      · rintro ⟨rest, hsuffix, hspells⟩
        by_cases hrest : rest = r :: name
        · exact .inl (hrest ▸ hspells)
        · exact .inr ⟨_, _, rest, ⟨rfl, rfl⟩, hsuffix, hrest, hspells⟩
    · rcases star with _ | ⟨stoks, sname⟩
      · simp only [Walk.cost, length_cons, Nat.succ_mul]
        omega
      · obtain ⟨-, between, -, -, hbetween, hname⟩ := hw.passed stoks sname rfl
        have hshort : (r :: name).length ≤ sname.length := by
          rw [show r :: name = _ from hname, length_drop]
          omega
        have := Nat.mul_le_mul_right (bound + 1) hshort
        simp only [Walk.cost, length_cons] at this ⊢
        omega
  · obtain rfl := Sum.inl.inj h
    refine ⟨⟨Nat.le_of_succ_le hle, fun ts n hs => ?_⟩, ?_, ?_⟩
    · obtain ⟨htsle, between, hbetween, rfl, hlen, hname⟩ := hw.passed ts n hs
      have hlt : between.length < n.length := by
        by_contra hge
        rw [drop_eq_nil_of_le (not_lt.mp hge)] at hname
        cases hname
      refine ⟨htsle, between ++ [t], ?_, by simp, by simpa using hlt, ?_⟩
      · exact forall_mem_append.mpr ⟨hbetween, forall_mem_singleton.mpr ht⟩
      · rw [length_append, length_singleton, ← drop_drop, ← hname]
        rfl
    · rw [Walk.Answers, Walk.Answers, spells_one ht]
      simp [hr, Walk.Retries]
    · rcases star with _ | ⟨stoks, sname⟩
      · simp only [Walk.cost, length_cons, Nat.succ_mul]
        omega
      · simp only [Walk.cost, length_cons]
        omega
  · exact hw.retry (by simp [spells_one ht, hr]) h

/-- **A round that answers gives the state's answer.** -/
theorem Walk.Wellformed.step_answer (hw : w.Wellformed bound) {answer : Bool}
    (h : w.step = .inr answer) : answer = true ↔ w.Answers := by
  -- without a star a failure is final
  have hfinal : ∀ {w : Walk}, ¬Spells w.toks w.name → Walk.step.retry w.star = .inr answer →
      w.Wellformed bound → w.name ≠ [] → (answer = true ↔ w.Answers) := by
    rintro ⟨toks, name, _ | ⟨stoks, _ | ⟨r, sname⟩⟩⟩ hfail hretry hwf hne
    · obtain rfl := Sum.inr.inj hretry
      simp [Walk.Answers, hfail, Walk.Retries]
    · obtain ⟨-, between, -, -, -, hname⟩ := hwf.passed stoks [] rfl
      exact absurd (hname.trans drop_nil) hne
    · cases hretry
  obtain ⟨toks, name, star⟩ := w
  rcases name with _ | ⟨r, name⟩
  · obtain rfl := Sum.inr.inj h
    rw [Walk.Answers, or_iff_left (hw.not_retries rfl), spells_empty, List.isEmpty_iff]
  rcases toks with _ | ⟨t, toks⟩
  · exact hfinal (by simp [spells_nil]) h hw (List.cons_ne_nil _ _)
  rw [Walk.step] at h
  split_ifs at h with ht hr
  exact hfinal (by simp [spells_one ht, hr]) h hw (cons_ne_nil _ _)

/-- **The walk answers**, from any of its states and in the rounds it has left. -/
theorem walk_spells {fuel : ℕ} (hw : w.Wellformed bound) (hfuel : w.cost bound < fuel) :
    ∃ answer, w.run fuel = some answer ∧ (answer = true ↔ w.Answers) := by
  induction fuel generalizing w with
  | zero => omega
  | succ fuel ih =>
    rw [Walk.run]
    cases hstep : w.step with
    | inl w' =>
      obtain ⟨hw', hanswers, hcost⟩ := hw.step hstep
      obtain ⟨answer, hrun, hanswer⟩ := ih hw' (by omega)
      exact ⟨answer, hrun, hanswer.trans hanswers⟩
    | inr answer => exact ⟨answer, rfl, hw.step_answer hstep⟩

/-- **Matching is the pattern's language.** -/
theorem globMatch_iff (toks : List GlobToken) (name : List ℕ) :
    globMatch toks name = true ↔ Spells toks name := by
  have hw : Walk.Wellformed toks.length ⟨toks, name, none⟩ :=
    ⟨le_rfl, fun _ _ hs => by cases hs⟩
  have hfuel : Walk.cost toks.length ⟨toks, name, none⟩ < rounds toks name := by
    simp only [Walk.cost, rounds, Nat.succ_mul]
    omega
  obtain ⟨answer, hrun, hanswer⟩ := walk_spells hw hfuel
  rw [globMatch, hrun, Option.getD_some, hanswer]
  exact or_iff_left (by simp [Walk.Retries])

/-! ### The filter -/

instance (toks : List GlobToken) (name : List ℕ) : Decidable (Spells toks name) :=
  decidable_of_iff _ (globMatch_iff toks name)

/-- The entry's path is spelled by the pattern, or lies under it if it names a directory. -/
def SelectedBy (e : ManifestEntry) (p : GoString) : Prop :=
  Spells (compilePattern (if p.getLast? = some slash then p ++ ascii "*" else p)) (runes e.path)

instance (e : ManifestEntry) : DecidablePred (SelectedBy e) := fun _ =>
  inferInstanceAs (Decidable (Spells _ _))

theorem matchAny_compilePatterns (patterns : List GoString) (e : ManifestEntry) :
    matchAny (compilePatterns patterns) e.path = true ↔ ∃ p ∈ patterns, SelectedBy e p := by
  simp [matchAny, compilePatterns, SelectedBy, globMatch_iff]

/-- **Glob matching is the pattern's language, and the filter keeps exactly the entries** that some allow
pattern selects, if there is any, and no ignore pattern. -/
theorem filter_is_language :
    (∀ (pattern : GoString) (name : List ℕ),
      globMatch (compilePattern pattern) name = true ↔ Spells (compilePattern pattern) name) ∧
    ∀ entries allow ignored, filterEntries entries allow ignored = entries.filter fun e =>
      (allow = [] ∨ ∃ p ∈ allow, SelectedBy e p) ∧ ¬∃ p ∈ ignored, SelectedBy e p := by
  refine ⟨fun pattern name => globMatch_iff _ name, fun entries allow ignored => ?_⟩
  unfold filterEntries
  split_ifs with hnone
  · simp [hnone.1, hnone.2]
  · refine filter_congr fun e _ => ?_
    rw [Bool.eq_iff_iff, decide_eq_true_iff, ← matchAny_compilePatterns, ← matchAny_compilePatterns]
    cases allow with
    | nil => simp [compilePatterns]
    | cons p allow => simp [compilePatterns]

/-- Two stars: the first gives up nothing that the second cannot make up for. -/
example : globMatch (compilePattern (ascii "a*b*[!a-c]")) (runes (ascii "abcbd")) = true := by
  decide +kernel

end GpuStack.ModelArtifact
