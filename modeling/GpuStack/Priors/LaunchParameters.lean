import GpuStack.Lib.Text

/-!
# Priors/LaunchParameters — the two spellings of a launch argument

`parseLaunchParameters` reads a flag with its value attached and a flag with its value in the next token;
`renderLaunchParameters` writes a value in a token of its own.  `Reads` is what an accepted list reads as,
one constructor per way the loop advances (`parse_eq_ok`).

A parsed list survives being rendered and read again exactly when its rendering is not mistaken
(`reads_render`): no flag is the separator, no value begins like a flag, and what follows an argument without
value begins like one.  Read on the tokens this is `Respells`, and `roundTrip_iff` says that the round trip
holds for exactly those lists.  It fails for an attached value that begins with a dash
(`attached_dash_splits`).
-/

namespace GpuStack.Priors

open List

open Text

/-- An argument of a command line. -/
abbrev Token := List Char

/-- `LaunchParameter` -/
structure LaunchParameter where
  flag : Token
  value : Token
deriving DecidableEq, Repr

/-- The two refusals of `ParseLaunchParameters`. -/
inductive ParseError where
  /-- `the arguments carry a %q separator` -/
  | separator (token : Token)
  /-- `the argument %q carries no value` -/
  | noValue (token : Token)
deriving DecidableEq, Repr

/-- `strings.HasPrefix(token, "-")` -/
def dashed (token : Token) : Bool := token.head? = some '-'

/-- `"--"` -/
def separator : Token := ['-', '-']

/-- `ParseLaunchParameters` -/
def parseLaunchParameters : List Token → Except ParseError (List LaunchParameter)
  | [] => .ok []
  | token :: rest =>
    if token = separator then .error (.separator token)
    else
      match cut '=' token with
      | some (flag, value) =>
        if value = [] then .error (.noValue token)
        else (parseLaunchParameters rest).map (⟨flag, value⟩ :: ·)
      | none =>
        match rest with
        | next :: rest' =>
          if dashed next then (parseLaunchParameters (next :: rest')).map (⟨token, []⟩ :: ·)
          else (parseLaunchParameters rest').map (⟨token, next⟩ :: ·)
        | [] => .ok [⟨token, []⟩]

/-- `RenderLaunchParameters` -/
def renderLaunchParameters : List LaunchParameter → List Token
  | [] => []
  | p :: ps =>
    if p.value = [] then p.flag :: renderLaunchParameters ps
    else p.flag :: p.value :: renderLaunchParameters ps

/-! ### What an accepted list reads as -/

/-- **The reading of an accepted argument list.** -/
inductive Reads : List Token → List LaunchParameter → Prop
  | nil : Reads [] []
  | attached {token flag value : Token} {rest : List Token} {ps : List LaunchParameter} :
    token ≠ separator → cut '=' token = some (flag, value) → value ≠ [] → Reads rest ps →
      Reads (token :: rest) (⟨flag, value⟩ :: ps)
  | spaced {token next : Token} {rest : List Token} {ps : List LaunchParameter} :
    token ≠ separator → cut '=' token = none → dashed next = false → Reads rest ps →
      Reads (token :: next :: rest) (⟨token, next⟩ :: ps)
  | bare {token : Token} {rest : List Token} {ps : List LaunchParameter} :
    token ≠ separator → cut '=' token = none → (∀ next ∈ rest.head?, dashed next) → Reads rest ps →
      Reads (token :: rest) (⟨token, []⟩ :: ps)

variable {ps : List LaunchParameter} {tokens : List Token}

theorem map_cons_eq_ok {p : LaunchParameter} {r : Except ParseError (List LaunchParameter)} :
    r.map (p :: ·) = .ok ps ↔ ∃ qs, r = .ok qs ∧ ps = p :: qs := by
  cases r with
  | error e => simp [Except.map]
  | ok qs => simp [Except.map, eq_comm]

theorem reads_of_parse (h : parseLaunchParameters tokens = .ok ps) : Reads tokens ps := by
  induction tokens using parseLaunchParameters.induct generalizing ps with
  | case1 =>
    obtain rfl : [] = ps := Except.ok.inj h
    exact .nil
  | case2 rest =>
    rw [parseLaunchParameters.eq_def] at h
    simp only [if_pos] at h
    cases h
  | case3 token rest hsep flag hcut =>
    rw [parseLaunchParameters.eq_def] at h
    simp only [if_neg hsep, hcut, if_pos] at h
    cases h
  | case4 token rest hsep flag value hcut hvalue ih =>
    rw [parseLaunchParameters.eq_def] at h
    simp only [if_neg hsep, hcut, if_neg hvalue] at h
    obtain ⟨qs, hqs, rfl⟩ := map_cons_eq_ok.mp h
    exact .attached hsep hcut hvalue (ih hqs)
  | case5 token hsep hcut next rest hnext ih =>
    rw [parseLaunchParameters.eq_def] at h
    simp only [if_neg hsep, hcut, if_pos hnext] at h
    obtain ⟨qs, hqs, rfl⟩ := map_cons_eq_ok.mp h
    exact .bare hsep hcut (by simpa using hnext) (ih hqs)
  | case6 token hsep hcut next rest hnext ih =>
    rw [parseLaunchParameters.eq_def] at h
    simp only [if_neg hsep, hcut, if_neg hnext] at h
    obtain ⟨qs, hqs, rfl⟩ := map_cons_eq_ok.mp h
    exact .spaced hsep hcut (by simpa using hnext) (ih hqs)
  | case7 token hsep hcut =>
    simp only [parseLaunchParameters, if_neg hsep, hcut] at h
    obtain rfl := Except.ok.inj h
    exact .bare hsep hcut (by simp) .nil

theorem Reads.parse (h : Reads tokens ps) :
    parseLaunchParameters tokens = .ok ps := by
  induction h with
  | nil => rfl
  | attached hsep hcut hvalue _ ih =>
    rw [parseLaunchParameters.eq_def]
    simp only [if_neg hsep, hcut, if_neg hvalue, ih]
    rfl
  | spaced hsep hcut hnext _ ih =>
    rw [parseLaunchParameters.eq_def]
    simp only [if_neg hsep, hcut, hnext, ih]
    rfl
  | @bare token rest ps hsep hcut hhead _ ih =>
    cases rest with
    | nil =>
      obtain rfl := Except.ok.inj ih
      simp only [parseLaunchParameters, if_neg hsep, hcut]
    | cons next rest =>
      have hnext : dashed next := hhead next rfl
      rw [parseLaunchParameters.eq_def]
      simp only [if_neg hsep, hcut, if_pos hnext, ih]
      rfl

/-- **The reading is the parse.** -/
theorem parse_eq_ok :
    parseLaunchParameters tokens = .ok ps ↔ Reads tokens ps :=
  ⟨reads_of_parse, Reads.parse⟩

/-! ### Reading a rendering -/

/-- The parameters' own rendering is not mistaken for another. -/
def Plain : List LaunchParameter → Prop
  | [] => True
  | p :: ps =>
    p.flag ≠ separator ∧ dashed p.value = false ∧ (p.value = [] → ∀ q ∈ ps.head?, dashed q.flag) ∧
      Plain ps

/-- The room a list of tokens takes, every token ended. -/
def size (tokens : List Token) : ℕ := (tokens.map fun t => t.length + 1).sum

/-- A reading takes no more room when it is rendered: only an empty value that was spelled is lost. -/
theorem Reads.size_render_le (h : Reads tokens ps) :
    size (renderLaunchParameters ps) ≤ size tokens := by
  induction h with
  | nil => exact le_rfl
  | attached _ hcut hvalue _ ih =>
    rw [renderLaunchParameters, if_neg hvalue, eq_append_of_cut hcut]
    simp only [size, map_cons, sum_cons, length_append, length_cons] at ih ⊢
    omega
  | spaced _ _ _ _ ih =>
    rw [renderLaunchParameters]
    split
    all_goals
      simp only [size, map_cons, sum_cons] at ih ⊢
      omega
  | bare _ _ _ _ ih =>
    rw [renderLaunchParameters, if_pos rfl]
    simp only [size, map_cons, sum_cons] at ih ⊢
    omega

theorem head_render (ps : List LaunchParameter) :
    (renderLaunchParameters ps).head? = ps.head?.map LaunchParameter.flag := by
  cases ps with
  | nil => rfl
  | cons p ps =>
    rw [renderLaunchParameters]
    split <;> rfl

/-- **A rendering is read as what was rendered exactly when it is plain.** -/
theorem reads_render (hflag : ∀ p ∈ ps, cut '=' p.flag = none) :
    Reads (renderLaunchParameters ps) ps ↔ Plain ps := by
  induction ps with
  | nil => exact iff_of_true .nil trivial
  | cons p ps ih =>
    obtain ⟨hcut, hrest⟩ := forall_mem_cons.mp hflag
    obtain ⟨flag, value⟩ := p
    rw [renderLaunchParameters, Plain, ← ih hrest]
    dsimp only at hcut ⊢
    constructor
    · intro h
      split at h
      next hvalue =>
        subst hvalue
        generalize htokens : renderLaunchParameters ps = tokens at h
        cases h with
        | attached _ hcut' => cases hcut.symm.trans hcut'
        | spaced hsep _ _ hreads =>
          -- the empty value was spelled, so the rest is read from less room than it renders to
          have hsize := hreads.size_render_le
          rw [htokens] at hsize
          simp [size] at hsize
        | bare hsep _ hhead hreads =>
          refine ⟨hsep, rfl, fun _ q hq => hhead q.flag ?_, htokens ▸ hreads⟩
          rw [← htokens, head_render, hq]
          rfl
      next hvalue =>
        cases h with
        | attached _ hcut' => cases hcut.symm.trans hcut'
        | spaced hsep _ hnext hreads => exact ⟨hsep, hnext, fun h => absurd h hvalue, hreads⟩
        | bare => exact absurd rfl hvalue
    · rintro ⟨hsep, hdash, hhead, hreads⟩
      split
      next hvalue =>
        subst hvalue
        refine .bare hsep hcut (fun next hnext => ?_) hreads
        rw [head_render] at hnext
        obtain ⟨q, hq, rfl⟩ := Option.map_eq_some_iff.mp hnext
        exact hhead rfl q hq
      next => exact .spaced hsep hcut hdash hreads

/-! ### The condition on the tokens -/

/-- **The lists whose arguments survive being spelled the other way**: no attached argument has the separator
for its flag or a value that begins with a dash, and an empty value is followed by a flag or by nothing. -/
def Respells : List Token → Prop
  | [] => True
  | token :: rest =>
    match cut '=' token with
    | some (flag, value) => flag ≠ separator ∧ dashed value = false ∧ Respells rest
    | none =>
      match rest with
      | next :: rest' =>
        if dashed next then Respells (next :: rest')
        else (next = [] → ∀ t ∈ rest'.head?, dashed t) ∧ Respells rest'
      | [] => True

theorem dashed_of_cut {t flag value : Token} (h : cut '=' t = some (flag, value)) :
    dashed flag = dashed t := by
  rw [eq_append_of_cut h]
  cases flag <;> rfl

/-- The next flag of a reading begins as the next token does. -/
theorem Reads.dashed_head (h : Reads tokens ps) :
    (∀ q ∈ ps.head?, dashed q.flag) ↔ ∀ t ∈ tokens.head?, dashed t := by
  cases h with
  | nil => simp
  | attached _ hcut => simp [dashed_of_cut hcut]
  | spaced => simp
  | bare => simp

theorem Reads.cut_flag_eq_none (h : Reads tokens ps) : ∀ p ∈ ps, cut '=' p.flag = none := by
  induction h with
  | nil => simp
  | attached _ hcut _ _ ih => exact forall_mem_cons.mpr ⟨cut_left hcut, ih⟩
  | spaced _ hcut _ _ ih => exact forall_mem_cons.mpr ⟨hcut, ih⟩
  | bare _ hcut _ _ ih => exact forall_mem_cons.mpr ⟨hcut, ih⟩

/-- The condition on the parameters, on the tokens they were read from. -/
theorem Reads.plain_iff (h : Reads tokens ps) :
    Plain ps ↔ Respells tokens := by
  induction h with
  | nil => exact Iff.rfl
  | attached _ hcut hvalue _ ih =>
    rw [Plain, Respells.eq_def, ih]
    simp [hcut, hvalue]
  | spaced hsep hcut hnext hreads ih =>
    rw [Plain, Respells.eq_def, ih, hreads.dashed_head]
    simp [hsep, hcut, hnext]
  | @bare token rest ps hsep hcut hhead hreads ih =>
    have hrest : Respells (token :: rest) ↔ Respells rest := by
      rw [Respells.eq_def]
      cases rest with
      | nil => simp [hcut, Respells]
      | cons next rest => simp [hcut, show dashed next from hhead next rfl]
    rw [Plain, ih, hrest, hreads.dashed_head]
    simp only [ne_eq, hsep, not_false_eq_true, true_and]
    exact ⟨fun h => h.2.2, fun h => ⟨rfl, fun _ => hhead, h⟩⟩

/-- **The round trip.**  Of the argument lists that are accepted, rendering and reading again gives the same
parameters for exactly those that respell. -/
theorem roundTrip_iff (tokens : List Token) (ps : List LaunchParameter)
    (h : parseLaunchParameters tokens = .ok ps) :
    parseLaunchParameters (renderLaunchParameters ps) = .ok ps ↔ Respells tokens := by
  have hreads := reads_of_parse h
  rw [parse_eq_ok, reads_render hreads.cut_flag_eq_none, hreads.plain_iff]

/-- The flags of the package's own test, one of them with its value attached. -/
theorem roundTrip_iff_mem_fraction :
    parseLaunchParameters (renderLaunchParameters
      [⟨"--disable-radix-cache".toList, []⟩, ⟨"--mem-fraction-static".toList, "0.8".toList⟩]) =
        .ok [⟨"--disable-radix-cache".toList, []⟩, ⟨"--mem-fraction-static".toList, "0.8".toList⟩] :=
  (roundTrip_iff ["--disable-radix-cache".toList, "--mem-fraction-static=0.8".toList] _
    (by decide +kernel)).mpr (by simp [Respells, cut, dashed, separator])

/-- An attached value that begins with a dash is read back as a flag of its own. -/
theorem attached_dash_splits :
    parseLaunchParameters ["--seed=-1".toList] = .ok [⟨"--seed".toList, "-1".toList⟩] ∧
      parseLaunchParameters (renderLaunchParameters [⟨"--seed".toList, "-1".toList⟩]) =
        .ok [⟨"--seed".toList, []⟩, ⟨"-1".toList, []⟩] := by
  decide +kernel

end GpuStack.Priors
