import GpuStack.Lib.Inevitable
import GpuStack.Download.Layout

/-!
# Download/Recovery — a bad peer and an honest hub

A hub that serves the content, whether it honors ranges or answers with the whole file, has a file
fetched from it if the bytes it resumes from are the content's, on disk and in the checkpoint
(`Clean`): every run of the fetch then ends with exactly the content (`recovers_of_clean`).  Nothing
makes up for a resume from other bytes but a hub that ignores ranges, which makes the file start over.

So a peer can spoil a file only through the checkpoints it leaves, and does so once it has delivered
enough wrong bytes for one.
-/

namespace GpuStack.Download

open List

variable {α δ : Type}

/-- The content a manifest line names: the only bytes of its size with its digest. -/
structure Content (m : ManifestFile α δ) where
  bytes : List α
  length : bytes.length = m.size
  digest : m.hash bytes = m.digest
  unique : ∀ bytes', bytes'.length = m.size → m.hash bytes' = m.digest → bytes' = bytes

section Honest

variable [Zero α] [DecidableEq δ] (t : Tuning) {m : ManifestFile α δ} (c : Content m) (honors : Bool)

/-- The position a segment's next byte belongs at. -/
def Proc.awaits : Proc α → ℕ → Option ℕ
  | .first _ pos _, 0 => some pos
  | .parallel _ todo _, i => todo[i]?.map Segment.pos
  | _, _ => none

omit [Zero α] [DecidableEq δ] in
/-- **An honest hub**: what it delivers is the content's, and it answers with the whole file exactly
where it does not honor ranges. -/
def Serves (p : Proc α) : Event α → Prop
  | .hubReceive i bytes =>
    (∃ pos, p.awaits i = some pos ∧ bytes = (c.bytes.drop pos).take bytes.length) ∧
      (honors = true ∨ ∃ hashed pos, p = .first hashed pos true)
  | .hubWhole | .hubRestart => honors = false
  | .hubHash | .hubCheck => True
  | _ => False

def HubStep (s s' : State α) : Prop := ∃ e, Serves c honors s.proc e ∧ s.step t m e = some s'

/-- The file is reported as fetched, and is the content. -/
def Delivered (s : State α) : Prop := s.proc = .finished ∧ s.dir.dest.bytes = c.bytes

/-- **The hub is asked for the file and delivers it**, however its segments arrive. -/
def Recovers (s : State α) : Prop :=
  ∃ s₁, s.step t m .hubBegin = some s₁ ∧ Inevitably (HubStep t c honors) (Delivered c) s₁

end Honest

/-- What a fetch would resume from is the content's, on disk and in the checkpoint. -/
def Clean {m : ManifestFile α δ} (c : Content m) (d : Dir α) : Prop :=
  d.dest.bytes.take (resumableOffset m d) = c.bytes.take (resumableOffset m d) ∧
    (resume m d).1 = c.bytes.take (resumableOffset m d)

/-! ## Segments that fill up -/

/-- What of the segments has yet to arrive. -/
def remaining (todo : List Segment) : ℕ := (todo.map fun g => g.stop - g.pos).sum

theorem remaining_set {todo : List Segment} {i : ℕ} {g : Segment} (hget : todo[i]? = some g) {n : ℕ}
    (hle : g.pos + n ≤ g.stop) :
    remaining (todo.set i { g with pos := g.pos + n }) + n = remaining todo := by
  induction todo generalizing i with
  | nil => cases hget
  | cons head rest ih =>
    cases i with
    | zero =>
      cases hget
      simp only [remaining, set_cons_zero, map_cons, sum_cons]
      omega
    | succ i =>
      have hrest := ih hget
      simp only [remaining, set_cons_succ, map_cons, sum_cons] at hrest ⊢
      omega

theorem remaining_segments {segment size : ℕ} (hsegment : 0 < segment) (fuel start : ℕ) :
    remaining (segments segment size fuel start) + (segments segment size fuel start).length ≤
      2 * (size - start) := by
  induction fuel generalizing start with
  | zero => exact Nat.zero_le _
  | succ fuel ih =>
    unfold segments
    split
    · next hlt =>
      have hrest := ih (start + segment)
      simp only [remaining, map_cons, sum_cons, length_cons] at hrest ⊢
      omega
    · exact Nat.zero_le _

theorem Tiles.disjoint {todo : List Segment} {start stop i j : ℕ} (h : Tiles start todo stop)
    {g g' : Segment} (hi : todo[i]? = some g) (hj : todo[j]? = some g') (hij : i < j) :
    g.stop ≤ g'.start := by
  induction todo generalizing start i j with
  | nil => cases hi
  | cons head rest ih =>
    obtain ⟨-, -, -, -, hrest⟩ := h
    cases j with
    | zero => exact absurd hij (Nat.not_lt_zero i)
    | succ j =>
      cases i with
      | zero =>
        cases hi
        exact (hrest.mem (mem_of_getElem? hj)).1
      | succ i => exact ih hrest hi hj (Nat.lt_of_succ_lt_succ hij)

/-! ## A fetch from clean bytes -/

section Clean

variable {m : ManifestFile α δ} {c : Content m} {d : Dir α} {p : Proc α} {honors : Bool}

/-- Every byte that has arrived is the content's. -/
def Filled (c : Content m) (d : Dir α) : Proc α → Prop
  | .first hashed pos _ => hashed = c.bytes.take hashed.length ∧ d.dest.bytes = c.bytes.take pos
  | .parallel hashed todo _ =>
    hashed = c.bytes.take hashed.length ∧ OnDisk d hashed ∧
      ∀ (j : ℕ) (g : Segment), todo[j]? = some g →
        ∀ i, g.start ≤ i → i < g.pos → d.dest.bytes[i]? = c.bytes[i]?
  | .verify hashed => hashed = c.bytes ∧ d.dest.bytes = c.bytes
  | .finished => d.dest.bytes = c.bytes
  | .idle | .peer _ => False

/-- What the hub's answers leave open: one that does not honor ranges is read from the start, in one
answer. -/
def Answered (honors : Bool) : Proc α → Prop
  | .first hashed pos whole => honors = true ∨ whole = true ∨ pos = hashed.length
  | .parallel _ todo _ => honors = true ∧ todo ≠ []
  | _ => True

theorem Content.eq_of_check [DecidableEq δ] (c : Content m) {hashed : List α} (h : check m hashed) :
    hashed = c.bytes :=
  c.unique hashed (of_decide_eq_true h).1 (of_decide_eq_true h).2

/-- The first segment is hashed to where the content's bytes reach. -/
theorem Filled.hashedTo_first {hashed : List α} {pos : ℕ} {whole : Bool}
    (hl : Layout m d (.first hashed pos whole)) (h : Filled c d (.first hashed pos whole)) :
    hashedTo d hashed hashed.length pos = c.bytes.take pos := by
  obtain ⟨hhashed, hfile⟩ := h
  have hdisk : OnDisk d hashed := by
    rw [OnDisk, hfile, take_take, Nat.min_eq_left hl.2.1]
    exact hhashed.symm
  rw [hashedTo_eq_take hdisk hl.2.1, hfile, take_take, Nat.min_self]

/-- A segment hashed to its end is the content's to there. -/
theorem Filled.take_stop {hashed : List α} {rest : List Segment} {last : ℕ} {g : Segment}
    (hl : Layout m d (.parallel hashed (g :: rest) last))
    (h : Filled c d (.parallel hashed (g :: rest) last)) (hpos : g.pos = g.stop) :
    hashedTo d hashed g.start g.stop = c.bytes.take g.stop ∧
      d.dest.bytes.take g.stop = c.bytes.take g.stop := by
  obtain ⟨hhashed, hdisk, harrived⟩ := h
  obtain ⟨-, -, ⟨hstart, hlt, -⟩, -⟩ := hl
  have hbytes : d.dest.bytes.take g.stop = c.bytes.take g.stop := by
    refine ext_getElem? fun i => ?_
    rw [getElem?_take, getElem?_take]
    split
    · by_cases hold : i < hashed.length
      · have hi' := congrArg (·[i]?) ((show _ = hashed from hdisk).trans hhashed)
        simpa only [getElem?_take_of_lt hold] using hi'
      · exact harrived 0 g rfl i (by omega) (by omega)
    · rfl
  refine ⟨?_, hbytes⟩
  rw [hstart, hashedTo_eq_take hdisk (by omega), hbytes]

variable [Zero α]

/-- Bytes of the content arrive in a segment. -/
theorem Filled.receive {hashed : List α} {todo : List Segment} {last i : ℕ} {g : Segment}
    {bytes : List α} (hl : Layout m d (.parallel hashed todo last))
    (h : Filled c d (.parallel hashed todo last)) (hget : todo[i]? = some g)
    (hlen : g.pos + bytes.length ≤ g.stop) (hbytes : bytes = (c.bytes.drop g.pos).take bytes.length) :
    Filled c (d.applyAll [.write g.pos bytes])
      (.parallel hashed (todo.set i { g with pos := g.pos + bytes.length }) last) := by
  obtain ⟨hhashed, hdisk, harrived⟩ := h
  obtain ⟨hlength, -, htiles, hreached⟩ := hl
  have hmem := htiles.mem (mem_of_getElem? hget)
  refine ⟨hhashed, onDisk_write hdisk (by omega) hlength bytes, fun j g' hg' k hk hk' => ?_⟩
  have hwritten : (d.applyAll [.write g.pos bytes]).dest.bytes =
      Disk.splice d.dest.bytes g.pos bytes := rfl
  rw [hwritten]
  by_cases hij : i = j
  · subst hij
    have hset : g' = { g with pos := g.pos + bytes.length } := by
      have hlt : i < todo.length := (List.getElem?_eq_some_iff.mp hget).1
      rw [List.getElem?_set_self hlt] at hg'
      exact (Option.some.inj hg').symm
    subst hset
    dsimp only at hk hk'
    by_cases hold : k < g.pos
    · have hge := hreached g (mem_of_getElem? hget) (by omega)
      rw [Disk.splice_getElem?_of_lt d.dest.bytes bytes hold (by omega)]
      exact harrived i g hget k hk hold
    · obtain ⟨n, rfl⟩ : ∃ n, k = g.pos + n := ⟨k - g.pos, by omega⟩
      rw [Disk.splice_getElem?_of_mem d.dest.bytes bytes (by omega), hbytes,
        getElem?_take_of_lt (by omega), getElem?_drop]
  · -- The bytes of another segment lie to one side.
    rw [getElem?_set_ne hij] at hg'
    have hge := hreached g' (mem_of_getElem? hg') (by omega)
    have hmem' := htiles.mem (mem_of_getElem? hg')
    rw [← harrived j g' hg' k hk hk']
    rcases Nat.lt_or_gt_of_ne hij with hlt | hgt
    · have := htiles.disjoint hget hg' hlt
      exact Disk.splice_getElem?_of_le d.dest.bytes bytes (by omega) (by omega)
    · have := htiles.disjoint hg' hget hgt
      exact Disk.splice_getElem?_of_lt d.dest.bytes bytes (by omega) (by omega)

variable [DecidableEq δ] {t : Tuning} {e : Event α} {a : Act α}

/-- **What an honest hub delivers keeps every byte the content's.** -/
theorem filled_transition (hl : Layout m d p) (h : Filled c d p) (hserves : Serves c honors p e)
    (ht : Transition t m d p e a) : Filled c (d.applyAll a.ops) a.proc := by
  cases ht with
  | firstReceive hashed pos whole bytes hne hchunk hlen =>
    obtain ⟨⟨pos', hpos', hbytes⟩, -⟩ := hserves
    cases hpos'
    obtain ⟨hhashed, hfile⟩ := h
    obtain ⟨hlength, -, -⟩ := hl
    refine ⟨hhashed, ?_⟩
    have hwritten : (d.applyAll [.write pos bytes]).dest.bytes =
        Disk.splice d.dest.bytes pos bytes := rfl
    have hend := Disk.splice_length d.dest.bytes bytes
    rw [hlength] at hend
    rw [hwritten, hend, hfile, take_add, ← hbytes]
  | firstWhole hashed => exact h
  | firstRestart hashed pos whole hpos => exact ⟨rfl, rfl⟩
  | firstLast hashed pos whole hstop hsize =>
    have hall : c.bytes.take pos = c.bytes := take_of_length_le (c.length.trans_le hsize)
    exact ⟨(h.hashedTo_first hl).trans hall, h.2.trans hall⟩
  | firstHash hashed pos whole hstop hsize =>
    have hread := h.hashedTo_first hl
    obtain ⟨-, hfile⟩ := h
    have hpos : (c.bytes.take pos).length = pos := by rw [← hfile, hl.1]
    dsimp only [Filled]
    rw [hread, hpos]
    refine ⟨rfl, ?_, fun j g hg i hi hi' => ?_⟩
    · rw [← hfile]
      exact take_length
    · rw [pos_of_mem_segments (mem_of_getElem? hg)] at hi'
      omega
  | receive hashed todo last i g bytes hget hwindow hne hchunk hlen =>
    obtain ⟨⟨pos, hpos, hbytes⟩, -⟩ := hserves
    have hpos' : g.pos = pos := by
      rw [Proc.awaits, hget] at hpos
      exact Option.some.inj hpos
    subst hpos'
    exact h.receive hl hget hlen hbytes
  | hashLast hashed last g hpos ops hops =>
    obtain ⟨hread, hfile⟩ := h.take_stop hl hpos
    obtain ⟨-, hle, ⟨-, -, -, -, hend⟩, -⟩ := hl
    have hstop : g.stop = m.size := hend
    have hall : c.bytes.take g.stop = c.bytes := take_of_length_le (by rw [c.length, hstop])
    refine ⟨hread.trans hall, ?_⟩
    rw [bytes_of_checkpointed d hops, ← hall, ← hfile, take_of_length_le (by omega)]
  | hash hashed rest last last' g hrest hpos ops hops =>
    obtain ⟨hread, hfile⟩ := h.take_stop hl hpos
    obtain ⟨hlength, hstop⟩ := length_hashedTo_head hl hpos
    have hstop' : (c.bytes.take g.stop).length = g.stop := hread ▸ hlength
    dsimp only [Filled]
    rw [hread, hstop', OnDisk, bytes_of_checkpointed d hops, hstop']
    exact ⟨rfl, hfile, fun j g' hg' => h.2.2 (j + 1) g' hg'⟩
  | checked hashed hcheck => exact h.2
  | refused hashed hcheck =>
    have hpass : check m hashed := by
      rw [check, decide_eq_true_iff, h.1]
      exact ⟨c.length, c.digest⟩
    exact absurd hpass hcheck
  | _ => exact absurd hserves id

omit [Zero α] in
/-- What the hub's answers leave open is kept. -/
theorem answered_transition (h : Answered honors p) (hserves : Serves c honors p e)
    (ht : Transition t m d p e a) : Answered honors a.proc := by
  cases ht with
  | firstReceive hashed pos whole bytes hne hchunk hlen =>
    obtain ⟨-, hhonors | ⟨_, _, hp⟩⟩ := hserves
    · exact Or.inl hhonors
    · cases hp
      exact Or.inr (Or.inl rfl)
  | firstWhole hashed => exact Or.inr (Or.inl rfl)
  | firstRestart hashed pos whole hpos => exact Or.inr (Or.inr rfl)
  | firstHash hashed pos whole hstop hsize =>
    have hsegment := t.segment_pos
    refine ⟨?_, ?_⟩
    · rcases h with hhonors | rfl | hpos
      · exact hhonors
      · exact absurd (show m.size ≤ pos from hstop) (by omega)
      · rw [firstStop] at hstop
        split at hstop
        · omega
        · omega
    · obtain ⟨n, hn⟩ : ∃ n, m.size = n + 1 := ⟨m.size - 1, by omega⟩
      rw [hn, segments, if_pos (by omega)]
      exact cons_ne_nil _ _
  | receive hashed todo last i g bytes hget hwindow hne hchunk hlen =>
    refine ⟨h.1, fun hnil => ?_⟩
    exact h.2 (eq_nil_of_length_eq_zero (by rw [← length_set, hnil]; rfl))
  | hash hashed rest last last' g hrest hpos ops hops => exact ⟨h.1, hrest⟩
  | firstLast | hashLast | checked | refused => trivial
  | _ => exact absurd hserves id

/-! ## Every run of the fetch ends -/

/-- What a fetch has yet to do. -/
def rank (m : ManifestFile α δ) : Proc α → ℕ
  | .first hashed pos whole =>
    (if hashed.length = 0 then 0 else 2 * m.size + 4) + 2 * (m.size - pos) + (if whole then 0 else 1) + 3
  | .parallel _ todo _ => remaining todo + todo.length + 2
  | .verify _ => 1
  | .peer _ | .idle | .finished => 0

omit [Zero α] in
theorem rank_transition (hserves : Serves c honors p e)
    (ht : Transition t m d p e a) : rank m a.proc < rank m p := by
  cases ht with
  | firstReceive hashed pos whole bytes hne hchunk hlen =>
    have hpos : 0 < bytes.length := length_pos_iff.mpr hne
    have hstop := firstStop_le t m hashed whole
    dsimp only [rank]
    omega
  | firstWhole hashed =>
    dsimp only [rank]
    rw [if_pos rfl, if_neg Bool.false_ne_true]
    omega
  | firstRestart hashed pos whole hpos =>
    dsimp only [rank]
    rw [if_pos length_nil, if_neg Bool.false_ne_true, if_neg (by omega)]
    omega
  | firstLast | hashLast =>
    dsimp only [rank]
    omega
  | firstHash hashed pos whole hstop hsize =>
    have hfresh : remaining (segments t.segment m.size m.size pos) + _ ≤ 2 * (m.size - pos) :=
      remaining_segments t.segment_pos m.size pos
    dsimp only [rank]
    omega
  | receive hashed todo last i g bytes hget hwindow hne hchunk hlen =>
    have hpos : 0 < bytes.length := length_pos_iff.mpr hne
    have hset := remaining_set hget hlen
    dsimp only [rank]
    rw [length_set]
    omega
  | hash hashed rest last last' g hrest hpos ops hops =>
    have hhead : remaining (g :: rest) = (g.stop - g.pos) + remaining rest := rfl
    dsimp only [rank, length_cons]
    omega
  | checked | refused => exact Nat.zero_lt_one
  | _ => exact absurd hserves id

omit [Zero α] [DecidableEq δ] in
/-- A byte of the content from some position on. -/
theorem Content.exists_byte (c : Content m) {pos : ℕ} (hpos : pos < m.size) :
    ∃ b, [b] = (c.bytes.drop pos).take [b].length := by
  have hlt : pos < c.bytes.length := c.length ▸ hpos
  refine ⟨c.bytes.get ⟨pos, hlt⟩, ?_⟩
  rw [drop_eq_getElem_cons hlt]
  rfl

/-- An event the hub may make happen, and that can. -/
theorem hubStep_of_act {s : State α} (hserves : Serves c honors s.proc e)
    (hact : (act t m s.dir s.proc e).isSome) : ∃ s', HubStep t c honors s s' := by
  obtain ⟨a, ha⟩ := Option.isSome_iff_exists.mp hact
  exact ⟨_, e, hserves, by rw [State.step, ha]; rfl⟩

/-- **Short of the whole file there is something to do.** -/
theorem exists_hubStep {s : State α} (hl : Layout m s.dir s.proc) (h : Filled c s.dir s.proc)
    (hans : Answered honors s.proc) (hgoal : ¬ Delivered c s) : ∃ s', HubStep t c honors s s' := by
  suffices hevent : ∃ e, Serves c honors s.proc e ∧ (act t m s.dir s.proc e).isSome by
    obtain ⟨e, hserves, hact⟩ := hevent
    exact hubStep_of_act hserves hact
  have hchunk : ∀ b : α, [b] ≠ [] ∧ [b].length ≤ t.readChunk :=
    fun b => ⟨cons_ne_nil b [], t.readChunk_pos⟩
  cases hp : s.proc with
  | idle | peer => rw [hp] at h; exact absurd h id
  | finished => rw [hp] at h; exact absurd ⟨hp, h⟩ hgoal
  | verify hashed =>
    refine ⟨.hubCheck, trivial, ?_⟩
    rw [act_of_hub rfl, hubAct]
    split <;> rfl
  | parallel hashed todo last =>
    rw [hp] at hl hans
    obtain ⟨hhonors, hne⟩ := hans
    obtain ⟨-, -, htiles, -⟩ := hl
    cases todo with
    | nil => exact absurd rfl hne
    | cons g rest =>
      have hmem := htiles.mem mem_cons_self
      by_cases hpos : g.pos = g.stop
      · refine ⟨.hubHash, trivial, ?_⟩
        rw [act_of_hub rfl, hubAct, parallelAct, if_pos hpos]
        rfl
      · obtain ⟨b, hb⟩ := c.exists_byte (show g.pos < m.size by omega)
        refine ⟨.hubReceive 0 [b], ⟨⟨g.pos, rfl, hb⟩, Or.inl hhonors⟩, ?_⟩
        have hfits : g.pos + [b].length ≤ g.stop := by rw [length_singleton]; omega
        have hact : parallelAct t m s.dir hashed (g :: rest) last (.hubReceive 0 [b]) = some _ :=
          if_pos ⟨t.window_pos, (hchunk b).1, (hchunk b).2, hfits⟩
        rw [act_of_hub rfl, hubAct, hact]
        rfl
  | first hashed pos whole =>
    rw [hp] at hl hans
    obtain ⟨-, hhashed, hsize⟩ := hl
    by_cases hstop : firstStop t m hashed whole ≤ pos
    · refine ⟨.hubHash, trivial, ?_⟩
      rw [act_of_hub rfl, hubAct, firstAct, if_pos hstop]
      dsimp only
      split <;> rfl
    · have hlt : pos < m.size := by
        rw [firstStop] at hstop
        split at hstop <;> omega
      by_cases hread : honors = true ∨ whole = true
      · obtain ⟨b, hb⟩ := c.exists_byte hlt
        have hanswer : honors = true ∨ ∃ hashed' pos', Proc.first hashed pos whole = .first hashed' pos' true :=
          hread.imp id fun hw => ⟨hashed, pos, by rw [hw]⟩
        refine ⟨.hubReceive 0 [b], ⟨⟨pos, rfl, hb⟩, hanswer⟩, ?_⟩
        have hfits : pos + [b].length ≤ firstStop t m hashed whole := by
          rw [length_singleton]; omega
        have hact : firstAct t m s.dir hashed pos whole (.hubReceive 0 [b]) = some _ :=
          if_pos ⟨(hchunk b).1, (hchunk b).2, hfits⟩
        rw [act_of_hub rfl, hubAct, hact]
        rfl
      · obtain ⟨hhonors, hwhole⟩ := not_or.mp hread
        have hpos : pos = hashed.length := (hans.resolve_left hhonors).resolve_left hwhole
        have hhonors' : honors = false := Bool.eq_false_iff.mpr hhonors
        by_cases hzero : pos = 0
        · refine ⟨.hubWhole, hhonors', ?_⟩
          rw [act_of_hub rfl, hubAct, firstAct, if_pos ⟨hzero, Bool.eq_false_iff.mpr hwhole⟩]
          rfl
        · refine ⟨.hubRestart, hhonors', ?_⟩
          rw [act_of_hub rfl, hubAct, firstAct, if_pos (by omega)]
          rfl

/-- **A hub that serves the content delivers it**, from bytes that are all the content's. -/
theorem inevitably_of_filled {s : State α} (hl : Layout m s.dir s.proc) (h : Filled c s.dir s.proc)
    (hans : Answered honors s.proc) : Inevitably (HubStep t c honors) (Delivered c) s := by
  refine Inevitably.of_measure
    (fun s => Layout m s.dir s.proc ∧ Filled c s.dir s.proc ∧ Answered honors s.proc)
    (fun s => rank m s.proc) (fun s hs hgoal => exists_hubStep hs.1 hs.2.1 hs.2.2 hgoal) ?_
    ⟨hl, h, hans⟩
  rintro s s' ⟨hl, h, hans⟩ - ⟨e, hserves, hstep⟩
  obtain ⟨a, ht, rfl⟩ := State.transition_of_step hstep
  exact ⟨⟨layout_transition hl ht, filled_transition hl h hserves ht, answered_transition hans hserves ht⟩,
    rank_transition hserves ht⟩

/-- The state the hub's fetch begins in. -/
theorem exists_hubBegun {s : State α} (hs : s.proc = .idle) : ∃ s₁, s.step t m .hubBegin = some s₁ ∧
    s₁.dir = s.dir.applyAll [.truncate (resumableOffset m s.dir)] ∧
      s₁.proc = if resumableOffset m s.dir < m.size then
        .first (resume m s.dir).1 (resumableOffset m s.dir) false else .verify (resume m s.dir).1 := by
  have hact : act t m s.dir s.proc .hubBegin = some {
      ops := (resume m s.dir).2
      proc := if (resume m s.dir).1.length < m.size then
          .first (resume m s.dir).1 (resume m s.dir).1.length false
        else .verify (resume m s.dir).1 } := by
    rw [hs]
    rfl
  refine ⟨_, by rw [State.step, hact]; rfl, ?_, ?_⟩
  · rw [resume_ops]
  · dsimp only
    rw [length_resume]

omit [Zero α] [DecidableEq δ] in
theorem layout_of_idle {s : State α} (hs : s.proc = .idle) : Layout m s.dir s.proc := by
  rw [hs]
  trivial

/-- **From a clean directory the hub delivers the file.** -/
theorem recovers_of_clean {s : State α} (hs : s.proc = .idle) (h : Clean c s.dir) :
    Recovers t c honors s := by
  obtain ⟨s₁, h₁, hdir, hproc⟩ := exists_hubBegun (t := t) (m := m) hs
  refine ⟨s₁, h₁, ?_⟩
  have hl₁ : Layout m s₁.dir s₁.proc := layout_step (layout_of_idle hs) h₁
  have hcut : s₁.dir.dest.bytes = c.bytes.take (resumableOffset m s.dir) := by
    rw [hdir]
    exact h.1
  have hoffset := (length_resume m s.dir).symm
  refine inevitably_of_filled hl₁ ?_ ?_
  · rw [hproc]
    split
    · exact ⟨by rw [← hoffset]; exact h.2, hcut⟩
    · next hlt =>
      have hall : c.bytes.take (resumableOffset m s.dir) = c.bytes :=
        take_of_length_le (by rw [c.length]; omega)
      exact ⟨h.2.trans hall, hcut.trans hall⟩
  · rw [hproc]
    split
    · exact Or.inr (Or.inr hoffset)
    · trivial

/-- **A hub that does not honor ranges delivers the file**, whatever it resumes from short of all of
it. -/
theorem recovers_of_unhonored {s : State α} (hs : s.proc = .idle)
    (hlt : resumableOffset m s.dir < m.size) : Recovers t c false s := by
  obtain ⟨s₁, h₁, hdir, hproc⟩ := exists_hubBegun (t := t) (m := m) hs
  rw [if_pos hlt] at hproc
  by_cases hzero : resumableOffset m s.dir = 0
  · refine recovers_of_clean hs ⟨by rw [hzero, take_zero, take_zero], ?_⟩
    rw [hzero, take_zero]
    exact eq_nil_of_length_eq_zero ((length_resume m s.dir).trans hzero)
  have hoffset := length_resume m s.dir
  -- Nothing but a restart can come of a resume the hub does not honor.
  have honly : ∀ s₂, HubStep t c false s₁ s₂ → s₂.proc = .first [] 0 false ∧ s₂.dir.dest.bytes = [] := by
    rintro s₂ ⟨e, hserves, hstep⟩
    obtain ⟨a, ht, rfl⟩ := State.transition_of_step hstep
    rw [hproc] at ht hserves
    generalize (resume m s.dir).1 = hashed at ht hserves hoffset
    generalize resumableOffset m s.dir = pos at ht hserves hoffset hzero hlt
    cases ht with
    | firstReceive hashed pos whole bytes hne hchunk hlen =>
      obtain ⟨-, hhonors | ⟨_, _, hp⟩⟩ := hserves
      · cases hhonors
      · cases hp
    | firstWhole hashed => exact absurd rfl hzero
    | firstRetry | fail | mismatch => exact absurd hserves id
    | firstRestart hashed pos whole hpos => exact ⟨rfl, rfl⟩
    | firstLast hashed pos whole hstop hsize => omega
    | firstHash hashed pos whole hstop hsize =>
      have hsegment := t.segment_pos
      have hle : min (hashed.length + t.segment) m.size ≤ pos := hstop
      omega
  have hact : (act t m s₁.dir s₁.proc .hubRestart).isSome := by
    rw [hproc, act_hubRestart (by omega)]
    rfl
  have hserves : Serves c false s₁.proc .hubRestart := rfl
  obtain ⟨s', hrestart⟩ := hubStep_of_act hserves hact
  refine ⟨s₁, h₁, .next s₁ s' hrestart fun s₂ hs₂ => ?_⟩
  obtain ⟨hproc₂, hbytes₂⟩ := honly s₂ hs₂
  obtain ⟨e, -, hstep⟩ := hs₂
  have hl₂ := layout_step (layout_step (layout_of_idle hs) h₁) hstep
  refine inevitably_of_filled hl₂ ?_ ?_
  · rw [hproc₂]
    exact ⟨rfl, hbytes₂⟩
  · rw [hproc₂]
    exact Or.inr (Or.inr rfl)

end Clean

/-! ## A fetch from other bytes -/

section Spoiled

variable {m : ManifestFile α δ} {c : Content m} {d : Dir α} {p : Proc α} [Zero α] [DecidableEq δ]
  {t : Tuning} {e : Event α} {a : Act α}

/-- **What a fetch resumed from stays**: the bytes it found on disk, and the hashed bytes it began
with. -/
structure Resumed (disk hashed : List α) (d : Dir α) (p : Proc α) : Prop where
  onDisk : OnDisk d disk
  continues : hashed <+: p.hashed
  length_eq : disk.length = hashed.length

omit [Zero α] in
theorem OnDisk.length_le {hashed : List α} (h : OnDisk d hashed) :
    hashed.length ≤ d.dest.bytes.length := by
  have hlength := congrArg length (show _ = hashed from h)
  rw [length_take] at hlength
  omega

/-- A transition of a running fetch that does not start the file over keeps what it resumed from. -/
theorem Resumed.transition {disk hashed : List α} (h : Resumed disk hashed d p) (hl : Layout m d p)
    (ht : Transition t m d p e a) (hp : p ≠ .idle) (ha : a.proc ≠ .idle)
    (ha' : a.proc ≠ .finished) (he : e ≠ .hubRestart) : Resumed disk hashed (d.applyAll a.ops) a.proc := by
  obtain ⟨hdisk, hpre, hlength⟩ := h
  have hle := hdisk.length_le
  have hhashed := hpre.length_le
  cases ht with
  | peerBegin | hubBegin | hubComplete => exact absurd rfl hp
  | peerFail | peerRefused | fail | mismatch | refused => exact absurd rfl ha
  | peerVerified | checked => exact absurd rfl ha'
  | firstRestart => exact absurd rfl he
  | peerReceive h' chunk hne hchunk hlen =>
    have hwrite : OnDisk (d.apply (.write h'.hashed.length chunk)) disk :=
      onDisk_write hdisk (hlength.le.trans hhashed) hle chunk
    refine ⟨?_, hpre.trans (prefix_append _ _), hlength⟩
    dsimp only
    split
    · exact hwrite
    · exact hwrite
  | firstReceive hashed' pos whole bytes hne hchunk hlen =>
    have hpos : hashed'.length ≤ pos := hl.2.1
    exact ⟨onDisk_write hdisk (by dsimp only [Proc.hashed] at hhashed; omega) hle bytes, hpre, hlength⟩
  | firstWhole | firstRetry => exact ⟨hdisk, hpre, hlength⟩
  | firstLast hashed' pos whole hstop hsize | firstHash hashed' pos whole hstop hsize =>
    exact ⟨hdisk, hpre.trans (prefix_append _ _), hlength⟩
  | receive hashed' todo last i g bytes hget hwindow hne hchunk hlen =>
    have hmem := hl.2.2.1.mem (mem_of_getElem? hget)
    exact ⟨onDisk_write hdisk (by dsimp only [Proc.hashed] at hhashed; omega) hle bytes, hpre, hlength⟩
  | hashLast hashed' last g hpos ops hops | hash hashed' _ last _ g _ hpos ops hops =>
    refine ⟨?_, hpre.trans (prefix_append _ _), hlength⟩
    rw [OnDisk, bytes_of_checkpointed d hops]
    exact hdisk

omit [Zero α] in
/-- An event that is not a beginning finds a fetch under way. -/
theorem running_of_transition (ht : Transition t m d p e a) (hhub : e ≠ .hubBegin)
    (hpeer : e ≠ .peerBegin) : p ≠ .idle ∧ p ≠ .finished := by
  cases ht with
  | peerBegin => exact absurd rfl hpeer
  | hubBegin | hubComplete => exact absurd rfl hhub
  | fail p hp | mismatch p hp => constructor <;> rintro rfl <;> cases hp
  | _ => simp

/-- What becomes of a fetch that does not start the file over: it is given up, or it is under way and
keeps what it resumed from, or it is finished and has kept it. -/
def Outcome (c : Content m) (disk hashed : List α) (s : State α) : Prop :=
  Layout m s.dir s.proc ∧
    (s.proc = .idle ∨ (s.proc = .finished ∧ hashed <+: c.bytes ∧ OnDisk s.dir disk) ∨
      (s.proc ≠ .finished ∧ Resumed disk hashed s.dir s.proc))

theorem Outcome.step {disk hashed : List α} {s s' : State α} (h : Outcome c disk hashed s)
    (hstep : s.step t m e = some s') (hhub : e ≠ .hubBegin) (hpeer : e ≠ .peerBegin)
    (he : e ≠ .hubRestart) : Outcome c disk hashed s' := by
  obtain ⟨hl, hcases⟩ := h
  refine ⟨layout_step hl hstep, ?_⟩
  obtain ⟨a, ht, rfl⟩ := State.transition_of_step hstep
  obtain ⟨hidle, hfinished⟩ := running_of_transition ht hhub hpeer
  rcases hcases with hs | ⟨hs, -⟩ | ⟨-, hresumed⟩
  · exact absurd hs hidle
  · exact absurd hs hfinished
  · by_cases ha : a.proc = .idle
    · exact Or.inl ha
    by_cases ha' : a.proc = .finished
    · obtain ⟨hcheck, hbytes, -⟩ := finished_of_transition ht ha'
      refine Or.inr (Or.inl ⟨ha', c.eq_of_check hcheck ▸ hresumed.continues, ?_⟩)
      rw [OnDisk, hbytes]
      exact hresumed.onDisk
    · exact Or.inr (Or.inr ⟨ha', hresumed.transition hl ht hidle ha ha' he⟩)

/-- A fetch begins with what it resumes from. -/
theorem outcome_begun {s s₁ : State α} (hs : s.proc = .idle) (he : e = .hubBegin ∨ e = .peerBegin)
    (h₁ : s.step t m e = some s₁) : Outcome c (s.dir.dest.bytes.take (resumableOffset m s.dir))
      (resume m s.dir).1 s₁ := by
  have hoffset := length_resume m s.dir
  have hlength := length_take_of_le (resumableOffset_le m s.dir).2
  refine ⟨layout_step (layout_of_idle hs) h₁, Or.inr (Or.inr ?_)⟩
  obtain ⟨a, ht, rfl⟩ := State.transition_of_step h₁
  rw [hs] at ht
  have hdisk : OnDisk (s.dir.applyAll [.truncate (resumableOffset m s.dir)])
      (s.dir.dest.bytes.take (resumableOffset m s.dir)) := take_length
  have hsame := hlength.trans hoffset.symm
  cases ht with
  | peerBegin | hubBegin | hubComplete => exact ⟨by simp, hdisk, prefix_refl _, hsame⟩
  | fail _ hp | mismatch _ hp => cases hp

omit [Zero α] [DecidableEq δ] in
/-- A file that is the content was resumed from bytes that are. -/
theorem clean_of_content {disk : Dir α} (hhashed : (resume m d).1 <+: c.bytes)
    (hdisk : OnDisk disk (d.dest.bytes.take (resumableOffset m d)))
    (hcontent : disk.dest.bytes = c.bytes) : Clean c d := by
  have hlength := length_take_of_le (resumableOffset_le m d).2
  refine ⟨?_, ?_⟩
  · rw [OnDisk, hcontent, hlength] at hdisk
    exact hdisk.symm
  · rw [← length_resume]
    exact prefix_iff_eq_take.mp hhashed

omit [Zero α] in
/-- The first segment is read by a fetch that begins, and by none after it. -/
theorem not_first_of_transition (ht : Transition t m d p e a) (he : e ≠ .hubBegin)
    (hp : ∀ hashed pos whole, p ≠ .first hashed pos whole) :
    (∀ hashed pos whole, a.proc ≠ .first hashed pos whole) ∧ e ≠ .hubRestart := by
  cases ht with
  | hubBegin | hubComplete => exact absurd rfl he
  | firstReceive | firstWhole | firstRetry | firstRestart | firstLast | firstHash =>
    exact absurd rfl (hp _ _ _)
  | _ => simp

/-- A run of an honest hub that does not make the file start over. -/
theorem outcome_run {honors : Bool} {disk hashed : List α} {s s' : State α}
    (h : Outcome c disk hashed s)
    (hfirst : honors = true ∨ ∀ hashed pos whole, s.proc ≠ .first hashed pos whole)
    (hrun : Relation.ReflTransGen (HubStep t c honors) s s') : Outcome c disk hashed s' ∧
      (honors = true ∨ ∀ hashed pos whole, s'.proc ≠ .first hashed pos whole) := by
  induction hrun with
  | refl => exact ⟨h, hfirst⟩
  | tail _ hstep ih =>
    obtain ⟨e, hserves, hstep⟩ := hstep
    obtain ⟨hout, hnot⟩ := ih
    have hhub : e ≠ .hubBegin := by rintro rfl; exact hserves
    have hpeer : e ≠ .peerBegin := by rintro rfl; exact hserves
    obtain ⟨a, ht, hs'⟩ := State.transition_of_step hstep
    rcases hnot with rfl | hnot
    · have hrestart : e ≠ .hubRestart := by rintro rfl; cases hserves
      exact ⟨hout.step hstep hhub hpeer hrestart, Or.inl rfl⟩
    · obtain ⟨hnot', hrestart⟩ := not_first_of_transition ht hhub hnot
      subst hs'
      exact ⟨hout.step hstep hhub hpeer hrestart, Or.inr hnot'⟩

/-- **From other bytes no hub that honors ranges delivers the file**, and none once all of it is
checkpointed. -/
theorem not_recovers_of_not_clean {honors : Bool} {s : State α} (hs : s.proc = .idle)
    (hclean : ¬ Clean c s.dir) (hhonors : honors = true ∨ m.size ≤ resumableOffset m s.dir) :
    ¬ Recovers t c honors s := by
  rintro ⟨s₁, h₁, hinevitable⟩
  obtain ⟨s', hrun, hfinished, hcontent⟩ := hinevitable.exists_run
  obtain ⟨s₁', h₁', -, hproc⟩ := exists_hubBegun (t := t) (m := m) hs
  cases h₁.symm.trans h₁'
  have hfirst : honors = true ∨ ∀ hashed pos whole, s₁.proc ≠ .first hashed pos whole := by
    refine hhonors.imp id fun hle => ?_
    rw [hproc, if_neg (by omega)]
    simp
  have houtcome := (outcome_run (outcome_begun (c := c) hs (Or.inl rfl) h₁) hfirst hrun).1
  obtain ⟨-, hidle | ⟨-, hhashed, hdisk⟩ | ⟨hrunning, -⟩⟩ := houtcome
  · cases hidle.symm.trans hfinished
  · exact hclean (clean_of_content hhashed hdisk hcontent)
  · exact hrunning hfinished

/-! ## A peer that delivers the file -/

/-- A fetch from clean bytes has on disk what it has hashed, and a finished one has the content. -/
def Honest (c : Content m) (s : State α) : Prop :=
  Layout m s.dir s.proc ∧ OnDisk s.dir s.proc.hashed ∧
    (s.proc = .finished → s.dir.dest.bytes = c.bytes)

theorem Honest.step {s s' : State α} (h : Honest c s) (hstep : s.step t m e = some s')
    (hhub : e ≠ .hubBegin) (hpeer : e ≠ .peerBegin) : Honest c s' := by
  obtain ⟨hl, hdisk, -⟩ := h
  refine ⟨layout_step hl hstep, ?_⟩
  obtain ⟨a, ht, rfl⟩ := State.transition_of_step hstep
  obtain ⟨hidle, -⟩ := running_of_transition ht hhub hpeer
  exact ⟨onDisk_transition hl hdisk hidle ht, fun hfinished =>
    c.eq_of_check (check_transition hl hdisk ht hfinished)⟩

/-- **A peer that finishes the file leaves the content** exactly when it resumed from bytes of it. -/
theorem peer_delivers_iff {s s' : State α} {es : List (Event α)} (hs : s.proc = .idle)
    (hes : ∀ e ∈ es, e ≠ .hubBegin ∧ e ≠ .peerBegin ∧ e ≠ .hubRestart)
    (h : s.steps t m (.peerBegin :: es) = some s') (hfinished : s'.proc = .finished) :
    s'.dir.dest.bytes = c.bytes ↔ Clean c s.dir := by
  obtain ⟨s₁, h₁, hrest⟩ := State.steps_cons_eq_some h
  constructor
  · intro hcontent
    have houtcome := State.steps_induction (fun e he s s' hstep hs =>
      Outcome.step hs hstep (hes e he).1 (hes e he).2.1 (hes e he).2.2) hrest
      (outcome_begun (c := c) hs (Or.inr rfl) h₁)
    obtain ⟨-, hidle | ⟨-, hhashed, hdisk⟩ | ⟨hrunning, -⟩⟩ := houtcome
    · cases hidle.symm.trans hfinished
    · exact clean_of_content hhashed hdisk hcontent
    · exact absurd hfinished hrunning
  · rintro ⟨hbytes, hhashed⟩
    have hbegun : Honest c s₁ := by
      refine ⟨layout_step (layout_of_idle hs) h₁, ?_⟩
      obtain ⟨a, ht, rfl⟩ := State.transition_of_step h₁
      rw [hs] at ht
      cases ht with
      | peerBegin =>
        refine ⟨?_, fun hend => by cases hend⟩
        have hcut : (s.dir.applyAll [.truncate (resumableOffset m s.dir)]).dest.bytes =
            c.bytes.take (resumableOffset m s.dir) := hbytes
        have hsame : (resume m s.dir).1.length = resumableOffset m s.dir := length_resume m s.dir
        dsimp only [Proc.hashed, StreamHasher.resumed]
        rw [OnDisk, hcut, hsame, take_take, Nat.min_self, hhashed]
    have hend := State.steps_induction (fun e he s s' hstep hs =>
      Honest.step hs hstep (hes e he).1 (hes e he).2.1) hrest hbegun
    exact hend.2.2 hfinished

end Spoiled

/-- **Whoever finishes a file, it is the content exactly when they resumed from bytes of it**, whatever
the attempts and the peers before them left: a hub that serves the content delivers it from a clean
directory, and from any other only by starting the file over; a peer that finishes it leaves the content
from a clean directory only. -/
theorem honest_source_delivers_iff [Zero α] [DecidableEq δ] (t : Tuning) (m : ManifestFile α δ)
    (c : Content m) (honors : Bool) (s : State α) (hs : s.proc = .idle) :
    (Recovers t c honors s.fallBack ↔
        Clean c s.dir ∨ (honors = false ∧ resumableOffset m s.dir < m.size)) ∧
      ∀ (es : List (Event α)) (s' : State α), (∀ e ∈ es, e.ofPeer = true ∧ e ≠ .peerBegin) →
        s.steps t m (.peerBegin :: es) = some s' → s'.proc = .finished →
          (s'.dir.dest.bytes = c.bytes ↔ Clean c s.dir) := by
  have hidle : s.fallBack.proc = .idle := hs
  refine ⟨⟨fun hrecovers => ?_, ?_⟩, fun es s' hes hsteps hfinished => ?_⟩
  · by_contra hnot
    obtain ⟨hclean, hother⟩ := not_or.mp hnot
    have hhonors : honors = true ∨ m.size ≤ resumableOffset m s.dir := by
      cases honors with
      | true => exact Or.inl rfl
      | false => exact Or.inr (Nat.le_of_not_lt fun hlt => hother ⟨rfl, hlt⟩)
    exact not_recovers_of_not_clean hidle hclean hhonors hrecovers
  · rintro (hclean | ⟨rfl, hlt⟩)
    · exact recovers_of_clean hidle hclean
    · exact recovers_of_unhonored hidle hlt
  · refine peer_delivers_iff hs (fun e he => ?_) hsteps hfinished
    obtain ⟨hpeer, hbegin⟩ := hes e he
    refine ⟨?_, hbegin, ?_⟩
    · rintro rfl; cases hpeer
    · rintro rfl; cases hpeer

/-- The content of a file whose digest is its bytes. -/
def plainContent (content : List (UInt8)) : Content (plainFile content) where
  bytes := content
  length := rfl
  digest := rfl
  unique := fun _ _ h => h

/-- A hub that honors ranges, after a peer that gave up at once. -/
theorem honest_source_delivers_two_bytes :
    Clean (plainContent [1, 2]) {} ∧
      Recovers defaultTuning (plainContent [1, 2]) true (State.fallBack { dir := {} }) :=
  ⟨⟨rfl, rfl⟩, ((honest_source_delivers_iff defaultTuning _ (plainContent [1, 2]) true { dir := {} }
    rfl).1).mpr (Or.inl ⟨rfl, rfl⟩)⟩

theorem exists_spoiled {t : Tuning} (hpos : 0 < t.interval) :
    ∃ s, (State.start (longFile t) {}).steps t (longFile t)
        (.peerBegin :: List.replicate t.interval (.peerReceive [2]) ++ [.peerFail]) = some s ∧
      s.proc = .idle ∧
        ¬ Recovers t (plainContent (List.replicate (t.interval + 1) 1)) true s.fallBack := by
  have hlength : (replicate t.interval (2 : UInt8)).length = t.interval := length_replicate
  have hsize := size_longFile (t := t)
  have hfail : act t (longFile t)
      ⟨⟨replicate t.interval 2, ∅⟩, .saved (replicate t.interval 2) true⟩
      (.peer ⟨replicate t.interval 2, t.interval + t.interval⟩) .peerFail =
        some { proc := .idle } :=
    if_pos (show (replicate t.interval (2 : UInt8)).length < (longFile t).size by omega)
  refine ⟨{ dir := ⟨⟨replicate t.interval 2, ∅⟩, .saved (replicate t.interval 2) true⟩
            received := t.interval + 0, fromPeers := t.interval + 0 }, ?_, rfl, ?_⟩
  · rw [State.steps_append, show State.start (longFile t) {} = { dir := {} } from rfl,
      steps_first_checkpoint hpos rfl 2, Option.bind_some, State.steps_cons, State.step, delivered,
      hfail]
    rfl
  · refine not_recovers_of_not_clean rfl ?_ (Or.inl rfl)
    rintro ⟨hbytes, -⟩
    have hoffset : resumableOffset (longFile t) ⟨⟨replicate t.interval 2, ∅⟩,
        .saved (replicate t.interval 2) true⟩ = (replicate t.interval (2 : UInt8)).length :=
      resumableOffset_saved rfl (by omega) le_rfl
    rw [hlength] at hoffset
    have hhead : (replicate t.interval (2 : UInt8)).take (resumableOffset (longFile t) _) =
        (replicate (t.interval + 1) 1).take (resumableOffset (longFile t) _) := hbytes
    dsimp only [State.fallBack] at hhead
    rw [hoffset] at hhead
    have hmem : (2 : UInt8) ∈ (replicate t.interval 2).take t.interval := by simp [hpos.ne']
    rw [hhead] at hmem
    exact absurd (eq_of_mem_replicate (mem_of_mem_take hmem)) (by decide)

/-- **A peer that delivers wrong bytes up to its first checkpoint spoils the file**: the hub resumes from
them, and what it serves does not bring them back. -/
theorem bad_peer_spoils_file :
    ∃ s, (State.start (longFile defaultTuning) {}).steps defaultTuning (longFile defaultTuning)
        (.peerBegin :: List.replicate defaultTuning.interval (.peerReceive [2]) ++ [.peerFail]) =
          some s ∧ s.proc = .idle ∧
      ¬ Recovers defaultTuning
        (plainContent (List.replicate (defaultTuning.interval + 1) 1)) true s.fallBack := by
  have hpos : 0 < defaultTuning.interval := by norm_num [defaultTuning]
  exact exists_spoiled hpos

end GpuStack.Download
