import GpuStack.Download.Layout

/-!
# Download/Count — the received count of a file

The count is seeded with what a resume carries over and told of every byte as it arrives.  It is exact
when it equals what the file holds (`held`), and every event keeps the difference but two: a peer that
is given up, whose bytes past the last checkpoint are fetched again and counted again, and the fall back
to the hub, which withdraws all the peers' bytes although the hub resumes from the checkpoints they
left.
-/

namespace GpuStack.Download

open List

variable {α δ : Type}

/-- The bytes of the segments that have arrived. -/
def arrived (todo : List Segment) : ℕ := (todo.map fun g => g.pos - g.start).sum

/-- **What a file holds**, as the count should have it. -/
def held (m : ManifestFile α δ) (d : Dir α) : Proc α → ℕ
  | .idle => resumableOffset m d
  | .peer h => h.hashed.length
  | .first _ pos _ => pos
  | .parallel hashed todo _ => hashed.length + arrived todo
  | .verify hashed => hashed.length
  | .finished => m.size

/-- What the count has too much. -/
def surplus (m : ManifestFile α δ) (s : State α) : ℤ := s.received - held m s.dir s.proc

theorem arrived_segments (segment size fuel start : ℕ) :
    arrived (segments segment size fuel start) = 0 := by
  refine sum_eq_zero fun n hn => ?_
  obtain ⟨g, hg, rfl⟩ := mem_map.mp hn
  rw [pos_of_mem_segments hg, Nat.sub_self]

theorem arrived_set {todo : List Segment} {i : ℕ} {g : Segment} (hget : todo[i]? = some g)
    (hpos : g.start ≤ g.pos) (n : ℕ) :
    arrived (todo.set i { g with pos := g.pos + n }) = arrived todo + n := by
  induction todo generalizing i with
  | nil => cases hget
  | cons head rest ih =>
    cases i with
    | zero =>
      cases hget
      simp only [arrived, set_cons_zero, map_cons, sum_cons]
      omega
    | succ i =>
      have hrest := ih hget
      simp only [arrived, set_cons_succ, map_cons, sum_cons] at hrest ⊢
      omega

section Steps

variable [Zero α] [DecidableEq δ] {t : Tuning} {m : ManifestFile α δ} {d : Dir α} {p : Proc α}
  {e : Event α} {a : Act α}

/-- **An event tells the count what it changes**, unless the fetch is given up. -/
theorem held_transition (hl : Layout m d p) (ht : Transition t m d p e a) (ha : a.proc ≠ .idle) :
    (held m (d.applyAll a.ops) a.proc : ℤ) = held m d p + a.count := by
  cases ht with
  | peerBegin => simp [held, StreamHasher.resumed, length_resume]
  | peerReceive h chunk hne hchunk hlen => simp [held, StreamHasher.hash]
  | peerFail | peerRefused | fail | mismatch | refused => exact absurd rfl ha
  | peerVerified h hcheck => simp [held, (of_decide_eq_true hcheck).1]
  | hubComplete hle => simp [held, length_resume]
  | hubBegin | firstReceive | firstWhole | firstRetry | firstRestart => simp [held]
  | firstLast hashed pos whole hstop hsize =>
    obtain ⟨hpos, hhashed, -⟩ := hl
    have hlength := length_hashedTo d hashed hhashed hpos.ge
    dsimp only [held]
    omega
  | firstHash hashed pos whole hstop hsize =>
    obtain ⟨hpos, hhashed, -⟩ := hl
    have hlength := length_hashedTo d hashed hhashed hpos.ge
    dsimp only [held]
    rw [arrived_segments]
    omega
  | receive hashed todo last i g bytes hget hwindow hne hchunk hlen =>
    obtain ⟨-, -, htiles, -⟩ := hl
    have hmem := htiles.mem (mem_of_getElem? hget)
    have harrived := arrived_set hget hmem.2.2.1 bytes.length
    dsimp only [held]
    omega
  | hashLast hashed last g hpos ops hops =>
    obtain ⟨hlength, -⟩ := length_hashedTo_head hl hpos
    obtain ⟨-, -, ⟨hstart, hlt, -⟩, -⟩ := hl
    have harrived : arrived [g] = g.pos - g.start := Nat.add_zero _
    dsimp only [held]
    omega
  | hash hashed rest last last' g hrest hpos ops hops =>
    obtain ⟨hlength, -⟩ := length_hashedTo_head hl hpos
    obtain ⟨-, -, ⟨hstart, hlt, -⟩, -⟩ := hl
    have harrived : arrived (g :: rest) = (g.pos - g.start) + arrived rest := rfl
    dsimp only [held]
    omega
  | checked hashed hcheck => simp [held, hl.2]

variable {s s' : State α}

theorem surplus_step (hl : Layout m s.dir s.proc) (h : s.step t m e = some s')
    (hs' : s'.proc ≠ .idle) : surplus m s' = surplus m s := by
  obtain ⟨a, ht, rfl⟩ := State.transition_of_step h
  have hheld := held_transition hl ht hs'
  rw [surplus, surplus, hheld]
  ring

/-! ## The peers -/

/-- A peer that is given up, and no other event of a peer's, leaves the file to no one; it leaves the
directory and the count as they are. -/
theorem peer_step_idle (he : e.ofPeer = true) (h : s.step t m e = some s') :
    (s'.proc = .idle ↔ GivesUp m s.proc e) ∧
      (s'.proc = .idle → s'.dir = s.dir ∧ s'.received = s.received ∧ ∃ h, s.proc = .peer h) := by
  obtain ⟨a, ht, rfl⟩ := State.transition_of_step h
  generalize s.proc = p at ht
  cases ht with
  | peerBegin | peerReceive | peerFail => simp [GivesUp]
  | peerVerified h hcheck | peerRefused h hcheck => simp [GivesUp, Proc.hashed, hcheck]
  | _ => cases he

/-- **Every peer that is given up leaves all that it delivered to be resumed from.** -/
def KeptAll (t : Tuning) (m : ManifestFile α δ) : State α → List (Event α) → Prop
  | _, [] => True
  | s, e :: es =>
    (GivesUp m s.proc e → resumableOffset m s.dir = s.proc.hashed.length) ∧
      ∀ s₁, s.step t m e = some s₁ → KeptAll t m s₁ es

/-- One event of a peer's: the count grows past what is held by what a peer that is given up takes with
it. -/
theorem surplus_peer_step (hl : Layout m s.dir s.proc) (he : e.ofPeer = true)
    (h : s.step t m e = some s') : surplus m s ≤ surplus m s' ∧ (surplus m s' = surplus m s ↔
      (GivesUp m s.proc e → resumableOffset m s.dir = s.proc.hashed.length)) := by
  obtain ⟨hiff, hidle⟩ := peer_step_idle he h
  by_cases hs' : s'.proc = .idle
  · obtain ⟨hdir, hreceived, h', hp⟩ := hidle hs'
    have hle := (resumableOffset_le m s.dir).2
    rw [hp] at hl
    have hlength : s.dir.dest.bytes.length = h'.hashed.length := hl
    rw [surplus, surplus, hs', hp, hdir, hreceived]
    dsimp only [held, Proc.hashed]
    rw [hp] at hiff
    exact ⟨by omega, ⟨fun heq _ => by omega, fun himp => by rw [himp (hiff.mp hs')]⟩⟩
  · have heq := surplus_step hl h hs'
    exact ⟨heq.ge, ⟨fun _ hgives => absurd (hiff.mpr hgives) hs', fun _ => heq⟩⟩

variable {es : List (Event α)}

/-- The peers' part of an attempt. -/
theorem surplus_peers (hl : Layout m s.dir s.proc)
    (hes : ∀ e ∈ es, e.ofPeer = true) (h : s.steps t m es = some s') :
    surplus m s ≤ surplus m s' ∧ (surplus m s' = surplus m s ↔ KeptAll t m s es) := by
  induction es generalizing s with
  | nil => cases h; exact ⟨le_rfl, iff_of_true rfl trivial⟩
  | cons e es ih =>
    obtain ⟨s₁, h₁, hrest⟩ := State.steps_cons_eq_some h
    obtain ⟨hle, hiff⟩ := surplus_peer_step hl (hes e mem_cons_self) h₁
    obtain ⟨hle', hiff'⟩ := ih (layout_step hl h₁) (fun e' he' => hes e' (.tail _ he')) hrest
    refine ⟨hle.trans hle', ?_⟩
    have hsplit : surplus m s' = surplus m s ↔
        surplus m s₁ = surplus m s ∧ surplus m s' = surplus m s₁ := by omega
    have hkept : (∀ s₂, s.step t m e = some s₂ → KeptAll t m s₂ es) ↔ KeptAll t m s₁ es :=
      ⟨fun hall => hall s₁ h₁, fun hone s₂ h₂ => by cases h₁.symm.trans h₂; exact hone⟩
    rw [hsplit, hiff, hiff', KeptAll, hkept]

/-- What the peers delivered is what the fall back withdraws. -/
theorem received_peers (hes : ∀ e ∈ es, e.ofPeer = true)
    (h : s.steps t m es = some s') : s'.received - s'.fromPeers = s.received - s.fromPeers := by
  refine State.steps_induction (P := fun s' => s'.received - s'.fromPeers = s.received - s.fromPeers)
    (fun e he s₁ s₂ hstep hs₁ => ?_) h rfl
  obtain ⟨a, -, rfl⟩ := Option.map_eq_some_iff.mp hstep
  dsimp only
  rw [if_pos (hes e he), ← hs₁]
  ring

/-! ## The hub -/

/-- No event but a beginning one finds the file left to no one. -/
theorem step_of_idle (he : e.ofHub = true) (hs : s.proc = .idle) : s.step t m e = none := by
  have hnone : act t m s.dir s.proc e = none := by
    rw [hs]
    cases e <;> first | rfl | cases he
  rw [State.step, hnone]
  rfl

/-- The hub's part of an attempt, to the end of the file. -/
theorem surplus_hub (hl : Layout m s.dir s.proc)
    (hes : ∀ e ∈ es, e.ofHub = true) (h : s.steps t m es = some s') (hs' : s'.proc = .finished) :
    surplus m s' = surplus m s := by
  induction es generalizing s with
  | nil => cases h; rfl
  | cons e es ih =>
    obtain ⟨s₁, h₁, hrest⟩ := State.steps_cons_eq_some h
    have hrest' : ∀ e ∈ es, e.ofHub = true := fun e' he' => hes e' (.tail _ he')
    have hs₁ : s₁.proc ≠ .idle := by
      intro hidle
      -- A fetch that is over has no more events, and the file is not finished.
      cases es with
      | nil => cases hrest; cases hidle.symm.trans hs'
      | cons e' es' =>
        rw [State.steps_cons, step_of_idle (hrest' e' mem_cons_self) hidle] at hrest
        cases hrest
    rw [ih (layout_step hl h₁) hrest' hrest, surplus_step hl h₁ hs₁]

end Steps

/-- **The received count of a file.**  Finished by a peer it is the file's size exactly when every peer
before it left all that it delivered to be resumed from; finished by the hub, exactly when the hub
resumes from where the attempt was seeded. -/
theorem received_eq_size_iff [Zero α] [DecidableEq δ] (t : Tuning) (m : ManifestFile α δ) (d : Dir α)
    (es : List (Event α)) (s : State α) (hes : ∀ e ∈ es, e.ofPeer = true)
    (hs : (State.start m d).steps t m es = some s) :
    (s.proc = .finished → (s.received = m.size ↔ KeptAll t m (State.start m d) es)) ∧
      (s.proc = .idle → ∀ (es' : List (Event α)) (s' : State α), (∀ e ∈ es', e.ofHub = true) →
        s.fallBack.steps t m (.hubBegin :: es') = some s' → s'.proc = .finished →
          (s'.received = m.size ↔ resumableOffset m s.dir = resumableOffset m d)) := by
  have hseed : surplus m (State.start m d) = 0 := Int.sub_self _
  refine ⟨fun hfinished => ?_, fun hidle es' s' hes' hs' hfinished => ?_⟩
  · have hl : Layout m (State.start m d).dir (State.start m d).proc := trivial
    have hiff := (surplus_peers hl hes hs).2
    rw [hseed] at hiff
    rw [← hiff, surplus, hfinished]
    exact sub_eq_zero.symm
  · obtain ⟨s₁, h₁, hrest⟩ := State.steps_cons_eq_some hs'
    have hl : Layout m s.fallBack.dir s.fallBack.proc := by
      rw [show s.fallBack.proc = .idle from hidle]
      trivial
    have hbegun : s₁.proc ≠ .idle := by
      obtain ⟨a, ht, rfl⟩ := State.transition_of_step h₁
      rw [show s.fallBack.proc = .idle from hidle] at ht
      cases ht <;> simp
    have hwithdrawn := received_peers hes hs
    have hsurplus : surplus m s' = surplus m s.fallBack := by
      rw [surplus_hub (layout_step hl h₁) hes' hrest hfinished, surplus_step hl h₁ hbegun]
    have hafter : surplus m s' = s'.received - m.size := by rw [surplus, hfinished]; rfl
    have hbefore : surplus m s.fallBack =
        resumableOffset m d - resumableOffset m s.dir := by
      have hreceived : s.fallBack.received = s.received - s.fromPeers := rfl
      rw [surplus, show s.fallBack.proc = .idle from hidle, hreceived, hwithdrawn]
      simp [State.start, held, State.fallBack]
    omega

/-- A peer that delivers the file, and a peer that gives up at once before the hub delivers it. -/
theorem received_eq_size_iff_two_bytes :
    ((State.start (plainFile [1, 2]) {}).steps defaultTuning (plainFile [1, 2])
        [.peerBegin, .peerReceive [1, 2], .peerVerify]).map (·.received) = some 2 ∧
      KeptAll defaultTuning (plainFile [1, 2]) (State.start (plainFile [1, 2]) {})
        [.peerBegin, .peerReceive [1, 2], .peerVerify] ∧
      ((State.start (plainFile [1, 2]) {}).steps defaultTuning (plainFile [1, 2])
        [.peerBegin, .peerFail]).isSome ∧
      ∀ s', (State.fallBack { dir := {} }).steps defaultTuning (plainFile [1, 2])
        [.hubBegin, .hubReceive 0 [1, 2], .hubHash, .hubCheck] = some s' → s'.received = 2 := by
  refine ⟨rfl, ?_, rfl, fun s' hs' => ?_⟩
  · exact ((received_eq_size_iff defaultTuning (plainFile [1, 2]) {} _ _ (by decide) rfl).1 rfl).mp rfl
  · have hidle := (received_eq_size_iff defaultTuning (plainFile [1, 2]) {} [.peerBegin, .peerFail] _
      (by decide) rfl).2 rfl [.hubReceive 0 [1, 2], .hubHash, .hubCheck] s' (by decide) hs'
    have hfinished : s'.proc = .finished := by
      cases hs'
      rfl
    exact (hidle hfinished).mpr rfl

/-- **A peer fails after a byte, and another delivers the file**: three bytes are counted for a file of
two. -/
theorem received_exceeds_size :
    ((State.start (plainFile [1, 2]) {}).steps defaultTuning (plainFile [1, 2])
        [.peerBegin, .peerReceive [1], .peerFail, .peerBegin, .peerReceive [1, 2], .peerVerify]).map
      (fun s => (s.proc, s.received)) = some (.finished, 3) ∧ (plainFile [1, 2]).size = 2 :=
  ⟨rfl, rfl⟩

end GpuStack.Download
