import GpuStack.Nvidia.Reclaim

/-!
# Nvidia/Machine — the partitions of a node

The node's state is its marker files and its live instances, which outlive the process, and the process's
own: the calls of `ActuatePhysicalSliced`, the reclaim loop's counters, its pass and the card whose lock
it holds.  An event is what happens between two moments at which others may interleave: a reservation or
an undone result is one, since it runs under its card's lock, with the points at which the process may
stop inside it; the reclaim loop's section on a card is several, since a marker may become unreadable at
any point of it.

Within a pass the code visits the Pods, their cards and the drained cards in the order of Go maps, so
any section may be opened next.
-/

namespace GpuStack.Nvidia

/-! ### Calls -/

/-- Where a call stands: it reserves card after card, it has answered, or it is being rolled back. -/
inductive Status
  | running
  | answered
  | rolling
deriving DecidableEq, Repr

/-- How one card of a call resolved. -/
structure CardResult where
  card : String
  inst : MigInstance
  outcome : Outcome
deriving DecidableEq, Repr

/-- A call of `ActuatePhysicalSliced`: the container it is for, the cards left and those resolved. -/
structure Call where
  podUID : String
  container : String
  profile : String
  cards : List String
  results : List CardResult
  status : Status
deriving DecidableEq, Repr

/-- The marker of the call's container on a card. -/
def Call.self (c : Call) (card : String) : MarkerPath := markerPath c.podUID c.container card

def Call.request (c : Call) (card : String) (geometry : ℤ × ℤ) : Request :=
  ⟨c.podUID, c.container, card, c.profile, geometry.1, geometry.2⟩

/-! ### The node -/

/-- What the reclaim loop is at under a card's lock, with the files as they were when it took it. -/
inductive Work
  | marked (uid card : String) (sec : CardSection) (found : Files) (todo : List MarkerEntry)
  | orphans (card : String) (found : Files) (todo : List MigInstance)

/-- The card whose lock it holds. -/
def Work.card : Work → String
  | .marked _ card _ _ _ => card
  | .orphans card _ _ => card

/-- The files it found. -/
def Work.found : Work → Files
  | .marked _ _ _ found _ => found
  | .orphans _ found _ => found

/-- A pass: what it read at its start, and the keys it reclaims. -/
structure Pass where
  snapshot : Snapshot
  due : MissKey → Bool

structure World where
  files : Files
  live : List (String × MigInstance)
  calls : List Call
  misses : MissKey → ℕ
  pass : Option Pass
  work : Option Work

/-- An empty node. -/
def World.start : World := ⟨[], [], [], fun _ => 0, none, none⟩

/-- The instances of one card. -/
def onCard (live : List (String × MigInstance)) (card : String) : List MigInstance :=
  (live.filter fun li => li.1 == card).map Prod.snd

/-- Exchange the instances of one card. -/
def setCard (live : List (String × MigInstance)) (card : String) (instances : List MigInstance) :
    List (String × MigInstance) :=
  live.filter (fun li => li.1 != card) ++ instances.map (Prod.mk card)

/-- Take an instance off its card. -/
def destroyOn (live : List (String × MigInstance)) (card : String) (giID : ℕ) :
    List (String × MigInstance) :=
  setCard live card (destroyGi (onCard live card) giID)

/-- Remove a file. -/
def unlink (files : Files) (path : MarkerPath) : Files := files.filter fun file => file.1 != path

namespace World

variable (w : World)

/-- Whether the reclaim loop holds the card's lock. -/
def locked (card : String) : Bool := w.work.any fun work => work.card == card

/-- The process stops: what it answered stands, and the rest of its memory is lost. -/
def crash : World :=
  { w with
    calls := w.calls.filter fun c => c.status == .answered
    misses := fun _ => 0
    pass := none
    work := none }

/-- What becomes of a call's reservation on a card. -/
def resolve (k : ℕ) (c : Call) (card : String) (cards : List String) (files : Files)
    (instances : List MigInstance) : Reply → World
  | .reserved i outcome => { w with
      files := files
      live := setCard w.live card instances
      calls := w.calls.set k
        { c with cards := cards, results := c.results ++ [⟨card, i, outcome⟩] } }
  | .failed _ => { w with
      files := files
      live := setCard w.live card instances
      calls := w.calls.set k { c with status := .rolling } }
  | .lost => World.crash { w with files := files, live := setCard w.live card instances }

/-- Reserve the next card of a call. -/
def reserve (uuidOf : String → MigPlacement → String) (k : ℕ) (geometry : ℤ × ℤ) (a : Answers) :
    World :=
  match w.calls[k]? with
  | none => w
  | some c => match c.status, c.cards with
    | .running, card :: cards =>
      if w.locked card then w
      else
        let r := reserveMigInstance (uuidOf card) a w.files (onCard w.live card)
          (c.request card geometry)
        w.resolve k c card cards r.1 r.2.1 r.2.2
    | _, _ => w

/-- A call whose cards are all resolved answers. -/
def answer (k : ℕ) : World :=
  match w.calls[k]? with
  | none => w
  | some c => match c.status, c.cards with
    | .running, [] => { w with calls := w.calls.set k { c with status := .answered } }
    | _, _ => w

/-- A call that has not answered is given up. -/
def fail (k : ℕ) : World :=
  match w.calls[k]? with
  | none => w
  | some c => match c.status with
    | .running => { w with calls := w.calls.set k { c with status := .rolling } }
    | _ => w

/-- How undoing one result goes: whether the driver destroys the instance, whether the process stops
before the marker is removed, and whether it is. -/
structure Undoing where
  destroys : Bool
  stops : Bool
  unlinks : Bool
deriving DecidableEq, Repr

/-- Undo one result of a call, `results` being those left. -/
def takeBack (k : ℕ) (c : Call) (r : CardResult) (results : List CardResult) (u : Undoing) : World :=
  let calls := w.calls.set k { c with results := results }
  let unlinked := if u.unlinks then unlink w.files (c.self r.card) else w.files
  match r.outcome with
  | .rebound => { w with calls := calls }
  | .bound => { w with calls := calls, files := unlinked }
  | .created =>
    let live := if u.destroys then destroyOn w.live r.card r.inst.giID else w.live
    if u.stops then World.crash { w with live := live }
    else { w with calls := calls, live := live, files := unlinked }

/-- Undo the first result left of a call that is rolled back. -/
def undo (k : ℕ) (u : Undoing) : World :=
  match w.calls[k]? with
  | none => w
  | some c => match c.status, c.results with
    | .rolling, r :: results => if w.locked r.card then w else w.takeBack k c r results u
    | _, _ => w

/-! ### The reclaim loop -/

/-- A pass starts, its readings succeed, and the misses are counted.  The instances are listed after the
markers are read, so they are whatever the driver showed by then. -/
def beginPass (livePodUIDs : List String) (claims : String → List MigPlacement)
    (instances : List (String × MigInstance)) : World :=
  match w.pass with
  | some _ => w
  | none =>
    let s : Snapshot := ⟨livePodUIDs, claims, instances, w.files⟩
    { w with
      pass := some ⟨s, s.due w.misses⟩
      misses := Debounce.tally s.touched s.live w.misses }

/-- The loop takes a card's lock for a dead Pod's markers there. -/
def openMarked (uid card : String) : World :=
  match w.pass, w.work with
  | some p, none =>
    if p.due (.pod uid) then
      match openSection (.ok (onCard w.live card)) w.files uid card with
      | none => w
      | some s => { w with
          work := some (.marked uid card s w.files
            ((p.snapshot.unclaimed uid).filter fun e => e.marker.card == card)) }
    else w
  | _, _ => w

/-- The loop takes a card's lock for its marker-less instances. -/
def openOrphans (card : String) : World :=
  match w.pass, w.work with
  | some p, none =>
    if p.due (.card card) && !orphansHeld w.files card then
      { w with work := some (.orphans card w.files (p.snapshot.orphans card)) }
    else w
  | _, _ => w

/-- How one instance goes: what it answers about its processes, and how its teardown ends. -/
structure Teardown where
  processes : Processes
  undoing : Undoing

/-- The instance the loop destroys next, on its card, with the Pod it is reclaimed from. -/
def target (t : Teardown) : Option (Option String × String × MigInstance) :=
  match w.work with
  | some (.marked uid card s _ (e :: _)) =>
    if s.verdict e.marker = .ours ∧ destroyBlockedBy t.processes = false ∧ t.undoing.destroys = true
    then some (some uid, card, e.marker.recorded) else none
  | some (.orphans card _ (i :: _)) =>
    if destroyBlockedBy t.processes = false ∧ t.undoing.destroys = true
    then some (none, card, i) else none
  | _ => none

/-- The instances after the loop's next teardown. -/
def torn (t : Teardown) : List (String × MigInstance) :=
  match w.target t with
  | some (_, card, i) => destroyOn w.live card i.giID
  | none => w.live

/-- The loop works off the next marker or instance of the card whose lock it holds.  The marker of a
partition that is its Pod's own stays until the partition is destroyed. -/
def workOff (t : Teardown) : World :=
  match w.work with
  | some (.marked uid card s found (e :: todo)) =>
    if t.undoing.stops then World.crash { w with live := w.torn t }
    else
      let kept := s.verdict e.marker == .ours && (w.target t).isNone
      { w with
        live := w.torn t
        files := if !kept && t.undoing.unlinks then unlink w.files e.path else w.files
        work := some (.marked uid card s found todo) }
  | some (.orphans card found (_ :: todo)) =>
    { w with live := w.torn t, work := some (.orphans card found todo) }
  | _ => w

/-- The loop removes an unreadable marker whose Pod is gone. -/
def retire (path : MarkerPath) : World :=
  match w.pass with
  | some p => if p.due (.corrupt path) then { w with files := unlink w.files path } else w
  | none => w

/-- The pass is over, and the keys it is done with are no longer counted. -/
def endPass (done : MissKey → Bool) : World :=
  { w with pass := none, work := none, misses := Debounce.settle done w.misses }

end World

/-! ### Runs -/

/-- What happens on the node.  The last three are from outside: a marker becomes unreadable, a path that
cannot be read turns up, and the driver's instances change. -/
inductive Event
  | call (podUID container profile : String) (cards : List String)
  | reserve (k : ℕ) (geometry : ℤ × ℤ) (a : Answers)
  | answer (k : ℕ)
  | fail (k : ℕ)
  | undo (k : ℕ) (u : World.Undoing)
  | crash
  | beginPass (livePodUIDs : List String) (claims : String → List MigPlacement)
    (instances : List (String × MigInstance))
  | openMarked (uid card : String)
  | openOrphans (card : String)
  | workOff (t : World.Teardown)
  | close
  | retire (path : MarkerPath)
  | endPass (done : MissKey → Bool)
  | spoil (path : MarkerPath)
  | stray (path : MarkerPath)
  | outside (live : List (String × MigInstance))

def World.step (uuidOf : String → MigPlacement → String) (w : World) : Event → World
  | .call podUID container profile cards =>
    { w with calls := w.calls ++ [⟨podUID, container, profile, cards, [], .running⟩] }
  | .reserve k geometry a => w.reserve uuidOf k geometry a
  | .answer k => w.answer k
  | .fail k => w.fail k
  | .undo k u => w.undo k u
  | .crash => w.crash
  | .beginPass livePodUIDs claims instances => w.beginPass livePodUIDs claims instances
  | .openMarked uid card => w.openMarked uid card
  | .openOrphans card => w.openOrphans card
  | .workOff t => w.workOff t
  | .close => { w with work := none }
  | .retire path => w.retire path
  | .endPass done => w.endPass done
  | .spoil path => { w with files := Records.spoil path w.files }
  | .stray path => { w with files := w.files ++ [(path, none)] }
  | .outside live => { w with live := live }

/-- The worlds that runs of allowed happenings reach. -/
inductive Reach (uuidOf : String → MigPlacement → String) (allowed : World → Event → Prop) :
    World → Prop
  | start : Reach uuidOf allowed .start
  | step {w : World} {e : Event} : Reach uuidOf allowed w → allowed w e →
      Reach uuidOf allowed (w.step uuidOf e)

/-! ### What the operations touch -/

variable {live : List (String × MigInstance)} {card : String}

theorem mem_onCard {i : MigInstance} :
    i ∈ onCard live card ↔ (card, i) ∈ live := by
  simp [onCard]

theorem mem_setCard
    {instances : List MigInstance} {li : String × MigInstance} :
    li ∈ setCard live card instances ↔
      (li ∈ live ∧ li.1 ≠ card) ∨ (li.1 = card ∧ li.2 ∈ instances) := by
  obtain ⟨c, i⟩ := li
  simp only [setCard, List.mem_append, List.mem_filter, bne_iff_ne, List.mem_map, Prod.mk.injEq]
  constructor
  · rintro (h | ⟨i', hi', rfl, rfl⟩)
    · exact .inl h
    · exact .inr ⟨rfl, hi'⟩
  · rintro (h | ⟨rfl, hi⟩)
    · exact .inl h
    · exact .inr ⟨i, hi, rfl, rfl⟩

theorem mem_destroyOn {giID : ℕ}
    {li : String × MigInstance} :
    li ∈ destroyOn live card giID ↔ li ∈ live ∧ ¬ (li.1 = card ∧ li.2.giID = giID) := by
  simp only [destroyOn, mem_setCard, destroyGi, List.mem_filter, mem_onCard, bne_iff_ne]
  obtain ⟨c, i⟩ := li
  constructor
  · rintro (⟨hli, hne⟩ | ⟨rfl, hli, hne⟩)
    · exact ⟨hli, fun h => hne h.1⟩
    · exact ⟨hli, fun h => hne h.2⟩
  · rintro ⟨hli, hne⟩
    by_cases hc : c = card
    · subst hc
      exact .inr ⟨rfl, hli, fun h => hne ⟨rfl, h⟩⟩
    · exact .inl ⟨hli, hc⟩

theorem mem_scanMarkers_unlink {files : Files} {path : MarkerPath} {e : MarkerEntry} :
    e ∈ scanMarkers (unlink files path) ↔ e ∈ scanMarkers files ∧ e.path ≠ path := by
  simp only [scanMarkers, Records.mem_scan, unlink, List.mem_filter, bne_iff_ne]
  constructor
  · rintro ⟨contents, ⟨hfile, hne⟩, hparse⟩
    exact ⟨⟨contents, hfile, hparse⟩, hne⟩
  · rintro ⟨⟨contents, hfile, hparse⟩, hne⟩
    exact ⟨contents, ⟨hfile, hne⟩, hparse⟩

/-- A reservation adds a marker of its own card and no other. -/
theorem Reserves.card_of_mem {a : Answers} {files files' : Files} {live live' : List MigInstance}
    {q : Request} {reply : Reply} (h : Reserves a files live q files' live' reply) {e : MarkerEntry}
    (he : e ∈ scanMarkers files') : e ∈ scanMarkers files ∨ e.marker.card = q.card := by
  cases h with
  | failed err => exact .inl he
  | rebound m i => exact .inl he
  | bound i linked =>
    rcases Records.mem_scan_add he with he | ⟨-, rfl⟩
    · exact .inl he
    · exact .inr rfl
  | created i linked kept =>
    rcases Records.mem_scan_add he with he | ⟨-, rfl⟩
    · exact .inl he
    · exact .inr rfl

namespace World

variable {w : World} {P : World → Prop}

/-- What has to be shown of a reservation: the case in which it runs. -/
theorem reserve_rule {uuidOf : String → MigPlacement → String} {k : ℕ} {geometry : ℤ × ℤ}
    {a : Answers} (same : P w)
    (run : ∀ (c : Call) (card : String) (cards : List String) (files : Files)
      (instances : List MigInstance) (reply : Reply), w.calls[k]? = some c → c.status = .running →
      c.cards = card :: cards → w.locked card = false →
      Reserves a w.files (onCard w.live card) (c.request card geometry) files instances reply →
      P (w.resolve k c card cards files instances reply)) :
    P (w.reserve uuidOf k geometry a) := by
  unfold reserve
  split
  · exact same
  next c hc =>
  split
  next card cards hstatus hcards =>
    split
    · exact same
    next hlock =>
      exact run c card cards _ _ _ hc hstatus hcards (by simpa using hlock)
        (reserves_reserveMigInstance _ _ _ _ _)
  · exact same

/-- What has to be shown of an undone result. -/
theorem undo_rule {k : ℕ} {u : Undoing} (same : P w)
    (run : ∀ (c : Call) (r : CardResult) (results : List CardResult), w.calls[k]? = some c →
      c.status = .rolling → c.results = r :: results → w.locked r.card = false →
      P (w.takeBack k c r results u)) :
    P (w.undo k u) := by
  unfold undo
  split
  · exact same
  next c hc =>
  split
  next r results hstatus hresults =>
    split
    · exact same
    next hlock => exact run c r results hc hstatus hresults (by simpa using hlock)
  · exact same

end World

/-- Each of a list of happenings is allowed where it comes. -/
def World.Replays (uuidOf : String → MigPlacement → String) (allowed : World → Event → Prop) :
    World → List Event → Prop
  | _, [] => True
  | w, e :: events => allowed w e ∧ (w.step uuidOf e).Replays uuidOf allowed events

theorem Reach.replay {uuidOf : String → MigPlacement → String} {allowed : World → Event → Prop}
    {w : World} {events : List Event} (hw : Reach uuidOf allowed w)
    (h : w.Replays uuidOf allowed events) :
    Reach uuidOf allowed (events.foldl (World.step uuidOf) w) := by
  induction events generalizing w with
  | nil => exact hw
  | cons e events ih =>
    obtain ⟨he, hrest⟩ := h
    exact ih (hw.step he) hrest

/-- The worlds of a list of happenings, when anything may happen. -/
theorem Reach.foldl (uuidOf : String → MigPlacement → String) (events : List Event) :
    Reach uuidOf (fun _ _ => True) (events.foldl (World.step uuidOf) .start) := by
  induction events using List.reverseRecOn with
  | nil => exact .start
  | append_singleton events e ih =>
    rw [List.foldl_append]
    exact ih.step trivial

end GpuStack.Nvidia
