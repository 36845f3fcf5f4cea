import GpuStack.Nvidia.Guards

/-!
# Nvidia/Ownership — no partition is granted twice

Fix the Pods that live.  `Owned` says what their markers stand for: each names a live instance of its
card, no two name the same one, and whatever a call of theirs holds, its container's marker names.
Reservations keep that, and so does the reclaim loop, whose sections spare every marker but a dead
Pod's own.  A rollback does not: it destroys the instance before it removes the marker, so a process that
stops in between leaves a marker that the next holder of the same place makes true again.

`grants_apart` is what holds in the runs that avoid it.
-/

namespace GpuStack.Nvidia

open List

/-- What the markers of the Pods that live stand for. -/
structure Owned (pods : Set String) (files : Files) (live : List (String × MigInstance))
    (calls : List Call) : Prop where
  /-- A marker's path names its Pod. -/
  named : ∀ e ∈ scanMarkers files, e.path.podUID = some e.marker.podUID
  /-- It names a live instance. -/
  backed : ∀ e ∈ scanMarkers files, e.marker.podUID ∈ pods →
    ∃ i, (e.marker.card, i) ∈ live ∧ i.giID = e.marker.giID
  /-- No two name the same. -/
  single : ∀ e ∈ scanMarkers files, ∀ e' ∈ scanMarkers files, e.marker.podUID ∈ pods →
    e'.marker.podUID ∈ pods → e.marker.card = e'.marker.card → e.marker.giID = e'.marker.giID →
    e.path = e'.path
  /-- What a call holds, its container's marker names. -/
  held : ∀ c ∈ calls, c.podUID ∈ pods → c.status ≠ .rolling → ∀ r ∈ c.results,
    ∃ e ∈ scanMarkers files, e.path = c.self r.card ∧ e.marker.podUID = c.podUID ∧
      e.marker.card = r.card ∧ e.marker.giID = r.inst.giID

section Step

variable {pods : Set String} {files files' : Files} {live live' : List (String × MigInstance)}
  {calls calls' : List Call}

/-- Calls that hold no more than calls before them. -/
theorem Owned.calls_mono (h : Owned pods files live calls)
    (hcalls : ∀ c' ∈ calls', c'.podUID ∈ pods → c'.status ≠ .rolling → ∀ r ∈ c'.results,
      ∃ c ∈ calls, c.podUID = c'.podUID ∧ c.container = c'.container ∧ c.status ≠ .rolling ∧
        r ∈ c.results) : Owned pods files live calls' := by
  refine ⟨h.named, h.backed, h.single, fun c' hc' hpod hstatus r hr => ?_⟩
  obtain ⟨c, hc, hpodUID, hcontainer, hrunning, hmem⟩ := hcalls c' hc' hpod hstatus r hr
  have := h.held c hc (hpodUID ▸ hpod) hrunning r hmem
  rwa [Call.self, hpodUID, hcontainer] at this

/-- Fewer markers, and of the instances and markers of Pods that live those that are needed. -/
theorem Owned.shrink (h : Owned pods files live calls)
    (hfiles : ∀ e ∈ scanMarkers files', e ∈ scanMarkers files)
    (hlive : ∀ e ∈ scanMarkers files', e.marker.podUID ∈ pods → ∀ i, (e.marker.card, i) ∈ live →
      i.giID = e.marker.giID → (e.marker.card, i) ∈ live')
    (hkept : ∀ e ∈ scanMarkers files, e.marker.podUID ∈ pods →
      (∃ c ∈ calls, c.podUID ∈ pods ∧ c.status ≠ .rolling ∧ ∃ r ∈ c.results, e.path = c.self r.card) →
      e ∈ scanMarkers files') : Owned pods files' live' calls := by
  refine ⟨fun e he => h.named e (hfiles e he), fun e he hpod => ?_, fun e he e' he' => h.single e
    (hfiles e he) e' (hfiles e' he'), fun c hc hpod hstatus r hr => ?_⟩
  · obtain ⟨i, hi, hgi⟩ := h.backed e (hfiles e he) hpod
    exact ⟨i, hlive e he hpod i hi hgi, hgi⟩
  · obtain ⟨e, he, hpath, hpodUID, hrest⟩ := h.held c hc hpod hstatus r hr
    exact ⟨e, hkept e he (hpodUID ▸ hpod) ⟨c, hc, hpod, hstatus, r, hr, hpath⟩, hpath, hpodUID, hrest⟩

/-- A marker is added, of an instance that no other marker of a Pod that lives names. -/
theorem Owned.add {q : Request} {i : MigInstance} {linked : Bool}
    (h : Owned pods files live calls)
    (hlive : ∀ e ∈ scanMarkers files, e.marker.podUID ∈ pods → ∀ j, (e.marker.card, j) ∈ live →
      j.giID = e.marker.giID → (e.marker.card, j) ∈ live')
    (hi : linked = true → q.podUID ∈ pods → (q.card, i) ∈ live')
    (hfree : ∀ e ∈ scanMarkers files, e.marker.podUID ∈ pods → e.marker.card = q.card →
      e.marker.giID ≠ i.giID) :
    Owned pods (if linked then files ++ [(q.self, some (q.marker i))] else files) live' calls := by
  have hkept : ∀ e ∈ scanMarkers files,
      e ∈ scanMarkers (if linked then files ++ [(q.self, some (q.marker i))] else files) := by
    intro e he
    split
    · exact Records.mem_scan_append he
    · exact he
  constructor
  · intro e he
    rcases Records.mem_scan_add he with he | ⟨-, rfl⟩
    · exact h.named e he
    · rfl
  · intro e he hpod
    rcases Records.mem_scan_add he with he | ⟨hlinked, rfl⟩
    · obtain ⟨j, hj, hgi⟩ := h.backed e he hpod
      exact ⟨j, hlive e he hpod j hj hgi, hgi⟩
    · exact ⟨i, hi hlinked hpod, rfl⟩
  · intro e he e' he' hpod hpod' hcard hgi
    rcases Records.mem_scan_add he with he | ⟨-, rfl⟩ <;>
      rcases Records.mem_scan_add he' with he' | ⟨-, rfl⟩
    · exact h.single e he e' he' hpod hpod' hcard hgi
    · exact absurd hgi (hfree e he hpod hcard)
    · exact absurd hgi.symm (hfree e' he' hpod' hcard.symm)
    · rfl
  · intro c hc hpod hstatus r hr
    obtain ⟨e, he, hrest⟩ := h.held c hc hpod hstatus r hr
    exact ⟨e, hkept e he, hrest⟩

/-- What the driver and the disk owe a reservation: an id that no live instance of the card has, and no
marker left behind of an instance that is then destroyed. -/
structure Answers.Sound (a : Answers) (pods : Set String) (live : List (String × MigInstance))
    (podUID card : String) : Prop where
  fresh : ∀ giID ciID, a.create = .ok (giID, ciID) → ∀ i, (card, i) ∈ live → i.giID ≠ giID
  written : podUID ∈ pods → ∀ err, a.write = .failed err true → a.destroy ≠ .ok ()

/-- **A reservation keeps the markers true.** -/
theorem Owned.reserve {a : Answers} {q : Request} {instances : List MigInstance} {reply : Reply}
    (h : Owned pods files live calls) (ha : a.Sound pods live q.podUID q.card)
    (hres : Reserves a files (onCard live q.card) q files' instances reply) :
    Owned pods files' (setCard live q.card instances) calls := by
  have same : ∀ li, li ∈ setCard live q.card (onCard live q.card) ↔ li ∈ live := by
    rintro ⟨card, i⟩
    rw [mem_setCard, mem_onCard]
    constructor
    · rintro (⟨hli, -⟩ | ⟨rfl, hli⟩)
      · exact hli
      · exact hli
    · intro hli
      by_cases hcard : card = q.card
      · exact .inr ⟨hcard, hcard ▸ hli⟩
      · exact .inl ⟨hli, hcard⟩
  have unchanged : Owned pods files (setCard live q.card (onCard live q.card)) calls :=
    h.shrink (fun _ he => he) (fun e _ _ i hi _ => (same _).mpr hi) fun _ he _ _ => he
  cases hres with
  | failed err => exact unchanged
  | rebound m i => exact unchanged
  | bound i linked _ hself hi hfree =>
    refine h.add (fun e _ _ j hj _ => (same _).mpr hj) (fun _ _ => (same _).mpr (mem_onCard.mp hi)) ?_
    intro e he _ hcard hgi
    exact hfree (mem_ownedGiIDsOnCard.mpr ⟨e, he, hcard, hgi⟩)
  | created i linked kept _ hself hcreate hdestroyed =>
    -- The id is new on the card, so no marker of a Pod that lives names it.
    have hfree : ∀ e ∈ scanMarkers files, e.marker.podUID ∈ pods → e.marker.card = q.card →
        e.marker.giID ≠ i.giID := by
      intro e he hpod hcard hgi
      obtain ⟨j, hj, hgj⟩ := h.backed e he hpod
      exact ha.fresh _ _ hcreate j (hcard ▸ hj) (hgj.trans hgi)
    refine h.add (fun e he hpod j hj hgj => ?_) (fun hlinked hpod => ?_) hfree
    · rw [mem_setCard]
      by_cases hcard : e.marker.card = q.card
      · refine .inr ⟨hcard, ?_⟩
        have hmem : j ∈ onCard live q.card ++ [i] :=
          mem_append_left _ (mem_onCard.mpr (hcard ▸ hj))
        cases kept with
        | true => exact hmem
        | false =>
          have hne : j.giID ≠ i.giID := hgj ▸ hfree e he hpod hcard
          exact mem_filter.mpr ⟨hmem, by simpa using hne⟩
      · exact .inl ⟨hj, hcard⟩
    · rw [mem_setCard]
      refine .inr ⟨rfl, ?_⟩
      cases kept with
      | true => exact mem_append_right _ (mem_singleton_self i)
      | false =>
        obtain ⟨⟨err, hwrite⟩, hdestroy⟩ := hdestroyed rfl
        exact absurd hdestroy (ha.written hpod err (hlinked ▸ hwrite))

/-- What a reservation resolves to, the container's marker names. -/
theorem Reserves.named {a : Answers} {q : Request} {instances instances' : List MigInstance}
    {i : MigInstance} {outcome : Outcome}
    (hres : Reserves a files instances q files' instances' (.reserved i outcome))
    (hread : corruptPaths files' = []) :
    ∃ e ∈ scanMarkers files', e.path = q.self ∧ e.marker.giID = i.giID := by
  cases hres with
  | rebound m j hm _ hgi => exact ⟨_, hm, rfl, rfl⟩
  | bound j linked _ _ _ _ hreply =>
    obtain ⟨rfl, rfl, -⟩ := hreply i outcome rfl
    exact ⟨⟨q.self, q.marker i⟩, Records.mem_scan_of_readable hread (by simp), rfl, rfl⟩
  | created j linked kept _ _ _ _ hreply =>
    obtain ⟨rfl, -, rfl, -⟩ := hreply i outcome rfl
    exact ⟨⟨q.self, q.marker i⟩, Records.mem_scan_of_readable hread (by simp), rfl, rfl⟩

/-- A container's marker on a card is of its Pod and of the card. -/
theorem Owned.self (h : Owned pods files live calls) {e : MarkerEntry} (he : e ∈ scanMarkers files)
    {podUID container card : String} (hpath : e.path = markerPath podUID container card) :
    e.marker.podUID = podUID ∧ e.marker.card = card := by
  have hpod := h.named e he
  have hcard := card_of_mem_scanMarkers he
  rw [hpath] at hpod hcard
  exact ⟨(Option.some.inj hpod).symm, (Option.some.inj hcard).symm⟩

end Step

/-! ### The whole node -/

/-- The card a call reserves on next. -/
def World.nextCard (w : World) (k : ℕ) : Option String := w.calls[k]?.bind fun c => c.cards.head?

/-- Every marker can be read after an event, an id is handed out again only once it is free, and nobody
else changes the node. -/
def Event.undisturbed (uuidOf : String → MigPlacement → String) (w : World) (e : Event) : Bool :=
  (corruptPaths (w.step uuidOf e).files).isEmpty && match e with
    | .reserve k _ a => w.live.all fun li =>
        w.nextCard k != some li.1 || a.create.toOption.map Prod.fst != some li.2.giID
    | .spoil _ => false
    | .stray _ => false
    | .outside _ => false
    | _ => true

/-- What the rest of the run owes the Pods that live.  A marker that a failed write left behind is not
that of an instance destroyed.  A result undone is not in the hands of another call of its container; an
instance that is destroyed with it is named by no other marker of these Pods, and its own marker goes
with it.  A Pod missed twice is not missed a third time. -/
def Event.Careful (pods : Set String) (w : World) : Event → Prop
  | .reserve k _ a => ∀ c, w.calls[k]? = some c → c.podUID ∈ pods → ∀ err,
      a.write = .failed err true → a.destroy ≠ .ok ()
  | .undo k u => ∀ c, w.calls[k]? = some c → c.status = .rolling → ∀ r, c.results.head? = some r →
      (r.outcome ≠ .rebound → c.podUID ∈ pods → ∀ c' ∈ w.calls, c'.podUID = c.podUID →
        c'.container = c.container → c'.status ≠ .rolling → ∀ r' ∈ c'.results, r'.card ≠ r.card) ∧
      (r.outcome = .created → u.destroys = true → ∀ e ∈ scanMarkers w.files, e.marker.podUID ∈ pods →
        e.marker.card = r.card → e.marker.giID = r.inst.giID →
          e.path = c.self r.card ∧ u.stops = false ∧ u.unlinks = true)
  | .beginPass livePodUIDs _ _ => ∀ uid ∈ pods, 2 ≤ w.misses (.pod uid) → uid ∈ livePodUIDs
  | _ => True

/-- The reclaim loop is after nobody that lives. -/
structure World.Spares (pods : Set String) (w : World) : Prop where
  due : ∀ p, w.pass = some p → ∀ uid ∈ pods, p.due (.pod uid) = false
  retired : ∀ p, w.pass = some p → ∀ path, p.due (.corrupt path) = false
  found : ∀ p, w.pass = some p → ∀ e ∈ p.snapshot.markers, e.path.podUID = some e.marker.podUID
  reclaimed : ∀ uid card sec found todo, w.work = some (.marked uid card sec found todo) →
    uid ∉ pods ∧ ∀ e ∈ todo, e.path.podUID = some uid

/-- The markers are true, and the reclaim loop is after nobody that lives. -/
structure World.Owns (pods : Set String) (w : World) : Prop where
  owned : Owned pods w.files w.live w.calls
  spares : w.Spares pods

section Calls

variable {pods : Set String} {files : Files} {live : List (String × MigInstance)} {calls : List Call}

/-- A call is replaced by one of the same container that holds no more. -/
theorem Owned.set {k : ℕ} {c c' : Call} (h : Owned pods files live calls) (hc : calls[k]? = some c)
    (hpod : c.podUID = c'.podUID) (hcontainer : c.container = c'.container)
    (hheld : c'.status ≠ .rolling → c.status ≠ .rolling ∧ ∀ r ∈ c'.results, r ∈ c.results) :
    Owned pods files live (calls.set k c') := by
  refine h.calls_mono fun d hd _ hstatus r hr => ?_
  rcases mem_or_eq_of_mem_set hd with hd | rfl
  · exact ⟨d, hd, rfl, rfl, hstatus, hr⟩
  · obtain ⟨hrunning, hmem⟩ := hheld hstatus
    exact ⟨c, mem_of_getElem? hc, hpod, hcontainer, hrunning, hmem r hr⟩

/-- The calls that did not answer are lost. -/
theorem Owned.filter {p : Call → Bool} (h : Owned pods files live calls) :
    Owned pods files live (calls.filter p) :=
  h.calls_mono fun d hd _ hstatus _ hr => ⟨d, mem_of_mem_filter hd, rfl, rfl, hstatus, hr⟩

theorem markerPath_injective {podUID podUID' container container' card card' : String}
    (h : markerPath podUID container card = markerPath podUID' container' card') :
    podUID = podUID' ∧ container = container' ∧ card = card' := by
  simpa [markerPath, and_comm, and_assoc] using h

end Calls

namespace World

variable {pods : Set String} {w : World}

variable {c : Call} {k : ℕ}

theorem owned_resolve {card : String} {cards : List String} {geometry : ℤ × ℤ}
    {a : Answers} {files : Files} {instances : List MigInstance} {reply : Reply}
    (h : Owned pods w.files w.live w.calls) (hc : w.calls[k]? = some c)
    (ha : a.Sound pods w.live c.podUID card) (hrunning : c.status = .running)
    (hres : Reserves a w.files (onCard w.live card) (c.request card geometry) files instances reply)
    (hread : corruptPaths (w.resolve k c card cards files instances reply).files = []) :
    Owned pods (w.resolve k c card cards files instances reply).files
      (w.resolve k c card cards files instances reply).live
      (w.resolve k c card cards files instances reply).calls := by
  have hafter : Owned pods files (setCard w.live card instances) w.calls :=
    h.reserve (q := c.request card geometry) ha hres
  cases reply with
  | failed err => exact hafter.set hc rfl rfl fun hne => absurd rfl hne
  | lost => exact hafter.filter
  | reserved i outcome =>
    obtain ⟨e, he, hpath, hgi⟩ := hres.named hread
    obtain ⟨hpodUID, hcard⟩ := hafter.self he hpath
    refine ⟨hafter.named, hafter.backed, hafter.single, fun d hd hpod hstatus r hr => ?_⟩
    rcases mem_or_eq_of_mem_set hd with hd | rfl
    · exact hafter.held d hd hpod hstatus r hr
    rcases mem_append.mp hr with hr | hr
    · exact hafter.held c (mem_of_getElem? hc) hpod (by rw [hrunning]; decide) r hr
    · obtain rfl := mem_singleton.mp hr
      exact ⟨e, he, hpath, hpodUID, hcard, hgi⟩

theorem owned_takeBack {r : CardResult} {results : List CardResult} {u : Undoing}
    (h : Owned pods w.files w.live w.calls) (hc : w.calls[k]? = some c) (hrolling : c.status = .rolling)
    (hother : r.outcome ≠ .rebound → c.podUID ∈ pods → ∀ c' ∈ w.calls, c'.podUID = c.podUID →
      c'.container = c.container → c'.status ≠ .rolling → ∀ r' ∈ c'.results, r'.card ≠ r.card)
    (hown : r.outcome = .created → u.destroys = true → ∀ e ∈ scanMarkers w.files,
      e.marker.podUID ∈ pods → e.marker.card = r.card → e.marker.giID = r.inst.giID →
        e.path = c.self r.card ∧ u.stops = false ∧ u.unlinks = true) :
    Owned pods (w.takeBack k c r results u).files (w.takeBack k c r results u).live
      (w.takeBack k c r results u).calls := by
  have hcalls : ∀ {files live}, Owned pods files live w.calls →
      Owned pods files live (w.calls.set k { c with results := results }) := fun h =>
    h.set hc rfl rfl fun hne => absurd hrolling hne
  -- The marker that goes is that of no call that still holds its card.
  have hkept : r.outcome ≠ .rebound → ∀ e ∈ scanMarkers w.files, e.marker.podUID ∈ pods →
      (∃ c' ∈ w.calls, c'.podUID ∈ pods ∧ c'.status ≠ .rolling ∧ ∃ r' ∈ c'.results,
        e.path = c'.self r'.card) →
      e ∈ scanMarkers (if u.unlinks then unlink w.files (c.self r.card) else w.files) := by
    rintro houtcome e he - ⟨c', hc', hpod', hstatus', r', hr', hpath⟩
    split
    · refine mem_scanMarkers_unlink.mpr ⟨he, fun heq => ?_⟩
      obtain ⟨hpodUID, hcontainer, hcard⟩ := markerPath_injective (hpath.symm.trans heq)
      exact hother houtcome (hpodUID ▸ hpod') c' hc' hpodUID hcontainer hstatus' r' hr' hcard
    · exact he
  have hfewer : ∀ e ∈ scanMarkers (if u.unlinks then unlink w.files (c.self r.card) else w.files),
      e ∈ scanMarkers w.files := by
    intro e he
    split at he
    · exact (mem_scanMarkers_unlink.mp he).1
    · exact he
  unfold takeBack
  rcases houtcome : r.outcome with _ | _ | _
  · -- The instance was created here: what its id names now is the marker that goes with it.
    have hlive : ∀ files', (∀ e ∈ scanMarkers files', e ∈ scanMarkers w.files) →
        (u.stops = false → u.unlinks = true → ∀ e ∈ scanMarkers files', e.path ≠ c.self r.card) →
        ∀ e ∈ scanMarkers files', e.marker.podUID ∈ pods → ∀ i, (e.marker.card, i) ∈ w.live →
          i.giID = e.marker.giID →
          (e.marker.card, i) ∈ if u.destroys then destroyOn w.live r.card r.inst.giID else w.live := by
      intro files' hsub hgone e he hpod i hi hgi
      split
      next hdestroys =>
        refine mem_destroyOn.mpr ⟨hi, fun ⟨hcard, hid⟩ => ?_⟩
        obtain ⟨hpath, hstops, hunlinks⟩ :=
          hown houtcome hdestroys e (hsub e he) hpod hcard (hgi.symm.trans hid)
        exact hgone hstops hunlinks e he hpath
      · exact hi
    dsimp only
    split
    next hstops =>
      refine Owned.filter (h.shrink (fun _ he => he) (hlive w.files (fun _ he => he) ?_)
        fun _ he _ _ => he)
      intro hrun
      rw [hstops] at hrun
      cases hrun
    · refine hcalls (h.shrink hfewer (hlive _ hfewer ?_) (hkept (by rw [houtcome]; decide)))
      intro _ hunlinks e he
      rw [hunlinks] at he
      exact (mem_scanMarkers_unlink.mp he).2
  · exact hcalls (h.shrink hfewer (fun _ _ _ _ hi _ => hi) (hkept (by rw [houtcome]; decide)))
  · exact hcalls h

/-- The loop's next teardown leaves the instances that the markers of other Pods name. -/
theorem Guarded.torn (h : w.Guarded) (hspare : w.Spares pods) {t : Teardown} {e : MarkerEntry}
    (he : e ∈ scanMarkers w.files) (hpod : e.marker.podUID ∈ pods) {i : MigInstance}
    (hi : (e.marker.card, i) ∈ w.live) (hgi : i.giID = e.marker.giID) :
    (e.marker.card, i) ∈ w.torn t := by
  unfold World.torn
  split
  next owner card j ht =>
    refine mem_destroyOn.mpr ⟨hi, fun ⟨hcard, hid⟩ => ?_⟩
    obtain ⟨⟨work, hwork, -, hun, hfound⟩, -⟩ := h.unclaimed ht
    have howner := hun.readable e (hfound e he hcard) hcard (hgi.symm.trans hid)
    subst howner
    -- The Pod it is reclaimed from is the one whose section is open, and that one is dead.
    unfold target at ht
    split at ht
    next uid c sec found e' todo hwork' =>
      split_ifs at ht
      obtain ⟨huid, -⟩ := Prod.mk.inj (Option.some.inj ht)
      rw [Option.some.inj huid] at hwork'
      exact (hspare.reclaimed _ _ _ _ _ hwork').1 hpod
    · split_ifs at ht
      cases (Prod.mk.inj (Option.some.inj ht)).1
    · cases ht
  · exact hi

theorem owned_workOff (hg : w.Guarded) (h : w.Owns pods) (t : Teardown) :
    Owned pods (w.workOff t).files (w.workOff t).live (w.workOff t).calls := by
  have htorn : ∀ files', (∀ e ∈ scanMarkers files', e ∈ scanMarkers w.files) →
      ∀ e ∈ scanMarkers files', e.marker.podUID ∈ pods → ∀ i, (e.marker.card, i) ∈ w.live →
        i.giID = e.marker.giID → (e.marker.card, i) ∈ w.torn t :=
    fun files' hsub e he hpod i hi hgi => hg.torn h.spares (hsub e he) hpod hi hgi
  have hsame : Owned pods w.files (w.torn t) w.calls :=
    h.owned.shrink (fun _ he => he) (htorn w.files fun _ he => he) fun _ he _ _ => he
  unfold workOff
  split
  next uid card sec found e todo hwork =>
    split
    · exact hsame.filter
    · dsimp only
      split
      · refine h.owned.shrink (fun e' he' => (mem_scanMarkers_unlink.mp he').1)
          (htorn _ fun e' he' => (mem_scanMarkers_unlink.mp he').1) fun e' he' hpod _ => ?_
        obtain ⟨hdead, htodo⟩ := h.spares.reclaimed _ _ _ _ _ hwork
        refine mem_scanMarkers_unlink.mpr ⟨he', fun hpath => ?_⟩
        have hname := h.owned.named e' he'
        rw [hpath, htodo e mem_cons_self] at hname
        exact hdead (Option.some.inj hname ▸ hpod)
      · exact hsame
  · exact hsame
  · exact h.owned

/-- The loop's pass and section are those of before, or over. -/
theorem Spares.mono {w' : World} (h : w.Spares pods) (hpass : w'.pass = w.pass ∨ w'.pass = none)
    (hwork : w'.work = w.work ∨ w'.work = none) : w'.Spares pods := by
  have hp : ∀ p, w'.pass = some p → w.pass = some p := by
    intro p hp
    rcases hpass with heq | hnone
    · exact heq ▸ hp
    · rw [hnone] at hp
      cases hp
  have hw : ∀ work, w'.work = some work → w.work = some work := by
    intro work hw
    rcases hwork with heq | hnone
    · exact heq ▸ hw
    · rw [hnone] at hw
      cases hw
  exact ⟨fun p h' => h.due p (hp p h'), fun p h' => h.retired p (hp p h'),
    fun p h' => h.found p (hp p h'),
    fun uid card sec found todo h' => h.reclaimed uid card sec found todo (hw _ h')⟩

theorem Spares.resolve (h : w.Spares pods) {card : String} {cards : List String}
    {files : Files} {instances : List MigInstance} {reply : Reply} :
    (w.resolve k c card cards files instances reply).Spares pods := by
  cases reply with
  | reserved i outcome => exact h.mono (.inl rfl) (.inl rfl)
  | failed err => exact h.mono (.inl rfl) (.inl rfl)
  | lost => exact h.mono (.inr rfl) (.inr rfl)

theorem Spares.takeBack (h : w.Spares pods) {r : CardResult}
    {results : List CardResult} {u : Undoing} : (w.takeBack k c r results u).Spares pods := by
  unfold World.takeBack
  cases r.outcome with
  | rebound => exact h.mono (.inl rfl) (.inl rfl)
  | bound => exact h.mono (.inl rfl) (.inl rfl)
  | created =>
    dsimp only
    split
    · exact h.mono (.inr rfl) (.inr rfl)
    · exact h.mono (.inl rfl) (.inl rfl)

theorem Spares.beginPass (h : w.Spares pods) (hread : corruptPaths w.files = [])
    (hnamed : ∀ e ∈ scanMarkers w.files, e.path.podUID = some e.marker.podUID)
    {livePodUIDs : List String} {claims : String → List MigPlacement}
    {instances : List (String × MigInstance)}
    (hlive : ∀ uid ∈ pods, 2 ≤ w.misses (.pod uid) → uid ∈ livePodUIDs) :
    (w.beginPass livePodUIDs claims instances).Spares pods := by
  unfold World.beginPass
  split
  · exact h
  · refine ⟨?_, ?_, ?_, h.reclaimed⟩
    · intro p hp uid huid
      obtain rfl := Option.some.inj hp
      refine Bool.eq_false_iff.mpr fun hdue => ?_
      obtain ⟨-, hdead, hmiss⟩ := (Snapshot.due_iff _).mp hdue
      simp only [Snapshot.live, contains_eq_mem, decide_eq_false_iff_not] at hdead
      exact hdead (hlive uid huid hmiss)
    · intro p hp path
      obtain rfl := Option.some.inj hp
      refine Bool.eq_false_iff.mpr fun hdue => ?_
      have htouched := ((Snapshot.due_iff _).mp hdue).1
      simp [Snapshot.touched, Snapshot.corrupt, hread] at htouched
    · intro p hp
      obtain rfl := Option.some.inj hp
      exact hnamed

theorem Spares.openMarked (h : w.Spares pods) (uid card : String) :
    (w.openMarked uid card).Spares pods := by
  unfold World.openMarked
  split
  next p hp hwork =>
    split
    next hdue =>
      split
      · exact h
      next s hs =>
        refine ⟨h.due, h.retired, h.found, fun uid' card' sec found todo hw => ?_⟩
        obtain ⟨rfl, -, -, -, rfl⟩ := by simpa using hw
        refine ⟨fun hpod => ?_, fun e he => ?_⟩
        · rw [h.due p hp uid hpod] at hdue
          cases hdue
        · obtain ⟨hmem, hpodUID⟩ := p.snapshot.mem_unclaimed (mem_of_mem_filter he)
          rw [h.found p hp e hmem, hpodUID]
    · exact h
  · exact h

theorem Spares.openOrphans (h : w.Spares pods) (card : String) : (w.openOrphans card).Spares pods := by
  unfold World.openOrphans
  split
  · split
    · exact ⟨h.due, h.retired, h.found, fun _ _ _ _ _ hw => by cases Option.some.inj hw⟩
    · exact h
  · exact h

theorem Spares.workOff (h : w.Spares pods) (t : Teardown) : (w.workOff t).Spares pods := by
  unfold World.workOff
  split
  next uid card sec found e todo hwork =>
    split
    · exact h.mono (.inr rfl) (.inr rfl)
    · refine ⟨h.due, h.retired, h.found, fun uid' card' sec' found' todo' hw => ?_⟩
      obtain ⟨rfl, -, -, -, rfl⟩ := by simpa using hw
      obtain ⟨hdead, htodo⟩ := h.reclaimed _ _ _ _ _ hwork
      exact ⟨hdead, fun e' he' => htodo e' (.tail _ he')⟩
  · exact ⟨h.due, h.retired, h.found, fun _ _ _ _ _ hw => by cases Option.some.inj hw⟩
  · exact h

/-- **Every careful event of an undisturbed node keeps the markers true.** -/
theorem Owns.step {uuidOf : String → MigPlacement → String} (h : w.Owns pods)
    (hread : corruptPaths w.files = []) (hg : w.Guarded) {e : Event} (hu : e.undisturbed uuidOf w = true)
    (hcare : e.Careful pods w) : (w.step uuidOf e).Owns pods := by
  obtain ⟨hafter, hu⟩ := Bool.and_eq_true_iff.mp hu
  rw [List.isEmpty_iff] at hafter
  cases e with
  | call podUID container profile cards =>
    refine ⟨h.owned.calls_mono fun c hc _ hstatus r hr => ?_, h.spares.mono (.inl rfl) (.inl rfl)⟩
    rcases mem_append.mp hc with hc | hc
    · exact ⟨c, hc, rfl, rfl, hstatus, hr⟩
    · rw [mem_singleton.mp hc] at hr
      cases hr
  | reserve k geometry a =>
    refine ⟨?_, ?_⟩
    · have hrule : corruptPaths (w.reserve uuidOf k geometry a).files = [] →
          Owned pods (w.reserve uuidOf k geometry a).files (w.reserve uuidOf k geometry a).live
            (w.reserve uuidOf k geometry a).calls := by
        refine reserve_rule (P := fun w' => corruptPaths w'.files = [] →
          Owned pods w'.files w'.live w'.calls) (fun _ => h.owned) ?_
        intro c card cards files instances reply hc hrunning hcards _ hres hr
        have hnext : w.nextCard k = some card := by simp [nextCard, hc, hcards]
        have ha : a.Sound pods w.live c.podUID card := by
          refine ⟨fun giID ciID hcreate i hi => ?_, fun hpod err hwrite => hcare c hc hpod err hwrite⟩
          have hfresh := all_eq_true.mp hu (card, i) hi
          simp only [hnext, hcreate, Except.toOption, bne_self_eq_false, Bool.false_or,
            Option.map_some, bne_iff_ne, ne_eq, Option.some.injEq] at hfresh
          exact fun hgi => hfresh hgi.symm
        exact owned_resolve h.owned hc ha hrunning hres hr
      exact hrule hafter
    · exact reserve_rule (P := fun w' => w'.Spares pods) h.spares fun _ _ _ _ _ _ _ _ _ _ _ =>
        h.spares.resolve
  | answer k =>
    simp only [World.step, World.answer]
    split
    · exact h
    next c hc =>
      split
      next hrunning _ =>
        refine ⟨h.owned.set hc rfl rfl fun _ => ⟨by rw [hrunning]; decide, fun _ hr => hr⟩,
          h.spares.mono (.inl rfl) (.inl rfl)⟩
      · exact h
  | fail k =>
    simp only [World.step, World.fail]
    split
    · exact h
    next c hc =>
      split
      · exact ⟨h.owned.set hc rfl rfl fun hne => absurd rfl hne, h.spares.mono (.inl rfl) (.inl rfl)⟩
      · exact h
  | undo k u =>
    refine undo_rule (P := fun w' => w'.Owns pods) h fun c r results hc hrolling hresults _ => ?_
    obtain ⟨hother, hown⟩ := hcare c hc hrolling r (by rw [hresults]; rfl)
    exact ⟨owned_takeBack h.owned hc hrolling hother hown, h.spares.takeBack⟩
  | crash => exact ⟨h.owned.filter, h.spares.mono (.inr rfl) (.inr rfl)⟩
  | beginPass livePodUIDs claims instances =>
    refine ⟨?_, h.spares.beginPass hread h.owned.named hcare⟩
    simp only [World.step, World.beginPass]
    split <;> exact h.owned
  | openMarked uid card =>
    refine ⟨?_, h.spares.openMarked uid card⟩
    simp only [World.step, World.openMarked]
    split
    · split
      · split <;> exact h.owned
      · exact h.owned
    · exact h.owned
  | openOrphans card =>
    refine ⟨?_, h.spares.openOrphans card⟩
    simp only [World.step, World.openOrphans]
    split
    · split <;> exact h.owned
    · exact h.owned
  | workOff t => exact ⟨owned_workOff hg h t, h.spares.workOff t⟩
  | close => exact ⟨h.owned, h.spares.mono (.inl rfl) (.inr rfl)⟩
  | retire path =>
    simp only [World.step, World.retire]
    split
    next p hp =>
      split
      next hdue =>
        rw [h.spares.retired p hp path] at hdue
        cases hdue
      · exact h
    · exact h
  | endPass done => exact ⟨h.owned, h.spares.mono (.inr rfl) (.inr rfl)⟩
  | spoil path => cases hu
  | stray path => cases hu
  | outside live => cases hu

end World

theorem Reach.readable {uuidOf : String → MigPlacement → String} {allowed : World → Event → Prop}
    (hallowed : ∀ w e, allowed w e → e.undisturbed uuidOf w = true) {w : World}
    (hw : Reach uuidOf allowed w) : corruptPaths w.files = [] := by
  cases hw with
  | start => rfl
  | step _ he => exact isEmpty_iff.mp (Bool.and_eq_true_iff.mp (hallowed _ _ he)).1

theorem Reach.owns {uuidOf : String → MigPlacement → String} {pods : Set String} {w : World}
    (hw : Reach uuidOf (fun w e => e.undisturbed uuidOf w = true ∧ e.Careful pods w) w) : w.Owns pods := by
  induction hw with
  | start =>
    refine ⟨?_, ?_⟩ <;> constructor <;> simp [World.start, scanMarkers, Records.scan]
  | step hw he ih => exact ih.step (hw.readable fun _ _ h => h.1) hw.guarded he.1 he.2

/-- The calls that answered a container, as the partitions they named. -/
def World.Granted (w : World) (podUID container card : String) (i : MigInstance) : Prop :=
  ∃ c ∈ w.calls, c.status = .answered ∧ c.podUID = podUID ∧ c.container = container ∧
    ∃ r ∈ c.results, r.card = card ∧ r.inst = i

/-- **Two containers of Pods that live are never granted the same partition**, in every world that a
careful run of an undisturbed node reaches. -/
theorem grants_apart (uuidOf : String → MigPlacement → String) (pods : Set String) {w : World}
    (hw : Reach uuidOf (fun w e => e.undisturbed uuidOf w = true ∧ e.Careful pods w) w)
    {podUID container podUID' container' card : String} {i i' : MigInstance}
    (hpod : podUID ∈ pods) (hpod' : podUID' ∈ pods)
    (hne : (podUID, container) ≠ (podUID', container')) (hg : w.Granted podUID container card i)
    (hg' : w.Granted podUID' container' card i') : i.giID ≠ i'.giID := by
  obtain ⟨c, hc, hanswered, rfl, rfl, r, hr, rfl, rfl⟩ := hg
  obtain ⟨c', hc', hanswered', rfl, rfl, r', hr', hcard, rfl⟩ := hg'
  intro hgi
  have h := hw.owns.owned
  obtain ⟨e, he, hpath, hpodUID, hcarde, hgie⟩ :=
    h.held c hc hpod (by rw [hanswered]; decide) r hr
  obtain ⟨e', he', hpath', hpodUID', hcarde', hgie'⟩ :=
    h.held c' hc' hpod' (by rw [hanswered']; decide) r' hr'
  have hsame := h.single e he e' he' (hpodUID ▸ hpod) (hpodUID' ▸ hpod')
    (hcarde.trans (hcard ▸ hcarde'.symm)) (hgie.trans (hgi.trans hgie'.symm))
  obtain ⟨hu, hcont, -⟩ := markerPath_injective (hpath.symm.trans (hsame.trans hpath'))
  exact hne (by rw [hu, hcont])

/-- Two containers are granted a partition each, and these are two. -/
theorem grants_apart_granting :
    let w := granting.foldl (World.step nameOf) .start
    let i : MigInstance := ⟨1, 0, 1, ⟨0, 1⟩, "MIG-0"⟩
    let i' : MigInstance := ⟨2, 0, 1, ⟨1, 1⟩, "MIG-1"⟩
    w.Granted "pod-a" "main" "gpu-0" i ∧ w.Granted "pod-b" "main" "gpu-0" i' ∧ i.giID ≠ i'.giID := by
  intro w i i'
  have hw : Reach nameOf
      (fun w e => e.undisturbed nameOf w = true ∧ e.Careful {"pod-a", "pod-b"} w) w := by
    refine Reach.replay .start ⟨⟨by decide +kernel, trivial⟩, ⟨by decide +kernel, ?_⟩,
      ⟨by decide +kernel, trivial⟩, ⟨by decide +kernel, trivial⟩, ⟨by decide +kernel, ?_⟩,
      ⟨by decide +kernel, trivial⟩, trivial⟩
    · intro _ _ _ _ hwrite
      cases hwrite
    · intro _ _ _ _ hwrite
      cases hwrite
  have hg : w.Granted "pod-a" "main" "gpu-0" i :=
    ⟨⟨"pod-a", "main", "1g.10gb", [], [⟨"gpu-0", i, .created⟩], .answered⟩,
      by decide +kernel, rfl, rfl, rfl, _, mem_singleton_self _, rfl, rfl⟩
  have hg' : w.Granted "pod-b" "main" "gpu-0" i' :=
    ⟨⟨"pod-b", "main", "1g.10gb", [], [⟨"gpu-0", i', .created⟩], .answered⟩,
      by decide +kernel, rfl, rfl, rfl, _, mem_singleton_self _, rfl, rfl⟩
  exact ⟨hg, hg', grants_apart nameOf {"pod-a", "pod-b"} hw (by simp) (by simp) (by decide) hg hg'⟩

/-! ### A process that stops in the middle of a rollback -/

/-- A container's call creates a partition and fails, and the process stops between the instance's
destruction and the marker's removal; another container creates a partition in the same place, and
the first one's retry finds its marker. -/
def halfUndone : List Event :=
  [.call "pod-a" "main" "1g.10gb" ["gpu-0"], .reserve 0 (1, 1) (creating 1), .fail 0,
    .undo 0 ⟨true, true, false⟩,
    .call "pod-b" "main" "1g.10gb" ["gpu-0"], .reserve 0 (1, 1) (creating 1), .answer 0,
    .call "pod-a" "main" "1g.10gb" ["gpu-0"], .reserve 1 (1, 1) (creating 2), .answer 1]

/-- Both containers are answered with the one instance that is live. -/
theorem partition_granted_twice :
    let w := halfUndone.foldl (World.step nameOf) .start
    let i : MigInstance := ⟨1, 0, 1, ⟨0, 1⟩, "MIG-0"⟩
    Reach nameOf (fun w e => e.undisturbed nameOf w = true) w ∧ ("gpu-0", i) ∈ w.live ∧
      w.Granted "pod-a" "main" "gpu-0" i ∧ w.Granted "pod-b" "main" "gpu-0" i := by
  refine ⟨?_, by decide +kernel, ?_, ?_⟩
  · exact Reach.replay .start ⟨by decide +kernel, by decide +kernel, by decide +kernel,
      by decide +kernel, by decide +kernel, by decide +kernel, by decide +kernel, by decide +kernel,
      by decide +kernel, by decide +kernel, trivial⟩
  · exact ⟨⟨"pod-a", "main", "1g.10gb", [], [⟨"gpu-0", ⟨1, 0, 1, ⟨0, 1⟩, "MIG-0"⟩, .rebound⟩],
      .answered⟩, by decide +kernel, rfl, rfl, rfl, _, mem_singleton_self _, rfl, rfl⟩
  · exact ⟨⟨"pod-b", "main", "1g.10gb", [], [⟨"gpu-0", ⟨1, 0, 1, ⟨0, 1⟩, "MIG-0"⟩, .created⟩],
      .answered⟩, by decide +kernel, rfl, rfl, rfl, _, mem_singleton_self _, rfl, rfl⟩

end GpuStack.Nvidia
