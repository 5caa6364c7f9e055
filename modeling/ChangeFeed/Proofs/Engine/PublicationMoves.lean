import ChangeFeed.Proofs.Engine.WatcherMoves

/-!
# What happens to the work on a change

* `dueAt?` are the messages that the work on a change sets out to put, and `acceptedAt?` is a
  message of it that the sink accepts with an event.
* `Publication.Move` lists what an event can do to the work on a change, with both as indices.
* `stepPublication?_spec`: nothing else happens, and beside it only the claims and the clock of the
  watcher move.
-/

namespace ChangeFeed.Engine

namespace World

/-! ## Messages -/

/-- The messages that the work on a change is to put, once it can tell. -/
def due? (w : World) (now i : Nat) : Option (List Message) := do
  let p ← w.publications[i]?
  let x ← w.watchers[p.watcher]?
  match p.phase with
  | .begun =>
    if x.role.publishesStubs then some [⟨some p.change.id, p.change.stub.payload⟩] else none
  | .lookingUp due (.ok record) =>
    if now < due then none else (messages x p.change.id record).1.toOption.map Prod.fst
  | _ => none

/-- The message of the work on a change that the sink accepts at a time, if it can. -/
def accepted? (w : World) (now i : Nat) : Option Message := do
  let p ← w.publications[i]?
  let x ← w.watchers[p.watcher]?
  match p.phase with
  | .putting current (m :: _) _ =>
    match ← w.stepPut? now x.outlet m current with
    | (.inr (.ok ()), _) => some m
    | _ => none
  | _ => none

/-- The messages that the work on a change sets out to put with an event. -/
def dueAt? (w : World) (j : Nat) : Event → Option (List Message)
  | .step now (.publication i) => if i = j then w.due? now j else none
  | _ => none

/-- The message of the work on a change that the sink accepts with an event. -/
def acceptedAt? (w : World) (j : Nat) : Event → Option Message
  | .step now (.publication i) => if i = j then w.accepted? now j else none
  | _ => none

end World

/-! ## Moves -/

/-- Whether the work on a change has not come to its messages. -/
def Publication.Phase.isEarly : Publication.Phase → Bool
  | .begun | .lookingUp _ _ => true
  | _ => false

def Publication.hasFailed (p : Publication) : Bool :=
  match p.phase with
  | .ended (.error _) => true
  | _ => false

/-- What an event does to the work on a change. The indices are the messages that it sets out to put
and the message that the sink accepts. -/
inductive Publication.Move (p : Publication) :
    Option (List Message) → Option Message → Publication → Prop where
  | rests : Move p none none p
  | asks (due : Nat) (answer : Except Error Json) (h : p.phase.isEarly = true) :
      Move p none none { p with phase := .lookingUp due answer }
  | setsOut (ms : List Message) (newest : Option Int) (h : p.phase.isEarly = true) :
      Move p (some ms) none { p with phase := .putting none ms newest }
  | waits (current : Option Put) (put : Put) (m : Message) (rest : List Message)
      (newest : Option Int) (h : p.phase = .putting current (m :: rest) newest) :
      Move p none none { p with phase := .putting (some put) (m :: rest) newest }
  | accepted (current : Option Put) (m : Message) (rest : List Message) (newest : Option Int)
      (h : p.phase = .putting current (m :: rest) newest) :
      Move p none (some m) { p with phase := .putting none rest newest }
  | fails (error : Error) (h : World.Publication.isEnded p = false) :
      Move p none none { p with phase := .ended (.error error) }
  | ends (current : Option Put) (newest : Option Int) (h : p.phase = .putting current [] newest) :
      Move p none none { p with phase := .ended (.ok ()) }

/-- Whom the work is for and what it is about do not change. -/
theorem Publication.Move.owner {p p' : Publication} {due : Option (List Message)}
    {accepted : Option Message} (h : Publication.Move p due accepted p') :
    p'.watcher = p.watcher ∧ p'.change = p.change := by
  cases h <;> exact ⟨rfl, rfl⟩

theorem Publication.Move.eq_of_isEnded {p p' : Publication} {due : Option (List Message)}
    {accepted : Option Message} (h : Publication.Move p due accepted p')
    (he : World.Publication.isEnded p = true) : p' = p := by
  cases hph : p.phase with
  | ended result => cases h <;> simp_all [Publication.Phase.isEarly]
  | begun => simp [World.Publication.isEnded, hph] at he
  | lookingUp due answer => simp [World.Publication.isEnded, hph] at he
  | putting current left newest => simp [World.Publication.isEnded, hph] at he

namespace World

variable {w w' : World}

structure PublicationStep (w : World) (now i : Nat) (p p' : Publication) (x : Watcher)
    (w' : World) : Prop where
  running : Publication.isEnded p = false
  publications : w'.publications = w.publications.setIfInBounds i p'
  move : Publication.Move p (w.due? now i) (w.accepted? now i) p'
  watchers : ∃ claims clock,
    w'.watchers = (w.setWatcher p.watcher { x with claims, clock }).watchers
  rule : w'.rule = w.rule
  /-- A failure is counted. -/
  metrics : w'.metrics = if Publication.hasFailed p' then w.metrics.add .fetchErrors x.role.name 1
    else w.metrics

theorem PublicationStep.not_hasFailed {now i : Nat} {p p' : Publication} {x : Watcher}
    (h : PublicationStep w now i p p' x w') : Publication.hasFailed p = false := by
  have hrunning := h.running
  cases hph : p.phase with
  | ended result => simp [Publication.isEnded, hph] at hrunning
  | _ => simp [Publication.hasFailed, hph]

theorem setWatcher_self {i : Nat} {x : Watcher} (h : w.watchers[i]? = some x) :
    w.setWatcher i x = w := by
  simp only [setWatcher, setIfInBounds_same h]

theorem due?_eq (now : Nat) {i : Nat} {p : Publication} {x : Watcher}
    (hp : w.publications[i]? = some p) (hx : w.watchers[p.watcher]? = some x) :
    w.due? now i = match p.phase with
      | .begun =>
        if x.role.publishesStubs then some [⟨some p.change.id, p.change.stub.payload⟩] else none
      | .lookingUp due (.ok record) =>
        if now < due then none else (messages x p.change.id record).1.toOption.map Prod.fst
      | _ => none := by
  simp only [due?, hp, hx, Option.bind_eq_bind, Option.bind_some]

theorem accepted?_eq (now : Nat) {i : Nat} {p : Publication} {x : Watcher}
    (hp : w.publications[i]? = some p) (hx : w.watchers[p.watcher]? = some x) :
    w.accepted? now i = match p.phase with
      | .putting current (m :: _) _ => (w.stepPut? now x.outlet m current).bind fun
        | (.inr (.ok ()), _) => some m
        | _ => none
      | _ => none := by
  simp only [accepted?, hp, hx, Option.bind_eq_bind, Option.bind_some]

/-- The messages of a record leave everything of the watcher but its claims. -/
theorem messages_snd (x : Watcher) (id : String) (record : Json) :
    ∃ claims, (messages x id record).2 = { x with claims } := by
  unfold messages
  split
  · exact ⟨_, rfl⟩
  · exact ⟨x.claims, rfl⟩

theorem stepPublication?_spec {now i : Nat} (h : w.stepPublication? now i = some w') :
    ∃ p p' x, w.publications[i]? = some p ∧ w.watchers[p.watcher]? = some x ∧
      PublicationStep w now i p p' x w' := by
  simp only [stepPublication?, Option.bind_eq_bind, Option.bind_eq_some_iff] at h
  obtain ⟨p, hp, x, hx, h⟩ := h
  have hd := due?_eq now hp hx
  have ha := accepted?_eq now hp hx
  have same : ∃ claims clock, w.watchers =
      (w.setWatcher p.watcher { x with claims, clock }).watchers :=
    ⟨x.claims, x.clock, by rw [setWatcher_self hx]⟩
  have running : Publication.isEnded p = false := by
    cases hph : p.phase with
    | ended result => simp [hph] at h
    | _ => simp [Publication.isEnded, hph]
  refine ⟨p, ?_⟩
  cases hph : p.phase with
  | begun =>
    simp only [hph] at h hd ha
    split at h
    · rename_i hs
      cases h
      refine ⟨_, x, hp, hx, running, rfl, ?_, same, rfl, rfl⟩
      rw [hd, ha, if_pos hs]
      exact .setsOut _ _ (by rw [hph]; rfl)
    · rename_i hs
      cases h
      refine ⟨_, x, hp, hx, running, rfl, ?_, same, rfl, rfl⟩
      rw [hd, ha, if_neg hs]
      exact .asks _ _ (by rw [hph]; rfl)
  | lookingUp due answer =>
    simp only [hph] at h hd ha
    split at h
    · cases h
    · rename_i hn
      cases answer with
      | error e =>
        cases h
        refine ⟨_, x, hp, hx, running, rfl, ?_, same, rfl, rfl⟩
        rw [hd, ha]
        exact .fails e running
      | ok record =>
        simp only [if_neg hn] at h hd
        obtain ⟨claims, hc⟩ := messages_snd x p.change.id record
        rcases hm : messages x p.change.id record with ⟨e | ⟨ms, newest⟩, x'⟩
        · simp only [hm] at h hd hc
          subst hc
          cases h
          refine ⟨_, x, hp, hx, running, rfl, ?_, ⟨claims, x.clock, rfl⟩, rfl, rfl⟩
          rw [hd, ha]
          exact .fails e running
        · simp only [hm] at h hd hc
          subst hc
          cases h
          refine ⟨_, x, hp, hx, running, rfl, ?_, ⟨claims, x.clock, rfl⟩, rfl, rfl⟩
          rw [hd, ha]
          exact .setsOut ms newest (by rw [hph]; rfl)
  | putting current left newest =>
    simp only [hph] at h hd ha
    cases left with
    | nil =>
      cases h
      refine ⟨_, x, hp, hx, running, rfl, ?_, ⟨x.claims, _, rfl⟩, rfl, rfl⟩
      rw [hd, ha]
      exact .ends current newest hph
    | cons m rest =>
      simp only [Option.bind_eq_some_iff] at h
      obtain ⟨⟨next, w₁⟩, hput, h⟩ := h
      simp only [hput, Option.bind_some] at ha
      obtain ⟨outlets, log, rfl⟩ := stepPut?_eq hput
      rcases next with put | e | ⟨⟩
      · cases h
        refine ⟨_, x, hp, hx, running, rfl, ?_, same, rfl, rfl⟩
        rw [hd, ha]
        exact .waits current put m rest newest hph
      · cases h
        refine ⟨_, x, hp, hx, running, rfl, ?_, same, rfl, rfl⟩
        rw [hd, ha]
        exact .fails e running
      · cases h
        refine ⟨_, x, hp, hx, running, rfl, ?_, same, rfl, rfl⟩
        rw [hd, ha]
        exact .accepted current m rest newest hph
  | ended result => simp [hph] at h

end World

end ChangeFeed.Engine
