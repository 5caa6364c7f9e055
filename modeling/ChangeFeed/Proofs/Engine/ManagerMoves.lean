import ChangeFeed.Proofs.Checkpoint.Codec
import ChangeFeed.Proofs.Engine.Leases
import ChangeFeed.Proofs.Engine.WatcherMoves

/-!
# What a step of a manager does

* `Manager.Move` lists the steps of a manager, each with what it leaves of the locks, the store and
  the watchers. Only `saves` writes a watermark, and only `restores` and `completes` read the
  checkpoints; a watcher is started by `leads` alone.
* `Beside` is what a step leaves as it is besides: all work on changes, most metrics, and all that only
  the begin of a term reaches.
* `stepManager?_spec`: every step of a manager is one of these, and changes no other manager.
-/

namespace ChangeFeed.Engine

/-! ## Phases -/

namespace Manager.Phase

/-- The lease that a manager holds, as far as it knows. -/
def held? : Manager.Phase → Option Held
  | .restoring held _ _ | .backingOff held _ _ | .starting held _ _ | .releasing held _ => some held
  | .leading term | .saving term _ _ | .savingTime term _ | .stopping term _ _ => some term.held
  | _ => none

/-- The term that a manager is in, while it has a watcher. -/
def term? : Manager.Phase → Option Term
  | .leading term | .saving term _ _ | .savingTime term _ | .stopping term _ _ => some term
  | _ => none

/-- Whether a manager is about to write a watermark. -/
def isSaving : Manager.Phase → Bool
  | .saving _ _ _ => true
  | _ => false

/-- The metrics that the step of a manager may count or set. -/
def metrics : Manager.Phase → List Metric
  | .restoring _ _ _ => [.leader, .readFailures]
  | .starting _ _ _ => [.watermark]
  | .saving _ _ _ | .savingTime _ _ => [.writeFailures]
  | .releasing _ _ => [.leader]
  | _ => []

/-- No step of a manager counts a failure of the work on a change. -/
theorem fetchErrors_notMem_metrics (phase : Manager.Phase) : .fetchErrors ∉ phase.metrics := by
  cases phase <;> simp [metrics]

end Manager.Phase

/-- The event time that the store has for a manager. -/
def World.readTime (w : World) (m : Manager) : Int :=
  (m.eventTimeKey?.map fun key => World.timeOf (w.store.store.restore key)).getD 0

/-- A watcher that has just been started. -/
structure Watcher.IsNew (x : Watcher) (role : Role) (watermark : Nat) : Prop where
  role : x.role = role
  progress : x.progress = .startingAt watermark
  loop : x.loop = .ready
  reporter : ∃ next, x.reporter = .waiting next
  queued : x.channel.queued = []
  halt : x.halt = none

/-- A step of a manager: its next phase, and the locks, the store and the watchers after it. -/
inductive Manager.Move (w : World) (i : Nat) (m : Manager) :
    Manager.Phase → Locks → Checkpoint.Flaky → Array Watcher → Prop where
  /-- Nothing is held, neither before nor after. -/
  | idles (phase : Manager.Phase) (locks : Locks) (h : m.phase.held? = none)
      (h' : phase.held? = none) (hl : locks.leases = w.locks.leases) :
      Move w i m phase locks w.store w.watchers
  | obtains (held : Held) (locks : Locks) (h : m.phase.held? = none) (hs : m.isShutdown = false)
      (hk : held.lease.key = m.lockKey ∨ (i, held.lease.key) ∈ w.locks.waits)
      (hg : Leases.Grants w.locks.leases held locks.leases) :
      Move w i m (.restoring held m.settings.coordination.restoreRetry.millis none) locks w.store
        w.watchers
  /-- The watermark is read before the event time. -/
  | restores (held : Held) (delay watermark : Nat) (h : m.phase = .restoring held delay none)
      (hr : w.store.restore m.checkpointKey = .ok watermark) :
      Move w i m (.restoring held delay (some watermark)) w.locks w.store w.watchers
  /-- The last checkpoint is read. -/
  | completes (held : Held) (delay watermark : Nat) (watermark? : Option Nat)
      (h : m.phase = .restoring held delay watermark?)
      (hr : watermark? = some watermark ∨
        watermark? = none ∧ w.store.restore m.checkpointKey = .ok watermark) :
      Move w i m (.starting held watermark (w.readTime m)) w.locks w.store w.watchers
  | backsOff (held : Held) (delay due : Nat) (watermark? : Option Nat)
      (h : m.phase = .restoring held delay watermark?) :
      Move w i m (.backingOff held delay due) w.locks w.store w.watchers
  | triesAgain (held : Held) (delay due next : Nat) (h : m.phase = .backingOff held delay due) :
      Move w i m (.restoring held next none) w.locks w.store w.watchers
  /-- A term ends before it has a watcher. -/
  | gives (held : Held) (outcome : Outcome) (h : m.phase.held? = some held)
      (ht : m.phase.term? = none) :
      Move w i m (.releasing held outcome) w.locks w.store w.watchers
  | leads (held : Held) (watermark : Nat) (time : Int) (x : Watcher)
      (h : m.phase = .starting held watermark time) (hx : x.IsNew m.role watermark) :
      Move w i m (.leading ⟨held, w.watchers.size, watermark, time⟩) w.locks w.store
        (w.watchers.push x)
  /-- A notice is read, which says nothing. -/
  | reads (locks : Locks) (hs : m.phase.isSaving = false)
      (hl : Leases.Wanes w.locks.leases locks.leases)
      (ht : ∀ service, w.locks ≠ .table service)
      (hn : (∃ term, m.phase = .leading term) ∨
        ∃ held delay due, m.phase = .backingOff held delay due) :
      Move w i m m.phase locks w.store w.watchers
  | hears (term : Term) (x : Watcher) (watermark : Nat) (rest : List Nat) (phase : Manager.Phase)
      (h : m.phase = .leading term) (hx : w.watchers[term.watcher]? = some x)
      (hq : x.channel.queued = watermark :: rest)
      (hp : phase = .saving term watermark false ∧ term.persisted < watermark ∨
        phase = .savingTime term false) :
      Move w i m phase w.locks w.store
        (w.setWatcher term.watcher { x with channel := x.channel.take.2 }).watchers
  | halts (term : Term) (outcome : Outcome) (x : Watcher) (h : m.phase = .leading term)
      (hx : w.watchers[term.watcher]? = some x) :
      Move w i m (.stopping term outcome x.progress.watermark) w.locks w.store
        (w.haltWatcher term.watcher).watchers
  | saves (term : Term) (watermark : Nat) (last : Bool) (h : m.phase = .saving term watermark last)
      (hs : w.store.writesFail = false) :
      Move w i m (.savingTime { term with persisted := watermark } last) w.locks
        (w.store.persist m.checkpointKey watermark).2 w.watchers
  | savesNot (term : Term) (watermark : Nat) (last : Bool)
      (h : m.phase = .saving term watermark last) (hs : w.store.writesFail = true) :
      Move w i m (.savingTime term last) w.locks w.store w.watchers
  | savesTime (term : Term) (last : Bool) (time : Int) (store : Checkpoint.Flaky)
      (h : m.phase = .savingTime term last)
      (hs : store = w.store ∨ ∃ key value, m.eventTimeKey? = some key ∧
        store = (w.store.persist key value).2) :
      Move w i m
        (if last then .releasing term.held .shutdown else .leading { term with persistedTime := time })
        w.locks store w.watchers
  | finishes (term : Term) (outcome : Outcome) (seen : Nat) (x : Watcher)
      (result : Except Error Nat) (h : m.phase = .stopping term outcome seen)
      (hx : w.watchers[term.watcher]? = some x) (hh : x.halt = some (.ended result)) :
      Move w i m (World.afterHalt term outcome seen result) w.locks w.store w.watchers
  | releases (held : Held) (outcome : Outcome) (locks : Locks)
      (h : m.phase = .releasing held outcome)
      (hl : Leases.Wanes w.locks.leases locks.leases) :
      Move w i m (World.afterRelease outcome) locks w.store w.watchers

namespace World

variable {w w' : World}

/-- What a step of a manager leaves as it is, by the phase in which the manager is before it. -/
structure Beside (w : World) (phase : Manager.Phase) (w' : World) : Prop where
  publications : w'.publications = w.publications
  counts : CountsOnly phase.metrics w w'
  /-- Only the begin of a term asks for a sink or for answers. -/
  frame : (∀ held watermark time, phase ≠ .starting held watermark time) →
    ∃ managers locks store watchers metrics log,
      w' = { w with managers, locks, store, watchers, metrics, log }

/-- What a manager does with a step, from the given phase to the next one. -/
structure ManagerStep (w : World) (i : Nat) (m : Manager) (phase : Manager.Phase) (w' : World) :
    Prop where
  managers : ∃ nextTick, w'.managers = w.managers.setIfInBounds i { m with nextTick, phase }
  move : Manager.Move w i m phase w'.locks w'.store w'.watchers
  waits : ∀ q ∈ w'.locks.waits, q ∈ w.locks.waits ∨ q = (i, m.lockKey)
  beside : Beside w m.phase w'

/-! ## Parts of a step -/

theorem Beside.same {phase : Manager.Phase} (managers : Array Manager) (locks : Locks)
    (store : Checkpoint.Flaky) (watchers : Array Watcher) (log : List Logged) :
    Beside w phase { w with managers, locks, store, watchers, log } :=
  ⟨rfl, .of_metrics rfl, fun _ => ⟨_, _, _, _, w.metrics, _, rfl⟩⟩

theorem Beside.add {phase : Manager.Phase} (h : Beside w phase w') {metric : Metric}
    (hmem : metric ∈ phase.metrics) (label : String) (n : Nat) :
    Beside w phase { w' with metrics := w'.metrics.add metric label n } where
  publications := h.publications
  counts := h.counts.add hmem label n
  frame := fun hno => by
    obtain ⟨managers, locks, store, watchers, metrics, log, rfl⟩ := h.frame hno
    exact ⟨managers, locks, store, watchers, _, log, rfl⟩

theorem Beside.markLeader {phase : Manager.Phase} (hmem : .leader ∈ phase.metrics) (m : Manager)
    (leads : Bool) : Beside w phase (w.markLeader m leads) :=
  ⟨rfl, .set (.of_metrics rfl) hmem _ _, fun _ => ⟨_, _, _, _, _, w.log, rfl⟩⟩

/-- A part of a step goes on with the locks and the log. -/
theorem Beside.goOn {phase : Manager.Phase} (h : Beside w phase w') (locks : Locks)
    (log : List Logged) : Beside w phase { w' with locks, log } where
  publications := h.publications
  counts := h.counts
  frame := fun hno => by
    obtain ⟨managers, locks', store, watchers, metrics, log', rfl⟩ := h.frame hno
    exact ⟨managers, locks, store, watchers, metrics, log, rfl⟩

theorem Beside.enter {phase : Manager.Phase} (h : Beside w phase w') (now i : Nat) (m : Manager)
    (phase' : Manager.Phase) : Beside w phase (w'.enter now i m phase') where
  publications := by
    rw [← h.publications]
    unfold World.enter
    split <;> rfl
  counts := by
    intro metric hno label
    rw [← h.counts metric hno label]
    unfold World.enter
    split <;> rfl
  frame := fun hno => by
    obtain ⟨managers, locks, store, watchers, metrics, log, rfl⟩ := h.frame hno
    unfold World.enter
    split <;> exact ⟨_, _, _, _, _, _, rfl⟩

/-- A manager that enters a phase after a part of its step. -/
theorem ManagerStep.enter {w₁ : World} {now i : Nat} {m : Manager} {phase : Manager.Phase}
    (hm : w₁.managers = w.managers)
    (hv : Manager.Move w i m phase w₁.locks w₁.store w₁.watchers)
    (hw : ∀ q ∈ w₁.locks.waits, q ∈ w.locks.waits ∨ q = (i, m.lockKey))
    (hb : Beside w m.phase w₁) : ManagerStep w i m phase (w₁.enter now i m phase) := by
  have h (w₂ : World) (hb : Beside w m.phase w₂)
      (h₂ : ∃ log, w₂ = { w₁.setManager i { m with phase } with log }) :
      ManagerStep w i m phase w₂ := by
    obtain ⟨log, rfl⟩ := h₂
    exact ⟨⟨m.nextTick, by rw [← hm]; rfl⟩, hv, hw, hb⟩
  refine h _ (hb.enter now i m phase) ?_
  unfold World.enter
  split
  · exact ⟨_, rfl⟩
  · exact ⟨_, rfl⟩

theorem ManagerStep.enter_of_locks {w₁ : World} {now i : Nat} {m : Manager}
    {phase : Manager.Phase} (hm : w₁.managers = w.managers) (hl : w₁.locks = w.locks)
    (hv : Manager.Move w i m phase w.locks w₁.store w₁.watchers) (hb : Beside w m.phase w₁) :
    ManagerStep w i m phase (w₁.enter now i m phase) := by
  refine ManagerStep.enter hm (hl ▸ hv) ?_ hb
  rw [hl]
  exact fun q hq => Or.inl hq

theorem ManagerStep.enter_only {now i : Nat} {m : Manager} {phase : Manager.Phase}
    (hv : Manager.Move w i m phase w.locks w.store w.watchers) :
    ManagerStep w i m phase (w.enter now i m phase) :=
  .enter_of_locks rfl rfl hv (.same ..)

theorem ManagerStep.publications {i : Nat} {m : Manager} {phase : Manager.Phase}
    (h : ManagerStep w i m phase w') : w'.publications = w.publications :=
  h.beside.publications

theorem ManagerStep.failures {i : Nat} {m : Manager} {phase : Manager.Phase}
    (h : ManagerStep w i m phase w') : w'.failures = w.failures :=
  h.beside.counts.failures m.phase.fetchErrors_notMem_metrics

/-- Reading a checkpoint only logs. -/
theorem load_spec (w : World) (now : Nat) (key : String) :
    ∃ log, w.load now key = (w.store.restore key, { w with log }) :=
  ⟨_, rfl⟩

/-- Reading the event time only logs; what is read is the one in the store. -/
theorem loadTime_spec {now : Nat} {m : Manager} {r : Except Error Int}
    (h : w.loadTime now m = (r, w')) :
    (∃ log, w' = { w with log }) ∧
      r.isOk = (m.eventTimeKey?.all fun key => (w.store.restore key).isOk) ∧
      ∀ time, r = .ok time → time = w.readTime m := by
  unfold loadTime at h
  cases hk : m.eventTimeKey? with
  | none =>
    simp only [hk] at h
    cases h
    refine ⟨⟨w.log, rfl⟩, rfl, fun time ht => ?_⟩
    cases ht
    simp [readTime, hk]
  | some key =>
    simp only [hk, load] at h
    cases h
    refine ⟨⟨_, rfl⟩, ?_, fun time ht => ?_⟩
    · rw [Option.all_some]
      cases w.store.restore key <;> rfl
    · cases hr : w.store.restore key with
      | error e =>
        rw [hr] at ht
        cases ht
      | ok restored =>
        rw [hr] at ht
        cases ht
        simp only [readTime, hk, Option.map_some, Option.getD_some,
          Checkpoint.Flaky.restore_eq_ok hr]

theorem save_spec {now : Nat} {key : String} {value : Nat} {ok : Bool}
    (h : w.save now key value = (ok, w')) :
    (∃ log, w' = { w with store := (w.store.persist key value).2, log }) ∧
      ok = !w.store.writesFail := by
  simp only [save, Prod.mk.injEq] at h
  obtain ⟨rfl, rfl⟩ := h
  refine ⟨⟨_, rfl⟩, ?_⟩
  cases hf : w.store.writesFail <;>
    simp [Checkpoint.Flaky.persist, Checkpoint.Flaky.put, hf, Outlet.succeeded]

theorem startWatcher_spec {now outlet watermark capacity : Nat} {role : Role} {clock : Int}
    {settings : Settings.Watching} {result : Except Error Unit}
    (h : w.startWatcher now role settings outlet watermark clock capacity = (result, w')) :
    w'.rule = w.rule ∧ w'.publications = w.publications ∧ w'.orchestrator = w.orchestrator ∧
      CountsOnly [.watermark] w w' ∧
      match result with
      | .ok () => ∃ x, w'.watchers = w.watchers.push x ∧ x.IsNew role watermark ∧
          x.cancelled = false
      | .error _ => w'.watchers = w.watchers := by
  unfold startWatcher at h
  cases ho : w.outlets[outlet]? with
  | none =>
    simp only [ho] at h
    cases h
    exact ⟨rfl, rfl, rfl, .of_metrics rfl, rfl⟩
  | some o =>
    simp only [ho] at h
    rcases hs : o.start with ⟨e | ⟨⟩, o', entries⟩
    · simp only [hs] at h
      cases h
      exact ⟨rfl, rfl, rfl, .of_metrics rfl, rfl⟩
    · simp only [hs] at h
      cases h
      exact ⟨rfl, rfl, rfl, .set (.of_metrics rfl) (by decide) _ _, _, rfl,
        ⟨rfl, rfl, rfl, ⟨_, rfl⟩, rfl, rfl⟩, rfl⟩

theorem cancelWatcher_eq (w : World) (i : Nat) :
    ∃ watchers, w.cancelWatcher i = { w with watchers } := by
  unfold cancelWatcher
  split
  · exact ⟨_, rfl⟩
  · exact ⟨w.watchers, rfl⟩

theorem haltWatcher_eq (w : World) (i : Nat) :
    ∃ watchers, w.haltWatcher i = { w with watchers } := by
  unfold haltWatcher
  split
  · split
    · exact ⟨w.watchers, rfl⟩
    · exact ⟨_, rfl⟩
  · exact ⟨w.watchers, rfl⟩

/-- A new watcher may be cancelled at once. -/
theorem cancelWatcher_push {x : Watcher} (h : w.watchers = w'.watchers.push x) :
    (w.cancelWatcher w'.watchers.size).watchers =
      w'.watchers.push { x with cancelled := true } := by
  have hx : w.watchers[w'.watchers.size]? = some x := by rw [h, Array.getElem?_push_size]
  unfold cancelWatcher
  rw [hx]
  simp only [setWatcher, h]
  simp [Array.setIfInBounds, Array.set_push]

theorem beginTerm_spec {now : Nat} {m : Manager} {held : Held} {watermark : Nat} {time : Int}
    {phase : Manager.Phase} (h : w.beginTerm now m held watermark time = (phase, w')) :
    w'.rule = w.rule ∧ w'.publications = w.publications ∧ CountsOnly [.watermark] w w' ∧
      ((∃ outcome, phase = .releasing held outcome) ∧ w'.watchers = w.watchers ∨
        ∃ x : Watcher, phase = .leading ⟨held, w.watchers.size, watermark, time⟩ ∧
          w'.watchers = w.watchers.push x ∧ x.IsNew m.role watermark) := by
  unfold beginTerm buildOutlet at h
  cases hplan : w.plans.headD (.ok recordingOutlet) with
  | error e =>
    simp only [hplan] at h
    cases h
    exact ⟨rfl, rfl, .of_metrics rfl, Or.inl ⟨⟨_, rfl⟩, rfl⟩⟩
  | ok o =>
    simp only [hplan] at h
    split at h
    · rename_i e w₂ hs
      obtain ⟨hr, hp, -, hf, hx⟩ := startWatcher_spec hs
      cases h
      exact ⟨hr, hp, hf, Or.inl ⟨⟨_, rfl⟩, hx⟩⟩
    · rename_i w₂ hs
      obtain ⟨hr, hp, -, hf, x, hx, hnew, -⟩ := startWatcher_spec hs
      cases h
      split
      · have hnew' : ({ x with cancelled := true } : Watcher).IsNew m.role watermark :=
          ⟨hnew.role, hnew.progress, hnew.loop, hnew.reporter, hnew.queued, hnew.halt⟩
        have hx' := cancelWatcher_push hx
        obtain ⟨watchers, heq⟩ := cancelWatcher_eq w₂ w.watchers.size
        rw [heq] at hx' ⊢
        exact ⟨hr, hp, hf, Or.inr ⟨_, rfl, hx', hnew'⟩⟩
      · exact ⟨hr, hp, hf, Or.inr ⟨x, rfl, hx, hnew⟩⟩

/-- Notices come from scripted lock services only. -/
theorem readNotice?_spec {held : Held} (h : w.readNotice? held = some w') :
    ∃ locks, w' = { w with locks } ∧ Leases.Wanes w.locks.leases locks.leases ∧
      locks.waits = w.locks.waits ∧ ∀ service, w.locks ≠ .table service := by
  unfold readNotice? at h
  split at h
  · cases h
  · rename_i grants monitors hl
    split at h
    · rename_i monitor hm
      split at h
      · cases h
      · cases h
        refine ⟨_, rfl, ?_, by rw [hl]; rfl, by simp [hl]⟩
        rw [hl]
        exact Leases.Wanes.setMonitor hm id
    · cases h

/-- A lock that is given back is not honoured to anyone by that. -/
theorem releaseLock_spec (w : World) (now : Nat) (held : Held) :
    ∃ locks log, w.releaseLock now held = { w with locks, log } ∧
      Leases.Wanes w.locks.leases locks.leases ∧ locks.waits = w.locks.waits := by
  unfold releaseLock
  split
  · rename_i service hl
    obtain ⟨hwanes, hwaits⟩ := Leases.release_spec service held.lease
    rw [hl]
    exact ⟨_, w.log, rfl, hwanes, hwaits⟩
  · rename_i grants monitors hl
    refine ⟨_, _, rfl, ?_, by rw [hl]; rfl⟩
    rw [hl]
    refine .script (by simp) fun k hk => ?_
    obtain ⟨m, hm, ho⟩ := Leases.isOpenAt_eq_true.mp hk
    rw [Array.getElem?_modify] at hm
    split at hm
    · obtain ⟨m', hm', rfl⟩ := Option.map_eq_some_iff.mp hm
      exact Leases.isOpenAt_eq_true.mpr ⟨m', hm', ho⟩
    · exact Leases.isOpenAt_eq_true.mpr ⟨m, hm, ho⟩

/-- A manager that asks for a lock gets it at once or begins to wait. -/
theorem askForLock_spec (now : Nat) {i : Nat} {m : Manager} (h : m.phase.held? = none)
    (hs : m.isShutdown = false) (nextTick : Nat) :
    ∃ phase, ManagerStep w i m phase (w.askForLock now i { m with nextTick }) := by
  unfold askForLock
  split
  · rename_i service hl
    rcases ha : service.acquire i m.lockKey m.sessionName with ⟨lease?, service'⟩
    obtain ⟨hwaits, hlease⟩ := Leases.acquire_spec ha
    have ha' : service.acquire i ({ m with nextTick } : Manager).lockKey
        ({ m with nextTick } : Manager).sessionName = (lease?, service') := ha
    simp only [ha']
    cases lease? with
    | some lease =>
      obtain ⟨hk, hg⟩ := hlease
      refine ⟨_, ⟨nextTick, rfl⟩, ?_, fun q hq => hl ▸ hwaits q hq, .same ..⟩
      exact .obtains ⟨lease, 0, false⟩ _ h hs (Or.inl hk) (hl ▸ hg)
    | none =>
      refine ⟨_, ⟨nextTick, rfl⟩, ?_, fun q hq => hl ▸ hwaits q hq, .same ..⟩
      exact .idles .queueing _ h rfl (by rw [hl]; exact congrArg Sum.inl hlease)
  · rename_i grants monitors hl
    split
    · refine ⟨_, ⟨nextTick, rfl⟩, ?_, fun q hq => Or.inl hq, .same ..⟩
      exact .idles .stuck _ h rfl rfl
    · rename_i grant rest
      refine ⟨_, ⟨nextTick, rfl⟩, ?_, (fun q hq => by cases hq), .same ..⟩
      exact .idles (.asking _ grant) _ h rfl (by rw [hl]; rfl)

theorem lead?_spec {now i : Nat} {m : Manager} {term : Term} {p : Manager.Phase × World}
    (hph : m.phase = .leading term) (h : w.lead? m term = some p) :
    ManagerStep w i m p.1 (p.2.enter now i m p.1) := by
  simp only [lead?, Option.bind_eq_bind, Option.bind_eq_some_iff] at h
  obtain ⟨x, hx, h⟩ := h
  have halts (outcome : Outcome) : ManagerStep w i m (.stopping term outcome x.progress.watermark)
      ((w.haltWatcher term.watcher).enter now i m
        (.stopping term outcome x.progress.watermark)) := by
    have hv := Manager.Move.halts (i := i) term outcome x hph hx
    obtain ⟨watchers, heq⟩ := haltWatcher_eq w term.watcher
    rw [heq] at hv ⊢
    exact .enter_of_locks rfl rfl hv (.same ..)
  split at h
  · cases h
    exact halts .shutdown
  · split at h
    · cases h
      exact halts .lockLost
    · split at h
      · rename_i w₁ hn
        cases h
        obtain ⟨locks, rfl, hwanes, hwaits, hscript⟩ := readNotice?_spec hn
        refine .enter rfl ?_ (fun q hq => Or.inl (hwaits ▸ hq)) (.same ..)
        exact hph ▸ .reads locks (by rw [hph]; rfl) hwanes hscript (Or.inl ⟨term, hph⟩)
      · split at h
        · rename_i watermark channel ht
          have hq : ∃ rest, x.channel.queued = watermark :: rest := by
            unfold Watch.Channel.take at ht
            split at ht
            · split at ht <;> cases ht
            · rename_i v rest hq
              cases ht
              exact ⟨rest, hq⟩
          obtain ⟨rest, hq⟩ := hq
          have hc : channel = x.channel.take.2 := by rw [ht]
          subst hc
          split at h
          · rename_i hlt
            cases h
            exact .enter_of_locks rfl rfl
              (.hears term x watermark rest _ hph hx hq (Or.inl ⟨rfl, hlt⟩)) (.same ..)
          · cases h
            exact .enter_of_locks rfl rfl
              (.hears term x watermark rest _ hph hx hq (Or.inr rfl)) (.same ..)
        · cases h

theorem saveWatermark_spec (now : Nat) {i : Nat} {m : Manager} {term : Term} {watermark : Nat}
    {last : Bool} (hph : m.phase = .saving term watermark last) :
    ManagerStep w i m (w.saveWatermark now m term watermark last).1
      ((w.saveWatermark now m term watermark last).2.enter now i m
        (w.saveWatermark now m term watermark last).1) := by
  rcases hs : w.save now m.checkpointKey watermark with ⟨ok, w₁⟩
  obtain ⟨⟨log, rfl⟩, hok⟩ := save_spec hs
  cases ok with
  | true =>
    have hf : w.store.writesFail = false := by simpa using hok.symm
    simp only [saveWatermark, hs]
    exact .enter_of_locks rfl rfl (.saves term watermark last hph hf) (.same ..)
  | false =>
    have hf : w.store.writesFail = true := by simpa using hok.symm
    have hv := Manager.Move.savesNot (i := i) term watermark last hph hf
    rw [← Checkpoint.Flaky.persist_of_fails hf m.checkpointKey watermark] at hv
    have hmem : .writeFailures ∈ m.phase.metrics := by simp [hph, Manager.Phase.metrics]
    have hbeside : Beside w m.phase
        { w with store := (w.store.persist m.checkpointKey watermark).2, log } := .same ..
    simp only [saveWatermark, hs]
    exact .enter_of_locks rfl rfl hv (hbeside.add hmem m.role.name 1)

theorem saveEventTime_spec (now : Nat) {i : Nat} {m : Manager} {term : Term} {last : Bool}
    (hph : m.phase = .savingTime term last) :
    ManagerStep w i m (w.saveEventTime now m term last).1
      ((w.saveEventTime now m term last).2.enter now i m (w.saveEventTime now m term last).1) := by
  have skips : Manager.Move w i m
      (if last then .releasing term.held .shutdown else .leading term) w.locks w.store w.watchers :=
    .savesTime term last term.persistedTime w.store hph (Or.inl rfl)
  cases hk : m.eventTimeKey? with
  | none =>
    simp only [saveEventTime, hk]
    exact .enter_only skips
  | some key =>
    cases hx : w.watchers[term.watcher]? with
    | none =>
      simp only [saveEventTime, hk, hx]
      exact .enter_only skips
    | some x =>
      by_cases hc : x.clock ≤ term.persistedTime
      · simp only [saveEventTime, hk, hx, if_pos hc]
        exact .enter_only skips
      · rcases hs : w.save now key x.clock.toNat with ⟨ok, w₁⟩
        obtain ⟨⟨log, rfl⟩, -⟩ := save_spec hs
        have hv (time : Int) := Manager.Move.savesTime (i := i) term last time
          (w.store.persist key x.clock.toNat).2 hph (Or.inr ⟨key, _, hk, rfl⟩)
        simp only [saveEventTime, hk, hx, if_neg hc, hs]
        cases ok with
        | true => exact .enter_of_locks rfl rfl (hv x.clock) (.same ..)
        | false =>
          have hmem : .writeFailures ∈ m.phase.metrics := by simp [hph, Manager.Phase.metrics]
          have hbeside : Beside w m.phase
              { w with store := (w.store.persist key x.clock.toNat).2, log } := .same ..
          exact .enter_of_locks rfl rfl (hv term.persistedTime) (hbeside.add hmem m.role.name 1)

/-! ## A step -/

theorem stepManager?_of_queueing {now i : Nat} {m : Manager}
    (hm : w.managers[i]? = some m) (hph : m.phase = .queueing)
    (h : w.stepManager? now i = some w') : ∃ phase, ManagerStep w i m phase w' := by
  simp only [stepManager?, hm, hph, Option.bind_eq_bind, Option.bind_some] at h
  split at h
  · cases h
  · rename_i service hl
    split at h
    · cases h
      refine ⟨_, .enter rfl (.idles _ _ (by rw [hph]; rfl) rfl (by rw [hl]; rfl)) ?_ (.same ..)⟩
      intro q hq
      left
      rw [hl]
      obtain ⟨waiter, hw, rfl⟩ := List.mem_map.mp hq
      exact List.mem_map_of_mem (List.mem_filter.mp hw).1
    · rename_i hs
      split at h
      · rcases hr : service.retry i with ⟨lease?, service'⟩
        obtain ⟨hwaits, hlease⟩ := Leases.retry_spec hr
        simp only [hr] at h
        cases lease? with
        | none =>
          cases h
          refine ⟨m.phase, ⟨m.nextTick, ?_⟩, ?_, fun q hq => Or.inl (hl ▸ hwaits q hq), .same ..⟩
          · exact (setIfInBounds_same hm).symm
          · exact .idles _ _ (by rw [hph]; rfl) (by rw [hph]; rfl)
              (by rw [hl]; exact congrArg Sum.inl hlease)
        | some lease =>
          cases h
          refine ⟨_, .enter rfl ?_ (fun q hq => Or.inl (hl ▸ hwaits q hq)) (.same ..)⟩
          exact .obtains ⟨lease, 0, false⟩ _ (by rw [hph]; rfl) (Bool.eq_false_iff.mpr hs)
            (Or.inr (hl ▸ hlease.1)) (hl ▸ hlease.2)
      · cases h

theorem stepManager?_of_asking {now i : Nat} {m : Manager} {due : Nat} {grant : Grant}
    (hm : w.managers[i]? = some m) (hph : m.phase = .asking due grant)
    (h : w.stepManager? now i = some w') : ∃ phase, ManagerStep w i m phase w' := by
  simp only [stepManager?, hm, hph, Option.bind_eq_bind, Option.bind_some] at h
  split at h
  · cases h
    exact ⟨_, .enter_only (.idles _ _ (by rw [hph]; rfl) rfl rfl)⟩
  · rename_i hs
    split at h
    · cases h
    · split at h
      · cases h
      · cases h
        exact ⟨_, .enter_only (.idles _ _ (by rw [hph]; rfl) rfl rfl)⟩
      · rename_i grants monitors session hl ho
        cases h
        refine ⟨_, .enter rfl ?_ (fun q hq => by cases hq) (.same ..)⟩
        refine .obtains ⟨⟨m.lockKey, session⟩, monitors.size, grant.releaseFails⟩ _
          (by rw [hph]; rfl) (Bool.eq_false_iff.mpr hs) (Or.inl rfl) ?_
        rw [hl]
        exact .script _ _

/-- Reading a checkpoint is followed by reading the next one, by the begin of a term or by a wait. -/
theorem restoreNext_spec {now i : Nat} {m : Manager} {held : Held} {delay : Nat}
    {watermark? : Option Nat} (hph : m.phase = .restoring held delay watermark?) :
    ∃ phase, ManagerStep w i m phase (((w.markLeader m true).restoreNext now m held delay
      watermark?).2.enter now i m
        ((w.markLeader m true).restoreNext now m held delay watermark?).1) := by
  have hleader : .leader ∈ m.phase.metrics := by simp [hph, Manager.Phase.metrics]
  have hfailure : .readFailures ∈ m.phase.metrics := by simp [hph, Manager.Phase.metrics]
  have hbeside (log : List Logged) : Beside w m.phase { w.markLeader m true with log } :=
    (Beside.markLeader hleader m true).goOn _ log
  have hfails (log : List Logged) := (hbeside log).add hfailure m.role.name 1
  cases watermark? with
  | none =>
    obtain ⟨log, hload⟩ := load_spec (w.markLeader m true) now m.checkpointKey
    cases hr : (w.markLeader m true).store.restore m.checkpointKey with
    | error e =>
      rw [hr] at hload
      simp only [restoreNext, hload]
      exact ⟨_, .enter_of_locks rfl rfl (.backsOff held delay _ none hph) (hfails log)⟩
    | ok watermark =>
      rw [hr] at hload
      simp only [restoreNext, hload]
      split
      · exact ⟨_, .enter_of_locks rfl rfl (.restores held delay watermark hph hr) (hbeside log)⟩
      · rename_i htracks
        have htime : w.readTime m = 0 := by simp [readTime, Manager.eventTimeKey?, htracks]
        have hmove : Manager.Move w i m (.starting held watermark (w.readTime m)) _ _ _ :=
          .completes held delay watermark none hph (Or.inr ⟨rfl, hr⟩)
        rw [htime] at hmove
        exact ⟨_, .enter_of_locks rfl rfl hmove (hbeside log)⟩
  | some watermark =>
    rcases hr : (w.markLeader m true).loadTime now m with ⟨e | time, w₁⟩
    · obtain ⟨⟨log, rfl⟩, -⟩ := loadTime_spec hr
      simp only [restoreNext, hr]
      exact ⟨_, .enter_of_locks rfl rfl (.backsOff held delay _ (some watermark) hph) (hfails log)⟩
    · obtain ⟨⟨log, rfl⟩, -, htime⟩ := loadTime_spec hr
      have hmove : Manager.Move w i m (.starting held watermark (w.readTime m)) _ _ _ :=
        .completes held delay watermark (some watermark) hph (Or.inl rfl)
      simp only [restoreNext, hr]
      rw [htime time rfl]
      exact ⟨_, .enter_of_locks rfl rfl hmove (hbeside log)⟩

theorem stepManager?_of_restoring {now i : Nat} {m : Manager} {held : Held} {delay : Nat}
    {watermark? : Option Nat} (hm : w.managers[i]? = some m)
    (hph : m.phase = .restoring held delay watermark?)
    (h : w.stepManager? now i = some w') : ∃ phase, ManagerStep w i m phase w' := by
  simp only [stepManager?, hm, hph, Option.bind_eq_bind, Option.bind_some] at h
  split at h
  · cases h
    exact ⟨_, .enter_of_locks rfl rfl (.gives held _ (by rw [hph]; rfl) (by rw [hph]; rfl))
      (.markLeader (by simp [hph, Manager.Phase.metrics]) m true)⟩
  · cases h
    exact restoreNext_spec hph

theorem stepManager?_of_backingOff {now i : Nat} {m : Manager} {held : Held} {delay due : Nat}
    (hm : w.managers[i]? = some m) (hph : m.phase = .backingOff held delay due)
    (h : w.stepManager? now i = some w') : ∃ phase, ManagerStep w i m phase w' := by
  simp only [stepManager?, hm, hph, Option.bind_eq_bind, Option.bind_some] at h
  split at h
  · cases h
    exact ⟨_, .enter_only (.gives held _ (by rw [hph]; rfl) (by rw [hph]; rfl))⟩
  · split at h
    · cases h
      exact ⟨_, .enter_only (.gives held _ (by rw [hph]; rfl) (by rw [hph]; rfl))⟩
    · split at h
      · rename_i w₁ hn
        cases h
        obtain ⟨locks, rfl, hwanes, hwaits, hscript⟩ := readNotice?_spec hn
        refine ⟨m.phase, ⟨m.nextTick, (setIfInBounds_same hm).symm⟩, ?_,
          fun q hq => Or.inl (hwaits ▸ hq), .same ..⟩
        exact .reads locks (by rw [hph]; rfl) hwanes hscript (Or.inr ⟨held, delay, due, hph⟩)
      · split at h
        · cases h
        · cases h
          exact ⟨_, .enter_only (.triesAgain held delay due _ hph)⟩

theorem stepManager?_spec {now i : Nat} (h : w.stepManager? now i = some w') :
    ∃ m phase, w.managers[i]? = some m ∧ ManagerStep w i m phase w' := by
  -- one case for each phase; the longer ones are above
  have hstep := h
  simp only [stepManager?, Option.bind_eq_bind, Option.bind_eq_some_iff] at h
  obtain ⟨m, hm, h⟩ := h
  suffices hs : ∃ phase, ManagerStep w i m phase w' by
    obtain ⟨phase, hs⟩ := hs
    exact ⟨m, phase, hm, hs⟩
  cases hph : m.phase with
  | begun =>
    simp only [hph] at h
    cases h
    exact ⟨_, ⟨now, rfl⟩, .idles .ticking _ (by rw [hph]; rfl) rfl rfl, fun q hq => Or.inl hq,
      .same ..⟩
  | ticking =>
    simp only [hph] at h
    split at h
    · cases h
      exact ⟨_, .enter_only (.idles _ _ (by rw [hph]; rfl) rfl rfl)⟩
    · rename_i hs
      split at h
      · cases h
      · cases h
        exact askForLock_spec now (by rw [hph]; rfl) (Bool.eq_false_iff.mpr hs) _
  | queueing => exact stepManager?_of_queueing hm hph hstep
  | stuck =>
    simp only [hph] at h
    split at h
    · cases h
      exact ⟨_, .enter_only (.idles _ _ (by rw [hph]; rfl) rfl rfl)⟩
    · cases h
  | asking due grant => exact stepManager?_of_asking hm hph hstep
  | restoring held delay watermark? => exact stepManager?_of_restoring hm hph hstep
  | backingOff held delay due => exact stepManager?_of_backingOff hm hph hstep
  | starting held watermark time =>
    simp only [hph] at h
    rcases hb : w.beginTerm now m held watermark time with ⟨phase, w₁⟩
    obtain ⟨hr, hp, hcounts, hcase⟩ := beginTerm_spec hb
    simp only [hb] at h
    cases h
    have hbeside : Beside w m.phase w₁ :=
      ⟨hp, by rw [hph]; exact hcounts, fun hno => absurd hph (hno held watermark time)⟩
    refine ⟨phase, .enter_of_locks (managers_eq_of_rule hr) (locks_eq_of_rule hr) ?_ hbeside⟩
    rw [store_eq_of_rule hr]
    rcases hcase with ⟨⟨outcome, rfl⟩, hx⟩ | ⟨x, rfl, hx, hnew⟩
    · rw [hx]
      exact .gives held outcome (by rw [hph]; rfl) (by rw [hph]; rfl)
    · rw [hx]
      exact .leads held watermark time x hph hnew
  | leading term =>
    simp only [hph, Option.bind_eq_some_iff] at h
    obtain ⟨p, hl, h⟩ := h
    cases h
    exact ⟨p.1, lead?_spec hph hl⟩
  | saving term watermark last =>
    simp only [hph] at h
    cases h
    exact ⟨_, saveWatermark_spec now hph⟩
  | savingTime term last =>
    simp only [hph] at h
    cases h
    exact ⟨_, saveEventTime_spec now hph⟩
  | stopping term outcome seen =>
    simp only [hph, Option.bind_eq_some_iff] at h
    obtain ⟨x, hx, h⟩ := h
    split at h
    · rename_i result hh
      cases h
      exact ⟨_, .enter_only (.finishes term outcome seen x result hph hx hh)⟩
    · cases h
  | releasing held outcome =>
    simp only [hph] at h
    cases h
    obtain ⟨locks, log, heq, hwanes, hwaits⟩ :=
      releaseLock_spec (w.markLeader m false) now held
    rw [heq]
    exact ⟨_, .enter rfl (.releases held outcome locks hph hwanes)
      (fun q hq => Or.inl (hwaits ▸ hq))
      ((Beside.markLeader (by simp [hph, Manager.Phase.metrics]) m false).goOn locks log)⟩
  | ended result => simp [hph] at h

end World

end ChangeFeed.Engine
