import ChangeFeed.Proofs.Engine.Backoffs

/-!
# How a restore ends

A manager that tries to read its checkpoints goes on to a term with an attempt that reads all of them,
or gives up.

* `isShutdown_after`: a manager is shut down by the act that says so, and stays shut down.
* `Resigns`: the manager gives up, since it was shut down, or waits and finds that it has lost its
  lock. `Awaiting.releasing_after_iff`: it gives up for no other reason.
* `Awaiting.starting_next_iff`: it goes on to a term for no other reason than a successful attempt.
* `exists_turn`: notices do not keep a wait from its end; they are read one by one.
-/

namespace ChangeFeed.Engine.World

variable {w w' : World} {e : Event} {i : Nat} {m : Manager} {held : Held}
  {s : Settings.Coordination} {sharp : Prop} {starts failures : List Nat}

/-! ## Who is shut down -/

/-- A manager is shut down by one act only, and for good. -/
theorem next_isShutdown (e : Event) (hm : w.managers[i]? = some m) :
    ∃ m', (w.next e).managers[i]? = some m' ∧
      (m'.isShutdown = true ↔ m.isShutdown = true ∨ e = .act (.shutDown i)) := by
  cases e with
  | act a =>
    obtain ⟨isShutdown, hm', hshut⟩ := (perform_spec w a).manager i m hm
    exact ⟨_, hm', by simp [hshut]⟩
  | step now task =>
    simp only [reduceCtorEq, or_false]
    have h := next_spec w (.step now task)
    generalize w.next (.step now task) = w' at h ⊢
    have same (hr : w'.rule = w.rule) :
        ∃ m', w'.managers[i]? = some m' ∧ (m'.isShutdown = true ↔ m.isShutdown = true) :=
      ⟨m, by rw [managers_eq_of_rule hr, hm], Iff.rfl⟩
    cases h with
    | rests _ _ hw hr => exact same hr
    | loop _ k x x' _ hx h => exact same h.rule
    | watcher _ k _ htask x x' _ hx hw hr => exact same hr
    | publication _ j p p' x _ hp hx h => exact same h.rule
    | manager _ j mj phase _ hmj h =>
      obtain ⟨nextTick, hms⟩ := h.managers
      by_cases hji : j = i
      · subst hji
        rw [hm] at hmj
        cases hmj
        exact ⟨{ m with nextTick, phase }, by rw [hms, managers_set_self hm], Iff.rfl⟩
      · exact ⟨m, by rw [hms, Array.getElem?_setIfInBounds_ne hji, hm], Iff.rfl⟩

theorem isShutdown_after (events : List Event) (hm : w.managers[i]? = some m) :
    ∃ m', (w.after events).managers[i]? = some m' ∧
      (m'.isShutdown = true ↔ m.isShutdown = true ∨ .act (.shutDown i) ∈ events) := by
  induction events generalizing w m with
  | nil => exact ⟨m, hm, by simp⟩
  | cons e rest ih =>
    obtain ⟨m₁, hm₁, hone⟩ := next_isShutdown e hm
    obtain ⟨m', hm', hrest⟩ := ih hm₁
    refine ⟨m', hm', ?_⟩
    rw [hrest, hone, List.mem_cons, or_assoc, eq_comm (a := e)]

/-! ## Giving up -/

/-- Whether a manager gives up on its checkpoints with its next step: it was shut down, or it waits
and finds that it has lost its lock. Shutdown comes first. -/
def Resigns (w : World) (i : Nat) (held : Held) (outcome : Outcome) : Prop :=
  ∃ m, w.managers[i]? = some m ∧
    ((∃ delay watermark?, m.phase = .restoring held delay watermark?) ∧ m.isShutdown = true ∧
        outcome = .shutdown ∨
      (∃ delay due, m.phase = .backingOff held delay due) ∧
        (m.isShutdown = true ∧ outcome = .shutdown ∨
          m.isShutdown = false ∧ w.isLost held = true ∧ outcome = .lockLost))

/-- A manager that gives up has a lease. -/
theorem Resigns.held? {outcome : Outcome} (h : w.Resigns i held outcome)
    (hm : w.managers[i]? = some m) : m.phase.held? = some held := by
  obtain ⟨m', hm', ⟨⟨delay, watermark?, hph⟩, -⟩ | ⟨⟨delay, due, hph⟩, -⟩⟩ := h
  · rw [hm] at hm'
    cases hm'
    rw [hph]
    rfl
  · rw [hm] at hm'
    cases hm'
    rw [hph]
    rfl

theorem resigns_of_reads {delay : Nat} {watermark? : Option Nat} (hm : w.managers[i]? = some m)
    (hph : m.phase = .restoring held delay watermark?) {outcome : Outcome} :
    w.Resigns i held outcome ↔ m.isShutdown = true ∧ outcome = .shutdown := by
  simp [Resigns, hm, hph]

theorem resigns_of_waits {delay due : Nat} (hm : w.managers[i]? = some m)
    (hph : m.phase = .backingOff held delay due) {outcome : Outcome} :
    w.Resigns i held outcome ↔ m.isShutdown = true ∧ outcome = .shutdown ∨
      m.isShutdown = false ∧ w.isLost held = true ∧ outcome = .lockLost := by
  simp [Resigns, hm, hph]

theorem releasing_of_reads (now : Nat) {delay : Nat} {watermark? : Option Nat}
    (hm : w.managers[i]? = some m) (hph : m.phase = .restoring held delay watermark?) {outcome : Outcome} :
    (w.next (.step now (.manager i))).phaseOf? i = some (.releasing held outcome) ↔
      w.Resigns i held outcome := by
  obtain ⟨phase, metrics, log, hread, hnext⟩ := next_of_restoring now hm hph
  have here : (w.managers.setIfInBounds i { m with phase })[i]? = some { m with phase } :=
    managers_set_self hm _
  rw [hnext, phaseOf?_eq here, resigns_of_reads hm hph]
  cases hread with
  | quits hq => simp [hq, eq_comm (a := outcome)]
  | goesOn watermark hq hw hr hd => simp [hq]
  | succeeds watermark time hq hd => simp [hq]
  | fails hq hd => simp [hq]

theorem releasing_of_waits (now : Nat) {delay due : Nat} (hm : w.managers[i]? = some m)
    (hph : m.phase = .backingOff held delay due) {outcome : Outcome} :
    (w.next (.step now (.manager i))).phaseOf? i = some (.releasing held outcome) ↔
      w.Resigns i held outcome := by
  have here (phase : Manager.Phase) :
      (w.managers.setIfInBounds i { m with phase })[i]? = some { m with phase } :=
    managers_set_self hm _
  have hwait := next_of_backingOff now hm hph
  rw [resigns_of_waits hm hph]
  generalize w.next (.step now (.manager i)) = w' at hwait ⊢
  cases hwait with
  | quits hq =>
    rw [phaseOf?_eq (here _)]
    simp [hq, eq_comm (a := outcome)]
  | loses hq hlost =>
    rw [phaseOf?_eq (here _)]
    simp [hq, hlost, eq_comm (a := outcome)]
  | hears locks hq hlost hn =>
    rw [phaseOf?_eq (w := { w with locks }) hm]
    simp [hq, hlost, hph]
  | waits hq hlost hn ht =>
    rw [phaseOf?_eq hm]
    simp [hq, hlost, hph]
  | retries hq hlost hn ht =>
    rw [phaseOf?_eq (here _)]
    simp [hq, hlost]

/-- A manager is about to give its lease back if it was before, or gives up. -/
theorem Awaiting.releasing_next_iff (h : w.Awaiting i held s sharp starts failures)
    (hf : w.Fruitless i held [e]) {outcome : Outcome} :
    (w.next e).phaseOf? i = some (.releasing held outcome) ↔
      w.phaseOf? i = some (.releasing held outcome) ∨
        (∃ now, e = .step now (.manager i)) ∧ w.Resigns i held outcome := by
  obtain ⟨m, hm, -, hphase⟩ := h.manager
  by_cases hown : ∃ now, e = .step now (.manager i)
  · obtain ⟨now, rfl⟩ := hown
    generalize hph : m.phase = phase at hphase
    rw [phaseOf?_eq hm]
    cases hphase with
    | reads watermark? hl =>
      rw [releasing_of_reads now hm hph]
      simp [hph]
    | waits t hl =>
      rw [releasing_of_waits now hm hph]
      simp [hph]
    | leaves outcome' hl => exact absurd (by simp [leaseCallAt?, hm, hph]) hf.leaseCall
  · obtain ⟨m', hm', hph', -⟩ := next_manager_of_ne (fun now heq => hown ⟨now, heq⟩) hm
    rw [phaseOf?_eq hm', phaseOf?_eq hm, hph']
    simp [hown]

/-- A manager has given up if one of its steps in the run was one with which it gives up. -/
theorem Awaiting.releasing_after_iff {events : List Event}
    (h : w.Awaiting i held s sharp starts failures) (hf : w.Fruitless i held events)
    (hsharp : sharp → w.isOnTime i events = true) {outcome : Outcome} :
    (w.after events).phaseOf? i = some (.releasing held outcome) ↔
      w.phaseOf? i = some (.releasing held outcome) ∨ ∃ earlier now later,
        events = earlier ++ .step now (.manager i) :: later ∧
          (w.after earlier).Resigns i held outcome := by
  induction events generalizing w starts failures with
  | nil => simp
  | cons e rest ih =>
    obtain ⟨hone, hrest⟩ := hf.cons
    have hnext := h.next hone fun hp => (isOnTime_cons (hsharp hp)).1
    rw [after_cons, ih hnext hrest fun hp => (isOnTime_cons (hsharp hp)).2,
      h.releasing_next_iff hone, or_assoc]
    refine or_congr_right ?_
    constructor
    · rintro (⟨⟨now, rfl⟩, hr⟩ | ⟨earlier, now, later, rfl, hr⟩)
      · exact ⟨[], now, rest, rfl, hr⟩
      · exact ⟨e :: earlier, now, later, rfl, hr⟩
    · rintro ⟨earlier, now, later, heq, hr⟩
      rcases List.cons_eq_append_iff.mp heq with ⟨rfl, hcons⟩ | ⟨earlier', rfl, hrest⟩
      · cases hcons
        exact Or.inl ⟨⟨now, rfl⟩, hr⟩
      · exact Or.inr ⟨earlier', now, later, hrest, hr⟩

/-- A manager that has given up gives its lease back with its next step. -/
theorem leaseCallAt?_release_iff :
    w.leaseCallAt? e = some ⟨i, held, true⟩ ↔
      (∃ now, e = .step now (.manager i)) ∧
        ∃ outcome, w.phaseOf? i = some (.releasing held outcome) := by
  constructor
  · intro hcall
    obtain ⟨now, m, he, hm, ⟨-, outcome, hph⟩ | ⟨hno, -⟩⟩ := leaseCallAt?_cases hcall
    · exact ⟨⟨now, he⟩, outcome, by rw [phaseOf?_eq hm, hph]⟩
    · cases hno
  · rintro ⟨⟨now, rfl⟩, outcome, hph⟩
    obtain ⟨m, hm, hph⟩ := Option.map_eq_some_iff.mp hph
    simp [leaseCallAt?, hm, hph]

/-! ## Success -/

theorem starting_of_reads (now : Nat) {delay : Nat} {watermark? : Option Nat}
    (hm : w.managers[i]? = some m) (hph : m.phase = .restoring held delay watermark?) :
    (∃ watermark time, (w.next (.step now (.manager i))).phaseOf? i =
        some (.starting held watermark time)) ↔
      ∃ r, w.readingAt? (.step now (.manager i)) = some r ∧ r.manager = i ∧ r.ok = true := by
  obtain ⟨phase, metrics, log, hread, hnext⟩ := next_of_restoring now hm hph
  have here : (w.managers.setIfInBounds i { m with phase })[i]? = some { m with phase } :=
    managers_set_self hm _
  rw [hnext, readingAt?_of_restoring now hm hph, phaseOf?_eq here]
  cases hread with
  | quits hq => simp [hq]
  | goesOn watermark hq hw hr hd => simp [hq, hd]
  | succeeds watermark time hq hd => simp [hq, hd]
  | fails hq hd => simp [hq, hd]

theorem not_starting_of_waits (now : Nat) {delay due : Nat} (hm : w.managers[i]? = some m)
    (hph : m.phase = .backingOff held delay due) (watermark : Nat) (time : Int) :
    (w.next (.step now (.manager i))).phaseOf? i ≠ some (.starting held watermark time) := by
  have here (phase : Manager.Phase) :
      (w.managers.setIfInBounds i { m with phase })[i]? = some { m with phase } :=
    managers_set_self hm _
  have hwait := next_of_backingOff now hm hph
  generalize w.next (.step now (.manager i)) = w' at hwait ⊢
  cases hwait with
  | hears locks hq hlost hn =>
    rw [phaseOf?_eq (w := { w with locks }) hm]
    simp [hph]
  | waits hq hlost hn ht =>
    rw [phaseOf?_eq hm]
    simp [hph]
  | _ =>
    rw [phaseOf?_eq (here _)]
    simp

theorem not_starting_of_leaves (now : Nat) {outcome : Outcome} (hm : w.managers[i]? = some m)
    (hph : m.phase = .releasing held outcome) (watermark : Nat) (time : Int) :
    (w.next (.step now (.manager i))).phaseOf? i ≠ some (.starting held watermark time) := by
  intro hstarts
  obtain ⟨m', hm', hph'⟩ := Option.map_eq_some_iff.mp hstarts
  have hnone := (next_of_releasing now hm hph).1
  rw [heldBy_eq_some_iff.mpr ⟨m', hm', by rw [hph']; rfl⟩] at hnone
  cases hnone

/-- A manager goes on to a term if it has read all its checkpoints. -/
theorem Awaiting.starting_next_iff (h : w.Awaiting i held s sharp starts failures) :
    (∃ watermark time, (w.next e).phaseOf? i = some (.starting held watermark time)) ↔
      ∃ r, w.readingAt? e = some r ∧ r.manager = i ∧ r.ok = true := by
  obtain ⟨m, hm, -, hphase⟩ := h.manager
  by_cases hown : ∃ now, e = .step now (.manager i)
  · obtain ⟨now, rfl⟩ := hown
    generalize hph : m.phase = phase at hphase
    cases hphase with
    | reads watermark? hl => exact starting_of_reads now hm hph
    | waits t hl =>
      have hno : w.readingAt? (.step now (.manager i)) = none := by simp [readingAt?, hm, hph]
      simp [hno, not_starting_of_waits now hm hph]
    | leaves outcome hl =>
      have hno : w.readingAt? (.step now (.manager i)) = none := by simp [readingAt?, hm, hph]
      simp [hno, not_starting_of_leaves now hm hph]
  · obtain ⟨m', hm', hph', -⟩ := next_manager_of_ne (fun now heq => hown ⟨now, heq⟩) hm
    constructor
    · rintro ⟨watermark, time, hph₁⟩
      rw [phaseOf?_eq hm', Option.some.injEq] at hph₁
      rw [← hph', hph₁] at hphase
      cases hphase
    · rintro ⟨r, hr, hi, -⟩
      obtain ⟨m₁, held', delay, watermark?, he, -⟩ := readingAt?_cases hr
      exact absurd ⟨r.time, by rw [he, hi]⟩ hown

/-! ## Notices -/

/-- The number of notices that wait for a manager. -/
def noticesFor (w : World) (held : Held) : Nat :=
  match w.locks with
  | .table _ => 0
  | .script _ monitors => ((monitors[held.monitor]?).map Monitor.notices).getD 0

theorem noticesFor_of_readNotice? (h : w.readNotice? held = some w') :
    w.noticesFor held = w'.noticesFor held + 1 := by
  unfold readNotice? at h
  split at h
  · cases h
  · rename_i grants monitors hl
    split at h
    · rename_i monitor hmon
      split at h
      · cases h
      · rename_i hzero
        cases h
        have hlt : held.monitor < monitors.size := (Array.getElem?_eq_some_iff.mp hmon).1
        simp only [noticesFor, hl, hmon, Array.getElem?_setIfInBounds_self_of_lt hlt,
          Option.map_some, Option.getD_some]
        omega
    · cases h

/-- Once its wait is over, a manager begins the next attempt or gives up, or reads a notice. -/
theorem turns_or_hears {delay due now : Nat} (hm : w.managers[i]? = some m)
    (hph : m.phase = .backingOff held delay due) (hdue : due ≤ now) :
    (w.startAt? i (.step now (.manager i)) = some now ∨ ∃ outcome, w.Resigns i held outcome) ∨
      ∃ locks, w.next (.step now (.manager i)) = { w with locks } ∧
        w.noticesFor held = { w with locks }.noticesFor held + 1 := by
  have hwait := next_of_backingOff now hm hph
  generalize hnext : w.next (.step now (.manager i)) = w' at hwait
  cases hwait with
  | quits hq => exact Or.inl (Or.inr ⟨.shutdown, (resigns_of_waits hm hph).mpr (Or.inl ⟨hq, rfl⟩)⟩)
  | loses hq hl =>
    exact Or.inl (Or.inr ⟨.lockLost, (resigns_of_waits hm hph).mpr (Or.inr ⟨hq, hl, rfl⟩)⟩)
  | hears locks hq hl hread => exact Or.inr ⟨locks, rfl, noticesFor_of_readNotice? hread⟩
  | waits hq hl hread ht => omega
  | retries hq hl hread ht => exact Or.inl (Or.inl (startAt?_of_retry hm hph hnext))

/-- Once its wait is over, a manager begins the next attempt or gives up, as soon as it has read the
notices that wait. -/
theorem exists_turn {delay due now : Nat} (hm : w.managers[i]? = some m)
    (hph : m.phase = .backingOff held delay due) (hdue : due ≤ now) :
    ∃ n, n ≤ w.noticesFor held ∧
      ((w.after (List.replicate n (.step now (.manager i)))).startAt? i (.step now (.manager i)) =
          some now ∨
        ∃ outcome, (w.after (List.replicate n (.step now (.manager i)))).Resigns i held outcome) := by
  induction hn : w.noticesFor held generalizing w with
  | zero =>
    rcases turns_or_hears hm hph hdue with hturn | ⟨locks, -, hnotices⟩
    · exact ⟨0, Nat.le_refl _, hturn⟩
    · omega
  | succ k ih =>
    rcases turns_or_hears hm hph hdue with hturn | ⟨locks, hnext, hnotices⟩
    · exact ⟨0, Nat.zero_le _, hturn⟩
    · obtain ⟨n, hle, hturn⟩ := ih (w := { w with locks }) hm (by omega)
      refine ⟨n + 1, Nat.succ_le_succ hle, ?_⟩
      rw [List.replicate_succ, after_cons, hnext]
      exact hturn

end ChangeFeed.Engine.World
