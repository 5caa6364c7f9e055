import ChangeFeed.Proofs.Engine.Halts
import ChangeFeed.Proofs.Watch.Snapshots

/-!
# What a watcher hands on

In a system a watch loop is one of many tasks, and its answers come between the steps of all the
others. What it hands on nevertheless depends on its answers alone.

* `heard` are the answers that the loop of a watcher takes up in a run, and `fed` the changes for
  which work was begun with each of them, as it can be seen from the system.
* `run_heard`: both fit the run of a loop by itself, `Watch.Progress.run`.
* `count_handed`: in every run each version on the pages of one history is handed on once if it is
  newer than the watermark at the start, and otherwise never; and some run takes up the whole script.
* `fed_append_restart`: a watcher that was stopped, and another one started at the watermark that
  the first one answered, hand on what a single watcher would have handed on, page by page.
-/

namespace ChangeFeed.Engine

namespace World

/-- The changes for which a watcher began work, in order. -/
def handed (w : World) (k : Nat) : List Change :=
  (w.publications.toList.filter (·.watcher = k)).map Publication.change

/-- The answers that the loop of a watcher takes up during some events. -/
def heard (w : World) (k : Nat) : List Event → List (Except Error Page)
  | [] => []
  | e :: events => (w.answerAt? k e).toList ++ (w.next e).heard k events

/-- The changes for which a watcher began work during some events, by the answer with which it
did. -/
def fed (w : World) (k : Nat) : List Event → List (List Change)
  | [] => []
  | e :: events =>
    ((w.answerAt? k e).map fun _ => ((w.next e).handed k).drop (w.handed k).length).toList ++
      (w.next e).fed k events

variable {w w' : World}

theorem heard_append (k : Nat) (events more : List Event) :
    w.heard k (events ++ more) = w.heard k events ++ (w.after events).heard k more := by
  induction events generalizing w with
  | nil => rfl
  | cons e rest ih => simp [heard, ih]

theorem heard_eq_nil {k : Nat} {events : List Event}
    (h : ∀ now, .step now (.loop k) ∉ events) : w.heard k events = [] := by
  induction events generalizing w with
  | nil => rfl
  | cons e rest ih =>
    have hrest := ih (w := w.next e) fun now hmem => h now (List.mem_cons_of_mem _ hmem)
    have he : w.answerAt? k e = none := by
      cases e with
      | act a => rfl
      | step now task =>
        cases task with
        | loop i =>
          refine answerAt?_of_ne fun hk => ?_
          subst hk
          exact h now List.mem_cons_self
        | _ => rfl
    simp [heard, he, hrest]

/-! ## One event -/

theorem handed_eq (w : World) (k : Nat) :
    w.handed k = ((w.publications.toList.map fun p => (p.watcher, p.change)).filter
      (·.1 = k)).map Prod.snd := by
  simp [handed, List.filter_map, Function.comp_def]

theorem handed_next (w : World) (k : Nat) (e : Event) :
    (w.next e).handed k = w.handed k ++ ((w.handedAt e).filter (·.1 = k)).map Prod.snd := by
  obtain ⟨old, heq, hsize, hold⟩ := next_publications w e
  have hkeep : old.toList.map (fun p => (p.watcher, p.change)) =
      w.publications.toList.map fun p => (p.watcher, p.change) := by
    refine List.ext_getElem? fun j => ?_
    rw [List.getElem?_map, List.getElem?_map, Array.getElem?_toList, Array.getElem?_toList]
    cases hj : w.publications[j]? with
    | none =>
      have hnone : old[j]? = none := by
        rw [Array.getElem?_eq_none_iff] at hj ⊢
        omega
      rw [hnone]
    | some p =>
      obtain ⟨p', hp', hm⟩ := hold j p hj
      obtain ⟨howner, hchange⟩ := hm.owner
      simp [hp', howner, hchange]
  rw [handed_eq, handed_eq, heq, Array.toList_append, List.map_append, hkeep, List.filter_append,
    List.map_append]
  simp [Function.comp_def]

/-- The changes that a watcher is given with an event are those of the answer that its loop takes
up. -/
theorem handedAt_of_answerAt {k : Nat} {x : Watcher} (hx : w.watchers[k]? = some x) (e : Event) :
    ((w.handedAt e).filter (·.1 = k)).map Prod.snd =
      ((w.answerAt? k e).map fun answer => (x.progress.turn answer).1).getD [] := by
  cases e with
  | act a => rfl
  | step now task =>
    cases task with
    | loop i =>
      by_cases h : i = k
      · subst h
        rw [answerAt?_self]
        simp only [handedAt, hx]
        cases w.takes? now i with
        | none => rfl
        | some answer => simp [List.filter_map, Function.comp_def]
      · rw [answerAt?_of_ne (Ne.symm h)]
        simp only [handedAt]
        split
        · simp [List.filter_map, Function.comp_def, h]
        · rfl
    | _ => rfl

/-- An event is a turn of the loop of a watcher, or nothing to it. -/
theorem next_turn {k : Nat} {x : Watcher} (hx : w.watchers[k]? = some x) (e : Event) :
    ∃ x', (w.next e).watchers[k]? = some x' ∧
      match w.answerAt? k e with
      | some answer => x'.progress = (x.progress.turn answer).2 ∧
          (w.next e).handed k = w.handed k ++ (x.progress.turn answer).1
      | none => x'.progress = x.progress ∧ (w.next e).handed k = w.handed k := by
  obtain ⟨x', hx', hm⟩ := next_watcher e hx
  refine ⟨x', hx', ?_⟩
  have hp := hm.progress_eq
  have hh := handed_next w k e
  rw [handedAt_of_answerAt hx e] at hh
  cases ha : w.answerAt? k e with
  | none =>
    rw [ha] at hp hh
    exact ⟨hp, by simpa using hh⟩
  | some answer =>
    rw [ha] at hp hh
    exact ⟨hp, hh⟩

/-! ## Runs -/

/-- A watcher in a system does what a loop does by itself. -/
theorem run_heard {k : Nat} {x : Watcher} (hx : w.watchers[k]? = some x) (events : List Event) :
    ∃ x', (w.after events).watchers[k]? = some x' ∧
      x.progress.run (w.heard k events) = (w.fed k events, x'.progress) ∧
      (w.after events).handed k = w.handed k ++ (w.fed k events).flatten := by
  -- over the events, for any state of the watcher: an event between two answers changes nothing
  induction events generalizing w x with
  | nil => exact ⟨x, hx, rfl, by simp [fed]⟩
  | cons e rest ih =>
    obtain ⟨x₁, hx₁, hturn⟩ := next_turn hx e
    obtain ⟨x', hx', hrun, hhanded⟩ := ih hx₁
    refine ⟨x', hx', ?_, ?_⟩
    · cases ha : w.answerAt? k e with
      | none =>
        rw [ha] at hturn
        simpa [heard, fed, ha, ← hturn.1] using hrun
      | some answer =>
        rw [ha] at hturn
        simp [heard, fed, ha, ← hturn.1, hrun, hturn.2]
    · rw [after_cons, hhanded]
      cases ha : w.answerAt? k e with
      | none =>
        rw [ha] at hturn
        simp [fed, ha, hturn.2]
      | some answer =>
        rw [ha] at hturn
        simp [fed, ha, hturn.2]

/-! ## Runs that take up the whole script -/

theorem next_loop {now k : Nat} (h : w.stepLoop? now k = some w') :
    w.next (.step now (.loop k)) = w' := by
  simp [next, step?, h]

/-- A loop that is ready asks, and is to be given the next answer of the script. -/
theorem next_ready {k : Nat} {x : Watcher} {answer : ListAnswer} {rest : List ListAnswer}
    (hx : w.watchers[k]? = some x) (hc : x.cancelled = false) (hl : x.loop = .ready)
    (hs : w.orchestrator.lists = answer :: rest) :
    let w' := w.next (.step 0 (.loop k))
    w'.watchers[k]? = some { x with
      loop := .asking answer.delay (Orchestrator.listOutcome x.role.resource answer) } ∧
      w'.orchestrator.lists = rest := by
  have hstep : ∃ log, w.stepLoop? 0 k = some (({ w with
      orchestrator := { w.orchestrator with lists := rest }, log } : World).setWatcher k { x with
        loop := .asking answer.delay (Orchestrator.listOutcome x.role.resource answer) }) := by
    simp only [stepLoop?, hx, hl, hc, hs, note, Option.bind_eq_bind, Option.bind_some,
      Nat.zero_add]
    exact ⟨_, rfl⟩
  obtain ⟨log, hstep⟩ := hstep
  intro w'
  have hw' : w' = _ := next_loop hstep
  rw [hw']
  refine ⟨?_, rfl⟩
  exact getElem?_setWatcher_self (w := { w with
    orchestrator := { w.orchestrator with lists := rest }, log }) hx _

theorem absorb_orchestrator (w : World) (i : Nat) (x : Watcher) (page : Page) :
    (w.absorb i x page).orchestrator = w.orchestrator := by
  simp only [absorb, foldl_publish]
  split <;> rfl

/-- A loop whose answer has come takes it up, and is ready again or pauses. -/
theorem next_asking {k due : Nat} {x : Watcher} {answer : Except Error Page}
    (hx : w.watchers[k]? = some x) (hc : x.cancelled = false) (hl : x.loop = .asking due answer) :
    let w' := w.next (.step due (.loop k))
    ∃ x', w'.watchers[k]? = some x' ∧ x'.cancelled = false ∧ x'.role = x.role ∧
      (x'.loop = .ready ∨ ∃ next, x'.loop = .pausing next) ∧ w'.orchestrator = w.orchestrator := by
  cases answer with
  | ok page =>
    have hstep : w.stepLoop? due k = some (w.absorb k x page) := by
      simp [stepLoop?, hx, hl, hc]
    intro w'
    have hw' : w' = _ := next_loop hstep
    rw [hw', absorb_watchers, absorb_orchestrator]
    exact ⟨_, getElem?_setWatcher_self hx _, hc, rfl, Or.inl rfl, rfl⟩
  | error e =>
    have hstep : ∃ metrics, w.stepLoop? due k = some (({ w with metrics } : World).setWatcher k
        { x with loop := .pausing (due + x.settings.errorBackoff.millis) }) := by
      simp only [stepLoop?, hx, hl, hc, Option.bind_eq_bind, Option.bind_some, Nat.lt_irrefl]
      exact ⟨_, rfl⟩
    obtain ⟨metrics, hstep⟩ := hstep
    intro w'
    have hw' : w' = _ := next_loop hstep
    rw [hw']
    exact ⟨_, getElem?_setWatcher_self (w := { w with metrics }) hx _, hc, rfl,
      Or.inr ⟨_, rfl⟩, rfl⟩

theorem next_pausing {k due : Nat} {x : Watcher} (hx : w.watchers[k]? = some x)
    (hc : x.cancelled = false) (hl : x.loop = .pausing due) :
    let w' := w.next (.step due (.loop k))
    w'.watchers[k]? = some { x with loop := .ready } ∧ w'.orchestrator = w.orchestrator := by
  have hstep : w.stepLoop? due k = some (w.setWatcher k { x with loop := .ready }) := by
    simp [stepLoop?, hx, hl, hc]
  intro w'
  have hw' : w' = _ := next_loop hstep
  rw [hw']
  exact ⟨getElem?_setWatcher_self hx _, rfl⟩

theorem exists_heard_one {k : Nat} {x : Watcher} {answer : ListAnswer} {rest : List ListAnswer}
    (hx : w.watchers[k]? = some x) (hc : x.cancelled = false) (hl : x.loop = .ready)
    (hs : w.orchestrator.lists = answer :: rest) :
    ∃ events x', (w.after events).watchers[k]? = some x' ∧ x'.cancelled = false ∧
      x'.loop = .ready ∧ x'.role = x.role ∧ (w.after events).orchestrator.lists = rest ∧
      w.heard k events = [Orchestrator.listOutcome x.role.resource answer] := by
  obtain ⟨hx₁, hs₁⟩ := next_ready hx hc hl hs
  have ha : w.answerAt? k (.step 0 (.loop k)) = none := by
    rw [answerAt?_self, takes?_eq_none hx (Or.inr (by simp [hl]))]
  obtain ⟨x₂, hx₂, hc₂, hr₂, hl₂, ho₂⟩ := next_asking hx₁ hc rfl
  have ha₁ : (w.next (.step 0 (.loop k))).answerAt? k (.step answer.delay (.loop k)) =
      some (Orchestrator.listOutcome x.role.resource answer) := by
    rw [answerAt?_self]
    exact takes?_eq_some_iff.mpr ⟨_, _, hx₁, rfl, hc, Nat.le_refl _⟩
  rcases hl₂ with hl₂ | ⟨next, hl₂⟩
  · refine ⟨[.step 0 (.loop k), .step answer.delay (.loop k)], x₂, hx₂, hc₂, hl₂, hr₂, ?_, ?_⟩
    · rw [after_cons, after_cons, after_nil, ho₂, hs₁]
    · simp [heard, ha, ha₁]
  · obtain ⟨hx₃, ho₃⟩ := next_pausing hx₂ hc₂ hl₂
    have ha₂ : ((w.next (.step 0 (.loop k))).next (.step answer.delay (.loop k))).answerAt? k
        (.step next (.loop k)) = none := by
      rw [answerAt?_self, takes?_eq_none hx₂ (Or.inr (by simp [hl₂]))]
    refine ⟨[.step 0 (.loop k), .step answer.delay (.loop k), .step next (.loop k)], _, hx₃, hc₂,
      rfl, hr₂, ?_, ?_⟩
    · rw [after_cons, after_cons, after_cons, after_nil, ho₃, ho₂, hs₁]
    · simp [heard, ha, ha₁, ha₂]

theorem exists_heard {k : Nat} {x : Watcher} (hx : w.watchers[k]? = some x)
    (hc : x.cancelled = false) (hl : x.loop = .ready) :
    ∃ events, w.heard k events =
      w.orchestrator.lists.map (Orchestrator.listOutcome x.role.resource) := by
  generalize hs : w.orchestrator.lists = lists
  induction lists generalizing w x with
  | nil => exact ⟨[], rfl⟩
  | cons answer rest ih =>
    obtain ⟨events, x', hx', hc', hl', hr', hs', hh⟩ := exists_heard_one hx hc hl hs
    obtain ⟨more, hmore⟩ := ih hx' hc' hl' hs'
    exact ⟨events ++ more, by rw [heard_append, hh, hmore, hr']; rfl⟩

/-! ## Each version once -/

/-- What a watcher hands on while it reads snapshots of one history: each version that is newer than
the watermark at the start and is on some page once, and nothing else. -/
theorem count_handed {k watermark : Nat} (hnew : w.HasNew k watermark) (events : List Event)
    (hs : Snapshots (Watch.pages (w.heard k events)))
    (hn : ∀ page ∈ Watch.pages (w.heard k events), page.versions.Nodup) :
    ∃ changes, (w.after events).handed k = w.handed k ++ changes ∧
      ∀ v, (changes.map Change.version).count v =
        if watermark < v.2 ∧ ∃ page ∈ Watch.pages (w.heard k events), v ∈ page.versions
        then 1 else 0 := by
  obtain ⟨x, role, hx, hnew⟩ := hnew
  obtain ⟨x', hx', hrun, hhanded⟩ := run_heard hx events
  refine ⟨_, hhanded, fun v => ?_⟩
  rw [hnew.progress] at hrun
  have hcount := Watch.Progress.count_run hs hn (Watch.Progress.attentive_startingAt hs watermark) v
  rw [hrun] at hcount
  exact hcount

/-- A watcher that is started at a watermark hands on every version that is newer and occurs on some
page exactly once, whatever else happens in the system, and no other version at all; and it can take
up the whole script. -/
theorem handed_exactly_once {w₁ : World} {now outlet capacity watermark : Nat} {role : Role}
    {settings : Settings.Watching} {clock : Int}
    (hstart : w.startWatcher now role settings outlet watermark clock capacity = (.ok (), w₁)) :
    (∀ events,
      Snapshots (Watch.pages (w₁.heard w.watchers.size events)) →
      (∀ page ∈ Watch.pages (w₁.heard w.watchers.size events), page.versions.Nodup) →
      ∃ changes,
        (w₁.after events).handed w.watchers.size = w₁.handed w.watchers.size ++ changes ∧
        ∀ v, (changes.map Change.version).count v =
          if watermark < v.2 ∧
            ∃ page ∈ Watch.pages (w₁.heard w.watchers.size events), v ∈ page.versions
          then 1 else 0) ∧
      ∃ events, w₁.heard w.watchers.size events =
        w.orchestrator.lists.map (Orchestrator.listOutcome role.resource) := by
  refine ⟨count_handed (startWatcher_hasNew hstart), ?_⟩
  obtain ⟨-, -, ho, -, x, hw, hnew, hc⟩ := startWatcher_spec hstart
  have hx : w₁.watchers[w.watchers.size]? = some x := by rw [hw, Array.getElem?_push_size]
  obtain ⟨events, h⟩ := exists_heard hx hc hnew.loop
  exact ⟨events, by rw [h, ho, hnew.role]⟩

/-- A system with one sink and a script of answers. -/
def scripted (answers : List ListAnswer) : World :=
  { World.empty with outlets := #[recordingOutlet], orchestrator := ⟨answers, []⟩ }

def started (answers : List ListAnswer) (watermark : Nat) : World :=
  ((scripted answers).startWatcher 0 .jobs .standard 0 watermark 0 1).2

/-- Two pages of one history; the second one shows a version of the first one again. -/
def twoPages : Page × Page :=
  (⟨[⟨"a", 5, .null⟩, ⟨"b", 3, .null⟩], 7⟩, ⟨[⟨"a", 5, .null⟩, ⟨"c", 9, .null⟩], 9⟩)

theorem snapshots_twoPages : Snapshots [twoPages.1, twoPages.2] :=
  ⟨by decide, List.isChain_pair.mpr ⟨by decide, by decide⟩⟩

/-- Turns of the first watch loop, the next of them after the pause that follows a failure. -/
def turns (n : Nat) : List Event := (List.range n).map fun t => .step (20000 * t) (.loop 0)

def managerTurns (now i n : Nat) : List Event := List.replicate n (.step now (.manager i))

/-- A failed query between two pages. -/
theorem handed_exactly_once_of_three_answers :
    let w₁ := started [⟨0, .ok twoPages.1⟩, ⟨0, .error 500⟩, ⟨0, .ok twoPages.2⟩] 4
    Watch.pages (w₁.heard 0 (turns 9)) = [twoPages.1, twoPages.2] ∧
      ∃ changes, (w₁.after (turns 9)).handed 0 = w₁.handed 0 ++ changes ∧
        (changes.map Change.version).count ("a", 5) = 1 ∧
        (changes.map Change.version).count ("c", 9) = 1 ∧
        (changes.map Change.version).count ("b", 3) = 0 := by
  have hpages : Watch.pages ((started
      [⟨0, .ok twoPages.1⟩, ⟨0, .error 500⟩, ⟨0, .ok twoPages.2⟩] 4).heard 0 (turns 9)) =
      [twoPages.1, twoPages.2] := rfl
  have hn : ∀ page ∈ [twoPages.1, twoPages.2], page.versions.Nodup := by decide
  have hstart (answers : List ListAnswer) : (scripted answers).startWatcher
      0 .jobs .standard 0 4 0 1 = (.ok (), started answers 4) := rfl
  obtain ⟨changes, hchanges, hcount⟩ := (handed_exactly_once (hstart
    [⟨0, .ok twoPages.1⟩, ⟨0, .error 500⟩, ⟨0, .ok twoPages.2⟩])).1 (turns 9)
    (hpages ▸ snapshots_twoPages) (hpages ▸ hn)
  refine ⟨hpages, changes, hchanges, ?_, ?_, ?_⟩
  · exact (hcount _).trans (if_pos ⟨by decide, twoPages.1, hpages ▸ by simp, by decide⟩)
  · exact (hcount _).trans (if_pos ⟨by decide, twoPages.2, hpages ▸ by simp, by decide⟩)
  · exact (hcount _).trans (if_neg fun h => absurd h.1 (by decide))

/-! ## Restarts -/

/-- The watermark that a stopped watcher answers is the one that its answers lead to. -/
theorem final_eq {k watermark final : Nat} {x : Watcher} {events : List Event}
    (hnew : w.HasNew k watermark) (hx : (w.after events).watchers[k]? = some x)
    (hfinal : x.halt = some (.ended (.ok final))) :
    final = ((Watch.Progress.startingAt watermark).run (w.heard k events)).2.watermark := by
  obtain ⟨x₀, role, hx₀, hnew⟩ := hnew
  obtain ⟨x', hx', hrun, -⟩ := run_heard hx₀ events
  obtain ⟨x'', hx'', hordered⟩ := ordered_after hx₀ hnew.ordered events
  rw [hx] at hx' hx''
  cases hx'
  cases hx''
  rw [← hnew.progress, hrun]
  exact hordered.final final hfinal

/-- A watcher that was stopped, and another one that starts at the watermark that the first one
answered, hand on page by page what a single watcher hands on, and end with its watermark. Each of
the three may be in a system of its own, among other tasks. -/
theorem fed_append_restart {w₁ w₂ w₃ : World} {k₁ k₂ k₃ watermark final : Nat} {x₁ : Watcher}
    {first second whole : List Event}
    (h₁ : w₁.HasNew k₁ watermark) (h₂ : w₂.HasNew k₂ final) (h₃ : w₃.HasNew k₃ watermark)
    (hx₁ : (w₁.after first).watchers[k₁]? = some x₁) (hfinal : x₁.halt = some (.ended (.ok final)))
    (hheard : w₃.heard k₃ whole = w₁.heard k₁ first ++ w₂.heard k₂ second)
    (hs : Snapshots (Watch.pages (w₃.heard k₃ whole))) :
    w₁.fed k₁ first ++ w₂.fed k₂ second = w₃.fed k₃ whole ∧
      ∃ x₂ x₃, (w₂.after second).watchers[k₂]? = some x₂ ∧
        (w₃.after whole).watchers[k₃]? = some x₃ ∧
        x₂.progress.watermark = x₃.progress.watermark := by
  have hf := final_eq h₁ hx₁ hfinal
  obtain ⟨y₁, role₁, hy₁, hnew₁⟩ := h₁
  obtain ⟨y₂, role₂, hy₂, hnew₂⟩ := h₂
  obtain ⟨y₃, role₃, hy₃, hnew₃⟩ := h₃
  obtain ⟨z₁, -, hrun₁, -⟩ := run_heard hy₁ first
  obtain ⟨z₂, hz₂, hrun₂, -⟩ := run_heard hy₂ second
  obtain ⟨z₃, hz₃, hrun₃, -⟩ := run_heard hy₃ whole
  rw [hnew₁.progress] at hrun₁
  rw [hnew₂.progress, hf] at hrun₂
  rw [hnew₃.progress, hheard] at hrun₃
  rw [hheard] at hs
  have h := Watch.Progress.run_append_restart watermark hs
  simp only [hrun₂, hrun₃] at h
  rw [hrun₁] at h
  exact ⟨h.1, z₂, z₃, hz₂, hz₃, h.2⟩

/-- A watcher that is stopped after the first of two pages. -/
theorem fed_append_restart_of_two_pages :
    let first : List Event := turns 2 ++ [.act (.halt 0), .step 0 (.halt 0), .step 0 (.loop 0),
      .step 0 (.halt 0), .step 0 (.reporter 0), .step 0 (.halt 0), .step 5000 (.halt 0),
      .step 5000 (.halt 0)]
    (started [⟨0, .ok twoPages.1⟩] 4).fed 0 first ++
        (started [⟨0, .ok twoPages.2⟩] 5).fed 0 (turns 2) =
      (started [⟨0, .ok twoPages.1⟩, ⟨0, .ok twoPages.2⟩] 4).fed 0 (turns 4) := by
  have hnew (answers : List ListAnswer) (watermark : Nat) :
      (started answers watermark).HasNew 0 watermark :=
    ⟨_, .jobs, rfl, rfl, rfl, rfl, ⟨_, rfl⟩, rfl, rfl⟩
  have hpages : Watch.pages ((started [⟨0, .ok twoPages.1⟩, ⟨0, .ok twoPages.2⟩] 4).heard 0
      (turns 4)) = [twoPages.1, twoPages.2] := rfl
  exact (fed_append_restart (hnew _ 4) (hnew _ 5) (hnew _ 4) rfl rfl rfl
    (hpages ▸ snapshots_twoPages)).1

end World

end ChangeFeed.Engine
