import ChangeFeed.Proofs.Engine.Dispatch

/-!
# Floors

What a watcher hands on when nothing is known of its server: indices may go back, pages may be
stale, be empty, repeat entries or show entries beyond their own index, and queries may fail at any
time. The watermark is the floor of the next page, and that alone keeps a version from being handed
on with two pages.

* `Progress.run_watermark`: the watermark is the highest index that was handed on so far.
* `Progress.pairwise_run`: what is handed on with one page is below what is handed on with any later
  page.
* `handed_above_watermark`: so it is in every state of a system, and a failed query or a page with
  the index that was asked with leaves everything as it is.
-/

namespace ChangeFeed

/-! ## A loop by itself -/

namespace Watch.Progress

variable {ε : Type}

theorem lt_of_mem_turn {p : Progress} {answer : Except ε Page} {c : Change}
    (hc : c ∈ (p.turn answer).1) : p.watermark < c.index := by
  cases answer with
  | ok page => exact (mem_fresh.mp hc).2.2
  | error e => cases hc

theorem le_turn_of_mem {p : Progress} {answer : Except ε Page} {c : Change}
    (hc : c ∈ (p.turn answer).1) : c.index ≤ (p.turn answer).2.watermark := by
  cases answer with
  | ok page => exact index_le_after hc
  | error e => cases hc

theorem watermark_le_turn (p : Progress) (answer : Except ε Page) :
    p.watermark ≤ (p.turn answer).2.watermark := by
  cases answer with
  | ok page => exact watermark_le_after p page
  | error e => exact Nat.le_refl _

theorem turn_watermark (p : Progress) (answer : Except ε Page) :
    (p.turn answer).2.watermark = ((p.turn answer).1.map Change.index).foldl max p.watermark := by
  cases answer with
  | ok page => rw [turn_ok, after_watermark, List.foldl_map]
  | error e => rfl

/-- A failed query and a page with the index that was asked with are no work. -/
theorem turn_of_unchanged {p : Progress} {answer : Except ε Page}
    (h : ∀ page, answer = .ok page → page.lastIndex = p.index) : p.turn answer = ([], p) := by
  cases answer with
  | error e => rfl
  | ok page =>
    have hu : p.isUnchanged page = true := isUnchanged_iff.mpr (h page rfl)
    simp [fresh, after, hu]

theorem run_watermark (p : Progress) (answers : List (Except ε Page)) :
    (p.run answers).2.watermark =
      ((p.run answers).1.flatten.map Change.index).foldl max p.watermark := by
  induction answers generalizing p with
  | nil => rfl
  | cons answer rest ih =>
    rw [run_cons, ih, turn_watermark, List.flatten_cons, List.map_append, List.foldl_append]

theorem lt_of_mem_run {p : Progress} {answers : List (Except ε Page)} {c : Change}
    (hc : c ∈ (p.run answers).1.flatten) : p.watermark < c.index := by
  induction answers generalizing p with
  | nil => cases hc
  | cons answer rest ih =>
    rw [run_cons, List.flatten_cons] at hc
    rcases List.mem_append.mp hc with hc | hc
    · exact lt_of_mem_turn hc
    · exact Nat.lt_of_le_of_lt (watermark_le_turn p answer) (ih hc)

/-- What is handed on with one answer is below what is handed on with any later one. -/
theorem pairwise_run (p : Progress) (answers : List (Except ε Page)) :
    (p.run answers).1.Pairwise fun changes later =>
      ∀ c ∈ changes, ∀ d ∈ later, c.index < d.index := by
  induction answers generalizing p with
  | nil => exact List.Pairwise.nil
  | cons answer rest ih =>
    refine List.pairwise_cons.mpr ⟨fun later hlater c hc d hd => ?_, ih _⟩
    -- the watermark after the answer lies between the two
    have hle : c.index ≤ (p.turn answer).2.watermark := le_turn_of_mem hc
    have hlt : (p.turn answer).2.watermark < d.index :=
      lt_of_mem_run (List.mem_flatten_of_mem hlater hd)
    exact Nat.lt_of_le_of_lt hle hlt

end Watch.Progress

/-! ## A watcher in a system -/

namespace Engine.World

variable {w : World}

/-- The watermark of a watcher is the highest index that it handed on, or the one at the start. -/
theorem watermark_after {k watermark : Nat} (hnew : w.HasNew k watermark) (events : List Event) :
    ∃ x, (w.after events).watchers[k]? = some x ∧
      (w.after events).handed k = w.handed k ++ (w.fed k events).flatten ∧
      x.progress.watermark = ((w.fed k events).flatten.map Change.index).foldl max watermark := by
  obtain ⟨x₀, role, hx₀, hnew⟩ := hnew
  obtain ⟨x, hx, hrun, hhanded⟩ := run_heard hx₀ events
  have htop := Watch.Progress.run_watermark x₀.progress (w.heard k events)
  rw [hrun, hnew.progress] at htop
  exact ⟨x, hx, hhanded, htop⟩

theorem fed_eq_run {k watermark : Nat} (hnew : w.HasNew k watermark) (events : List Event) :
    w.fed k events = ((Watch.Progress.startingAt watermark).run (w.heard k events)).1 := by
  obtain ⟨x₀, role, hx₀, hnew⟩ := hnew
  obtain ⟨x, -, hrun, -⟩ := run_heard hx₀ events
  rw [← hnew.progress, hrun]

/-- Whatever a server answers, the watermark of a watcher never goes back, and is always the highest
index of a change that was handed on, or the one at the start. Every change that is handed on is
newer than the watermark that its page found, so no version is handed on with two pages, and none
that is no newer than the watermark at the start. A failed query and a page with the index that was
asked with change nothing. -/
theorem handed_above_watermark {k watermark : Nat} (hnew : w.HasNew k watermark)
    (events : List Event) :
    ∃ x, (w.after events).watchers[k]? = some x ∧
      (w.after events).handed k = w.handed k ++ (w.fed k events).flatten ∧
      x.progress.watermark = ((w.fed k events).flatten.map Change.index).foldl max watermark ∧
      (∀ c ∈ (w.fed k events).flatten, watermark < c.index) ∧
      ((w.fed k events).Pairwise fun changes later =>
        ∀ c ∈ changes, ∀ d ∈ later, c.version ≠ d.version) ∧
      ∀ e, ∃ x' changes, (w.after (events ++ [e])).watchers[k]? = some x' ∧
        (w.after (events ++ [e])).handed k = (w.after events).handed k ++ changes ∧
        x.progress.watermark ≤ x'.progress.watermark ∧
        (∀ c ∈ changes, x.progress.watermark < c.index) ∧
        ((∀ page, (w.after events).answerAt? k e = some (.ok page) →
            page.lastIndex = x.progress.index) →
          x'.progress = x.progress ∧ changes = []) := by
  obtain ⟨x, hx, hhanded, hwatermark⟩ := watermark_after hnew events
  have hfed := fed_eq_run hnew events
  refine ⟨x, hx, hhanded, hwatermark, fun c hc => ?_, ?_, fun e => ?_⟩
  · rw [hfed] at hc
    exact Watch.Progress.lt_of_mem_run hc
  · rw [hfed]
    refine (Watch.Progress.pairwise_run _ _).imp fun h c hc d hd heq => ?_
    exact Nat.ne_of_lt (h c hc d hd) (congrArg Prod.snd heq)
  · rw [after_append, after_cons, after_nil]
    obtain ⟨x', hx', hturn⟩ := next_turn hx e
    cases ha : (w.after events).answerAt? k e with
    | none =>
      rw [ha] at hturn
      refine ⟨x', [], hx', by rw [hturn.2, List.append_nil], ?_, by simp, fun _ => ⟨hturn.1, rfl⟩⟩
      rw [hturn.1]
    | some answer =>
      rw [ha] at hturn
      refine ⟨x', _, hx', hturn.2, ?_, fun c hc => Watch.Progress.lt_of_mem_turn hc, fun h => ?_⟩
      · rw [hturn.1]
        exact Watch.Progress.watermark_le_turn _ _
      · have hsame : x.progress.turn answer = ([], x.progress) :=
          Watch.Progress.turn_of_unchanged fun page hpage => h page (congrArg some hpage)
        rw [hturn.1, hsame]
        exact ⟨rfl, rfl⟩

/-- A server whose index goes back, with an entry beyond it that is listed twice, and whose next
page shows old entries again. -/
def stalePages : World :=
  started [⟨0, .ok ⟨[⟨"a", 5, .null⟩, ⟨"b", 3, .null⟩], 7⟩⟩,
    ⟨0, .ok ⟨[⟨"a", 5, .null⟩, ⟨"c", 9, .null⟩, ⟨"c", 9, .null⟩], 2⟩⟩,
    ⟨0, .ok ⟨[⟨"c", 9, .null⟩, ⟨"b", 3, .null⟩], 7⟩⟩] 4

theorem handed_above_watermark_of_stale_pages :
    (stalePages.fed 0 (turns 6)).map (·.map Change.version) =
        [[("a", 5)], [("c", 9), ("c", 9)], []] ∧
      ∃ x, (stalePages.after (turns 6)).watchers[0]? = some x ∧ x.progress.watermark = 9 := by
  have hnew : stalePages.HasNew 0 4 := ⟨_, .jobs, rfl, rfl, rfl, rfl, ⟨_, rfl⟩, rfl, rfl⟩
  have hfed : (stalePages.fed 0 (turns 6)).map (·.map Change.version) =
      [[("a", 5)], [("c", 9), ("c", 9)], []] := rfl
  have htop : ((stalePages.fed 0 (turns 6)).flatten.map Change.index).foldl max 4 = 9 := rfl
  obtain ⟨x, hx, -, hwatermark, -⟩ := handed_above_watermark hnew (turns 6)
  exact ⟨hfed, x, hx, hwatermark.trans htop⟩

end Engine.World

end ChangeFeed
