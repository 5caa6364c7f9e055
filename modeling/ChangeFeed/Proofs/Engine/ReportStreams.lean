import Mathlib.Data.List.Induction
import ChangeFeed.Proofs.Engine.Floors
import ChangeFeed.Proofs.Engine.Rounds

/-!
# The reports of a watcher

A reporter takes the watermark at its time and sends it as soon as there is room, which may be long
after that; meanwhile the loop goes on. The call that stops the watcher sends the last watermark by
itself, once the reporter has ended, and only if there is room at that moment.

* `Watcher.Flow` says once what an occurrence does to the reports: a watermark is taken, sent or
  received, or the call that stops the watcher answers. `Shift.flow`: there is nothing else.
* `Watcher.Tally`: what is sent is a part of what was taken, in order, and nothing that was taken is
  above the watermark. `Tally.step` keeps it through every flow, and `reported_through` through
  runs.
* `last_report`: the call that stops the watcher has the last word.
* `reports_faithfully` puts together what follows for whoever receives, for the call that stops the
  watcher, and for the loop.
-/

namespace ChangeFeed

namespace Watch

/-- The report that a reporter has taken and not sent. -/
def Reporter.pending : Reporter → List Nat
  | .sending _ watermark => [watermark]
  | _ => []

/-- What a channel takes of a report that does not wait: nothing if it is full or if nobody receives
any more. -/
def Channel.admitted? (c : Channel) (watermark : Nat) : Option Nat :=
  if c.abandoned = true ∨ c.capacity ≤ c.queued.length then none else some watermark

theorem Channel.queued_offer (c : Channel) (watermark : Nat) :
    (c.offer watermark).queued = c.queued ++ (c.admitted? watermark).toList := by
  unfold offer admitted?
  split
  · rename_i ha
    simp [ha]
  · rename_i ha
    unfold offer?
    by_cases hroom : c.queued.length < c.capacity
    · simp [ha, hroom, Nat.not_le.mpr hroom]
    · simp [hroom, Nat.le_of_not_lt hroom]

theorem Channel.admitted?_sublist (c : Channel) (watermark : Nat) :
    (c.admitted? watermark).toList.Sublist [watermark] := by
  unfold admitted?
  split
  · exact List.nil_sublist _
  · exact List.Sublist.refl _

end Watch

namespace Engine

/-! ## What an occurrence does to the reports -/

namespace Watcher

/-- The watermark that the call that stops a watcher has answered. -/
def answered? (x : Watcher) : Option Nat :=
  match x.halt with
  | some (.ended (.ok watermark)) => some watermark
  | _ => none

/-- The watermark that the loop commits when a watcher comes from one state to another. -/
def committed? (x x' : Watcher) : Option Nat :=
  if x.progress.watermark < x'.progress.watermark then some x'.progress.watermark else none

/-- The watermark that is taken to be reported: by the reporter at its time, or by the call that
stops the watcher as its answer. -/
def sampled? (x x' : Watcher) : Option Nat :=
  match x.reporter, x'.reporter with
  | .waiting _, .sending _ watermark => some watermark
  | _, _ => if x'.answered? = x.answered? then none else x'.answered?

/-- The report that is added to the channel. -/
def sent? (x x' : Watcher) : Option Nat :=
  if x.channel.queued.length < x'.channel.queued.length then x'.channel.queued.getLast? else none

/-- What an occurrence does to the reports of a watcher: the watermark that is taken, the one that
is sent, and the one that is received. -/
inductive Flow (x x' : Watcher) : Option Nat → Option Nat → Option Nat → Prop where
  | rests (hr : x'.reporter = x.reporter ∨ x'.reporter = .ended)
      (hq : x'.channel.queued = x.channel.queued) (ha : x'.answered? = x.answered?) :
      Flow x x' none none none
  | takes (next next' : Nat) (hr : x.reporter = .waiting next)
      (hr' : x'.reporter = .sending next' x.progress.watermark)
      (hq : x'.channel.queued = x.channel.queued) (ha : x'.answered? = x.answered?) :
      Flow x x' (some x.progress.watermark) none none
  | sends (next watermark : Nat) (hr : x.reporter = .sending next watermark)
      (hr' : x'.reporter = .waiting next) (hq : x'.channel.queued = x.channel.queued ++ [watermark])
      (ha : x'.answered? = x.answered?) : Flow x x' none (some watermark) none
  | receives (watermark : Nat) (hr : x'.reporter = x.reporter)
      (hq : x.channel.queued = watermark :: x'.channel.queued)
      (ha : x'.answered? = x.answered?) : Flow x x' none none (some watermark)
  /-- The call that stops the watcher answers, and sends the answer if there is room for it. -/
  | answers (phase : Sink.Stopping) (hh : x.halt = some (.stoppingSink phase))
      (hr : x.reporter = .ended) (hr' : x'.reporter = .ended)
      (hq : x'.channel.queued =
        x.channel.queued ++ (x.channel.admitted? x.progress.watermark).toList)
      (ha : x'.answered? = some x.progress.watermark) :
      Flow x x' (some x.progress.watermark) (x.channel.admitted? x.progress.watermark) none

variable {k : Nat} {x x' : Watcher}

theorem sampled?_eq_none (hr : x'.reporter = x.reporter) (ha : x'.answered? = x.answered?) :
    sampled? x x' = none := by
  unfold sampled?
  rw [hr, if_pos ha]
  cases x.reporter <;> rfl

/-- Nothing is taken, sent or received if the reporter and the channel stay as they are. -/
theorem Flow.of_same (hr : x'.reporter = x.reporter)
    (hq : x'.channel.queued = x.channel.queued) (ha : x'.answered? = x.answered?) :
    Flow x x' (sampled? x x') (sent? x x') (received? x x') := by
  have hsent : sent? x x' = none := by simp [sent?, hq]
  have hreceived : received? x x' = none := by simp [received?, hq]
  rw [sampled?_eq_none hr ha, hsent, hreceived]
  exact .rests (Or.inl hr) hq ha

theorem Flow.of_reports {seen : Bool} {now : Nat} {reporter : Watch.Reporter}
    {channel : Watch.Channel}
    (h : x.reporter.step? x.channel seen now x.settings.reportInterval.millis
      x.progress.watermark = some (reporter, channel)) :
    Flow x { x with reporter, channel } (sampled? x { x with reporter, channel })
      (sent? x { x with reporter, channel }) (received? x { x with reporter, channel }) := by
  have hanswered (reporter : Watch.Reporter) (channel : Watch.Channel) :
      ({ x with reporter, channel } : Watcher).answered? = x.answered? := rfl
  cases hr : x.reporter with
  | ended =>
    rw [hr] at h
    cases h
  | waiting next =>
    simp only [hr, Watch.Reporter.step?] at h
    split at h
    · cases h
      simp only [sampled?, sent?, received?, hr, hanswered, Nat.lt_irrefl, if_false, if_true]
      exact .rests (Or.inr rfl) rfl rfl
    · split at h
      · cases h
        simp only [sampled?, sent?, received?, hr, Nat.lt_irrefl, if_false]
        exact .takes next _ hr rfl rfl rfl
      · cases h
  | sending next watermark =>
    simp only [hr, Watch.Reporter.step?] at h
    split at h
    · cases h
      simp only [sampled?, sent?, received?, hr, hanswered, Nat.lt_irrefl, if_false, if_true]
      exact .rests (Or.inr rfl) rfl rfl
    · obtain ⟨c, hoffer, heq⟩ := Option.map_eq_some_iff.mp h
      cases heq
      unfold Watch.Channel.offer? at hoffer
      split at hoffer
      · cases hoffer
        simp only [sampled?, sent?, received?, hr, hanswered, if_true, List.length_append,
          List.length_singleton, Nat.lt_add_one, List.getLast?_concat]
        rw [if_neg (by omega)]
        exact .sends next watermark hr rfl rfl rfl
      · cases hoffer

theorem Flow.of_receives (x : Watcher) :
    Flow x { x with channel := x.channel.take.2 }
      (sampled? x { x with channel := x.channel.take.2 })
      (sent? x { x with channel := x.channel.take.2 })
      (received? x { x with channel := x.channel.take.2 }) := by
  cases hq : x.channel.queued with
  | nil => exact .of_same rfl (by simp [Watch.Channel.take, hq]) rfl
  | cons watermark rest =>
    have htake : x.channel.take.2.queued = rest := by simp [Watch.Channel.take, hq]
    have hsent : sent? x { x with channel := x.channel.take.2 } = none := by
      simp only [sent?, htake, hq, List.length_cons]
      exact if_neg (by omega)
    have hreceived : received? x { x with channel := x.channel.take.2 } = some watermark := by
      simp [received?, htake, hq]
    have hsampled : sampled? x { x with channel := x.channel.take.2 } = none :=
      sampled?_eq_none rfl rfl
    rw [hsampled, hsent, hreceived]
    exact .receives watermark rfl (by rw [hq, htake]) rfl

/-- The call that stops a watcher answers when the sink has stopped. -/
theorem Flow.of_stops {phase : Sink.Stopping} (hh : x.halt = some (.stoppingSink phase))
    (hr : x.reporter = .ended)
    (hx' : x' = { x with
      channel := { x.channel.offer x.progress.watermark with closed := true }
      halt := some (.ended (.ok x.progress.watermark)) }) :
    Flow x x' (sampled? x x') (sent? x x') (received? x x') := by
  have hqueued : x'.channel.queued =
      x.channel.queued ++ (x.channel.admitted? x.progress.watermark).toList := by
    rw [hx']
    exact Watch.Channel.queued_offer _ _
  have hanswered : x'.answered? = some x.progress.watermark := by
    rw [hx']
    rfl
  have hopen : x.answered? = none := by simp [answered?, hh]
  have hended : x'.reporter = .ended := by
    rw [hx']
    exact hr
  have hsampled : sampled? x x' = some x.progress.watermark := by
    simp [sampled?, hr, hopen, hanswered]
  have hsent : sent? x x' = x.channel.admitted? x.progress.watermark := by
    cases hadmitted : x.channel.admitted? x.progress.watermark <;>
      simp [sent?, hqueued, hadmitted]
  have hreceived : received? x x' = none := by simp [received?, hqueued]
  rw [hsampled, hsent, hreceived]
  exact .answers phase hh hr hended hqueued hanswered

theorem Shift.flow (hs : Shift k x x') (ht : x.Tidy) :
    Flow x x' (sampled? x x') (sent? x x') (received? x x') := by
  cases hs with
  | reports seen now reporter channel hr => exact .of_reports hr
  | moves hm =>
    cases hm with
    | reports now reporter channel hr => exact .of_reports hr
    | receives => exact .of_receives x
    | stops phase hh => exact .of_stops hh (ht.reporter _ hh rfl) rfl
    | halts hh => exact .of_same rfl rfl (by simp [answered?, hh])
    | begins hh => exact .of_same rfl rfl (by simp [answered?, hh])
    | joinsLoop hh hl => exact .of_same rfl rfl (by simp [answered?, hh])
    | joinsReporter now hh hr he => exact .of_same rfl rfl (by simp [answered?, hh])
    | leavesGrace now due hh he hg => exact .of_same rfl rfl (by simp [answered?, hh])
    | drains phase next hh => exact .of_same rfl rfl (by simp [answered?, hh])
    | sinkFails phase error hh => exact .of_same rfl rfl (by simp [answered?, hh])
    | _ => exact .of_same rfl rfl rfl

theorem Shift.watermark_le (hs : Shift k x x') : x.progress.watermark ≤ x'.progress.watermark := by
  cases hs with
  | reports seen now reporter channel hr => exact Nat.le_refl _
  | moves hm =>
    rename_i w e answer?
    rw [hm.progress_eq]
    cases answer? with
    | none => exact Nat.le_refl _
    | some answer => exact Watch.Progress.watermark_le_turn _ _

theorem Flow.eq_of_taken {taken? sent? received? : Option Nat} {v : Nat}
    (hf : Flow x x' taken? sent? received?) (hv : taken? = some v) : v = x.progress.watermark := by
  cases hf with
  | takes => exact (Option.some.inj hv).symm
  | answers => exact (Option.some.inj hv).symm
  | rests => cases hv
  | sends => cases hv
  | receives => cases hv

theorem answered?_eq_some_iff {final : Nat} :
    x.answered? = some final ↔ x.halt = some (.ended (.ok final)) := by
  unfold answered?
  constructor
  · intro h
    split at h
    · rename_i hh
      cases h
      exact hh
    · cases h
  · intro h
    rw [h]

/-- The call that stops a watcher answered before, and nothing is sent any more, or it answers
now. -/
theorem Flow.answer_cases {taken? sent? received? : Option Nat} {final : Nat}
    (hf : Flow x x' taken? sent? received?) (ht : x.Tidy) (ha' : x'.answered? = some final) :
    (x.answered? = some final ∧ sent? = none) ∨
      (∃ phase, x.halt = some (.stoppingSink phase)) ∧ sent? = x.channel.admitted? final ∧
        x'.channel.queued = x.channel.queued ++ (x.channel.admitted? final).toList := by
  cases hf with
  | rests hr hq ha => exact Or.inl ⟨ha.symm.trans ha', rfl⟩
  | takes next next' hr hr' hq ha => exact Or.inl ⟨ha.symm.trans ha', rfl⟩
  | receives watermark hr hq ha => exact Or.inl ⟨ha.symm.trans ha', rfl⟩
  | sends next watermark hr hr' hq ha =>
    -- the reporter had ended before the answer
    have hended := ht.reporter _ (answered?_eq_some_iff.mp (ha.symm.trans ha')) rfl
    rw [hr] at hended
    cases hended
  | answers phase hh hr hr' hq ha =>
    rw [ha] at ha'
    cases ha'
    exact Or.inr ⟨⟨phase, hh⟩, rfl, hq⟩

/-! ## What was taken, sent and received -/

/-- What holds of the watermarks that were taken, sent and received so far, in a state of a
watcher. -/
structure Tally (x : Watcher) (samples sent received : List Nat) : Prop where
  flow : sent = received ++ x.channel.queued
  kept : (sent ++ x.reporter.pending).Sublist samples
  ordered : samples.Pairwise (· ≤ ·)
  bounded : ∀ v ∈ samples, v ≤ x.progress.watermark

theorem IsNew.tally {role : Role} {watermark : Nat} (h : x.IsNew role watermark) :
    x.Tally [] [] [] where
  flow := by rw [h.queued, List.append_nil]
  kept := by
    obtain ⟨next, hr⟩ := h.reporter
    rw [hr]
    exact List.nil_sublist _
  ordered := List.Pairwise.nil
  bounded := fun v hv => by cases hv

variable {samples sent received : List Nat}

/-- A watermark that is taken is not below those that were taken before. -/
theorem Tally.ordered_concat (h : x.Tally samples sent received) :
    (samples ++ [x.progress.watermark]).Pairwise (· ≤ ·) := by
  refine List.pairwise_append.mpr ⟨h.ordered, List.pairwise_singleton _ _, fun v hv u hu => ?_⟩
  rw [List.mem_singleton.mp hu]
  exact h.bounded v hv

theorem Tally.bounded_concat (h : x.Tally samples sent received)
    (hle : x.progress.watermark ≤ x'.progress.watermark) :
    ∀ v ∈ samples ++ [x.progress.watermark], v ≤ x'.progress.watermark := by
  intro v hv
  rcases List.mem_append.mp hv with hv | hv
  · exact Nat.le_trans (h.bounded v hv) hle
  · rw [List.mem_singleton.mp hv]
    exact hle

/-- Whatever happens to the reports, what is sent stays a part of what was taken, in order. -/
theorem Tally.step {taken? sent? received? : Option Nat} (h : x.Tally samples sent received)
    (hf : Flow x x' taken? sent? received?) (hle : x.progress.watermark ≤ x'.progress.watermark) :
    x'.Tally (samples ++ taken?.toList) (sent ++ sent?.toList) (received ++ received?.toList) := by
  have hbounded (v : Nat) (hv : v ∈ samples) : v ≤ x'.progress.watermark :=
    Nat.le_trans (h.bounded v hv) hle
  have hkept : sent.Sublist samples := (List.sublist_append_left _ _).trans h.kept
  cases hf with
  | rests hr hq ha =>
    simp only [Option.toList_none, List.append_nil]
    refine ⟨by rw [hq]; exact h.flow, ?_, h.ordered, hbounded⟩
    rcases hr with hr | hr
    · rw [hr]
      exact h.kept
    · -- a reporter that ends gives up what it took and did not send
      rw [hr]
      exact (List.append_nil sent).symm ▸ hkept
  | takes next next' hr hr' hq ha =>
    simp only [Option.toList_none, Option.toList_some, List.append_nil]
    refine ⟨by rw [hq]; exact h.flow, ?_, h.ordered_concat, h.bounded_concat hle⟩
    rw [hr']
    exact hkept.append_right _
  | sends next watermark hr hr' hq ha =>
    simp only [Option.toList_none, Option.toList_some, List.append_nil]
    refine ⟨by rw [hq, h.flow, List.append_assoc], ?_, h.ordered, hbounded⟩
    have hsending := h.kept
    rw [hr] at hsending
    rw [hr']
    exact (List.append_nil (sent ++ [watermark])).symm ▸ hsending
  | receives watermark hr hq ha =>
    simp only [Option.toList_none, Option.toList_some, List.append_nil]
    refine ⟨by rw [h.flow, hq, List.append_assoc, List.singleton_append], ?_, h.ordered, hbounded⟩
    rw [hr]
    exact h.kept
  | answers phase hh hr hr' hq ha =>
    simp only [Option.toList_none, Option.toList_some, List.append_nil]
    refine ⟨by rw [hq, h.flow, List.append_assoc], ?_, h.ordered_concat, h.bounded_concat hle⟩
    rw [hr']
    exact (List.append_nil _).symm ▸ hkept.append (Watch.Channel.admitted?_sublist _ _)

end Watcher

namespace World

variable {w : World} {k start : Nat} {x x' : Watcher} {o : Occurrence} {os : List Occurrence}

/-! ## Runs -/

/-- The watermarks that the loop of a watcher commits during a run, in order. -/
def commits (w : World) (k : Nat) (os : List Occurrence) : List Nat :=
  w.trace k Watcher.committed? os

/-- The watermarks of a watcher that are taken to be reported during a run, in order. -/
def samples (w : World) (k : Nat) (os : List Occurrence) : List Nat :=
  w.trace k Watcher.sampled? os

/-- The reports of a watcher that are sent during a run, in order. -/
def sent (w : World) (k : Nat) (os : List Occurrence) : List Nat :=
  w.trace k Watcher.sent? os

/-- What holds of a watcher that was started at a watermark, after a run. -/
structure Reported (w : World) (k start : Nat) (os : List Occurrence) (x : Watcher) : Prop where
  watcher : (w.through os).watchers[k]? = some x
  tidy : x.Tidy
  /-- The watermark is the last one that was committed. -/
  latest : x.progress.watermark = (w.commits k os).getLastD start
  tally : x.Tally (w.samples k os) (w.sent k os) (w.received k os)

theorem getLastD_commits (hle : x.progress.watermark ≤ x'.progress.watermark) {commits : List Nat}
    (h : x.progress.watermark = commits.getLastD start) :
    x'.progress.watermark = (commits ++ (Watcher.committed? x x').toList).getLastD start := by
  unfold Watcher.committed?
  split
  · simp
  · rename_i hlt
    simp only [Option.toList_none, List.append_nil, ← h]
    omega

theorem Reported.occur (h : w.Reported k start os x) (o : Occurrence) :
    ∃ x', w.Reported k start (os ++ [o]) x' ∧ Watcher.Shift k x x' := by
  obtain ⟨x', hx', hs⟩ := occur_watcher o h.watcher
  have hle : x.progress.watermark ≤ x'.progress.watermark := hs.watermark_le
  refine ⟨x', ⟨by rw [through_append]; exact hx', hs.tidy h.tidy, ?_, ?_⟩, hs⟩
  · rw [commits, trace_concat h.watcher hx']
    exact getLastD_commits hle h.latest
  · rw [samples, sent, received, trace_concat h.watcher hx', trace_concat h.watcher hx',
      trace_concat h.watcher hx']
    exact h.tally.step (hs.flow h.tidy) hle

/-- What is said of a watcher and its reports holds after every run. -/
theorem reported_through (hnew : w.HasNew k start) (os : List Occurrence) :
    ∃ x, w.Reported k start os x := by
  induction os using List.reverseRecOn with
  | nil =>
    obtain ⟨x, role, hx, hnew⟩ := hnew
    exact ⟨x, hx, hnew.tidy, by rw [hnew.progress]; rfl, hnew.tally⟩
  | append_singleton rest o ih =>
    obtain ⟨x, h⟩ := ih
    obtain ⟨x', h', -⟩ := h.occur o
    exact ⟨x', h'⟩

/-- A watermark that is taken is the last one that was committed until then. -/
theorem Reported.sampled_eq (h : w.Reported k start os x) {v : Nat}
    (hv : (w.through os).between? k Watcher.sampled? o = some v) :
    v = (w.commits k os).getLastD start := by
  obtain ⟨x', hx', hs⟩ := occur_watcher o h.watcher
  rw [between?_eq h.watcher hx'] at hv
  rw [← h.latest]
  exact (hs.flow h.tidy).eq_of_taken hv

/-! ## The last report -/

/-- The call that stops a watcher answers with an occurrence. What it answers is queued, unless the
channel is full or nobody receives any more. -/
structure AnswersAt (w : World) (k : Nat) (os : List Occurrence) (o : Occurrence) (final : Nat)
    (x x' : Watcher) : Prop where
  before : (w.through os).watchers[k]? = some x
  after : (w.through (os ++ [o])).watchers[k]? = some x'
  stopping : ∃ phase, x.halt = some (.stoppingSink phase)
  answered : x'.halt = some (.ended (.ok final))
  queued : x'.channel.queued = x.channel.queued ++ (x.channel.admitted? final).toList

/-- Once the call that stops a watcher has answered, nothing was sent after its answer. -/
theorem last_report (hnew : w.HasNew k start) {final : Nat} (os : List Occurrence)
    (h : w.Reported k start os x) (hh : x.halt = some (.ended (.ok final))) :
    ∃ before o later y y', os = before ++ o :: later ∧ w.AnswersAt k before o final y y' ∧
      w.sent k os = w.sent k before ++ (y.channel.admitted? final).toList := by
  induction os using List.reverseRecOn generalizing x with
  | nil =>
    obtain ⟨y, role, hy, hnew⟩ := hnew
    have hx := h.watcher
    rw [through_nil, hy] at hx
    cases hx
    rw [hnew.halt] at hh
    cases hh
  | append_singleton rest o ih =>
    obtain ⟨y, hy⟩ := reported_through hnew rest
    obtain ⟨x', hx', hs⟩ := hy.occur o
    have hsame := hx'.watcher
    rw [h.watcher] at hsame
    cases hsame
    have hsent : w.sent k (rest ++ [o]) = w.sent k rest ++ (Watcher.sent? y x).toList :=
      trace_concat hy.watcher (by rw [← h.watcher, through_append]; rfl)
    rcases (hs.flow hy.tidy).answer_cases hy.tidy (Watcher.answered?_eq_some_iff.mpr hh) with
      ⟨hanswered, hnone⟩ | ⟨hphase, hadmitted, hqueued⟩
    · obtain ⟨before, o', later, z, z', rfl, hmoment, hlast⟩ :=
        ih hy (Watcher.answered?_eq_some_iff.mp hanswered)
      refine ⟨before, o', later ++ [o], z, z', by simp, hmoment, ?_⟩
      rw [hsent, hnone, Option.toList_none, List.append_nil, hlast]
    · exact ⟨rest, o, [], y, x, rfl, ⟨hy.watcher, h.watcher, hphase, hh, hqueued⟩,
        by rw [hsent, hadmitted]⟩

/-- What someone who receives the reports of a watcher, someone who stops it, and its loop can rely
on after a run. -/
structure FaithfulReports (w : World) (k start : Nat) (os : List Occurrence) (x : Watcher) :
    Prop where
  watcher : (w.through os).watchers[k]? = some x
  /-- What is sent is received in order, or waits in the channel. -/
  flow : w.sent k os = w.received k os ++ x.channel.queued
  sent_ordered : (w.sent k os).Pairwise (· ≤ ·)
  received_ordered : (w.received k os).Pairwise (· ≤ ·)
  /-- What is sent was taken before, in the same order. -/
  sampled : (w.sent k os).Sublist (w.samples k os)
  /-- A watermark that is taken is the last one that was committed then, or the one at the start. -/
  latest : ∀ before o later v, os = before ++ o :: later →
    (w.through before).between? k Watcher.sampled? o = some v →
      v = (w.commits k before).getLastD start
  answer : ∀ final, x.halt = some (.ended (.ok final)) →
    final = (w.commits k os).getLastD start ∧ ∀ v ∈ w.sent k os, v ≤ final
  /-- The answer is the last report, unless the channel was full or nobody received any more when
  the call answered. -/
  last : ∀ final, x.halt = some (.ended (.ok final)) →
    ∃ before o later y y', os = before ++ o :: later ∧ w.AnswersAt k before o final y y' ∧
      w.sent k os = w.sent k before ++ (y.channel.admitted? final).toList
  /-- The loop goes on as it would with any other reporter and channel. -/
  loop : ∀ now reporter channel,
    ((w.through os).withReports k reporter channel).stepLoop? now k =
      ((w.through os).stepLoop? now k).map (·.withReports k reporter channel)
  /-- The call that stops the watcher goes on as it would with any other channel. -/
  halt : ∀ now channel, ∃ channel',
    ((w.through os).withReports k x.reporter channel).stepHalt? now k =
      ((w.through os).stepHalt? now k).map (·.withReports k x.reporter channel')
  /-- However the three tasks take turns, the call joins the loop and the reporter. -/
  joins : ∀ phase (rounds : List (List Occurrence)), x.halt = some phase →
    (∀ round ∈ rounds, IsRound k round) →
    2 * (x.channel.capacity + ((w.through os).received k rounds.flatten).length) + 6 <
      rounds.length →
    ∃ x', (w.through (os ++ rounds.flatten)).watchers[k]? = some x' ∧ x'.HasJoined
  /-- Then it waits for work until the end of its grace, or for the sink, or it has returned. -/
  waits : x.HasJoined → ∀ now, (w.through os).stepHalt? now k = none →
    (∃ due, x.halt = some (.graceUntil due) ∧ (w.through os).isQuiet k = false ∧ now < due) ∨
      (∃ phase, x.halt = some (.stoppingSink phase) ∧
        (w.through os).stepStop? now x.outlet phase = none) ∨
      ∃ result, x.halt = some (.ended result)

/-- The reports of a watcher are faithful, whatever the channel holds, whoever receives, and
whenever the watcher is cancelled or stopped: they never go back, each of them was the last
watermark that was committed when it was taken, the call that stops the watcher answers a watermark
that is not below any of them, which is the last report if there is room for it, and neither the
loop nor the call waits for whoever receives. -/
theorem reports_faithfully (hnew : w.HasNew k start) (os : List Occurrence) :
    ∃ x, w.FaithfulReports k start os x := by
  obtain ⟨x, h⟩ := reported_through hnew os
  have hsampled : (w.sent k os).Sublist (w.samples k os) :=
    (List.sublist_append_left _ _).trans h.tally.kept
  have hordered : (w.sent k os).Pairwise (· ≤ ·) := h.tally.ordered.sublist hsampled
  have hprefix : (w.received k os).Sublist (w.sent k os) := by
    rw [h.tally.flow]
    exact List.sublist_append_left _ _
  refine ⟨x, {
    watcher := h.watcher
    flow := h.tally.flow
    sent_ordered := hordered
    received_ordered := hordered.sublist hprefix
    sampled := hsampled
    latest := fun before o later v hos hv => ?_
    answer := fun final hh => ?_
    last := fun final hh => last_report hnew os h hh
    loop := fun now => stepLoop?_withReports _ now k
    halt := stepHalt?_withReports h.watcher
    joins := fun phase rounds hh hr hn => ?_
    waits := fun hj now => waits_of_stepHalt?_eq_none h.watcher hj }⟩
  · obtain ⟨y, hy⟩ := reported_through hnew before
    exact hy.sampled_eq hv
  · have hfinal : final = x.progress.watermark := h.tidy.final final hh
    exact ⟨hfinal.trans h.latest, fun v hv => hfinal ▸ h.tally.bounded v (hsampled.subset hv)⟩
  · rw [through_append]
    have hahead := x.ahead_le
    exact joins_of_rounds h.watcher h.tidy hh hr (by omega)

/-- A sink that is done at once, and two pages. -/
def lateReceiver : World :=
  (({ World.empty with
      outlets := #[.discarding false 0]
      orchestrator := ⟨[⟨0, .ok ⟨[⟨"a", 5, .null⟩], 5⟩⟩, ⟨0, .ok ⟨[⟨"b", 9, .null⟩], 9⟩⟩], []⟩ } :
    World).startWatcher 0 .jobStubs .standard 0 4 0 1).2

/-- The first report is received late, so the second one is sent after the reporter was cancelled
and when it is out of date. -/
def lateReports : List Occurrence :=
  [.event (.step 5000 (.reporter 0)), .event (.step 5000 (.reporter 0)),
    .event (.step 5000 (.loop 0)), .event (.step 5000 (.loop 0)),
    .event (.step 10000 (.reporter 0)), .event (.step 10000 (.loop 0)),
    .event (.step 10000 (.loop 0)), .event (.act (.halt 0)), .event (.step 10000 (.halt 0)),
    .event (.act (.receive 0)), .overlook 10000 0, .event (.act (.receive 0)),
    .event (.step 10000 (.loop 0)), .event (.step 10000 (.halt 0)),
    .event (.step 10000 (.reporter 0)), .event (.step 10000 (.halt 0)),
    .event (.step 15000 (.halt 0)), .event (.step 15000 (.halt 0))]

theorem reports_faithfully_of_late_reports :
    lateReceiver.received 0 lateReports = [4, 5] ∧ lateReceiver.sent 0 lateReports = [4, 5, 9] ∧
      ∃ x, lateReceiver.FaithfulReports 0 4 lateReports x ∧ x.halt = some (.ended (.ok 9)) := by
  have hnew : lateReceiver.HasNew 0 4 := ⟨_, .jobStubs, rfl, rfl, rfl, rfl, ⟨_, rfl⟩, rfl, rfl⟩
  obtain ⟨x, h⟩ := reports_faithfully hnew lateReports
  have hanswered : ((lateReceiver.through lateReports).watchers[0]?).bind Watcher.answered? =
      some 9 := by decide +kernel
  rw [h.watcher] at hanswered
  exact ⟨by decide +kernel, by decide +kernel, x, h, Watcher.answered?_eq_some_iff.mp hanswered⟩

end World

end Engine

end ChangeFeed
