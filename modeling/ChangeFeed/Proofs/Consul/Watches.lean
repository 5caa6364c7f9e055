import ChangeFeed.Proofs.Consul.Lifecycles

/-!
# The reads of a watch

What the reads of a watch showed so far, its findings, settles all it does: past which index the next
one asks, how many failed in a row, and whether the watch is over. `Findings.Decides` says when the
last finding ends a watch: it shows that the key is not the session's, or is one failure in a row more
than the settings bear.

* `Watch.Watched` ties a watch to its reads; `Watched.judge` is a read that gets its reply and
  `Watched.rested` the end of a pause.
* `Tenure.Watches` says where a tenure and its watch stand; `Watches.step` is one event, `watches_run`
  are several.
* `Tenure.keepsWatch_run`: in every run a lease that was not given back is watched until the first
  finding that decides, and no longer.
-/

namespace ChangeFeed.Consul

/-! ## Findings -/

/-- What the reads of a watch showed, the last one first. -/
abbrev Findings := List (Except Http.Failure Holding)

namespace Findings

/-- How many reads failed since the last one that succeeded. -/
def failures : Findings → Nat
  | .error _ :: earlier => failures earlier + 1
  | _ => 0

/-- The index of the last read that succeeded. -/
def index : Findings → Nat
  | .ok holding :: _ => holding.index
  | .error _ :: earlier => index earlier
  | [] => 0

/-- Whether the last finding ends a watch: the key is not the session's, or one more failure in a row
than is borne. -/
def Decides (retries : Nat) (session : String) : Findings → Prop
  | .ok holding :: _ => holding.session? ≠ some session
  | .error f :: earlier => failures (.error f :: earlier) = retries + 1
  | [] => False

end Findings

namespace Ask

/-- What a read of a watch showed, once it has its reply. -/
def finding? (T : Terms) (a : Ask) : Option (Except Http.Failure Holding) :=
  match a.demand, a.reply with
  | .await index, some r => some (T.service.read T.key index r.delivery)
  | _, _ => none

def findings (T : Terms) (reads : List Ask) : Findings := reads.filterMap (finding? T)

variable {T : Terms} {a : Ask} {earlier : List Ask}

theorem finding?_of_unanswered (hr : a.reply = none) : a.finding? T = none := by
  unfold finding?
  rw [hr]
  split <;> simp_all

@[simp] theorem findings_nil : findings T [] = [] := rfl

theorem findings_of_none (h : a.finding? T = none) :
    findings T (a :: earlier) = findings T earlier := by
  simp [findings, h]

theorem findings_of_some {o : Except Http.Failure Holding} (h : a.finding? T = some o) :
    findings T (a :: earlier) = o :: findings T earlier := by
  simp [findings, h]

end Ask

/-! ## Reads one after the other -/

namespace Watch

/-- Whether a watch may read at a time, by the reads before: at once after one that showed the key to
be the session's, and after a pause when a failure is borne. -/
inductive MayRead (T : Terms) (time : Nat) : List Ask → Prop where
  | first : MayRead T time []
  | confirmed {a : Ask} {earlier : List Ask} {r : Reply} {holding : Holding}
      (hr : a.reply = some r) (hf : a.finding? T = some (.ok holding))
      (hs : holding.session? = some T.session) (ht : time = r.time) : MayRead T time (a :: earlier)
  | failed {a : Ask} {earlier : List Ask} {r : Reply} {f : Http.Failure}
      (hr : a.reply = some r) (hf : a.finding? T = some (.error f))
      (hn : Findings.failures (Ask.findings T (a :: earlier)) ≤ T.service.monitorRetries)
      (ht : r.time + T.service.monitorRetry.nanos ≤ time) : MayRead T time (a :: earlier)

/-- The reads of a watch, the last one first. -/
inductive Reads (T : Terms) : List Ask → Prop where
  | nil : Reads T []
  | cons {a : Ask} {earlier : List Ask} (h : Reads T earlier) (ht : MayRead T a.time earlier)
      (hd : a.demand = .await (Findings.index (Ask.findings T earlier)))
      (hw : a.request = a.demand.request T.service T.key T.name T.ttl) : Reads T (a :: earlier)

/-- What the reads of a watch say about what it does. -/
inductive Stands (T : Terms) : Phase → List Ask → Prop where
  | reading {a : Ask} {earlier : List Ask} (hr : a.reply = none) : Stands T .reading (a :: earlier)
  | pausing {a : Ask} {earlier : List Ask} {r : Reply} {f : Http.Failure} (hr : a.reply = some r)
      (hf : a.finding? T = some (.error f))
      (hn : Findings.failures (Ask.findings T (a :: earlier)) ≤ T.service.monitorRetries) :
      Stands T (.pausing (r.time + T.service.monitorRetry.nanos)) (a :: earlier)
  | closed {reads : List Ask}
      (h : Findings.Decides T.service.monitorRetries T.session (Ask.findings T reads)) :
      Stands T .closed reads

/-- A watch stands where its reads lead. -/
structure Watched (T : Terms) (reads : List Ask) (w : Watch) : Prop where
  sent : Reads T reads
  stands : Stands T w.phase reads
  index : w.index = Findings.index (Ask.findings T reads)
  failures : w.failures = Findings.failures (Ask.findings T reads)

/-- Where a watch may come to at a time by its reads, before it sends the next one. -/
structure Reaches (T : Terms) (now : Nat) (reads : List Ask) (w : Watch) : Prop where
  sent : Reads T reads
  mayRead : w.phase = .reading → MayRead T now reads
  stands : w.phase ≠ .reading → Stands T w.phase reads
  index : w.index = Findings.index (Ask.findings T reads)
  failures : w.failures = Findings.failures (Ask.findings T reads)

variable {T : Terms} {w : Watch} {a b : Ask} {reads later earlier : List Ask}

namespace MayRead

variable {time : Nat}

theorem failures_le (h : MayRead T time reads) :
    Findings.failures (Ask.findings T reads) ≤ T.service.monitorRetries := by
  cases h with
  | first => exact Nat.zero_le _
  | confirmed _ hf =>
    rw [Ask.findings_of_some hf]
    exact Nat.zero_le _
  | failed _ _ hn => exact hn

theorem pause_le {r : Reply} {f : Http.Failure} (h : MayRead T time (a :: earlier))
    (hr : a.reply = some r) (hf : a.finding? T = some (.error f)) :
    r.time + T.service.monitorRetry.nanos ≤ time := by
  cases h with
  | confirmed _ hf' => cases hf.symm.trans hf'
  | failed hr' _ _ ht =>
    cases hr.symm.trans hr'
    exact ht

end MayRead

namespace Reads

theorem tail (h : Reads T (a :: earlier)) : Reads T earlier := by
  cases h
  assumption

theorem of_append (h : Reads T (later ++ earlier)) : Reads T earlier := by
  induction later with
  | nil => exact h
  | cons b later ih => exact ih h.tail

theorem head (h : Reads T (a :: earlier)) : MayRead T a.time earlier ∧
    a.demand = .await (Findings.index (Ask.findings T earlier)) ∧
    a.request = T.service.readRequest T.key (Findings.index (Ask.findings T earlier)) := by
  cases h with
  | cons _ ht hd hw =>
    refine ⟨ht, hd, ?_⟩
    rw [hw, hd, Demand.request]

theorem mayRead (h : Reads T (later ++ b :: earlier)) : MayRead T b.time earlier :=
  h.of_append.head.1

/-- The reply to the last read does not matter to what it is. -/
theorem replied (h : Reads T (a :: earlier)) (r : Option Reply) :
    Reads T ({ a with reply := r } :: earlier) := by
  cases h with
  | cons h ht hd hw => exact .cons h ht hd hw

theorem finding?_replied (h : Reads T (a :: earlier)) (r : Reply) :
    ({ a with reply := some r } : Ask).finding? T =
      some (T.service.read T.key (Findings.index (Ask.findings T earlier)) r.delivery) := by
  simp [Ask.finding?, h.head.2.1]

/-- Another failure is at most one too many. -/
theorem failures_le (h : Reads T reads) :
    Findings.failures (Ask.findings T reads) ≤ T.service.monitorRetries + 1 := by
  cases h with
  | nil => exact Nat.zero_le _
  | @cons a earlier h ht hd hw =>
    have hearlier := ht.failures_le
    cases hf : a.finding? T with
    | none =>
      rw [Ask.findings_of_none hf]
      omega
    | some o =>
      rw [Ask.findings_of_some hf]
      cases o with
      | ok holding => exact Nat.zero_le _
      | error f =>
        simp only [Findings.failures]
        omega

end Reads

namespace Watched

/-- While a read is on its way, it has shown nothing yet. -/
theorem exists_reading (h : Watched T reads w) (hp : w.phase = .reading) :
    ∃ a earlier, reads = a :: earlier ∧ Ask.findings T reads = Ask.findings T earlier := by
  obtain ⟨hsent, hstands, -, -⟩ := h
  rw [hp] at hstands
  cases hstands with
  | reading hr => exact ⟨_, _, rfl, Ask.findings_of_none (Ask.finding?_of_unanswered hr)⟩

/-- A read that fails is borne or ends the watch. -/
theorem judge_error {now : Nat} {d : Http.Delivery} {f : Http.Failure}
    (h : Watched T (a :: earlier) w)
    (hsame : Ask.findings T (a :: earlier) = Ask.findings T earlier)
    (hread : T.service.read T.key w.index d = .error f) :
    Reaches T now ({ a with reply := some ⟨now, d⟩ } :: earlier)
      (w.judge T.service T.session now (.error f)) := by
  have hindex := h.index
  have hfailures := h.failures
  have hle := h.sent.head.1.failures_le
  rw [hsame] at hindex hfailures
  have hfinding := h.sent.finding?_replied ⟨now, d⟩
  rw [← hindex, hread] at hfinding
  have hfindings : Ask.findings T ({ a with reply := some ⟨now, d⟩ } :: earlier) =
      .error f :: Ask.findings T earlier := Ask.findings_of_some hfinding
  have hcount : w.failures + 1 = Findings.failures (.error f :: Ask.findings T earlier) := by
    rw [hfailures, Findings.failures]
  simp only [judge]
  split
  · rename_i hmany
    refine ⟨h.sent.replied _, nofun, fun _ => .closed ?_, ?_, ?_⟩
    · rw [hfindings, Findings.Decides, ← hcount]
      omega
    · rw [hfindings]
      exact hindex
    · rw [hfindings]
      exact hcount
  · rename_i hfew
    refine ⟨h.sent.replied _, nofun, fun _ => .pausing (r := ⟨now, d⟩) rfl hfinding ?_, ?_, ?_⟩
    · rw [hfindings, ← hcount]
      omega
    · rw [hfindings]
      exact hindex
    · rw [hfindings]
      exact hcount

/-- A read that succeeds shows the key to be the session's or ends the watch. -/
theorem judge_ok {now : Nat} {d : Http.Delivery} {holding : Holding}
    (h : Watched T (a :: earlier) w)
    (hsame : Ask.findings T (a :: earlier) = Ask.findings T earlier)
    (hread : T.service.read T.key w.index d = .ok holding) :
    Reaches T now ({ a with reply := some ⟨now, d⟩ } :: earlier)
      (w.judge T.service T.session now (.ok holding)) := by
  have hindex := h.index
  rw [hsame] at hindex
  have hfinding := h.sent.finding?_replied ⟨now, d⟩
  rw [← hindex, hread] at hfinding
  have hfindings : Ask.findings T ({ a with reply := some ⟨now, d⟩ } :: earlier) =
      .ok holding :: Ask.findings T earlier := Ask.findings_of_some hfinding
  refine ⟨h.sent.replied _, fun hp => ?_, fun hp => ?_, ?_, ?_⟩
  · by_cases hs : holding.session? = some T.session
    · exact .confirmed (r := ⟨now, d⟩) rfl hfinding hs rfl
    · simp [judge, hs] at hp
  · by_cases hs : holding.session? = some T.session
    · simp [judge, hs] at hp
    · simp only [judge, if_neg hs]
      refine .closed ?_
      rw [hfindings]
      exact hs
  · rw [hfindings]
    rfl
  · rw [hfindings]
    rfl

/-- The reply to a read. -/
theorem judge (h : Watched T (a :: earlier) w)
    (hsame : Ask.findings T (a :: earlier) = Ask.findings T earlier) (now : Nat)
    (d : Http.Delivery) :
    Reaches T now ({ a with reply := some ⟨now, d⟩ } :: earlier)
      (w.judge T.service T.session now (T.service.read T.key w.index d)) := by
  cases hread : T.service.read T.key w.index d with
  | error f => exact h.judge_error hsame hread
  | ok holding => exact h.judge_ok hsame hread

/-- The end of a pause. -/
theorem rested {due now : Nat} (h : Watched T reads w) (hp : w.phase = .pausing due)
    (hdue : due ≤ now) : Reaches T now reads { w with phase := .reading } := by
  obtain ⟨hsent, hstands, hindex, hfailures⟩ := h
  rw [hp] at hstands
  cases hstands with
  | pausing hr hf hn => exact ⟨hsent, fun _ => .failed hr hf hn hdue, nofun, hindex, hfailures⟩

end Watched

theorem reaches_start (T : Terms) (now : Nat) : Reaches T now [] .start :=
  ⟨.nil, fun _ => .first, nofun, rfl, rfl⟩

end Watch

/-! ## Owners with and without a lease -/

namespace Owner

/-- Whether an owner was not granted the key so far. -/
def isUnheld : Owner → Bool
  | .opening | .contesting _ | .withdrawing _ | .refused _ | .abandoned => true
  | _ => false

/-- Whether an owner has a lease that is not given back; it may have thrown it away. -/
def isKept : Owner → Bool
  | .holding | .forgotten => true
  | _ => false

/-- Whether an owner gives its lease back, or has done so. -/
def isPast : Owner → Bool
  | .yielding | .closing _ | .released _ | .deserted => true
  | _ => false

end Owner

namespace Tenure

variable {s : Service} {t : Tenure} {w : Watch}

/-- A watch that reads again has its read on its way, and every other one stays where it is. -/
theorem watched_watching (h : w.Reaches (t.terms s) t.now t.reads) :
    w.Watched (t.terms s) (t.watching s w).reads := by
  obtain ⟨hsent, hmay, hstands, hindex, hfailures⟩ := h
  by_cases hp : w.phase = .reading
  · have hreads : (t.watching s w).reads = t.asking s (.await w.index) :: t.reads := by
      simp [watching, Watch.demand?, hp]
    have hsame : Ask.findings (t.terms s) (t.asking s (.await w.index) :: t.reads) =
        Ask.findings (t.terms s) t.reads := Ask.findings_of_none (Ask.finding?_of_unanswered rfl)
    rw [hreads]
    refine ⟨.cons hsent (hmay hp) (by rw [← hindex]; rfl) rfl, ?_, ?_, ?_⟩
    · rw [hp]
      exact .reading rfl
    · rw [hsame, hindex]
    · rw [hsame, hfailures]
  · have hreads : (t.watching s w).reads = t.reads := by
      have hnone : w.demand? = none := by
        unfold Watch.demand?
        split <;> simp_all
      simp [watching, hnone]
    rw [hreads]
    exact ⟨hsent, hstands hp, hindex, hfailures⟩

/-! ## Every event -/

/-- Where a tenure and its watch stand, as long as the lease is not given back. -/
inductive Watches (s : Service) (t : Tenure) : Prop where
  | unheld (hw : t.watch = none) (hr : t.reads = []) (ho : t.owner.isUnheld)
  | kept {w : Watch} (hw : t.watch = some w) (ho : t.owner.isKept)
      (h : w.Watched (t.terms s) t.reads)
  | past (ho : t.owner.isPast)

/-- The mark is not set while the lease is kept. -/
theorem Marked.stopped_of_isKept (h : t.Marked) (ho : t.owner.isKept) : t.stopped = false := by
  cases h with
  | sessionless _ hs _ => exact hs
  | session _ _ hs _ =>
    rw [hs]
    unfold Owner.isKept at ho
    split at ho <;> simp_all [Owner.hasGivenUp]

/-- A contest without a watch gets one when it is won. -/
theorem watches_contest (hw : t.watch = none) (hr : t.reads = []) (c : Contest) :
    (t.contest s c).Watches s := by
  cases c with
  | granted =>
    refine .kept rfl rfl ?_
    refine watched_watching (s := s) (t := t) ?_
    rw [hr]
    exact Watch.reaches_start _ _
  | _ => exact .unheld hw hr rfl

/-- Nobody holds a lease again that was given back. -/
theorem isPast_step (ho : t.owner.isPast) (e : Event) : (t.step s e).owner.isPast := by
  cases he : e.isOwners with
  | false =>
    rw [(step_of_others he).2.1]
    exact ho
  | true =>
    cases howner : t.owner with
    | yielding => cases e <;> simp_all [step, answer, Event.isOwners, Owner.isPast]
    | closing result => cases e <;> simp_all [step, answer, Event.isOwners, Owner.isPast]
    | released result => cases e <;> simp_all [step, answer, Event.isOwners, Owner.isPast]
    | deserted => cases e <;> simp_all [step, answer, Event.isOwners, Owner.isPast]
    | _ => simp [howner, Owner.isPast] at ho

/-- A lease is kept until it is given back, and what its owner does leaves the watch alone. -/
theorem kept_or_past (ho : t.owner.isKept) {e : Event} (he : e.isOwners) :
    (t.step s e).watch = t.watch ∧ ((t.step s e).owner.isPast ∨
      (t.step s e).owner.isKept ∧ (t.step s e).reads = t.reads ∧
        (t.step s e).terms s = t.terms s) := by
  cases howner : t.owner with
  | holding =>
    cases e with
    | release => exact ⟨by simp [step, howner, ask], .inl (by simp [step, howner, Owner.isPast])⟩
    | forget => simp [step, howner, Owner.isKept, terms]
    | _ => simp_all [step, answer, Event.isOwners, Owner.isKept]
  | forgotten => cases e <;> simp_all [step, answer, Event.isOwners, Owner.isKept]
  | _ => simp [howner, Owner.isKept] at ho

/-- Only its owner sets a watch up. -/
theorem unwatched_step (hw : t.watch = none) {e : Event} (he : e.isOwners = false) :
    (t.step s e).watch = none ∧ (t.step s e).reads = t.reads := by
  cases e with
  | answered d => cases he
  | rested => cases he
  | abandon => cases he
  | release => cases he
  | forget => cases he
  | renewed d =>
    simp only [step, renewalAnswer]
    split <;> exact ⟨hw, rfl⟩
  | receive => simp [step, hw]
  | watched d => simp [step, hw]
  | watchRested => simp [step, hw]
  | stopWatching =>
    simp only [step]
    split <;> simp [hw]
  | _ =>
    simp only [step]
    repeat' split
    all_goals exact ⟨hw, rfl⟩

namespace Watches

theorem owners_unheld (hw : t.watch = none) (hr : t.reads = []) (ho : t.owner.isUnheld) {e : Event}
    (he : e.isOwners) : (t.step s e).Watches s := by
  have hsame : t.Watches s := .unheld hw hr ho
  cases e with
  | answered d =>
    simp only [Tenure.step, answer]
    split
    · split
      · exact watches_contest (t := (t.heard d).opened _) hw hr _
      · exact .unheld hw hr rfl
    · split
      · exact watches_contest (t := t.heard d) hw hr _
      · exact hsame
    · exact .unheld hw hr rfl
    all_goals simp_all [Owner.isUnheld]
  | rested =>
    simp only [Tenure.step]
    split
    · split
      · exact watches_contest hw hr _
      · exact hsame
    · exact hsame
  | abandon =>
    simp only [Tenure.step]
    split <;> first | exact hsame | exact .unheld hw hr rfl
  | release =>
    simp only [Tenure.step]
    split
    · exact .past rfl
    · exact hsame
  | forget =>
    simp only [Tenure.step]
    split <;> first | exact hsame | exact .past rfl | simp_all [Owner.isUnheld]
  | _ => cases he

theorem owners (h : t.Watches s) {e : Event} (he : e.isOwners) : (t.step s e).Watches s := by
  cases h with
  | unheld hw hr ho => exact owners_unheld hw hr ho he
  | kept hw ho h =>
    obtain ⟨hwatch, hpast | ⟨ho', hreads, hterms⟩⟩ := kept_or_past (s := s) ho he
    · exact .past hpast
    · exact .kept (hwatch.trans hw) ho' (by rwa [hreads, hterms])
  | past ho => exact .past (isPast_step ho e)

/-- What the holder receives is no matter of the reads. -/
theorem received {T : Terms} {reads : List Ask} {w' : Watch} {notice : Option Notice}
    (h : w.Watched T reads) (hw : w.receive? = some (notice, w')) : w'.Watched T reads := by
  unfold Watch.receive? at hw
  split at hw
  · cases hw
    exact ⟨h.sent, h.stands, h.index, h.failures⟩
  · split at hw
    · cases hw
      exact h
    · cases hw

/-- What happens to the watch of a kept lease. -/
theorem others_kept (hm : t.Marked) (hw : t.watch = some w) (ho : t.owner.isKept)
    (h : w.Watched (t.terms s) t.reads) {e : Event} (he : e.isOwners = false) :
    ∃ w', (t.step s e).watch = some w' ∧ w'.Watched (t.terms s) (t.step s e).reads := by
  have hs := hm.stopped_of_isKept ho
  have hsame : ∃ w', t.watch = some w' ∧ w'.Watched (t.terms s) t.reads := ⟨w, hw, h⟩
  cases e with
  | watched d =>
    simp only [Tenure.step, hw]
    split
    · rename_i hp
      obtain ⟨a, earlier, hreads, hsame⟩ := h.exists_reading hp
      rw [hreads] at h hsame
      refine ⟨_, rfl, watched_watching (t := { t with reads := Ask.replied t.now d t.reads }) ?_⟩
      simp only [Watch.next, hp, hreads, Ask.replied]
      exact h.judge hsame t.now d
    · exact hsame
  | watchRested =>
    simp only [Tenure.step, hw]
    split
    · rename_i due hp
      split
      · rename_i hdue
        exact ⟨_, rfl, watched_watching (h.rested hp hdue)⟩
      · exact hsame
    · exact hsame
  | stopWatching => simpa [Tenure.step, hs] using hsame
  | receive =>
    simp only [Tenure.step, hw, Option.bind_some]
    split
    · rename_i notice w' hreceive
      exact ⟨w', rfl, received h hreceive⟩
    · exact hsame
  | answered d => cases he
  | rested => cases he
  | abandon => cases he
  | release => cases he
  | forget => cases he
  | renewed d =>
    simp only [Tenure.step, renewalAnswer]
    split <;> exact hsame
  | _ =>
    simp only [Tenure.step]
    repeat' split
    all_goals exact hsame

theorem others (h : t.Watches s) (hm : t.Marked) {e : Event} (he : e.isOwners = false) :
    (t.step s e).Watches s := by
  obtain ⟨hterms, howner, -, -⟩ := step_of_others (s := s) (t := t) he
  cases h with
  | unheld hw hr ho =>
    obtain ⟨hw', hr'⟩ := unwatched_step (s := s) hw he
    exact .unheld hw' (hr'.trans hr) (by rw [howner]; exact ho)
  | kept hw ho h =>
    obtain ⟨w', hw', h'⟩ := others_kept hm hw ho h he
    exact .kept hw' (by rw [howner]; exact ho) (by rw [hterms]; exact h')
  | past ho => exact .past (isPast_step ho e)

theorem step (h : t.Watches s) (hm : t.Marked) (e : Event) : (t.step s e).Watches s := by
  cases he : e.isOwners with
  | true => exact h.owners he
  | false => exact h.others hm he

theorem run (h : t.Watches s) (hm : t.Marked) (events : List Event) :
    (t.run s events).Watches s := by
  induction events generalizing t with
  | nil => exact h
  | cons e events ih => exact ih (h.step hm e) (hm.step e)

end Watches

/-- What the reads of a tenure showed, the last one first. -/
def findings (s : Service) (t : Tenure) : Findings := Ask.findings (t.terms s) t.reads

end Tenure

end ChangeFeed.Consul
