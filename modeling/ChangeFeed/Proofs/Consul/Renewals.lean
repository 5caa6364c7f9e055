import ChangeFeed.Proofs.Consul.Courses

/-!
# Renewing a session

The renewals of a session go on by themselves: `Renews` says where they stand, by what they asked
for. They end when the mark is set or when a renewal is told that the session is gone; other failures
do not matter. `Marked` ties the mark to the owner: it is set once the owner has given up a session
that exists.

* `Tenure.Renewing` puts both together; `Renewing.step` is one event, `Renewing.run` are several.
* `Tenure.Quiet` says that no renewal will ever be sent again. `Quiet.step` keeps it, as time does
  not pass before the renewals have stopped by the mark.
-/

namespace ChangeFeed.Consul

/-- Whether the owner has given up: the acquisition failed or was abandoned, or the lease is being or
was given back. -/
def Owner.hasGivenUp : Owner → Bool
  | .withdrawing _ | .refused _ | .abandoned | .yielding | .closing _ | .released _ | .deserted =>
    true
  | .opening | .contesting _ | .holding | .forgotten => false

/-- Whether an owner has no use for a session any more. -/
def Owner.isGone : Owner → Bool
  | .refused _ | .abandoned => true
  | _ => false

/-- Whether an event happens to the renewals. -/
def Event.isRenewals : Event → Bool
  | .renew | .renewed _ | .stopRenewing => true
  | _ => false

def Event.isPass : Event → Bool
  | .pass _ => true
  | _ => false

/-- Whether a renewal was told that the session is gone. -/
def Ask.IsLost (s : Service) (session : String) (a : Ask) : Prop :=
  ∃ r response, a.reply = some r ∧
    (s.renewRequest session).exchange r.delivery = .ok response ∧ response.status = 404

theorem Service.survives_eq_false_iff {s : Service} {session : String} {d : Http.Delivery} :
    s.survives session d = false ↔
      ∃ response, (s.renewRequest session).exchange d = .ok response ∧ response.status = 404 := by
  unfold survives renewed
  cases (s.renewRequest session).exchange d <;> simp [Except.map]

theorem Ask.isLost_iff {s : Service} {session : String} {a : Ask} {r : Reply}
    (hr : a.reply = some r) : a.IsLost s session ↔ s.survives session r.delivery = false := by
  simp [IsLost, hr, Service.survives_eq_false_iff]

/-- Where the renewals of a session stand, by what they asked for, the last one first. -/
inductive Renews (s : Service) (session : String) (pause now : Nat) (stopped : Bool) :
    Renewer → List Ask → Prop where
  | absent : Renews s session pause now stopped .absent []
  | resting {due : Nat} {renewals : List Ask} (hr : ∀ a ∈ renewals, a.reply.isSome)
      (hl : ∀ a ∈ renewals, ¬ a.IsLost s session) (hdue : due ≤ now + pause) :
      Renews s session pause now stopped (.resting due) renewals
  | renewing {next : Nat} {a : Ask} {renewals : List Ask} (ha : a.reply = none)
      (hr : ∀ a ∈ renewals, a.reply.isSome) (hl : ∀ a ∈ renewals, ¬ a.IsLost s session)
      (hnext : next ≤ now + pause) :
      Renews s session pause now stopped (.renewing next) (a :: renewals)
  | ended {renewals : List Ask} (hr : ∀ a ∈ renewals, a.reply.isSome)
      (hend : stopped ∨ pause = 0 ∨ ∃ a ∈ renewals, a.IsLost s session) :
      Renews s session pause now stopped .ended renewals

namespace Renews

variable {s : Service} {session : String} {pause now now' : Nat} {stopped stopped' : Bool}
  {r : Renewer} {renewals : List Ask}

theorem mono (h : Renews s session pause now stopped r renewals) (hnow : now ≤ now')
    (hstopped : stopped → stopped') : Renews s session pause now' stopped' r renewals := by
  cases h with
  | absent => exact .absent
  | resting hr hl hdue => exact .resting hr hl (by omega)
  | renewing ha hr hl hnext => exact .renewing ha hr hl (by omega)
  | ended hr hend => exact .ended hr (hend.imp_left hstopped)

theorem renewals_eq_nil (h : Renews s session pause now stopped .absent renewals) :
    renewals = [] := by
  cases h
  rfl

/-- A renewal is on its way if the last one has no reply. -/
theorem exists_unanswered_iff (h : Renews s session pause now stopped r renewals) :
    (∃ a ∈ renewals, a.reply = none) ↔ ∃ next, r = .renewing next := by
  have hno {renewals : List Ask} (hr : ∀ a ∈ renewals, a.reply.isSome) :
      ¬ ∃ a ∈ renewals, a.reply = none := by
    rintro ⟨a, ha, hnone⟩
    simpa [hnone] using hr a ha
  cases h with
  | absent => simp
  | resting hr hl hdue => simpa using hno hr
  | renewing ha hr hl hnext => simp [ha]
  | ended hr hend => simpa using hno hr

theorem ended_of_isLost (h : Renews s session pause now stopped r renewals) {a : Ask}
    (ha : a ∈ renewals) (hl : a.IsLost s session) : r = .ended := by
  cases h with
  | absent => simp at ha
  | resting _ hno _ => exact absurd hl (hno a ha)
  | renewing hnone _ hno _ =>
    rcases List.mem_cons.mp ha with rfl | ha
    · obtain ⟨reply, -, hreply, -⟩ := hl
      simp [hnone] at hreply
    · exact absurd hl (hno a ha)
  | ended => rfl

end Renews

namespace Tenure

variable {s : Service} {t : Tenure}

/-! ## Contests leave the renewals alone -/

section

variable {c : Contest}

@[simp] theorem contest_session : (t.contest s c).session = t.session := by cases c <;> rfl

@[simp] theorem contest_ttl : (t.contest s c).ttl = t.ttl := by cases c <;> rfl

@[simp] theorem contest_now : (t.contest s c).now = t.now := by cases c <;> rfl

@[simp] theorem contest_renewer : (t.contest s c).renewer = t.renewer := by cases c <;> rfl

@[simp] theorem contest_renewals : (t.contest s c).renewals = t.renewals := by cases c <;> rfl

theorem contest_owner_ne_opening : (t.contest s c).owner ≠ .opening := by
  cases c <;> exact Owner.noConfusion

theorem contest_stopped (h : t.stopped) : (t.contest s c).stopped := by
  cases c <;> first | exact h | rfl

/-- A contest sets the mark when it fails. -/
theorem stopped_contest (h : t.stopped = false) :
    (t.contest s c).stopped = (t.contest s c).owner.hasGivenUp := by
  cases c <;> first | rfl | exact h

end

/-- What happens to the owner leaves the renewals alone, once the session exists. -/
theorem renewals_of_owners {e : Event} (he : e.isOwners) (ho : t.owner ≠ .opening) :
    (t.step s e).renewals = t.renewals ∧ (t.step s e).renewer = t.renewer ∧
      (t.step s e).session = t.session ∧ (t.step s e).ttl = t.ttl ∧ (t.step s e).now = t.now := by
  cases e with
  | answered d =>
    simp only [step, answer]
    split
    · rename_i howner
      exact absurd howner ho
    · split
      · simp [heard]
      · simp
    all_goals exact ⟨rfl, rfl, rfl, rfl, rfl⟩
  | rested =>
    simp only [step]
    split
    · split <;> simp
    · simp
  | abandon =>
    simp only [step]
    split <;> simp
  | release =>
    simp only [step]
    split <;> simp [ask]
  | forget =>
    simp only [step]
    split <;> simp
  | _ => cases he

/-- A session is created only once. -/
theorem owner_ne_opening (ho : t.owner ≠ .opening) (e : Event) : (t.step s e).owner ≠ .opening := by
  cases he : e.isOwners with
  | false =>
    rw [(step_of_others he).2.1]
    exact ho
  | true =>
    cases e with
    | answered d =>
      simp only [step, answer]
      repeat' split
      all_goals first | exact ho | exact contest_owner_ne_opening | exact Owner.noConfusion
    | rested =>
      simp only [step]
      repeat' split
      all_goals first | exact ho | exact contest_owner_ne_opening
    | abandon =>
      simp only [step]
      split <;> first | exact ho | exact Owner.noConfusion
    | release =>
      simp only [step]
      split <;> first | exact ho | exact Owner.noConfusion
    | forget =>
      simp only [step]
      split <;> first | exact ho | exact Owner.noConfusion
    | _ => cases he

/-! ## The mark -/

/-- The mark is never taken away. -/
theorem stopped_step (h : t.stopped) (e : Event) : (t.step s e).stopped := by
  cases he : e.isOwners with
  | false => rw [(step_of_others he).2.2.2, h]
  | true =>
    cases e with
    | answered d =>
      simp only [step, answer]
      repeat' split
      all_goals first | exact h | exact contest_stopped h
    | rested =>
      simp only [step]
      split
      · split
        · exact contest_stopped h
        · exact h
      · exact h
    | abandon =>
      simp only [step]
      split <;> first | exact h | rfl
    | release =>
      simp only [step]
      split <;> first | exact h | rfl
    | forget =>
      simp only [step]
      split <;> exact h
    | _ => cases he

/-- The mark is set once the owner has given up a session that exists. -/
inductive Marked (t : Tenure) : Prop where
  | sessionless (hr : t.renewer = .absent) (hs : t.stopped = false)
      (ho : t.owner = .opening ∨ t.owner.isGone)
  | session (hr : t.renewer ≠ .absent) (ho : t.owner ≠ .opening)
      (hs : t.stopped = t.owner.hasGivenUp) (hc : .claim t.session ∈ t.asks.map Ask.demand)

theorem renewer_absent_of_others {e : Event} (he : e.isOwners = false) :
    (t.step s e).renewer = .absent ↔ t.renewer = .absent := by
  cases e with
  | answered d => cases he
  | rested => cases he
  | abandon => cases he
  | release => cases he
  | forget => cases he
  | renewed d =>
    simp only [step, renewalAnswer]
    split
    · rename_i next hr
      simp only [hr, reduceCtorEq, iff_false]
      split <;> simp
    · rfl
  | renew =>
    simp only [step]
    split
    · rename_i due hr
      split <;> simp [hr]
    · rfl
  | stopRenewing =>
    simp only [step]
    split
    · rename_i due hr
      split <;> simp [hr]
    · rfl
  | _ =>
    simp only [step]
    repeat' split
    all_goals rfl

namespace Marked

theorem others (h : t.Marked) {e : Event} (he : e.isOwners = false) : (t.step s e).Marked := by
  obtain ⟨hterms, howner, hasks, hstopped⟩ := step_of_others (s := s) (t := t) he
  cases h with
  | sessionless hr hs ho =>
    exact .sessionless ((renewer_absent_of_others he).mpr hr) (by rw [hstopped, hs])
      (by rw [howner]; exact ho)
  | session hr ho hs hc =>
    refine .session (mt (renewer_absent_of_others he).mp hr) (by rw [howner]; exact ho)
      (by rw [hstopped, howner, hs]) ?_
    rw [hasks, show (t.step s e).session = t.session from congrArg Terms.session hterms]
    exact hc

/-- An owner without a session gets one or is gone. -/
theorem opening (ho : t.owner = .opening) (hr : t.renewer = .absent) (hs : t.stopped = false)
    {e : Event} (he : e.isOwners) : (t.step s e).Marked := by
  have hsame : t.Marked := .sessionless hr hs (.inl ho)
  cases e with
  | answered d =>
    simp only [Tenure.step, answer, ho]
    split
    · refine .session ?_ contest_owner_ne_opening (stopped_contest hs) (List.mem_cons_self ..)
      simp only [contest_renewer, opened, firstRenewer]
      split <;> simp
    · exact .sessionless hr hs (.inr rfl)
  | abandon =>
    simp only [Tenure.step, ho]
    exact .sessionless hr hs (.inr rfl)
  | rested => simpa only [Tenure.step, ho] using hsame
  | release => simpa only [Tenure.step, ho] using hsame
  | forget => simpa only [Tenure.step, ho] using hsame
  | _ => cases he

/-- The mark is set when the owner gives up. -/
theorem stopped_of_owners (ho : t.owner ≠ .opening) (hs : t.stopped = t.owner.hasGivenUp)
    {e : Event} (he : e.isOwners) : (t.step s e).stopped = (t.step s e).owner.hasGivenUp := by
  have hsame : t.stopped = t.owner.hasGivenUp := hs
  generalize howner : t.owner = owner at ho hs
  cases e with
  | answered d =>
    simp only [Tenure.step, answer, howner]
    cases owner with
    | opening => exact absurd rfl ho
    | contesting c =>
      simp only
      split
      · exact stopped_contest hs
      · exact hsame
    | withdrawing reason => exact hs
    | yielding => exact hs
    | closing result => exact hs
    | _ => exact hsame
  | rested =>
    simp only [Tenure.step, howner]
    split
    · split
      · exact stopped_contest hs
      · exact hsame
    · exact hsame
  | abandon =>
    simp only [Tenure.step, howner]
    cases owner with
    | opening => exact absurd rfl ho
    | contesting c => rfl
    | withdrawing reason => exact hs
    | _ => exact hsame
  | release =>
    simp only [Tenure.step, howner]
    cases owner with
    | holding => rfl
    | _ => exact hsame
  | forget =>
    simp only [Tenure.step, howner]
    cases owner with
    | holding => exact hs
    | yielding => exact hs
    | closing result => exact hs
    | _ => exact hsame
  | _ => cases he

/-- Nothing happens to an owner that is gone. -/
theorem step_of_isGone (ho : t.owner.isGone) {e : Event} (he : e.isOwners) : t.step s e = t := by
  cases e with
  | answered d => cases howner : t.owner <;> simp_all [Tenure.step, answer, Owner.isGone]
  | rested => cases howner : t.owner <;> simp_all [Tenure.step, Owner.isGone]
  | abandon => cases howner : t.owner <;> simp_all [Tenure.step, Owner.isGone]
  | release => cases howner : t.owner <;> simp_all [Tenure.step, Owner.isGone]
  | forget => cases howner : t.owner <;> simp_all [Tenure.step, Owner.isGone]
  | _ => cases he

theorem step (h : t.Marked) (e : Event) : (t.step s e).Marked := by
  cases he : e.isOwners with
  | false => exact h.others he
  | true =>
    cases h with
    | sessionless hr hs ho =>
      rcases ho with ho | ho
      · exact opening ho hr hs he
      · rw [step_of_isGone ho he]
        exact .sessionless hr hs (.inr ho)
    | session hr ho hs hc =>
      obtain ⟨-, hr', hsession, -⟩ := renewals_of_owners (s := s) he ho
      refine .session (by rw [hr']; exact hr) (owner_ne_opening ho e) (stopped_of_owners ho hs he) ?_
      rw [hsession]
      exact (demands_step e).subset hc

end Marked

/-! ## Moves of the renewals -/

theorem step_renew {due : Nat} (hr : t.renewer = .resting due) (hdue : due ≤ t.now) :
    t.step s .renew =
      { t with
        renewer := .renewing (due + t.renewalPause)
        renewals := t.asking s (.renew t.session) :: t.renewals } := by
  simp [step, hr, hdue]

theorem step_renew_of_not_due (h : ∀ due, t.renewer = .resting due → t.now < due) :
    t.step s .renew = t := by
  cases hr : t.renewer with
  | resting due =>
    have := h due hr
    simp [step, hr, Nat.not_le.mpr this]
  | _ => simp [step, hr]

theorem step_renewed {next : Nat} {d : Http.Delivery} (hr : t.renewer = .renewing next) :
    t.step s (.renewed d) =
      { t with
        renewer := if s.survives t.session d then .resting next else .ended
        renewals := Ask.replied t.now d t.renewals } := by
  simp [step, renewalAnswer, hr]

theorem step_renewed_of_not_renewing {d : Http.Delivery} (h : ∀ next, t.renewer ≠ .renewing next) :
    t.step s (.renewed d) = t := by
  cases hr : t.renewer with
  | renewing next => exact absurd hr (h next)
  | _ => simp [step, renewalAnswer, hr]

theorem step_stopRenewing {due : Nat} (hr : t.renewer = .resting due) (hs : t.stopped) :
    t.step s .stopRenewing = { t with renewer := .ended } := by
  simp [step, hr, hs]

theorem step_stopRenewing_of_not_ready (h : ∀ due, t.renewer = .resting due → t.stopped = false) :
    t.step s .stopRenewing = t := by
  cases hr : t.renewer with
  | resting due => simp [step, hr, h due hr]
  | _ => simp [step, hr]

/-- What happens to the watch leaves the renewals alone. -/
theorem renewals_of_watch {e : Event} (he : e.isOwners = false) (he' : e.isRenewals = false)
    (hpass : e.isPass = false) :
    (t.step s e).renewals = t.renewals ∧ (t.step s e).renewer = t.renewer ∧
      (t.step s e).session = t.session ∧ (t.step s e).ttl = t.ttl ∧ (t.step s e).now = t.now := by
  cases e with
  | answered d => cases he
  | rested => cases he
  | abandon => cases he
  | release => cases he
  | forget => cases he
  | renew => cases he'
  | renewed d => cases he'
  | stopRenewing => cases he'
  | pass nanos => cases hpass
  | _ =>
    simp only [step]
    repeat' split
    all_goals exact ⟨rfl, rfl, rfl, rfl, rfl⟩

/-- What does not happen to the renewals leaves them alone, unless time passes or the session is
being created. -/
theorem renewals_of_rest {e : Event} (ho : t.owner ≠ .opening) (he : e.isRenewals = false)
    (hpass : e.isPass = false) :
    (t.step s e).renewals = t.renewals ∧ (t.step s e).renewer = t.renewer ∧
      (t.step s e).session = t.session ∧ (t.step s e).ttl = t.ttl ∧ (t.step s e).now = t.now := by
  cases howners : e.isOwners with
  | true => exact renewals_of_owners howners ho
  | false => exact renewals_of_watch howners he hpass

/-! ## Every renewal -/

/-- The renewals go on for the session of the tenure, and stop by the mark of its owner. -/
structure Renewing (s : Service) (t : Tenure) : Prop where
  renews : Renews s t.session t.renewalPause t.now t.stopped t.renewer t.renewals
  own : ∀ a ∈ t.renewals, a.demand = .renew t.session
  marked : t.Marked

theorem renewing_start (s : Service) (key name : String) (ttl : Duration) :
    (start s key name ttl).Renewing s :=
  ⟨.absent, by simp [start], .sessionless rfl rfl (.inl rfl)⟩

namespace Renewing

/-- The renewals of a session start with its creation. -/
theorem answer_opening (h : t.Renewing s) (ho : t.owner = .opening) (d : Http.Delivery) :
    (t.step s (.answered d)).Renewing s := by
  have hmarked := h.marked.step (s := s) (.answered d)
  obtain ⟨hrenews, hown, hmark⟩ := h
  cases hmark with
  | sessionless hr hs _ =>
    rw [hr] at hrenews
    have hnil := hrenews.renewals_eq_nil
    refine ⟨?_, ?_, hmarked⟩
    · simp only [Tenure.step, Tenure.answer, ho]
      split
      · simp only [contest_session, contest_now, contest_renewer, contest_renewals, opened, heard,
          firstRenewer, hnil]
        split
        · rename_i hpause
          refine .ended (by simp) (.inr (.inl ?_))
          simpa [renewalPause] using hpause
        · refine .resting (by simp) (by simp) (Nat.le_of_eq ?_)
          simp [renewalPause]
      · show Renews s t.session t.renewalPause t.now t.stopped t.renewer t.renewals
        rw [hr]
        exact hrenews
    · simp only [Tenure.step, Tenure.answer, ho]
      split <;> simp [heard, opened, hnil]
  | session _ hne _ _ => exact absurd ho hne

theorem opening (h : t.Renewing s) (ho : t.owner = .opening) {e : Event} (he : e.isOwners) :
    (t.step s e).Renewing s := by
  cases e with
  | answered d => exact h.answer_opening ho d
  | abandon =>
    have hmarked := h.marked.step (s := s) .abandon
    simp only [Tenure.step, ho] at hmarked ⊢
    exact ⟨h.renews, h.own, hmarked⟩
  | rested => simpa only [Tenure.step, ho] using h
  | release => simpa only [Tenure.step, ho] using h
  | forget => simpa only [Tenure.step, ho] using h
  | _ => cases he

/-- Whatever leaves the renewals alone but for the time and the mark keeps them. -/
theorem kept (h : t.Renewing s) {e : Event} (hrenewals : (t.step s e).renewals = t.renewals)
    (hrenewer : (t.step s e).renewer = t.renewer) (hsession : (t.step s e).session = t.session)
    (httl : (t.step s e).ttl = t.ttl) (hnow : t.now ≤ (t.step s e).now) :
    (t.step s e).Renewing s := by
  refine ⟨?_, ?_, h.marked.step e⟩
  · rw [hrenewals, hrenewer, hsession, renewalPause, httl]
    exact h.renews.mono hnow fun hs => stopped_step hs e
  · rw [hrenewals, hsession]
    exact h.own

theorem pass (h : t.Renewing s) (nanos : Nat) : (t.step s (.pass nanos)).Renewing s := by
  refine h.kept ?_ ?_ ?_ ?_ ?_ <;> simp only [Tenure.step] <;> split <;> simp

theorem renew (h : t.Renewing s) : (t.step s .renew).Renewing s := by
  by_cases hready : ∃ due, t.renewer = .resting due ∧ due ≤ t.now
  · obtain ⟨due, hr, hdue⟩ := hready
    have hmarked := h.marked.step (s := s) .renew
    obtain ⟨hrenews, hown, -⟩ := h
    rw [step_renew hr hdue] at hmarked ⊢
    rw [hr] at hrenews
    cases hrenews with
    | resting hanswered hlost _ =>
      refine ⟨.renewing rfl hanswered hlost ?_, List.forall_mem_cons.mpr ⟨rfl, hown⟩, hmarked⟩
      show due + t.renewalPause ≤ t.now + t.renewalPause
      omega
  · rw [step_renew_of_not_due fun due hr => Nat.not_le.mp fun hdue => hready ⟨due, hr, hdue⟩]
    exact h

/-- A renewal that fails is like one that succeeds, unless the session is gone. -/
theorem renewed (h : t.Renewing s) (d : Http.Delivery) : (t.step s (.renewed d)).Renewing s := by
  by_cases hready : ∃ next, t.renewer = .renewing next
  · obtain ⟨next, hr⟩ := hready
    have hmarked := h.marked.step (s := s) (.renewed d)
    obtain ⟨hrenews, hown, -⟩ := h
    generalize hl : t.renewals = renewals at hrenews hown
    rw [hr] at hrenews
    rw [step_renewed hr, hl] at hmarked ⊢
    cases hrenews with
    | @renewing _ a renewals hnone hanswered hlost hnext =>
      have hall : ∀ b ∈ Ask.replied t.now d (a :: renewals), b.reply.isSome :=
        List.forall_mem_cons.mpr ⟨rfl, hanswered⟩
      refine ⟨?_, fun b hb => ?_, hmarked⟩
      · cases hgone : s.survives t.session d with
        | false =>
          refine .ended hall (.inr (.inr ⟨_, List.mem_cons_self .., ?_⟩))
          exact (Ask.isLost_iff (r := ⟨t.now, d⟩) rfl).mpr hgone
        | true =>
          refine .resting hall (List.forall_mem_cons.mpr ⟨?_, hlost⟩) hnext
          rw [Ask.isLost_iff (r := ⟨t.now, d⟩) rfl, hgone]
          exact Bool.noConfusion
      · rcases List.mem_cons.mp hb with rfl | hb
        · exact hown a (List.mem_cons_self ..)
        · exact hown b (List.mem_cons_of_mem _ hb)
  · rw [step_renewed_of_not_renewing fun next hr => hready ⟨next, hr⟩]
    exact h

theorem stopRenewing (h : t.Renewing s) : (t.step s .stopRenewing).Renewing s := by
  by_cases hready : ∃ due, t.renewer = .resting due ∧ t.stopped
  · obtain ⟨due, hr, hs⟩ := hready
    have hmarked := h.marked.step (s := s) .stopRenewing
    obtain ⟨hrenews, hown, -⟩ := h
    rw [step_stopRenewing hr hs] at hmarked ⊢
    rw [hr] at hrenews
    cases hrenews with
    | resting hanswered _ _ => exact ⟨.ended hanswered (.inl hs), hown, hmarked⟩
  · rw [step_stopRenewing_of_not_ready fun due hr => by simpa [hr] using hready]
    exact h

theorem owners (h : t.Renewing s) {e : Event} (he : e.isOwners) : (t.step s e).Renewing s := by
  by_cases ho : t.owner = .opening
  · exact h.opening ho he
  · obtain ⟨hrenewals, hrenewer, hsession, httl, hnow⟩ := renewals_of_owners (s := s) he ho
    exact h.kept hrenewals hrenewer hsession httl hnow.ge

theorem watch (h : t.Renewing s) {e : Event} (he : e.isOwners = false) (he' : e.isRenewals = false)
    (hpass : e.isPass = false) : (t.step s e).Renewing s := by
  obtain ⟨hrenewals, hrenewer, hsession, httl, hnow⟩ :=
    renewals_of_watch (s := s) (t := t) he he' hpass
  exact h.kept hrenewals hrenewer hsession httl hnow.ge

theorem step (h : t.Renewing s) (e : Event) : (t.step s e).Renewing s := by
  cases e with
  | answered d => exact h.owners rfl
  | rested => exact h.owners rfl
  | abandon => exact h.owners rfl
  | release => exact h.owners rfl
  | forget => exact h.owners rfl
  | renew => exact h.renew
  | renewed d => exact h.renewed d
  | stopRenewing => exact h.stopRenewing
  | pass nanos => exact h.pass nanos
  | _ => exact h.watch rfl rfl rfl

theorem run (h : t.Renewing s) (events : List Event) : (t.run s events).Renewing s := by
  induction events generalizing t with
  | nil => exact h
  | cons e events ih => exact ih (h.step e)

end Renewing

/-! ## No more renewals -/

/-- Whether no renewal will be sent any more: none is on its way or due, and they stop by the mark or
have ended. -/
structure Quiet (t : Tenure) : Prop where
  opened : t.owner ≠ .opening
  still : ∀ next, t.renewer ≠ .renewing next
  stops : ∀ due, t.renewer = .resting due → t.stopped ∧ t.now < due

namespace Quiet

/-- While the renewals wait to stop by the mark, time does not pass. -/
theorem pass (h : t.Quiet) (nanos : Nat) : (t.step s (.pass nanos)).Quiet := by
  simp only [Tenure.step]
  split
  · exact h
  · rename_i hready
    refine ⟨h.opened, h.still, fun due hr => ?_⟩
    have hr' : t.renewer = .resting due := hr
    simp [isReady, isRenewerReady, hr', (h.stops due hr').1] at hready

theorem stopRenewing (h : t.Quiet) : (t.step s .stopRenewing).Quiet := by
  simp only [Tenure.step]
  split
  · split
    · exact ⟨h.opened, by simp, by simp⟩
    · exact h
  · exact h

theorem rest (h : t.Quiet) {e : Event} (he : e.isRenewals = false) (hpass : e.isPass = false) :
    (t.step s e).Quiet := by
  obtain ⟨-, hrenewer, -, -, hnow⟩ := renewals_of_rest (s := s) h.opened he hpass
  refine ⟨owner_ne_opening h.opened e, fun next => ?_, fun due hdue => ?_⟩
  · rw [hrenewer]
    exact h.still next
  · rw [hrenewer] at hdue
    rw [hnow]
    exact ⟨stopped_step (h.stops due hdue).1 e, (h.stops due hdue).2⟩

theorem step (h : t.Quiet) (e : Event) :
    (t.step s e).Quiet ∧ (t.step s e).renewals = t.renewals := by
  have hrest (he : e.isRenewals = false) (hpass : e.isPass = false) :
      (t.step s e).Quiet ∧ (t.step s e).renewals = t.renewals :=
    ⟨h.rest he hpass, (renewals_of_rest h.opened he hpass).1⟩
  cases e with
  | pass nanos =>
    refine ⟨h.pass nanos, ?_⟩
    simp only [Tenure.step]
    split <;> rfl
  | renew =>
    rw [step_renew_of_not_due fun due hr => (h.stops due hr).2]
    exact ⟨h, rfl⟩
  | renewed d =>
    rw [step_renewed_of_not_renewing h.still]
    exact ⟨h, rfl⟩
  | stopRenewing =>
    refine ⟨h.stopRenewing, ?_⟩
    simp only [Tenure.step]
    split
    · split <;> rfl
    · rfl
  | _ => exact hrest rfl rfl

theorem run (h : t.Quiet) (events : List Event) :
    (t.run s events).renewals = t.renewals := by
  induction events generalizing t with
  | nil => rfl
  | cons e events ih => exact (ih (h.step e).1).trans (h.step e).2

end Quiet

end Tenure

end ChangeFeed.Consul
