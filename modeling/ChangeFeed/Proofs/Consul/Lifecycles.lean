import ChangeFeed.Proofs.Consul.Acquisitions
import ChangeFeed.Proofs.Consul.Renewals

/-!
# The life of a session

A session is created once, renewed while its owner has not given up, and ended at most once. What
all parties asked for is counted: `Tenure.KeepsLifecycle` says how often a session is created and
ended in each outcome, and when it is renewed no more. `Tenure.keepsLifecycle_run` says that every
run from the start keeps it.

An acquisition that is abandoned leaves the session to expire, but not always without a request to
end it: if the acquisition has failed before, that request is on its way already
(`not_abandoned_without_destroy`).
-/

namespace ChangeFeed.Consul

/-! ## Counting what the owner asked for -/

/-- Every ask but the last one is followed by another. -/
theorem exists_follows {T : Terms} {a b : Ask} {asks : List Ask}
    (h : (b :: asks).IsChain fun b a => Follows T a b) (ha : a ∈ asks) :
    ∃ c ∈ b :: asks, Follows T a c := by
  induction asks generalizing b with
  | nil => cases ha
  | cons x asks ih =>
    obtain ⟨hbx, htail⟩ := List.isChain_cons_cons.mp h
    rcases List.mem_cons.mp ha with rfl | ha
    · exact ⟨b, List.mem_cons_self .., hbx⟩
    · obtain ⟨c, hc, hac⟩ := ih htail ha
      exact ⟨c, List.mem_cons_of_mem _ hc, hac⟩

theorem ne_destroy_of_mem {T : Terms} {a b : Ask} {asks : List Ask} {session : String}
    (h : (b :: asks).IsChain fun b a => Follows T a b) (ha : a ∈ asks) :
    a.demand ≠ .destroy session := by
  obtain ⟨c, -, hac⟩ := exists_follows h ha
  exact fun hd => Follows.after_destroy hd hac

theorem ne_yield_of_mem {T : Terms} {a b : Ask} {asks : List Ask} {session : String}
    (h : (b :: asks).IsChain fun b a => Follows T a b) (hb : b.demand ≠ .destroy T.session)
    (ha : a ∈ asks) : a.demand ≠ .yield session := by
  intro hd
  obtain ⟨c, hc, hac⟩ := exists_follows h ha
  have hdestroy := hac.after_yield hd
  rcases List.mem_cons.mp hc with rfl | hc
  · exact hb hdestroy
  · exact ne_destroy_of_mem h hc hdestroy

namespace Follows

variable {T : Terms} {a b : Ask}

/-- Nothing but claims, reads, the end of the lease and the end of the session follow another ask. -/
theorem demand_cases (h : Follows T a b) :
    b.demand.stage?.isSome ∨ b.demand = .yield T.session ∨ b.demand = .destroy T.session := by
  cases h with
  | contests h hd => exact .inl (by rw [Contest.stage?_of_demand? hd]; rfl)
  | yields ho hd => exact .inr (.inl hd)
  | withdraws ho hd => exact .inr (.inr hd)
  | closes ha hr hd => exact .inr (.inr hd)

end Follows

namespace Course

variable {T : Terms} {a b : Ask} {asks : List Ask}

theorem demand_cases (h : Course T asks) (ha : a ∈ asks) :
    a.demand = .create ∨ a.demand.stage?.isSome ∨ a.demand = .yield T.session ∨
      a.demand = .destroy T.session :=
  (h.create_or_follows ha).imp_right fun ⟨_, hb⟩ => hb.demand_cases

theorem count_create (h : Course T asks) : asks.countP (·.demand = .create) = 1 := by
  obtain ⟨later, first, rfl, hfirst⟩ := h.begins
  have hlater : ∀ a ∈ later, ¬ a.demand = .create := by
    intro a ha hd
    obtain ⟨newer, older, rfl⟩ := List.append_of_mem ha
    have hchain := h.chain
    rw [List.append_assoc, List.cons_append] at hchain
    obtain ⟨c, older', holder⟩ : ∃ c older', older ++ [first] = c :: older' :=
      List.exists_cons_of_ne_nil (by simp)
    rw [holder] at hchain
    have hca : Follows T c a := (List.isChain_cons_cons.mp hchain.right_of_append).1
    rcases hca.demand_cases with h | h | h <;> simp [hd, Demand.stage?] at h
  rw [List.countP_append, List.countP_eq_zero.mpr (by simpa using hlater)]
  simp [hfirst]

/-- The session is ended at most once, and as the last thing. -/
theorem count_destroy (h : Course T (b :: asks)) :
    (b :: asks).countP (·.demand = .destroy T.session) =
      if b.demand = .destroy T.session then 1 else 0 := by
  have hrest : asks.countP (·.demand = .destroy T.session) = 0 :=
    List.countP_eq_zero.mpr fun a ha => by simpa using ne_destroy_of_mem h.chain ha
  rw [List.countP_cons, hrest]
  simp

/-- The key is given back once before the session is ended. -/
theorem count_yield {e y : Ask} (h : Course T (e :: y :: asks))
    (he : e.demand = .destroy T.session) (hy : y.demand = .yield T.session) :
    (e :: y :: asks).countP (·.demand = .yield T.session) = 1 := by
  have hrest : asks.countP (·.demand = .yield T.session) = 0 := by
    refine List.countP_eq_zero.mpr fun a ha => ?_
    simpa using ne_yield_of_mem h.chain.tail (by simp [hy]) ha
  rw [List.countP_cons, List.countP_cons, hrest]
  simp [he, hy]

end Course

/-! ## Counting what all parties asked for -/

namespace Tenure

variable {s : Service} {t : Tenure}

/-- The watch asks for nothing but the state of the key. -/
def OnlyReads (t : Tenure) : Prop := ∀ a ∈ t.reads, ∃ index, a.demand = .await index

namespace OnlyReads

theorem replied {asks : List Ask} {now : Nat} {d : Http.Delivery}
    (h : ∀ a ∈ asks, ∃ index, a.demand = .await index) :
    ∀ a ∈ Ask.replied now d asks, ∃ index, a.demand = .await index := by
  cases asks with
  | nil => exact h
  | cons b asks =>
    obtain ⟨hb, hasks⟩ := List.forall_mem_cons.mp h
    exact List.forall_mem_cons.mpr ⟨hb, hasks⟩

theorem watching (h : t.OnlyReads) (w : Watch) : (t.watching s w).OnlyReads := by
  intro a ha
  rcases List.mem_append.mp ha with ha | ha
  · obtain ⟨demand, hd, rfl⟩ : ∃ demand, w.demand? = some demand ∧ t.asking s demand = a := by
      simpa using ha
    unfold Watch.demand? at hd
    split at hd
    · cases hd
      exact ⟨w.index, rfl⟩
    · cases hd
  · exact h a ha

theorem contest (h : t.OnlyReads) (c : Contest) : (t.contest s c).OnlyReads := by
  cases c with
  | granted => exact h.watching .start
  | _ => exact h

theorem step (h : t.OnlyReads) (e : Event) : (t.step s e).OnlyReads := by
  cases e with
  | answered d =>
    have hheard : (t.heard d).OnlyReads := h
    simp only [Tenure.step, answer]
    split
    · split
      · exact contest (t := (t.heard d).opened _) hheard .claiming
      · exact hheard
    · split
      · exact hheard.contest _
      · exact h
    all_goals exact h
  | rested =>
    simp only [Tenure.step]
    split
    · split
      · exact h.contest _
      · exact h
    · exact h
  | watched d =>
    simp only [Tenure.step]
    split
    · split
      · exact watching (t := { t with reads := Ask.replied t.now d t.reads }) (replied h) _
      · exact h
    · exact h
  | watchRested =>
    simp only [Tenure.step]
    repeat' split
    all_goals first | exact h | exact watching h _
  | renewed d =>
    simp only [Tenure.step, renewalAnswer]
    split <;> exact h
  | _ =>
    simp only [Tenure.step]
    repeat' split
    all_goals exact h

theorem run (h : t.OnlyReads) (events : List Event) : (t.run s events).OnlyReads := by
  induction events generalizing t with
  | nil => exact h
  | cons e events ih => exact ih (h.step e)

end OnlyReads

/-- What holds of a tenure in every run from the start. -/
structure Lawful (s : Service) (t : Tenure) : Prop where
  sound : t.Sound s
  renewing : t.Renewing s
  onlyReads : t.OnlyReads

theorem lawful_run (s : Service) (key name : String) (ttl : Duration) (events : List Event) :
    ((start s key name ttl).run s events).Lawful s where
  sound := (sound_start s key name ttl).run events
  renewing := (renewing_start s key name ttl).run events
  onlyReads := OnlyReads.run (by simp [OnlyReads, start]) events

/-- All that was asked for, by any party. -/
def sent (t : Tenure) : List Ask := t.asks ++ t.renewals ++ t.reads

/-- How often something was asked for. -/
def count (t : Tenure) (demand : Demand) : Nat := t.sent.countP (·.demand = demand)

namespace Lawful

variable {demand : Demand}

/-- What is neither a renewal nor a read is asked for by the owner alone. -/
theorem count_eq (h : t.Lawful s) (hd : ∀ session, demand ≠ .renew session)
    (hd' : ∀ index, demand ≠ .await index) :
    t.count demand = t.asks.countP (·.demand = demand) := by
  have hrenewals : t.renewals.countP (·.demand = demand) = 0 := by
    refine List.countP_eq_zero.mpr fun a ha => ?_
    rw [h.renewing.own a ha]
    simpa using (hd _).symm
  have hreads : t.reads.countP (·.demand = demand) = 0 := by
    refine List.countP_eq_zero.mpr fun a ha => ?_
    obtain ⟨index, hindex⟩ := h.onlyReads a ha
    rw [hindex]
    simpa using (hd' _).symm
  simp [count, sent, List.countP_append, hrenewals, hreads]

theorem count_create (h : t.Lawful s) : t.count .create = 1 :=
  (h.count_eq (by simp) (by simp)).trans h.sound.course.count_create

theorem count_destroy {b : Ask} {asks : List Ask} (h : t.Lawful s) (hasks : t.asks = b :: asks) :
    t.count (.destroy t.session) = if b.demand = .destroy t.session then 1 else 0 := by
  rw [h.count_eq (by simp) (by simp), hasks]
  exact (hasks ▸ h.sound.course : Course (t.terms s) (b :: asks)).count_destroy

theorem count_destroy_eq_one {b : Ask} {asks : List Ask} (h : t.Lawful s)
    (hasks : t.asks = b :: asks) (hb : b.demand = .destroy t.session) :
    t.count (.destroy t.session) = 1 := by
  rw [h.count_destroy hasks, if_pos hb]

theorem count_destroy_eq_zero {b : Ask} {asks : List Ask} (h : t.Lawful s)
    (hasks : t.asks = b :: asks) (hb : b.demand ≠ .destroy t.session) :
    t.count (.destroy t.session) = 0 := by
  rw [h.count_destroy hasks, if_neg hb]

theorem renew_mem {a : Ask} {session : String} (h : t.Lawful s) (ha : a ∈ t.sent)
    (hd : a.demand = .renew session) : a ∈ t.renewals ∧ session = t.session := by
  rcases List.mem_append.mp ha with ha | ha
  · rcases List.mem_append.mp ha with ha | ha
    · rcases h.sound.course.demand_cases ha with hc | hc | hc | hc <;>
        simp [hd, Demand.stage?] at hc
    · have hown := h.renewing.own a ha
      rw [hd] at hown
      cases hown
      exact ⟨ha, rfl⟩
  · obtain ⟨index, hindex⟩ := h.onlyReads a ha
    simp [hd] at hindex

end Lawful

/-! ## Every run -/

/-- What can be read off a tenure whatever the answers were, and whatever its owner did. -/
structure KeepsLifecycle (s : Service) (t : Tenure) : Prop where
  created : t.count .create = 1
  /-- Every renewal is for the session of the tenure, -/
  own : ∀ a ∈ t.sent, ∀ session, a.demand = .renew session → a ∈ t.renewals ∧ session = t.session
  /-- which is the one that was created. -/
  born : t.renewals ≠ [] → ∃ a ∈ t.asks, a.demand = .create ∧
    ∃ r, a.reply = some r ∧ s.opened t.name t.ttl r.delivery = .ok t.session
  /-- Once the owner has given up and no renewal is on its way or due, none is sent any more. -/
  quiet : t.owner.hasGivenUp → (∀ a ∈ t.renewals, a.reply.isSome) →
    (∀ due, t.renewer = .resting due → t.now < due) →
    ∀ events, (t.run s events).renewals = t.renewals
  /-- Once a renewal was told that the session is gone, none is sent any more. -/
  lost : ∀ a ∈ t.renewals, a.IsLost s t.session →
    ∀ events, (t.run s events).renewals = t.renewals
  /-- Until then, and until the owner gives up, a renewal is on its way or the next one is due soon,
  whatever failures there were. -/
  continues : t.owner ≠ .opening → t.owner.hasGivenUp = false → 0 < t.renewalPause →
    (∀ a ∈ t.renewals, ¬ a.IsLost s t.session) →
    (∃ a ∈ t.renewals, a.reply = none) ∨
      ∃ due, t.renewer = .resting due ∧ due ≤ t.now + t.renewalPause
  /-- A renewal that is due can be sent, and time does not pass before. -/
  prompt : ∀ due, t.renewer = .resting due → due ≤ t.now →
    (t.step s .renew).renewals = t.asking s (.renew t.session) :: t.renewals ∧
      ∀ nanos, t.step s (.pass nanos) = t
  /-- An acquisition that is refused has ended its session. -/
  refused : ∀ key reason, t.acquired? = some (.error (.acquire key reason)) →
    t.count (.destroy t.session) = 1
  /-- A lease is given back by one request for the key and then one for the session; the reply to the
  first one decides. -/
  released : ∀ result, t.released? = some result →
    t.count (.yield t.session) = 1 ∧ t.count (.destroy t.session) = 1 ∧
    ∃ (ended yielded : Ask) (before : List Ask) (r : Reply), t.asks = ended :: yielded :: before ∧
      ended.demand = .destroy t.session ∧ yielded.demand = .yield t.session ∧
      yielded.reply = some r ∧
      (result = .ok () ↔ s.yielded t.key t.session r.delivery = .ok true)
  /-- Two replies complete a release, whatever they are. -/
  completes : t.owner = .holding → ∀ d d', (t.run s [.release, .answered d, .answered d']).released? =
    some (s.yieldResult t.key t.session d)
  /-- An acquisition that was abandoned asks for nothing more. -/
  abandoned : t.owner = .abandoned → ∀ events, (t.run s events).asks = t.asks
  /-- If no request of its contest has failed, it leaves the session to expire; -/
  spared : t.owner = .abandoned → (∀ a ∈ t.asks, ∀ f, ¬ a.Fails s t.key f) →
    t.count (.destroy t.session) = 0
  /-- and if one has, the session was ended at once. -/
  ended : ∀ a ∈ t.asks, ∀ f, a.Fails s t.key f → t.count (.destroy t.session) = 1

namespace Lawful

theorem owner_ne_opening (h : t.Lawful s) (hr : t.renewer ≠ .absent) : t.owner ≠ .opening := by
  cases h.renewing.marked with
  | sessionless hr' _ _ => exact absurd hr' hr
  | session _ ho _ _ => exact ho

theorem stopped_of_hasGivenUp (h : t.Lawful s) (hr : t.renewer ≠ .absent)
    (ho : t.owner.hasGivenUp) : t.stopped := by
  cases h.renewing.marked with
  | sessionless hr' _ _ => exact absurd hr' hr
  | session _ _ hs _ => rw [hs, ho]

theorem renewer_ne_absent (h : t.Lawful s) (hr : t.renewals ≠ []) : t.renewer ≠ .absent := by
  intro habsent
  have hrenews := h.renewing.renews
  rw [habsent] at hrenews
  exact hr hrenews.renewals_eq_nil

theorem born (h : t.Lawful s) (hr : t.renewals ≠ []) : ∃ a ∈ t.asks, a.demand = .create ∧
    ∃ r, a.reply = some r ∧ s.opened t.name t.ttl r.delivery = .ok t.session := by
  cases h.renewing.marked with
  | sessionless habsent _ _ => exact absurd habsent (h.renewer_ne_absent hr)
  | session _ _ _ hc =>
    obtain ⟨claim, hclaim, hd⟩ := List.mem_map.mp hc
    obtain ⟨later, first, hasks, hfirst⟩ := h.sound.course.begins
    -- the claim is not the first ask, so there is a second one
    obtain ⟨b, rest, hrest⟩ : ∃ b rest, later.reverse = b :: rest := by
      refine List.exists_cons_of_ne_nil fun hnil => ?_
      rw [hasks, List.reverse_eq_nil_iff.mp hnil] at hclaim
      obtain rfl := List.mem_singleton.mp hclaim
      simp [hd] at hfirst
    have hreverse : t.asks.reverse = first :: b :: rest := by simp [hasks, hrest]
    obtain ⟨-, -, r, hreply, ho⟩ := h.sound.opens hreverse
    exact ⟨first, by simp [hasks], hfirst, r, hreply, ho⟩

theorem quiet (h : t.Lawful s) (ho : t.owner.hasGivenUp) (hr : ∀ a ∈ t.renewals, a.reply.isSome)
    (hdue : ∀ due, t.renewer = .resting due → t.now < due) : t.Quiet where
  opened howner := by simp [howner, Owner.hasGivenUp] at ho
  still next hnext := by
    obtain ⟨a, ha, hnone⟩ := h.renewing.renews.exists_unanswered_iff.mpr ⟨next, hnext⟩
    simpa [hnone] using hr a ha
  stops due hresting := ⟨h.stopped_of_hasGivenUp (by simp [hresting]) ho, hdue due hresting⟩

theorem quiet_of_isLost {a : Ask} (h : t.Lawful s) (ha : a ∈ t.renewals)
    (hl : a.IsLost s t.session) : t.Quiet := by
  have hended := h.renewing.renews.ended_of_isLost ha hl
  exact ⟨h.owner_ne_opening (by simp [hended]), by simp [hended], by simp [hended]⟩

theorem continues (h : t.Lawful s) (ho : t.owner ≠ .opening) (hg : t.owner.hasGivenUp = false)
    (hp : 0 < t.renewalPause) (hl : ∀ a ∈ t.renewals, ¬ a.IsLost s t.session) :
    (∃ a ∈ t.renewals, a.reply = none) ∨
      ∃ due, t.renewer = .resting due ∧ due ≤ t.now + t.renewalPause := by
  have hmarked := h.renewing.marked
  have hrenews := h.renewing.renews
  generalize hrenewer : t.renewer = renewer at hrenews
  generalize t.renewals = renewals at hrenews hl ⊢
  cases hrenews with
  | absent =>
    cases hmarked with
    | sessionless _ _ hgone =>
      rcases hgone with hgone | hgone
      · exact absurd hgone ho
      · cases howner : t.owner <;> simp_all [Owner.isGone, Owner.hasGivenUp]
    | session hr _ _ _ => exact absurd hrenewer hr
  | resting _ _ hdue => exact .inr ⟨_, rfl, hdue⟩
  | renewing ha _ _ _ => exact .inl ⟨_, List.mem_cons_self .., ha⟩
  | ended _ hend =>
    rcases hend with hend | hend | ⟨a, ha, hlost⟩
    · cases hmarked with
      | sessionless hr _ _ => simp [hrenewer] at hr
      | session _ _ hs _ => simp [hs, hg] at hend
    · omega
    · exact absurd hlost (hl a ha)

theorem ended {a : Ask} {f : Http.Failure} (h : t.Lawful s) (ha : a ∈ t.asks)
    (hf : a.Fails s t.key f) : t.count (.destroy t.session) = 1 := by
  obtain ⟨before, after, hasks⟩ := List.append_of_mem (List.mem_reverse.mpr ha)
  obtain ⟨b, rfl, hb, -⟩ := h.sound.after_fails hasks hf
  have hrev : t.asks = b :: a :: before.reverse := by simpa using congrArg List.reverse hasks
  exact h.count_destroy_eq_one hrev hb

theorem refused {key reason : String} (h : t.Lawful s)
    (hr : t.acquired? = some (.error (.acquire key reason))) :
    t.count (.destroy t.session) = 1 := by
  have howner : t.owner = .refused (.acquire key reason) := by
    unfold acquired? at hr
    cases ho : t.owner <;> simp_all
  have hstands := h.sound.stands
  rw [howner] at hstands
  generalize hasks : t.asks = asks at hstands
  cases hstands with
  | refused _ hd => exact h.count_destroy_eq_one hasks hd

theorem released {result : Except Error Unit} (h : t.Lawful s) (hr : t.released? = some result) :
    t.count (.yield t.session) = 1 ∧ t.count (.destroy t.session) = 1 ∧
    ∃ (ended yielded : Ask) (before : List Ask) (r : Reply), t.asks = ended :: yielded :: before ∧
      ended.demand = .destroy t.session ∧ yielded.demand = .yield t.session ∧
      yielded.reply = some r ∧
      (result = .ok () ↔ s.yielded t.key t.session r.delivery = .ok true) := by
  have howner : t.owner = .released result := by
    unfold released? at hr
    cases ho : t.owner <;> simp_all
  have hstands := h.sound.stands
  have hcourse := h.sound.course
  rw [howner] at hstands
  generalize hasks : t.asks = asks at hstands hcourse
  cases hstands with
  | @released a y e before r _ hy hreply he =>
    refine ⟨?_, h.count_destroy_eq_one hasks he, e, y, a :: before, r, rfl, he, hy, hreply,
      Service.yieldResult_eq_ok_iff⟩
    rw [h.count_eq (by simp) (by simp), hasks]
    exact hcourse.count_yield he hy

theorem spared (h : t.Lawful s) (ho : t.owner = .abandoned)
    (hf : ∀ a ∈ t.asks, ∀ f, ¬ a.Fails s t.key f) : t.count (.destroy t.session) = 0 := by
  have hstands := h.sound.stands
  have hcourse := h.sound.course
  rw [ho] at hstands
  generalize hasks : t.asks = asks at hstands hcourse hf
  have hstage {a : Ask} {stage : Contest} (hd : a.demand.stage? = some stage) :
      a.demand ≠ .destroy t.session := by
    intro h
    simp [h, Demand.stage?] at hd
  cases hstands with
  | @abandoned _ o hacquiring hstands =>
    cases hstands with
    | opening hd _ => exact h.count_destroy_eq_zero hasks (by simp [hd])
    | contesting hd _ =>
      exact h.count_destroy_eq_zero hasks (hstage (Contest.stage?_of_demand? hd))
    | pausing ho =>
      obtain ⟨stage, -, hd, -⟩ := Ask.outcome?_eq_some_iff.mp ho
      exact h.count_destroy_eq_zero hasks (hstage hd)
    | withdrawing hfailed _ _ =>
      have := (hcourse.outcome?_eq_failed_iff (by simp)).mp hfailed
      exact absurd this (hf _ (by simp) _)
    | _ => cases hacquiring

end Lawful

/-- Nothing more is asked for by an owner that is gone. -/
theorem asks_of_isGone (ho : t.owner.isGone) (events : List Event) :
    (t.run s events).asks = t.asks := by
  induction events generalizing t with
  | nil => rfl
  | cons e events ih =>
    have hstep : (t.step s e).owner = t.owner ∧ (t.step s e).asks = t.asks := by
      cases he : e.isOwners with
      | true => simp [Marked.step_of_isGone ho he]
      | false => exact ⟨(step_of_others he).2.1, (step_of_others he).2.2.1⟩
    exact (ih (by rw [hstep.1]; exact ho)).trans hstep.2

theorem Lawful.keepsLifecycle (h : t.Lawful s) : t.KeepsLifecycle s where
  created := h.count_create
  own _ ha _ hd := h.renew_mem ha hd
  born := h.born
  quiet ho hr hdue := (h.quiet ho hr hdue).run
  lost _ ha hl := (h.quiet_of_isLost ha hl).run
  continues := h.continues
  prompt due hr hdue := by
    refine ⟨by rw [step_renew hr hdue], fun nanos => ?_⟩
    simp [step, isReady, isRenewerReady, hr, hdue]
  refused _ _ := h.refused
  released _ := h.released
  completes ho d d' := by
    simp [run, step, answer, ho, released?, ask, heard]
  abandoned ho := asks_of_isGone (by rw [ho]; rfl)
  spared := h.spared
  ended _ ha _ := h.ended ha

/-- Whatever Consul answers and whenever its owner gives up, a session has one life. -/
theorem keepsLifecycle_run (s : Service) (key name : String) (ttl : Duration)
    (events : List Event) : ((start s key name ttl).run s events).KeepsLifecycle s :=
  (lawful_run s key name ttl events).keepsLifecycle

/-- An acquisition that is abandoned while its session is being ended: the session is created, the
claim is lost, and then nobody waits any more. -/
def abandonedWhileEnding : Tenure :=
  (start .loopback "k" "n" (.ofSeconds 15)).run .loopback
    [.answered (.answered (okay "\x7b\"ID\":\"a\"\x7d")), .answered .lost, .abandon]

/-- It is not so that an abandoned acquisition never asks for the end of its session. -/
theorem not_abandoned_without_destroy :
    ¬ ∀ (s : Service) (key name : String) (ttl : Duration) (events : List Event),
      ((start s key name ttl).run s events).owner = .abandoned →
        ((start s key name ttl).run s events).count
          (.destroy ((start s key name ttl).run s events).session) = 0 := by
  intro h
  have howner : abandonedWhileEnding.owner.isGone = true ∧
      abandonedWhileEnding.acquired?.isNone = true := by decide +kernel
  have habandoned : abandonedWhileEnding.owner = .abandoned := by
    unfold acquired? at howner
    cases ho : abandonedWhileEnding.owner <;> simp_all [Owner.isGone]
  have hnone : abandonedWhileEnding.count (.destroy abandonedWhileEnding.session) = 0 :=
    h .loopback _ _ _ _ habandoned
  have hone : abandonedWhileEnding.count (.destroy abandonedWhileEnding.session) = 1 := by
    decide +kernel
  omega

end Tenure

end ChangeFeed.Consul
