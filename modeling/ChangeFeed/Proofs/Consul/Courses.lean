import ChangeFeed.Proofs.Consul.Sequels
import Mathlib.Data.List.Chain

/-!
# The course of what an owner asks for

Read along its asks, a tenure is a chain that starts with the creation of the session and in which
each ask follows the one before it; and where the owner stands is settled by the last ask: `Stands`
says how. `Tenure.Sound` puts both together. `Sound.step` is one event, `Sound.run` are several, and
`sound_start` is the start.
-/

namespace ChangeFeed.Consul

/-- What an owner may have asked for, the last ask first. -/
structure Course (T : Terms) (asks : List Ask) : Prop where
  chain : asks.IsChain fun b a => Follows T a b
  /-- The first ask is for a session. -/
  begins : ∃ later first, asks = later ++ [first] ∧ first.demand = .create
  wired : ∀ a ∈ asks, a.request = a.demand.request T.service T.key T.name T.ttl

namespace Course

variable {T : Terms} {a b : Ask} {asks : List Ask} {r : Option Reply}

theorem cons (h : Course T (a :: asks)) (hab : Follows T a b)
    (hb : b.request = b.demand.request T.service T.key T.name T.ttl) :
    Course T (b :: a :: asks) where
  chain := .cons_cons hab h.chain
  begins := by
    obtain ⟨later, first, hasks, hfirst⟩ := h.begins
    exact ⟨b :: later, first, by rw [hasks, List.cons_append], hfirst⟩
  wired := List.forall_mem_cons.mpr ⟨hb, h.wired⟩

theorem single (hd : a.demand = .create)
    (hw : a.request = a.demand.request T.service T.key T.name T.ttl) : Course T [a] where
  chain := .singleton _
  begins := ⟨[], a, rfl, hd⟩
  wired := List.forall_mem_singleton.mpr hw

theorem replied (h : Course T (a :: asks)) : Course T ({ a with reply := r } :: asks) where
  chain := by
    obtain ⟨hhead, htail⟩ := List.isChain_cons.mp h.chain
    exact List.isChain_cons.mpr ⟨fun x hx => (hhead x hx).reply, htail⟩
  begins := by
    obtain ⟨later, first, hasks, hfirst⟩ := h.begins
    cases later with
    | nil =>
      obtain ⟨rfl, rfl⟩ : a = first ∧ asks = [] := by simpa using hasks
      exact ⟨[], _, rfl, hfirst⟩
    | cons x later =>
      obtain ⟨-, rfl⟩ : a = x ∧ asks = later ++ [first] := by simpa using hasks
      exact ⟨_ :: later, first, rfl, hfirst⟩
  wired := by
    obtain ⟨ha, hasks⟩ := List.forall_mem_cons.mp h.wired
    exact List.forall_mem_cons.mpr ⟨ha, hasks⟩

end Course

/-! ## Where an owner stands -/

/-- Whether an owner can give the acquisition up. -/
def Owner.isAcquiring : Owner → Bool
  | .opening | .contesting _ | .withdrawing _ => true
  | _ => false

/-- Whether an owner is giving the key back. -/
def Owner.isReleasing : Owner → Bool
  | .yielding | .closing _ => true
  | _ => false

/-- What the asks of an owner say about where it stands. -/
inductive Stands (T : Terms) : Owner → List Ask → Prop where
  | opening {a : Ask} (hd : a.demand = .create) (hr : a.reply = none) : Stands T .opening [a]
  | unopened {a : Ask} {r : Reply} {reason : String} (hd : a.demand = .create)
      (hr : a.reply = some r) (ho : T.service.opened T.name T.ttl r.delivery = .error reason) :
      Stands T (.refused (.session T.name reason)) [a]
  | contesting {a : Ask} {asks : List Ask} {c : Contest}
      (hd : c.demand? T.session = some a.demand) (hr : a.reply = none) :
      Stands T (.contesting c) (a :: asks)
  | pausing {a : Ask} {asks : List Ask} {due : Nat} (ho : a.outcome? T = some (.pausing due)) :
      Stands T (.contesting (.pausing due)) (a :: asks)
  | withdrawing {a b : Ask} {asks : List Ask} {f : Http.Failure}
      (ho : a.outcome? T = some (.failed f)) (hd : b.demand = .destroy T.session)
      (hr : b.reply = none) : Stands T (.withdrawing f.text) (b :: a :: asks)
  | refused {a b : Ask} {asks : List Ask} {f : Http.Failure}
      (ho : a.outcome? T = some (.failed f)) (hd : b.demand = .destroy T.session) :
      Stands T (.refused (.acquire T.key f.text)) (b :: a :: asks)
  | abandoned {asks : List Ask} {o : Owner} (ho : o.isAcquiring) (h : Stands T o asks) :
      Stands T .abandoned asks
  | holding {a : Ask} {asks : List Ask} (ho : a.outcome? T = some .granted) :
      Stands T .holding (a :: asks)
  | yielding {a b : Ask} {asks : List Ask} (ho : a.outcome? T = some .granted)
      (hd : b.demand = .yield T.session) (hr : b.reply = none) :
      Stands T .yielding (b :: a :: asks)
  | closing {a b c : Ask} {asks : List Ask} {r : Reply} (ho : a.outcome? T = some .granted)
      (hd : b.demand = .yield T.session) (hr : b.reply = some r)
      (hd' : c.demand = .destroy T.session) (hr' : c.reply = none) :
      Stands T (.closing (T.service.yieldResult T.key T.session r.delivery)) (c :: b :: a :: asks)
  | released {a b c : Ask} {asks : List Ask} {r : Reply} (ho : a.outcome? T = some .granted)
      (hd : b.demand = .yield T.session) (hr : b.reply = some r)
      (hd' : c.demand = .destroy T.session) :
      Stands T (.released (T.service.yieldResult T.key T.session r.delivery)) (c :: b :: a :: asks)
  | deserted {asks : List Ask} {o : Owner} (ho : o.isReleasing) (h : Stands T o asks) :
      Stands T .deserted asks
  | forgotten {asks : List Ask} (h : Stands T .holding asks) : Stands T .forgotten asks

/-- Whether an event happens to the owner. -/
def Event.isOwners : Event → Bool
  | .answered _ | .rested | .abandon | .release | .forget => true
  | _ => false

namespace Tenure

variable {s : Service} {t : Tenure}

/-- The asks of the owner are a course, and it stands where they lead. -/
structure Sound (s : Service) (t : Tenure) : Prop where
  course : Course (t.terms s) t.asks
  stands : Stands (t.terms s) t.owner t.asks

theorem sound_start (s : Service) (key name : String) (ttl : Duration) :
    (start s key name ttl).Sound s where
  course := .single rfl rfl
  stands := .opening rfl rfl

/-- What does not happen to the owner leaves it, its asks and the mark as they are. -/
theorem step_of_others {e : Event} (he : e.isOwners = false) :
    (t.step s e).terms s = t.terms s ∧ (t.step s e).owner = t.owner ∧
      (t.step s e).asks = t.asks ∧ (t.step s e).stopped = t.stopped := by
  cases e with
  | answered d => cases he
  | rested => cases he
  | abandon => cases he
  | release => cases he
  | forget => cases he
  | renewed d =>
    simp only [step, renewalAnswer]
    split <;> exact ⟨rfl, rfl, rfl, rfl⟩
  | _ =>
    simp only [step]
    repeat' split
    all_goals exact ⟨rfl, rfl, rfl, rfl⟩

/-! ## What was asked for stays asked for -/

theorem demands_heard (d : Http.Delivery) :
    (t.heard d).asks.map Ask.demand = t.asks.map Ask.demand := by
  unfold heard
  cases t.asks <;> rfl

theorem demands_contest (c : Contest) :
    t.asks.map Ask.demand <:+ (t.contest s c).asks.map Ask.demand := by
  cases c <;> first | exact List.suffix_rfl | exact List.suffix_cons ..

theorem demands_step (e : Event) :
    t.asks.map Ask.demand <:+ (t.step s e).asks.map Ask.demand := by
  cases e with
  | answered d =>
    have hheard : t.asks.map Ask.demand <:+ (t.heard d).asks.map Ask.demand :=
      ⟨[], (demands_heard d).symm⟩
    simp only [step, answer]
    split
    · split
      · exact hheard.trans (demands_contest (t := (t.heard d).opened _) .claiming)
      · exact hheard
    · split
      · exact hheard.trans (demands_contest _)
      · exact List.suffix_rfl
    · exact hheard
    · exact hheard.trans (List.suffix_cons ..)
    · exact hheard
    · exact List.suffix_rfl
  | rested =>
    simp only [step]
    split
    · split
      · exact demands_contest _
      · exact List.suffix_rfl
    · exact List.suffix_rfl
  | release =>
    simp only [step]
    split
    · exact List.suffix_cons ..
    · exact List.suffix_rfl
  | abandon =>
    simp only [step]
    split <;> exact List.suffix_rfl
  | forget =>
    simp only [step]
    split <;> exact List.suffix_rfl
  | renewed d =>
    simp only [step, renewalAnswer]
    split <;> exact List.suffix_rfl
  | _ =>
    simp only [step]
    repeat' split
    all_goals exact List.suffix_rfl

namespace Sound

/-- A contest goes on from the last ask. -/
theorem contest {a : Ask} {asks : List Ask} {c : Contest} (ht : t.asks = a :: asks)
    (h : Course (t.terms s) (a :: asks)) (hc : Leads (t.terms s) a t.now c) : (t.contest s c).Sound s := by
  have hasks {demand : Demand} : t.asking s demand :: t.asks = t.asking s demand :: a :: asks := by
    rw [ht]
  -- a stage with a demand makes it, the others wait or end the contest
  have hmakes {demand : Demand} (hd : c.demand? t.session = some demand) :
      Tenure.Sound s { t.ask s demand with owner := .contesting c } :=
    { course := by
        show Course (t.terms s) (t.asking s demand :: t.asks)
        rw [hasks]
        exact h.cons (.contests hc hd) rfl
      stands := .contesting hd rfl }
  cases c with
  | claiming => exact hmakes rfl
  | looking => exact hmakes rfl
  | waiting index => exact hmakes rfl
  | pausing due =>
    cases hc with
    | replied ho =>
      refine ⟨show Course (t.terms s) t.asks from ht ▸ h, ?_⟩
      show Stands (t.terms s) _ t.asks
      rw [ht]
      exact .pausing ho
  | granted =>
    cases hc with
    | replied ho =>
      refine ⟨show Course (t.terms s) t.asks from ht ▸ h, ?_⟩
      show Stands (t.terms s) _ t.asks
      rw [ht]
      exact .holding ho
  | failed f =>
    cases hc with
    | replied ho =>
      constructor
      · show Course (t.terms s) (t.asking s (.destroy t.session) :: t.asks)
        rw [hasks]
        exact h.cons (.withdraws ho rfl) rfl
      · show Stands (t.terms s) _ (t.asking s (.destroy t.session) :: t.asks)
        rw [hasks]
        exact .withdrawing ho rfl rfl

theorem answer (h : t.Sound s) (d : Http.Delivery) : (t.answer s d).Sound s := by
  have hsame : t.Sound s := h
  obtain ⟨hcourse, hstands⟩ := h
  generalize hasks : t.asks = asks at hcourse hstands
  generalize howner : t.owner = owner at hstands
  have hheard {a : Ask} {asks : List Ask} (ht : t.asks = a :: asks) :
      (t.heard d).asks = { a with reply := some ⟨t.now, d⟩ } :: asks := by
    rw [heard, ht]
    rfl
  cases hstands with
  | opening hd hr =>
    simp only [Tenure.answer, howner]
    have hwired := hcourse.wired _ (List.mem_singleton_self _)
    cases ho : s.opened t.name t.ttl d with
    | ok session => exact contest (hheard hasks) (.single hd hwired) (.opened hd rfl ho)
    | error reason =>
      refine ⟨?_, ?_⟩
      · show Course (t.terms s) (t.heard d).asks
        rw [hheard hasks]
        exact .single hd hwired
      · show Stands (t.terms s) _ (t.heard d).asks
        rw [hheard hasks]
        exact .unopened hd rfl ho
  | @contesting a asks c hd hr =>
    have hd' : c.demand? t.session = some a.demand := hd
    simp only [Tenure.answer, howner, hd']
    refine contest (hheard hasks) hcourse.replied (.replied (Ask.outcome?_eq_some_iff.mpr ?_))
    exact ⟨c, ⟨t.now, d⟩, Contest.stage?_of_demand? hd, rfl, rfl⟩
  | withdrawing ho hd hr =>
    simp only [Tenure.answer, howner]
    refine ⟨?_, ?_⟩
    · show Course (t.terms s) (t.heard d).asks
      rw [hheard hasks]
      exact hcourse.replied
    · show Stands (t.terms s) _ (t.heard d).asks
      rw [hheard hasks]
      exact .refused ho hd
  | yielding ho hd hr =>
    simp only [Tenure.answer, howner]
    refine ⟨?_, ?_⟩
    · show Course (t.terms s) (_ :: (t.heard d).asks)
      rw [hheard hasks]
      exact hcourse.replied.cons (.closes hd rfl rfl) rfl
    · show Stands (t.terms s) _ (_ :: (t.heard d).asks)
      rw [hheard hasks]
      exact .closing (r := ⟨t.now, d⟩) ho hd rfl rfl rfl
  | closing ho hd hr hd' hr' =>
    simp only [Tenure.answer, howner]
    refine ⟨?_, ?_⟩
    · show Course (t.terms s) (t.heard d).asks
      rw [hheard hasks]
      exact hcourse.replied
    · show Stands (t.terms s) _ (t.heard d).asks
      rw [hheard hasks]
      exact .released ho hd hr hd'
  | unopened | pausing | refused | abandoned | holding | released | deserted |
    forgotten =>
    simpa only [Tenure.answer, howner, Contest.demand?] using hsame

theorem others (h : t.Sound s) {e : Event} (he : e.isOwners = false) : (t.step s e).Sound s := by
  obtain ⟨hterms, howner, hasks, -⟩ := step_of_others (s := s) (t := t) he
  constructor
  · rw [hterms, hasks]
    exact h.course
  · rw [hterms, hasks, howner]
    exact h.stands

theorem rest (h : t.Sound s) : (t.step s .rested).Sound s := by
  simp only [Tenure.step]
  split
  · rename_i due howner
    split
    · rename_i hdue
      obtain ⟨hcourse, hstands⟩ := h
      generalize hasks : t.asks = asks at hcourse hstands
      rw [howner] at hstands
      cases hstands with
      | contesting hd hr => simp [Contest.demand?] at hd
      | pausing ho => exact contest hasks hcourse (.rested ho hdue)
    · exact h
  · exact h

theorem release (h : t.Sound s) : (t.step s .release).Sound s := by
  simp only [Tenure.step]
  split
  · rename_i howner
    obtain ⟨hcourse, hstands⟩ := h
    generalize hasks : t.asks = asks at hcourse hstands
    rw [howner] at hstands
    cases hstands with
    | holding ho =>
      refine ⟨?_, ?_⟩
      · show Course (t.terms s) (_ :: t.asks)
        rw [hasks]
        exact hcourse.cons (.yields ho rfl) rfl
      · show Stands (t.terms s) _ (_ :: t.asks)
        rw [hasks]
        exact .yielding ho rfl rfl
  · exact h

theorem step (h : t.Sound s) (e : Event) : (t.step s e).Sound s := by
  cases e with
  | answered d => exact h.answer d
  | rested => exact h.rest
  | release => exact h.release
  | abandon =>
    obtain ⟨hcourse, hstands⟩ := h
    simp only [Tenure.step]
    split <;> rename_i howner
    · exact ⟨hcourse, .abandoned rfl (howner ▸ hstands)⟩
    · exact ⟨hcourse, .abandoned rfl (howner ▸ hstands)⟩
    · exact ⟨hcourse, .abandoned rfl (howner ▸ hstands)⟩
    · exact ⟨hcourse, hstands⟩
  | forget =>
    obtain ⟨hcourse, hstands⟩ := h
    simp only [Tenure.step]
    split <;> rename_i howner
    · exact ⟨hcourse, .forgotten (howner ▸ hstands)⟩
    · exact ⟨hcourse, .deserted rfl (howner ▸ hstands)⟩
    · exact ⟨hcourse, .deserted rfl (howner ▸ hstands)⟩
    · exact ⟨hcourse, hstands⟩
  | _ => exact h.others rfl

theorem run (h : t.Sound s) (events : List Event) : (t.run s events).Sound s := by
  induction events generalizing t with
  | nil => exact h
  | cons e events ih => exact ih (h.step e)

end Sound

end Tenure

end ChangeFeed.Consul
