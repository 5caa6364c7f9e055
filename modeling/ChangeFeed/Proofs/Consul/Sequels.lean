import ChangeFeed.Consul.Tenure

/-!
# What an owner asks for next

The owner of a tenure asks for one thing after the other, and each ask is settled by the reply to the
one before it: `Follows` says how, in terms of where the contest stands after that reply. The lemmas
`Follows.after_claim`, `after_read` and so on read it by what the ask before was for.
-/

namespace ChangeFeed.Consul

/-- What a tenure is about once its session was created. -/
structure Terms where
  service : Service
  key : String
  name : String
  ttl : Duration
  session : String

def Tenure.terms (s : Service) (t : Tenure) : Terms := ⟨s, t.key, t.name, t.ttl, t.session⟩

/-! ## Contests -/

/-- Where a contest stands while a demand of it is on its way. -/
def Demand.stage? : Demand → Option Contest
  | .claim _ => some .claiming
  | .look => some .looking
  | .await index => some (.waiting index)
  | .create | .renew _ | .yield _ | .destroy _ => none

/-- The index that a read asks past. -/
def Demand.index? : Demand → Option Nat
  | .look => some 0
  | .await index => some index
  | _ => none

namespace Contest

variable {s : Service} {key session : String} {now index : Nat} {c : Contest} {d : Http.Delivery}

theorem stage?_of_demand? {demand : Demand} (h : c.demand? session = some demand) :
    demand.stage? = some c := by
  cases c <;> simp only [demand?, Option.some.injEq, reduceCtorEq] at h <;> subst h <;> rfl

/-- The index that the read on its way asks past. -/
def index? : Contest → Option Nat
  | .looking => some 0
  | .waiting index => some index
  | _ => none

theorem exists_stage_of_index? {demand : Demand} (h : demand.index? = some index) :
    ∃ c, demand.stage? = some c ∧ c.index? = some index := by
  cases demand <;> simp_all [Demand.index?, Demand.stage?, index?]

theorem index?_of_stage? {demand : Demand} (h : demand.stage? = some c) :
    demand.index? = c.index? := by
  cases demand <;> simp only [Demand.stage?, Option.some.injEq, reduceCtorEq] at h <;> subst h <;> rfl

theorem next_of_index? (h : c.index? = some index) : c.next s key session now d =
    match s.read key index d with
    | .ok holding =>
      if holding.isFree then
        if c = .looking then .pausing (now + claimPause.nanos) else .claiming
      else .waiting holding.index
    | .error failure => .failed failure := by
  cases c <;> simp only [index?, Option.some.injEq, reduceCtorEq] at h <;> subst h <;> rfl

/-- Only a claim is granted. -/
theorem next_eq_granted_iff : c.next s key session now d = .granted ↔
    c = .granted ∨ c = .claiming ∧ s.claimed key session d = .ok true := by
  cases c <;> simp only [next, reduceCtorEq, false_or, or_false, true_and, false_and]
  case claiming => split <;> simp_all
  case looking => repeat' split <;> simp
  case waiting => repeat' split <;> simp

/-- A contest that waits for an answer comes to a pause only by it. -/
theorem due_of_next {demand : Demand} {due : Nat} (hc : c.demand? session = some demand)
    (h : c.next s key session now d = .pausing due) : due = now + claimPause.nanos := by
  cases c with
  | claiming =>
    simp only [next] at h
    split at h <;> cases h
  | looking =>
    simp only [next] at h
    repeat' split at h
    all_goals cases h
    rfl
  | waiting index =>
    simp only [next] at h
    repeat' split at h
    all_goals cases h
  | _ => cases hc

/-- A contest fails by the failure of its request. -/
theorem next_eq_failed_iff {f : Http.Failure} : c.next s key session now d = .failed f ↔
    c = .failed f ∨ c = .claiming ∧ s.claimed key session d = .error f ∨
      ∃ index, c.index? = some index ∧ s.read key index d = .error f := by
  cases hi : c.index? with
  | some index =>
    have hother : c ≠ .failed f ∧ c ≠ .claiming := by cases c <;> simp_all [index?]
    rw [next_of_index? hi]
    split
    · split
      · split <;> simp_all
      · simp_all
    · simp_all
  | none =>
    cases c with
    | claiming =>
      simp only [next]
      split <;> simp_all
    | looking => cases hi
    | waiting index => cases hi
    | _ => simp [next]

end Contest

namespace Ask

variable {T : Terms} {a : Ask} {c : Contest}

/-- Where the contest stands after the reply to an ask of it. -/
def outcome? (T : Terms) (a : Ask) : Option Contest :=
  match a.demand.stage?, a.reply with
  | some c, some r => some (c.next T.service T.key T.session r.time r.delivery)
  | _, _ => none

theorem outcome?_eq_some_iff : a.outcome? T = some c ↔
    ∃ stage r, a.demand.stage? = some stage ∧ a.reply = some r ∧
      stage.next T.service T.key T.session r.time r.delivery = c := by
  unfold outcome?
  cases a.demand.stage? <;> cases a.reply <;> simp

end Ask

/-- Where the contest may come to at a time, if an ask was the last one of the owner. -/
inductive Leads (T : Terms) (a : Ask) (now : Nat) : Contest → Prop where
  | opened {r : Reply} (hd : a.demand = .create) (hr : a.reply = some r)
      (ho : T.service.opened T.name T.ttl r.delivery = .ok T.session) : Leads T a now .claiming
  | replied {c : Contest} (ho : a.outcome? T = some c) : Leads T a now c
  | rested {due : Nat} (ho : a.outcome? T = some (.pausing due)) (hdue : due ≤ now) :
      Leads T a now .claiming

/-- Whether an ask of the owner may come next after another. -/
inductive Follows (T : Terms) (a b : Ask) : Prop where
  | contests {c : Contest} (h : Leads T a b.time c) (hd : c.demand? T.session = some b.demand)
  | yields (ho : a.outcome? T = some .granted) (hd : b.demand = .yield T.session)
  | withdraws {f : Http.Failure} (ho : a.outcome? T = some (.failed f))
      (hd : b.demand = .destroy T.session)
  | closes {r : Reply} (ha : a.demand = .yield T.session) (hr : a.reply = some r)
      (hd : b.demand = .destroy T.session)

namespace Follows

variable {T : Terms} {a b : Ask} {session : String} {index : Nat}

/-- The reply to an ask does not matter to what it follows. -/
theorem reply {r : Option Reply} (h : Follows T a b) : Follows T a { b with reply := r } := by
  cases h with
  | contests h hd => exact .contests h hd
  | yields ho hd => exact .yields ho hd
  | withdraws ho hd => exact .withdraws ho hd
  | closes ha hr hd => exact .closes ha hr hd

/-- What follows a request that is not of a contest. -/
theorem after_other (h : Follows T a b) (ha : a.demand.stage? = none) :
    ∃ r, a.reply = some r ∧
      ((a.demand = .create ∧ T.service.opened T.name T.ttl r.delivery = .ok T.session ∧
          b.demand = .claim T.session) ∨
        (a.demand = .yield T.session ∧ b.demand = .destroy T.session)) := by
  have hno : a.outcome? T = none := by simp [Ask.outcome?, ha]
  cases h with
  | contests h hd =>
    cases h with
    | opened ha' hr ho =>
      exact ⟨_, hr, .inl ⟨ha', ho, by simpa [Contest.demand?, eq_comm] using hd⟩⟩
    | replied ho => simp [hno] at ho
    | rested ho _ => simp [hno] at ho
  | yields ho _ => simp [hno] at ho
  | withdraws ho _ => simp [hno] at ho
  | closes ha' hr hd => exact ⟨_, hr, .inr ⟨ha', hd⟩⟩

/-- The session of a claim is that of the tenure. -/
theorem session_of_claim (h : Follows T a b) (hb : b.demand = .claim session) :
    session = T.session := by
  cases h with
  | @contests c h hd => cases c <;> simp_all [Contest.demand?]
  | yields ho hd => simp [hb] at hd
  | withdraws ho hd => simp [hb] at hd
  | closes ha hr hd => simp [hb] at hd

theorem after_create (h : Follows T a b) (ha : a.demand = .create) :
    ∃ r, a.reply = some r ∧ T.service.opened T.name T.ttl r.delivery = .ok T.session ∧
      b.demand = .claim T.session := by
  obtain ⟨r, hr, ⟨-, ho, hb⟩ | ⟨ha', -⟩⟩ := h.after_other (by rw [ha]; rfl)
  · exact ⟨r, hr, ho, hb⟩
  · simp [ha] at ha'

theorem after_yield (h : Follows T a b) (ha : a.demand = .yield session) :
    b.demand = .destroy T.session := by
  obtain ⟨r, hr, ⟨ha', -⟩ | ⟨-, hb⟩⟩ := h.after_other (by rw [ha]; rfl)
  · simp [ha] at ha'
  · exact hb

theorem after_destroy (ha : a.demand = .destroy session) : ¬ Follows T a b := by
  intro h
  obtain ⟨r, hr, ⟨ha', -⟩ | ⟨ha', -⟩⟩ := h.after_other (by rw [ha]; rfl)
  · simp [ha] at ha'
  · simp [ha] at ha'

/-- What follows the reply to a request of a contest. -/
theorem after_stage {stage : Contest} (h : Follows T a b) (ha : a.demand.stage? = some stage) :
    ∃ r, a.reply = some r ∧
      match stage.next T.service T.key T.session r.time r.delivery with
      | .granted => b.demand = .yield T.session
      | .failed _ => b.demand = .destroy T.session
      | .pausing due => b.demand = .claim T.session ∧ due ≤ b.time
      | c => c.demand? T.session = some b.demand := by
  have hout {c : Contest} (ho : a.outcome? T = some c) :
      ∃ r, a.reply = some r ∧ stage.next T.service T.key T.session r.time r.delivery = c := by
    obtain ⟨stage', r, hstage', hr, hc⟩ := Ask.outcome?_eq_some_iff.mp ho
    rw [ha] at hstage'
    cases hstage'
    exact ⟨r, hr, hc⟩
  cases h with
  | @contests c h hd =>
    cases h with
    | opened ha' _ _ => simp [ha', Demand.stage?] at ha
    | replied ho =>
      obtain ⟨r, hr, hc⟩ := hout ho
      refine ⟨r, hr, ?_⟩
      rw [hc]
      cases c with
      | pausing due => cases hd
      | granted => cases hd
      | failed f => cases hd
      | _ => exact hd
    | rested ho hdue =>
      obtain ⟨r, hr, hc⟩ := hout ho
      refine ⟨r, hr, ?_⟩
      rw [hc]
      exact ⟨by simpa [Contest.demand?, eq_comm] using hd, hdue⟩
  | yields ho hd =>
    obtain ⟨r, hr, hc⟩ := hout ho
    exact ⟨r, hr, by rw [hc]; exact hd⟩
  | withdraws ho hd =>
    obtain ⟨r, hr, hc⟩ := hout ho
    exact ⟨r, hr, by rw [hc]; exact hd⟩
  | closes ha' _ _ => simp [ha', Demand.stage?] at ha

theorem after_claim (h : Follows T a b) (ha : a.demand = .claim session) :
    ∃ r, a.reply = some r ∧
      match T.service.claimed T.key T.session r.delivery with
      | .ok true => b.demand = .yield T.session
      | .ok false => b.demand = .look
      | .error _ => b.demand = .destroy T.session := by
  have hstage : a.demand.stage? = some .claiming := by rw [ha]; rfl
  obtain ⟨r, hr, h⟩ := h.after_stage hstage
  refine ⟨r, hr, ?_⟩
  simp only [Contest.next] at h
  split <;> rename_i hc <;> simp only [hc, Contest.demand?, Option.some.injEq] at h
  · exact h
  · exact h.symm
  · exact h

/-- After a read of a held key comes one past its index, after one of a free key comes a claim. -/
theorem after_read (h : Follows T a b) (ha : a.demand.index? = some index) :
    ∃ r, a.reply = some r ∧
      match T.service.read T.key index r.delivery with
      | .ok holding =>
        if holding.isFree then
          b.demand = .claim T.session ∧ (a.demand = .look → r.time + claimPause.nanos ≤ b.time)
        else b.demand = .await holding.index
      | .error _ => b.demand = .destroy T.session := by
  obtain ⟨stage, hstage, hindex⟩ := Contest.exists_stage_of_index? ha
  obtain ⟨r, hr, h⟩ := h.after_stage hstage
  refine ⟨r, hr, ?_⟩
  rw [Contest.next_of_index? hindex] at h
  split <;> rename_i hc <;> simp only [hc] at h
  · split <;> rename_i hfree <;> simp only [hfree, Bool.false_eq_true, ↓reduceIte] at h
    · by_cases hlooking : stage = .looking
      · rw [if_pos hlooking] at h
        exact ⟨h.1, fun _ => h.2⟩
      · rw [if_neg hlooking] at h
        refine ⟨by simpa [Contest.demand?, eq_comm] using h, fun hlook => ?_⟩
        rw [hlook] at hstage
        exact absurd (Option.some.inj hstage).symm hlooking
    · simpa [Contest.demand?, eq_comm] using h
  · exact h

end Follows

end ChangeFeed.Consul
