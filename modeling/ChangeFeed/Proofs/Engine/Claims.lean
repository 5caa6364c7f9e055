import ChangeFeed.Engine.Session
import ChangeFeed.Proofs.Allocation.Claims
import ChangeFeed.Proofs.Engine.Work

/-!
# Who publishes which task event

Any number of pieces of work publish allocations of one watcher. Each looks up a record, claims the
task events that nobody has claimed, and puts them, and these steps may come in any order.

* `claimAt?` is the claim that is made with an event, and `endedAt?` the work that ends well with it.
  `next_ledger`: nothing else moves the claims and the clock of a watcher.
* `claimed_once`: a claim selects the events past the floor and past the records of all earlier
  claims on the allocation. What the sink accepts from the work comes from this selection, and two
  claims never select one event.
-/

namespace ChangeFeed.Engine

open Allocation (Claims Decomposition recordsOf eventTime)

/-- Whether the work on a change has a record to claim, or has put everything. -/
def Publication.Phase.settles (now : Nat) : Publication.Phase → Bool
  | .lookingUp due (.ok _) => due ≤ now
  | .putting _ [] _ => true
  | _ => false

/-- Work sets out once, and the sink accepts its messages in their order. -/
theorem Publication.Accounts.eq_of_mem {p : Publication} {dues : List (List Message)}
    {sent ms : List Message} (h : p.Accounts dues sent) (hms : ms ∈ dues) :
    dues = [ms] ∧ sent <+: ms := by
  have one {all : List Message} (hd : dues = [all]) (hs : sent <+: all) :
      dues = [ms] ∧ sent <+: ms := by
    rw [hd, List.mem_singleton] at hms
    rw [hms]
    exact ⟨hd, hs⟩
  have nothing (hd : dues = []) : dues = [ms] ∧ sent <+: ms := by
    rw [hd] at hms
    cases hms
  unfold Accounts at h
  split at h
  · exact nothing h.1
  · exact nothing h.1
  · exact one h (List.prefix_append _ _)
  · exact one h List.prefix_rfl
  · rcases h with ⟨hd, -⟩ | ⟨left, hd⟩
    · exact nothing hd
    · exact one hd (List.prefix_append _ _)

namespace World

variable {w w' : World} {k : Nat} {x : Watcher}

/-! ## Claims and the clock -/

/-- The claim of some work for a watcher with an event: the number of the work, the allocation and
its record. -/
def claimAt? (w : World) (k : Nat) : Event → Option (Nat × String × Json)
  | .step now (.publication j) => do
    let p ← w.publications[j]?
    let x ← w.watchers[p.watcher]?
    match p.phase with
    | .lookingUp due (.ok record) =>
      if p.watcher = k ∧ x.role = .allocations ∧ due ≤ now then some (j, p.change.id, record)
      else none
    | _ => none
  | _ => none

/-- The work for a watcher that ends well with an event, and the newest time that it published. -/
def endedAt? (w : World) (k : Nat) : Event → Option (Nat × Option Int)
  | .step _ (.publication j) => do
    let p ← w.publications[j]?
    match p.phase with
    | .putting _ [] newest => if p.watcher = k then some (j, newest) else none
    | _ => none
  | _ => none

/-- A clock never goes back. -/
def advance (clock : Int) (newest : Option Int) : Int := (newest.map (max clock)).getD clock

theorem messages_snd_eq (x : Watcher) (id : String) (record : Json) :
    (messages x id record).2 = { x with
      claims := if x.role = .allocations then (x.claims.claim id record).2 else x.claims } := by
  unfold messages
  split <;> rfl

/-- Once a record is there, the work claims what is in it, if it is one of an allocation. -/
theorem stepPublication?_claims {now j due : Nat} {p : Publication} {record : Json}
    (hp : w.publications[j]? = some p) (hx : w.watchers[p.watcher]? = some x)
    (hph : p.phase = .lookingUp due (.ok record)) (hdue : due ≤ now)
    (h : w.stepPublication? now j = some w') :
    w'.watchers = (w.setWatcher p.watcher { x with
      claims := if x.role = .allocations then (x.claims.claim p.change.id record).2
        else x.claims }).watchers := by
  have hnow : ¬ now < due := Nat.not_lt.mpr hdue
  simp only [stepPublication?, hp, hx, Option.bind_eq_bind, Option.bind_some, hph, if_neg hnow] at h
  rw [← messages_snd_eq]
  rcases hm : messages x p.change.id record with ⟨e | ⟨ms, newest⟩, x'⟩ <;> rw [hm] at h <;>
    cases h <;> rfl

theorem stepPublication?_clock {now j : Nat} {p : Publication} {current : Option Put}
    {newest : Option Int} (hp : w.publications[j]? = some p)
    (hx : w.watchers[p.watcher]? = some x) (hph : p.phase = .putting current [] newest)
    (h : w.stepPublication? now j = some w') :
    w'.watchers = (w.setWatcher p.watcher { x with clock := advance x.clock newest }).watchers := by
  simp only [stepPublication?, hp, hx, Option.bind_eq_bind, Option.bind_some, hph] at h
  cases h
  rfl

/-- All other steps of the work on a change leave the watchers alone. -/
theorem stepPublication?_same {now j : Nat} {p : Publication} (hp : w.publications[j]? = some p)
    (hs : Publication.Phase.settles now p.phase = false)
    (h : w.stepPublication? now j = some w') : w'.watchers = w.watchers := by
  simp only [stepPublication?, hp, Option.bind_eq_bind, Option.bind_some,
    Option.bind_eq_some_iff] at h
  obtain ⟨x, hx, h⟩ := h
  cases hph : p.phase with
  | begun =>
    simp only [hph] at h
    split at h <;> cases h <;> rfl
  | lookingUp due answer =>
    simp only [hph] at h
    cases answer with
    | error e =>
      split at h <;> cases h
      rfl
    | ok record =>
      have hnow : now < due := by simpa [hph, Publication.Phase.settles] using hs
      rw [if_pos hnow] at h
      cases h
  | putting current left newest =>
    cases left with
    | nil => simp [hph, Publication.Phase.settles] at hs
    | cons m rest =>
      simp only [hph, Option.bind_eq_some_iff] at h
      obtain ⟨⟨next, w₁⟩, hput, h⟩ := h
      obtain ⟨outlets, log, rfl⟩ := stepPut?_eq hput
      rcases next with put | e | ⟨⟩ <;> cases h <;> rfl
  | ended result => simp [hph] at h

/-! ## One event -/

/-- What an event does to the claims and the clock of a watcher. -/
structure LedgerStep (w : World) (e : Event) (k : Nat) (x x' : Watcher) : Prop where
  role : x'.role = x.role
  claims : x'.claims = x.claims.after ((w.claimAt? k e).map Prod.snd).toList
  clock : x'.clock = ((w.endedAt? k e).map fun ended => advance x.clock ended.2).getD x.clock

theorem LedgerStep.rests {e : Event} (hc : w.claimAt? k e = none) (he : w.endedAt? k e = none) :
    LedgerStep w e k x x :=
  ⟨rfl, by rw [hc]; rfl, by rw [he]; rfl⟩

/-- An event at which no work settles anything makes no claim and ends no work well. -/
theorem ledger_of_settles {now j : Nat} {p : Publication} (hp : w.publications[j]? = some p)
    (hs : Publication.Phase.settles now p.phase = false) (k : Nat) :
    w.claimAt? k (.step now (.publication j)) = none ∧
      w.endedAt? k (.step now (.publication j)) = none := by
  simp only [claimAt?, endedAt?, hp, Option.bind_eq_bind, Option.bind_some]
  cases hph : p.phase with
  | begun => exact ⟨by cases w.watchers[p.watcher]? <;> rfl, rfl⟩
  | lookingUp due answer =>
    refine ⟨?_, rfl⟩
    cases w.watchers[p.watcher]? with
    | none => rfl
    | some x =>
      cases answer with
      | error e => rfl
      | ok record =>
        have hnow : ¬ due ≤ now := by simpa [hph, Publication.Phase.settles] using hs
        simp [hnow]
  | putting current left newest =>
    cases left with
    | nil => simp [hph, Publication.Phase.settles] at hs
    | cons m rest => exact ⟨by cases w.watchers[p.watcher]? <;> rfl, rfl⟩
  | ended result => exact ⟨by cases w.watchers[p.watcher]? <;> rfl, rfl⟩

theorem exists_stepPublication? {now j : Nat} {p : Publication}
    (hp : w.publications[j]? = some p) (hx : w.watchers[p.watcher]? = some x)
    (hs : Publication.Phase.settles now p.phase = true) :
    ∃ w', w.stepPublication? now j = some w' := by
  simp only [stepPublication?, hp, hx, Option.bind_eq_bind, Option.bind_some]
  cases hph : p.phase with
  | begun => simp [hph, Publication.Phase.settles] at hs
  | lookingUp due answer =>
    cases answer with
    | error e => simp [hph, Publication.Phase.settles] at hs
    | ok record =>
      have hnow : ¬ now < due := by
        simp only [hph, Publication.Phase.settles, decide_eq_true_eq] at hs
        omega
      simp only [if_neg hnow]
      rcases messages x p.change.id record with ⟨e | ⟨ms, newest⟩, x'⟩
      · exact ⟨_, rfl⟩
      · exact ⟨_, rfl⟩
  | putting current left newest =>
    cases left with
    | nil => exact ⟨_, rfl⟩
    | cons m rest => simp [hph, Publication.Phase.settles] at hs
  | ended result => simp [hph, Publication.Phase.settles] at hs

theorem ledgerStep_publication (now : Nat) {j : Nat} {p : Publication} (hp : w.publications[j]? = some p)
    (hx : w.watchers[p.watcher]? = some x) :
    ∃ x', (w.next (.step now (.publication j))).watchers = (w.setWatcher p.watcher x').watchers ∧
      LedgerStep w (.step now (.publication j)) p.watcher x x' := by
  have hnext : w.next (.step now (.publication j)) = (w.stepPublication? now j).getD w := rfl
  cases hs : Publication.Phase.settles now p.phase with
  | false =>
    obtain ⟨hc, he⟩ := ledger_of_settles hp hs p.watcher
    have hsame : (w.next (.step now (.publication j))).watchers = w.watchers := by
      rw [hnext]
      cases h : w.stepPublication? now j with
      | none => rfl
      | some w' => exact stepPublication?_same hp hs h
    exact ⟨x, by rw [hsame, setWatcher_self hx], .rests hc he⟩
  | true =>
    obtain ⟨w', h⟩ := exists_stepPublication? hp hx hs
    rw [hnext, h, Option.getD_some]
    match hph : p.phase with
    | .lookingUp due (.ok record) =>
      have hdue : due ≤ now := by simpa [hph, Publication.Phase.settles] using hs
      have he : w.endedAt? p.watcher (.step now (.publication j)) = none := by
        simp [endedAt?, hp, hph]
      have hc : w.claimAt? p.watcher (.step now (.publication j)) =
          if x.role = .allocations then some (j, p.change.id, record) else none := by
        simp [claimAt?, hp, hx, hph, hdue]
      refine ⟨_, stepPublication?_claims hp hx hph hdue h, rfl, ?_, by rw [he]; rfl⟩
      rw [hc]
      by_cases hr : x.role = .allocations
      · rw [if_pos hr, if_pos hr]
        rfl
      · rw [if_neg hr, if_neg hr]
        rfl
    | .putting current [] newest =>
      have hc : w.claimAt? p.watcher (.step now (.publication j)) = none := by
        simp [claimAt?, hp, hx, hph]
      have he : w.endedAt? p.watcher (.step now (.publication j)) = some (j, newest) := by
        simp [endedAt?, hp, hph]
      exact ⟨_, stepPublication?_clock hp hx hph h, rfl, by rw [hc]; rfl, by rw [he]; rfl⟩
    | .begun => simp [hph, Publication.Phase.settles] at hs
    | .lookingUp due (.error e) => simp [hph, Publication.Phase.settles] at hs
    | .putting current (m :: rest) newest => simp [hph, Publication.Phase.settles] at hs
    | .ended result => simp [hph, Publication.Phase.settles] at hs

/-- The other tasks and everybody outside leave the claims and the clock alone. -/
theorem ledgerStep_of_move {e : Event} {x' : Watcher} {answer? : Option (Except Error Page)}
    (hm : Watcher.Move w e k x answer? x') (he : ∀ now j, e ≠ .step now (.publication j)) :
    LedgerStep w e k x x' := by
  have hc : w.claimAt? k e = none := by
    cases e with
    | act a => rfl
    | step now task =>
      cases task with
      | publication j => exact absurd rfl (he now j)
      | _ => rfl
  have hn : w.endedAt? k e = none := by
    cases e with
    | act a => rfl
    | step now task =>
      cases task with
      | publication j => exact absurd rfl (he now j)
      | _ => rfl
  have hsame : x'.role = x.role ∧ x'.claims = x.claims ∧ x'.clock = x.clock := by
    cases hm with
    | publishes claims clock hp =>
      obtain ⟨now, j, rfl⟩ := hp
      exact absurd rfl (he now j)
    | _ => exact ⟨rfl, rfl, rfl⟩
  exact ⟨hsame.1, by rw [hc]; exact hsame.2.1, by rw [hn]; exact hsame.2.2⟩

theorem next_ledger (e : Event) (hx : w.watchers[k]? = some x) :
    ∃ x', (w.next e).watchers[k]? = some x' ∧ LedgerStep w e k x x' := by
  by_cases he : ∃ now j, e = .step now (.publication j)
  · obtain ⟨now, j, rfl⟩ := he
    have hnext : w.next (.step now (.publication j)) = (w.stepPublication? now j).getD w := rfl
    -- without the work or its watcher nothing happens
    have nothing (hs : w.stepPublication? now j = none)
        (hc : w.claimAt? k (.step now (.publication j)) = none)
        (hn : w.endedAt? k (.step now (.publication j)) = none) :
        ∃ x', (w.next (.step now (.publication j))).watchers[k]? = some x' ∧
          LedgerStep w (.step now (.publication j)) k x x' := by
      refine ⟨x, ?_, .rests hc hn⟩
      rw [hnext, hs, Option.getD_none, hx]
    cases hp : w.publications[j]? with
    | none =>
      exact nothing (by simp [stepPublication?, hp]) (by simp [claimAt?, hp])
        (by simp [endedAt?, hp])
    | some p =>
      cases hy : w.watchers[p.watcher]? with
      | none =>
        have hne : p.watcher ≠ k := by
          intro heq
          rw [heq, hx] at hy
          cases hy
        refine nothing (by simp [stepPublication?, hp, hy]) (by simp [claimAt?, hp, hy]) ?_
        simp only [endedAt?, hp, Option.bind_eq_bind, Option.bind_some, if_neg hne]
        split <;> rfl
      | some y =>
        obtain ⟨y', hw, hl⟩ := ledgerStep_publication now hp hy
        rw [hw]
        by_cases hk : p.watcher = k
        · subst hk
          rw [hx] at hy
          cases hy
          exact ⟨y', getElem?_setWatcher_self hx y', hl⟩
        · refine ⟨x, (getElem?_setWatcher_of_ne hk y').trans hx, .rests ?_ ?_⟩
          · simp only [claimAt?, hp, hy, Option.bind_eq_bind, Option.bind_some, hk, false_and,
              if_false]
            split <;> rfl
          · simp only [endedAt?, hp, Option.bind_eq_bind, Option.bind_some, if_neg hk]
            split <;> rfl
  · obtain ⟨x', hx', hm⟩ := next_watcher e hx
    exact ⟨x', hx', ledgerStep_of_move hm fun now j heq => he ⟨now, j, heq⟩⟩

/-! ## Runs -/

/-- The claims of the work for a watcher during some events. -/
def claims (w : World) (k : Nat) : List Event → List (Nat × String × Json)
  | [] => []
  | e :: events => (w.claimAt? k e).toList ++ (w.next e).claims k events

/-- The work for a watcher that ends well during some events. -/
def ended (w : World) (k : Nat) : List Event → List (Nat × Option Int)
  | [] => []
  | e :: events => (w.endedAt? k e).toList ++ (w.next e).ended k events

/-- The well-formed records of an allocation that were claimed during some events. -/
def claimed (w : World) (k : Nat) (id : String) (events : List Event) : List Allocation :=
  recordsOf id ((w.claims k events).map Prod.snd)

theorem claims_append (w : World) (k : Nat) (events more : List Event) :
    w.claims k (events ++ more) = w.claims k events ++ (w.after events).claims k more := by
  induction events generalizing w with
  | nil => rfl
  | cons e rest ih => simp only [List.cons_append, claims, ih, after_cons, List.append_assoc]

theorem due_append (w : World) (j : Nat) (events more : List Event) :
    w.due j (events ++ more) = w.due j events ++ (w.after events).due j more := by
  induction events generalizing w with
  | nil => rfl
  | cons e rest ih => simp only [List.cons_append, due, ih, after_cons, List.append_assoc]

theorem ledger_after (hx : w.watchers[k]? = some x) (events : List Event) :
    ∃ x', (w.after events).watchers[k]? = some x' ∧ x'.role = x.role ∧
      x'.claims = x.claims.after ((w.claims k events).map Prod.snd) ∧
      x'.clock = (w.ended k events).foldl (fun clock ended => advance clock ended.2) x.clock := by
  induction events generalizing w x with
  | nil => exact ⟨x, hx, rfl, rfl, rfl⟩
  | cons e rest ih =>
    obtain ⟨x₁, hx₁, hstep⟩ := next_ledger e hx
    obtain ⟨x', hx', hrole, hclaims, hclock⟩ := ih hx₁
    refine ⟨x', hx', hrole.trans hstep.role, ?_, ?_⟩
    · rw [hclaims, hstep.claims, claims, List.map_append]
      cases w.claimAt? k e with
      | none => rfl
      | some claim => rfl
    · rw [hclock, hstep.clock, ended, List.foldl_append]
      cases w.endedAt? k e with
      | none => rfl
      | some ended => rfl

/-! ## The work behind a claim -/

theorem claimAt?_spec {e : Event} {j : Nat} {id : String} {record : Json}
    (h : w.claimAt? k e = some (j, id, record)) :
    ∃ now p x due, e = .step now (.publication j) ∧ w.publications[j]? = some p ∧
      w.watchers[k]? = some x ∧ p.watcher = k ∧ p.change.id = id ∧
      p.phase = .lookingUp due (.ok record) ∧ x.role = .allocations ∧ due ≤ now := by
  cases e with
  | act a => cases h
  | step now task =>
    cases task with
    | publication i =>
      simp only [claimAt?, Option.bind_eq_bind, Option.bind_eq_some_iff] at h
      obtain ⟨p, hp, x, hx, h⟩ := h
      split at h
      · rename_i due record' hph
        split at h
        · rename_i hc
          cases h
          exact ⟨now, p, x, due, rfl, hp, hc.1 ▸ hx, hc.1, rfl, hph, hc.2.1, hc.2.2⟩
        · cases h
      · cases h
    | _ => cases h

/-- The work sets out to put what it has claimed. -/
theorem dueAt?_of_claimAt? {e : Event} {j : Nat} {id : String} {record : Json}
    {d : Decomposition} (hx : w.watchers[k]? = some x)
    (h : w.claimAt? k e = some (j, id, record)) (hd : (x.claims.claim id record).1 = .ok d) :
    w.dueAt? j e = some (d.updates.map fun u => ⟨some id, u.document.payload⟩) := by
  obtain ⟨now, p, y, due, rfl, hp, hy, hk, rfl, hph, hrole, hdue⟩ := claimAt?_spec h
  rw [hx] at hy
  cases hy
  have hnow : ¬ now < due := Nat.not_lt.mpr hdue
  rw [dueAt?, if_pos rfl, due?_eq now hp (hk.symm ▸ hx), hph]
  simp only [if_neg hnow, messages, if_pos hrole, hd]
  rfl

theorem publication_after {j : Nat} {p : Publication} (hp : w.publications[j]? = some p)
    (events : List Event) :
    ∃ p', (w.after events).publications[j]? = some p' ∧ p'.watcher = p.watcher ∧
      p'.change = p.change := by
  induction events generalizing w p with
  | nil => exact ⟨p, hp, rfl, rfl⟩
  | cons e rest ih =>
    obtain ⟨p₁, hp₁, hm⟩ := next_publication e hp
    obtain ⟨p', hp', hw, hc⟩ := ih hp₁
    exact ⟨p', hp', hw.trans hm.owner.1, hc.trans hm.owner.2⟩

/-- No work for a watcher has come to its messages. -/
def Unsettled (w : World) (k : Nat) : Prop :=
  ∀ (j : Nat) (p : Publication), w.publications[j]? = some p → p.watcher = k →
    p.phase.isEarly = true

theorem unsettled_of_all (h : w.publications.toList.all (·.phase.isEarly) = true) :
    w.Unsettled k := by
  intro j p hp _
  have hmem : p ∈ w.publications.toList := Array.mem_toList_iff.mpr (Array.mem_of_getElem? hp)
  exact List.all_eq_true.mp h p hmem

/-- All messages of the work for a watcher are accounted for. -/
theorem Unsettled.accounts (h : w.Unsettled k) {events : List Event} {j : Nat} {p : Publication}
    (hp : (w.after events).publications[j]? = some p) (hk : p.watcher = k) :
    p.Accounts (w.due j events) (w.accepted j events) := by
  cases hj : w.publications[j]? with
  | none => exact accounts_after hj hp
  | some p₀ =>
    obtain ⟨p₁, hp₁, howner, -⟩ := publication_after hj events
    rw [hp] at hp₁
    cases hp₁
    have hearly := h j p₀ hj (howner.symm.trans hk)
    have hnone : p₀.Accounts [] [] := by
      unfold Publication.Accounts
      cases hph : p₀.phase with
      | begun => exact ⟨rfl, rfl⟩
      | lookingUp due answer => exact ⟨rfl, rfl⟩
      | putting current left newest => simp [hph, Publication.Phase.isEarly] at hearly
      | ended result => simp [hph, Publication.Phase.isEarly] at hearly
    obtain ⟨p', hp', haccounts⟩ := accounts_after_of_some hj hnone events
    rw [hp] at hp'
    cases hp'
    exact haccounts

def messagesOf (id : String) (updates : List Allocation.Update) : List Message :=
  updates.map fun u => ⟨some id, u.document.payload⟩

/-- A claim during a run, and what the work behind it puts in all of the run. -/
theorem Unsettled.due_of_claim (h : w.Unsettled k) {earlier : List Event} {e : Event}
    {j : Nat} {id : String} {record : Json} {ms : List Message}
    (hclaim : (w.after earlier).claimAt? k e = some (j, id, record))
    (hdue : (w.after earlier).dueAt? j e = some ms) (later : List Event) :
    w.due j (earlier ++ e :: later) = [ms] ∧ w.accepted j (earlier ++ e :: later) <+: ms := by
  obtain ⟨-, p, -, -, -, hp, -, hk, -⟩ := claimAt?_spec hclaim
  obtain ⟨p', hp', howner, -⟩ := publication_after hp (e :: later)
  rw [← after_append] at hp'
  have haccounts := h.accounts hp' (howner.trans hk)
  refine haccounts.eq_of_mem ?_
  rw [due_append, due, hdue]
  simp

theorem mem_claimed {earlier : List Event} {e : Event} {j : Nat} {id : String} {record : Json}
    {a : Allocation} (hclaim : (w.after earlier).claimAt? k e = some (j, id, record))
    (ha : Allocation.read record = .ok a) (middle : List Event) :
    a ∈ w.claimed k id (earlier ++ e :: middle) := by
  have hmem : (id, record) ∈ (w.claims k (earlier ++ e :: middle)).map Prod.snd := by
    rw [claims_append, claims, hclaim]
    simp
  refine List.mem_filterMap.mpr ⟨(id, record), hmem, ?_⟩
  simp [ha, Except.toOption]

/-- Work claims once. -/
theorem Unsettled.ne_of_claims (h : w.Unsettled k) {earlier middle : List Event} {e e' : Event}
    {j j' : Nat} {id : String} {record : Json} {ms ms' : List Message}
    (hclaim : (w.after earlier).claimAt? k e = some (j, id, record))
    (hdue : (w.after earlier).dueAt? j e = some ms)
    (hdue' : (w.after (earlier ++ e :: middle)).dueAt? j' e' = some ms') : j' ≠ j := by
  rintro rfl
  have hone := (h.due_of_claim hclaim hdue (middle ++ [e'])).1
  have htwo : w.due j' (earlier ++ e :: (middle ++ [e'])) =
      w.due j' (earlier ++ e :: middle) ++ [ms'] := by
    rw [← List.cons_append, ← List.append_assoc, due_append]
    simp [due, hdue']
  have hfirst := (h.due_of_claim hclaim hdue middle).1
  rw [htwo, hfirst] at hone
  simp at hone

theorem dueAt?_of_claim {floor : Option Int} (hx : w.watchers[k]? = some x)
    (hfloor : x.claims = ⟨floor, []⟩) {events : List Event} {e : Event} {j : Nat} {id : String}
    {record : Json} {d : Decomposition}
    (hclaim : (w.after events).claimAt? k e = some (j, id, record))
    (hd : ((Claims.after ⟨floor, []⟩ ((w.claims k events).map Prod.snd)).claim id record).1 =
      .ok d) :
    (w.after events).dueAt? j e = some (messagesOf id d.updates) := by
  obtain ⟨x', hx', -, hclaims, -⟩ := ledger_after hx events
  rw [hfloor] at hclaims
  exact dueAt?_of_claimAt? hx' hclaim (hclaims ▸ hd)

/-- Whatever the order of lookups, claims and puts, a claim on an allocation that goes on selects
exactly the task events past the floor and past all records that were claimed before. The sink
accepts nothing else from the work, and no later claim selects one of these events. -/
theorem claimed_once {floor : Option Int} (hx : w.watchers[k]? = some x)
    (hfloor : x.claims = ⟨floor, []⟩) (hu : w.Unsettled k) {earlier : List Event} {e : Event}
    {j : Nat} {id : String} {record : Json} {a : Allocation}
    (hclaim : (w.after earlier).claimAt? k e = some (j, id, record))
    (ha : Allocation.read record = .ok a)
    (hlive : ∀ b ∈ w.claimed k id earlier, b.isTerminal = false) :
    let ms := messagesOf id (a.updatesFor (a.unclaimed floor (w.claimed k id earlier)))
    (w.after earlier).dueAt? j e = some ms ∧
    (∀ later, w.accepted j (earlier ++ e :: later) <+: ms) ∧
    ∀ middle e' j' record' a',
      (w.after (earlier ++ e :: middle)).claimAt? k e' = some (j', id, record') →
      Allocation.read record' = .ok a' → j' ≠ j ∧
      ∀ event ∈ a.events,
        ∀ event' ∈ a'.unclaimed floor (w.claimed k id (earlier ++ e :: middle)),
          eventTime event.2 < eventTime event'.2 := by
  intro ms
  have hdue : (w.after earlier).dueAt? j e = some ms :=
    dueAt?_of_claim hx hfloor hclaim (Claims.claim_after hlive ha)
  refine ⟨hdue, fun later => (hu.due_of_claim hclaim hdue later).2, ?_⟩
  intro middle e' j' record' a' hclaim' ha'
  have hdue' := dueAt?_of_claim hx hfloor hclaim' (Claims.claim_of_read ha')
  refine ⟨hu.ne_of_claims hclaim hdue hdue', fun event hevent event' hevent' => ?_⟩
  exact Allocation.eventTime_lt_of_mem_unclaimed hevent hevent' (mem_claimed hclaim ha middle)

/-! ## Two lookups of one allocation -/

/-- A task event that says only when it happened. -/
def taskEvent (time : Nat) : Json := .object [("Time", .natural time)]

def recordWith (events : List Json) : Json :=
  .object [("TaskStates", .object [("main", .object [("Events", .array events)])])]

def taskWith (events : List Json) : Allocation.Task :=
  { Allocation.Task.blank with events := some events }

def allocationWith (events : List Json) : Allocation :=
  { Allocation.blank with tasks := some [("main", taskWith events)] }

theorem read_recordWith (events : List Json) :
    Allocation.read (recordWith events) = .ok (allocationWith events) := rfl

/-- Two pieces of work look up one allocation; the one that began later is answered first, with the
older record. -/
def twoLookups : World := { World.empty with
  outlets := #[recordingOutlet]
  watchers := #[.publisher .allocations 0 5]
  publications := #[
    ⟨0, ⟨"a", 1, .null⟩, .lookingUp 100 (.ok (recordWith [taskEvent 10, taskEvent 20]))⟩,
    ⟨0, ⟨"a", 2, .null⟩, .lookingUp 0 (.ok (recordWith [taskEvent 10]))⟩] }

/-- The second claim leaves out the event of the first one. -/
theorem claimed_once_of_two_lookups :
    let first := Event.step 0 (.publication 1)
    let second := Event.step 100 (.publication 0)
    let events := [taskEvent 10, taskEvent 20]
    twoLookups.claimed 0 "a" [first] = [allocationWith [taskEvent 10]] ∧
      (twoLookups.after [first]).claimAt? 0 second = some (0, "a", recordWith events) ∧
      (twoLookups.after [first]).dueAt? 0 second = some (messagesOf "a"
        [⟨allocationWith events, some (("main", taskWith events), taskEvent 20)⟩]) := by
  intro first second events
  have hclaimed : twoLookups.claimed 0 "a" [first] = [allocationWith [taskEvent 10]] := rfl
  have hclaim : (twoLookups.after [first]).claimAt? 0 second = some (0, "a", recordWith events) :=
    rfl
  have hlive : ∀ b ∈ twoLookups.claimed 0 "a" [first], b.isTerminal = false := by
    rw [hclaimed]
    intro b hb
    rw [List.mem_singleton.mp hb]
    rfl
  obtain ⟨hdue, -⟩ := claimed_once (x := .publisher .allocations 0 5) rfl rfl (unsettled_of_all rfl)
    hclaim (read_recordWith events) hlive
  exact ⟨hclaimed, hclaim, hdue⟩

end World

end ChangeFeed.Engine
