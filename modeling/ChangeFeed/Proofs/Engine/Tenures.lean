import Mathlib.Data.List.Nodup
import Mathlib.Logic.Function.Basic
import ChangeFeed.Proofs.Engine.Checkpoints
import ChangeFeed.Proofs.Engine.Coverage
import ChangeFeed.Proofs.Engine.Revocations

/-!
# One lease, one watcher

A manager is granted a lease, runs a watcher under it, stops the watcher and gives the lease back,
on every way out of a term.

* `leaseCalls` are the grants and the releases of a run. `turns_leaseCalls`: for each manager they
  take turns, and a release is of the lease that was granted last. `Ledger`: no lease is granted
  twice or given back twice.
* `Tended`: from its start until it is stopped, a watcher is the one of its manager's term.
* `single_watcher_under_lease` puts together what follows for every run of a system with a lock
  table.
-/

namespace ChangeFeed.Engine

/-! ## Steps of a manager -/

namespace Manager

/-- Whether a manager is at the last writes of a term. -/
def Phase.isLast : Manager.Phase → Bool
  | .saving _ _ last | .savingTime _ last => last
  | _ => false

/-- Whether a phase goes on with a term, short of its last writes. -/
def Phase.GoesOn (phase : Manager.Phase) (term : Term) : Prop :=
  ∃ term', phase.term? = some term' ∧ term'.watcher = term.watcher ∧ term'.held = term.held ∧
    phase.isLast = false

variable {w : World} {i : Nat} {m : Manager} {phase : Manager.Phase} {locks : Locks}
  {store : Checkpoint.Flaky} {watchers : Array Watcher}

theorem Phase.held?_of_term? {term : Term} (h : phase.term? = some term) :
    phase.held? = some term.held := by
  cases phase <;> cases h <;> rfl

/-- A manager keeps its lease until it gives it back. -/
theorem Move.keeps_held (hm : Move w i m phase locks store watchers) {held : Held}
    (hh : m.phase.held? = some held) :
    phase.held? = some held ∨ ∃ outcome, m.phase = .releasing held outcome := by
  have rests {before : Manager.Phase} (hph : m.phase = before) (heq : before.held? = phase.held?) :
      phase.held? = some held ∨ ∃ outcome, m.phase = .releasing held outcome := by
    rw [hph, heq] at hh
    exact Or.inl hh
  cases hm with
  | idles _ _ h h' hl =>
    rw [h] at hh
    cases hh
  | obtains held' _ h hs hk hg =>
    rw [h] at hh
    cases hh
  | restores held' delay watermark hph hr => exact rests hph rfl
  | completes held' delay watermark watermark? hph hr => exact rests hph rfl
  | backsOff held' delay due watermark? hph => exact rests hph rfl
  | triesAgain held' delay due next hph => exact rests hph rfl
  | gives held' outcome h ht =>
    rw [h] at hh
    exact Or.inl hh
  | leads held' watermark time x hph hx => exact rests hph rfl
  | reads _ hs hl => exact Or.inl hh
  | hears term x watermark rest _ hph hx hq hp =>
    rcases hp with ⟨rfl, -⟩ | rfl <;> exact rests hph rfl
  | halts term outcome x hph hx => exact rests hph rfl
  | saves term watermark last hph hs => exact rests hph rfl
  | savesNot term watermark last hph hs => exact rests hph rfl
  | savesTime term last time _ hph hs => cases last <;> exact rests hph rfl
  | finishes term outcome seen x result hph hx hhalt => cases outcome <;> exact rests hph rfl
  | releases held' outcome _ hph hl =>
    rw [hph] at hh
    cases hh
    exact Or.inr ⟨outcome, hph⟩

/-- A manager stays in a term, short of its last writes, until the watcher is stopped. -/
theorem Move.tends (hm : Move w i m phase locks store watchers) {term : Term}
    (ht : m.phase.term? = some term) (hlast : m.phase.isLast = false) :
    phase.GoesOn term ∨ ∃ result, w.HasStopped term.watcher result := by
  -- in a phase without a term there is nothing to show
  have none {before : Manager.Phase} {P : Prop} (hph : m.phase = before)
      (hn : before.term? = none) : P := by
    rw [hph, hn] at ht
    cases ht
  have stays {before : Manager.Phase} {term' : Term} (hph : m.phase = before)
      (heq : before.term? = some term') {term'' : Term} (hp : phase.term? = some term'')
      (hw : term''.watcher = term'.watcher) (hh : term''.held = term'.held)
      (hl : phase.isLast = false) :
      phase.GoesOn term ∨ ∃ result, w.HasStopped term.watcher result := by
    rw [hph, heq] at ht
    cases ht
    exact Or.inl ⟨term'', hp, hw, hh, hl⟩
  cases hm with
  | idles _ _ h h' hl =>
    rw [Phase.held?_of_term? ht] at h
    cases h
  | obtains held _ h hs hk hg =>
    rw [Phase.held?_of_term? ht] at h
    cases h
  | restores held delay watermark hph hr => exact none hph rfl
  | completes held delay watermark watermark? hph hr => exact none hph rfl
  | backsOff held delay due watermark? hph => exact none hph rfl
  | triesAgain held delay due next hph => exact none hph rfl
  | gives held outcome h hno => exact none rfl hno
  | leads held watermark time x hph hx => exact none hph rfl
  | reads _ hs hl => exact stays rfl ht ht rfl rfl hlast
  | hears term' x watermark rest _ hph hx hq hp =>
    rcases hp with ⟨rfl, -⟩ | rfl
    · exact stays hph rfl rfl rfl rfl rfl
    · exact stays hph rfl rfl rfl rfl rfl
  | halts term' outcome x hph hx => exact stays hph rfl rfl rfl rfl rfl
  | saves term' watermark last hph hs =>
    rw [hph] at hlast
    exact stays hph rfl rfl rfl rfl hlast
  | savesNot term' watermark last hph hs =>
    rw [hph] at hlast
    exact stays hph rfl rfl rfl rfl hlast
  | savesTime term' last time _ hph hs =>
    rw [hph] at hlast
    change last = false at hlast
    subst hlast
    exact stays hph rfl rfl rfl rfl rfl
  | finishes term' outcome seen x result hph hx hhalt =>
    rw [hph] at ht
    cases ht
    exact Or.inr ⟨result, x, hx, hhalt⟩
  | releases held outcome _ hph hl => exact none hph rfl

end Manager

/-! ## Grants and releases -/

theorem Leases.Apart.ne {l : Leases} {a b : Held} (h : l.Apart a b) : a ≠ b := by
  rintro rfl
  cases l <;> exact h rfl

/-- A lease that is granted to a manager, or given back by it. -/
structure LeaseCall where
  manager : Nat
  held : Held
  isRelease : Bool
  deriving DecidableEq, Inhabited

/-- Whether calls lead from the leases that managers have to those that they have afterwards. A
lease is granted to a manager that has none, and a manager gives back the lease that it has. -/
inductive Turns : (Nat → Option Held) → List LeaseCall → (Nat → Option Held) → Prop where
  | nil (leases : Nat → Option Held) : Turns leases [] leases
  | granted {leases leases' : Nat → Option Held} {calls : List LeaseCall} {i : Nat} {held : Held}
      (h : leases i = none) (hc : Turns (Function.update leases i (some held)) calls leases') :
      Turns leases (⟨i, held, false⟩ :: calls) leases'
  | released {leases leases' : Nat → Option Held} {calls : List LeaseCall} {i : Nat} {held : Held}
      (h : leases i = some held) (hc : Turns (Function.update leases i none) calls leases') :
      Turns leases (⟨i, held, true⟩ :: calls) leases'

theorem Turns.append {a b c : Nat → Option Held} {calls more : List LeaseCall}
    (h : Turns a calls b) (h' : Turns b more c) : Turns a (calls ++ more) c := by
  induction h with
  | nil leases => exact h'
  | granted hn hc ih => exact .granted hn (ih h')
  | released hs hc ih => exact .released hs (ih h')

/-- A lease that a manager had or was granted was given back, or the manager has it still. -/
theorem Turns.mem_or_eq {leases leases' : Nat → Option Held} {calls : List LeaseCall}
    (h : Turns leases calls leases') {i : Nat} {held : Held}
    (hs : leases i = some held ∨ ⟨i, held, false⟩ ∈ calls) :
    ⟨i, held, true⟩ ∈ calls ∨ leases' i = some held := by
  induction h with
  | nil leases => exact Or.inr (hs.resolve_right (by simp))
  | @granted leases leases' calls j held' hn hc ih =>
    refine (ih ?_).imp_left (List.mem_cons_of_mem _)
    by_cases hij : i = j
    · subst hij
      rcases hs with hs | hmem
      · rw [hn] at hs
        cases hs
      · rcases List.mem_cons.mp hmem with heq | hmem
        · cases heq
          exact Or.inl (Function.update_self ..)
        · exact Or.inr hmem
    · rcases hs with hs | hmem
      · exact Or.inl (by rw [Function.update_of_ne hij, hs])
      · exact Or.inr ((List.mem_cons.mp hmem).resolve_left (by simp [hij]))
  | @released leases leases' calls j held' hh hc ih =>
    rcases hs with hs | hmem
    · by_cases hij : i = j
      · subst hij
        rw [hh] at hs
        cases hs
        exact Or.inl List.mem_cons_self
      · refine (ih (Or.inl ?_)).imp_left (List.mem_cons_of_mem _)
        rw [Function.update_of_ne hij, hs]
    · refine (ih (Or.inr ?_)).imp_left (List.mem_cons_of_mem _)
      exact (List.mem_cons.mp hmem).resolve_left (by simp)

namespace World

/-- The lease that a manager is granted or gives back with an event. -/
def leaseCallAt? (w : World) : Event → Option LeaseCall
  | .step now (.manager i) =>
    match w.managers[i]? with
    | none => none
    | some m =>
      match m.phase with
      | .releasing held _ => some ⟨i, held, true⟩
      | _ =>
        match w.heldBy i, (w.next (.step now (.manager i))).heldBy i with
        | none, some held => some ⟨i, held, false⟩
        | _, _ => none
  | _ => none

/-- The leases that managers are granted or give back during some events, in order. -/
def leaseCalls (w : World) : List Event → List LeaseCall
  | [] => []
  | e :: events => (w.leaseCallAt? e).toList ++ (w.next e).leaseCalls events

variable {w : World} {e : Event} {call : LeaseCall} {calls : List LeaseCall}

theorem leaseCallAt?_cases (h : w.leaseCallAt? e = some call) :
    ∃ now m, e = .step now (.manager call.manager) ∧ w.managers[call.manager]? = some m ∧
      (call.isRelease = true ∧ (∃ outcome, m.phase = .releasing call.held outcome) ∨
        call.isRelease = false ∧ w.heldBy call.manager = none ∧
          (w.next e).heldBy call.manager = some call.held) := by
  unfold leaseCallAt? at h
  split at h
  · rename_i now i
    split at h
    · cases h
    · rename_i m hm
      split at h
      · rename_i held outcome hph
        cases h
        exact ⟨now, m, rfl, hm, Or.inl ⟨rfl, outcome, hph⟩⟩
      · split at h
        · rename_i held hn hs
          cases h
          exact ⟨now, m, rfl, hm, Or.inr ⟨rfl, hn, hs⟩⟩
        · cases h
  · cases h

/-- Nothing but a step of a manager changes the lease that it has. -/
theorem heldBy_next_of_ne {i : Nat} (he : ∀ now, e ≠ .step now (.manager i)) :
    (w.next e).heldBy i = w.heldBy i := by
  have h := next_spec w e
  generalize w.next e = w' at h ⊢
  have same (hr : w'.rule = w.rule) : w'.heldBy i = w.heldBy i := by
    rw [heldBy, heldBy, managers_eq_of_rule hr]
  cases h with
  | rests e w' hw hr => exact same hr
  | loop now k x x' w' hx h => exact same h.rule
  | watcher now k task htask x x' w' hx hw hr => exact same hr
  | publication now j p p' x w' hp hx h => exact same h.rule
  | manager now j m phase w' hm h =>
    obtain ⟨nextTick, hms⟩ := h.managers
    have hji : j ≠ i := fun hji => he now (by rw [hji])
    rw [heldBy, heldBy, hms, Array.getElem?_setIfInBounds_ne hji]
  | act a w' h =>
    cases hm : w.managers[i]? with
    | some m =>
      obtain ⟨isShutdown, hm', -⟩ := h.manager i m hm
      simp [heldBy, hm, hm']
    | none =>
      cases hm' : w'.managers[i]? with
      | none => simp [heldBy, hm, hm']
      | some m' =>
        have hph := h.newcomer i m' hm' (Array.getElem?_eq_none_iff.mp hm)
        simp [heldBy, hm, hm', hph, Manager.Phase.held?]

/-- A manager that has a lease has it after an event, unless it gave it back. -/
theorem heldBy_next_of_some {i : Nat} {held : Held} (h : w.heldBy i = some held) :
    (w.next e).heldBy i = some held ∨ ∃ now m outcome, e = .step now (.manager i) ∧
      w.managers[i]? = some m ∧ m.phase = .releasing held outcome := by
  by_cases he : ∃ now, e = .step now (.manager i)
  · obtain ⟨now, rfl⟩ := he
    obtain ⟨m, hm, hh⟩ := heldBy_eq_some_iff.mp h
    cases hs : w.stepManager? now i with
    | none => exact Or.inl (by simpa [World.next, step?, hs] using h)
    | some w' =>
      obtain ⟨m₁, phase, hm₁, hstep⟩ := stepManager?_spec hs
      rw [hm] at hm₁
      cases hm₁
      obtain ⟨nextTick, hms⟩ := hstep.managers
      have hi : i < w.managers.size := (Array.getElem?_eq_some_iff.mp hm).1
      have hnext : w.next (.step now (.manager i)) = w' := by simp [World.next, step?, hs]
      rcases hstep.move.keeps_held hh with hkeep | ⟨outcome, hph⟩
      · left
        rw [hnext, heldBy, hms, Array.getElem?_setIfInBounds_self_of_lt hi]
        exact hkeep
      · exact Or.inr ⟨now, m, outcome, rfl, hm, hph⟩
  · left
    rw [heldBy_next_of_ne fun now h => he ⟨now, h⟩, h]

/-- A step of a manager gives its lease back, or is a grant to it, or leaves it as it is. -/
theorem leaseCallAt?_step (w : World) (now i : Nat) :
    let e : Event := .step now (.manager i)
    (∃ held, w.leaseCallAt? e = some ⟨i, held, true⟩ ∧ w.heldBy i = some held ∧
        (w.next e).heldBy i = none) ∨
      (∃ held, w.leaseCallAt? e = some ⟨i, held, false⟩ ∧ w.heldBy i = none ∧
        (w.next e).heldBy i = some held) ∨
      w.leaseCallAt? e = none ∧ (w.next e).heldBy i = w.heldBy i := by
  intro e
  cases hm : w.managers[i]? with
  | none =>
    have hstep : w.next e = w := by simp [e, World.next, step?, stepManager?, hm]
    exact Or.inr (Or.inr ⟨by simp [e, leaseCallAt?, hm], by rw [hstep]⟩)
  | some m =>
    by_cases hrel : ∃ held outcome, m.phase = .releasing held outcome
    · obtain ⟨held, outcome, hph⟩ := hrel
      refine Or.inl ⟨held, by simp [e, leaseCallAt?, hm, hph], ?_, (next_of_releasing now hm hph).1⟩
      exact heldBy_eq_some_iff.mpr ⟨m, hm, by rw [hph]; rfl⟩
    · right
      have hcall : w.leaseCallAt? e =
          match w.heldBy i, (w.next e).heldBy i with
          | none, some held => some ⟨i, held, false⟩
          | _, _ => none := by
        simp only [e, leaseCallAt?, hm]
        split
        · rename_i held outcome hph
          exact absurd ⟨held, outcome, hph⟩ hrel
        · rfl
      cases hh : w.heldBy i with
      | some held =>
        rcases heldBy_next_of_some hh with hkeep | ⟨now', m₁, outcome, -, hm₁, hph⟩
        · exact Or.inr ⟨by rw [hcall, hh], hkeep⟩
        · rw [hm] at hm₁
          cases hm₁
          exact absurd ⟨held, outcome, hph⟩ hrel
      | none =>
        cases hh' : (w.next e).heldBy i with
        | none => exact Or.inr ⟨by rw [hcall, hh, hh'], rfl⟩
        | some held => exact Or.inl ⟨held, by rw [hcall, hh, hh'], rfl, rfl⟩

theorem turns_leaseCallAt? (w : World) (e : Event) :
    Turns w.heldBy (w.leaseCallAt? e).toList (w.next e).heldBy := by
  by_cases hman : ∃ now i, e = .step now (.manager i)
  · obtain ⟨now, i, rfl⟩ := hman
    -- what the manager has is replaced, and nothing else
    have hheld : (w.next (.step now (.manager i))).heldBy =
        Function.update w.heldBy i ((w.next (.step now (.manager i))).heldBy i) := by
      funext j
      by_cases hj : j = i
      · rw [hj, Function.update_self]
      · rw [Function.update_of_ne hj]
        exact heldBy_next_of_ne (by simp [Ne.symm hj])
    rcases leaseCallAt?_step w now i with ⟨held, hc, hs, hs'⟩ | ⟨held, hc, hs, hs'⟩ | ⟨hc, hs⟩
    · rw [hc, hheld, hs']
      exact .released hs (.nil _)
    · rw [hc, hheld, hs']
      exact .granted hs (.nil _)
    · rw [hc, hheld, hs, Function.update_eq_self]
      exact .nil _
  · have he (i : Nat) (now : Nat) : e ≠ .step now (.manager i) := fun h => hman ⟨now, i, h⟩
    have hc : w.leaseCallAt? e = none := by
      refine Option.eq_none_iff_forall_ne_some.mpr fun call hc => ?_
      obtain ⟨now, m, h, -⟩ := leaseCallAt?_cases hc
      exact he _ _ h
    have hheld : (w.next e).heldBy = w.heldBy := funext fun i => heldBy_next_of_ne (he i)
    rw [hc, hheld]
    exact .nil _

/-- What managers are granted and give back in a run takes turns. -/
theorem turns_leaseCalls (w : World) (events : List Event) :
    Turns w.heldBy (w.leaseCalls events) (w.after events).heldBy := by
  induction events generalizing w with
  | nil => exact .nil _
  | cons e rest ih => exact (turns_leaseCallAt? w e).append (ih (w.next e))

theorem leaseCalls_append (w : World) (events more : List Event) :
    w.leaseCalls (events ++ more) = w.leaseCalls events ++ (w.after events).leaseCalls more := by
  induction events generalizing w with
  | nil => rfl
  | cons e rest ih => simp only [List.cons_append, leaseCalls, ih, after_cons, List.append_assoc]

/-! ## No lease twice -/

/-- The calls of a run so far: their leases were granted, and no call was made twice. -/
structure Ledger (w : World) (calls : List LeaseCall) : Prop where
  knows : ∀ call ∈ calls, w.locks.leases.Knows call.held
  fresh : ∀ i held, w.heldBy i = some held →
    ∀ call ∈ calls, call.isRelease = true → call.held ≠ held
  nodup : (calls.map fun call => (call.held, call.isRelease)).Nodup

theorem knows_next {held : Held} (h : w.locks.leases.Knows held) (e : Event) :
    (w.next e).locks.leases.Knows held := by
  rcases next_leases w e with hw | ⟨held', hg⟩
  · exact hw.knows h
  · exact hg.knows h

theorem heldBy_cases {i : Nat} {held : Held} (h : (w.next e).heldBy i = some held) :
    w.heldBy i = some held ∨
      (∃ now, e = .step now (.manager i)) ∧
        Leases.Grants w.locks.leases held (w.next e).locks.leases := by
  obtain ⟨m', hm', hh⟩ := heldBy_eq_some_iff.mp h
  obtain ⟨m, hm, -, hold | ⟨he, hg, -⟩⟩ := Governed.held_cases hm' hh
  · exact Or.inl (heldBy_eq_some_iff.mpr ⟨m, hm, hold⟩)
  · exact Or.inr ⟨he, hg⟩

theorem Governed.knows_heldBy (h : w.Governed) {i : Nat} {held : Held}
    (hh : w.heldBy i = some held) : w.locks.leases.Knows held := by
  obtain ⟨m, hm, hheld⟩ := heldBy_eq_some_iff.mp hh
  exact h.knows i m held hm hheld

theorem Governed.ne_of_heldBy (h : w.Governed) {i j : Nat} {held held' : Held} (hij : i ≠ j)
    (hi : w.heldBy i = some held) (hj : w.heldBy j = some held') : held ≠ held' := by
  obtain ⟨m, hm, hh⟩ := heldBy_eq_some_iff.mp hi
  obtain ⟨m', hm', hh'⟩ := heldBy_eq_some_iff.mp hj
  exact (h.apart i j m m' held held' hij hm hm' hh hh').ne

/-- A lease that a manager has newly after an event is in no call before. -/
theorem Ledger.ne_of_new (h : w.Ledger calls) {i : Nat} {held : Held}
    (hs : (w.next e).heldBy i = some held) (hn : w.heldBy i ≠ some held) :
    ∀ call ∈ calls, call.held ≠ held := by
  intro call hcall
  rcases heldBy_cases hs with hold | ⟨-, hgrant⟩
  · exact absurd hold hn
  · exact (hgrant.apart_self (h.knows call hcall)).ne.symm

theorem Ledger.keeps (h : w.Ledger calls) (e : Event) : (w.next e).Ledger calls where
  knows := fun call hcall => knows_next (h.knows call hcall) e
  fresh := fun i held hheld call hcall hrel => by
    by_cases hold : w.heldBy i = some held
    · exact h.fresh i held hold call hcall hrel
    · exact h.ne_of_new hheld hold call hcall
  nodup := h.nodup

theorem Ledger.add (h : w.Ledger calls) (hk : w.locks.leases.Knows call.held)
    (hf : call.isRelease = true → ∀ i, w.heldBy i ≠ some call.held)
    (hn : ∀ call' ∈ calls, call'.held = call.held → call'.isRelease ≠ call.isRelease) :
    w.Ledger (calls ++ [call]) where
  knows := fun call' hcall' => by
    rcases List.mem_append.mp hcall' with hold | hnew
    · exact h.knows call' hold
    · rw [List.mem_singleton.mp hnew]
      exact hk
  fresh := fun i held hheld call' hcall' hrel => by
    rcases List.mem_append.mp hcall' with hold | hnew
    · exact h.fresh i held hheld call' hold hrel
    · rintro rfl
      rw [List.mem_singleton.mp hnew] at hheld hrel
      exact hf hrel i hheld
  nodup := by
    rw [List.map_append, List.map_singleton, List.nodup_append]
    refine ⟨h.nodup, by simp, fun pair hold pair' hnew heq => ?_⟩
    obtain ⟨call', hmem, rfl⟩ := List.mem_map.mp hold
    obtain ⟨hsame, hrel⟩ := Prod.mk.inj (heq.trans (List.mem_singleton.mp hnew))
    exact hn call' hmem hsame hrel

/-- Nobody has a lease that was just given back. -/
theorem heldBy_next_ne_of_releasing (hg : w.Governed) (now : Nat) {i : Nat} {m : Manager}
    {held : Held} {outcome : Outcome} (hm : w.managers[i]? = some m)
    (hph : m.phase = .releasing held outcome) (j : Nat) :
    (w.next (.step now (.manager i))).heldBy j ≠ some held := by
  by_cases hij : i = j
  · subst hij
    rw [(next_of_releasing now hm hph).1]
    simp
  · have hmine : w.heldBy i = some held := heldBy_eq_some_iff.mpr ⟨m, hm, by rw [hph]; rfl⟩
    rw [heldBy_next_of_ne (by simp [hij])]
    intro hother
    exact hg.ne_of_heldBy hij hmine hother rfl

theorem Ledger.next (h : w.Ledger calls) (hg : w.Governed) (e : Event) :
    (w.next e).Ledger (calls ++ (w.leaseCallAt? e).toList) := by
  cases hc : w.leaseCallAt? e with
  | none =>
    rw [Option.toList_none, List.append_nil]
    exact h.keeps e
  | some call =>
    obtain ⟨now, m, rfl, hm, ⟨hrel, outcome, hph⟩ | ⟨hno, hn, hs⟩⟩ := leaseCallAt?_cases hc
    · have hmine : w.heldBy call.manager = some call.held :=
        heldBy_eq_some_iff.mpr ⟨m, hm, by rw [hph]; rfl⟩
      refine (h.keeps _).add (knows_next (hg.knows_heldBy hmine) _) (fun _ j => ?_) ?_
      · exact heldBy_next_ne_of_releasing hg now hm hph j
      · -- had it been given back before, the manager would not have it
        intro call' hmem hsame hrel'
        exact h.fresh _ _ hmine call' hmem (hrel'.trans hrel) hsame
    · refine (h.keeps _).add ((hg.next _).knows_heldBy hs) (fun hrel => ?_) ?_
      · rw [hno] at hrel
        cases hrel
      · intro call' hmem hsame
        exact absurd hsame (h.ne_of_new hs (by rw [hn]; simp) call' hmem)

theorem Ledger.after (h : w.Ledger calls) (hg : w.Governed) (events : List Event) :
    (w.after events).Ledger (calls ++ w.leaseCalls events) := by
  induction events generalizing w calls with
  | nil => simpa [leaseCalls] using h
  | cons e rest ih =>
    have hrest := ih (h.next hg e) (hg.next e)
    rwa [List.append_assoc] at hrest

theorem Ledger.nil (w : World) : w.Ledger [] :=
  ⟨by simp, by simp, List.nodup_nil⟩

/-! ## Watchers and terms -/

/-- Whether the call that stops a watcher has come back. -/
def IsStopped (w : World) (k : Nat) : Prop := ∃ result, w.HasStopped k result

/-- Whether a watcher was started, and the call that stops it has not come back. -/
def IsRunning (w : World) (k : Nat) : Prop := k < w.watchers.size ∧ ¬ w.IsStopped k

theorem IsStopped.next {k : Nat} (h : w.IsStopped k) (e : Event) : (w.next e).IsStopped k :=
  let ⟨result, hr⟩ := h
  ⟨result, hr.next e⟩

/-- Whether a manager has begun a term during some events whose watcher is running. -/
def Runs (w : World) (events : List Event) (i : Nat) (term : Term) : Prop :=
  w.HasBegun events i term ∧ (w.after events).IsRunning term.watcher

/-- A watcher is stopped, or its manager is in the term for which it was started. -/
def Tended (w : World) (i : Nat) (held : Held) (k : Nat) : Prop :=
  w.IsStopped k ∨ ∃ m term, w.managers[i]? = some m ∧ m.phase.term? = some term ∧
    term.watcher = k ∧ term.held = held ∧ m.phase.isLast = false

theorem Begins.tended {i : Nat} {term : Term} (h : w.Begins e i term) :
    (w.next e).Tended i term.held term.watcher := by
  obtain ⟨now, m, m', he, hm, hph, hm', hph'⟩ := h
  exact Or.inr ⟨m', term, hm', by rw [hph']; rfl, rfl, rfl, by rw [hph']; rfl⟩

theorem Tended.next {i k : Nat} {held : Held} (h : w.Tended i held k) (e : Event) :
    (w.next e).Tended i held k := by
  rcases h with hstopped | ⟨m, term, hm, ht, rfl, rfl, hlast⟩
  · exact Or.inl (hstopped.next e)
  · obtain ⟨m', hm', -, ⟨now, he, hstep⟩ | ⟨hph, -⟩⟩ := next_manager_cases e hm
    · rcases hstep.move.tends ht hlast with ⟨term', ht', hw, hh, hl⟩ | hstopped
      · exact Or.inr ⟨m', term', hm', ht', hw, hh, hl⟩
      · exact Or.inl (IsStopped.next hstopped e)
    · exact Or.inr ⟨m', term, hm', by rw [hph, ht], rfl, rfl, by rw [hph, hlast]⟩

theorem Tended.after {i k : Nat} {held : Held} (h : w.Tended i held k) (events : List Event) :
    (w.after events).Tended i held k :=
  after_of_next (P := fun w => w.Tended i held k) (fun _ e h => h.next e) h events

/-- A running watcher is the one of the term that its manager is in. -/
theorem Runs.term {w₀ : World} {events : List Event} {i : Nat} {term : Term}
    (h : w₀.Runs events i term) :
    ∃ m term', (w₀.after events).managers[i]? = some m ∧ m.phase.term? = some term' ∧
      term'.watcher = term.watcher ∧ term'.held = term.held := by
  obtain ⟨⟨before, e, later, rfl, hbegins⟩, -, hrunning⟩ := h
  have htended := hbegins.tended.after later
  rw [← after_cons, ← after_append] at htended
  rcases htended with hstopped | ⟨m, term', hm, ht, hw, hh, -⟩
  · exact absurd hstopped hrunning
  · exact ⟨m, term', hm, ht, hw, hh⟩

theorem Runs.heldBy {w₀ : World} {events : List Event} {i : Nat} {term : Term}
    (h : w₀.Runs events i term) : (w₀.after events).heldBy i = some term.held := by
  obtain ⟨m, term', hm, ht, -, hh⟩ := h.term
  exact heldBy_eq_some_iff.mpr ⟨m, hm, by rw [Manager.Phase.held?_of_term? ht, hh]⟩

theorem Runs.watcher_eq {w₀ : World} {events : List Event} {i : Nat} {term term' : Term}
    (h : w₀.Runs events i term) (h' : w₀.Runs events i term') : term.watcher = term'.watcher := by
  obtain ⟨m, t, hm, ht, hw, -⟩ := h.term
  obtain ⟨m', t', hm', ht', hw', -⟩ := h'.term
  rw [hm] at hm'
  cases hm'
  rw [ht] at ht'
  cases ht'
  exact hw.symm.trans hw'

/-! ## All of it -/

theorem Governed.key_heldBy (h : w.Governed) {i : Nat} {held : Held}
    (hh : w.heldBy i = some held) :
    ∃ m, w.managers[i]? = some m ∧ held.lease.key = m.lockKey := by
  obtain ⟨m, hm, hheld⟩ := heldBy_eq_some_iff.mp hh
  exact ⟨m, hm, h.key i m held hm hheld⟩

/-- Of the managers with leases of one lock at most one has a lease that was not revoked. -/
theorem Kept.unique {revoked : List Lock.Lease} (h : w.Kept revoked) (hg : w.Governed) {i j : Nat}
    {held held' : Held} (hi : w.heldBy i = some held) (hj : w.heldBy j = some held')
    (hkey : held.lease.key = held'.lease.key) (hr : held.lease ∉ revoked)
    (hr' : held'.lease ∉ revoked) : i = j := by
  obtain ⟨m, hm, hh⟩ := heldBy_eq_some_iff.mp hi
  obtain ⟨m', hm', hh'⟩ := heldBy_eq_some_iff.mp hj
  have honoured := (h i held hi).resolve_left hr
  have honoured' := (h j held' hj).resolve_left hr'
  refine hg.unique hm hm' hh hh' ?_ honoured honoured'
  rw [← hg.key i m held hm hh, ← hg.key j m' held' hm' hh', hkey]

theorem locks_after_table {service : Lock.Service} (hl : w.locks = .table service)
    (events : List Event) : ∃ service', (w.after events).locks = .table service' := by
  refine after_of_next (P := fun w => ∃ service, w.locks = .table service) ?_ ⟨service, hl⟩ events
  rintro w e ⟨service, hl⟩
  obtain ⟨service', hl', -⟩ := next_table hl e
  exact ⟨service', hl'⟩

/-- A lease call is what the lock table does. -/
theorem leaseCallAt?_table {service : Lock.Service} (hl : w.locks = .table service)
    (h : w.leaseCallAt? e = some call) :
    if call.isRelease then (w.next e).locks = .table (service.release call.held.lease).2
    else ∃ name service', service.table.grant? call.held.lease.key name =
        some (call.held.lease, service'.table) ∧ (w.next e).locks = .table service' := by
  obtain ⟨now, m, rfl, hm, ⟨hrel, outcome, hph⟩ | ⟨hrel, hn, hs⟩⟩ := leaseCallAt?_cases h
  · rw [if_pos hrel, (next_of_releasing now hm hph).2]
    exact releaseLock_locks hl now call.held
  · rw [if_neg (by simp [hrel])]
    rcases heldBy_cases hs with hold | ⟨-, hgrant⟩
    · rw [hn] at hold
      cases hold
    · rw [hl] at hgrant
      generalize hleases :
        (w.next (.step now (.manager call.manager))).locks.leases = leases at hgrant
      generalize hcall : call.held = held at hgrant ⊢
      cases hgrant with
      | table monitor fails hg =>
        obtain ⟨service', hl', ht⟩ := leases_eq_inl hleases
        obtain ⟨-, hlease, -⟩ := Lock.Table.grant?_eq_some hg
        rw [hl', hlease]
        rw [hlease, ← ht] at hg
        exact ⟨_, service', hg, rfl⟩

/-- What holds of leases and watchers after a run of a system with a lock table. -/
structure LeaseDiscipline (w₀ : World) (events : List Event) : Prop where
  /-- A manager is granted a lease when it has none, and gives back the lease that it has. -/
  turns : Turns (fun _ => none) (w₀.leaseCalls events) (w₀.after events).heldBy
  /-- No lease is granted twice, or given back twice. -/
  nodup : ((w₀.leaseCalls events).map fun call => (call.held, call.isRelease)).Nodup
  /-- A lease that a manager was granted is given back by one call, unless the manager has it
  still. -/
  released : ∀ i held, ⟨i, held, false⟩ ∈ w₀.leaseCalls events →
    (w₀.after events).heldBy i ≠ some held → (w₀.leaseCalls events).count ⟨i, held, true⟩ = 1
  /-- A lease is granted and given back by the lock table. -/
  table : ∀ e call, (w₀.after events).leaseCallAt? e = some call →
    ∃ service, (w₀.after events).locks = .table service ∧
      if call.isRelease then
        ((w₀.after events).next e).locks = .table (service.release call.held.lease).2
      else
        ∃ name service', service.table.grant? call.held.lease.key name =
            some (call.held.lease, service'.table) ∧
          ((w₀.after events).next e).locks = .table service'
  /-- When a manager is granted a lease or gives it back, none of its watchers is running. -/
  quiet : ∀ e call, (w₀.after events).leaseCallAt? e = some call →
    ∀ term, ¬ w₀.Runs events call.manager term
  key : ∀ i held, (w₀.after events).heldBy i = some held →
    ∃ m, (w₀.after events).managers[i]? = some m ∧ held.lease.key = m.lockKey
  /-- Every running watcher is one of a manager that began a term with it. -/
  started : ∀ k, (w₀.after events).IsRunning k → ∃ i term, w₀.Runs events i term ∧ term.watcher = k
  /-- The manager of a running watcher has the lease with which it began the term. -/
  held : ∀ i term, w₀.Runs events i term → (w₀.after events).heldBy i = some term.held
  single : ∀ i term term', w₀.Runs events i term → w₀.Runs events i term' →
    term.watcher = term'.watcher
  /-- Of the managers with running watchers and leases of one lock at most one has a lease that was
  not revoked. -/
  exclusive : ∀ i j term term', w₀.Runs events i term → w₀.Runs events j term' →
    term.held.lease.key = term'.held.lease.key → term.held.lease ∉ w₀.revoked events →
    term'.held.lease ∉ w₀.revoked events → i = j
  /-- Without revocations one watcher at most is running for a lock. -/
  alone : w₀.revoked events = [] → ∀ i j term term', w₀.Runs events i term →
    w₀.Runs events j term' → term.held.lease.key = term'.held.lease.key →
    term.watcher = term'.watcher

/-- The discipline of leases and watchers holds after every run, whatever the order of grants,
revocations, failures and shutdowns is. -/
theorem single_watcher_under_lease {w₀ : World} (hfresh : w₀.IsFresh)
    (hlocks : w₀.locks = .table .empty) (events : List Event) : w₀.LeaseDiscipline events := by
  have hg : (w₀.after events).Governed :=
    after_of_next (fun _ e h => h.next e) hfresh.governed events
  have hledger : (w₀.after events).Ledger (w₀.leaseCalls events) :=
    (Ledger.nil w₀).after hfresh.governed events
  have hkept : (w₀.after events).Kept (w₀.revoked events) :=
    hfresh.kept.after hfresh.governed hlocks events
  have hturns : Turns (fun _ => none) (w₀.leaseCalls events) (w₀.after events).heldBy := by
    have hnone : w₀.heldBy = fun _ => none := by
      funext i
      simp [World.heldBy, hfresh.managers]
    exact hnone ▸ turns_leaseCalls w₀ events
  have quiet (e : Event) (call : LeaseCall)
      (hc : (w₀.after events).leaseCallAt? e = some call) (term : Term) :
      ¬ w₀.Runs events call.manager term := by
    intro hruns
    obtain ⟨now, m, -, hm, ⟨-, outcome, hph⟩ | ⟨-, hn, -⟩⟩ := leaseCallAt?_cases hc
    · obtain ⟨m', term', hm', ht, -⟩ := hruns.term
      rw [hm] at hm'
      cases hm'
      rw [hph] at ht
      cases ht
    · rw [hruns.heldBy] at hn
      cases hn
  have exclusive (i j : Nat) (term term' : Term) (hi : w₀.Runs events i term)
      (hj : w₀.Runs events j term') (hkey : term.held.lease.key = term'.held.lease.key)
      (hr : term.held.lease ∉ w₀.revoked events) (hr' : term'.held.lease ∉ w₀.revoked events) :
      i = j :=
    hkept.unique hg hi.heldBy hj.heldBy hkey hr hr'
  refine ⟨hturns, hledger.nodup, fun i held hmem hno => ?_, fun e call hc => ?_, quiet,
    fun i held hh => hg.key_heldBy hh, fun k hk => ?_, fun i term h => h.heldBy,
    fun i term term' h h' => h.watcher_eq h', exclusive, fun hnone i j term term' hi hj hkey => ?_⟩
  · have hmem' : ⟨i, held, true⟩ ∈ w₀.leaseCalls events :=
      (hturns.mem_or_eq (Or.inr hmem)).resolve_right hno
    rw [(List.Nodup.of_map _ hledger.nodup).count, if_pos hmem']
  · obtain ⟨service, hl⟩ := locks_after_table hlocks events
    exact ⟨service, hl, leaseCallAt?_table hl hc⟩
  · have hsize : w₀.watchers.size ≤ k := by simp [hfresh.watchers]
    obtain ⟨i, term, hbegun, hw⟩ := hasBegun_of_lt hsize hk.1
    subst hw
    exact ⟨i, term, ⟨hbegun, hk⟩, rfl⟩
  · have hij : i = j := exclusive i j term term' hi hj hkey (by simp [hnone]) (by simp [hnone])
    subst hij
    exact hi.watcher_eq hj

/-- After a takeover two managers have a lease of one lock, and the older one was revoked. -/
theorem single_watcher_under_lease_of_takeover :
    let lease (n : Nat) : Held := ⟨⟨Settings.Coordination.standard.lockKey Role.jobs.name,
      Lock.Table.sessionId "nomad-firehose-jobs" n⟩, 0, false⟩
    Turns (fun _ => none) [⟨0, lease 1, false⟩, ⟨1, lease 2, false⟩]
        (twoChanges.after takenOver).heldBy ∧
      twoChanges.revoked takenOver = [(lease 1).lease] := by
  intro lease
  have hfresh : twoChanges.IsFresh := ⟨rfl, rfl, rfl, Or.inl rfl⟩
  have hturns := (single_watcher_under_lease hfresh rfl takenOver).turns
  have hcalls : twoChanges.leaseCalls takenOver = [⟨0, lease 1, false⟩, ⟨1, lease 2, false⟩] := by
    decide +kernel
  rw [hcalls] at hturns
  exact ⟨hturns, by decide +kernel⟩

end World

end ChangeFeed.Engine
