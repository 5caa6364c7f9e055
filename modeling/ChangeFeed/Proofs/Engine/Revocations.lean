import ChangeFeed.Proofs.Engine.Holders

/-!
# What is taken from a lock table

A lock table loses a lease when the manager that has it gives it back, and when the lock is revoked.
Everything else that happens to the table is a grant of a free lock.

* `revokedAt?` is the lease that is taken from its holder with an event, and `revoked` are all of a
  run.
* `next_table` lists what an event does to a lock table.
* `Kept.after`: a lease that its manager still has is honoured, unless it was revoked.
-/

namespace ChangeFeed

namespace Lock.Service

theorem release_table (s : Service) (lease : Lease) :
    (s.release lease).2.table =
      if s.table.holds lease then s.table.free lease.key else s.table := by
  unfold release Table.release
  by_cases h : s.table.holds lease = true
  · simp [h, markAll]
  · simp [h]

theorem revoke_table (s : Service) (key : String) :
    (s.revoke key).2.table =
      if (s.table.holder? key).isSome then s.table.free key else s.table := by
  unfold revoke Table.revoke
  cases s.table.holder? key with
  | some session => rfl
  | none => rfl

end Lock.Service

namespace Engine

namespace World

variable {w : World} {e : Event} {service : Lock.Service}

/-! ## Revoked leases -/

/-- The lease that is taken from its holder with an event: its lock is revoked, or someone who is no
manager gives it back. -/
def revokedAt? (w : World) : Event → Option Lock.Lease
  | .act (.revoke key) =>
    match w.locks with
    | .table service => (service.table.holder? key).map (⟨key, ·⟩)
    | .script .. => none
  | .act (.unhold lease) =>
    match w.locks with
    | .table service => if service.table.holds lease then some lease else none
    | .script .. => none
  | _ => none

/-- The leases that are taken from their holders during some events, in order. -/
def revoked (w : World) : List Event → List Lock.Lease
  | [] => []
  | e :: events => (w.revokedAt? e).toList ++ (w.next e).revoked events

/-! ## One event -/

/-- The lease that a manager has, as far as it knows. -/
def heldBy (w : World) (i : Nat) : Option Held := (w.managers[i]?).bind fun m => m.phase.held?

theorem heldBy_eq_some_iff {i : Nat} {held : Held} :
    w.heldBy i = some held ↔
      ∃ m, w.managers[i]? = some m ∧ m.phase.held? = some held :=
  Option.bind_eq_some_iff

/-- The release of a lease is the one step of its manager, and the table is told. -/
theorem stepManager?_of_releasing (now : Nat) {i : Nat} {m : Manager} {held : Held}
    {outcome : Outcome}
    (hm : w.managers[i]? = some m) (hph : m.phase = .releasing held outcome) :
    ∃ w' log metrics, w.stepManager? now i = some w' ∧
      w' = { (w.releaseLock now held).setManager i { m with phase := afterRelease outcome } with
        log, metrics } := by
  obtain ⟨locks, log, heq, -⟩ := releaseLock_spec w now held
  have hmark : (w.markLeader m false).releaseLock now held =
      { w with locks, log, metrics := w.metrics.set .leader m.role.name 0 } := by
    have hcomm : (w.markLeader m false).releaseLock now held =
        { w.releaseLock now held with metrics := w.metrics.set .leader m.role.name 0 } := by
      unfold releaseLock markLeader
      cases w.locks <;> rfl
    rw [hcomm, heq]
  simp only [stepManager?, hm, hph, Option.bind_eq_bind, Option.bind_some, hmark, heq]
  cases outcome <;> exact ⟨_, _, _, rfl, rfl⟩

theorem next_of_releasing (now : Nat) {i : Nat} {m : Manager} {held : Held} {outcome : Outcome}
    (hm : w.managers[i]? = some m) (hph : m.phase = .releasing held outcome) :
    (w.next (.step now (.manager i))).heldBy i = none ∧
      (w.next (.step now (.manager i))).locks = (w.releaseLock now held).locks := by
  obtain ⟨w', log, metrics, hstep, heq⟩ := stepManager?_of_releasing now hm hph
  obtain ⟨locks, log', hrelease, -⟩ := releaseLock_spec w now held
  have hnext : w.next (.step now (.manager i)) = w' := by simp [World.next, step?, hstep]
  have hi : i < w.managers.size := (Array.getElem?_eq_some_iff.mp hm).1
  rw [hnext, heq, hrelease]
  refine ⟨?_, rfl⟩
  simp only [heldBy, setManager, Array.getElem?_setIfInBounds_self_of_lt hi, Option.bind_some]
  cases outcome <;> rfl

theorem releaseLock_locks (hl : w.locks = .table service) (now : Nat) (held : Held) :
    (w.releaseLock now held).locks = .table (service.release held.lease).2 := by
  simp [releaseLock, hl]

/-- What an event does to a lock table. -/
inductive TableStep (w : World) (e : Event) (t : Lock.Table) : Lock.Table → Prop where
  | rests : TableStep w e t t
  | grants (key name : String) (lease : Lock.Lease) (t' : Lock.Table)
      (h : t.grant? key name = some (lease, t')) : TableStep w e t t'
  | revokes (lease : Lock.Lease) (h : t.holds lease = true) (hr : w.revokedAt? e = some lease) :
      TableStep w e t (t.free lease.key)
  | releases (now i : Nat) (m : Manager) (held : Held) (outcome : Outcome)
      (h : t.holds held.lease = true) (he : e = .step now (.manager i))
      (hm : w.managers[i]? = some m) (hph : m.phase = .releasing held outcome) :
      TableStep w e t (t.free held.lease.key)

theorem shutDown_locks (w : World) (i : Nat) : (w.shutDown i).locks = w.locks := by
  have cancelled (w : World) (k : Nat) : (w.cancelWatcher k).locks = w.locks := by
    obtain ⟨watchers, heq⟩ := cancelWatcher_eq w k
    rw [heq]
  unfold shutDown
  split
  · rfl
  · split <;> first | exact cancelled _ _ | rfl

theorem perform_table (hl : w.locks = .table service) (a : Act) :
    ∃ service', (w.perform a).locks = .table service' ∧
      TableStep w (.act a) service.table service'.table := by
  have same (h : (w.perform a).locks = w.locks) :
      ∃ service', (w.perform a).locks = .table service' ∧
        TableStep w (.act a) service.table service'.table :=
    ⟨service, h.trans hl, .rests⟩
  cases a with
  | revoke key =>
    refine ⟨(service.revoke key).2, by simp [perform, revoke, hl], ?_⟩
    rw [Lock.Service.revoke_table]
    cases hh : service.table.holder? key with
    | none => exact .rests
    | some session =>
      exact .revokes ⟨key, session⟩ (by simp [Lock.Table.holds, hh]) (by simp [revokedAt?, hl, hh])
  | unhold lease =>
    refine ⟨(service.release lease).2, by simp [perform, unhold, hl], ?_⟩
    rw [Lock.Service.release_table]
    split
    · rename_i hh
      exact .revokes lease hh (by simp [revokedAt?, hl, hh])
    · exact .rests
  | hold key session =>
    cases hg : service.table.grant? key session with
    | none => exact same (by simp [perform, hold, hl, hg])
    | some granted =>
      obtain ⟨lease, table⟩ := granted
      exact ⟨{ service with table }, by simp [perform, hold, hl, hg],
        .grants key session lease table hg⟩
  | notify => exact same (by simp [perform, notify, openMonitor?, hl])
  | lose => exact same (by simp [perform, lose, openMonitor?, hl])
  | shutDown i => exact same (shutDown_locks w i)
  | cancel i =>
    obtain ⟨watchers, heq⟩ := cancelWatcher_eq w i
    exact same (by simp [perform, heq])
  | halt i =>
    obtain ⟨watchers, heq⟩ := haltWatcher_eq w i
    exact same (by simp [perform, heq])
  | receive i =>
    obtain ⟨watchers, heq⟩ := onWatcher_eq w i fun x => { x with channel := x.channel.take.2 }
    exact same (by simp [perform, heq])
  | abandon i =>
    obtain ⟨watchers, heq⟩ := onWatcher_eq w i fun x =>
      { x with channel := { x.channel with abandoned := true } }
    exact same (by simp [perform, heq])
  | spawn role settings => exact same rfl
  | failStore reads writes => exact same rfl
  | putValue key value => exact same rfl
  | addList answer => exact same rfl
  | setRecord id answer => exact same rfl

theorem leases_eq_inl {locks : Locks} {t : Lock.Table} (h : locks.leases = .inl t) :
    ∃ service, locks = .table service ∧ service.table = t := by
  cases locks with
  | table service => exact ⟨service, rfl, Sum.inl.inj h⟩
  | script grants monitors => cases h

theorem next_table (hl : w.locks = .table service) (e : Event) :
    ∃ service', (w.next e).locks = .table service' ∧
      TableStep w e service.table service'.table := by
  have h := next_spec w e
  have same {w' : World} {e : Event} (heq : w'.locks = w.locks) :
      ∃ service', w'.locks = .table service' ∧ TableStep w e service.table service'.table :=
    ⟨service, heq.trans hl, .rests⟩
  cases e with
  | act a => exact perform_table hl a
  | step now task =>
    generalize hw' : w.next (.step now task) = w' at h ⊢
    cases h with
    | rests _ _ hw hr => exact same (locks_eq_of_rule hr)
    | loop _ k x x' _ hx h => exact same (locks_eq_of_rule h.rule)
    | watcher _ k _ htask x x' _ hx hw hr => exact same (locks_eq_of_rule hr)
    | publication _ j p p' x _ hp hx h => exact same (locks_eq_of_rule h.rule)
    | manager _ i m phase _ hm h =>
      have hmove := h.move
      generalize hlocks : w'.locks = locks, w'.store = store, w'.watchers = watchers at hmove
      cases hmove with
      | idles _ _ hh hh' hleases =>
        rw [hl] at hleases
        obtain ⟨service', rfl, ht⟩ := leases_eq_inl hleases
        exact ⟨service', rfl, ht ▸ .rests⟩
      | obtains held _ hh hs hk hg =>
        rw [hl] at hg
        generalize hleases : locks.leases = leases at hg
        cases hg with
        | table monitor fails hg =>
          obtain ⟨service', rfl, ht⟩ := leases_eq_inl hleases
          exact ⟨service', rfl, .grants _ _ _ _ (ht ▸ hg)⟩
      | reads _ hs hwanes hscript => exact absurd hl (hscript service)
      | releases held outcome _ hph hwanes =>
        refine ⟨(service.release held.lease).2, ?_, ?_⟩
        · rw [← hlocks, ← hw', (next_of_releasing now hm hph).2]
          exact releaseLock_locks hl now held
        · rw [Lock.Service.release_table]
          split
          · rename_i hh
            exact .releases now i m held outcome hh rfl hm hph
          · exact .rests
      | _ => exact same (hlocks ▸ rfl)

/-! ## Leases that managers have -/

/-- Every lease that a manager has is honoured, or was revoked. -/
def Kept (w : World) (revoked : List Lock.Lease) : Prop :=
  ∀ (i : Nat) (held : Held), w.heldBy i = some held →
    held.lease ∈ revoked ∨ w.locks.leases.honours held = true

theorem Kept.next {revoked : List Lock.Lease} (h : w.Kept revoked) (hg : w.Governed)
    (hl : w.locks = .table service) (e : Event) :
    (w.next e).Kept (revoked ++ (w.revokedAt? e).toList) := by
  intro i held hheld
  obtain ⟨m', hm', hh'⟩ := heldBy_eq_some_iff.mp hheld
  obtain ⟨m, hm, -, hh | ⟨-, hgrant, -⟩⟩ := Governed.held_cases hm' hh'
  · rcases h i held (heldBy_eq_some_iff.mpr ⟨m, hm, hh⟩) with hmem | honours
    · exact Or.inl (List.mem_append_left _ hmem)
    · obtain ⟨service', hl', hstep⟩ := next_table hl e
      have hold : service.table.holds held.lease = true := by
        rw [hl] at honours
        exact honours
      -- a lock that someone else loses is another one
      have other {lease : Lock.Lease} (hk : held.lease.key ≠ lease.key) :
          (service.table.free lease.key).holds held.lease = true := by
        rw [Lock.Table.holds, Lock.Table.holder?_free_of_ne hk]
        exact hold
      rw [hl']
      change held.lease ∈ _ ∨ service'.table.holds held.lease = true
      generalize service'.table = t' at hstep
      cases hstep with
      | rests => exact Or.inr hold
      | grants key name lease _ hgrant =>
        refine Or.inr ?_
        have hne : held.lease.key ≠ key := by
          intro hk
          rw [Lock.Table.holds, decide_eq_true_eq, hk, (Lock.Table.grant?_eq_some hgrant).1] at hold
          cases hold
        rw [Lock.Table.holds, Lock.Table.holder?_grant? hgrant, if_neg hne]
        exact hold
      | revokes lease hlost hr =>
        by_cases hk : held.lease.key = lease.key
        · have hsame : held.lease = lease := by
            have hs := Lock.Table.session_eq_of_holds hold hlost hk
            cases hlease : held.lease
            cases lease
            simp_all
          rw [hr, hsame]
          exact Or.inl (List.mem_append_right _ (List.mem_singleton_self _))
        · exact Or.inr (other hk)
      | releases now j m₁ held₁ outcome hlost he hm₁ hph =>
        by_cases hk : held.lease.key = held₁.lease.key
        · exfalso
          have hs := Lock.Table.session_eq_of_holds hold hlost hk
          by_cases hij : i = j
          · subst hij he
            rw [(next_of_releasing now hm₁ hph).1] at hheld
            cases hheld
          · have hapart := hg.apart i j m m₁ held held₁ hij hm hm₁ hh (by rw [hph]; rfl)
            rw [hl] at hapart
            exact hapart hs
        · exact Or.inr (other hk)
  · exact Or.inr hgrant.honours

/-- A lease that its manager still has is honoured, unless it was revoked. -/
theorem Kept.after {revoked : List Lock.Lease} (h : w.Kept revoked) (hg : w.Governed)
    (hl : w.locks = .table service) (events : List Event) :
    (w.after events).Kept (revoked ++ w.revoked events) := by
  induction events generalizing w revoked service with
  | nil => simpa [World.revoked] using h
  | cons e rest ih =>
    obtain ⟨service', hl', -⟩ := next_table hl e
    have hrest := ih (h.next hg hl e) (hg.next e) hl'
    rwa [List.append_assoc] at hrest

theorem IsFresh.kept (h : w.IsFresh) : w.Kept [] := by
  intro i held hheld
  obtain ⟨m, hm, -⟩ := heldBy_eq_some_iff.mp hheld
  simp [h.managers] at hm

end World

end Engine

end ChangeFeed
