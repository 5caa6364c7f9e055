import ChangeFeed.Proofs.Lock.Sessions
import ChangeFeed.Proofs.Engine.Views

/-!
# Leases in a system

Whether a lease is still honoured is a fact about the lock service alone: a lock table says who holds
a lock, and the monitor of a lease of a scripted service is open until the service closes it.

* `Leases.Wanes`: nothing is honoured that was not honoured before. Everything that a system does to
  its locks is this, except a grant.
* `Leases.Grants`: a grant; what else is honoured after it was honoured before.
* `Leases.honours_unique`: two leases of one lock that are both honoured are one lease.
-/

namespace ChangeFeed.Engine

/-- Who holds what: the locks of a table, or the monitors of a scripted service. -/
abbrev Leases := Lock.Table ⊕ Array Monitor

/-- Who holds what at a lock service. -/
def Locks.leases : Locks → Leases
  | .table service => .inl service.table
  | .script _ monitors => .inr monitors

/-- The managers that wait for a lock, with the lock. -/
def Locks.waits : Locks → List (Nat × String)
  | .table service => service.waiters.map fun waiter => (waiter.ticket, waiter.key)
  | .script .. => []

namespace Leases

/-- Whether a monitor is there and open. -/
def isOpenAt (monitors : Array Monitor) (k : Nat) : Bool := monitors[k]?.any (·.isOpen)

/-- Whether a lease is still honoured. -/
def honours : Leases → Held → Bool
  | .inl table, held => table.holds held.lease
  | .inr monitors, held => isOpenAt monitors held.monitor

/-- Whether a lease may have been granted so far. -/
def Knows : Leases → Held → Prop
  | .inl table, held => ∃ name, ∃ n ≤ table.grants, held.lease.session = Lock.Table.sessionId name n
  | .inr monitors, held => held.monitor < monitors.size

/-- Whether two leases come from different grants. -/
def Apart : Leases → Held → Held → Prop
  | .inl _, a, b => a.lease.session ≠ b.lease.session
  | .inr _, a, b => a.monitor ≠ b.monitor

/-- Only the newest monitor may be open. -/
def Sound : Leases → Prop
  | .inl _ => True
  | .inr monitors => ∀ k, isOpenAt monitors k = true → k + 1 = monitors.size

/-- Leases are given back or lost, and nothing is granted. -/
inductive Wanes : Leases → Leases → Prop where
  | table {t t' : Lock.Table} (hg : t'.grants = t.grants)
      (hh : ∀ lease, t'.holds lease = true → t.holds lease = true) : Wanes (.inl t) (.inl t')
  | script {ms ms' : Array Monitor} (hs : ms'.size = ms.size)
      (ho : ∀ k, isOpenAt ms' k = true → isOpenAt ms k = true) : Wanes (.inr ms) (.inr ms')

/-- A lease is granted. -/
inductive Grants : Leases → Held → Leases → Prop where
  | table {t t' : Lock.Table} {key name : String} {lease : Lock.Lease} (monitor : Nat)
      (releaseFails : Bool) (h : t.grant? key name = some (lease, t')) :
      Grants (.inl t) ⟨lease, monitor, releaseFails⟩ (.inl t')
  | script {ms : Array Monitor} (lease : Lock.Lease) (releaseFails : Bool) :
      Grants (.inr ms) ⟨lease, ms.size, releaseFails⟩
        (.inr ((ms.map Monitor.close).push .opened))

variable {l l' : Leases} {a b held : Held}

theorem isOpenAt_eq_true {ms : Array Monitor} {k : Nat} :
    isOpenAt ms k = true ↔ ∃ m, ms[k]? = some m ∧ m.isOpen = true := by
  simp [isOpenAt, Option.any_eq_true]

theorem Apart.symm (h : l.Apart a b) : l.Apart b a := by
  cases l <;> exact Ne.symm h

/-- Two leases of one lock that are both honoured come from one grant. -/
theorem honours_unique (hs : l.Sound) (ha : l.honours a = true) (hb : l.honours b = true)
    (hk : a.lease.key = b.lease.key) : ¬ l.Apart a b := by
  cases l with
  | inl table => exact fun h => h (Lock.Table.session_eq_of_holds ha hb hk)
  | inr monitors =>
    intro h
    have h₁ := hs _ ha
    have h₂ := hs _ hb
    exact h (by omega)

/-! ## Leases that wane -/

namespace Wanes

theorem refl (l : Leases) : Wanes l l := by
  cases l with
  | inl t => exact .table rfl fun _ h => h
  | inr ms => exact .script rfl fun _ h => h

theorem of_eq (h : l' = l) : Wanes l l' := h ▸ refl l'

theorem honours_of (hw : Wanes l l') (h : l'.honours held = true) : l.honours held = true := by
  cases hw with
  | table hg hh => exact hh _ h
  | script hs ho => exact ho _ h

theorem knows (hw : Wanes l l') (h : l.Knows held) : l'.Knows held := by
  cases hw with
  | table hg hh => simpa [Knows, hg] using h
  | script hs ho => simpa [Knows, hs] using h

theorem apart (hw : Wanes l l') (h : l.Apart a b) : l'.Apart a b := by
  cases hw <;> exact h

theorem sound (hw : Wanes l l') (h : l.Sound) : l'.Sound := by
  cases hw with
  | table hg hh => trivial
  | script hs ho => exact fun k hk => hs ▸ h k (ho k hk)

theorem free (t : Lock.Table) (key : String) : Wanes (.inl t) (.inl (t.free key)) :=
  .table rfl fun _ h => Lock.Table.holds_of_holds_free h

/-- Replaces a monitor by one that is not open unless it was. -/
theorem setMonitor {ms : Array Monitor} {k : Nat} {m m' : Monitor} (hm : ms[k]? = some m)
    (ho : m'.isOpen = true → m.isOpen = true) : Wanes (.inr ms) (.inr (ms.setIfInBounds k m')) := by
  refine .script (by simp) fun j hj => ?_
  obtain ⟨x, hx, hxo⟩ := isOpenAt_eq_true.mp hj
  by_cases h : k = j
  · subst h
    have hk : k < ms.size := (Array.getElem?_eq_some_iff.mp hm).1
    rw [Array.getElem?_setIfInBounds_self_of_lt hk] at hx
    cases hx
    exact isOpenAt_eq_true.mpr ⟨m, hm, ho hxo⟩
  · rw [Array.getElem?_setIfInBounds_ne h] at hx
    exact isOpenAt_eq_true.mpr ⟨x, hx, hxo⟩

end Wanes

/-! ## Grants -/

namespace Grants

theorem honours (hg : Grants l held l') : l'.honours held = true := by
  cases hg with
  | table monitor fails h => exact Lock.Table.holds_grant? h
  | script lease fails =>
    exact isOpenAt_eq_true.mpr ⟨.opened, by rw [Array.getElem?_push, if_pos (by simp)], rfl⟩

theorem knows_self (hg : Grants l held l') : l'.Knows held := by
  cases hg with
  | table monitor fails h =>
    obtain ⟨-, rfl, rfl⟩ := Lock.Table.grant?_eq_some h
    exact ⟨_, _, Nat.le_refl _, rfl⟩
  | script lease fails => simp [Knows]

theorem knows (hg : Grants l held l') (h : l.Knows a) : l'.Knows a := by
  cases hg with
  | table monitor fails h' =>
    obtain ⟨-, rfl, rfl⟩ := Lock.Table.grant?_eq_some h'
    obtain ⟨name, n, hn, hs⟩ := h
    exact ⟨name, n, Nat.le_succ_of_le hn, hs⟩
  | script lease fails => simpa [Knows] using Nat.lt_succ_of_lt h

/-- A lease that was granted before comes from another grant. -/
theorem apart_self (hg : Grants l held l') (h : l.Knows a) : l'.Apart held a := by
  cases hg with
  | table monitor fails h' =>
    obtain ⟨-, rfl, rfl⟩ := Lock.Table.grant?_eq_some h'
    obtain ⟨name, n, hn, hs⟩ := h
    intro heq
    have := Lock.Table.sessionId_inj (heq.trans hs)
    omega
  | script lease fails =>
    intro heq
    exact Nat.lt_irrefl _ (Nat.lt_of_le_of_lt (Nat.le_of_eq heq) h)

theorem apart (hg : Grants l held l') (h : l.Apart a b) : l'.Apart a b := by
  cases hg <;> exact h

/-- A lease that was granted before and is honoured after a grant was honoured before it. -/
theorem honours_of (hg : Grants l held l') (hk : l.Knows a) (h : l'.honours a = true) :
    l.honours a = true := by
  cases hg with
  | table monitor fails h' =>
    obtain ⟨name, n, hn, hs⟩ := hk
    exact Lock.Table.holds_of_holds_grant? h' hn hs h
  | script lease fails =>
    obtain ⟨m, hm, ho⟩ := isOpenAt_eq_true.mp h
    rw [Array.getElem?_push_lt (by simpa [Knows] using hk)] at hm
    simp only [Array.getElem_map, Option.some.injEq] at hm
    rw [← hm] at ho
    cases ho

theorem sound (hg : Grants l held l') : l'.Sound := by
  cases hg with
  | table monitor fails h => trivial
  | script lease fails =>
    intro k hk
    obtain ⟨m, hm, ho⟩ := isOpenAt_eq_true.mp hk
    rw [Array.getElem?_push] at hm
    split at hm
    · simp_all
    · rw [Array.getElem?_map, Option.map_eq_some_iff] at hm
      obtain ⟨m', -, rfl⟩ := hm
      cases ho

end Grants

end Leases

/-! ## Lock services -/

namespace Leases

variable {s s' : Lock.Service} {ticket : Nat} {key name : String} {lease? : Option Lock.Lease}

theorem waits_markAll (s : Lock.Service) : Locks.waits (.table s.markAll) = Locks.waits (.table s) := by
  simp [Locks.waits, Lock.Service.markAll]

theorem release_spec (s : Lock.Service) (lease : Lock.Lease) :
    Wanes (.inl s.table) (.inl (s.release lease).2.table) ∧
      Locks.waits (.table (s.release lease).2) = Locks.waits (.table s) := by
  unfold Lock.Service.release Lock.Table.release
  by_cases h : s.table.holds lease = true
  · simp only [h, if_true]
    exact ⟨Wanes.free _ _, waits_markAll _⟩
  · simp only [h]
    exact ⟨Wanes.refl _, rfl⟩

theorem revoke_spec (s : Lock.Service) (key : String) :
    Wanes (.inl s.table) (.inl (s.revoke key).2.table) ∧
      Locks.waits (.table (s.revoke key).2) = Locks.waits (.table s) := by
  unfold Lock.Service.revoke Lock.Table.revoke
  cases s.table.holder? key with
  | some session => exact ⟨Wanes.free _ _, waits_markAll _⟩
  | none => exact ⟨Wanes.refl _, rfl⟩

/-- Who asks for a lock gets it or waits for it. -/
theorem acquire_spec (h : s.acquire ticket key name = (lease?, s')) :
    (∀ q ∈ Locks.waits (.table s'), q ∈ Locks.waits (.table s) ∨ q = (ticket, key)) ∧
      match lease? with
      | some lease => lease.key = key ∧ Grants (.inl s.table) ⟨lease, 0, false⟩ (.inl s'.table)
      | none => s'.table = s.table := by
  unfold Lock.Service.acquire at h
  cases hg : s.table.grant? key name with
  | some granted =>
    obtain ⟨lease, table⟩ := granted
    simp only [hg] at h
    cases h
    have hk : lease.key = key := by rw [(Lock.Table.grant?_eq_some hg).2.1]
    exact ⟨fun q hq => Or.inl hq, hk, .table 0 false hg⟩
  | none =>
    simp only [hg] at h
    cases h
    refine ⟨fun q hq => ?_, rfl⟩
    simpa [Locks.waits] using hq

/-- Who waits and asks again gets the lock that it waits for, or waits on. -/
theorem retry_spec (h : s.retry ticket = (lease?, s')) :
    (∀ q ∈ Locks.waits (.table s'), q ∈ Locks.waits (.table s)) ∧
      match lease? with
      | some lease => (ticket, lease.key) ∈ Locks.waits (.table s) ∧
          Grants (.inl s.table) ⟨lease, 0, false⟩ (.inl s'.table)
      | none => s'.table = s.table := by
  unfold Lock.Service.retry at h
  cases hf : s.waiters.find? fun w => w.ticket = ticket && w.marked with
  | none =>
    simp only [hf] at h
    cases h
    exact ⟨fun q hq => hq, rfl⟩
  | some waiter =>
    simp only [hf] at h
    obtain ⟨hw, hl⟩ := acquire_spec h
    have hmem : waiter ∈ s.waiters := List.mem_of_find?_eq_some hf
    have hticket : waiter.ticket = ticket := by
      have := List.find?_some hf
      simp only [Bool.and_eq_true, decide_eq_true_eq] at this
      exact this.1
    have hwait : (ticket, waiter.key) ∈ Locks.waits (.table s) :=
      List.mem_map.mpr ⟨waiter, hmem, by rw [hticket]⟩
    have hcancel : ∀ q ∈ Locks.waits (.table (s.cancel ticket)), q ∈ Locks.waits (.table s) := by
      intro q hq
      obtain ⟨waiter', hm, rfl⟩ := List.mem_map.mp hq
      exact List.mem_map_of_mem (List.mem_filter.mp hm).1
    refine ⟨fun q hq => ?_, ?_⟩
    · rcases hw q hq with hq | rfl
      · exact hcancel q hq
      · exact hwait
    · cases lease? with
      | some lease => exact ⟨hl.1 ▸ hwait, hl.2⟩
      | none => exact hl

end Leases

end ChangeFeed.Engine
