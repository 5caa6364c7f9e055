import ChangeFeed.Proofs.Engine.ManagerMoves

/-!
# What an act from outside does

* `LocksTurn`: nobody outside gives a lease to a manager. Locks are taken away, or granted to others.
* `Stirs`: what is done to watchers while no loop takes up an answer.
* `perform_spec`: an act leaves the work on changes alone, keeps every manager as it is but for the
  wish that it ends, and writes to the store only as `Act.putValue`.
-/

namespace ChangeFeed.Engine

namespace World

variable {w w' : World}

/-! ## Changes of the locks -/

/-- What someone who is no manager may do to the locks. -/
structure LocksTurn (locks locks' : Locks) : Prop where
  leases : Leases.Wanes locks.leases locks'.leases ∨
    ∃ held, Leases.Grants locks.leases held locks'.leases
  waits : locks'.waits = locks.waits

theorem LocksTurn.refl (locks : Locks) : LocksTurn locks locks :=
  ⟨Or.inl (Leases.Wanes.refl _), rfl⟩

theorem revoke_eq (w : World) (key : String) :
    ∃ locks, (w.revoke key).2 = { w with locks } ∧ LocksTurn w.locks locks := by
  unfold revoke
  split
  · exact ⟨w.locks, rfl, .refl _⟩
  · rename_i service hl
    obtain ⟨hwanes, hwaits⟩ := Leases.revoke_spec service key
    rw [hl]
    exact ⟨_, rfl, Or.inl hwanes, hwaits⟩

theorem hold_eq (w : World) (key session : String) :
    ∃ locks, (w.hold key session).2 = { w with locks } ∧ LocksTurn w.locks locks := by
  unfold hold
  split
  · exact ⟨w.locks, rfl, .refl _⟩
  · rename_i service hl
    split
    · rename_i lease table hg
      rw [hl]
      exact ⟨_, rfl, Or.inr ⟨⟨lease, 0, false⟩, .table 0 false hg⟩, rfl⟩
    · exact ⟨w.locks, rfl, .refl _⟩

theorem unhold_eq (w : World) (lease : Lock.Lease) :
    ∃ locks, (w.unhold lease).2 = { w with locks } ∧ LocksTurn w.locks locks := by
  unfold unhold
  split
  · exact ⟨w.locks, rfl, .refl _⟩
  · rename_i service hl
    obtain ⟨hwanes, hwaits⟩ := Leases.release_spec service lease
    rw [hl]
    exact ⟨_, rfl, Or.inl hwanes, hwaits⟩

/-- Replacing the open monitor opens none. -/
theorem setMonitor_eq {m m' : Monitor} (hm : w.openMonitor? = some m) :
    ∃ locks, w.setMonitor m' = { w with locks } ∧ LocksTurn w.locks locks := by
  unfold openMonitor? at hm
  split at hm
  · cases hm
  · rename_i grants monitors hl
    simp only [setMonitor, hl]
    obtain ⟨hb, ho⟩ := Option.filter_eq_some_iff.mp hm
    refine ⟨_, rfl, Or.inl ?_, rfl⟩
    have hne : monitors.size ≠ 0 := by
      intro h
      rw [Array.eq_empty_of_size_eq_zero h] at hb
      cases hb
    obtain ⟨older, newest, rfl⟩ := Array.eq_push_of_size_ne_zero hne
    have hlast : (older.push newest)[older.size]? = some m := by
      rw [← hb, Array.back?_push, Array.getElem?_push_size]
    have hset : (older.push newest).pop.push m' =
        (older.push newest).setIfInBounds older.size m' := by
      simp [Array.setIfInBounds, Array.set_push]
    have hwanes : Leases.Wanes (.inr (older.push newest))
        (.inr ((older.push newest).setIfInBounds older.size m')) :=
      .setMonitor hlast fun _ => ho
    rw [← hset] at hwanes
    exact hwanes

theorem notify_eq (w : World) :
    ∃ locks, w.notify.2 = { w with locks } ∧ LocksTurn w.locks locks := by
  unfold notify
  split
  · exact ⟨w.locks, rfl, .refl _⟩
  · rename_i m hm
    split
    · exact ⟨w.locks, rfl, .refl _⟩
    · exact setMonitor_eq hm

theorem lose_eq (w : World) :
    ∃ locks, w.lose.2 = { w with locks } ∧ LocksTurn w.locks locks := by
  unfold lose
  split
  · exact ⟨w.locks, rfl, .refl _⟩
  · rename_i m hm
    exact setMonitor_eq hm

/-! ## Changes of a watcher -/

/-- What an event does to every watcher, when no loop takes up an answer with it. -/
def Stirs (w : World) (e : Event) (watchers : Array Watcher) : Prop :=
  watchers.size = w.watchers.size ∧ ∀ k x, w.watchers[k]? = some x →
    ∃ x', watchers[k]? = some x' ∧ Watcher.Move w e k x none x'

theorem Stirs.refl (w : World) (e : Event) : Stirs w e w.watchers :=
  ⟨rfl, fun _ x hx => ⟨x, hx, .rests⟩⟩

theorem Stirs.setWatcher {e : Event} {i : Nat} {y y' : Watcher} (hi : w.watchers[i]? = some y)
    (hm : Watcher.Move w e i y none y') : Stirs w e (w.setWatcher i y').watchers := by
  refine ⟨by simp [World.setWatcher], fun k x hx => ?_⟩
  by_cases h : i = k
  · subst h
    rw [hi] at hx
    cases hx
    exact ⟨y', getElem?_setWatcher_self hi y', hm⟩
  · exact ⟨x, by rw [getElem?_setWatcher_of_ne h, hx], .rests⟩

theorem cancelWatcher_stirs (e : Event) (i : Nat) (h : w'.watchers = w.watchers) :
    Stirs w e (w'.cancelWatcher i).watchers := by
  unfold cancelWatcher
  split
  · rename_i y hy
    rw [h] at hy
    have hs : Stirs w e (w.setWatcher i { y with cancelled := true }).watchers :=
      .setWatcher hy .cancels
    simpa only [World.setWatcher, h] using hs
  · rw [h]
    exact .refl w e

theorem haltWatcher_stirs (w : World) (e : Event) (i : Nat) :
    Stirs w e (w.haltWatcher i).watchers := by
  unfold haltWatcher
  split
  · rename_i y hy
    split
    · exact .refl w e
    · rename_i hh
      exact .setWatcher hy (.halts (by simpa using hh))
  · exact .refl w e

theorem onWatcher_eq (w : World) (i : Nat) (f : Watcher → Watcher) :
    ∃ watchers, w.onWatcher i f = { w with watchers } := by
  unfold onWatcher
  split
  · exact ⟨_, rfl⟩
  · exact ⟨w.watchers, rfl⟩

theorem onWatcher_stirs (w : World) (e : Event) (i : Nat) {f : Watcher → Watcher}
    (hf : ∀ y, Watcher.Move w e i y none (f y)) : Stirs w e (w.onWatcher i f).watchers := by
  unfold onWatcher
  split
  · rename_i y hy
    exact .setWatcher hy (hf y)
  · exact .refl w e

/-! ## All acts -/

structure ActStep (w : World) (a : Act) (w' : World) : Prop where
  watchers : Stirs w (.act a) w'.watchers
  publications : w'.publications = w.publications
  metrics : w'.metrics = w.metrics
  locks : LocksTurn w.locks w'.locks
  /-- A manager that is there stays. It is told to end by one act alone, and for good. -/
  manager : ∀ (i : Nat) (m : Manager), w.managers[i]? = some m →
    ∃ isShutdown, w'.managers[i]? = some { m with isShutdown } ∧
      (isShutdown = true ↔ m.isShutdown = true ∨ a = .shutDown i)
  newcomer : ∀ (i : Nat) (m : Manager), w'.managers[i]? = some m → w.managers.size ≤ i →
    m.phase = .begun
  store : w'.store.store = w.store.store ∨
    ∃ key value, a = .putValue key value ∧ w'.store.store = w.store.store.put key value

/-- Nothing happens to the managers and the store. -/
theorem ActStep.of_managers {a : Act} (hx : Stirs w (.act a) w'.watchers)
    (hp : w'.publications = w.publications) (hc : w'.metrics = w.metrics)
    (hl : LocksTurn w.locks w'.locks) (hm : w'.managers = w.managers) (hs : w'.store = w.store)
    (ha : ∀ (i : Nat) (m : Manager), w.managers[i]? = some m → a ≠ .shutDown i) :
    ActStep w a w' where
  watchers := hx
  publications := hp
  metrics := hc
  locks := hl
  manager := fun i m h => ⟨m.isShutdown, hm ▸ h, by simp [ha i m h]⟩
  newcomer := fun i m h hi => by
    rw [hm] at h
    exact absurd (Array.getElem?_eq_some_iff.mp h).1 (Nat.not_lt.mpr hi)
  store := Or.inl (by rw [hs])

theorem ActStep.of_locks {a : Act} {locks : Locks} (h : LocksTurn w.locks locks)
    (ha : ∀ i, a ≠ .shutDown i) : ActStep w a { w with locks } :=
  .of_managers (.refl w _) rfl rfl h rfl rfl fun i _ _ => ha i

theorem ActStep.of_watchers {a : Act} {watchers : Array Watcher}
    (h : Stirs w (.act a) watchers) (ha : ∀ i, a ≠ .shutDown i) :
    ActStep w a { w with watchers } :=
  .of_managers h rfl rfl (.refl _) rfl rfl fun i _ _ => ha i

theorem shutDown_spec (w : World) (i : Nat) : ActStep w (.shutDown i) (w.shutDown i) := by
  unfold shutDown
  split
  · rename_i hm
    refine .of_managers (.refl w _) rfl rfl (.refl _) rfl rfl fun j m hm' heq => ?_
    cases heq
    rw [hm] at hm'
    cases hm'
  · rename_i m hm
    -- the manager is told to end, and its watcher is cancelled if it has one
    have told (w₁ : World) (hx : Stirs w (.act (.shutDown i)) w₁.watchers)
        (heq : ∃ watchers, w₁ = { w.setManager i { m with isShutdown := true } with watchers }) :
        ActStep w (.shutDown i) w₁ := by
      obtain ⟨watchers, rfl⟩ := heq
      refine ⟨hx, rfl, rfl, .refl _, fun j m' hm' => ?_, fun j m' hm' hj => ?_, Or.inl rfl⟩
      · by_cases h : i = j
        · subst h
          rw [hm] at hm'
          cases hm'
          have hi : i < w.managers.size := (Array.getElem?_eq_some_iff.mp hm).1
          exact ⟨true, by simp [setManager, Array.getElem?_setIfInBounds_self_of_lt hi], by simp⟩
        · exact ⟨m'.isShutdown, by simp [setManager, Array.getElem?_setIfInBounds_ne h, hm'],
            by simp [h]⟩
      · have := (Array.getElem?_eq_some_iff.mp hm').1
        simp only [setManager, Array.size_setIfInBounds] at this
        omega
    split
    case h_5 => exact told _ (.refl w _) ⟨_, rfl⟩
    all_goals exact told _ (cancelWatcher_stirs _ _ rfl) (cancelWatcher_eq _ _)

theorem perform_spec (w : World) (a : Act) : ActStep w a (w.perform a) := by
  cases a with
  | spawn role settings =>
    refine ⟨.refl w _, rfl, rfl, .refl _, fun i m hm => ⟨m.isShutdown, ?_, by simp⟩,
      fun i m hm hi => ?_, Or.inl rfl⟩
    · have hi : i < w.managers.size := (Array.getElem?_eq_some_iff.mp hm).1
      simp only [perform, spawn, Array.getElem?_push, if_neg (Nat.ne_of_lt hi)]
      exact hm
    · simp only [perform, spawn, Array.getElem?_push] at hm
      split at hm
      · cases hm
        rfl
      · exact absurd (Array.getElem?_eq_some_iff.mp hm).1 (Nat.not_lt.mpr hi)
  | shutDown i => exact shutDown_spec w i
  | revoke key =>
    obtain ⟨locks, heq, hl⟩ := revoke_eq w key
    simp only [perform, heq]
    exact .of_locks hl nofun
  | hold key session =>
    obtain ⟨locks, heq, hl⟩ := hold_eq w key session
    simp only [perform, heq]
    exact .of_locks hl nofun
  | unhold lease =>
    obtain ⟨locks, heq, hl⟩ := unhold_eq w lease
    simp only [perform, heq]
    exact .of_locks hl nofun
  | notify =>
    obtain ⟨locks, heq, hl⟩ := notify_eq w
    simp only [perform, heq]
    exact .of_locks hl nofun
  | lose =>
    obtain ⟨locks, heq, hl⟩ := lose_eq w
    simp only [perform, heq]
    exact .of_locks hl nofun
  | failStore reads writes =>
    have h : ActStep w (.failStore reads writes) w := .of_watchers (.refl w _) nofun
    exact ⟨h.watchers, rfl, rfl, h.locks, h.manager, h.newcomer, Or.inl rfl⟩
  | putValue key value =>
    have h : ActStep w (.putValue key value) w := .of_watchers (.refl w _) nofun
    exact ⟨h.watchers, rfl, rfl, h.locks, h.manager, h.newcomer, Or.inr ⟨key, value, rfl, rfl⟩⟩
  | addList answer => exact .of_managers (.refl w _) rfl rfl (.refl _) rfl rfl fun _ _ _ => nofun
  | setRecord id answer => exact .of_managers (.refl w _) rfl rfl (.refl _) rfl rfl fun _ _ _ => nofun
  | cancel i =>
    have hx := cancelWatcher_stirs (w := w) (.act (.cancel i)) i rfl
    obtain ⟨watchers, heq⟩ := cancelWatcher_eq w i
    simp only [perform, heq] at hx ⊢
    exact .of_watchers hx nofun
  | halt i =>
    have hx := haltWatcher_stirs w (.act (.halt i)) i
    obtain ⟨watchers, heq⟩ := haltWatcher_eq w i
    simp only [perform, heq] at hx ⊢
    exact .of_watchers hx nofun
  | receive i =>
    have hx := onWatcher_stirs w (.act (.receive i)) i fun _ => .receives
    obtain ⟨watchers, heq⟩ := onWatcher_eq w i fun x => { x with channel := x.channel.take.2 }
    simp only [perform, heq] at hx ⊢
    exact .of_watchers hx nofun
  | abandon i =>
    have hx := onWatcher_stirs w (.act (.abandon i)) i fun _ => .abandons
    obtain ⟨watchers, heq⟩ := onWatcher_eq w i fun x =>
      { x with channel := { x.channel with abandoned := true } }
    simp only [perform, heq] at hx ⊢
    exact .of_watchers hx nofun

end World

end ChangeFeed.Engine
