import ChangeFeed.Proofs.Engine.Events

/-!
# The work on a change

What became of the work on a change is told by its phase and by the events so far.

* `due` and `accepted` are the messages that the work set out to put and those that the sink
  accepted. `Publication.Accounts` says how far a piece of work has come with them, and
  `accounts_after` that no work ever goes astray.
* `failures_after`: the failures that are counted are the pieces of work that ended with one.
-/

namespace ChangeFeed.Engine

/-! ## One piece of work -/

/-- Where a piece of work is with its messages. Each list of `dues` was set out once, and `sent` was
accepted. -/
def Publication.Accounts (p : Publication) (dues : List (List Message)) (sent : List Message) :
    Prop :=
  match p.phase with
  | .begun | .lookingUp _ _ => dues = [] ∧ sent = []
  | .putting _ left _ => dues = [sent ++ left]
  | .ended (.ok ()) => dues = [sent]
  | .ended (.error _) => dues = [] ∧ sent = [] ∨ ∃ left, dues = [sent ++ left]

namespace Publication

variable {p p' : Publication} {dues : List (List Message)} {sent : List Message}
  {due : Option (List Message)} {accepted : Option Message}

theorem accounts_of_begun (h : p.phase = .begun) : p.Accounts [] [] := by
  simp [Accounts, h]

theorem Accounts.eq_nil (ha : p.Accounts dues sent) (h : p.phase.isEarly = true) :
    dues = [] ∧ sent = [] := by
  unfold Accounts at ha
  cases hph : p.phase with
  | begun => simpa [hph] using ha
  | lookingUp due answer => simpa [hph] using ha
  | putting current left newest => simp [hph, Phase.isEarly] at h
  | ended result => simp [hph, Phase.isEarly] at h

/-- Work that has not ended may fail wherever it is. -/
theorem Accounts.fails (ha : p.Accounts dues sent) (h : World.Publication.isEnded p = false) :
    dues = [] ∧ sent = [] ∨ ∃ left, dues = [sent ++ left] := by
  unfold Accounts at ha
  cases hph : p.phase with
  | begun => exact Or.inl (by simpa [hph] using ha)
  | lookingUp due answer => exact Or.inl (by simpa [hph] using ha)
  | putting current left newest => exact Or.inr ⟨left, by simpa [hph] using ha⟩
  | ended result => simp [World.Publication.isEnded, hph] at h

theorem Move.accounts (hm : Move p due accepted p') (ha : p.Accounts dues sent) :
    p'.Accounts (dues ++ due.toList) (sent ++ accepted.toList) := by
  cases hm with
  | rests => simpa using ha
  | asks time answer h =>
    obtain ⟨rfl, rfl⟩ := ha.eq_nil h
    exact ⟨rfl, rfl⟩
  | setsOut ms newest h =>
    obtain ⟨rfl, rfl⟩ := ha.eq_nil h
    rfl
  | waits current put m rest newest h =>
    simp only [Accounts, h] at ha
    simpa [Accounts] using ha
  | accepted current m rest newest h =>
    simp only [Accounts, h] at ha
    simpa [Accounts] using ha
  | fails error h => simpa [Accounts] using ha.fails h
  | ends current newest h =>
    simp only [Accounts, h] at ha
    simpa [Accounts] using ha

end Publication

namespace World

variable {w : World} {e : Event}

/-! ## One event -/

/-- A piece of work was there before an event, or has just been begun. -/
theorem publication_cases {j : Nat} {p' : Publication}
    (hp' : (w.next e).publications[j]? = some p') :
    (∃ p, w.publications[j]? = some p ∧
      Publication.Move p (w.dueAt? j e) (w.acceptedAt? j e) p') ∨
      w.publications[j]? = none ∧ p'.phase = .begun ∧ (p'.watcher, p'.change) ∈ w.handedAt e := by
  obtain ⟨old, heq, hsize, hold⟩ := next_publications w e
  cases hj : w.publications[j]? with
  | some p =>
    obtain ⟨p₁, hp₁, hm⟩ := next_publication e hj
    rw [hp'] at hp₁
    cases hp₁
    exact Or.inl ⟨p, rfl, hm⟩
  | none =>
    have hle : old.size ≤ j := by
      rw [hsize]
      exact Array.getElem?_eq_none_iff.mp hj
    rw [heq, Array.getElem?_append_right hle, List.getElem?_toArray] at hp'
    obtain ⟨⟨k, c⟩, hmem, rfl⟩ := List.mem_map.mp (List.mem_of_getElem? hp')
    exact Or.inr ⟨rfl, rfl, hmem⟩

theorem dueAt?_of_none {j : Nat} (hj : w.publications[j]? = none) :
    w.dueAt? j e = none ∧ w.acceptedAt? j e = none := by
  cases e with
  | act a => exact ⟨rfl, rfl⟩
  | step now task =>
    cases task with
    | publication i =>
      by_cases h : i = j
      · subst h
        simp [dueAt?, acceptedAt?, due?, accepted?, hj]
      · simp [dueAt?, acceptedAt?, h]
    | _ => exact ⟨rfl, rfl⟩

/-! ## Runs -/

/-- The lists of messages that the work on a change sets out to put during some events. -/
def due (w : World) (j : Nat) : List Event → List (List Message)
  | [] => []
  | e :: events => (w.dueAt? j e).toList ++ (w.next e).due j events

/-- The messages of the work on a change that the sink accepts during some events. -/
def accepted (w : World) (j : Nat) : List Event → List Message
  | [] => []
  | e :: events => (w.acceptedAt? j e).toList ++ (w.next e).accepted j events

theorem accounts_after_of_some {j : Nat} {p : Publication} {dues : List (List Message)}
    {sent : List Message} (hp : w.publications[j]? = some p) (ha : p.Accounts dues sent)
    (events : List Event) :
    ∃ p', (w.after events).publications[j]? = some p' ∧
      p'.Accounts (dues ++ w.due j events) (sent ++ w.accepted j events) := by
  induction events generalizing w p dues sent with
  | nil => exact ⟨p, hp, by simpa [due, accepted] using ha⟩
  | cons e rest ih =>
    obtain ⟨p₁, hp₁, hm⟩ := next_publication e hp
    obtain ⟨p', hp', ha'⟩ := ih hp₁ (hm.accounts ha)
    refine ⟨p', hp', ?_⟩
    simpa [due, accepted] using ha'

/-- All work that is begun during some events accounts for the messages of these events. -/
theorem accounts_after {j : Nat} {p : Publication} {events : List Event}
    (hj : w.publications[j]? = none) (hp : (w.after events).publications[j]? = some p) :
    p.Accounts (w.due j events) (w.accepted j events) := by
  induction events generalizing w with
  | nil =>
    rw [after_nil, hj] at hp
    cases hp
  | cons e rest ih =>
    obtain ⟨hd, ha⟩ := dueAt?_of_none (e := e) hj
    simp only [due, accepted, hd, ha, Option.toList_none, List.nil_append]
    cases hj₁ : (w.next e).publications[j]? with
    | none => exact ih hj₁ hp
    | some p₁ =>
      rcases publication_cases hj₁ with ⟨p₀, hp₀, -⟩ | ⟨-, hbegun, -⟩
      · rw [hj] at hp₀
        cases hp₀
      · -- it was begun with this event, and its messages all come later
        obtain ⟨p', hp', haccounts⟩ :=
          accounts_after_of_some hj₁ (Publication.accounts_of_begun hbegun) rest
        rw [after_cons, hp'] at hp
        cases hp
        exact haccounts

/-! ## Owners -/

/-- All work is for some watcher. -/
def Owned (w : World) : Prop :=
  ∀ (j : Nat) (p : Publication), w.publications[j]? = some p → p.watcher < w.watchers.size

theorem Owned.next (h : w.Owned) (e : Event) : (w.next e).Owned := by
  intro j p' hp'
  have hsize := size_watchers_le_next w e
  rcases publication_cases hp' with ⟨p, hp, hm⟩ | ⟨-, -, hmem⟩
  · rw [hm.owner.1]
    exact Nat.lt_of_lt_of_le (h j p hp) hsize
  · obtain ⟨-, x, -, -, hx, -⟩ := mem_handedAt hmem
    exact Nat.lt_of_lt_of_le (Array.getElem?_eq_some_iff.mp hx).1 hsize

theorem Owned.after (h : w.Owned) (events : List Event) : (w.after events).Owned :=
  after_of_next (fun _ e h => h.next e) h events

/-! ## Failures -/

def roleOf? (w : World) (k : Nat) : Option Role := (w.watchers[k]?).map Watcher.role

/-- Whether a piece of work of a role ended with a failure. -/
def hasFailedFor (w : World) (role : Role) (p : Publication) : Bool :=
  Publication.hasFailed p && decide (w.roleOf? p.watcher = some role)

/-- The number of pieces of work of a role that ended with a failure. -/
def failed (w : World) (role : Role) : Nat :=
  w.publications.toList.countP (w.hasFailedFor role)

variable {role : Role}

theorem roleOf?_next (e : Event) {k : Nat} (hk : k < w.watchers.size) :
    (w.next e).roleOf? k = w.roleOf? k := by
  have hx : w.watchers[k]? = some w.watchers[k] := Array.getElem?_eq_getElem hk
  obtain ⟨x', hx', hm⟩ := next_watcher e hx
  simp only [roleOf?, hx, hx', Option.map_some, hm.role_eq]

theorem countP_hasFailedFor_next (e : Event) {ps : List Publication}
    (h : ∀ p ∈ ps, p.watcher < w.watchers.size) :
    ps.countP ((w.next e).hasFailedFor role) = ps.countP (w.hasFailedFor role) := by
  refine List.countP_congr fun p hp => ?_
  simp only [hasFailedFor, roleOf?_next e (h p hp)]

theorem Owned.mem (h : w.Owned) {p : Publication} (hp : p ∈ w.publications.toList) :
    p.watcher < w.watchers.size := by
  obtain ⟨j, hj⟩ := List.mem_iff_getElem?.mp hp
  exact h j p (by rw [← hj, Array.getElem?_toList])

/-- An event that only begins work changes no failure. -/
theorem Owned.failed_next (h : w.Owned) {new : List Publication}
    (hp : (w.next e).publications = w.publications ++ new.toArray)
    (hn : ∀ p ∈ new, p.phase = .begun) : (w.next e).failed role = w.failed role := by
  have hnew : new.countP ((w.next e).hasFailedFor role) = 0 := by
    refine List.countP_eq_zero.mpr fun p hp => ?_
    simp [hasFailedFor, Publication.hasFailed, hn p hp]
  simp only [failed, hp, Array.toList_append, List.countP_append, hnew, Nat.add_zero]
  exact countP_hasFailedFor_next e fun p hp => h.mem hp

theorem name_injective {role role' : Role} (h : role.name = role'.name) : role = role' := by
  revert h
  cases role <;> cases role' <;> decide

/-- What is counted with an event is a piece of work that ends with a failure. -/
theorem Owned.failures_next (h : w.Owned) (e : Event) (role : Role) :
    (w.next e).failures role = w.failures role ∧ (w.next e).failed role = w.failed role ∨
      (w.next e).failures role = (w.failures role + 1) % UInt64.size ∧
        (w.next e).failed role = w.failed role + 1 := by
  have hs := next_spec w e
  have keeps {new : List Publication}
      (hp : (w.next e).publications = w.publications ++ new.toArray)
      (hn : ∀ p ∈ new, p.phase = .begun) (hf : (w.next e).failures = w.failures) :
      (w.next e).failures role = w.failures role ∧ (w.next e).failed role = w.failed role ∨
        (w.next e).failures role = (w.failures role + 1) % UInt64.size ∧
          (w.next e).failed role = w.failed role + 1 :=
    Or.inl ⟨congrFun hf role, h.failed_next hp hn⟩
  have none_begun : ∀ p ∈ ([] : List Publication), p.phase = .begun := by simp
  generalize heq : w.next e = w' at hs
  cases hs with
  | rests e w' hw hr hc =>
    subst heq
    exact keeps (by rw [publications_eq_of_work hw]; simp) none_begun (failures_of_metrics hc)
  | loop now i x x' w' hx hl =>
    subst heq
    refine keeps hl.publications (fun p hp => ?_) (hl.counts.failures (by decide))
    obtain ⟨c, -, rfl⟩ := List.mem_map.mp hp
    rfl
  | watcher now i task htask x x' w' hx hw hr hc hm =>
    subst heq
    exact keeps (by rw [publications_eq_of_work hw]; simp [setWatcher]) none_begun
      (failures_of_metrics hc)
  | manager now i m phase w' hm hl =>
    subst heq
    exact keeps (by rw [hl.publications]; simp) none_begun hl.failures
  | act a w' hl =>
    subst heq
    exact keeps (by rw [hl.publications]; simp) none_begun (failures_of_metrics hl.metrics)
  | publication now i p p' x w' hp hx hl =>
    have hi : i < w.publications.toList.length :=
      (Array.getElem?_eq_some_iff.mp hp).1
    have hpi : w.publications.toList[i] = p := by
      rw [Array.getElem_toList]
      exact (Array.getElem?_eq_some_iff.mp hp).2
    -- the work had not ended, so it was not among the failures
    have hrunning : w.hasFailedFor role p = false := by
      simp [hasFailedFor, hl.not_hasFailed]
    have howners : ∀ q ∈ w.publications.toList.set i p', q.watcher < w.watchers.size := by
      intro q hq
      rcases List.mem_or_eq_of_mem_set hq with hq | rfl
      · exact h.mem hq
      · rw [hl.move.owner.1]
        exact h i p hp
    have hcount : w'.failed role = w.failed role + if w.hasFailedFor role p' then 1 else 0 := by
      rw [failed, hl.publications, Array.toList_setIfInBounds, ← heq,
        countP_hasFailedFor_next _ howners, List.countP_set hi, hpi, hrunning]
      simp [failed]
    have hrole : w.roleOf? p'.watcher = some x.role := by
      rw [hl.move.owner.1, roleOf?, hx, Option.map_some]
    rw [hcount]
    simp only [failures, hl.metrics, hasFailedFor, hrole]
    cases Publication.hasFailed p' with
    | false => exact Or.inl ⟨rfl, rfl⟩
    | true =>
      by_cases hr : x.role = role
      · subst hr
        right
        exact ⟨Metrics.value_add_self _ _ _ _, by simp⟩
      · left
        refine ⟨Metrics.value_add_of_ne (fun heq => ?_) _ _, by simp [hr]⟩
        exact hr (name_injective (congrArg Prod.snd heq)).symm

/-- Failures are counted one by one, in words of 64 bits. -/
theorem Owned.failures_after (h : w.Owned) (events : List Event) (role : Role) :
    ((w.after events).failures role + w.failed role) % UInt64.size =
      (w.failures role + (w.after events).failed role) % UInt64.size := by
  induction events generalizing w with
  | nil => rfl
  | cons e rest ih =>
    have hrest := ih (h.next e)
    rw [after_cons]
    unfold UInt64.size at hrest ⊢
    rcases h.failures_next e role with ⟨hf, hn⟩ | ⟨hf, hn⟩
    · rw [hf, hn] at hrest
      exact hrest
    · unfold UInt64.size at hf
      rw [hf, hn] at hrest
      omega

end World

end ChangeFeed.Engine
