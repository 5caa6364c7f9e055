import ChangeFeed.Lock.Office
import ChangeFeed.Proofs.Lock.Sessions

/-!
# Every lease is accounted for

The table of a lock service and the monitors of its leases are compared with a ledger: the list of
all leases that were ever granted, each of them taken back or not. A lease is taken back when its
owner releases it and when its lock is revoked; nothing else is written down.

* `Office.Accounted` says that the table names the leases that were not taken back, and that their
  monitors are the open ones. `Accounted.next` is one event, `accounted_after` a run.
* `Office.leases_safe` puts together what follows for every run of the service.
-/

namespace ChangeFeed.Lock

namespace Table

variable {table : Table} {key session : String} {lease : Lease}

theorem mem_free : lease ∈ (table.free key).holders ↔ lease ∈ table.holders ∧ lease.key ≠ key := by
  simp [free]

/-- In a table that names each lock once, the holder of a lock is read off its entry. -/
theorem holder?_eq_some_iff (h : (table.holders.map Lease.key).Nodup) :
    table.holder? key = some session ↔ ⟨key, session⟩ ∈ table.holders := by
  unfold holder?
  generalize table.holders = holders at h
  induction holders with
  | nil => simp
  | cons first rest ih =>
    rw [List.map_cons, List.nodup_cons] at h
    rw [List.find?_cons]
    by_cases hk : first.key = key
    · have hno : (⟨key, session⟩ : Lease) ∉ rest := by
        intro hmem
        exact h.1 (hk ▸ List.mem_map_of_mem hmem)
      have hfirst : (⟨key, session⟩ : Lease) = first ↔ first.session = session := by
        cases first
        simp only at hk
        subst hk
        simp [eq_comm]
      simp [hk, hno, hfirst]
    · have hne : (⟨key, session⟩ : Lease) ≠ first := by
        intro heq
        exact hk (by rw [← heq])
      simp [hk, hne, ih h.2]

theorem holds_iff_mem (h : (table.holders.map Lease.key).Nodup) :
    table.holds lease = true ↔ lease ∈ table.holders := by
  rw [holds, decide_eq_true_eq, holder?_eq_some_iff h]

theorem holder?_eq_none_iff :
    table.holder? key = none ↔ ∀ lease ∈ table.holders, lease.key ≠ key := by
  simp [holder?]

end Table

namespace Office

variable {s s' : Office} {taken taken' : Nat → Bool} {key : String} {lease : Lease} {n m : Nat}

/-! ## Releases and revocations -/

theorem release_of_holds (h : s.service.table.holds lease = true) :
    s.release lease = (.ok (), { s with
      service := ({ s.service with table := s.service.table.free lease.key } : Service).markAll
      senders := s.sendersWithout lease.key }) := by
  simp [release, Service.release, Table.release, h]

theorem release_of_not_holds (h : s.service.table.holds lease = false) :
    s.release lease = (.error (.release lease.key
      ("session " ++ lease.session ++ " no longer holds the lock")), s) := by
  simp [release, Service.release, Table.release, h]

theorem revoke_of_held (h : s.service.table.holder? key ≠ none) :
    s.revoke key = (true, { s with
      service := ({ s.service with table := s.service.table.free key } : Service).markAll
      senders := s.sendersWithout key }) := by
  cases hk : s.service.table.holder? key with
  | none => exact absurd hk h
  | some session => simp [revoke, Service.revoke, Table.revoke, hk]

theorem revoke_of_free (h : s.service.table.holder? key = none) : s.revoke key = (false, s) := by
  simp [revoke, Service.revoke, Table.revoke, h]

/-- A look at the table grants a lock to a client, or says nothing but that the client has
looked. -/
theorem look_cases (s : Office) (ticket : Nat) :
    (∃ w lease table, w ∈ s.service.waiters ∧ w.ticket = ticket ∧ ticket ∈ s.looking ∧
      s.service.table.grant? w.key w.name = some (lease, table) ∧
      s.look ticket = (some s.leases.length, { s with
        service := { s.service.cancel ticket with table }
        looking := s.looking.filter (· ≠ ticket)
        leases := s.leases ++ [lease]
        senders := s.senders ++ [(w.key, s.leases.length)] })) ∨
      (∃ w, w ∈ s.service.waiters ∧ w.ticket = ticket ∧ ticket ∈ s.looking ∧
        s.service.table.holder? w.key ≠ none ∧
        s.look ticket = (none, { s with looking := s.looking.filter (· ≠ ticket) })) ∨
      (∀ w ∈ s.service.waiters, w.ticket = ticket → ticket ∉ s.looking) ∧
        s.look ticket = (none, s) := by
  unfold look
  cases hf : s.service.waiters.find? fun w => w.ticket = ticket && ticket ∈ s.looking with
  | none =>
    refine Or.inr (Or.inr ⟨fun w hw ht hl => ?_, rfl⟩)
    have hno := List.find?_eq_none.mp hf w hw
    simp [ht, hl] at hno
  | some w =>
    have hw : w ∈ s.service.waiters := List.mem_of_find?_eq_some hf
    have ht := List.find?_some hf
    simp only [Bool.and_eq_true, decide_eq_true_eq] at ht
    cases hg : s.service.table.grant? w.key w.name with
    | none =>
      refine Or.inr (Or.inl ⟨w, hw, ht.1, ht.2, fun hfree => ?_, by simp only [hg]⟩)
      have hsome : (s.service.table.grant? w.key w.name).isSome := Table.grant?_isSome_iff.mpr hfree
      rw [hg] at hsome
      cases hsome
    | some granted =>
      obtain ⟨lease, table⟩ := granted
      exact Or.inl ⟨w, lease, table, hw, ht.1, ht.2, hg, by simp only [hg]⟩

/-! ## The ledger -/

/-- Whether an event takes back a lease. -/
def takesAt (s : Office) (n : Nat) : Event → Bool
  | .release m => m = n && n < s.leases.length
  | .revoke key => (s.leases[n]?).any (·.key = key)
  | _ => false

/-- Whether a lease is taken back during some events. -/
def isTaken (s : Office) (n : Nat) : List Event → Bool
  | [] => false
  | e :: events => s.takesAt n e || (s.next e).isTaken n events

/-- The table and the monitors are what the ledger says. -/
structure Accounted (s : Office) (taken : Nat → Bool) : Prop where
  grants : s.service.table.grants = s.leases.length
  session : ∀ n lease, s.leases[n]? = some lease →
    ∃ name, lease.session = Table.sessionId name (n + 1)
  single : (s.service.table.holders.map Lease.key).Nodup
  holders : ∀ lease, lease ∈ s.service.table.holders ↔
    ∃ n, s.leases[n]? = some lease ∧ taken n = false
  senders : ∀ key n, (key, n) ∈ s.senders ↔
    ∃ lease, s.leases[n]? = some lease ∧ lease.key = key ∧ taken n = false
  fresh : ∀ n, s.leases.length ≤ n → taken n = false

namespace Accounted

theorem empty : Office.empty.Accounted fun _ => false where
  grants := rfl
  session := fun n lease h => by cases h
  single := List.nodup_nil
  holders := fun lease => by simp [Office.empty, Service.empty, Table.empty]
  senders := fun key n => by simp [Office.empty]
  fresh := fun _ _ => rfl

/-- No session is granted twice. -/
theorem eq_of_session (h : s.Accounted taken) {a b : Lease} (ha : s.leases[n]? = some a)
    (hb : s.leases[m]? = some b) (hs : a.session = b.session) : n = m := by
  obtain ⟨name, hname⟩ := h.session n a ha
  obtain ⟨name', hname'⟩ := h.session m b hb
  have hnm : n + 1 = m + 1 := Table.sessionId_inj (hname ▸ hname' ▸ hs)
  omega

theorem holds_iff (h : s.Accounted taken) (hn : s.leases[n]? = some lease) :
    s.service.table.holds lease = true ↔ taken n = false := by
  rw [Table.holds_iff_mem h.single, h.holders]
  constructor
  · rintro ⟨m, hm, ht⟩
    rwa [h.eq_of_session hn hm rfl]
  · intro ht
    exact ⟨n, hn, ht⟩

theorem isOpen_iff (h : s.Accounted taken) (hn : s.leases[n]? = some lease) :
    s.isOpen n = true ↔ taken n = false := by
  have hopen : s.isOpen n = true ↔ ∃ key, (key, n) ∈ s.senders := by
    simp [isOpen]
  rw [hopen]
  constructor
  · rintro ⟨key, hmem⟩
    obtain ⟨-, -, -, ht⟩ := (h.senders key n).mp hmem
    exact ht
  · intro ht
    exact ⟨lease.key, (h.senders lease.key n).mpr ⟨lease, hn, rfl, ht⟩⟩

/-- Two leases of one lock that were not taken back are one lease. -/
theorem eq_of_key (h : s.Accounted taken) {a b : Lease} (ha : s.leases[n]? = some a)
    (hb : s.leases[m]? = some b) (hta : taken n = false) (htb : taken m = false)
    (hk : a.key = b.key) : n = m := by
  have hholds : s.service.table.holds a = true := (h.holds_iff ha).mpr hta
  have hholds' : s.service.table.holds b = true := (h.holds_iff hb).mpr htb
  exact h.eq_of_session ha hb (Table.session_eq_of_holds hholds hholds' hk)

/-! ## One event -/

theorem same (h : s.Accounted taken) (htable : s'.service.table = s.service.table)
    (hleases : s'.leases = s.leases) (hsenders : s'.senders = s.senders) :
    s'.Accounted taken where
  grants := by rw [htable, hleases]; exact h.grants
  session := by rw [hleases]; exact h.session
  single := by rw [htable]; exact h.single
  holders := by rw [htable, hleases]; exact h.holders
  senders := by rw [hsenders, hleases]; exact h.senders
  fresh := by rw [hleases]; exact h.fresh

theorem congr (h : s.Accounted taken) (ht : ∀ n, taken' n = taken n) : s.Accounted taken' := by
  have heq : taken' = taken := funext ht
  rw [heq]
  exact h

/-- The entry of a grant goes to the end of the ledger. -/
theorem grant (h : s.Accounted taken) {name : String} {table : Table}
    (hg : s.service.table.grant? key name = some (lease, table))
    (htable : s'.service.table = table) (hleases : s'.leases = s.leases ++ [lease])
    (hsenders : s'.senders = s.senders ++ [(key, s.leases.length)]) : s'.Accounted taken := by
  obtain ⟨hfree, hlease, htable'⟩ := Table.grant?_eq_some hg
  have hnew : taken s.leases.length = false := h.fresh _ (Nat.le_refl _)
  -- the entries of the longer ledger are the old ones and the new one
  have entries (n : Nat) (l : Lease) : s'.leases[n]? = some l ↔
      s.leases[n]? = some l ∨ n = s.leases.length ∧ l = lease := by
    rw [hleases]
    rcases Nat.lt_trichotomy n s.leases.length with hlt | rfl | hgt
    · rw [List.getElem?_append_left hlt]
      have : n ≠ s.leases.length := Nat.ne_of_lt hlt
      simp [this]
    · rw [List.getElem?_append_right (Nat.le_refl _)]
      simp [eq_comm]
    · rw [List.getElem?_append_right (Nat.le_of_lt hgt), List.getElem?_eq_none (Nat.le_of_lt hgt)]
      have hne : n ≠ s.leases.length := Nat.ne_of_gt hgt
      have hpos : n - s.leases.length ≠ 0 := by omega
      simp [hne, hpos]
  refine ⟨?_, fun n l hl => ?_, ?_, fun l => ?_, fun k n => ?_, fun n hn => ?_⟩
  · rw [htable, htable', hleases, List.length_append]
    simp [h.grants]
  · rcases (entries n l).mp hl with hl | ⟨rfl, rfl⟩
    · exact h.session n l hl
    · refine ⟨name, ?_⟩
      rw [hlease, h.grants]
  · have hk : lease.key = key := by rw [hlease]
    rw [htable, htable', List.map_append, List.nodup_append]
    refine ⟨h.single, by simp, ?_⟩
    intro a ha b hb hab
    obtain ⟨l, hl, rfl⟩ := List.mem_map.mp ha
    have hb' : b = key := by simpa [hk] using hb
    exact Table.holder?_eq_none_iff.mp hfree l hl (hab.trans hb')
  · rw [htable, htable', List.mem_append, h.holders, List.mem_singleton]
    constructor
    · rintro (⟨n, hn, ht⟩ | rfl)
      · exact ⟨n, (entries n l).mpr (Or.inl hn), ht⟩
      · exact ⟨_, (entries _ _).mpr (Or.inr ⟨rfl, rfl⟩), hnew⟩
    · rintro ⟨n, hn, ht⟩
      rcases (entries n l).mp hn with hn | ⟨-, rfl⟩
      · exact Or.inl ⟨n, hn, ht⟩
      · exact Or.inr rfl
  · have hk : lease.key = key := by rw [hlease]
    rw [hsenders, List.mem_append, h.senders, List.mem_singleton]
    constructor
    · rintro (⟨l, hl, hlk, ht⟩ | heq)
      · exact ⟨l, (entries n l).mpr (Or.inl hl), hlk, ht⟩
      · cases heq
        exact ⟨lease, (entries _ _).mpr (Or.inr ⟨rfl, rfl⟩), hk, hnew⟩
    · rintro ⟨l, hl, rfl, ht⟩
      rcases (entries n l).mp hl with hl | ⟨rfl, rfl⟩
      · exact Or.inl ⟨l, hl, rfl, ht⟩
      · exact Or.inr (by rw [hk])
  · rw [hleases, List.length_append] at hn
    exact h.fresh n (by simp only [List.length_singleton] at hn; omega)

/-- A lock that becomes free takes its leases along. -/
theorem free (h : s.Accounted taken) (htable : s'.service.table = s.service.table.free key)
    (hleases : s'.leases = s.leases) (hsenders : s'.senders = s.sendersWithout key)
    (ht : ∀ n lease, s.leases[n]? = some lease →
      (taken' n = false ↔ taken n = false ∧ lease.key ≠ key))
    (hfresh : ∀ n, s.leases.length ≤ n → taken' n = false) : s'.Accounted taken' where
  grants := by rw [htable, hleases]; exact h.grants
  session := by rw [hleases]; exact h.session
  single := by
    rw [htable]
    exact h.single.sublist (List.Sublist.map _ List.filter_sublist)
  holders := fun l => by
    rw [htable, hleases, Table.mem_free, h.holders]
    constructor
    · rintro ⟨⟨n, hn, htaken⟩, hk⟩
      exact ⟨n, hn, (ht n l hn).mpr ⟨htaken, hk⟩⟩
    · rintro ⟨n, hn, htaken⟩
      obtain ⟨htaken, hk⟩ := (ht n l hn).mp htaken
      exact ⟨⟨n, hn, htaken⟩, hk⟩
  senders := fun k n => by
    rw [hsenders, hleases, sendersWithout, List.mem_filter, h.senders, decide_eq_true_eq]
    constructor
    · rintro ⟨⟨l, hl, rfl, htaken⟩, hk⟩
      exact ⟨l, hl, rfl, (ht n l hl).mpr ⟨htaken, hk⟩⟩
    · rintro ⟨l, hl, rfl, htaken⟩
      obtain ⟨htaken, hk⟩ := (ht n l hl).mp htaken
      exact ⟨⟨l, hl, rfl, htaken⟩, hk⟩
  fresh := by rw [hleases]; exact hfresh

theorem next_release (h : s.Accounted taken) (n : Nat) :
    (s.next (.release n)).Accounted fun m => taken m || s.takesAt m (.release n) := by
  cases hn : s.leases[n]? with
  | none =>
    have hle : s.leases.length ≤ n := List.getElem?_eq_none_iff.mp hn
    have hnext : s.next (.release n) = s := by simp [next, hn]
    rw [hnext]
    refine h.congr fun m => ?_
    have hno : s.takesAt m (.release n) = false := by
      simp only [takesAt, Bool.and_eq_false_imp, decide_eq_true_eq, decide_eq_false_iff_not]
      omega
    rw [hno, Bool.or_false]
  | some lease =>
    have hlt : n < s.leases.length := (List.getElem?_eq_some_iff.mp hn).1
    have htakes (m : Nat) : s.takesAt m (.release n) = decide (n = m) := by
      by_cases hm : n = m
      · subst hm
        simp [takesAt, hlt]
      · simp [takesAt, hm]
    cases hheld : s.service.table.holds lease with
    | false =>
      -- the lease was taken back before, and nothing happens
      have hgone : taken n = true := by
        cases ht : taken n with
        | true => rfl
        | false =>
          rw [(h.holds_iff hn).mpr ht] at hheld
          cases hheld
      have hnext : s.next (.release n) = s := by simp [next, hn, release_of_not_holds hheld]
      rw [hnext]
      refine h.congr fun m => ?_
      rw [htakes]
      by_cases hm : n = m
      · subst hm
        simp [hgone]
      · simp [hm]
    | true =>
      have hkept : taken n = false := (h.holds_iff hn).mp hheld
      have hnext : s.next (.release n) = (s.release lease).2 := by simp [next, hn]
      rw [hnext, release_of_holds hheld]
      refine h.free rfl rfl rfl (fun m l hm => ?_) fun m hm => ?_
      · rw [htakes, Bool.or_eq_false_iff, decide_eq_false_iff_not]
        -- of the leases of this lock only the released one was left
        constructor
        · rintro ⟨ht, hne⟩
          exact ⟨ht, fun hk => hne (h.eq_of_key hm hn ht hkept hk).symm⟩
        · rintro ⟨ht, hk⟩
          refine ⟨ht, fun heq => hk ?_⟩
          subst heq
          rw [hn] at hm
          cases hm
          rfl
      · have hne : n ≠ m := by omega
        rw [htakes, h.fresh m hm]
        simp [hne]

theorem next_revoke (h : s.Accounted taken) (key : String) :
    (s.next (.revoke key)).Accounted fun m => taken m || s.takesAt m (.revoke key) := by
  have hnext : s.next (.revoke key) = (s.revoke key).2 := rfl
  by_cases hfree : s.service.table.holder? key = none
  · rw [hnext, revoke_of_free hfree]
    refine h.congr fun m => ?_
    cases hm : s.leases[m]? with
    | none => simp [takesAt, hm]
    | some lease =>
      by_cases hk : lease.key = key
      · have hgone : taken m = true := by
          cases ht : taken m with
          | true => rfl
          | false =>
            have hmem : lease ∈ s.service.table.holders := (h.holders lease).mpr ⟨m, hm, ht⟩
            exact absurd hk (Table.holder?_eq_none_iff.mp hfree lease hmem)
        simp [hgone]
      · simp [takesAt, hm, hk]
  · rw [hnext, revoke_of_held hfree]
    refine h.free rfl rfl rfl (fun m lease hm => ?_) fun m hm => ?_
    · simp [takesAt, hm]
    · simp [takesAt, List.getElem?_eq_none hm, h.fresh m hm]

theorem next (h : s.Accounted taken) (e : Event) :
    (s.next e).Accounted fun n => taken n || s.takesAt n e := by
  -- the other events say nothing about leases that were granted before
  have stays (htakes : ∀ n, s.takesAt n e = false) (h' : (s.next e).Accounted taken) :
      (s.next e).Accounted fun n => taken n || s.takesAt n e :=
    h'.congr fun n => by rw [htakes, Bool.or_false]
  cases e with
  | release n => exact h.next_release n
  | revoke key => exact h.next_revoke key
  | arrive key name => exact stays (fun _ => rfl) (h.same rfl rfl rfl)
  | cancel ticket => exact stays (fun _ => rfl) (h.same rfl rfl rfl)
  | drop n => exact stays (fun _ => rfl) (h.same rfl rfl rfl)
  | wake ticket =>
    refine stays (fun _ => rfl) ?_
    simp only [Office.next, wake]
    split
    · exact h
    · exact h.same rfl rfl rfl
  | look ticket =>
    refine stays (fun _ => rfl) ?_
    simp only [Office.next]
    rcases look_cases s ticket with ⟨w, lease, table, -, -, -, hg, heq⟩ | ⟨w, -, -, -, -, heq⟩ |
      ⟨-, heq⟩
    · rw [heq]
      exact h.grant hg rfl rfl rfl
    · rw [heq]
      exact h.same rfl rfl rfl
    · rw [heq]
      exact h

/-! ## Runs -/

theorem after (h : s.Accounted taken) (events : List Event) :
    (s.after events).Accounted fun n => taken n || s.isTaken n events := by
  induction events generalizing s taken with
  | nil => exact h.congr fun n => by simp [isTaken]
  | cons e rest ih =>
    refine (ih (h.next e)).congr fun n => ?_
    simp [isTaken, Bool.or_assoc]

end Accounted

theorem accounted_after (events : List Event) :
    (empty.after events).Accounted fun n => empty.isTaken n events :=
  (Accounted.empty.after events).congr fun n => by rw [Bool.false_or]

/-- What holds after every run of a lock service. Each lock has one holder at most, and no session
is granted twice. A monitor is open exactly while the table names the session of its lease. A lock
is held by a session exactly if the lease of that session was granted and was taken back neither by
its owner nor by a revocation. A release succeeds exactly for the holder; any other release is an
error that names the lost session, and changes nothing at all. Nor does a client change the table
that gives up, or looks and is granted nothing. -/
theorem leases_safe (events : List Event) :
    let s := empty.after events
    (s.service.table.holders.map Lease.key).Nodup ∧
      (s.leases.map Lease.session).Nodup ∧
      (∀ (n : Nat) (lease : Lease), s.leases[n]? = some lease →
        (s.isOpen n = true ↔ s.service.table.holder? lease.key = some lease.session)) ∧
      (∀ key session, s.service.table.holder? key = some session ↔
        ∃ n : Nat, s.leases[n]? = some ⟨key, session⟩ ∧ empty.isTaken n events = false) ∧
      (∀ ticket, (s.next (.cancel ticket)).service.table = s.service.table ∧
        ((s.look ticket).1 = none → (s.next (.look ticket)).service.table = s.service.table)) ∧
      ∀ (n : Nat) (lease : Lease), s.leases[n]? = some lease →
        ((s.release lease).1 = .ok () ↔ s.service.table.holder? lease.key = some lease.session) ∧
        (s.service.table.holder? lease.key ≠ some lease.session →
          s.release lease = (.error (.release lease.key
            ("session " ++ lease.session ++ " no longer holds the lock")), s)) := by
  intro s
  have h : s.Accounted fun n => empty.isTaken n events := accounted_after events
  have hholds (lease : Lease) : s.service.table.holds lease = true ↔
      s.service.table.holder? lease.key = some lease.session := by
    rw [Table.holds, decide_eq_true_eq]
  refine ⟨h.single, ?_, fun n lease hn => ?_, fun key session => ?_,
    fun ticket => ⟨rfl, fun hnone => ?_⟩, fun n lease _ => ⟨?_, fun hne => ?_⟩⟩
  · rw [List.Nodup, List.pairwise_map, List.pairwise_iff_getElem]
    intro i j hi hj hij heq
    have hsame := h.eq_of_session (List.getElem?_eq_getElem hi) (List.getElem?_eq_getElem hj) heq
    omega
  · rw [h.isOpen_iff hn, ← h.holds_iff hn, hholds]
  · rw [Table.holder?_eq_some_iff h.single, h.holders]
  · have hnext : s.next (.look ticket) = (s.look ticket).2 := rfl
    rw [hnext]
    rcases look_cases s ticket with ⟨w, held, table, -, -, -, -, heq⟩ | ⟨w, -, -, -, -, heq⟩ |
      ⟨-, heq⟩
    · rw [heq] at hnone
      cases hnone
    · rw [heq]
    · rw [heq]
  · rw [← hholds]
    cases hheld : s.service.table.holds lease with
    | true => simp [release_of_holds hheld]
    | false => simp [release_of_not_holds hheld]
  · refine release_of_not_holds ?_
    cases hheld : s.service.table.holds lease with
    | true => exact absurd ((hholds lease).mp hheld) hne
    | false => rfl

end Office

end ChangeFeed.Lock
