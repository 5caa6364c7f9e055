import ChangeFeed.Lock.Table
import ChangeFeed.Proofs.Decimal.Digits

/-!
# Sessions are never reused

The session of a grant is a name and the number of the grant. Names are whatever was asked with, and
may hold hyphens and digits of their own; the number is nevertheless the part behind the last
hyphen, so that two grants share a session only if they are the same grant.

* `sessionId_inj`: the number can be read off the session.
* `Table.holds_grant?`, `Table.holds_of_holds_grant?`: a grant takes nothing from a session that has
  an older number, and gives nothing back to it.
-/

namespace ChangeFeed.Lock

namespace Table

/-- The part of a text behind its last hyphen can be read off. -/
theorem eq_of_append_hyphen {a b c d : List Char} (hc : '-' ∉ c) (hd : '-' ∉ d)
    (h : a ++ '-' :: c = b ++ '-' :: d) : c = d := by
  have hr : c.reverse ++ '-' :: a.reverse = d.reverse ++ '-' :: b.reverse := by
    simpa using congrArg List.reverse h
  have key (s t : List Char) (hs : '-' ∉ s) : (s ++ '-' :: t).takeWhile (· ≠ '-') = s := by
    have hall : ∀ x ∈ s, decide (x ≠ '-') = true := fun x hx => by
      simpa using fun h : x = '-' => hs (h ▸ hx)
    rw [List.takeWhile_append_of_pos hall]
    simp
  have := congrArg (List.takeWhile (· ≠ '-')) hr
  rw [key _ _ (by simpa using hc), key _ _ (by simpa using hd)] at this
  exact List.reverse_inj.mp this

theorem hyphen_not_mem_digits (n : Nat) : '-' ∉ Decimal.digits n := fun h =>
  absurd (Decimal.isDigit_of_mem_digits h) (by decide)

/-- A session tells the number of its grant, whatever the names are. -/
theorem sessionId_inj {name name' : String} {n m : Nat}
    (h : sessionId name n = sessionId name' m) : n = m := by
  have hl : name.toList ++ '-' :: Decimal.digits n = name'.toList ++ '-' :: Decimal.digits m := by
    simpa [sessionId] using congrArg String.toList h
  exact Decimal.digits_inj (eq_of_append_hyphen (hyphen_not_mem_digits n) (hyphen_not_mem_digits m) hl)

variable {table table' : Table} {key name : String} {lease other : Lease}

theorem grant?_eq_some (h : table.grant? key name = some (lease, table')) :
    table.holder? key = none ∧ lease = ⟨key, sessionId name (table.grants + 1)⟩ ∧
      table' = ⟨table.holders ++ [lease], table.grants + 1⟩ := by
  unfold grant? at h
  split at h
  · cases h
  · rename_i hfree
    cases h
    exact ⟨hfree, rfl, rfl⟩

theorem holder?_grant? (h : table.grant? key name = some (lease, table')) (k : String) :
    table'.holder? k = if k = key then some lease.session else table.holder? k := by
  obtain ⟨hfree, rfl, rfl⟩ := grant?_eq_some h
  by_cases hk : k = key
  · subst hk
    have hnone : table.holders.find? (·.key = k) = none := by simpa [holder?] using hfree
    simp [holder?, List.find?_append, hnone]
  · simp [holder?, List.find?_append, hk, Ne.symm hk]

theorem holds_grant? (h : table.grant? key name = some (lease, table')) :
    table'.holds lease = true := by
  have hk : lease.key = key := by rw [(grant?_eq_some h).2.1]
  simp [holds, holder?_grant? h, hk]

/-- A session with an older number that holds a lock after a grant held it before. -/
theorem holds_of_holds_grant? (h : table.grant? key name = some (lease, table'))
    {n : Nat} {name' : String} (hn : n ≤ table.grants) (hs : other.session = sessionId name' n)
    (ho : table'.holds other = true) : table.holds other = true := by
  simp only [holds, holder?_grant? h, decide_eq_true_eq] at ho ⊢
  split at ho
  · rw [(grant?_eq_some h).2.1, hs] at ho
    have : table.grants + 1 = n := sessionId_inj (Option.some.inj ho)
    omega
  · exact ho

theorem holds_of_holds_free {k : String} (h : (table.free k).holds other = true) :
    table.holds other = true := by
  simp only [holds, decide_eq_true_eq] at h ⊢
  by_cases hk : other.key = k
  · rw [hk, holder?_free_self] at h
    cases h
  · rwa [holder?_free_of_ne hk] at h

/-- One lock is held by one session. -/
theorem session_eq_of_holds (h : table.holds lease = true) (h' : table.holds other = true)
    (hk : lease.key = other.key) : lease.session = other.session := by
  simp only [holds, decide_eq_true_eq] at h h'
  rw [hk, h'] at h
  exact (Option.some.inj h).symm

end Table

end ChangeFeed.Lock
