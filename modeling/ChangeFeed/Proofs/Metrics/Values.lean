import ChangeFeed.Metrics.Registry

/-!
# Reading the metrics back

Touching one value of the metrics changes that value and no other one.
-/

namespace ChangeFeed.Metrics

theorem lookup_touch_self {κ α : Type} [DecidableEq κ] [BEq κ] [LawfulBEq κ] (key : κ) (start : α) (f : α → α)
    (entries : List (κ × α)) :
    (touch key start f entries).lookup key = some (f ((entries.lookup key).getD start)) := by
  induction entries with
  | nil => simp [touch]
  | cons entry rest ih =>
    obtain ⟨k, a⟩ := entry
    by_cases h : k = key
    · simp [touch, h]
    · have h' : (key == k) = false := by simpa using Ne.symm h
      simp [touch, h, List.lookup_cons, ih, h']

theorem lookup_touch_of_ne {κ α : Type} [DecidableEq κ] [BEq κ] [LawfulBEq κ] {key other : κ} (h : other ≠ key)
    (start : α) (f : α → α) (entries : List (κ × α)) :
    (touch key start f entries).lookup other = entries.lookup other := by
  induction entries with
  | nil => simp [touch, h]
  | cons entry rest ih =>
    obtain ⟨k, a⟩ := entry
    by_cases h' : k = key
    · subst h'
      have h'' : (other == k) = false := by simpa using h
      simp [touch, List.lookup_cons, h'']
    · simp [touch, h', List.lookup_cons, ih]

/-- A counter starts over beyond its greatest value. -/
@[simp] theorem value_add_self (m : Metrics) (metric : Metric) (label : String) (n : Nat) :
    (m.add metric label n).value metric label =
      (m.value metric label + n) % UInt64.size := by
  simp [value, add, lookup_touch_self]

theorem value_add_of_ne {metric other : Metric} {label label' : String}
    (h : (other, label') ≠ (metric, label)) (m : Metrics) (n : Nat) :
    (m.add metric label n).value other label' = m.value other label' := by
  simp only [value, add, lookup_touch_of_ne h]

theorem value_set_of_ne {metric other : Metric} {label label' : String}
    (h : (other, label') ≠ (metric, label)) (m : Metrics) (value' : Int) :
    (m.set metric label value').value other label' = m.value other label' := by
  simp only [value, set, lookup_touch_of_ne h]

/-! ## Counting nothing -/

theorem value_ite_add_self (m : Metrics) (metric : Metric) (label : String) (n : Nat) :
    (if n = 0 then m else m.add metric label n).value metric label % UInt64.size =
      (m.value metric label + n) % UInt64.size := by
  split
  · rename_i hn
    simp [hn]
  · rw [value_add_self, Int.emod_emod]

theorem value_ite_add_of_ne {metric other : Metric} {label label' : String}
    (h : (other, label') ≠ (metric, label)) (m : Metrics) (n : Nat) :
    (if n = 0 then m else m.add metric label n).value other label' = m.value other label' := by
  split
  · rfl
  · exact value_add_of_ne h m n

/-- What a sink has counted is added to two counters, which are words of 64 bits. -/
theorem values_counted (m : Metrics) (label : String) (published dropped : Nat) :
    let once := if published = 0 then m else m.add .published label published
    let twice := if dropped = 0 then once else once.add .dropped label dropped
    twice.value .published label % UInt64.size =
        (m.value .published label + published) % UInt64.size ∧
      twice.value .dropped label % UInt64.size =
        (m.value .dropped label + dropped) % UInt64.size := by
  intro once twice
  refine ⟨?_, ?_⟩
  · have hkept : twice.value .published label = once.value .published label :=
      value_ite_add_of_ne (by simp) once dropped
    rw [hkept]
    exact value_ite_add_self m .published label published
  · refine (value_ite_add_self once .dropped label dropped).trans ?_
    rw [value_ite_add_of_ne (by simp) m published]

/-- Together the two counters count every message. -/
theorem value_counted (m : Metrics) (label : String) (published dropped : Nat) :
    let once := if published = 0 then m else m.add .published label published
    let twice := if dropped = 0 then once else once.add .dropped label dropped
    (twice.value .published label + twice.value .dropped label) % UInt64.size =
      (m.value .published label + m.value .dropped label + (published + dropped : Nat)) %
        UInt64.size := by
  intro once twice
  obtain ⟨hpublished, hdropped⟩ :
      twice.value .published label % UInt64.size = _ ∧ twice.value .dropped label % UInt64.size = _ :=
    m.values_counted label published dropped
  unfold UInt64.size at hdropped hpublished ⊢
  omega

/-! ## Observations -/

/-- What was observed under a label, the first size first. -/
def observations (m : Metrics) (label : String) : List Nat := (m.sizes.lookup label).getD []

theorem value_foldl_observe (m : Metrics) (metric : Metric) (label label' : String)
    (sizes : List Nat) :
    (sizes.foldl (fun m size => m.observe label size) m).value metric label' =
      m.value metric label' := by
  induction sizes generalizing m with
  | nil => rfl
  | cons size rest ih => exact (ih _).trans rfl

theorem observations_foldl_observe (m : Metrics) (label : String) (sizes : List Nat) :
    (sizes.foldl (fun m size => m.observe label size) m).observations label =
      m.observations label ++ sizes := by
  induction sizes generalizing m with
  | nil => simp
  | cons size rest ih =>
    have hone : (m.observe label size).observations label = m.observations label ++ [size] := by
      simp only [observations, observe, lookup_touch_self, Option.getD_some]
    rw [List.foldl_cons, ih, hone, List.append_assoc, List.singleton_append]

end ChangeFeed.Metrics
