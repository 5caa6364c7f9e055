import ChangeFeed.Settings.Node

/-!
# Places in merged settings

A place in a tree of merged settings is told by the names on the way to it. Putting a scalar
somewhere sets the place that it is put at; what stands at other places stays, unless the scalar is
put on the way to them.

* `Node.at?` is what stands at a place, and `covers` whether what is put at the end of a path takes
  the place of what stands at another.
* `at?_putAt_self`: what is put at a place stands there.
* `at?_putAt_of_not_covers`: elsewhere a scalar stays as it is, or is no scalar any more.
-/

namespace ChangeFeed.Settings.Node

/-- What stands at a place. -/
def at? : Node → List String → Option Node
  | node, [] => some node
  | .table _ fields, name :: names => (fields.lookup name).bind (·.at? names)
  | _, _ :: _ => none

/-- The path to a place. -/
def pathTo (names : List String) : List Step := names.map .key

/-- Whether what is put at the end of a path takes the place of what stands under the names: it is
put there or above, or makes a list of a table on the way. -/
def covers : List Step → List String → Bool
  | [], _ => true
  | .index _ :: _, names => !names.isEmpty
  | .key _ :: _, [] => false
  | .key key :: rest, name :: names => Text.lower key = name && covers rest names

/-- Whether a node has no parts. -/
def isScalar : Node → Bool
  | .scalar _ _ => true
  | _ => false

@[simp] theorem at?_nil (node : Node) : node.at? [] = some node := by
  cases node <;> rfl

theorem at?_cons (node : Node) (name : String) (names : List String) :
    node.at? (name :: names) = (node.fields.lookup name).bind (·.at? names) := by
  cases node <;> rfl

/-! ## Fields -/

theorem lookup_cons_eq_ite (name key : String) (value : Node) (fields : List (String × Node)) :
    ((key, value) :: fields).lookup name =
      if name = key then some value else fields.lookup name := by
  by_cases h : name = key
  · rw [if_pos h, List.lookup_cons, beq_iff_eq.mpr h]
  · rw [if_neg h, List.lookup_cons, beq_false_of_ne h]

theorem lookup_setField (key name : String) (value : Node) (fields : List (String × Node)) :
    (setField key value fields).lookup name =
      if name = key then some value else fields.lookup name := by
  induction fields with
  | nil => exact lookup_cons_eq_ite name key value []
  | cons field rest ih =>
    obtain ⟨k, node⟩ := field
    by_cases hk : k = key
    · subst hk
      rw [setField, if_pos rfl, lookup_cons_eq_ite, lookup_cons_eq_ite]
      split <;> rfl
    · rw [setField, if_neg hk, lookup_cons_eq_ite, lookup_cons_eq_ite, ih]
      by_cases h : name = k
      · rw [if_pos h, if_pos h, if_neg (h ▸ hk)]
      · rw [if_neg h, if_neg h]

theorem lookup_setKey (root : Node) (key name : String) (value : Node) :
    (root.setKey key value).fields.lookup name =
      if name = key then some value else root.fields.lookup name := by
  cases root with
  | table origin fields => exact lookup_setField key name value fields
  | scalar origin s => exact lookup_cons_eq_ite name key value []
  | list origin items => exact lookup_cons_eq_ite name key value []

theorem at?_setKey_self (root : Node) (key : String) (value : Node) (names : List String) :
    (root.setKey key value).at? (key :: names) = value.at? names := by
  rw [at?_cons, lookup_setKey, if_pos rfl, Option.bind_some]

theorem at?_setKey_of_ne (root : Node) {key name : String} (value : Node) (names : List String)
    (h : name ≠ key) : (root.setKey key value).at? (name :: names) = root.at? (name :: names) := by
  rw [at?_cons, lookup_setKey, if_neg h, ← at?_cons]

@[simp] theorem isScalar_setKey (root : Node) (key : String) (value : Node) :
    (root.setKey key value).isScalar = false := by
  cases root <;> rfl

@[simp] theorem isScalar_setIndex (root : Node) (n : Nat) (value : Node) :
    (root.setIndex n value).isScalar = false := by
  cases root <;> rfl

/-! ## Putting scalars -/

theorem put_of_isScalar {value : Node} (h : value.isScalar = true) (key : String) (root : Node) :
    put key value root = root.setKey (Text.lower key) value := by
  cases value with
  | scalar origin s => rw [put]; rintro _ _ ⟨⟩
  | table origin fields => cases h
  | list origin items => cases h

variable {value root after : Node}

/-- What is put below a key, and what is put there then. -/
theorem putAt_key {key : String} {rest : List Step} (hvalue : value.isScalar = true)
    (h : putAt (.key key :: rest) value root = .ok after) :
    ∃ below, after = root.setKey (Text.lower key) below ∧
      putAt rest value ((root.fields.lookup (Text.lower key)).getD nothing) = .ok below := by
  cases rest with
  | nil =>
    rw [putAt, put_of_isScalar hvalue] at h
    exact ⟨value, (Except.ok.inj h).symm, rfl⟩
  | cons step rest =>
    rw [putAt] at h
    · obtain ⟨below, hbelow, hafter⟩ := bind_eq_ok_iff.mp h
      exact ⟨below, (Except.ok.inj hafter).symm, hbelow⟩
    · exact List.cons_ne_nil step rest

theorem putAt_index {n : Int} {rest : List Step}
    (h : putAt (.index n :: rest) value root = .ok after) : after.isScalar = false := by
  rw [putAt] at h
  obtain ⟨i, -, h⟩ := bind_eq_ok_iff.mp h
  obtain ⟨below, -, hafter⟩ := bind_eq_ok_iff.mp h
  rw [← Except.ok.inj hafter]
  exact isScalar_setIndex root i below

/-- What is put at a place stands there. -/
theorem at?_putAt_self {names : List String} (hvalue : value.isScalar = true)
    (hlower : ∀ name ∈ names, Text.lower name = name)
    (h : putAt (pathTo names) value root = .ok after) : after.at? names = some value := by
  induction names generalizing root after with
  | nil =>
    rw [pathTo, List.map_nil, putAt] at h
    rw [at?_nil, Except.ok.inj h]
  | cons name names ih =>
    obtain ⟨below, rfl, hbelow⟩ := putAt_key hvalue h
    rw [hlower name List.mem_cons_self] at hbelow ⊢
    rw [at?_setKey_self]
    exact ih (fun other hother => hlower other (List.mem_cons_of_mem _ hother)) hbelow

/-- What a path does not cover stays as it is, unless something is put below it. -/
theorem at?_putAt_of_not_covers {path : List Step} {names : List String} {node : Node}
    (hvalue : value.isScalar = true) (h : putAt path value root = .ok after)
    (hcovers : covers path names = false) (hnode : root.at? names = some node) :
    ∃ left, after.at? names = some left ∧ (left = node ∨ left.isScalar = false) := by
  induction path generalizing root after names with
  | nil => cases hcovers
  | cons step rest ih =>
    cases names with
    | nil =>
      refine ⟨after, at?_nil after, Or.inr ?_⟩
      cases step with
      | key key =>
        obtain ⟨below, rfl, -⟩ := putAt_key hvalue h
        exact isScalar_setKey root _ below
      | index n => exact putAt_index h
    | cons name names =>
      cases step with
      | index n => cases hcovers
      | key key =>
        obtain ⟨below, rfl, hbelow⟩ := putAt_key hvalue h
        by_cases hkey : Text.lower key = name
        · subst hkey
          have hrest : covers rest names = false := by simpa [covers] using hcovers
          rw [at?_cons, Option.bind_eq_some_iff] at hnode
          obtain ⟨field, hfield, hnode⟩ := hnode
          rw [hfield, Option.getD_some] at hbelow
          rw [at?_setKey_self]
          exact ih hbelow hrest hnode
        · exact ⟨node, (at?_setKey_of_ne root below names (Ne.symm hkey)).trans hnode, Or.inl rfl⟩

end ChangeFeed.Settings.Node
