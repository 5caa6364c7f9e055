import ChangeFeed.Proofs.Net.Endings

/-!
# Texts that stand for themselves at the end of an address

Most texts are read at the end of an address as they are: what is encoded in them can be told from
the encoding, and no part of them is left out or taken for another.

* `IsLiteral` are these texts, and `eq_of_reading_eq` tells them apart by what they come to.
* `parse?_append_space` is an example of one that does not stand for itself: a space at the end.
-/

namespace ChangeFeed.Net.Url

/-! ## Texts that stand for themselves -/

/-- Whether a text stands for itself at the end of an address: no character of it begins a fragment
or an encoding, is taken for another or does not count, and no part of it is a step. -/
structure IsLiteral (text : String) : Prop where
  unmarked : ∀ c ∈ text.toList, c ≠ '#' ∧ c ≠ '%' ∧ c ≠ '\\' ∧ counts c = true
  unblank : ∀ c ∈ text.toList.getLast?, 0x20 < c.toNat
  unstepped : ∀ s ∈ (beforeQuery text.toList).splitOn '/', s ≠ ['.'] ∧ s ≠ ['.', '.']

variable {text other : String} {s cs ds : List Char} {url : Url}

/-! ### Steps to directories -/

theorem toLower_eq_self {c : Char} (h : c.toLower.toNat < 97) : c.toLower = c := by
  unfold Char.toLower at h ⊢
  split
  · rename_i hcapital
    rw [dif_pos hcapital] at h
    have hsum : (c.val + 32).toNat < 97 := h
    have hlow : 65 ≤ c.val.toNat := hcapital.1
    have hhigh : c.val.toNat ≤ 90 := hcapital.2
    rw [UInt32.toNat_add] at hsum
    have hsmall : (32 : UInt32).toNat = 32 := rfl
    omega
  · rfl

/-- A text is its own form in small letters if that form is made of points. -/
theorem eq_of_map_toLower (hds : ∀ d ∈ ds, d = '.') (h : cs.map Char.toLower = ds) : cs = ds := by
  have hself : ∀ c ∈ cs, c.toLower = c := fun c hc => by
    have hmem : c.toLower ∈ ds := by
      rw [← h]
      exact List.mem_map.mpr ⟨c, hc, rfl⟩
    exact toLower_eq_self (by rw [hds _ hmem]; decide)
  rw [← h, List.map_congr_left hself, List.map_id']

theorem not_mem_map_toLower (h : '%' ∉ cs) : '%' ∉ cs.map Char.toLower := by
  intro hmem
  obtain ⟨c, hc, heq⟩ := List.mem_map.mp hmem
  have hself : c.toLower = c := toLower_eq_self (by rw [heq]; decide)
  exact h ((hself.symm.trans heq) ▸ hc)

theorem isHere_eq_false (h : s ≠ ['.']) (hpercent : '%' ∉ s) : isHere s = false := by
  rw [Bool.eq_false_iff]
  intro hhere
  have hmem : s.map Char.toLower ∈ [['.'], ['%', '2', 'e']] := List.contains_iff_mem.mp hhere
  simp only [List.mem_cons, List.not_mem_nil, or_false] at hmem
  rcases hmem with heq | heq
  · exact h (eq_of_map_toLower (by simp) heq)
  · exact not_mem_map_toLower hpercent (heq ▸ List.mem_cons_self)

theorem isUp_eq_false (h : s ≠ ['.', '.']) (hpercent : '%' ∉ s) : isUp s = false := by
  rw [Bool.eq_false_iff]
  intro hup
  have hmem : s.map Char.toLower ∈ [['.', '.'], ['.', '%', '2', 'e'], ['%', '2', 'e', '.'],
      ['%', '2', 'e', '%', '2', 'e']] := List.contains_iff_mem.mp hup
  have hnone := not_mem_map_toLower hpercent
  simp only [List.mem_cons, List.not_mem_nil, or_false] at hmem
  rcases hmem with heq | heq | heq | heq
  · exact h (eq_of_map_toLower (by simp) heq)
  · exact hnone (heq ▸ by decide)
  · exact hnone (heq ▸ by decide)
  · exact hnone (heq ▸ by decide)

/-! ### Reading -/

namespace IsLiteral

theorem trimmed_eq (h : IsLiteral text) : trimmed text = text.toList := by
  have hdrop : text.toList.reverse.dropWhile (fun c => decide (c.toNat ≤ 0x20)) =
      text.toList.reverse := by
    cases hlast : text.toList.reverse with
    | nil => rfl
    | cons c cs =>
      have hc : c ∈ text.toList.getLast? := by
        rw [List.getLast?_eq_head?_reverse, hlast]
        rfl
      exact List.dropWhile_cons_of_neg (by simpa using h.unblank c hc)
  rw [trimmed, hdrop, List.reverse_reverse]
  exact List.filter_eq_self.mpr fun c hc => (h.unmarked c hc).2.2.2

theorem not_mem_percent (h : IsLiteral text) : '%' ∉ text.toList := fun hmem =>
  (h.unmarked '%' hmem).2.1 rfl

theorem not_mem_percent_part (h : IsLiteral text) (hs : s ∈ (beforeQuery text.toList).splitOn '/') :
    '%' ∉ s := by
  intro hmem
  rw [List.splitOn_eq_splitOnP] at hs
  exact h.not_mem_percent ((List.takeWhile_prefix _).subset (mem_of_mem_splitOnP hs hmem).1)

theorem takeWhile_eq (h : IsLiteral text) : text.toList.takeWhile (· ≠ '#') = text.toList :=
  List.takeWhile_eq_self_iff.mpr fun c hc => decide_eq_true (h.unmarked c hc).1

/-- The parts of the path of a text are written one after the other. -/
theorem steps_eq (h : IsLiteral text) (done : List (List Char)) :
    steps .known done ((beforeQuery text.toList).splitOnP (isSlash .known)) =
      done ++ ((beforeQuery text.toList).splitOn '/').map (Percent.encode Percent.pathSet) := by
  have hback : '\\' ∉ beforeQuery text.toList := fun hmem =>
    (h.unmarked _ ((List.takeWhile_prefix _).subset hmem)).2.2.1 rfl
  rw [splitOnP_isSlash hback]
  refine steps_eq_append fun s hs => ?_
  have hpercent : '%' ∉ s := h.not_mem_percent_part hs
  obtain ⟨hpoint, hpoints⟩ := h.unstepped s hs
  exact ⟨isUp_eq_false hpoints hpercent, isHere_eq_false hpoint hpercent⟩

/-- What follows the path of a text is nothing or a query. -/
theorem rest_eq (h : IsLiteral text) :
    text.toList.dropWhile isBeforeQuery = [] ∨
      ∃ query, text.toList.dropWhile isBeforeQuery = '?' :: query ∧ '%' ∉ query ∧
        query.takeWhile (· ≠ '#') = query := by
  have hsuffix := List.dropWhile_suffix (l := text.toList) isBeforeQuery
  have hnot := List.head?_dropWhile_not isBeforeQuery text.toList
  cases hrest : text.toList.dropWhile isBeforeQuery with
  | nil => exact Or.inl rfl
  | cons mark query =>
    rw [hrest] at hsuffix hnot
    have hmem (c : Char) (hc : c ∈ mark :: query) : c ∈ text.toList := hsuffix.subset hc
    have hsharp : mark ≠ '#' := (h.unmarked mark (hmem mark List.mem_cons_self)).1
    have hmark : mark = '?' := by
      by_contra hne
      simp [isBeforeQuery, hne, hsharp] at hnot
    subst hmark
    refine Or.inr ⟨query, rfl, fun hpercent => ?_, List.takeWhile_eq_self_iff.mpr fun c hc => ?_⟩
    · exact h.not_mem_percent (hmem '%' (List.mem_cons_of_mem '?' hpercent))
    · exact decide_eq_true (h.unmarked c (hmem c (List.mem_cons_of_mem '?' hc))).1

/-- The query of a text tells what stands behind its path. -/
theorem eq_of_tail_eq (hliteral : IsLiteral text) (hother : IsLiteral other)
    (h : (tail .known (text.toList.dropWhile isBeforeQuery)).1 =
      (tail .known (other.toList.dropWhile isBeforeQuery)).1) :
    text.toList.dropWhile isBeforeQuery = other.toList.dropWhile isBeforeQuery := by
  have hquery (query : List Char) : (tail .known ('?' :: query)).1 = some (String.ofList
      (Percent.encode (Percent.querySet ++ ['\'']) (query.takeWhile (· ≠ '#')))) := rfl
  rcases hliteral.rest_eq with hnil | ⟨query, hrest, hpercent, hwhole⟩
  · rcases hother.rest_eq with hnil' | ⟨query', hrest', -, -⟩
    · rw [hnil, hnil']
    · rw [hnil, hrest', hquery] at h
      cases h
  · rcases hother.rest_eq with hnil' | ⟨query', hrest', hpercent', hwhole'⟩
    · rw [hnil', hrest, hquery] at h
      cases h
    · rw [hrest, hrest', hquery, hquery, hwhole, hwhole'] at h
      have htext := String.ofList_injective (Option.some.inj h)
      rw [hrest, hrest', Percent.encode_inj hpercent hpercent' htext]

end IsLiteral

/-- Where an address has no fragment, texts that stand for themselves are read as they are. -/
theorem eq_of_reading_eq (hfragment : url.fragment = none) (hliteral : IsLiteral text) (hother : IsLiteral other)
    (h : url.reading text.toList = url.reading other.toList) : text = other := by
  rw [← String.toList_inj]
  by_cases hquery : url.query = none
  · rw [reading_of_path hfragment hquery, reading_of_path hfragment hquery, hliteral.steps_eq,
      hother.steps_eq] at h
    obtain ⟨hpath, htail⟩ := Reading.path.inj h
    have hparts : (beforeQuery text.toList).splitOn '/' = (beforeQuery other.toList).splitOn '/' :=
      Percent.map_encode_inj (fun s hs => hliteral.not_mem_percent_part hs)
        (fun s hs => hother.not_mem_percent_part hs) (List.append_cancel_left hpath)
    have hbefore : beforeQuery text.toList = beforeQuery other.toList := by
      have hjoined := congrArg (List.intercalate ['/']) hparts
      rwa [List.intercalate_splitOn, List.intercalate_splitOn] at hjoined
    have hrest : text.toList.dropWhile isBeforeQuery = other.toList.dropWhile isBeforeQuery := by
      refine hliteral.eq_of_tail_eq hother ?_
      rw [← drop_length_takeWhile, ← drop_length_takeWhile]
      exact htail
    calc text.toList
        = beforeQuery text.toList ++ text.toList.dropWhile isBeforeQuery :=
          List.takeWhile_append_dropWhile.symm
      _ = beforeQuery other.toList ++ other.toList.dropWhile isBeforeQuery := by
          rw [hbefore, hrest]
      _ = other.toList := List.takeWhile_append_dropWhile
  · rw [reading_of_query hfragment hquery, reading_of_query hfragment hquery, hliteral.takeWhile_eq,
      hother.takeWhile_eq] at h
    exact Percent.encode_inj hliteral.not_mem_percent hother.not_mem_percent (Reading.query.inj h)

/-! ## Texts that do not -/

/-- A space at the end of an address does not count. -/
theorem significant_append_space (s : String) : significant (s ++ " ") = significant s := by
  have hsignificant (s : String) : significant s =
      ((s.toList.dropWhile fun c => decide (c.toNat ≤ 0x20)).reverse.dropWhile
        fun c => decide (c.toNat ≤ 0x20)).reverse.filter counts := rfl
  have hspace (cs : List Char) : (' ' :: cs).dropWhile (fun c => decide (c.toNat ≤ 0x20)) =
      cs.dropWhile fun c => decide (c.toNat ≤ 0x20) := rfl
  have htext : (s ++ " ").toList = s.toList ++ [' '] := by simp
  rw [hsignificant, hsignificant, htext, List.dropWhile_append]
  split
  · rename_i hempty
    rw [hspace, List.isEmpty_iff.mp hempty]
    rfl
  · rw [List.reverse_append, List.reverse_singleton, List.singleton_append, hspace]

theorem parse?_append_space (s : String) : parse? (s ++ " ") = parse? s := by
  rw [parse?, significant_append_space]
  rfl

end ChangeFeed.Net.Url
