import ChangeFeed.Watch.Progress
import Mathlib.Data.List.Chain

/-!
# Snapshots of one history

The pages that one loop reads are snapshots of a history that grows: no page holds a change beyond
its own index, the indices do not go back, and whatever a page shows at or below the index of the
page before it was on that page too. Nothing else is asked of the server, so pages may be repeated,
may leave records out again, and queries may fail anywhere in between.

* `Progress.count_run`: a version is handed on once if it is newer than the watermark at the start
  and occurs on some page, and never otherwise. Pages that are thrown away unread lose nothing,
  since `Progress.Attentive` holds along the whole run.
* `Progress.run_append_restart`: a loop that begins anew at the watermark of a loop that ended goes
  on exactly as that loop would have done, though it asks with another index at first.
-/

namespace ChangeFeed

/-- A version of a record: its id and the index of its last modification. -/
def Change.version (c : Change) : String × Nat := (c.id, c.index)

def Page.versions (page : Page) : List (String × Nat) := page.changes.map Change.version

/-- Whether a page may come right after another one of the same history. -/
structure Page.Precedes (page next : Page) : Prop where
  le : page.lastIndex ≤ next.lastIndex
  mem : ∀ v ∈ next.versions, v.2 ≤ page.lastIndex → v ∈ page.versions

/-- Pages that are snapshots of one history, in order. -/
structure Snapshots (pages : List Page) : Prop where
  le_lastIndex : ∀ page ∈ pages, ∀ v ∈ page.versions, v.2 ≤ page.lastIndex
  chain : pages.IsChain Page.Precedes

namespace Snapshots

theorem tail {page : Page} {pages : List Page} (h : Snapshots (page :: pages)) :
    Snapshots pages :=
  ⟨fun q hq => h.le_lastIndex q (List.mem_cons_of_mem _ hq), h.chain.tail⟩

theorem append_right {pages more : List Page} (h : Snapshots (pages ++ more)) :
    Snapshots more := by
  induction pages with
  | nil => exact h
  | cons page pages ih => exact ih h.tail

theorem append_left {pages more : List Page} (h : Snapshots (pages ++ more)) :
    Snapshots pages :=
  ⟨fun q hq => h.le_lastIndex q (List.mem_append_left _ hq), h.chain.left_of_append⟩

/-- What a later page shows at or below the index of the first page was on the first page. -/
theorem mem_head {page : Page} {pages : List Page} (h : Snapshots (page :: pages))
    {q : Page} (hq : q ∈ pages) {v : String × Nat} (hv : v ∈ q.versions)
    (hle : v.2 ≤ page.lastIndex) : v ∈ page.versions := by
  induction pages generalizing page with
  | nil => cases hq
  | cons r rest ih =>
    have hr : page.Precedes r := (List.isChain_cons_cons.mp h.chain).1
    rcases List.mem_cons.mp hq with rfl | hq
    · exact hr.mem v hv hle
    · have hle' : v.2 ≤ r.lastIndex := Nat.le_trans hle hr.le
      exact hr.mem v (ih h.tail hq hle') hle

/-- What a later page shows at or below the index of an earlier page was on the earlier page. -/
theorem mem_earlier {pages more : List Page} (h : Snapshots (pages ++ more)) {page q : Page}
    (hpage : page ∈ pages) (hq : q ∈ more) {v : String × Nat} (hv : v ∈ q.versions)
    (hle : v.2 ≤ page.lastIndex) : v ∈ page.versions := by
  obtain ⟨before, after, rfl⟩ := List.append_of_mem hpage
  rw [List.append_assoc, List.cons_append] at h
  exact h.append_right.mem_head (List.mem_append_right after hq) hv hle

end Snapshots

namespace Watch

/-- The pages among the answers to list queries. -/
def pages {ε : Type} (answers : List (Except ε Page)) : List Page :=
  answers.filterMap Except.toOption

@[simp] theorem pages_nil {ε : Type} : pages ([] : List (Except ε Page)) = [] := rfl

@[simp] theorem pages_cons_ok {ε : Type} (page : Page) (rest : List (Except ε Page)) :
    pages (.ok page :: rest) = page :: pages rest := rfl

@[simp] theorem pages_cons_error {ε : Type} (e : ε) (rest : List (Except ε Page)) :
    pages (.error e :: rest) = pages rest := rfl

@[simp] theorem pages_append {ε : Type} (answers more : List (Except ε Page)) :
    pages (answers ++ more) = pages answers ++ pages more :=
  List.filterMap_append

namespace Progress

variable {ε : Type}

/-! ## One page -/

theorem isUnchanged_iff {p : Progress} {page : Page} :
    p.isUnchanged page = true ↔ page.lastIndex = p.index := by
  simp [isUnchanged]

/-- After a page the next query asks past it, whether or not it was read. -/
theorem after_index (p : Progress) (page : Page) : (p.after page).index = page.lastIndex := by
  unfold after
  split
  · rename_i h
    exact (isUnchanged_iff.mp h).symm
  · rfl

theorem le_foldl_max (changes : List Change) (top : Nat) :
    top ≤ changes.foldl (fun top c => max top c.index) top := by
  induction changes generalizing top with
  | nil => exact Nat.le_refl _
  | cons c rest ih => exact Nat.le_trans (Nat.le_max_left _ _) (ih _)

theorem index_le_foldl_max {changes : List Change} {c : Change} (hc : c ∈ changes) (top : Nat) :
    c.index ≤ changes.foldl (fun top c => max top c.index) top := by
  induction changes generalizing top with
  | nil => cases hc
  | cons d rest ih =>
    rcases List.mem_cons.mp hc with rfl | hc
    · exact Nat.le_trans (Nat.le_max_right _ _) (le_foldl_max rest _)
    · exact ih hc _

/-- The top of some changes is the index of one of them, unless it does not move. -/
theorem foldl_max_eq (changes : List Change) (top : Nat) :
    changes.foldl (fun top c => max top c.index) top = top ∨
      ∃ c ∈ changes, c.index = changes.foldl (fun top c => max top c.index) top := by
  induction changes generalizing top with
  | nil => exact Or.inl rfl
  | cons d rest ih =>
    rcases ih (max top d.index) with h | ⟨c, hc, h⟩
    · rcases Nat.le_total d.index top with hd | hd
      · left
        rw [List.foldl_cons, h, Nat.max_eq_left hd]
      · right
        refine ⟨d, List.mem_cons_self, ?_⟩
        rw [List.foldl_cons, h, Nat.max_eq_right hd]
    · exact Or.inr ⟨c, List.mem_cons_of_mem _ hc, h⟩

theorem after_watermark (p : Progress) (page : Page) :
    (p.after page).watermark =
      (p.fresh page).foldl (fun top c => max top c.index) p.watermark := by
  unfold after fresh
  split <;> simp_all

theorem watermark_le_after (p : Progress) (page : Page) :
    p.watermark ≤ (p.after page).watermark := by
  rw [after_watermark]
  exact le_foldl_max _ _

theorem index_le_after {p : Progress} {page : Page} {c : Change} (hc : c ∈ p.fresh page) :
    c.index ≤ (p.after page).watermark := by
  rw [after_watermark]
  exact index_le_foldl_max hc _

/-- The watermark moves only to the index of a change that was handed on. -/
theorem after_watermark_eq (p : Progress) (page : Page) :
    (p.after page).watermark = p.watermark ∨
      ∃ c ∈ p.fresh page, c.index = (p.after page).watermark := by
  rw [after_watermark]
  exact foldl_max_eq _ _

theorem mem_fresh {p : Progress} {page : Page} {c : Change} :
    c ∈ p.fresh page ↔ p.isUnchanged page = false ∧ c ∈ page.changes ∧ p.watermark < c.index := by
  unfold fresh
  split <;> simp_all

/-! ## Attention

A loop throws a page away unread if the index of the page is the one it asked with. That loses
nothing as long as such a page shows nothing new. -/

/-- Whether nothing is new on the next page, should it be thrown away. -/
def Attentive (p : Progress) (pages : List Page) : Prop :=
  ∀ page ∈ pages.head?, p.isUnchanged page = true → ∀ v ∈ page.versions, v.2 ≤ p.watermark

theorem attentive_startingAt {pages : List Page} (h : Snapshots pages) (watermark : Nat) :
    (startingAt watermark).Attentive pages := by
  intro page hpage hunchanged v hv
  have hindex : page.lastIndex = watermark := isUnchanged_iff.mp hunchanged
  have hle := h.le_lastIndex page (List.mem_of_mem_head? hpage) v hv
  simpa [startingAt, hindex] using hle

/-- Everything on a page is at or below the watermark once the page has been turned. -/
theorem le_after_of_attentive {p : Progress} {page : Page} {rest : List Page}
    (h : p.Attentive (page :: rest)) {v : String × Nat} (hv : v ∈ page.versions) :
    v.2 ≤ (p.after page).watermark := by
  by_cases hu : p.isUnchanged page = true
  · exact Nat.le_trans (h page rfl hu v hv) (watermark_le_after p page)
  · obtain ⟨c, hc, rfl⟩ := List.mem_map.mp hv
    by_cases hlt : p.watermark < c.index
    · exact index_le_after (mem_fresh.mpr ⟨by simpa using hu, hc, hlt⟩)
    · exact Nat.le_trans (Nat.le_of_not_lt hlt) (watermark_le_after p page)

theorem attentive_after {p : Progress} {page : Page} {rest : List Page}
    (hs : Snapshots (page :: rest)) (h : p.Attentive (page :: rest)) :
    (p.after page).Attentive rest := by
  intro next hnext hunchanged v hv
  have hindex : next.lastIndex = page.lastIndex := by
    rw [isUnchanged_iff.mp hunchanged, after_index]
  have hmem : next ∈ rest := List.mem_of_mem_head? hnext
  have hle : v.2 ≤ page.lastIndex := hindex ▸ hs.tail.le_lastIndex next hmem v hv
  exact le_after_of_attentive h (hs.mem_head hmem hv hle)

/-- What is handed on of a page depends on the watermark alone. -/
theorem fresh_of_attentive {p : Progress} {page : Page} {rest : List Page}
    (h : p.Attentive (page :: rest)) :
    p.fresh page = page.changes.filter (p.watermark < ·.index) := by
  unfold fresh
  split
  · rename_i hu
    refine (List.filter_eq_nil_iff.mpr ?_).symm
    intro c hc
    have := h page rfl hu c.version (List.mem_map_of_mem hc)
    simpa [Change.version] using this
  · rfl

/-! ## Runs -/

@[simp] theorem turn_ok (p : Progress) (page : Page) :
    p.turn (.ok page : Except ε Page) = (p.fresh page, p.after page) := rfl

@[simp] theorem turn_error (p : Progress) (e : ε) :
    p.turn (.error e : Except ε Page) = ([], p) := rfl

@[simp] theorem run_nil (p : Progress) : p.run ([] : List (Except ε Page)) = ([], p) := rfl

@[simp] theorem run_cons (p : Progress) (answer : Except ε Page) (rest : List (Except ε Page)) :
    p.run (answer :: rest) =
      ((p.turn answer).1 :: ((p.turn answer).2.run rest).1, ((p.turn answer).2.run rest).2) := rfl

theorem run_append (p : Progress) (answers more : List (Except ε Page)) :
    p.run (answers ++ more) =
      ((p.run answers).1 ++ ((p.run answers).2.run more).1, ((p.run answers).2.run more).2) := by
  induction answers generalizing p with
  | nil => rfl
  | cons answer rest ih => simp [ih]

theorem watermark_le_run (p : Progress) (answers : List (Except ε Page)) :
    p.watermark ≤ (p.run answers).2.watermark := by
  induction answers generalizing p with
  | nil => exact Nat.le_refl _
  | cons answer rest ih =>
    refine Nat.le_trans ?_ (ih _)
    cases answer with
    | ok page => exact watermark_le_after p page
    | error e => exact Nat.le_refl _

theorem mem_run {p : Progress} {answers : List (Except ε Page)} {c : Change}
    (hc : c ∈ (p.run answers).1.flatten) : ∃ page ∈ pages answers, c ∈ page.changes := by
  induction answers generalizing p with
  | nil => cases hc
  | cons answer rest ih =>
    cases answer with
    | error e => exact ih (by simpa using hc)
    | ok page =>
      simp only [run_cons, turn_ok, List.flatten_cons, List.mem_append] at hc
      rcases hc with hc | hc
      · exact ⟨page, List.mem_cons_self, (mem_fresh.mp hc).2.1⟩
      · obtain ⟨q, hq, hcq⟩ := ih hc
        exact ⟨q, List.mem_cons_of_mem _ hq, hcq⟩

theorem attentive_run {p : Progress} {answers : List (Except ε Page)} {more : List Page}
    (hs : Snapshots (pages answers ++ more)) (h : p.Attentive (pages answers ++ more)) :
    (p.run answers).2.Attentive more := by
  induction answers generalizing p with
  | nil => exact h
  | cons answer rest ih =>
    cases answer with
    | ok page => exact ih hs.tail (attentive_after hs h)
    | error e => exact ih hs h

/-- The versions of a page that are handed on: each once, unless it is no newer than the
watermark. -/
theorem count_fresh {p : Progress} {page : Page} {rest : List Page}
    (hp : p.Attentive (page :: rest)) (hn : page.versions.Nodup) (v : String × Nat) :
    ((p.fresh page).map Change.version).count v =
      if p.watermark < v.2 ∧ v ∈ page.versions then 1 else 0 := by
  have hfresh : (p.fresh page).map Change.version =
      page.versions.filter (p.watermark < ·.2) := by
    rw [fresh_of_attentive hp, Page.versions, List.filter_map]
    rfl
  rw [hfresh]
  by_cases hlt : p.watermark < v.2
  · rw [List.count_filter (by simpa using hlt), hn.count]
    simp [hlt]
  · rw [if_neg (fun h => hlt h.1)]
    refine List.count_eq_zero_of_not_mem fun h => ?_
    exact hlt (by simpa using (List.mem_filter.mp h).2)

/-- Every version on some page that is newer than the watermark is handed on exactly once, and no
other version is handed on at all. -/
theorem count_run {p : Progress} {answers : List (Except ε Page)}
    (hs : Snapshots (pages answers)) (hn : ∀ page ∈ pages answers, page.versions.Nodup)
    (hp : p.Attentive (pages answers)) (v : String × Nat) :
    ((p.run answers).1.flatten.map Change.version).count v =
      if p.watermark < v.2 ∧ ∃ page ∈ pages answers, v ∈ page.versions then 1 else 0 := by
  induction answers generalizing p with
  | nil => simp
  | cons answer rest ih =>
    cases answer with
    | error e =>
      simp only [run_cons, turn_error, List.flatten_cons, List.nil_append, pages_cons_error]
      exact ih hs hn hp
    | ok page =>
      simp only [pages_cons_ok] at hs hn hp
      have hrest := ih hs.tail (fun q hq => hn q (List.mem_cons_of_mem _ hq))
        (attentive_after hs hp)
      have hpage := count_fresh hp (hn page List.mem_cons_self) v
      simp only [run_cons, turn_ok, List.flatten_cons, List.map_append, List.count_append,
        pages_cons_ok, hrest, hpage]
      by_cases hlt : p.watermark < v.2
      · by_cases hv : v ∈ page.versions
        · have := le_after_of_attentive hp hv
          simp [hlt, hv, Nat.not_lt.mpr this]
        · -- a version that the page does not show is beyond the page, so the new watermark, which
          -- moves to indices of the page only, stays below it
          have key : (∃ q ∈ pages rest, v ∈ q.versions) → (p.after page).watermark < v.2 := by
            rintro ⟨q, hq, hvq⟩
            have hbeyond : page.lastIndex < v.2 := by
              by_contra hle
              exact hv (hs.mem_head hq hvq (Nat.le_of_not_lt hle))
            rcases after_watermark_eq p page with h | ⟨c, hc, h⟩
            · rwa [h]
            · have := hs.le_lastIndex page List.mem_cons_self c.version
                (List.mem_map_of_mem (mem_fresh.mp hc).2.1)
              exact h ▸ Nat.lt_of_le_of_lt this hbeyond
          by_cases hex : ∃ q ∈ pages rest, v ∈ q.versions
          · simp [hlt, hv, key hex, hex]
          · simp [hv, hex]
      · have := Nat.le_trans (Nat.le_of_not_lt hlt) (watermark_le_after p page)
        simp [hlt, Nat.not_lt.mpr this]

/-- At an index up to which something was handed on, every version that some page shows or that a
later page of the same history will show has been handed on once. -/
theorem count_run_of_le {watermark : Nat} {answers : List (Except ε Page)} {more : List Page}
    (hs : Snapshots (pages answers ++ more)) (hn : ∀ page ∈ pages answers, page.versions.Nodup)
    {c : Change} (hc : c ∈ ((startingAt watermark).run answers).1.flatten) {page : Page}
    (hpage : page ∈ pages answers ++ more) {v : String × Nat} (hv : v ∈ page.versions)
    (hlt : watermark < v.2) (hle : v.2 ≤ c.index) :
    (((startingAt watermark).run answers).1.flatten.map Change.version).count v = 1 := by
  have hread : ∃ q ∈ pages answers, v ∈ q.versions := by
    rcases List.mem_append.mp hpage with hpage | hpage
    · exact ⟨page, hpage, hv⟩
    · obtain ⟨q, hq, hcq⟩ := mem_run hc
      have htop := hs.append_left.le_lastIndex q hq c.version (List.mem_map_of_mem hcq)
      exact ⟨q, hq, hs.mem_earlier hq hpage hv (Nat.le_trans hle htop)⟩
  rw [count_run hs.append_left hn (attentive_startingAt hs.append_left watermark)]
  exact if_pos ⟨hlt, hread⟩

/-- Loops with one watermark hand on the same changes, answer by answer, whatever they asked with
before the first page. -/
theorem run_eq_of_attentive {p q : Progress} {answers : List (Except ε Page)}
    (hw : p.watermark = q.watermark) (hp : p.Attentive (pages answers))
    (hq : q.Attentive (pages answers)) :
    (p.run answers).1 = (q.run answers).1 ∧
      (p.run answers).2.watermark = (q.run answers).2.watermark := by
  induction answers with
  | nil => exact ⟨rfl, hw⟩
  | cons answer rest ih =>
    cases answer with
    | error e =>
      obtain ⟨h1, h2⟩ := ih hp hq
      simp [h1, h2]
    | ok page =>
      have hf : p.fresh page = q.fresh page := by
        rw [fresh_of_attentive hp, fresh_of_attentive hq, hw]
      -- both loops ask with the index of the page from here on
      have heq : p.after page = q.after page := by
        have hi : (p.after page).index = (q.after page).index := by simp only [after_index]
        have hm : (p.after page).watermark = (q.after page).watermark := by
          rw [after_watermark, after_watermark, hf, hw]
        cases h1 : p.after page
        cases h2 : q.after page
        simp_all
      simp [hf, heq]

/-- A loop that begins anew at the final watermark of another one goes on as that one would have
gone on. -/
theorem run_append_restart (watermark : Nat) {answers more : List (Except ε Page)}
    (hs : Snapshots (pages (answers ++ more))) :
    let first := (startingAt watermark).run answers
    let second := (startingAt first.2.watermark).run more
    let whole := (startingAt watermark).run (answers ++ more)
    first.1 ++ second.1 = whole.1 ∧ second.2.watermark = whole.2.watermark := by
  intro first second whole
  rw [pages_append] at hs
  have hp : first.2.Attentive (pages more) :=
    attentive_run hs (attentive_startingAt hs watermark)
  have hq : (startingAt first.2.watermark).Attentive (pages more) :=
    attentive_startingAt hs.append_right _
  obtain ⟨h1, h2⟩ : second.1 = (first.2.run more).1 ∧
      second.2.watermark = (first.2.run more).2.watermark :=
    run_eq_of_attentive rfl hq hp
  have hwhole : whole = (first.1 ++ (first.2.run more).1, (first.2.run more).2) :=
    run_append _ _ _
  rw [hwhole]
  exact ⟨congrArg (first.1 ++ ·) h1, h2⟩

end Progress

end Watch

end ChangeFeed
