import ChangeFeed.Net.Url
import ChangeFeed.Proofs.Net.Percents

/-!
# Paths and their segments

The steps of a path are taken one after the other, so what a path ends in is taken from the
directories before it. A written path tells its segments, since these have no slashes.

* `steps_append` takes the steps of a path in two parts, and `walk` is the first.
* `joined_inj` reads the segments back, and `steps_eq_append` says when they are those that were
  given, each encoded by itself.
-/

namespace ChangeFeed.Net.Url

variable {k : Kind} {done segments others : List (List Char)} {cs ds : List Char}

/-! ## Steps -/

/-- The directories after segments that others follow. -/
def walk (k : Kind) (done : List (List Char)) : List (List Char) → List (List Char)
  | [] => done
  | segment :: rest =>
    if isUp segment then walk k (up done) rest
    else if isHere segment then walk k done rest
    else walk k (done ++ [written k done segment]) rest

theorem steps_cons (segment : List Char) (h : segments ≠ []) :
    steps k done (segment :: segments) =
      if isUp segment then steps k (up done) segments
      else if isHere segment then steps k done segments
      else steps k (done ++ [written k done segment]) segments := by
  cases segments with
  | nil => exact absurd rfl h
  | cons next rest => rw [steps]; exact h

theorem steps_append (segments : List (List Char)) (hothers : others ≠ []) :
    steps k done (segments ++ others) = steps k (walk k done segments) others := by
  induction segments generalizing done with
  | nil => rfl
  | cons segment rest ih =>
    have hrest : rest ++ others ≠ [] := List.append_ne_nil_of_right_ne_nil rest hothers
    rw [List.cons_append, steps_cons segment hrest, walk]
    split
    · exact ih
    · split
      · exact ih
      · exact ih

theorem written_known (done : List (List Char)) (segment : List Char) :
    written .known done segment = Percent.encode Percent.pathSet segment :=
  if_neg fun h => nomatch h.1

/-- Segments that are no steps to directories are written one after the other. -/
theorem steps_eq_append (h : ∀ s ∈ segments, isUp s = false ∧ isHere s = false) :
    steps .known done segments = done ++ segments.map (Percent.encode Percent.pathSet) := by
  induction segments generalizing done with
  | nil => simp [steps]
  | cons segment rest ih =>
    obtain ⟨hup, hhere⟩ := h segment List.mem_cons_self
    have hrest : ∀ s ∈ rest, isUp s = false ∧ isHere s = false := fun s hs =>
      h s (List.mem_cons_of_mem segment hs)
    cases rest with
    | nil => simp [steps, hup, hhere, written_known]
    | cons next rest =>
      rw [steps_cons segment (List.cons_ne_nil next rest), hup, hhere, if_neg Bool.false_ne_true,
        if_neg Bool.false_ne_true, ih hrest, written_known, List.append_assoc]
      rfl

/-! ## Written segments -/

/-- Whether a text may stand between the slashes of a written path. -/
def IsSegment (s : List Char) : Prop := '/' ∉ s ∧ '?' ∉ s

theorem isSegment_nil : IsSegment [] := ⟨List.not_mem_nil, List.not_mem_nil⟩

theorem isSegment_encode (h : '/' ∉ cs) : IsSegment (Percent.encode Percent.pathSet cs) := by
  constructor
  · intro hmem
    rcases Percent.mem_encode hmem with ⟨hslash, -⟩ | hpercent | hdigit
    · exact h hslash
    · cases hpercent
    · exact absurd hdigit (by decide)
  · intro hmem
    rcases Percent.mem_encode hmem with ⟨-, hkept⟩ | hpercent | hdigit
    · exact absurd hkept (by decide)
    · cases hpercent
    · exact absurd hdigit (by decide)

theorem mem_of_mem_up {d : List Char} (h : d ∈ up done) : d ∈ done := by
  unfold up at h
  split at h
  · exact h
  · exact List.dropLast_subset done h

theorem isSegment_walk (hdone : ∀ d ∈ done, IsSegment d) (hsegments : ∀ s ∈ segments, '/' ∉ s) :
    ∀ d ∈ walk .known done segments, IsSegment d := by
  induction segments generalizing done with
  | nil => exact hdone
  | cons segment rest ih =>
    have hrest : ∀ s ∈ rest, '/' ∉ s := fun s hs => hsegments s (List.mem_cons_of_mem segment hs)
    have hone : IsSegment (written .known done segment) := by
      rw [written_known]
      exact isSegment_encode (hsegments segment List.mem_cons_self)
    rw [walk]
    split
    · exact ih (fun d hd => hdone d (mem_of_mem_up hd)) hrest
    · split
      · exact ih hdone hrest
      · refine ih (fun d hd => ?_) hrest
        rcases List.mem_append.mp hd with hd | hd
        · exact hdone d hd
        · exact List.mem_singleton.mp hd ▸ hone

theorem isSegment_steps (hdone : ∀ d ∈ done, IsSegment d) (hsegments : ∀ s ∈ segments, '/' ∉ s) :
    ∀ d ∈ steps .known done segments, IsSegment d := by
  rcases List.eq_nil_or_concat segments with rfl | ⟨front, last, rfl⟩
  · exact hdone
  rw [List.concat_eq_append] at hsegments ⊢
  have hwalk : ∀ d ∈ walk .known done front, IsSegment d :=
    isSegment_walk hdone fun s hs => hsegments s (List.mem_append_left [last] hs)
  have hlast : IsSegment (written .known (walk .known done front) last) := by
    rw [written_known]
    exact isSegment_encode (hsegments last (List.mem_append_right front List.mem_cons_self))
  rw [steps_append front (List.cons_ne_nil last []), steps]
  intro d hd
  split at hd
  · rcases List.mem_append.mp hd with hd | hd
    · exact hwalk d (mem_of_mem_up hd)
    · exact List.mem_singleton.mp hd ▸ isSegment_nil
  · split at hd
    · rcases List.mem_append.mp hd with hd | hd
      · exact hwalk d hd
      · exact List.mem_singleton.mp hd ▸ isSegment_nil
    · rcases List.mem_append.mp hd with hd | hd
      · exact hwalk d hd
      · exact List.mem_singleton.mp hd ▸ hlast

/-! ## Splitting and joining -/

/-- The parts of a split text are made of its characters other than the separators. -/
theorem mem_of_mem_splitOnP {p : Char → Bool} {s : List Char} (hs : s ∈ cs.splitOnP p) {c : Char}
    (hc : c ∈ s) : c ∈ cs ∧ p c = false := by
  induction cs generalizing s with
  | nil =>
    obtain rfl := List.mem_singleton.mp hs
    cases hc
  | cons first rest ih =>
    rw [List.splitOnP_cons_eq_if_modifyHead] at hs
    split at hs
    · rcases List.mem_cons.mp hs with rfl | hs
      · cases hc
      · exact (ih hs hc).imp_left (List.mem_cons_of_mem first)
    · rename_i hfirst
      obtain ⟨head, more, hparts⟩ := List.exists_cons_of_ne_nil (List.splitOnP_ne_nil p rest)
      rw [hparts] at ih hs
      rcases List.mem_cons.mp hs with rfl | hs
      · rcases List.mem_cons.mp hc with rfl | hc
        · exact ⟨List.mem_cons_self, Bool.eq_false_iff.mpr hfirst⟩
        · exact (ih List.mem_cons_self hc).imp_left (List.mem_cons_of_mem first)
      · exact (ih (List.mem_cons_of_mem head hs) hc).imp_left (List.mem_cons_of_mem first)

theorem not_mem_of_mem_splitOnP {s : List Char} (hs : s ∈ cs.splitOnP (isSlash k)) : '/' ∉ s := by
  intro hmem
  exact absurd (mem_of_mem_splitOnP hs hmem).2 (by cases k <;> decide)

/-- Where backslashes do not occur, a path is split at its slashes. -/
theorem splitOnP_isSlash (h : '\\' ∉ cs) : cs.splitOnP (isSlash k) = cs.splitOn '/' := by
  rw [List.splitOn_eq_splitOnP]
  induction cs with
  | nil => rfl
  | cons c rest ih =>
    have hc : isSlash k c = (c == '/') := by
      have hne : c ≠ '\\' := fun heq => h (heq ▸ List.mem_cons_self)
      rw [isSlash, decide_eq_false hne, Bool.and_false, Bool.or_false]
      exact Bool.eq_iff_iff.mpr (by simp)
    rw [List.splitOnP_cons_eq_if_modifyHead, List.splitOnP_cons_eq_if_modifyHead, hc,
      ih fun hmem => h (List.mem_cons_of_mem c hmem)]

theorem splitOn_append_joined (hcs : '/' ∉ cs) (h : ∀ s ∈ segments, '/' ∉ s) :
    (cs ++ joined segments).splitOn '/' = cs :: segments := by
  induction segments generalizing cs with
  | nil => rw [joined, List.flatMap_nil, List.append_nil, List.splitOn_eq_singleton hcs]
  | cons segment rest ih =>
    have hjoined : cs ++ joined (segment :: rest) = cs ++ '/' :: (segment ++ joined rest) := rfl
    rw [hjoined, List.splitOn_append_cons_self_of_not_mem hcs,
      ih (h segment List.mem_cons_self) fun s hs => h s (List.mem_cons_of_mem segment hs)]

theorem splitOn_joined (h : ∀ s ∈ segments, '/' ∉ s) :
    (joined segments).splitOn '/' = [] :: segments :=
  splitOn_append_joined List.not_mem_nil h

theorem joined_inj (h : ∀ s ∈ segments, '/' ∉ s) (h' : ∀ s ∈ others, '/' ∉ s)
    (heq : joined segments = joined others) : segments = others := by
  have hparts := congrArg (List.splitOn '/') heq
  rw [splitOn_joined h, splitOn_joined h'] at hparts
  exact (List.cons.inj hparts).2

theorem not_mem_joined {c : Char} (hc : c ≠ '/') (h : ∀ s ∈ segments, c ∉ s) :
    c ∉ joined segments := by
  intro hmem
  obtain ⟨s, hs, hin⟩ := List.mem_flatMap.mp hmem
  rcases List.mem_cons.mp hin with heq | hin
  · exact hc heq
  · exact h s hs hin

end ChangeFeed.Net.Url
