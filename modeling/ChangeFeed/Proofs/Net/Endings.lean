import ChangeFeed.Proofs.Net.Paths
import Mathlib.Data.List.TakeWhile

/-!
# What an address ends in

A text that is put behind the last slash of an address is read for itself: what stands before it
says only in which part of the address it comes to lie, and which directories it starts from.

* `Reading` is what such a text comes to, and `Url.asked` is the target that it leads to.
* `target_of_parse?_append`: reading an address with a text at its end comes to the same as reading
  the address and then the text.
* `asked_reading_inj`: two texts lead to one target only if they come to the same.
-/

namespace ChangeFeed.Net

/-- What a text at the end of an address comes to. -/
inductive Reading where
  /-- It is a part of the fragment, which nobody is asked for. -/
  | unsent
  /-- It is a part of the query. -/
  | query (text : List Char)
  /-- It is the end of the path, and perhaps a query. -/
  | path (segments : List (List Char)) (query : Option String)
  deriving DecidableEq

namespace Url

variable {p : Char → Bool} {c : Char} {cs ds rest : List Char}

/-! ## Texts with a mark -/

theorem takeWhile_append_cons (hc : p c = false) (cs rest : List Char) :
    (cs ++ c :: rest).takeWhile p = cs.takeWhile p := by
  induction cs with
  | nil => simp [hc]
  | cons d ds ih =>
    rw [List.cons_append, List.takeWhile_cons, List.takeWhile_cons, ih]

theorem dropWhile_append_cons (hc : p c = false) (cs rest : List Char) :
    (cs ++ c :: rest).dropWhile p = cs.dropWhile p ++ c :: rest := by
  induction cs with
  | nil => simp [hc]
  | cons d ds ih =>
    rw [List.cons_append, List.dropWhile_cons, List.dropWhile_cons, ih]
    split <;> rfl

theorem drop_length_takeWhile (p : Char → Bool) (cs : List Char) :
    cs.drop (cs.takeWhile p).length = cs.dropWhile p := by
  induction cs with
  | nil => rfl
  | cons d ds ih =>
    rw [List.takeWhile_cons, List.dropWhile_cons]
    split
    · exact ih
    · rfl

/-! ## The parts of an address -/

/-- Whether a character counts wherever it stands. -/
def counts (c : Char) : Bool := c ≠ '\t' && c ≠ '\n' && c ≠ '\r'

/-- What counts of a text at the end of an address. -/
def trimmed (s : String) : List Char :=
  (s.toList.reverse.dropWhile fun c => decide (c.toNat ≤ 0x20)).reverse.filter counts

/-- The directories of a path that ends in a slash. -/
def directories (url : Url) : List (List Char) :=
  ((url.path.toList.splitOn '/').drop 1).dropLast

/-- What a text comes to at the end of an address. -/
def reading (url : Url) (cs : List Char) : Reading :=
  match url.fragment, url.query with
  | some _, _ => .unsent
  | none, some _ =>
    .query (Percent.encode (Percent.querySet ++ ['\'']) (cs.takeWhile (· ≠ '#')))
  | none, none =>
    .path (steps .known url.directories ((beforeQuery cs).splitOnP (isSlash .known)))
      (tail .known (cs.drop (beforeQuery cs).length)).1

/-- What an address asks for with a text at its end. -/
def asked (url : Url) : Reading → String
  | .unsent => url.target
  | .query text => url.target ++ String.ofList text
  | .path segments query => String.ofList (joined segments) ++ marked "?" query

theorem reading_of_fragment {url : Url} (h : url.fragment ≠ none) (cs : List Char) :
    url.reading cs = .unsent := by
  obtain ⟨fragment, hfragment⟩ := Option.ne_none_iff_exists'.mp h
  rw [reading, hfragment]

theorem reading_of_query {url : Url} (hfragment : url.fragment = none) (h : url.query ≠ none)
    (cs : List Char) : url.reading cs =
      .query (Percent.encode (Percent.querySet ++ ['\'']) (cs.takeWhile (· ≠ '#'))) := by
  obtain ⟨query, hquery⟩ := Option.ne_none_iff_exists'.mp h
  rw [reading, hfragment, hquery]

theorem reading_of_path {url : Url} (hfragment : url.fragment = none) (hquery : url.query = none)
    (cs : List Char) : url.reading cs =
      .path (steps .known url.directories ((beforeQuery cs).splitOnP (isSlash .known)))
        (tail .known (cs.drop (beforeQuery cs).length)).1 := by
  rw [reading, hfragment, hquery]

/-! ## Reading up to the mark -/

theorem scheme?_eq (cs : List Char) :
    scheme? cs =
      match cs.dropWhile isSchemeCharacter with
      | ':' :: rest =>
        if ((cs.takeWhile isSchemeCharacter).head?.map Char.isAlpha).getD false then
          some (String.ofList ((cs.takeWhile isSchemeCharacter).map Char.toLower), rest)
        else none
      | _ => none := by
  rw [← drop_length_takeWhile]
  rfl

/-- A scheme stands before the first slash. -/
theorem scheme?_append (cs rest : List Char) :
    scheme? (cs ++ '/' :: rest) =
      (scheme? cs).map fun (name, more) => (name, more ++ '/' :: rest) := by
  have hslash : isSchemeCharacter '/' = false := by decide
  rw [scheme?_eq, scheme?_eq, takeWhile_append_cons hslash, dropWhile_append_cons hslash]
  cases cs.dropWhile isSchemeCharacter with
  | nil => rfl
  | cons d ds =>
    by_cases hd : d = ':'
    · subst hd
      simp only [List.cons_append]
      split <;> rfl
    · simp [hd]

/-- Where the scheme needs a host, what follows a slash behind it is only put at the end. -/
theorem afterSlashes?_append {scheme : String} (hknown : kind scheme = .known)
    (cs rest : List Char) :
    afterSlashes? scheme (cs ++ '/' :: rest) =
      (authority? scheme (cs.takeWhile fun c => !endsAuthority .known c)).map fun (host, port) =>
        finish scheme (some host) port (rooted .known)
          (cs.dropWhile (fun c => !endsAuthority .known c) ++ '/' :: rest) := by
  have hslash : (!endsAuthority .known '/') = false := by decide
  have hpath : (fun cs : List Char =>
      if kind scheme = .other ∧ cs = [] then [] else rooted (kind scheme) cs) =
        rooted .known := by
    funext cs
    rw [hknown]
    rfl
  unfold afterSlashes?
  simp only [hpath]
  rw [hknown, drop_length_takeWhile, takeWhile_append_cons hslash, dropWhile_append_cons hslash]

/-! ## Paths, queries and fragments -/

theorem segments_append {before : List Char} (h : ∀ d ∈ before.head?, isSlash .known d = true) :
    ∃ base, (∀ d ∈ base, IsSegment d) ∧ ∀ cs, segments .known (before ++ '/' :: cs) =
      steps .known base (cs.splitOnP (isSlash .known)) := by
  cases before with
  | nil => exact ⟨[], List.forall_mem_nil IsSegment, fun cs => rfl⟩
  | cons d ds =>
    refine ⟨walk .known [] (ds.splitOnP (isSlash .known)), ?_, fun cs => ?_⟩
    · exact isSegment_walk (List.forall_mem_nil IsSegment) fun s hs => not_mem_of_mem_splitOnP hs
    · have hd : isSlash .known d = true := h d rfl
      have hslash : isSlash .known '/' = true := by decide
      have hsegments : segments .known (d :: ds ++ '/' :: cs) =
          steps .known [] ((ds ++ '/' :: cs).splitOnP (isSlash .known)) := by
        unfold segments
        simp only [List.cons_append, hd, if_true]
      rw [hsegments, List.splitOnP_append_cons _ _ hslash,
        steps_append _ (List.splitOnP_ne_nil _ _)]

theorem directories_of_path {url : Url} {base : List (List Char)} (h : ∀ d ∈ base, IsSegment d)
    (hpath : url.path = String.ofList (joined (base ++ [[]]))) : url.directories = base := by
  have hslash : ∀ s ∈ base ++ [[]], '/' ∉ s := by
    intro s hs
    rcases List.mem_append.mp hs with hs | hs
    · exact (h s hs).1
    · exact List.mem_singleton.mp hs ▸ List.not_mem_nil
  rw [directories, hpath, String.toList_ofList, splitOn_joined hslash]
  simp

theorem tail_fragment_eq_none_iff : (tail .known ('?' :: cs)).2 = none ↔ '#' ∉ cs := by
  unfold tail
  simp only
  rw [drop_length_takeWhile]
  cases hrest : cs.dropWhile (· ≠ '#') with
  | nil =>
    have hall : ∀ c ∈ cs, (decide (c ≠ '#')) = true := List.dropWhile_eq_nil_iff.mp hrest
    exact iff_of_true rfl fun hmem => absurd (hall '#' hmem) (by decide)
  | cons mark rest =>
    have hmark : mark = '#' := by
      have hnot := List.head?_dropWhile_not (fun c => decide (c ≠ '#')) cs
      rw [hrest] at hnot
      simpa using hnot
    subst hmark
    have hmem : '#' ∈ cs := by
      have hsuffix := List.dropWhile_suffix (l := cs) fun c => decide (c ≠ '#')
      rw [hrest] at hsuffix
      exact hsuffix.subset List.mem_cons_self
    exact iff_of_false (Option.some_ne_none _) (not_not_intro hmem)

section Finish

variable {scheme : String} {host : Option Host} {port : Option Nat} {before front : List Char}

/-- Whether a character neither begins a query nor a fragment. -/
def isBeforeQuery (c : Char) : Bool := c ≠ '?' && c ≠ '#'

theorem finish_eq (path : List Char → List Char) (cs : List Char) :
    finish scheme host port path cs =
      ⟨scheme, host, port, String.ofList (path (cs.takeWhile isBeforeQuery)),
        (tail (kind scheme) (cs.dropWhile isBeforeQuery)).1,
        (tail (kind scheme) (cs.dropWhile isBeforeQuery)).2⟩ := by
  rw [← drop_length_takeWhile]
  rfl

theorem finish_append_cons (hknown : kind scheme = .known) (path : List Char → List Char)
    (hfront : ∀ c ∈ front, isBeforeQuery c = true) {mark : Char}
    (hmark : isBeforeQuery mark = false) (rest : List Char) :
    finish scheme host port path (front ++ mark :: rest) =
      ⟨scheme, host, port, String.ofList (path front), (tail .known (mark :: rest)).1,
        (tail .known (mark :: rest)).2⟩ := by
  have htake : front.takeWhile isBeforeQuery = front := List.takeWhile_eq_self_iff.mpr hfront
  have hdrop : front.dropWhile isBeforeQuery = [] := List.dropWhile_eq_nil_iff.mpr hfront
  rw [finish_eq, hknown, takeWhile_append_cons hmark, dropWhile_append_cons hmark, htake, hdrop,
    List.nil_append]

/-- Behind a fragment a text is unsent. -/
theorem target_finish_of_fragment (hknown : kind scheme = .known)
    (hfront : ∀ c ∈ front, isBeforeQuery c = true) (path : List Char → List Char)
    (more cs : List Char) :
    let url := finish scheme host port path (front ++ '#' :: (more ++ ['/']))
    url.fragment ≠ none ∧
      (finish scheme host port path (front ++ '#' :: (more ++ '/' :: cs))).target =
        url.asked (url.reading cs) := by
  intro url
  have hput (cs : List Char) : finish scheme host port path (front ++ '#' :: cs) =
      ⟨scheme, host, port, String.ofList (path front), none,
        some (String.ofList (Percent.encode Percent.fragmentSet cs))⟩ :=
    finish_append_cons hknown path hfront (by decide) cs
  have hurl : url = _ := hput (more ++ ['/'])
  have hfragment : url.fragment ≠ none := by rw [hurl]; exact Option.some_ne_none _
  rw [reading_of_fragment hfragment, asked, hurl, hput]
  exact ⟨Option.some_ne_none _, rfl⟩

/-- Behind a query a text is a part of it, unless a fragment follows. -/
theorem target_finish_of_query (hknown : kind scheme = .known)
    (hfront : ∀ c ∈ front, isBeforeQuery c = true) (path : List Char → List Char)
    (more cs : List Char) :
    let url := finish scheme host port path (front ++ '?' :: (more ++ ['/']))
    url.query ≠ none ∧ (url.fragment = none ↔ '#' ∉ more) ∧
      (finish scheme host port path (front ++ '?' :: (more ++ '/' :: cs))).target =
        url.asked (url.reading cs) := by
  intro url
  have hput (cs : List Char) : finish scheme host port path (front ++ '?' :: cs) =
      ⟨scheme, host, port, String.ofList (path front), some (String.ofList
        (Percent.encode (Percent.querySet ++ ['\'']) (cs.takeWhile (· ≠ '#')))),
        (tail .known ('?' :: cs)).2⟩ :=
    finish_append_cons hknown path hfront (by decide) cs
  have hurl : url = _ := hput (more ++ ['/'])
  have hquery : url.query ≠ none := by rw [hurl]; exact Option.some_ne_none _
  have hfragment : url.fragment = none ↔ '#' ∉ more := by
    rw [hurl, tail_fragment_eq_none_iff, List.mem_append]
    simp
  refine ⟨hquery, hfragment, ?_⟩
  by_cases hmem : '#' ∈ more
  · rw [reading_of_fragment fun h => hfragment.mp h hmem]
    obtain ⟨start, rest, rfl⟩ := List.append_of_mem hmem
    rw [asked, hurl, hput, List.append_assoc, List.append_assoc, List.cons_append, List.cons_append,
      takeWhile_append_cons (by decide), takeWhile_append_cons (by decide)]
    rfl
  · rw [reading_of_query (hfragment.mpr hmem) hquery]
    have hall : ∀ c ∈ more ++ ['/'], decide (c ≠ '#') = true := by
      intro c hc
      rcases List.mem_append.mp hc with hc | hc
      · exact decide_eq_true fun heq => hmem (heq ▸ hc)
      · exact decide_eq_true fun heq => absurd (heq ▸ hc) (by decide)
    have hone : more ++ '/' :: cs = (more ++ ['/']) ++ cs := by simp
    rw [asked, hurl, hone, hput, List.takeWhile_append_of_pos hall,
      List.takeWhile_eq_self_iff.mpr hall, Percent.encode_append, String.ofList_append]
    simp only [target, marked, String.append_assoc]

/-- Behind a path a text ends it, and may go on to a query. -/
theorem target_finish_of_path (hknown : kind scheme = .known)
    (hbefore : ∀ c ∈ before, isBeforeQuery c = true)
    (hslash : ∀ d ∈ before.head?, isSlash .known d = true) :
    let url := finish scheme host port (rooted .known) (before ++ ['/'])
    (∀ d ∈ url.directories, IsSegment d) ∧ url.fragment = none ∧ ∀ cs,
      (finish scheme host port (rooted .known) (before ++ '/' :: cs)).target =
        url.asked (url.reading cs) := by
  intro url
  obtain ⟨base, hbase, hsteps⟩ := segments_append hslash
  have hput (cs : List Char) : finish scheme host port (rooted .known) (before ++ '/' :: cs) =
      ⟨scheme, host, port,
        String.ofList (joined (steps .known base ((beforeQuery cs).splitOnP (isSlash .known)))),
        (tail .known (cs.drop (beforeQuery cs).length)).1,
        (tail .known (cs.drop (beforeQuery cs).length)).2⟩ := by
    have hone : isBeforeQuery '/' = true := by decide
    have htake : (before ++ '/' :: cs).takeWhile isBeforeQuery =
        before ++ '/' :: beforeQuery cs := by
      rw [List.takeWhile_append_of_pos hbefore, List.takeWhile_cons_of_pos hone]
      rfl
    have hdrop : (before ++ '/' :: cs).dropWhile isBeforeQuery =
        cs.drop (beforeQuery cs).length := by
      rw [List.dropWhile_append_of_pos hbefore, List.dropWhile_cons_of_pos hone]
      exact (drop_length_takeWhile isBeforeQuery cs).symm
    have hrooted : rooted .known (before ++ '/' :: beforeQuery cs) =
        joined (steps .known base ((beforeQuery cs).splitOnP (isSlash .known))) := by
      rw [← hsteps]
      rfl
    rw [finish_eq, hknown, htake, hdrop, hrooted]
  have hurl : url = ⟨scheme, host, port, String.ofList (joined (base ++ [[]])), none, none⟩ :=
    hput []
  have hdirectories : url.directories = base := directories_of_path hbase (by rw [hurl])
  refine ⟨hdirectories ▸ hbase, by rw [hurl], fun cs => ?_⟩
  rw [reading_of_path (by rw [hurl]) (by rw [hurl]), hdirectories, hput]
  rfl

/-- A text behind a slash is read for itself. -/
theorem target_finish (hknown : kind scheme = .known)
    (hbefore : ∀ d ∈ before.head?, endsAuthority .known d = true) (cs : List Char) :
    let url := finish scheme host port (rooted .known) (before ++ ['/'])
    (url.query = none → url.fragment = none → ∀ d ∈ url.directories, IsSegment d) ∧
      ('#' ∉ before → url.fragment = none) ∧
      (finish scheme host port (rooted .known) (before ++ '/' :: cs)).target =
        url.asked (url.reading cs) := by
  intro url
  have hjoin := List.takeWhile_append_dropWhile (p := isBeforeQuery) (l := before)
  have hfront : ∀ c ∈ before.takeWhile isBeforeQuery, isBeforeQuery c = true := fun c hc =>
    List.mem_takeWhile_imp hc
  cases hrest : before.dropWhile isBeforeQuery with
  | nil =>
    have hall : ∀ c ∈ before, isBeforeQuery c = true := List.dropWhile_eq_nil_iff.mp hrest
    have hslash : ∀ d ∈ before.head?, isSlash .known d = true := by
      intro d hd
      have hends : endsAuthority .known d = true := hbefore d hd
      have hquery : isBeforeQuery d = true := hall d (List.mem_of_mem_head? hd)
      simp only [endsAuthority, isBeforeQuery, Bool.or_eq_true, Bool.and_eq_true,
        decide_eq_true_eq] at hends hquery
      exact (hends.resolve_right hquery.2).resolve_right hquery.1
    obtain ⟨hdirectories, hfragment, htarget⟩ := target_finish_of_path hknown hall hslash
    exact ⟨fun _ _ => hdirectories, fun _ => hfragment, htarget cs⟩
  | cons mark more =>
    rw [hrest] at hjoin
    have hmark : isBeforeQuery mark = false := by
      have hnot := List.head?_dropWhile_not isBeforeQuery before
      rw [hrest] at hnot
      exact hnot
    have heither : mark = '?' ∨ mark = '#' := by
      by_contra hneither
      obtain ⟨hquery, hsharp⟩ := not_or.mp hneither
      simp [isBeforeQuery, hquery, hsharp] at hmark
    have htext (cs : List Char) : before ++ '/' :: cs =
        before.takeWhile isBeforeQuery ++ mark :: (more ++ '/' :: cs) := by
      rw [← List.cons_append, ← List.append_assoc, hjoin]
    have hurl : url = finish scheme host port (rooted .known)
        (before.takeWhile isBeforeQuery ++ mark :: (more ++ ['/'])) := by
      rw [← htext]
    rw [hurl, htext]
    rcases heither with rfl | rfl
    · obtain ⟨hquery, hfragment, htarget⟩ :=
        target_finish_of_query hknown hfront (rooted .known) more cs
      refine ⟨fun hnone => absurd hnone hquery, fun hsharp => hfragment.mpr fun hmem => ?_, htarget⟩
      exact hsharp (hjoin ▸ List.mem_append_right _ (List.mem_cons_of_mem '?' hmem))
    · obtain ⟨hfragment, htarget⟩ :=
        target_finish_of_fragment hknown hfront (rooted .known) more cs
      refine ⟨fun _ hnone => absurd hnone hfragment, fun hsharp => absurd ?_ hsharp, htarget⟩
      exact hjoin ▸ List.mem_append_right _ List.mem_cons_self

end Finish

/-! ## Whole addresses -/

/-- What counts of an address with slashes, of which the last is followed by a text. -/
theorem significant_append {x y : String} {front middle : List Char} (hc : counts c = true)
    (hx : x.toList = front ++ '/' :: c :: (middle ++ ['/'])) :
    significant (x ++ y) =
      (front.dropWhile fun c => decide (c.toNat ≤ 0x20)).filter counts ++
        '/' :: c :: (middle.filter counts ++ '/' :: trimmed y) := by
  have hblank : decide ('/'.toNat ≤ 0x20) = false := by decide
  have hslash : counts '/' = true := by decide
  have htext : (x ++ y).toList = front ++ '/' :: (c :: (middle ++ '/' :: y.toList)) := by
    simp [String.toList_append, hx]
  have hwhole : front.dropWhile (fun c => decide (c.toNat ≤ 0x20)) ++
      '/' :: (c :: (middle ++ '/' :: y.toList)) =
        (front.dropWhile (fun c => decide (c.toNat ≤ 0x20)) ++ '/' :: c :: middle) ++
          '/' :: y.toList := by
    simp
  have hsignificant : significant (x ++ y) =
      ((((x ++ y).toList.dropWhile fun c => decide (c.toNat ≤ 0x20)).reverse.dropWhile
        fun c => decide (c.toNat ≤ 0x20)).reverse).filter counts := rfl
  rw [hsignificant, htext, dropWhile_append_cons hblank, hwhole, List.reverse_append,
    List.reverse_cons, List.append_assoc, List.singleton_append, dropWhile_append_cons hblank,
    List.reverse_append]
  simp only [List.filter_append, List.filter_cons_of_pos hslash, List.filter_cons_of_pos hc,
    List.reverse_append, List.reverse_cons, List.reverse_reverse, List.append_assoc,
    List.cons_append, List.nil_append]
  rfl

theorem scheme_of_file? {url : Url} (h : file? cs = some url) : url.scheme = "file" := by
  unfold file? at h
  simp only at h
  split at h
  · split at h
    · split at h
      · obtain rfl := Option.some.inj h
        rfl
      · obtain ⟨host, -, rfl⟩ := Option.map_eq_some_iff.mp h
        split <;> rfl
    · obtain rfl := Option.some.inj h
      rfl
  · obtain rfl := Option.some.inj h
    rfl

theorem scheme_of_afterSlashes? {scheme : String} {url : Url}
    (h : afterSlashes? scheme cs = some url) : url.scheme = scheme := by
  obtain ⟨p, -, rfl⟩ := Option.map_eq_some_iff.mp h
  rfl

/-- How an address is read whose scheme needs a host. -/
theorem parse?_eq_some_of_known {s : String} {url : Url} (h : parse? s = some url)
    (hknown : kind url.scheme = .known) :
    ∃ rest, scheme? (significant s) = some (url.scheme, rest) ∧
      afterSlashes? url.scheme (rest.dropWhile (isSlash .known)) = some url := by
  obtain ⟨⟨scheme, rest⟩, hscheme, h⟩ := Option.bind_eq_some_iff.mp h
  simp only at h
  split at h
  · obtain rfl := scheme_of_afterSlashes? h
    exact ⟨rest, hscheme, h⟩
  · rw [scheme_of_file? h] at hknown
    exact absurd hknown (by decide)
  · rename_i hother
    have hsame : url.scheme = scheme := by
      split at h
      · exact scheme_of_afterSlashes? h
      · obtain rfl := Option.some.inj h
        rfl
    rw [hsame, hother] at hknown
    cases hknown

theorem mem_of_mem_scheme? {scheme : String} (h : scheme? cs = some (scheme, rest))
    (hc : c ∈ rest) : c ∈ cs := by
  rw [scheme?_eq] at h
  split at h
  · rename_i more hmore
    split at h
    · obtain rfl := (Prod.mk.inj (Option.some.inj h)).2
      have hsuffix := List.dropWhile_suffix (l := cs) isSchemeCharacter
      rw [hmore] at hsuffix
      exact hsuffix.subset (List.mem_cons_of_mem ':' hc)
    · cases h
  · cases h

section Whole

variable {x : String} {front middle more : List Char} {scheme : String}

/-- What stands between the scheme and the last slash of an address with slashes. -/
def behindScheme (more : List Char) (c : Char) (middle : List Char) : List Char :=
  (more ++ ['/']).dropWhile (isSlash .known) ++ c :: middle.filter counts

theorem parse?_append (hc : counts c = true) (hslash : isSlash .known c = false)
    (hx : x.toList = front ++ '/' :: c :: (middle ++ ['/']))
    (hscheme : scheme? ((front.dropWhile fun c => decide (c.toNat ≤ 0x20)).filter counts) =
      some (scheme, more))
    (hknown : kind scheme = .known) (y : String) :
    parse? (x ++ y) =
      (authority? scheme
        ((behindScheme more c middle).takeWhile fun c => !endsAuthority .known c)).map
          fun (host, port) => finish scheme (some host) port (rooted .known)
            ((behindScheme more c middle).dropWhile (fun c => !endsAuthority .known c) ++
              '/' :: trimmed y) := by
  have hread : scheme? (significant (x ++ y)) =
      some (scheme, more ++ '/' :: c :: (middle.filter counts ++ '/' :: trimmed y)) := by
    rw [significant_append hc hx, scheme?_append, hscheme]
    rfl
  have hparse : parse? (x ++ y) = afterSlashes? scheme
      ((more ++ '/' :: c :: (middle.filter counts ++ '/' :: trimmed y)).dropWhile
        (isSlash .known)) := by
    rw [parse?, hread]
    simp only [Option.bind_eq_bind, Option.bind_some, hknown]
  have htext : (more ++ '/' :: c :: (middle.filter counts ++ '/' :: trimmed y)).dropWhile
      (isSlash .known) = behindScheme more c middle ++ '/' :: trimmed y := by
    have hmore : more ++ '/' :: c :: (middle.filter counts ++ '/' :: trimmed y) =
        (more ++ ['/']) ++ c :: (middle.filter counts ++ '/' :: trimmed y) := by simp
    rw [hmore, dropWhile_append_cons hslash, behindScheme, List.append_assoc, List.cons_append]
  rw [hparse, htext, afterSlashes?_append hknown]

theorem not_mem_behindScheme
    (hx : x.toList = front ++ '/' :: c :: (middle ++ ['/']))
    (hscheme : scheme? ((front.dropWhile fun c => decide (c.toNat ≤ 0x20)).filter counts) =
      some (scheme, more))
    (hsharp : '#' ∉ x.toList) : '#' ∉ behindScheme more c middle := by
  intro hmem
  refine hsharp ?_
  rw [hx]
  rcases List.mem_append.mp hmem with hmem | hmem
  · rcases List.mem_append.mp ((List.dropWhile_suffix _).subset hmem) with hmem | hmem
    · have hfront := (List.mem_filter.mp (mem_of_mem_scheme? hscheme hmem)).1
      exact List.mem_append_left _ ((List.dropWhile_suffix _).subset hfront)
    · exact absurd hmem (by decide)
  · refine List.mem_append_right front (List.mem_cons_of_mem '/' ?_)
    rcases List.mem_cons.mp hmem with heq | hmem
    · exact heq ▸ List.mem_cons_self
    · exact List.mem_cons_of_mem c (List.mem_append_left _ (List.mem_filter.mp hmem).1)

/-- An address with slashes is read up to the last one, and what follows is read for itself. -/
theorem target_of_parse?_append (hc : counts c = true) (hslash : isSlash .known c = false)
    (hx : x.toList = front ++ '/' :: c :: (middle ++ ['/'])) {y : String} {url : Url}
    (h : parse? (x ++ y) = some url) (hknown : kind url.scheme = .known) :
    ∃ start, parse? x = some start ∧
      (start.query = none → start.fragment = none → ∀ d ∈ start.directories, IsSegment d) ∧
      ('#' ∉ x.toList → start.fragment = none) ∧
      url.target = start.asked (start.reading (trimmed y)) := by
  obtain ⟨rest, hscheme, -⟩ := parse?_eq_some_of_known h hknown
  rw [significant_append hc hx, scheme?_append] at hscheme
  obtain ⟨⟨scheme, more⟩, hfront, hpair⟩ := Option.map_eq_some_iff.mp hscheme
  obtain rfl : scheme = url.scheme := congrArg Prod.fst hpair
  have hput := parse?_append hc hslash hx hfront hknown
  have hstart := hput ""
  rw [String.append_empty] at hstart
  rw [hput] at h
  obtain ⟨⟨host, port⟩, hauthority, hurl⟩ := Option.map_eq_some_iff.mp h
  rw [hauthority] at hstart
  have hends : ∀ d ∈ ((behindScheme more c middle).dropWhile
      fun c => !endsAuthority .known c).head?, endsAuthority .known d = true := by
    intro d hd
    have hnot := List.head?_dropWhile_not (fun c => !endsAuthority .known c)
      (behindScheme more c middle)
    rw [hd] at hnot
    simpa using hnot
  obtain ⟨hdirectories, hfragment, htarget⟩ :=
    target_finish hknown hends (trimmed y)
  refine ⟨_, hstart, hdirectories, fun hsharp => hfragment fun hmem => ?_, ?_⟩
  · exact not_mem_behindScheme hx hfront hsharp ((List.dropWhile_suffix _).subset hmem)
  · rw [← hurl]
    exact htarget

end Whole

/-! ## Different texts -/

theorem target_parts {path : List Char} (hpath : '?' ∉ path) (query : Option String) :
    (String.ofList path ++ marked "?" query).toList.takeWhile (· ≠ '?') = path ∧
      (String.ofList path ++ marked "?" query).toList.dropWhile (· ≠ '?') =
        (marked "?" query).toList := by
  have hall : ∀ c ∈ path, decide (c ≠ '?') = true := fun c hc =>
    decide_eq_true fun heq => hpath (heq ▸ hc)
  have hmark : decide ('?' ≠ '?') = false := by decide
  rw [String.toList_append, String.toList_ofList, List.takeWhile_append_of_pos hall,
    List.dropWhile_append_of_pos hall]
  cases query with
  | none => simp [marked]
  | some query => simp [marked]

theorem marked_inj {query other : Option String} (h : marked "?" query = marked "?" other) :
    query = other := by
  have hlist := congrArg String.toList h
  cases query with
  | none =>
    cases other with
    | none => rfl
    | some other => simp [marked] at hlist
  | some query =>
    cases other with
    | none => simp [marked] at hlist
    | some other =>
      simp only [marked, String.toList_append, List.append_cancel_left_eq] at hlist
      rw [String.toList_inj.mp hlist]

/-- A path without a question mark is told by the target. -/
theorem target_inj {path other : List Char} (hpath : '?' ∉ path) (hother : '?' ∉ other)
    {query otherQuery : Option String}
    (h : String.ofList path ++ marked "?" query = String.ofList other ++ marked "?" otherQuery) :
    path = other ∧ query = otherQuery := by
  have hparts := target_parts hpath query
  rw [h] at hparts
  obtain ⟨htake, hdrop⟩ := target_parts hother otherQuery
  refine ⟨hparts.1.symm.trans htake, marked_inj ?_⟩
  exact String.toList_inj.mp (hparts.2.symm.trans hdrop)

/-- Two texts at the end of an address lead to one target exactly if they come to the same. -/
theorem asked_reading_inj {url : Url}
    (h : url.query = none → url.fragment = none → ∀ d ∈ url.directories, IsSegment d)
    (cs ds : List Char) :
    url.asked (url.reading cs) = url.asked (url.reading ds) ↔ url.reading cs = url.reading ds := by
  refine ⟨fun heq => ?_, congrArg url.asked⟩
  by_cases hfragment : url.fragment = none
  · by_cases hquery : url.query = none
    · have hsegments (cs : List Char) :
          ∀ s ∈ steps .known url.directories ((beforeQuery cs).splitOnP (isSlash .known)),
            IsSegment s :=
        isSegment_steps (h hquery hfragment) fun s hs => not_mem_of_mem_splitOnP hs
      have hmark (cs : List Char) : '?' ∉
          joined (steps .known url.directories ((beforeQuery cs).splitOnP (isSlash .known))) :=
        not_mem_joined (by decide) fun s hs => (hsegments cs s hs).2
      rw [reading_of_path hfragment hquery, reading_of_path hfragment hquery] at heq ⊢
      obtain ⟨hpath, hsame⟩ := target_inj (hmark cs) (hmark ds) heq
      rw [joined_inj (fun s hs => (hsegments cs s hs).1) (fun s hs => (hsegments ds s hs).1) hpath,
        hsame]
    · rw [reading_of_query hfragment hquery, reading_of_query hfragment hquery] at heq ⊢
      have hlist := congrArg String.toList heq
      simp only [asked, String.toList_append, String.toList_ofList,
        List.append_cancel_left_eq] at hlist
      rw [hlist]
  · rw [reading_of_fragment hfragment, reading_of_fragment hfragment]

end Url

end ChangeFeed.Net
