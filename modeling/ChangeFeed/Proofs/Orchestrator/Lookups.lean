import ChangeFeed.Orchestrator.Queries
import ChangeFeed.Proofs.Net.Literals

/-!
# Which record a lookup asks for

A lookup puts the id of a record at the end of an address as it is, so the id is read as a part of
the address. Different ids may lead to one target.

* `target_eq_iff_of_lookups`: ids lead to one target exactly if they are read alike. Literal ids do
  so only if they are the same, and for each id there is another one of its target.
-/

namespace ChangeFeed

/-- What can be asked for has a scheme that needs a host. -/
theorem Http.kind_of_isAskable {url : Net.Url} (h : isAskable url = true) :
    Net.Url.kind url.scheme = .known := by
  simp only [isAskable, Bool.and_eq_true, Bool.or_eq_true, decide_eq_true_eq] at h
  rcases h.1.1 with hscheme | hscheme
  · rw [hscheme]
    decide
  · rw [hscheme]
    decide

namespace Orchestrator.Service

open Net

variable {s : Service} {resource : Resource} {id other t t' : String}

/-- What ids are put behind. -/
def stem (s : Service) (resource : Resource) : String := s.address ++ resource.recordPath ""

theorem address_recordRequest (s : Service) (resource : Resource) (id : String) :
    (s.recordRequest resource id).address = s.stem resource ++ id := by
  simp [recordRequest, ask, stem, Resource.recordPath, String.append_assoc]

theorem toList_stem (s : Service) (resource : Resource) :
    (s.stem resource).toList = s.address.toList ++
      '/' :: 'v' :: ('1' :: '/' :: resource.singular.toList ++ ['/']) := by
  simp [stem, Resource.recordPath, String.toList_append]

/-- A lookup that is sent goes to an address on the web. -/
theorem parse?_of_target? (hregion : s.region = none)
    (h : (s.recordRequest resource id).target? = some t) :
    ∃ url, Url.parse? (s.stem resource ++ id) = some url ∧ Url.kind url.scheme = .known ∧
      t = url.target := by
  obtain ⟨url, hurl, rfl⟩ := Option.map_eq_some_iff.mp h
  have hquery : (s.recordRequest resource id).query = [] := by
    simp [recordRequest, ask, hregion]
  unfold Http.Request.url at hurl
  rw [address_recordRequest, hquery] at hurl
  cases hparse : Url.parse? (s.stem resource ++ id) with
  | none => rw [hparse] at hurl; cases hurl
  | some found =>
    rw [hparse] at hurl
    simp only at hurl
    split at hurl
    · cases hurl
    · split at hurl
      · cases hurl
      · split at hurl
        · rename_i haskable
          obtain rfl : found = url := Option.some.inj hurl
          exact ⟨found, rfl, Http.kind_of_isAskable haskable, rfl⟩
        · cases hurl

theorem target?_append_space (s : Service) (resource : Resource) (id : String) :
    (s.recordRequest resource (id ++ " ")).target? = (s.recordRequest resource id).target? := by
  have hparse : Url.parse? (s.recordRequest resource (id ++ " ")).address =
      Url.parse? (s.recordRequest resource id).address := by
    rw [address_recordRequest, address_recordRequest, ← String.append_assoc,
      Url.parse?_append_space]
  unfold Http.Request.target? Http.Request.url
  rw [hparse]
  rfl

/-- Ids lead to one target exactly if they are read alike at the end of the address. This is never
so for different ids that stand for themselves, and for each id it is so for another one. -/
theorem target_eq_iff_of_lookups (hregion : s.region = none)
    (ht : (s.recordRequest resource id).target? = some t)
    (ht' : (s.recordRequest resource other).target? = some t') :
    (∃ url, Url.parse? (s.stem resource) = some url ∧
      (t = t' ↔ url.reading (Url.trimmed id) = url.reading (Url.trimmed other))) ∧
    ('#' ∉ s.address.toList → Url.IsLiteral id → Url.IsLiteral other → (t = t' ↔ id = other)) ∧
    ∃ twin, twin ≠ id ∧ (s.recordRequest resource twin).target? = some t := by
  have hv : Url.counts 'v' = true := by decide
  have hslash : Url.isSlash .known 'v' = false := by decide
  obtain ⟨url, hurl, hknown, rfl⟩ := parse?_of_target? hregion ht
  obtain ⟨url', hurl', hknown', rfl⟩ := parse?_of_target? hregion ht'
  have hstem := toList_stem s resource
  obtain ⟨start, hstart, hdirectories, hfragment, htarget⟩ :=
    Url.target_of_parse?_append hv hslash hstem hurl hknown
  obtain ⟨start', hstart', -, -, htarget'⟩ :=
    Url.target_of_parse?_append hv hslash hstem hurl' hknown'
  obtain rfl : start = start' := Option.some.inj (hstart.symm.trans hstart')
  have halike : url.target = url'.target ↔
      start.reading (Url.trimmed id) = start.reading (Url.trimmed other) := by
    rw [htarget, htarget']
    exact Url.asked_reading_inj hdirectories _ _
  refine ⟨⟨start, hstart, halike⟩, fun hsharp hid hother => ?_, id ++ " ", ?_, ?_⟩
  · have hnone : start.fragment = none := by
      refine hfragment fun hmem => ?_
      rw [hstem, List.mem_append] at hmem
      refine hmem.elim hsharp ?_
      cases resource <;> decide
    rw [halike, hid.trimmed_eq, hother.trimmed_eq]
    exact ⟨Url.eq_of_reading_eq hnone hid hother, fun heq => by rw [heq]⟩
  · intro heq
    have hlength := congrArg String.length heq
    simp at hlength
  · rw [target?_append_space, ht]

/-- The client of an orchestrator on this machine. -/
def nearby : Service := ⟨"http://[::1]:4646", none, none, ⟨30000000000⟩, ⟨30000000000⟩⟩

/-- A space and its encoding are two ids of one target, since they are read alike. -/
theorem target_eq_iff_of_lookups_of_space :
    nearby.region = none ∧
    (nearby.recordRequest .jobs "a b").target? = some "/v1/job/a%20b" ∧
    (nearby.recordRequest .jobs "a%20b").target? = some "/v1/job/a%20b" ∧
    ∃ url, Url.parse? (nearby.stem .jobs) = some url ∧
      url.reading (Url.trimmed "a b") = url.reading (Url.trimmed "a%20b") := by
  have hone : (nearby.recordRequest .jobs "a b").target? = some "/v1/job/a%20b" := by
    decide +kernel
  have hother : (nearby.recordRequest .jobs "a%20b").target? = some "/v1/job/a%20b" := by
    decide +kernel
  obtain ⟨url, hurl, halike⟩ := (target_eq_iff_of_lookups rfl hone hother).1
  exact ⟨rfl, hone, hother, url, hurl, halike.mp rfl⟩

end Orchestrator.Service

end ChangeFeed
