import ChangeFeed.Consul.Service

/-!
# What the answers of Consul mean

Each request has a function from deliveries to results. These lemmas say which deliveries give a
result that is not a failure: an answer to a request that could be built, whose status blames nobody
and whose body has the expected form.
-/

namespace ChangeFeed

namespace Http

variable {r : Request} {d : Delivery} {response : Response}

theorem Request.exchange_eq_ok_iff :
    r.exchange d = .ok response ↔ (∃ url, r.url = .ok url) ∧ d = .answered response := by
  rw [exchange, bind_eq_ok_iff]
  cases d <;> simp

theorem Response.accepted_eq_ok_iff {accepted : Response} {address : String} :
    response.accepted address = .ok accepted ↔
      ¬ (isClientError response.status || isServerError response.status) ∧ response = accepted := by
  unfold Response.accepted
  split <;> simp_all

theorem Request.success_eq_ok_iff :
    r.success d = .ok response ↔ (∃ url, r.url = .ok url) ∧ d = .answered response ∧
      ¬ (isClientError response.status || isServerError response.status) := by
  simp only [success, bind_eq_ok_iff, exchange_eq_ok_iff, Response.accepted_eq_ok_iff]
  constructor
  · rintro ⟨url, hurl, _, ⟨hask, hd⟩, hstatus, rfl⟩
    exact ⟨hask, hd, hstatus⟩
  · rintro ⟨⟨url, hurl⟩, hd, hstatus⟩
    exact ⟨url, hurl, response, ⟨⟨url, hurl⟩, hd⟩, hstatus, rfl⟩

end Http

namespace Consul.Service

variable {s : Service} {key session : String} {index : Nat} {d : Http.Delivery}

/-- A request is answered with a document true or false by an answer of that body that blames
nobody. -/
theorem verdict_eq_ok_iff {r : Http.Request} {b : Bool} :
    verdict r d = .ok b ↔ (∃ url, r.url = .ok url) ∧ ∃ response, d = .answered response ∧
      ¬ (Http.isClientError response.status || Http.isServerError response.status) ∧
      response.json = .ok (.bool b) := by
  simp only [verdict, bind_eq_ok_iff, Http.Request.success_eq_ok_iff]
  constructor
  · rintro ⟨response, ⟨hurl, hd, hstatus⟩, document, hjson, h⟩
    refine ⟨hurl, response, hd, hstatus, ?_⟩
    cases document with
    | bool b' =>
      cases h
      exact hjson
    | _ => cases h
  · rintro ⟨hurl, response, hd, hstatus, hjson⟩
    exact ⟨response, ⟨hurl, hd, hstatus⟩, .bool b, hjson, rfl⟩

theorem yieldResult_eq_ok_iff :
    s.yieldResult key session d = .ok () ↔ s.yielded key session d = .ok true := by
  unfold yieldResult
  split <;> simp_all

/-- The index of a read is that of the answer, or else the one that was asked for. -/
theorem index_of_read {holding : Holding} (h : s.read key index d = .ok holding) :
    ∃ response, d = .answered response ∧
      holding.index = (response.number? indexHeader).getD index := by
  unfold read at h
  obtain ⟨response, hresponse, h⟩ := bind_eq_ok_iff.mp h
  refine ⟨response, (Http.Request.exchange_eq_ok_iff.mp hresponse).2, ?_⟩
  split at h
  · cases h
    rfl
  · obtain ⟨accepted, -, h⟩ := bind_eq_ok_iff.mp h
    obtain ⟨document, -, h⟩ := bind_eq_ok_iff.mp h
    split at h
    · split at h
      · cases h
        rfl
      · cases h
    · cases h

/-- A service at the host itself. -/
def loopback : Service := ⟨"http://[::1]", none, 3, .ofSeconds 1⟩

end Consul.Service

/-- An answer that blames nobody. -/
def Consul.okay (body : String) : Http.Response := ⟨200, none, [], Bytes.ofText body⟩

end ChangeFeed
