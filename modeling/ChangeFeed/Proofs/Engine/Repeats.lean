import ChangeFeed.Proofs.Engine.Claims

/-!
# Task events that are published again

An allocation may change although none of its task events are new. The work on such a change claims
the same events once more, `Allocation.Claims.claim_again` says what it selects: nothing while the
allocation goes on, but all that is past the floor once it was forgotten as one that never changes
again.

* `published_again_iff`: the work publishes a single update without an event, and not the events
  again, if and only if the last record was not that of a terminal allocation with an event past the
  floor.
-/

namespace ChangeFeed.Engine

open Allocation (Claims eventTime isPast)

/-- The updates for some events are the single one without an event if there are no events. -/
theorem updatesFor_eq_single_iff {a : Allocation} {events : List ((String × Allocation.Task) × Json)} :
    a.updatesFor events = [⟨a, none⟩] ↔ events = [] := by
  cases events with
  | nil => simp [Allocation.updatesFor]
  | cons event rest => simp [Allocation.updatesFor]

namespace World

variable {w : World} {k : Nat} {x : Watcher}

/-- The claims of a watcher after a claim, and after others that say nothing of the allocation. -/
theorem claims_after_claim {floor : Option Int} (hx : w.watchers[k]? = some x)
    (hfloor : x.claims = ⟨floor, []⟩) {earlier : List Event} {e : Event} {j : Nat} {id : String}
    {record : Json} (hclaim : (w.after earlier).claimAt? k e = some (j, id, record))
    (middle : List Event) :
    ∃ (c : Claims) (x' : Watcher), c.floor = floor ∧ (w.after (earlier ++ e :: middle)).watchers[k]? = some x' ∧
      x'.claims = (c.claim id record).2.after
        (((w.after (earlier ++ [e])).claims k middle).map Prod.snd) := by
  obtain ⟨x', hx', -, hclaims, -⟩ := ledger_after hx (earlier ++ e :: middle)
  have hsplit : w.claims k (earlier ++ e :: middle) =
      w.claims k earlier ++ (j, id, record) :: (w.after (earlier ++ [e])).claims k middle := by
    rw [claims_append, claims, hclaim, after_append]
    rfl
  refine ⟨Claims.after ⟨floor, []⟩ ((w.claims k earlier).map Prod.snd), x', Claims.floor_after _ _,
    hx', ?_⟩
  rw [hclaims, hfloor, hsplit]
  simp [Claims.after]

/-- The work on an allocation whose task events were all in the record before publishes a single
update without an event; but if that record was the one of a terminal allocation, it publishes again
every event past the floor. -/
theorem published_again_iff {floor : Option Int} (hx : w.watchers[k]? = some x)
    (hfloor : x.claims = ⟨floor, []⟩) (hu : w.Unsettled k) {earlier middle : List Event}
    {e e' : Event} {j j' : Nat} {id : String} {record record' : Json} {a b : Allocation}
    (hclaim : (w.after earlier).claimAt? k e = some (j, id, record))
    (ha : Allocation.read record = .ok a)
    (hmiddle : (w.after (earlier ++ [e])).claimed k id middle = [])
    (hclaim' : (w.after (earlier ++ e :: middle)).claimAt? k e' = some (j', id, record'))
    (hb : Allocation.read record' = .ok b)
    (hsame : b.events.map Prod.snd ⊆ a.events.map Prod.snd) :
    ∃ updates,
      (∀ later, w.due j' ((earlier ++ e :: middle) ++ e' :: later) = [messagesOf id updates] ∧
        w.accepted j' ((earlier ++ e :: middle) ++ e' :: later) <+: messagesOf id updates) ∧
      updates = b.updatesFor
        (if a.isTerminal then b.events.filter fun event => isPast floor (eventTime event.2)
          else []) ∧
      (updates = [⟨b, none⟩] ↔
        ¬ (a.isTerminal ∧ ∃ event ∈ b.events, isPast floor (eventTime event.2))) := by
  obtain ⟨c, x', hc, hx', hclaims⟩ := claims_after_claim hx hfloor hclaim middle
  obtain ⟨d, hd, hupdates⟩ := Claims.claim_again (c := c) ha hb hsame hmiddle
  have hdue := dueAt?_of_claimAt? hx' hclaim' (hclaims ▸ hd)
  refine ⟨d.updates, fun later => hu.due_of_claim hclaim' hdue later, ?_, ?_⟩
  · rw [hupdates, hc]
  · rw [hupdates, hc, updatesFor_eq_single_iff]
    cases a.isTerminal with
    | true => simp [List.filter_eq_nil_iff]
    | false => simp

/-! ## A terminal allocation that changes once more -/

/-- The record of an allocation of a status with a task event at time 10. -/
def recordIn (status : String) : Json :=
  .object [("ClientStatus", .string status),
    ("TaskStates", .object [("main", .object [("Events", .array [taskEvent 10])])])]

def allocationIn (status : String) : Allocation :=
  { allocationWith [taskEvent 10] with clientStatus := status }

theorem read_recordIn (status : String) :
    Allocation.read (recordIn status) = .ok (allocationIn status) := rfl

/-- Two changes of a running allocation and two of a complete one, all with the same event. -/
def unchanged : World := { World.empty with
  outlets := #[recordingOutlet]
  watchers := #[.publisher .allocations 0 0]
  publications := #[
    ⟨0, ⟨"a", 1, .null⟩, .lookingUp 0 (.ok (recordIn "running"))⟩,
    ⟨0, ⟨"a", 2, .null⟩, .lookingUp 0 (.ok (recordIn "running"))⟩,
    ⟨0, ⟨"b", 3, .null⟩, .lookingUp 0 (.ok (recordIn "complete"))⟩,
    ⟨0, ⟨"b", 4, .null⟩, .lookingUp 0 (.ok (recordIn "complete"))⟩] }

/-- The event of the running allocation is published once, that of the complete one twice. -/
theorem published_again_iff_of_unchanged :
    let turn (j : Nat) : Event := .step 0 (.publication j)
    let event := (("main", taskWith [taskEvent 10]), taskEvent 10)
    unchanged.due 1 [turn 0, turn 1] = [messagesOf "a" [⟨allocationIn "running", none⟩]] ∧
      unchanged.due 3 [turn 2, turn 3] =
        [messagesOf "b" [⟨allocationIn "complete", some event⟩]] := by
  intro turn event
  have hx : unchanged.watchers[0]? = some (.publisher .allocations 0 0) := rfl
  have hu : unchanged.Unsettled 0 := unsettled_of_all rfl
  have hfirst : (unchanged.after []).claimAt? 0 (turn 0) = some (0, "a", recordIn "running") := rfl
  have hsecond : (unchanged.after ([] ++ turn 0 :: [])).claimAt? 0 (turn 1) =
      some (1, "a", recordIn "running") := rfl
  have hthird : (unchanged.after []).claimAt? 0 (turn 2) = some (2, "b", recordIn "complete") := rfl
  have hfourth : (unchanged.after ([] ++ turn 2 :: [])).claimAt? 0 (turn 3) =
      some (3, "b", recordIn "complete") := rfl
  obtain ⟨updates, hdue, rfl, -⟩ := published_again_iff hx rfl hu hfirst (read_recordIn "running")
    rfl hsecond (read_recordIn "running") (List.Subset.refl _)
  obtain ⟨updates, hdue', rfl, -⟩ := published_again_iff hx rfl hu hthird
    (read_recordIn "complete") rfl hfourth (read_recordIn "complete") (List.Subset.refl _)
  exact ⟨(hdue []).1, (hdue' []).1⟩

end World

end ChangeFeed.Engine
