import ChangeFeed.Proofs.Allocation.Times
import Mathlib.Order.Bounds.Defs

/-!
# How a record is split into updates

An allocation is what its record shows. It is split at a cutoff into one update for each task event
past the cutoff, in the order of the tasks and of their events, or into a single update without an
event.

* `Shows` says what each part of an allocation is read from; `shows_read`: so it is with every record
  that is read.
* `Publishes` says what the document of an update tells; `publishes_document`: so it is with every
  update.
* `SplitsInto` says what a split has, `splitsInto_split` that every split has it.
* `decompose_splits_exactly` is about records: each is malformed, or split like that.
-/

namespace ChangeFeed.Allocation

open Json.Typed

variable {a : Allocation} {record : Json} {cutoff : Option Int}

/-! ## What is read -/

/-- Whether a task is what its record shows. -/
structure Task.Shows (t : Task) (record : Json) : Prop where
  state : Shown Task.fields record "State" text "" t.state
  failed : Shown Task.fields record "Failed" flag false t.failed
  startedAt : Shown Task.fields record "StartedAt" (optional text) none t.startedAt
  finishedAt : Shown Task.fields record "FinishedAt" (optional text) none t.finishedAt
  events : Shown Task.fields record "Events" (optional items) none t.events

/-- Whether each part of an allocation is what its record shows. -/
structure Shows (a : Allocation) (record : Json) : Prop where
  id : Shown fields record "ID" text "" a.id
  name : Shown fields record "Name" text "" a.name
  nodeId : Shown fields record "NodeID" text "" a.nodeId
  evalId : Shown fields record "EvalID" text "" a.evalId
  jobId : Shown fields record "JobID" text "" a.jobId
  taskGroup : Shown fields record "TaskGroup" text "" a.taskGroup
  desiredStatus : Shown fields record "DesiredStatus" text "" a.desiredStatus
  desiredDescription : Shown fields record "DesiredDescription" text "" a.desiredDescription
  clientStatus : Shown fields record "ClientStatus" text "" a.clientStatus
  clientDescription : Shown fields record "ClientDescription" text "" a.clientDescription
  modifyTime : Shown fields record "ModifyTime" signed 0 a.modifyTime
  tasks : Shown fields record "TaskStates" (optional (entries Task.read)) none a.tasks

/-- Whether the tasks of an allocation are those of its record, in ascending order of their names. -/
structure ShowsTasks (a : Allocation) (record : Json) : Prop where
  tasks : ∀ tasks, a.tasks = some tasks → ∃ states,
    source? fields "TaskStates" record = some (.object states) ∧
      List.Forall₂ (fun state task => task.1 = state.1 ∧ task.2.Shows state.2) states tasks
  order : ∀ tasks, a.tasks = some tasks → (tasks.map Prod.fst).Pairwise (· < ·)

theorem Task.shows_read {t : Task} (hs : record.IsSorted) (h : Task.read record = .ok t) :
    t.Shows record := by
  have hnodup : (Task.fields.map RecordField.key).Nodup := by decide
  -- each part is set by its own field alone
  constructor <;> refine shows_record ⟨hnodup, ?_, ?_⟩ (by decide) hs h <;>
    simp only [Task.fields, List.forall_mem_cons] <;>
    refine ⟨?_, ?_, ?_, ?_, ?_, by simp⟩ <;>
    first
    | exact fun _ => gives_field fun _ _ => rfl
    | exact fun _ => leaves_field fun _ _ => rfl
    | exact fun hkey => absurd hkey (by decide)

theorem shows_read (hs : record.IsSorted) (h : read record = .ok a) : a.Shows record := by
  have hnodup : (fields.map RecordField.key).Nodup := by decide
  constructor <;> refine shows_record ⟨hnodup, ?_, ?_⟩ (by decide) hs h <;>
    simp only [fields, List.forall_mem_cons] <;>
    refine ⟨?_, ?_, ?_, ?_, ?_, ?_, ?_, ?_, ?_, ?_, ?_, ?_, by simp⟩ <;>
    first
    | exact fun _ => gives_field fun _ _ => rfl
    | exact fun _ => leaves_field fun _ _ => rfl
    | exact fun hkey => absurd hkey (by decide)

theorem Shows.showsTasks (h : a.Shows record) (hs : record.IsSorted) : a.ShowsTasks record := by
  have hread : ∀ tasks, a.tasks = some tasks → ∃ states,
      source? fields "TaskStates" record = some (.object states) ∧
        entries Task.read (.object states) = .ok tasks ∧ (Json.object states).IsSorted := by
    intro tasks htasks
    have hshown := h.tasks
    unfold Shown at hshown
    rw [htasks] at hshown
    cases hd : source? fields "TaskStates" record with
    | none =>
      rw [hd] at hshown
      cases hshown
    | some document =>
      rw [hd] at hshown
      have hsorted := source?_of_hereditary Json.hereditary_isSorted hs hd
      rcases optional_eq_ok_iff.mp hshown with ⟨-, hnone⟩ | ⟨-, found, hfound, heq⟩
      · cases hnone
      · cases heq
        cases document with
        | object states => exact ⟨states, rfl, hfound, hsorted⟩
        | _ => cases hfound
  constructor
  · intro tasks htasks
    obtain ⟨states, hd, hentries, hsorted⟩ := hread tasks htasks
    have hstates := (Json.isSorted_object.mp hsorted).2
    refine ⟨states, hd, ?_⟩
    refine ((List.forall₂_and_left states tasks).mpr ⟨hstates, entries_object hentries⟩).imp ?_
    exact fun state task ⟨hstate, hkey, htask⟩ => ⟨hkey, Task.shows_read hstate htask⟩
  · intro tasks htasks
    obtain ⟨states, -, hentries, hsorted⟩ := hread tasks htasks
    exact List.pairwise_map.mpr (yields_entries_sorted hsorted tasks hentries)

/-! ## What is published -/

/-- Whether a document tells of an allocation and of an event, with the task it happened to. -/
structure Publishes (document : Json) (a : Allocation) (e : (String × Task) × Json) : Prop where
  name : document.field? "Name" = some (.string a.name)
  nodeId : document.field? "NodeID" = some (.string a.nodeId)
  id : document.field? "AllocationID" = some (.string a.id)
  desiredStatus : document.field? "DesiredStatus" = some (.string a.desiredStatus)
  desiredDescription : document.field? "DesiredDescription" = some (.string a.desiredDescription)
  clientStatus : document.field? "ClientStatus" = some (.string a.clientStatus)
  clientDescription : document.field? "ClientDescription" = some (.string a.clientDescription)
  jobId : document.field? "JobID" = some (.string a.jobId)
  taskGroup : document.field? "GroupName" = some (.string a.taskGroup)
  evalId : document.field? "EvalID" = some (.string a.evalId)
  modifyTime : document.field? "ModifyTime" = some (.integer a.modifyTime)
  task : document.field? "TaskName" = some (.string e.1.1)
  state : document.field? "TaskState" = some (.string e.1.2.state)
  failed : document.field? "TaskFailed" = some (.bool e.1.2.failed)
  startedAt : document.field? "TaskStartedAt" = some (textOrNull e.1.2.startedAt)
  finishedAt : document.field? "TaskFinishedAt" = some (textOrNull e.1.2.finishedAt)
  event : document.field? "TaskEvent" = some e.2

/-- No event, and empty parts of a task. -/
def noEvent : (String × Task) × Json := (("", .blank), .null)

theorem publishes_document (u : Update) :
    Publishes u.document u.allocation (u.event.getD noEvent) := by
  obtain ⟨a, event⟩ := u
  cases event <;> constructor <;> rfl

/-! ## Times -/

/-- Whether a time is the one of an event: its `Time`, or 0 if that is no signed word of 64 bits. -/
def IsTimeOf (event : Json) (time : Int) : Prop :=
  IsTime time ∧ event.field? "Time" = some (.integer time) ∨
    time = 0 ∧ ∀ t, IsTime t → event.field? "Time" ≠ some (.integer t)

theorem signed_eq_ok_iff {document : Json} (h : document.InWords) {t : Int} :
    signed document = .ok t ↔ IsTime t ∧ document = .integer t := by
  constructor
  · intro hr
    refine ⟨yields_signed h t hr, ?_⟩
    unfold signed at hr
    split at hr
    · split at hr
      · cases hr
        simp [Json.integer]
      · cases hr
    · cases hr
      have hneg : t < 0 := (Json.inWords_number.mp h).2
      simp [Json.integer, hneg]
    · cases hr
  · rintro ⟨htime, rfl⟩
    have hlt := htime.2
    by_cases hneg : t < 0
    · simp [Json.integer, hneg, signed]
    · have hnat : t.toNat < Nat.pow 2 63 := by omega
      have hpos : max t 0 = t := by omega
      simp [Json.integer, hneg, signed, hnat, hpos]

theorem isTimeOf_eventTime {event : Json} (h : event.InWords) :
    IsTimeOf event (eventTime event) := by
  unfold IsTimeOf eventTime
  cases hd : event.field? "Time" with
  | none => exact Or.inr ⟨rfl, by simp⟩
  | some document =>
    have hsigned {t : Int} := signed_eq_ok_iff (t := t) (h.field? hd)
    simp only
    cases ht : signed document with
    | ok t =>
      obtain ⟨htime, hdocument⟩ := hsigned.mp ht
      exact Or.inl ⟨htime, congrArg some hdocument⟩
    | error e =>
      refine Or.inr ⟨rfl, fun t htime heq => ?_⟩
      rw [hsigned.mpr ⟨htime, Option.some.inj heq⟩] at ht
      cases ht

/-- The newest of some times is the greatest of them. -/
theorem foldl_later_eq_some_iff {cutoff : Option Int} {times : List Int} {t : Int} :
    times.foldl later cutoff = some t ↔ IsGreatest {s | cutoff = some s ∨ s ∈ times} t := by
  induction times generalizing cutoff with
  | nil =>
    simp only [List.foldl_nil, List.not_mem_nil, or_false]
    refine ⟨fun h => ⟨h, fun s hs => ?_⟩, fun h => h.1⟩
    exact Int.le_of_eq (Option.some.inj (hs.symm.trans h))
  | cons time rest ih =>
    rw [List.foldl_cons, ih]
    cases cutoff with
    | none =>
      have hset : {s | later none time = some s ∨ s ∈ rest} =
          {s | none = some s ∨ s ∈ time :: rest} := by
        ext s
        simp [later, eq_comm]
      rw [hset]
    | some c =>
      -- the later of two times stands for both of them
      simp only [later, Option.map_some, Option.getD_some, Option.some.injEq, List.mem_cons]
      constructor
      · rintro ⟨hmem, hle⟩
        have hmax : max c time ≤ t := hle (Or.inl rfl)
        refine ⟨?_, fun s hs => ?_⟩
        · rcases hmem with hmem | hmem
          · have : t = c ∨ t = time := by omega
            exact this.imp Eq.symm Or.inl
          · exact Or.inr (Or.inr hmem)
        · rcases hs with rfl | rfl | hs
          · omega
          · omega
          · exact hle (Or.inr hs)
      · rintro ⟨hmem, hle⟩
        have hc : c ≤ t := hle (Or.inl rfl)
        have htime : time ≤ t := hle (Or.inr (Or.inl rfl))
        refine ⟨?_, fun s hs => ?_⟩
        · rcases hmem with rfl | rfl | hmem
          · exact Or.inl (by omega)
          · exact Or.inl (by omega)
          · exact Or.inr hmem
        · rcases hs with rfl | hs
          · omega
          · exact hle (Or.inr (Or.inr hs))

theorem foldl_later_eq_none_iff {cutoff : Option Int} {times : List Int} :
    times.foldl later cutoff = none ↔ cutoff = none ∧ times = [] := by
  cases times with
  | nil => simp
  | cons time rest =>
    obtain ⟨newest, hnewest⟩ := exists_foldl_later ((cutoff.map (max · time)).getD time) rest
    have hsome : (time :: rest).foldl later cutoff = some newest := hnewest
    simp [hsome]

/-! ## Splits -/

/-- The events past a cutoff, task by task. -/
def pastEvents (a : Allocation) (cutoff : Option Int) : List ((String × Task) × Json) :=
  (a.tasks.getD []).flatMap fun task =>
    ((task.2.events.getD []).filter fun event => ∀ c ∈ cutoff, c < eventTime event).map
      fun event => (task, event)

/-- What the split of an allocation at a cutoff has. -/
structure SplitsInto (a : Allocation) (cutoff : Option Int) (d : Decomposition) : Prop where
  events : d.updates.filterMap Update.event = a.pastEvents cutoff
  /-- Every update has an event, if any event is past the cutoff. -/
  updates : a.pastEvents cutoff ≠ [] → ∀ u ∈ d.updates, u.event.isSome
  /-- Else there is one update, and it has no event. -/
  single : a.pastEvents cutoff = [] → d.updates = [⟨a, none⟩]
  documents : ∀ u ∈ d.updates, Publishes u.document a (u.event.getD noEvent)
  newest : ∀ t, d.newest = some t ↔ IsGreatest {s | cutoff = some s ∨ s ∈ a.times} t
  absent : d.newest = none ↔ cutoff = none ∧ a.times = []
  /-- At the newest time, none of the events is past the cutoff. -/
  again : ∀ record b, read record = .ok b → b.events.map Prod.snd ⊆ a.events.map Prod.snd →
    ∃ d', decompose record d.newest = .ok d' ∧ d'.updates = [⟨b, none⟩]

theorem events_filter_isPast (a : Allocation) (cutoff : Option Int) :
    a.events.filter (fun e => isPast cutoff (eventTime e.2)) = a.pastEvents cutoff := by
  have hpast (event : Json) : isPast cutoff (eventTime event) =
      decide (∀ c ∈ cutoff, c < eventTime event) := by
    cases cutoff <;> simp [isPast]
  simp only [events, pastEvents, List.filter_flatMap, List.filter_map, Function.comp_def, hpast]

theorem pastEvents_newest {b : Allocation}
    (h : b.events.map Prod.snd ⊆ a.events.map Prod.snd) (cutoff : Option Int) :
    b.pastEvents (a.times.foldl later cutoff) = [] := by
  rw [← events_filter_isPast]
  exact filter_isPast_newest h cutoff

theorem splitsInto_split (a : Allocation) (cutoff : Option Int) :
    a.SplitsInto cutoff (a.split cutoff) := by
  have hupdates (b : Allocation) (cutoff : Option Int) :
      (b.split cutoff).updates = b.updatesFor (b.pastEvents cutoff) := by
    rw [updates_split, events_filter_isPast]
  constructor
  case events =>
    rw [hupdates, updatesFor]
    cases hpast : a.pastEvents cutoff with
    | nil => rfl
    | cons e rest => simp [List.filterMap_map]
  case updates =>
    intro hpast u hu
    rw [hupdates, updatesFor, if_neg (by simpa using hpast)] at hu
    obtain ⟨e, -, rfl⟩ := List.mem_map.mp hu
    rfl
  case single =>
    intro hpast
    rw [hupdates, updatesFor, hpast]
    rfl
  case documents =>
    intro u hu
    have hallocation : u.allocation = a := by
      rw [hupdates, updatesFor] at hu
      split at hu
      · rw [List.mem_singleton.mp hu]
      · obtain ⟨e, -, rfl⟩ := List.mem_map.mp hu
        rfl
    exact hallocation ▸ publishes_document u
  case newest =>
    intro t
    rw [newest_split]
    exact foldl_later_eq_some_iff
  case absent =>
    rw [newest_split]
    exact foldl_later_eq_none_iff
  case again =>
    intro record b hb hsame
    refine ⟨b.split (a.split cutoff).newest, by simp [decompose, hb], ?_⟩
    rw [hupdates, newest_split, pastEvents_newest hsame]
    rfl

/-- The record of an allocation is malformed, or it is split exactly. -/
theorem decompose_splits_exactly (h : record.IsValue) (cutoff : Option Int) :
    match read record with
    | .error reason =>
      decompose record cutoff = .error (.malformed Resource.allocations.listPath reason)
    | .ok a => a.Shows record ∧ a.ShowsTasks record ∧
      (∀ e ∈ a.events, IsTimeOf e.2 (eventTime e.2)) ∧
      ∃ d, decompose record cutoff = .ok d ∧ a.SplitsInto cutoff d := by
  cases hr : read record with
  | error reason => simp [decompose, hr]
  | ok a =>
    have hshows := shows_read h.sorted hr
    have hwords : a.InWords := yields_read record h.words a hr
    refine ⟨hshows, hshows.showsTasks h.sorted, fun e he => isTimeOf_eventTime (hwords.event he),
      a.split cutoff, by simp [decompose, hr], splitsInto_split a cutoff⟩

/-- A record with two tasks; the first event has no time. -/
def twoTasks : Json := .object [
  ("ID", .string "a"),
  ("TaskStates", .object [
    ("cache", .object [("Events", .array [.object [], .object [("Time", .integer (-3))]])]),
    ("web", .object [("Events", .array [.object [("Time", .integer 7)]]), ("State", .string "dead")])])]

theorem isValue_twoTasks : twoTasks.IsValue where
  words := by simp [twoTasks, Json.InWords, Json.numbers, Json.numbers.fields, Json.numbers.items,
    Json.integer, Json.Number.IsWord, UInt64.size]
  sorted := by decide

/-- At the cutoff -3, the events of the times 0 and 7 are published. -/
theorem decompose_splits_exactly_of_two_tasks :
    twoTasks.IsValue ∧ ∃ a d, read twoTasks = .ok a ∧ decompose twoTasks (some (-3)) = .ok d ∧
      a.SplitsInto (some (-3)) d ∧ d.newest = some 7 ∧
      (a.pastEvents (some (-3))).map (fun e => (e.1.1, eventTime e.2)) =
        [("cache", 0), ("web", 7)] := by
  refine ⟨isValue_twoTasks, ?_⟩
  obtain ⟨-, -, -, d, hd, hsplits⟩ := decompose_splits_exactly isValue_twoTasks (some (-3))
  exact ⟨_, d, rfl, hd, hsplits, by cases hd; rfl, rfl⟩

end ChangeFeed.Allocation
