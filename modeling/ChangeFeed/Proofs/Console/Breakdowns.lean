import ChangeFeed.Console.Program
import ChangeFeed.Proofs.Engine.Pauses

/-!
# What breaks a run with valid settings

Validation looks at each setting by itself, and the calls that end a run at once are made elsewhere:
timers must not tick without a pause, durations must not grow too long, and a channel has only so
many places. What validation says of the settings keeps most of these calls from breaking.

* `Settings.Endures` says of each of the calls whether it holds. The timers and the doubled pauses
  hold in every run. A list query breaks the run if its wait and the slack are too long together,
  and the channel of the reports does if it is to have more places than can be counted.
* `endures_of_check`: this is how it is with every settings that validation accepts.
-/

namespace ChangeFeed

/-! ## The calls -/

namespace Duration

variable {a b d : Duration} {cause : Breakdown}

theorem checkPeriod_eq_ok_iff : d.checkPeriod = .ok () ↔ 0 < d.nanos := by
  unfold checkPeriod
  split
  · simp only [reduceCtorEq, false_iff]
    omega
  · simp only [true_iff]
    omega

theorem twice_eq_ok (h : 2 * d.nanos ≤ greatest) : d.twice = .ok ⟨2 * d.nanos⟩ := if_pos h

theorem plus_eq_error_iff :
    a.plus b = .error cause ↔ cause = .longSum ∧ greatest < a.nanos + b.nanos := by
  unfold plus
  split
  · simp only [reduceCtorEq, false_iff]
    omega
  · rename_i hlong
    simp only [Except.error.injEq, eq_comm (a := Breakdown.longSum)]
    exact ⟨fun h => ⟨h, by omega⟩, And.left⟩

end Duration

namespace Watch.Channel

/-- The room of a channel with at least one place. -/
theorem checkRoom_max_eq_error_iff {capacity : Nat} {cause : Breakdown} :
    checkRoom (max capacity 1) = .error (.broken cause) ↔
      cause = .tooManyPlaces ∧ greatestPlaces < capacity := by
  have hgreatest : greatestPlaces = 2305843009213693951 := by decide
  have hpos : max capacity 1 ≠ 0 := by omega
  unfold checkRoom
  rw [if_neg hpos]
  split
  · simp only [reduceCtorEq, false_iff]
    omega
  · simp only [Except.error.injEq, Error.broken.injEq, eq_comm (a := Breakdown.tooManyPlaces)]
    exact ⟨fun h => ⟨h, by omega⟩, And.left⟩

end Watch.Channel

/-! ## What validation says -/

namespace Settings

namespace Coordination

theorem checkPeriod_renewalPause {s : Coordination} (h : s.check = .ok ())
    (service : Consul.Service) (key name : String) :
    (Duration.mk (Consul.Tenure.start service key name s.sessionTtl).renewalPause).checkPeriod =
      .ok () := by
  obtain ⟨_, hrange, -⟩ := bind_eq_ok_iff.mp h
  have httl : 10 ≤ s.sessionTtlSecs := (of_decide_eq_true (require_eq_ok.mp hrange)).1
  rw [Duration.checkPeriod_eq_ok_iff]
  show 0 < s.sessionTtlSecs * 1000000000 / 2
  omega

/-- The double of a pause fits, since the greatest pause is a word of milliseconds. -/
theorem twice_pause {s : Coordination} (hword : s.restoreRetryMaxMs < UInt64.size) (n : Nat) :
    (Duration.ofMillis (s.pause n)).twice = .ok (.ofMillis (2 * s.pause n)) := by
  have hpause : s.pause n ≤ s.restoreRetryMaxMs := s.pause_le n
  have hsize : UInt64.size = 18446744073709551616 := rfl
  have hgreatest : Duration.greatest = 18446744073709551615999999999 := by decide
  have htwice : 2 * (s.pause n * 1000000) = 2 * s.pause n * 1000000 :=
    (Nat.mul_assoc 2 _ _).symm
  rw [Duration.twice_eq_ok (by show 2 * (s.pause n * 1000000) ≤ _; omega)]
  show Except.ok (Duration.mk (2 * (s.pause n * 1000000))) = .ok ⟨2 * s.pause n * 1000000⟩
  rw [htwice]

end Coordination

namespace Leadership

theorem checkPeriod_acquireInterval {s : Leadership} (h : s.check = .ok ()) :
    s.acquireInterval.checkPeriod = .ok () := by
  have hpos : s.acquireIntervalMs ≠ 0 := of_decide_eq_true (require_eq_ok.mp h)
  exact Duration.checkPeriod_eq_ok_iff.mpr (Nat.mul_pos (Nat.pos_of_ne_zero hpos) (by decide))

end Leadership

namespace Watching

theorem checkPeriod_reportInterval {s : Watching} (h : s.check = .ok ()) :
    s.reportInterval.checkPeriod = .ok () := by
  obtain ⟨_, -, h⟩ := bind_eq_ok_iff.mp h
  obtain ⟨_, hreport, -⟩ := bind_eq_ok_iff.mp h
  have hpos : s.reportIntervalMs ≠ 0 := of_decide_eq_true (require_eq_ok.mp hreport)
  exact Duration.checkPeriod_eq_ok_iff.mpr (Nat.mul_pos (Nat.pos_of_ne_zero hpos) (by decide))

end Watching

namespace Output

theorem queueCapacity_le {s : Output} (h : s.check = .ok ()) : s.queueCapacity ≤ 100000 := by
  unfold check at h
  cases hdestination : s.destination with
  | none => rw [hdestination] at h; cases h
  | some destination =>
    rw [hdestination] at h
    obtain ⟨_, hcapacity, -⟩ := bind_eq_ok_iff.mp h
    exact (of_decide_eq_true (require_eq_ok.mp hcapacity)).2

end Output

variable {s : Settings}

/-- The checks of the sections of valid settings. -/
theorem sections_of_check (h : s.check = .ok ()) :
    s.coordination.check = .ok () ∧ s.leadership.check = .ok () ∧ s.watching.check = .ok () ∧
      s.output.check = .ok () := by
  obtain ⟨_, -, h⟩ := bind_eq_ok_iff.mp h
  obtain ⟨_, hcoordination, h⟩ := bind_eq_ok_iff.mp h
  obtain ⟨_, hleadership, h⟩ := bind_eq_ok_iff.mp h
  obtain ⟨_, hwatching, h⟩ := bind_eq_ok_iff.mp h
  obtain ⟨_, houtput, -⟩ := bind_eq_ok_iff.mp h
  exact ⟨hcoordination, hleadership, hwatching, houtput⟩

end Settings

/-! ## Errors that break no run -/

/-- Whether a step does not break the run. -/
def IsUnbroken {α : Type} (result : Except Error α) : Prop :=
  ∀ cause, result ≠ .error (.broken cause)

namespace IsUnbroken

variable {α β : Type}

theorem ok (a : α) : IsUnbroken (.ok a) := fun _ h => nomatch h

theorem bind {x : Except Error α} {f : α → Except Error β} (hx : IsUnbroken x)
    (hf : ∀ a, IsUnbroken (f a)) : IsUnbroken (x >>= f) := by
  intro cause h
  rcases bind_eq_error_iff.mp h with h | ⟨a, -, h⟩
  · exact hx cause h
  · exact hf a cause h

end IsUnbroken

namespace Orchestrator.Service

theorem isUnbroken_create (s : Settings.Orchestrator) : IsUnbroken (create s) := by
  intro cause h
  unfold create at h
  split at h <;> cases h

theorem isUnbroken_answer (r : Http.Request) (d : Http.Delivery) : IsUnbroken (answer r d) := by
  intro cause h
  unfold answer at h
  split at h
  · cases h
  · split at h <;> cases h

/-- A list query breaks the run exactly if its wait and the slack are too long together. -/
theorem list_eq_broken_iff {service : Service} {resource : Resource} {cursor : Cursor}
    {d : Http.Delivery} {cause : Breakdown} :
    service.list resource cursor d = .error (.broken cause) ↔
      cause = .longSum ∧ Duration.greatest < cursor.waitTime.nanos + service.slack.nanos := by
  unfold list
  rw [bind_eq_error_iff]
  constructor
  · rintro (h | ⟨limit, -, h⟩)
    · cases hsum : cursor.waitTime.plus service.slack with
      | ok limit => rw [hsum] at h; cases h
      | error broken =>
        rw [hsum] at h
        cases h
        exact Duration.plus_eq_error_iff.mp hsum
    · refine absurd h (IsUnbroken.bind (isUnbroken_answer _ d) (fun response cause h => ?_) cause)
      split at h
      · cases h
      · split at h <;> cases h
  · intro h
    left
    rw [Duration.plus_eq_error_iff.mpr h]
    rfl

end Orchestrator.Service

namespace Consul

theorem Service.isUnbroken_create (s : Settings.Coordination) : IsUnbroken (Service.create s) := by
  intro cause h
  unfold Service.create at h
  split at h <;> cases h

/-- The first answer to an owner refuses the session or gives it one. -/
theorem Tenure.acquired?_start {s : Service} {key name : String} {ttl : Duration}
    {d : Http.Delivery} {result : Except Error Lock.Lease}
    (h : ((Tenure.start s key name ttl).step s (.answered d)).acquired? = some result) :
    IsUnbroken result := by
  intro cause hbroken
  subst hbroken
  simp only [Tenure.step, Tenure.answer, Tenure.start] at h
  split at h
  · simp [Tenure.contest, Contest.demand?, Tenure.acquired?] at h
  · simp [Tenure.acquired?] at h

end Consul

theorem Sink.isUnbroken_build {s : Settings.Output} (h : s.check = .ok ()) :
    IsUnbroken (Sink.build s) := by
  have hroom : Queue.checkRoom s.queueCapacity = .ok () := by
    have hle : s.queueCapacity ≤ 100000 := Settings.Output.queueCapacity_le h
    have hgreatest : greatestPlaces = 2305843009213693951 := by decide
    exact if_pos (by omega)
  intro cause hbroken
  unfold Sink.build at hbroken
  rw [hroom] at hbroken
  split at hbroken
  · cases hbroken
  · split at hbroken
    · split at hbroken <;> cases hbroken
    · split at hbroken <;> cases hbroken
    all_goals cases hbroken

namespace Console.Program

variable {s : Settings} {files : Settings.Files}

theorem check_of_settings {environment : List (String × String)} {config : Option String}
    (h : settings environment files config = .ok s) : s.check = .ok () := by
  obtain ⟨loaded, -, h⟩ := bind_eq_ok_iff.mp h
  have hlast : ∃ all : Settings,
      (all.check >>= fun _ => pure all : Except Error Settings) = .ok s := by
    cases config with
    | none => exact ⟨loaded, h⟩
    | some path =>
      obtain ⟨all, -, h⟩ := bind_eq_ok_iff.mp h
      exact ⟨all, h⟩
  obtain ⟨all, hall⟩ := hlast
  obtain ⟨⟨⟩, hcheck, hsame⟩ := bind_eq_ok_iff.mp hall
  obtain rfl := Except.ok.inj hsame
  exact hcheck

theorem isUnbroken_acquire (hcheck : s.check = .ok ()) (files : Settings.Files) (role : Role)
    (d : Http.Delivery) : IsUnbroken (acquire s files role d) := by
  have hsink : IsUnbroken (Sink.build s.output) :=
    Sink.isUnbroken_build (Settings.sections_of_check hcheck).2.2.2
  unfold acquire
  cases s.coordination.backend with
  | consul =>
    refine (Consul.Service.isUnbroken_create _).bind fun service => hsink.bind fun _ cause h => ?_
    simp only at h
    split at h
    · rename_i result hresult
      cases result with
      | ok lease => cases h
      | error e =>
        obtain rfl := Except.error.inj h
        exact Consul.Tenure.acquired?_start hresult cause rfl
    · cases h
  | embedded =>
    refine IsUnbroken.bind (fun cause h => ?_) fun _ => hsink.bind fun _ => .ok _
    unfold openStore at h
    simp only at h
    split at h <;> cases h

/-- A run with valid settings breaks on its way to the watcher exactly if it has the lock and is to
make a channel with more places than can be counted. -/
theorem start_eq_broken_iff {environment : List (String × String)} {line : Line}
    {d : Http.Delivery} {cause : Breakdown}
    (hs : settings environment files line.config = .ok s) :
    start environment files line d = .error (.broken cause) ↔
      cause = .tooManyPlaces ∧ greatestPlaces < s.watching.updateChannelCapacity ∧
        (∃ service, Orchestrator.Service.create s.orchestrator = .ok service) ∧
        ∃ lease, acquire s files line.role d = .ok (some lease) := by
  have hcheck : s.check = .ok () := check_of_settings hs
  have hpace : s.leadership.acquireInterval.checkPeriod = .ok () :=
    Settings.Leadership.checkPeriod_acquireInterval (Settings.sections_of_check hcheck).2.1
  constructor
  · intro h
    rcases bind_eq_error_iff.mp h with h | ⟨s', hs', h⟩
    · rw [hs] at h
      cases h
    obtain rfl := Except.ok.inj (hs'.symm.trans hs)
    rcases bind_eq_error_iff.mp h with h | ⟨service, hservice, h⟩
    · exact absurd h (Orchestrator.Service.isUnbroken_create _ cause)
    rcases bind_eq_error_iff.mp h with h | ⟨-, -, h⟩
    · rw [hpace] at h
      cases h
    rcases bind_eq_error_iff.mp h with h | ⟨lease?, hlease, h⟩
    · exact absurd h (isUnbroken_acquire hcheck files line.role d cause)
    cases lease? with
    | none => cases h
    | some lease =>
      have hopen : (Watch.Channel.checkRoom (max s'.watching.updateChannelCapacity 1) >>= fun _ =>
          pure (some lease)) = .error (.broken cause) := h
      rcases bind_eq_error_iff.mp hopen with hroom | ⟨-, -, h⟩
      · obtain ⟨hcause, hmany⟩ := Watch.Channel.checkRoom_max_eq_error_iff.mp hroom
        exact ⟨hcause, hmany, ⟨service, hservice⟩, lease, hlease⟩
      · cases h
  · rintro ⟨hcause, hmany, ⟨service, hservice⟩, lease, hlease⟩
    have hroom : Watch.Channel.checkRoom (max s.watching.updateChannelCapacity 1) =
        .error (.broken cause) := Watch.Channel.checkRoom_max_eq_error_iff.mpr ⟨hcause, hmany⟩
    refine bind_eq_error_iff.mpr (Or.inr ⟨s, hs, ?_⟩)
    refine bind_eq_error_iff.mpr (Or.inr ⟨service, hservice, ?_⟩)
    rw [hpace]
    refine bind_eq_error_iff.mpr (Or.inr ⟨(), rfl, ?_⟩)
    refine bind_eq_error_iff.mpr (Or.inr ⟨some lease, hlease, ?_⟩)
    exact bind_eq_error_iff.mpr (Or.inl hroom)

end Console.Program

/-! ## All calls -/

namespace Settings

/-- Which of the calls that can break a run hold with the given settings. -/
structure Endures (s : Settings) : Prop where
  /-- The timer of the attempts to get the lock. -/
  asks : s.leadership.acquireInterval.checkPeriod = .ok ()
  /-- The timer of the reports. -/
  reports : s.watching.reportInterval.checkPeriod = .ok ()
  /-- The timer of the renewals of a session. -/
  renews (service : Consul.Service) (key name : String) :
    (Duration.mk (Consul.Tenure.start service key name
      s.coordination.sessionTtl).renewalPause).checkPeriod = .ok ()
  /-- The pause after a failed read is doubled, in every run of managers. -/
  doubles {w₀ : Engine.World} (hnone : w₀.managers = #[]) (events : List Engine.Event) {i : Nat}
    {m : Engine.Manager} {held : Engine.Held} {delay due : Nat}
    (hm : (w₀.after events).managers[i]? = some m) (hsettings : m.settings = s)
    (hphase : m.phase = .backingOff held delay due) :
    (Duration.ofMillis delay).twice = .ok (.ofMillis (2 * delay))
  /-- A list query breaks the run exactly if its wait and the slack are too long together. -/
  lists {service : Orchestrator.Service}
    (hservice : Orchestrator.Service.create s.orchestrator = .ok service)
    (resource : Resource) {cursor : Cursor} (hcursor : cursor.waitTime = s.watching.waitTime)
    (d : Http.Delivery) (cause : Breakdown) :
    service.list resource cursor d = .error (.broken cause) ↔ cause = .longSum ∧
      Duration.greatest < s.watching.waitTime.nanos + s.orchestrator.blockingSlack.nanos
  /-- The way to the watcher breaks exactly if there is a lock and the channel of the reports is to
  have more places than can be counted. -/
  starts {environment : List (String × String)} {files : Files} {line : Console.Line}
    (hs : Console.Program.settings environment files line.config = .ok s) (d : Http.Delivery)
    (cause : Breakdown) :
    Console.Program.start environment files line d = .error (.broken cause) ↔
      cause = .tooManyPlaces ∧ greatestPlaces < s.watching.updateChannelCapacity ∧
        (∃ service, Orchestrator.Service.create s.orchestrator = .ok service) ∧
        ∃ lease, Console.Program.acquire s files line.role d = .ok (some lease)

/-- What a run endures with settings that validation accepts, whatever words they hold. -/
theorem endures_of_check {s : Settings} (hcheck : s.check = .ok ())
    (hword : s.coordination.restoreRetryMaxMs < UInt64.size) : s.Endures := by
  obtain ⟨hcoordination, hleadership, hwatching, -⟩ := sections_of_check hcheck
  exact {
    asks := Leadership.checkPeriod_acquireInterval hleadership
    reports := Watching.checkPeriod_reportInterval hwatching
    renews := fun service key name =>
      Coordination.checkPeriod_renewalPause hcoordination service key name
    doubles := by
      intro w₀ hnone events i m held delay due hm hsettings hphase
      subst hsettings
      obtain ⟨n, hn⟩ := Engine.World.pause_of_backingOff hnone events hm hcoordination hphase
      rw [hn]
      exact Coordination.twice_pause hword n
    lists := by
      intro service hservice resource cursor hcursor d cause
      have hslack : service.slack = s.orchestrator.blockingSlack := by
        unfold Orchestrator.Service.create at hservice
        split at hservice
        · cases hservice
          rfl
        · cases hservice
      rw [← hcursor, ← hslack]
      exact Orchestrator.Service.list_eq_broken_iff
    starts := fun hs d cause => Console.Program.start_eq_broken_iff hs }

/-- Settings for a single process without a sink, in which all else is as it stands. -/
def alone : Settings :=
  { standard with
    coordination := { Coordination.standard with backend := .embedded }
    output := { Output.standard with destination := some .nowhere } }

/-- Settings of a channel with one place too many. -/
def roomy : Settings :=
  { alone with watching := { Watching.standard with updateChannelCapacity := 2305843009213693952 } }

/-- Settings of a wait that leaves no room for the slack. -/
def patient : Settings :=
  { alone with watching := { Watching.standard with waitTimeSecs := 18446744073709551615 } }

/-- Variables that hold the settings of the channel. -/
def roomyEnvironment : List (String × String) := [
  ("FIREHOSE__COORDINATION__BACKEND", "local"),
  ("FIREHOSE__SINK__KIND", "noop"),
  ("FIREHOSE__WATCHER__UPDATE_CHANNEL_CAPACITY", "2305843009213693952")]

/-- A command line that leaves all to the variables. -/
def plainLine : Console.Line := ⟨.jobs, "info", .text, none⟩

/-- Both settings pass validation. With one, the run breaks as soon as it has the lock; with the
other, each list query breaks it. -/
theorem endures_of_check_of_roomy :
    (roomy.check = .ok () ∧ roomy.coordination.restoreRetryMaxMs < UInt64.size ∧
      ∀ d, Console.Program.start roomyEnvironment ⟨"/", [], []⟩ plainLine d =
        .error (.broken .tooManyPlaces)) ∧
    patient.check = .ok () ∧ patient.coordination.restoreRetryMaxMs < UInt64.size ∧
      ∃ service, Orchestrator.Service.create patient.orchestrator = .ok service ∧
        ∀ resource index d, service.list resource ⟨index, patient.watching.waitTime, true⟩ d =
          .error (.broken .longSum) := by
  have hroomy : roomy.check = .ok () := by decide +kernel
  have hpatient : patient.check = .ok () := by decide +kernel
  have hword : standard.coordination.restoreRetryMaxMs < UInt64.size := by decide
  have hsettings :
      Console.Program.settings roomyEnvironment ⟨"/", [], []⟩ plainLine.config = .ok roomy := by
    decide +kernel
  have hservice : Orchestrator.Service.create standard.orchestrator =
      .ok ⟨"http://127.0.0.1:4646", none, none, ⟨30000000000⟩, ⟨30000000000⟩⟩ := by
    decide +kernel
  have hstore :
      Console.Program.openStore ⟨"/", [], []⟩ roomy.coordination.embedded = .ok () := by
    decide +kernel
  have hlease (d : Http.Delivery) : ∃ lease,
      Console.Program.acquire roomy ⟨"/", [], []⟩ plainLine.role d = .ok (some lease) :=
    ⟨_, bind_eq_ok_iff.mpr ⟨(), hstore, rfl⟩⟩
  refine ⟨⟨hroomy, hword, fun d => ?_⟩, hpatient, hword, _, hservice, ?_⟩
  · exact ((endures_of_check hroomy hword).starts hsettings d .tooManyPlaces).mpr
      ⟨rfl, by decide +kernel, ⟨_, hservice⟩, hlease d⟩
  · intro resource index d
    exact ((endures_of_check hpatient hword).lists hservice resource rfl d .longSum).mpr
      ⟨rfl, by decide +kernel⟩

end Settings

end ChangeFeed
