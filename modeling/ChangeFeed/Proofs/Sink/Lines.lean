import ChangeFeed.Proofs.Json.Characters
import ChangeFeed.Proofs.Sink.Devices
import Mathlib.Data.List.Basic

/-!
# Lines do not interleave

While one call has the lock, only its bytes are written, so a device gets whole lines in the order in
which the calls got the lock, in whatever way their steps are interleaved.

* `Framed` is what all events keep over a willing device: what was written, with what the call that
  has the lock still has to write, is the lines so far. `Framed.next` is one event, `Framed.after`
  any number.
* `writes_line_of_lock` is about all devices: undisturbed, a call does what `Device.writeLine` does.
* `lines_framed` collects what holds after any events over a willing device.
-/

namespace ChangeFeed.Sink

/-! ## Calls -/

/-- Whether a call waits, has a part of its line left, or has written it. -/
def LineCall.IsSound (call : LineCall) : Prop :=
  call.stage = .waiting ∨
    call.stage.IsActive ∧ call.stage.rest <:+ call.payload ++ [0x0a] ∨
    call.stage = .ended (.ok ())

theorem LineCall.IsSound.suffix {call : LineCall} (h : call.IsSound)
    (hactive : call.stage.IsActive) : call.stage.rest <:+ call.payload ++ [0x0a] := by
  rcases h with hwaiting | ⟨-, hsuffix⟩ | hended
  · exact absurd hwaiting (LineStage.ne_waiting_of_isActive hactive)
  · exact hsuffix
  · rw [hended] at hactive
    exact absurd hactive id

theorem LineCall.IsSound.eq_ok {call : LineCall} (h : call.IsSound) {result : Except LineFault Unit}
    (hended : call.stage = .ended result) : result = .ok () := by
  rcases h with hwaiting | ⟨hactive, -⟩ | hok
  · rw [hended] at hwaiting
    cases hwaiting
  · rw [hended] at hactive
    exact absurd hactive id
  · rw [hended] at hok
    cases hok
    rfl

namespace LineWriter

variable {w w' : LineWriter} {before : Bytes} {i : Nat}

def payloadAt (w : LineWriter) (i : Nat) : Bytes := (w.calls[i]?.map LineCall.payload).getD []

/-- The line of a call. -/
def line (w : LineWriter) (i : Nat) : Bytes := w.payloadAt i ++ [0x0a]

/-- What is still to be written before another call gets the lock. -/
def rest (w : LineWriter) : Bytes :=
  ((w.holder.bind (w.calls[·]?)).map fun call => call.stage.rest).getD []

theorem rest_of_none (h : w.holder = none) : w.rest = [] := by
  simp [rest, h]

theorem rest_of_some {call : LineCall} (h : w.holder = some i) (hcall : w.calls[i]? = some call) :
    w.rest = call.stage.rest := by
  simp [rest, h, hcall]

/-- What all events over a willing device keep, if something was written before. -/
structure Framed (before : Bytes) (w : LineWriter) : Prop where
  willing : w.device.IsWilling
  nodup : w.order.Nodup
  /-- The calls that got the lock are those that do not wait for it. -/
  mem : ∀ i, i ∈ w.order ↔ ∃ call, w.calls[i]? = some call ∧ call.stage ≠ .waiting
  calls : ∀ (i : Nat) (call : LineCall), w.calls[i]? = some call → call.IsSound
  active : ∀ (i : Nat) (call : LineCall), w.calls[i]? = some call →
    (call.stage.IsActive ↔ w.holder = some i)
  last : ∀ i, w.holder = some i → ∃ earlier, w.order = earlier ++ [i]
  written : w.device.written ++ w.rest = before ++ w.order.flatMap w.line

theorem framed_fresh {d : Device} (h : d.IsWilling) : (fresh d).Framed d.written where
  willing := h
  nodup := List.nodup_nil
  mem := by simp [fresh]
  calls := by simp [fresh]
  active := by simp [fresh]
  last := by simp [fresh]
  written := by simp [fresh, rest]

/-- The call that has the lock. -/
theorem Framed.exists_call (h : w.Framed before) (hi : w.holder = some i) :
    ∃ call, w.calls[i]? = some call ∧ call.stage.IsActive := by
  obtain ⟨earlier, horder⟩ := h.last i hi
  obtain ⟨call, hcall, -⟩ := (h.mem i).mp (by simp [horder])
  exact ⟨call, hcall, (h.active i call hcall).mpr hi⟩

/-! ### One call -/

/-- A call that has changed or is new, while the others stay as they are. -/
def Puts (w w' : LineWriter) (i : Nat) (call : LineCall) : Prop :=
  ∀ j, w'.calls[j]? = if j = i then some call else w.calls[j]?

theorem puts_append {call : LineCall} (hcalls : w'.calls = w.calls ++ [call]) :
    w.Puts w' w.calls.length call := by
  intro j
  rw [hcalls, List.getElem?_append]
  split
  · rename_i hlt
    rw [if_neg (Nat.ne_of_lt hlt)]
  · rename_i hle
    split
    · rename_i heq
      simp [heq]
    · rename_i hne
      rw [List.getElem?_eq_none (by simp; omega), List.getElem?_eq_none (by omega)]

theorem puts_set {call old : LineCall} (hold : w.calls[i]? = some old)
    (hcalls : w'.calls = w.calls.set i call) : w.Puts w' i call := by
  intro j
  obtain ⟨hlt, -⟩ := List.getElem?_eq_some_iff.mp hold
  rw [hcalls, List.getElem?_set]
  by_cases hj : i = j
  · subst hj
    simp [hlt]
  · rw [if_neg hj, if_neg (Ne.symm hj)]

/-- The lines of calls stay, if no call changes its payload. -/
theorem Puts.lines_eq {call : LineCall} (hputs : w.Puts w' i call)
    (hpayload : ∀ old, w.calls[i]? = some old → old.payload = call.payload) (h : w.Framed before) :
    w.order.flatMap w'.line = w.order.flatMap w.line := by
  refine List.flatMap_congr fun j hj => ?_
  obtain ⟨old, hold, -⟩ := (h.mem j).mp hj
  unfold line payloadAt
  rw [hputs j, hold]
  split
  · rename_i heq
    subst heq
    simp [hpayload old hold]
  · rfl

theorem Framed.puts {call : LineCall} (h : w.Framed before) (hputs : w.Puts w' i call)
    (hwilling : w'.device.IsWilling) (hnodup : w'.order.Nodup)
    (hmem : i ∈ w'.order ↔ call.stage ≠ .waiting)
    (hothers : ∀ j, j ≠ i → (j ∈ w'.order ↔ j ∈ w.order))
    (hcall : call.IsSound)
    (hactive : call.stage.IsActive ↔ w'.holder = some i)
    (hholder : ∀ j, j ≠ i → (w'.holder = some j ↔ w.holder = some j))
    (hlast : ∀ j, w'.holder = some j → ∃ earlier, w'.order = earlier ++ [j])
    (hwritten : w'.device.written ++ w'.rest = before ++ w'.order.flatMap w'.line) :
    w'.Framed before where
  willing := hwilling
  nodup := hnodup
  mem := by
    intro j
    rw [hputs j]
    split
    · rename_i heq
      subst heq
      simpa using hmem
    · rename_i hne
      rw [hothers j hne, h.mem]
  calls := by
    intro j found hj
    rw [hputs j] at hj
    split at hj
    · cases hj
      exact hcall
    · exact h.calls j found hj
  active := by
    intro j found hj
    rw [hputs j] at hj
    split at hj
    · rename_i heq
      cases hj
      subst heq
      exact hactive
    · rename_i hne
      rw [h.active j found hj, hholder j hne]
  last := hlast
  written := hwritten

/-! ## Events -/

theorem Framed.call (h : w.Framed before) (payload : Bytes) :
    (w.next (.call payload)).Framed before := by
  have hputs : w.Puts (w.next (.call payload)) w.calls.length ⟨payload, .waiting⟩ :=
    puts_append rfl
  have hnone : w.calls[w.calls.length]? = none := by simp
  have hnot : w.calls.length ∉ w.order := by simp [h.mem]
  have hholder : w.holder ≠ some w.calls.length := by
    intro hi
    obtain ⟨call, hcall, -⟩ := h.exists_call hi
    rw [hnone] at hcall
    cases hcall
  have hrest : (w.next (.call payload)).rest = w.rest := by
    cases hi : w.holder with
    | none => exact (rest_of_none (w := w.next (.call payload)) hi).trans (rest_of_none hi).symm
    | some i =>
      obtain ⟨call, hcall, -⟩ := h.exists_call hi
      have hne : i ≠ w.calls.length := by
        rintro rfl
        exact hholder hi
      have hsame : (w.next (.call payload)).calls[i]? = some call := by
        rw [hputs i, if_neg hne, hcall]
      exact (rest_of_some (w := w.next (.call payload)) hi hsame).trans (rest_of_some hi hcall).symm
  refine h.puts hputs h.willing h.nodup (iff_of_false hnot (by simp)) (fun _ _ => Iff.rfl)
    (Or.inl rfl) (iff_of_false id hholder) (fun _ _ => Iff.rfl) h.last ?_
  show w.device.written ++ _ = before ++ w.order.flatMap _
  rw [hputs.lines_eq (by simp) h, hrest]
  exact h.written

theorem next_lock (w : LineWriter) (i : Nat) : w.next (.lock i) = w ∨
    ∃ payload, w.holder = none ∧ w.calls[i]? = some ⟨payload, .waiting⟩ ∧
      w.next (.lock i) = { w with
        calls := w.calls.set i ⟨payload, .ofPayload payload⟩
        holder := some i
        order := w.order ++ [i] } := by
  cases hholder : w.holder with
  | some holder => exact Or.inl (by simp [next, step?, hholder])
  | none =>
    cases hcall : w.calls[i]? with
    | none => exact Or.inl (by simp [next, step?, hholder, hcall])
    | some call =>
      obtain ⟨payload, stage⟩ := call
      cases stage with
      | waiting => exact Or.inr ⟨payload, rfl, rfl, by simp [next, step?, hholder, hcall]⟩
      | _ => exact Or.inl (by simp [next, step?, hholder, hcall])

theorem Framed.lock (h : w.Framed before) (i : Nat) : (w.next (.lock i)).Framed before := by
  obtain hsame | ⟨payload, hfree, hcall, hnext⟩ := w.next_lock i
  · rw [hsame]
    exact h
  · have hputs : w.Puts (w.next (.lock i)) i ⟨payload, .ofPayload payload⟩ :=
      puts_set hcall (by rw [hnext])
    have hlines := hputs.lines_eq (by simp [hcall]) h
    have hself : (w.next (.lock i)).calls[i]? = some ⟨payload, .ofPayload payload⟩ := by
      rw [hputs i, if_pos rfl]
    have hline : (w.next (.lock i)).line i = payload ++ [0x0a] := by simp [line, payloadAt, hself]
    have hactive := LineStage.isActive_ofPayload payload
    have hnot : i ∉ w.order := by
      rw [h.mem]
      rintro ⟨call, hsame, hstage⟩
      rw [hcall] at hsame
      cases hsame
      exact hstage rfl
    have hwritten := h.written
    rw [rest_of_none hfree, List.append_nil] at hwritten
    have hrest := rest_of_some (w := w.next (.lock i)) (i := i) (by rw [hnext]) hself
    have hdevice : (w.next (.lock i)).device = w.device := by rw [hnext]
    have horder : (w.next (.lock i)).order = w.order ++ [i] := by rw [hnext]
    have hholder : (w.next (.lock i)).holder = some i := by rw [hnext]
    have hsuffix : (LineStage.ofPayload payload).rest <:+ payload ++ [0x0a] :=
      ⟨[], LineStage.rest_ofPayload payload⟩
    refine h.puts hputs (hdevice ▸ h.willing) ?_ ?_ ?_ (Or.inr (Or.inl ⟨hactive, hsuffix⟩))
      (iff_of_true hactive hholder) ?_ ?_ ?_
    · rw [horder]
      exact List.nodup_append.mpr ⟨h.nodup, by simp, by
        simpa using fun j hj (heq : j = i) => hnot (heq ▸ hj)⟩
    · rw [horder]
      exact iff_of_true (by simp) (LineStage.ne_waiting_of_isActive hactive)
    · intro j hne
      simp [horder, hne]
    · intro j hne
      simp [hholder, hfree, Ne.symm hne]
    · intro j hj
      rw [hholder] at hj
      cases hj
      exact ⟨w.order, horder⟩
    · rw [hrest, LineStage.rest_ofPayload, hdevice, horder, List.flatMap_append, hlines,
        List.flatMap_singleton, hline, hwritten, List.append_assoc]

theorem Framed.proceed (h : w.Framed before) : (w.next .proceed).Framed before := by
  cases hi : w.holder with
  | none => simpa [next, step?, hi] using h
  | some i =>
    obtain ⟨call, hcall, hactive⟩ := h.exists_call hi
    obtain ⟨stage, device, hadvance, hwilling, hsuffix, hwritten, hstage⟩ :=
      LineStage.advance?_of_isActive h.willing hactive
    have hnext : w.next .proceed = { w with
        device
        calls := w.calls.set i { call with stage }
        holder := if stage.isEnded then none else some i } := by
      simp [next, step?, hi, hcall, hadvance]
    have hputs : w.Puts (w.next .proceed) i { call with stage } := puts_set hcall (by rw [hnext])
    have hlines := hputs.lines_eq (by simp [hcall]) h
    have hself : (w.next .proceed).calls[i]? = some { call with stage } := by
      rw [hputs i, if_pos rfl]
    have hdevice : (w.next .proceed).device = device := by rw [hnext]
    have horder : (w.next .proceed).order = w.order := by rw [hnext]
    have hholder : (w.next .proceed).holder = if stage.isEnded then none else some i := by
      rw [hnext]
    have hlocked : i ∈ w.order := by
      obtain ⟨earlier, horder⟩ := h.last i hi
      simp [horder]
    -- the call goes on writing, or it has ended and nothing is left
    obtain ⟨hkept, hwaiting, hrest⟩ : (stage.IsActive ↔ stage.isEnded = false) ∧
        stage ≠ .waiting ∧ (w.next .proceed).rest = stage.rest := by
      rcases hstage with hstage | rfl
      · have hended := LineStage.isEnded_of_isActive hstage
        refine ⟨iff_of_true hstage hended, LineStage.ne_waiting_of_isActive hstage, ?_⟩
        exact rest_of_some (by rw [hholder, hended]; rfl) hself
      · exact ⟨iff_of_false id (by simp [LineStage.isEnded]), nofun, rest_of_none hholder⟩
    have hleft : stage.rest <:+ call.payload ++ [0x0a] :=
      hsuffix.trans ((h.calls i call hcall).suffix hactive)
    have hsound : LineCall.IsSound { call with stage } :=
      Or.inr (hstage.imp_left fun hactive => ⟨hactive, hleft⟩)
    refine h.puts hputs (hdevice ▸ hwilling) (horder ▸ h.nodup) ?_ ?_ hsound ?_ ?_ ?_ ?_
    · rw [horder]
      exact iff_of_true hlocked hwaiting
    · intro j _
      rw [horder]
    · rw [hholder, hkept]
      cases stage.isEnded <;> simp
    · intro j hne
      rw [hholder, hi]
      cases stage.isEnded <;> simp [Ne.symm hne]
    · intro j hj
      rw [hholder] at hj
      cases hended : stage.isEnded with
      | true => simp [hended] at hj
      | false =>
        rw [hended] at hj
        cases hj
        rw [horder]
        exact h.last i hi
    · rw [hrest, hdevice, horder, hlines, hwritten, ← rest_of_some hi hcall]
      exact h.written

theorem Framed.piece (h : w.Framed before) {limit : Option Nat} (hlimit : limit ≠ some 0) :
    (w.next (.piece limit)).Framed before :=
  { h with willing := ⟨h.willing.room, h.willing.flushes, hlimit⟩ }

/-- Whether an event leaves a willing device willing. -/
def IsKind : LineEvent → Prop
  | .piece limit => limit ≠ some 0
  | _ => True

theorem Framed.next (h : w.Framed before) {event : LineEvent} (he : IsKind event) :
    (w.next event).Framed before := by
  cases event with
  | call payload => exact h.call payload
  | lock i => exact h.lock i
  | proceed => exact h.proceed
  | piece limit => exact h.piece he

theorem Framed.after (h : w.Framed before) {events : List LineEvent}
    (he : ∀ event ∈ events, IsKind event) : (w.after events).Framed before := by
  induction events generalizing w with
  | nil => exact h
  | cons event rest ih =>
    obtain ⟨hevent, hrest⟩ := List.forall_mem_cons.mp he
    exact ih (h.next hevent) hrest

/-! ## Calls end -/

/-- An undisturbed call does what a line alone does, and then gives the lock back. -/
theorem ends_of_holder {call : LineCall} (hi : w.holder = some i)
    (hcall : w.calls[i]? = some call) (hactive : call.stage.IsActive) : ∃ n,
    (w.after (List.replicate n .proceed)).holder = none ∧
      (w.after (List.replicate n .proceed)).device = (call.stage.outcome w.device).2 ∧
      (w.after (List.replicate n .proceed)).calls[i]? =
        some { call with stage := .ended (call.stage.outcome w.device).1 } := by
  induction hsteps : call.stage.steps using Nat.strongRecOn generalizing w call with
  | _ steps ih =>
    obtain ⟨stage, device, hadvance, houtcome, hstage⟩ :=
      LineStage.exists_advance? w.device hactive
    have hnext : w.next .proceed = { w with
        device
        calls := w.calls.set i { call with stage }
        holder := if stage.isEnded then none else some i } := by
      simp [next, step?, hi, hcall, hadvance]
    have hself : (w.next .proceed).calls[i]? = some { call with stage } := by
      have hputs : w.Puts (w.next .proceed) i { call with stage } :=
        puts_set hcall (by rw [hnext])
      rw [hputs i, if_pos rfl]
    rcases hstage with hstage | ⟨result, rfl⟩
    · have hholder : (w.next .proceed).holder = some i := by
        rw [hnext, LineStage.isEnded_of_isActive hstage]
        rfl
      have hlt : stage.steps < steps := hsteps ▸ LineStage.steps_advance? hadvance
      obtain ⟨n, hfree, hdevice, hended⟩ := ih stage.steps hlt hholder hself hstage rfl
      have hsame : (w.next .proceed).device = device := by rw [hnext]
      rw [hsame, houtcome] at hdevice
      rw [hsame, houtcome] at hended
      exact ⟨n + 1, hfree, hdevice, hended⟩
    · refine ⟨1, ?_, ?_, ?_⟩
      · show (w.next .proceed).holder = none
        rw [hnext]
        rfl
      · show (w.next .proceed).device = _
        rw [hnext, ← houtcome]
        rfl
      · show (w.next .proceed).calls[i]? = _
        rw [hself, ← houtcome]
        rfl

/-- A call that gets the lock and is not disturbed writes its line alone, over any device. -/
theorem writes_line_of_lock {payload : Bytes} (hfree : w.holder = none)
    (hcall : w.calls[i]? = some ⟨payload, .waiting⟩) : ∃ n,
    (w.after (.lock i :: List.replicate n .proceed)).holder = none ∧
      (w.after (.lock i :: List.replicate n .proceed)).device = (w.device.writeLine payload).2 ∧
      (w.after (.lock i :: List.replicate n .proceed)).calls[i]? =
        some ⟨payload, .ended (w.device.writeLine payload).1⟩ := by
  have hnext : w.next (.lock i) = { w with
      calls := w.calls.set i ⟨payload, .ofPayload payload⟩
      holder := some i
      order := w.order ++ [i] } := by simp [next, step?, hfree, hcall]
  have hputs : w.Puts (w.next (.lock i)) i ⟨payload, .ofPayload payload⟩ :=
    puts_set hcall (by rw [hnext])
  obtain ⟨n, hends⟩ := ends_of_holder (w := w.next (.lock i)) (by rw [hnext])
    ((hputs i).trans (if_pos rfl)) (LineStage.isActive_ofPayload payload)
  have hdevice : (w.next (.lock i)).device = w.device := by rw [hnext]
  rw [hdevice, LineStage.outcome_ofPayload] at hends
  exact ⟨n, hends⟩

/-! ## Lines -/

/-- What a device got that calls wrote lines to. -/
structure WritesLines (before : Bytes) (w : LineWriter) : Prop where
  nodup : w.order.Nodup
  locked : ∀ i, i ∈ w.order ↔ ∃ call, w.calls[i]? = some call ∧ call.stage ≠ .waiting
  ended : ∀ call ∈ w.calls, ∀ result, call.stage = .ended result → result = .ok ()
  /-- Between two calls, whole lines are written, one for each call that got the lock. -/
  whole : w.holder = none → w.device.written = before ++ w.order.flatMap w.line
  /-- While a call writes, a part of its line follows. -/
  part : ∀ i, w.holder = some i → ∃ earlier part, w.order = earlier ++ [i] ∧
    part <+: w.line i ∧ w.device.written = before ++ earlier.flatMap w.line ++ part
  /-- Once all calls have ended, there is a line of each. -/
  all : (∀ call ∈ w.calls, call.stage.isEnded) →
    w.holder = none ∧ w.order.Perm (List.range w.calls.length)
  /-- The lines are told apart by their ends. -/
  split : w.holder = none → before = [] → (∀ call ∈ w.calls, 0x0a ∉ call.payload) →
    w.device.written.splitOn 0x0a = w.order.map w.payloadAt ++ [[]]
  /-- The call that has the lock can always go on to its end, and then a call that waits for the
  lock can get it. -/
  frees : ∃ n, (w.after (List.replicate n .proceed)).holder = none
  locks : w.holder = none → ∀ (i : Nat) (call : LineCall), w.calls[i]? = some call →
    call.stage = .waiting → (w.next (.lock i)).holder = some i

theorem splitOn_flatMap {payloads : List Bytes} (h : ∀ p ∈ payloads, 0x0a ∉ p) :
    (payloads.flatMap (· ++ [0x0a])).splitOn 0x0a = payloads ++ [[]] := by
  induction payloads with
  | nil => rfl
  | cons p rest ih =>
    obtain ⟨hp, hrest⟩ := List.forall_mem_cons.mp h
    have hnone : ∀ b ∈ p, (b == 0x0a) = false := by
      intro b hb
      rw [beq_eq_false_iff_ne]
      rintro rfl
      exact hp hb
    rw [List.flatMap_cons, List.append_assoc, List.singleton_append, List.cons_append, ← ih hrest]
    exact List.splitOnP_append_cons_of_forall_mem hnone 0x0a rfl _

theorem Framed.writesLines (h : w.Framed before) : w.WritesLines before := by
  have hwhole : w.holder = none → w.device.written = before ++ w.order.flatMap w.line := by
    intro hfree
    have hwritten := h.written
    rw [rest_of_none hfree, List.append_nil] at hwritten
    exact hwritten
  constructor
  case nodup => exact h.nodup
  case locked => exact h.mem
  case whole => exact hwhole
  case ended =>
    intro call hmem result hended
    obtain ⟨i, hcall⟩ := List.mem_iff_getElem?.mp hmem
    exact (h.calls i call hcall).eq_ok hended
  case part =>
    intro i hi
    obtain ⟨earlier, horder⟩ := h.last i hi
    obtain ⟨call, hcall, hactive⟩ := h.exists_call hi
    have hline : w.line i = call.payload ++ [0x0a] := by simp [line, payloadAt, hcall]
    obtain ⟨part, hpart⟩ := (h.calls i call hcall).suffix hactive
    refine ⟨earlier, part, horder, ⟨call.stage.rest, by rw [hline, hpart]⟩, ?_⟩
    have hwritten := h.written
    rw [rest_of_some hi hcall, horder, List.flatMap_append, List.flatMap_singleton, hline, ← hpart,
      ← List.append_assoc, ← List.append_assoc] at hwritten
    exact List.append_cancel_right hwritten
  case all =>
    intro hall
    have hmem (i : Nat) : i ∈ w.order ↔ i < w.calls.length := by
      rw [h.mem]
      constructor
      · rintro ⟨call, hcall, -⟩
        exact (List.getElem?_eq_some_iff.mp hcall).1
      · intro hlt
        refine ⟨w.calls[i], List.getElem?_eq_getElem hlt, fun hwaiting => ?_⟩
        have hended := hall _ (List.getElem_mem hlt)
        rw [hwaiting] at hended
        cases hended
    refine ⟨?_, (List.perm_ext_iff_of_nodup h.nodup List.nodup_range).mpr (by simp [hmem])⟩
    cases hi : w.holder with
    | none => rfl
    | some i =>
      obtain ⟨call, hcall, hactive⟩ := h.exists_call hi
      have hended := hall call (List.mem_of_getElem? hcall)
      rw [LineStage.isEnded_of_isActive hactive] at hended
      cases hended
  case split =>
    intro hfree hbefore hpayloads
    have hlines : w.order.flatMap w.line = (w.order.map w.payloadAt).flatMap (· ++ [0x0a]) := by
      rw [List.flatMap_map]
      rfl
    rw [hwhole hfree, hbefore, List.nil_append, hlines]
    refine splitOn_flatMap fun p hp => ?_
    obtain ⟨i, hi, rfl⟩ := List.mem_map.mp hp
    obtain ⟨call, hcall, -⟩ := (h.mem i).mp hi
    simp only [payloadAt, hcall, Option.map_some, Option.getD_some]
    exact hpayloads call (List.mem_of_getElem? hcall)
  case frees =>
    cases hi : w.holder with
    | none => exact ⟨0, hi⟩
    | some i =>
      obtain ⟨call, hcall, hactive⟩ := h.exists_call hi
      obtain ⟨n, hfree, -⟩ := ends_of_holder hi hcall hactive
      exact ⟨n, hfree⟩
  case locks =>
    intro hfree i call hcall hwaiting
    obtain ⟨payload, stage⟩ := call
    cases hwaiting
    simp [LineWriter.next, step?, hfree, hcall]

/-- Lines of concurrent calls over a device that does not fail never interleave, and the lines of
documents can be told apart. -/
theorem lines_framed {d : Device} {events : List LineEvent} (hd : d.IsWilling)
    (he : ∀ event ∈ events, IsKind event) :
    ((fresh d).after events).WritesLines d.written ∧ ∀ document : Json, 0x0a ∉ document.payload :=
  ⟨((framed_fresh hd).after he).writesLines, Json.lineFeed_notMem_payload⟩

/-- A device that takes single bytes. -/
def singleBytes : Device := ⟨some 1, none, false, []⟩

/-- Two calls, of which the second gets the lock first and the first has to wait. -/
def twoCalls : List LineEvent := [
  .call [0x61, 0x62], .call [0x63], .lock 1, .proceed, .lock 0, .proceed, .proceed,
  .lock 0, .piece (some 5), .proceed, .proceed, .proceed]

theorem lines_framed_of_two_calls :
    let w := (fresh singleBytes).after twoCalls
    w.WritesLines [] ∧ w.device.written = [0x63, 0x0a, 0x61, 0x62, 0x0a] ∧ w.order = [1, 0] := by
  intro w
  have hd : singleBytes.IsWilling := ⟨rfl, rfl, by decide⟩
  have he : ∀ event ∈ twoCalls, IsKind event := by simp [twoCalls, IsKind]
  obtain ⟨hlines, -⟩ := lines_framed hd he
  exact ⟨hlines, rfl, rfl⟩

end LineWriter

end ChangeFeed.Sink
