import Mathlib.Algebra.Ring.Nat
import ChangeFeed.Proofs.Sink.Batches

/-!
# Batches on their way

A batch goes to the destination as a whole, and if it is refused, its messages follow one after the
other. The calls of a batcher are those of its batches in order, each with the calls for its messages.

* `Handled` is an answered call with what it left behind, and `Flight` a batch with its calls.
  `flights` puts the calls of a batcher together.
* `InFlight`: all batches but the last one have come to their end. `sent_of_calls`, `Sent.inFlight`:
  so it is with the calls of every batcher.
* `Flight.published` and `Flight.dropped` are the messages of a batch by what they were counted as.
  `Flight.Flies.counted_once`: each of them is counted once. `Sent.counts`, `counts_after`: the
  counters of a sink are what its batches come to.
-/

namespace ChangeFeed.Sink

/-- The messages that a call is about. -/
def Call.messages : Call → List Message
  | .batch messages => messages
  | .one m => [m]

/-- An answered call with what it left behind. -/
structure Handled (ρ : Type) extends Exchange where
  trace : ρ

/-- A batch on its way: the call with the batch, and the calls with its messages alone, the first one
first. -/
structure Flight (ρ : Type) where
  together : Handled ρ
  alone : List (Handled ρ)

variable {ρ : Type}

namespace Flight

def batch (f : Flight ρ) : List Message := f.together.call.messages

/-- The messages of a refused batch that are not answered yet. -/
def left (f : Flight ρ) : List Message :=
  if f.together.ok then [] else f.batch.drop f.alone.length

/-- The messages of a batch that were counted as published, by their positions. -/
def published (f : Flight ρ) : List Nat :=
  if f.together.ok then List.range f.batch.length
  else (f.alone.zipIdx.filter (·.1.ok)).map (·.2)

/-- The messages of a batch that were counted as dropped, by their positions. -/
def dropped (f : Flight ρ) : List Nat :=
  if f.together.ok then [] else (f.alone.zipIdx.filter (!·.1.ok)).map (·.2)

/-- Adds a call to batches, the last one first: a new batch, or a message of the last batch. -/
def add (flights : List (Flight ρ)) (x : Handled ρ) : List (Flight ρ) :=
  match x.call, flights with
  | .batch _, _ => ⟨x, []⟩ :: flights
  | .one _, f :: earlier => { f with alone := f.alone ++ [x] } :: earlier
  | .one _, [] => []

/-- The calls of a batch: its messages follow one after the other if it is refused. -/
structure Flies (f : Flight ρ) (left : List Message) : Prop where
  call : f.together.call = .batch f.batch
  alone : f.alone.map (·.call) ++ left.map .one = if f.together.ok then [] else f.batch.map .one

end Flight

/-- The batches of a batcher with the given calls, the last one first. -/
def flights (log : List (Handled ρ)) : List (Flight ρ) := log.foldl Flight.add []

theorem flights_append (log : List (Handled ρ)) (x : Handled ρ) :
    flights (log ++ [x]) = Flight.add (flights log) x := by
  simp [flights]

/-- The calls of a batcher, with the messages that are left of a refused batch: one batch after the
other, and behind a batch that is refused its messages. -/
inductive Sent : List (Handled ρ) → List Message → Prop
  | none : Sent [] []
  | batch {log : List (Handled ρ)} {x : Handled ρ} {messages : List Message}
      (hx : x.call = .batch messages) (h : Sent log []) :
      Sent (log ++ [x]) (if x.ok then [] else messages)
  | one {log : List (Handled ρ)} {x : Handled ρ} {m : Message} {left : List Message}
      (hx : x.call = .one m) (h : Sent log (m :: left)) : Sent (log ++ [x]) left

/-- Batches, the last one first. Only messages of the last one may not be answered yet. -/
inductive InFlight : List (Flight ρ) → List Message → Prop
  | none : InFlight [] []
  | last {f : Flight ρ} {earlier : List (Flight ρ)} {left : List Message} (h : f.Flies left)
      (hs : InFlight earlier []) : InFlight (f :: earlier) left

/-! ## The calls of a batcher -/

theorem calls_one {x : Exchange} {m : Message} (h : x.call = .one m) : x.calls = [] := by
  obtain ⟨call, ok⟩ := x
  cases h
  rfl

theorem calls_batch {x : Exchange} {messages : List Message} (h : x.call = .batch messages) :
    x.calls = .batch messages :: if x.ok then [] else messages.map .one := by
  obtain ⟨call, ok⟩ := x
  cases h
  rfl

theorem one_injective : Function.Injective Call.one := fun _ _ h => Call.one.inj h

/-- The last batch of a list of calls, and the messages behind it, can be told. -/
theorem append_batch_inj {calls calls' : List Call} {batch : List Message} {ms ms' : List Message}
    (h : calls ++ .batch batch :: ms.map .one = calls' ++ .batch batch :: ms'.map .one) :
    calls = calls' ∧ ms.map Call.one = ms'.map .one := by
  have hfree (more : List Call) (ms : List Message) {rest : List Call} :
      ms.map Call.one ≠ more ++ .batch batch :: rest := by
    intro heq
    have hmem : Call.batch batch ∈ ms.map Call.one := heq ▸ by simp
    obtain ⟨m, -, hm⟩ := List.mem_map.mp hmem
    cases hm
  rcases List.append_eq_append_iff.mp h with ⟨more, rfl, heq⟩ | ⟨more, rfl, heq⟩
  · cases more with
    | nil => exact ⟨by simp, (List.cons.inj heq).2⟩
    | cons c more => exact absurd (List.cons.inj heq).2 (hfree more ms)
  · cases more with
    | nil => exact ⟨by simp, (List.cons.inj heq).2.symm⟩
    | cons c more => exact absurd (List.cons.inj heq).2 (hfree more ms')

theorem Flight.Flies.left_eq {f : Flight ρ} {left : List Message} (h : f.Flies left) :
    f.left = left := by
  have halone := h.alone
  unfold Flight.left
  split at halone
  · rename_i hok
    rw [if_pos hok]
    exact (List.map_eq_nil_iff.mp (List.append_eq_nil_iff.mp halone).2).symm
  · rename_i hok
    rw [if_neg hok]
    have hdrop := congrArg (List.drop f.alone.length) halone
    rw [List.drop_left' (by simp), ← List.map_drop] at hdrop
    exact (List.map_injective_iff.mpr one_injective hdrop).symm

theorem sent_of_calls {log : List (Handled ρ)} {left : List Message}
    (h : log.map (·.call) ++ left.map .one = log.flatMap (·.calls)) : Sent log left := by
  induction log using List.reverseRecOn generalizing left with
  | nil =>
    have hnil : left = [] := by simpa using h
    rw [hnil]
    exact .none
  | append_singleton log x ih =>
    cases hx : x.call with
    | one m =>
      refine .one hx (ih ?_)
      simpa [hx, calls_one hx] using h
    | batch messages =>
      have hsplit : log.map (·.call) ++ .batch messages :: left.map .one =
          log.flatMap (·.calls) ++ .batch messages ::
            (if x.ok then [] else messages : List Message).map .one := by
        rw [List.map_append, List.flatMap_append, List.append_assoc] at h
        simp only [List.map_cons, List.map_nil, List.flatMap_cons, List.flatMap_nil, hx,
          calls_batch hx, List.append_nil, List.singleton_append] at h
        rw [h]
        cases x.ok <;> rfl
      obtain ⟨hbefore, hleft⟩ := append_batch_inj hsplit
      rw [List.map_injective_iff.mpr one_injective hleft]
      exact .batch hx (ih (by simpa using hbefore))

theorem Sent.inFlight {log : List (Handled ρ)} {left : List Message} (h : Sent log left) :
    InFlight (flights log) left := by
  induction h with
  | none => exact .none
  | @batch log x messages hx _ ih =>
    have hbatch : (⟨x, []⟩ : Flight ρ).batch = messages := by
      simp [Flight.batch, hx, Call.messages]
    rw [flights_append]
    simp only [Flight.add, hx]
    refine .last ⟨hx.trans (congrArg Call.batch hbatch.symm), ?_⟩ ih
    rw [hbatch]
    cases x.ok <;> rfl
  | @one log x m left hx _ ih =>
    rw [flights_append]
    generalize flights log = earlier at ih
    cases ih with
    | @last f earlier left' hf hs =>
      simp only [Flight.add, hx]
      refine .last ⟨hf.call, ?_⟩ hs
      have halone := hf.alone
      simpa [hx, Flight.batch] using halone

/-- Where the calls with single messages go. -/
theorem InFlight.refused {f : Flight ρ} {earlier : List (Flight ρ)} {m : Message}
    {left : List Message} (h : InFlight (f :: earlier) (m :: left)) : f.together.ok = false := by
  cases h with
  | last hf hs =>
    have halone := hf.alone
    cases hok : f.together.ok with
    | false => rfl
    | true => simp [hok] at halone

/-- All messages that are not answered yet are those of the last batch. -/
theorem InFlight.flatMap_left {flights : List (Flight ρ)} {left : List Message}
    (h : InFlight flights left) : flights.flatMap Flight.left = left := by
  induction h with
  | none => rfl
  | last h _ ih => rw [List.flatMap_cons, ih, h.left_eq, List.append_nil]

theorem InFlight.flies {flights : List (Flight ρ)} {left : List Message}
    (h : InFlight flights left) {f : Flight ρ} (hf : f ∈ flights) : f.Flies f.left := by
  induction h with
  | none => cases hf
  | last h _ ih =>
    rcases List.mem_cons.mp hf with rfl | hf
    · rwa [h.left_eq]
    · exact ih hf

/-- The calls behind a refused batch are those of its messages. -/
theorem Flight.Flies.call_alone {f : Flight ρ} {left : List Message} (h : f.Flies left) {i : Nat}
    {x : Handled ρ} (hx : f.alone[i]? = some x) :
    f.together.ok = false ∧ ∃ m, f.batch[i]? = some m ∧ x.call = .one m := by
  have halone := h.alone
  have hcall : (f.alone.map (·.call) ++ left.map .one)[i]? = some x.call := by
    rw [List.getElem?_append_left (by simpa using (List.getElem?_eq_some_iff.mp hx).1),
      List.getElem?_map, hx]
    rfl
  rw [halone] at hcall
  split at hcall
  · cases hcall
  · rename_i hok
    rw [List.getElem?_map] at hcall
    obtain ⟨m, hm, hone⟩ := Option.map_eq_some_iff.mp hcall
    exact ⟨by simpa using hok, m, hm, hone.symm⟩

/-- The calls of a batch are among those that were put together. -/
theorem mem_of_mem_flights {log : List (Handled ρ)} {f : Flight ρ}
    (h : f ∈ flights log) : f.together ∈ log ∧ ∀ x ∈ f.alone, x ∈ log := by
  induction log using List.reverseRecOn generalizing f with
  | nil => cases h
  | append_singleton log x ih =>
    have hkept {f : Flight ρ} (hf : f ∈ flights log) :
        f.together ∈ log ++ [x] ∧ ∀ y ∈ f.alone, y ∈ log ++ [x] :=
      ⟨List.mem_append_left _ (ih hf).1, fun y hy => List.mem_append_left _ ((ih hf).2 y hy)⟩
    rw [flights_append] at h
    cases hx : x.call with
    | batch messages =>
      simp only [Flight.add, hx] at h
      rcases List.mem_cons.mp h with rfl | h
      · exact ⟨by simp, by simp⟩
      · exact hkept h
    | one m =>
      cases hl : flights log with
      | nil => simp [Flight.add, hx, hl] at h
      | cons last earlier =>
        simp only [Flight.add, hx, hl] at h
        rcases List.mem_cons.mp h with rfl | h
        · obtain ⟨htogether, halone⟩ := hkept (hl ▸ List.mem_cons_self)
          refine ⟨htogether, fun y hy => ?_⟩
          rcases List.mem_append.mp hy with hy | hy
          · exact halone y hy
          · rw [List.mem_singleton.mp hy]
            simp
        · exact hkept (hl ▸ List.mem_cons_of_mem _ h)

/-! ## Counting -/

theorem Flight.mem_published {f : Flight ρ} {i : Nat} :
    i ∈ f.published ↔
      if f.together.ok then i < f.batch.length else ∃ x, f.alone[i]? = some x ∧ x.ok = true := by
  unfold Flight.published
  split
  · exact List.mem_range
  · simp [List.mk_mem_zipIdx_iff_getElem?]

/-- Each message that is answered was counted once. -/
theorem Flight.Flies.counted_once {f : Flight ρ} {left : List Message} (h : f.Flies left) :
    (f.published ++ f.dropped).Perm (List.range (f.batch.length - left.length)) := by
  have halone := h.alone
  unfold Flight.published Flight.dropped
  split at halone
  · rename_i hok
    have hnil : left = [] := List.map_eq_nil_iff.mp (List.append_eq_nil_iff.mp halone).2
    rw [if_pos hok, if_pos hok, hnil, List.append_nil]
    exact List.Perm.refl _
  · rename_i hok
    have hlength := congrArg List.length halone
    simp only [List.length_append, List.length_map] at hlength
    have hrange : f.alone.zipIdx.map (·.2) = List.range (f.batch.length - left.length) := by
      rw [List.zipIdx_map_snd, List.range_eq_range', ← hlength, Nat.add_sub_cancel]
    rw [if_neg hok, if_neg hok, ← List.map_append, ← hrange]
    exact (List.filter_append_perm (fun x : Handled ρ × Nat => x.1.ok) f.alone.zipIdx).map _

/-- The messages that an answer counts as published. -/
def Exchange.published (x : Exchange) : List Message := if x.ok then x.call.messages else []

/-- The messages that an answer counts as dropped. -/
def Exchange.dropped (x : Exchange) : List Message :=
  match x.call with
  | .batch _ => []
  | .one m => if x.ok then [] else [m]

theorem counts_of_batch {x : Exchange} {messages : List Message} (hx : x.call = .batch messages) :
    x.published = (if x.ok then messages else []) ∧ x.dropped = [] := by
  simp [Exchange.published, Exchange.dropped, hx, Call.messages]

theorem counts_of_one {x : Exchange} {m : Message} (hx : x.call = .one m) :
    x.published = (if x.ok then [m] else []) ∧ x.dropped = (if x.ok then [] else [m]) := by
  simp [Exchange.published, Exchange.dropped, hx, Call.messages]

/-- A message that is answered alone is counted with its batch. -/
theorem Flight.counts_add {f : Flight ρ} (hf : f.together.ok = false) (x : Handled ρ) :
    ({ f with alone := f.alone ++ [x] } : Flight ρ).published =
        f.published ++ (if x.ok then [f.alone.length] else []) ∧
      ({ f with alone := f.alone ++ [x] } : Flight ρ).dropped =
        f.dropped ++ (if x.ok then [] else [f.alone.length]) := by
  have hnot : ¬ f.together.ok = true := by simp [hf]
  unfold Flight.published Flight.dropped
  simp only [if_neg hnot, List.zipIdx_append, List.filter_append, List.map_append,
    List.zipIdx_singleton, Nat.zero_add]
  cases hok : x.ok <;> simp [hok]

/-- The batches of a batcher count what its calls count. -/
theorem Sent.counts {log : List (Handled ρ)} {left : List Message} (h : Sent log left) :
    ((flights log).flatMap Flight.published).length = (log.flatMap (·.published)).length ∧
      ((flights log).flatMap Flight.dropped).length = (log.flatMap (·.dropped)).length := by
  induction h with
  | none => exact ⟨rfl, rfl⟩
  | @batch log x messages hx _ ih =>
    obtain ⟨hpublished, hdropped⟩ := counts_of_batch hx
    rw [flights_append]
    simp only [Flight.add, hx, List.flatMap_cons, List.flatMap_append, List.flatMap_nil,
      List.append_nil, List.length_append, ih.1, ih.2, hpublished, hdropped]
    cases hok : x.ok <;>
      simp [Flight.published, Flight.dropped, Flight.batch, hx, hok, Call.messages, Nat.add_comm]
  | @one log x m left hx h ih =>
    obtain ⟨hpublished, hdropped⟩ := counts_of_one hx
    have hflight := h.inFlight
    rw [flights_append]
    generalize flights log = earlier at ih hflight
    cases earlier with
    | nil => cases hflight
    | cons f earlier =>
      obtain ⟨hpublished', hdropped'⟩ := Flight.counts_add hflight.refused x
      simp only [List.flatMap_cons, List.length_append] at ih
      simp only [Flight.add, hx, List.flatMap_cons, List.flatMap_append, List.flatMap_nil,
        List.append_nil, List.length_append, ← ih.1, ← ih.2, hpublished, hdropped, hpublished',
        hdropped']
      cases x.ok <;> simp <;> omega

namespace Batched

variable {b b' : Batched} {ok : Bool} {now : Nat}

/-- An answer is counted for the call that it answers. -/
theorem counts_of_finish? {call : Call} (hcall : b.batcher.call? = some call)
    (h : b.finish? ok now = some b') :
    b'.published = b.published + (Exchange.published ⟨call, ok⟩).length ∧
      b'.dropped = b.dropped + (Exchange.dropped ⟨call, ok⟩).length := by
  have hproceed (b : Batched) (last : Bool) :
      (b.proceed last).published = b.published ∧ (b.proceed last).dropped = b.dropped := ⟨rfl, rfl⟩
  match hb : b.batcher with
  | .sending batch last since =>
    rw [hb] at hcall
    cases hcall
    simp only [finish?, hb] at h
    cases ok with
    | true =>
      simp only [if_true, Option.some.injEq] at h
      simp [← h, hproceed, Exchange.published, Exchange.dropped, Call.messages]
    | false =>
      simp only [Bool.false_eq_true, if_false, Option.some.injEq] at h
      simp [← h, Exchange.published, Exchange.dropped]
  | .resending (m :: rest) last since =>
    rw [hb] at hcall
    cases hcall
    simp only [finish?, hb] at h
    cases rest with
    | nil =>
      rw [← Option.some.inj h]
      cases ok <;> exact ⟨rfl, rfl⟩
    | cons m' rest =>
      rw [← Option.some.inj h]
      cases ok <;> exact ⟨rfl, rfl⟩
  | .resending [] last since => simp [finish?, hb] at h
  | .absent => simp [finish?, hb] at h
  | .collecting buffer => simp [finish?, hb] at h
  | .ended => simp [finish?, hb] at h

namespace History

/-- The counters of a sink are what its calls count. -/
structure Counts (u : History) : Prop where
  published : u.sink.published = (u.log.flatMap (·.published)).length
  dropped : u.sink.dropped = (u.log.flatMap (·.dropped)).length

variable {u : History}

/-- An answer is put down behind the others. -/
theorem next_finish (h : u.sink.finish? ok now = some b') :
    ∃ call, Answers u.sink b' call ok ∧
      u.next (.finish ok now) = { u with sink := b', log := u.log ++ [⟨call, ok⟩] } := by
  obtain ⟨call, ha⟩ := answers_of_finish? h
  exact ⟨call, ha, by simp [History.next, h, ha.asked]⟩

/-- The calls of a sink with what they left behind are those of a batcher. -/
theorem Sound.sentBy {limit : Nat} {log : List (Handled ρ)} (h : u.Sound limit)
    (hlog : log.map (·.toExchange) = u.log) : Sent log u.sink.batcher.left := by
  refine sent_of_calls ?_
  have hsent := h.sent
  rw [← hlog] at hsent
  simpa [List.flatMap_map, Function.comp_def] using hsent

/-- An event that is no answer leaves the counters alone. -/
theorem counters_next (u : History) {e : Event} (he : ∀ ok now, e ≠ .finish ok now) :
    (u.next e).sink.published = u.sink.published ∧ (u.next e).sink.dropped = u.sink.dropped ∧
      (u.next e).log = u.log := by
  cases e with
  | start =>
    cases hs : u.sink.started <;> simp [History.next, Batched.start, hs]
  | produce p => exact ⟨rfl, rfl, rfl⟩
  | take now =>
    cases ht : u.sink.take? now with
    | none => simp [History.next, ht]
    | some b' =>
      obtain ⟨buffer, m, queue, -, -, -, ⟨-, rfl⟩ | rfl⟩ := take?_cases ht <;>
        simp [History.next, ht, Batched.send]
  | flush now =>
    rcases u.sink.flush?_cases now with heq | ⟨buffer, -, -, heq⟩ <;>
      simp [History.next, heq, Batched.send]
  | leave now =>
    rcases u.sink.leave?_cases now with heq | ⟨buffer, -, ⟨-, heq⟩ | ⟨-, heq⟩⟩ <;>
      simp [History.next, heq, Batched.send]
  | finish ok now => exact absurd rfl (he ok now)
  | stop => exact ⟨rfl, rfl, rfl⟩
  | goOn call now =>
    rcases goOn_cases u call now with heq | ⟨phase, queue, cancelled, next, -, -, heq⟩ <;>
      simp [heq]

theorem Counts.next (h : u.Counts) (e : Event) : (u.next e).Counts := by
  by_cases he : ∀ ok now, e ≠ .finish ok now
  · obtain ⟨hpublished, hdropped, hlog⟩ := u.counters_next he
    exact ⟨by rw [hpublished, hlog, h.published], by rw [hdropped, hlog, h.dropped]⟩
  · simp only [ne_eq, not_forall, not_not] at he
    obtain ⟨ok, now, rfl⟩ := he
    cases hf : u.sink.finish? ok now with
    | none =>
      simp only [History.next, hf]
      exact h
    | some b' =>
      obtain ⟨call, ha, hnext⟩ := next_finish hf
      obtain ⟨hpublished, hdropped⟩ := counts_of_finish? ha.asked hf
      rw [hnext]
      refine ⟨?_, ?_⟩
      · simp [hpublished, h.published]
      · simp [hdropped, h.dropped]

theorem counts_after (s : Settings.Output) (events : List Event) :
    ((create s).after events).Counts := by
  have hall : ∀ u : History, u.Counts → (u.after events).Counts := by
    induction events with
    | nil => exact fun u h => h
    | cons e rest ih => exact fun u h => ih _ (h.next e)
  exact hall _ ⟨rfl, rfl⟩

end History

end Batched

end ChangeFeed.Sink
