import ChangeFeed.Consul.Contest
import ChangeFeed.Consul.Watch
import ChangeFeed.Lock.Table

/-!
# Tenures

The life of one session, from its creation to its end. The owner first acquires the key for the
session, then holds a lease, and gives it back; meanwhile the session is renewed twice in its time
to live, and once the key is held a watch reads it. All three stop by one mark, which is set when
the acquisition fails or is abandoned and when the lease is given back.

A tenure moves by the events of `Event`: deliveries of requests on their way, the passing of time,
and what its owner decides. An event that cannot happen changes nothing; in particular time passes
only while every party waits. All that was asked for is kept. `Tenure.step` is one event and
`Tenure.run` are several.
-/

namespace ChangeFeed.Consul

/-- Where the owner of a tenure stands. -/
inductive Owner where
  /-- The session is being created. -/
  | opening
  | contesting (contest : Contest)
  /-- The session of a failed acquisition is being ended. -/
  | withdrawing (reason : String)
  | refused (error : Error)
  /-- Nobody waits for the acquisition any more. -/
  | abandoned
  | holding
  /-- The key is being given back. -/
  | yielding
  /-- The session is being ended after the key was given back with the given result. -/
  | closing (result : Except Error Unit)
  | released (result : Except Error Unit)
  /-- Nobody waits any more for the key to be given back. -/
  | deserted
  /-- The lease was thrown away without being given back. -/
  | forgotten
  deriving Inhabited

/-- What renews the session. -/
inductive Renewer where
  /-- There is no session yet. -/
  | absent
  /-- Waits until a renewal is due. -/
  | resting (due : Nat)
  /-- A renewal is on its way; the given time is that of the one after it. -/
  | renewing (next : Nat)
  | ended
  deriving DecidableEq, Inhabited

/-- The life of a session. -/
structure Tenure where
  key : String
  name : String
  ttl : Duration
  /-- The session, once it exists. -/
  session : String
  /-- The time in nanoseconds. -/
  now : Nat
  owner : Owner
  renewer : Renewer
  /-- The watch of the key, once it was held. -/
  watch : Option Watch
  /-- The mark by which all stop. -/
  stopped : Bool
  /-- What the owner asked for, the last ask first. -/
  asks : List Ask
  /-- The renewals, the last one first. -/
  renewals : List Ask
  /-- The reads of the watch, the last one first. -/
  reads : List Ask
  deriving Inhabited

/-- Something that happens to a tenure. -/
inductive Event where
  | pass (nanos : Nat)
  /-- The owner's request gets its delivery. -/
  | answered (d : Http.Delivery)
  /-- The owner's pause is over. -/
  | rested
  /-- The owner gives the acquisition up. -/
  | abandon
  /-- The owner gives the lease back. -/
  | release
  /-- The owner throws the lease away, or does not wait any more for it to be given back. -/
  | forget
  /-- The owner takes a report of the watch. -/
  | receive
  /-- A renewal that is due is sent. -/
  | renew
  /-- A renewal gets its delivery. -/
  | renewed (d : Http.Delivery)
  /-- The renewals stop by the mark. -/
  | stopRenewing
  /-- A read of the watch gets its delivery. -/
  | watched (d : Http.Delivery)
  /-- The pause of the watch is over. -/
  | watchRested
  /-- The watch stops by the mark. -/
  | stopWatching
  deriving Inhabited

namespace Tenure

/-- A tenure whose session is being created. -/
def start (s : Service) (key name : String) (ttl : Duration) : Tenure :=
  ⟨key, name, ttl, "", 0, .opening, .absent, none, false,
    [⟨.create, s.openRequest name ttl, 0, none⟩], [], []⟩

def lease (t : Tenure) : Lock.Lease := ⟨t.key, t.session⟩

/-! ## Parties that can go on -/

def isOwnerReady (t : Tenure) : Bool :=
  match t.owner with
  | .contesting (.pausing due) => due ≤ t.now
  | _ => false

def isRenewerReady (t : Tenure) : Bool :=
  match t.renewer with
  | .resting due => t.stopped || due ≤ t.now
  | _ => false

def isWatchReady (t : Tenure) : Bool :=
  match t.watch.map Watch.phase with
  | some .reading => t.stopped
  | some (.pausing due) => t.stopped || due ≤ t.now
  | _ => false

/-- Whether a party can go on although nothing reaches it. -/
def isReady (t : Tenure) : Bool := t.isOwnerReady || t.isRenewerReady || t.isWatchReady

/-! ## The owner -/

/-- What a party asks for now. -/
def asking (s : Service) (t : Tenure) (demand : Demand) : Ask :=
  ⟨demand, demand.request s t.key t.name t.ttl, t.now, none⟩

/-- The owner asks for something. -/
def ask (s : Service) (t : Tenure) (demand : Demand) : Tenure :=
  { t with asks := t.asking s demand :: t.asks }

/-- The owner's request has its reply. -/
def heard (t : Tenure) (d : Http.Delivery) : Tenure :=
  { t with asks := Ask.replied t.now d t.asks }

/-- The pause between two renewals, in nanoseconds. -/
def renewalPause (t : Tenure) : Nat := t.ttl.nanos / 2

/-- The renewals of a session that was just created; without a pause there can be none. -/
def firstRenewer (t : Tenure) : Renewer :=
  if t.renewalPause = 0 then .ended else .resting (t.now + t.renewalPause)

/-- The watch has come to the given point. -/
def watching (s : Service) (t : Tenure) (w : Watch) : Tenure :=
  { t with
    watch := some w
    reads := (w.demand?.map (t.asking s)).toList ++ t.reads }

/-- The contest has come to the given point. -/
def contest (s : Service) (t : Tenure) (c : Contest) : Tenure :=
  match c with
  | .granted => { t.watching s .start with owner := .holding }
  | .failed failure =>
    { t.ask s (.destroy t.session) with owner := .withdrawing failure.text, stopped := true }
  | c =>
    match c.demand? t.session with
    | some demand => { t.ask s demand with owner := .contesting c }
    | none => { t with owner := .contesting c }

/-- The owner has a session. -/
def opened (t : Tenure) (session : String) : Tenure :=
  { t with session, renewer := t.firstRenewer }

/-- The owner's request gets its delivery. -/
def answer (s : Service) (t : Tenure) (d : Http.Delivery) : Tenure :=
  match t.owner with
  | .opening =>
    match s.opened t.name t.ttl d with
    | .ok session => ((t.heard d).opened session).contest s .claiming
    | .error reason => { t.heard d with owner := .refused (.session t.name reason) }
  | .contesting c =>
    match c.demand? t.session with
    | some _ => (t.heard d).contest s (c.next s t.key t.session t.now d)
    | none => t
  | .withdrawing reason => { t.heard d with owner := .refused (.acquire t.key reason) }
  | .yielding =>
    { (t.heard d).ask s (.destroy t.session) with owner := .closing (s.yieldResult t.key t.session d) }
  | .closing result => { t.heard d with owner := .released result }
  | _ => t

/-! ## Moves -/

def renewalAnswer (s : Service) (t : Tenure) (d : Http.Delivery) : Tenure :=
  match t.renewer with
  | .renewing next =>
    { t with
      renewer := if s.survives t.session d then .resting next else .ended
      renewals := Ask.replied t.now d t.renewals }
  | _ => t

def step (s : Service) (t : Tenure) : Event → Tenure
  | .pass nanos => if t.isReady then t else { t with now := t.now + nanos }
  | .answered d => t.answer s d
  | .rested =>
    match t.owner with
    | .contesting (.pausing due) => if due ≤ t.now then t.contest s .claiming else t
    | _ => t
  | .abandon =>
    match t.owner with
    | .opening => { t with owner := .abandoned }
    | .contesting _ => { t with owner := .abandoned, stopped := true }
    | .withdrawing _ => { t with owner := .abandoned }
    | _ => t
  | .release =>
    match t.owner with
    | .holding => { t.ask s (.yield t.session) with owner := .yielding, stopped := true }
    | _ => t
  | .forget =>
    match t.owner with
    | .holding => { t with owner := .forgotten }
    | .yielding | .closing _ => { t with owner := .deserted }
    | _ => t
  | .receive =>
    match t.watch.bind Watch.receive? with
    | some (_, w) => { t with watch := some w }
    | none => t
  | .renew =>
    match t.renewer with
    | .resting due =>
      if due ≤ t.now then
        { t with
          renewer := .renewing (due + t.renewalPause)
          renewals := t.asking s (.renew t.session) :: t.renewals }
      else t
    | _ => t
  | .renewed d => t.renewalAnswer s d
  | .stopRenewing =>
    match t.renewer with
    | .resting _ => if t.stopped then { t with renewer := .ended } else t
    | _ => t
  | .watched d =>
    match t.watch with
    | some w =>
      if w.phase = .reading then
        { t with reads := Ask.replied t.now d t.reads }.watching s
          (w.next s t.key t.session t.now d)
      else t
    | none => t
  | .watchRested =>
    match t.watch with
    | some w =>
      match w.phase with
      | .pausing due => if due ≤ t.now then t.watching s { w with phase := .reading } else t
      | _ => t
    | none => t
  | .stopWatching => if t.stopped then { t with watch := t.watch.map Watch.close } else t

def run (s : Service) (t : Tenure) (events : List Event) : Tenure := events.foldl (step s) t

/-- What the acquisition came to, once it did. -/
def acquired? (t : Tenure) : Option (Except Error Lock.Lease) :=
  match t.owner with
  | .refused error => some (.error error)
  | .holding | .yielding | .closing _ | .released _ | .deserted | .forgotten => some (.ok t.lease)
  | .opening | .contesting _ | .withdrawing _ | .abandoned => none

/-- What giving the lease back came to, once it did. -/
def released? (t : Tenure) : Option (Except Error Unit) :=
  match t.owner with
  | .released result => some result
  | _ => none

end Tenure

end ChangeFeed.Consul
