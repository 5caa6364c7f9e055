import ChangeFeed.Proofs.Consul.Answers
import ChangeFeed.Proofs.Consul.Courses

/-!
# Acquiring a key

An owner asks Consul in an order that no sequence of answers can change. `Tenure.KeepsProtocol` puts
together what can be read off its asks, the first one first: claims with the reads between them, each
read past the index of the answer before it, up to a claim that is answered with true or a request
that fails. `Tenure.keepsProtocol_run` says that every run from the start keeps the protocol.

An acquisition does not come to rest either: `Tenure.MovesOn` is what an answer leads to, and
`Sound.goesOn` shows that it is so wherever an answer is awaited.

The lemmas `Follows.after_claim`, `after_read` and so on say what the reply to an ask leads to; all
else is read along the chain of asks.
-/

namespace ChangeFeed.Consul

def Demand.isClaim : Demand → Bool
  | .claim _ => true
  | _ => false

/-- Whether a request of a contest came to nothing. -/
inductive Ask.Fails (s : Service) (key : String) (a : Ask) (f : Http.Failure) : Prop where
  | claim {session : String} {r : Reply} (hd : a.demand = .claim session) (hr : a.reply = some r)
      (h : s.claimed key session r.delivery = .error f)
  | read {index : Nat} {r : Reply} (hd : a.demand.index? = some index) (hr : a.reply = some r)
      (h : s.read key index r.delivery = .error f)

/-- Whether a reply to a read shows a state of the key. -/
def Ask.Shows (s : Service) (key : String) (a : Ask) (r : Reply) (holding : Holding) : Prop :=
  ∃ index, a.demand.index? = some index ∧ a.reply = some r ∧
    s.read key index r.delivery = .ok holding

/-! ## Chains of asks -/

section

variable {T : Terms} {p q : Ask} {asks reads : List Ask}

/-- Once the key is given back or the session ended there is nothing but the end of the session. -/
theorem destroys_after {x : Ask} (h : (x :: asks).IsChain (Follows T))
    (hx : x.demand = .yield T.session ∨ x.demand = .destroy T.session) :
    ∀ a ∈ asks, a.demand = .destroy T.session := by
  induction asks generalizing x with
  | nil => simp
  | cons y asks ih =>
    obtain ⟨hxy, htail⟩ := List.isChain_cons_cons.mp h
    rcases hx with hx | hx
    · have hy := hxy.after_yield hx
      exact List.forall_mem_cons.mpr ⟨hy, ih htail (.inr hy)⟩
    · exact absurd hxy (Follows.after_destroy hx)

/-- Whether a read shows a held key and the next one goes past the index of its answer; an answer
without an index keeps the one before. -/
def ReadsOn (s : Service) (key : String) (a b : Ask) : Prop :=
  ∃ (index : Nat) (r : Reply) (response : Http.Response) (holding : Holding),
    a.demand.index? = some index ∧ a.reply = some r ∧ r.delivery = .answered response ∧
    s.read key index r.delivery = .ok holding ∧ ¬ holding.isFree ∧
    b.demand = .await ((response.number? indexHeader).getD index)

/-- What an owner does between a refused claim and the next one. -/
structure Waits (s : Service) (key : String) (reads : List Ask) (next : Ask) : Prop where
  /-- The key is read, at first at once. -/
  looks : ∃ a rest, reads = a :: rest ∧ a.demand = .look
  readsOn : reads.IsChain (ReadsOn s key)
  /-- The last read shows a free key. -/
  free : ∃ a ∈ reads.getLast?, ∃ (r : Reply) (holding : Holding),
    a.Shows s key r holding ∧ holding.isFree
  /-- If the first read shows a free key, it is the only one, and a pause follows. -/
  pauses : ∀ a ∈ reads.head?, ∀ (r : Reply) (holding : Holding),
    a.Shows s key r holding → holding.isFree →
      reads = [a] ∧ r.time + claimPause.nanos ≤ next.time

theorem ReadsOn.held {s : Service} {key : String} {a b : Ask} {r : Reply} {holding : Holding}
    (h : ReadsOn s key a b) (hs : a.Shows s key r holding) : ¬ holding.isFree := by
  obtain ⟨index, r', response, holding', hi, hr, -, hread, hheld, -⟩ := h
  obtain ⟨index', hi', hr', hread'⟩ := hs
  rw [hi] at hi'
  cases hi'
  rw [hr] at hr'
  cases hr'
  rw [hread] at hread'
  cases hread'
  exact hheld

/-- From a read on, the owner reads past the last index until the key is free, and then claims. -/
theorem reads_until_free {a : Ask} {index : Nat} (ha : a.demand.index? = some index)
    (h : (a :: reads ++ [q]).IsChain (Follows T)) (hreads : ∀ x ∈ reads, x.demand.isClaim = false)
    (hq : q.demand.isClaim = true) :
    (a :: reads).IsChain (ReadsOn T.service T.key) ∧
      ∃ z ∈ (a :: reads).getLast?, ∃ (r : Reply) (holding : Holding),
        z.Shows T.service T.key r holding ∧ holding.isFree ∧
          (z.demand = .look → r.time + claimPause.nanos ≤ q.time) := by
  induction reads generalizing a index with
  | nil =>
    have haq : Follows T a q := by simpa using h
    obtain ⟨r, hr, hnext⟩ := haq.after_read ha
    split at hnext
    · rename_i holding hread
      split at hnext
      · rename_i hfree
        exact ⟨.singleton _, a, rfl, r, holding, ⟨index, ha, hr, hread⟩, hfree, hnext.2⟩
      · simp [hnext, Demand.isClaim] at hq
    · simp [hnext, Demand.isClaim] at hq
  | cons b reads ih =>
    obtain ⟨hab, htail⟩ := List.isChain_cons_cons.mp h
    have hb := hreads b (List.mem_cons_self ..)
    obtain ⟨r, hr, hnext⟩ := hab.after_read ha
    split at hnext
    · rename_i holding hread
      split at hnext
      · simp [hnext.1, Demand.isClaim] at hb
      · rename_i hheld
        obtain ⟨response, hd, hindex⟩ := Service.index_of_read hread
        obtain ⟨hchain, z, hz, hlast⟩ := ih (by rw [hnext]; rfl) htail
          fun x hx => hreads x (List.mem_cons_of_mem _ hx)
        refine ⟨List.isChain_cons_cons.mpr ⟨?_, hchain⟩, z, ?_, hlast⟩
        · exact ⟨index, r, response, holding, ha, hr, hd, hread, hheld, hindex ▸ hnext⟩
        · rwa [List.getLast?_cons_cons]
    · -- after the end of the session there would be no claim
      have hdone := destroys_after htail (.inr hnext) q (by simp)
      simp [hdone, Demand.isClaim] at hq

theorem waits_between_claims (h : (p :: reads ++ [q]).IsChain (Follows T))
    (hp : p.demand.isClaim = true) (hreads : ∀ x ∈ reads, x.demand.isClaim = false)
    (hq : q.demand.isClaim = true) : Waits T.service T.key reads q := by
  obtain ⟨session, hp⟩ : ∃ session, p.demand = .claim session := by
    cases hd : p.demand <;> simp_all [Demand.isClaim]
  cases reads with
  | nil =>
    have hpq : Follows T p q := by simpa using h
    obtain ⟨r, -, hnext⟩ := hpq.after_claim hp
    split at hnext <;> simp [hnext, Demand.isClaim] at hq
  | cons a reads =>
    obtain ⟨hpa, htail⟩ := List.isChain_cons_cons.mp h
    have hdone (hd : a.demand = .yield T.session ∨ a.demand = .destroy T.session) : False := by
      have := destroys_after htail hd q (by simp)
      simp [this, Demand.isClaim] at hq
    have ha : a.demand = .look := by
      obtain ⟨r, -, hnext⟩ := hpa.after_claim hp
      split at hnext
      · exact (hdone (.inl hnext)).elim
      · exact hnext
      · exact (hdone (.inr hnext)).elim
    obtain ⟨hchain, z, hz, r, holding, hshows, hfree, hpause⟩ :=
      reads_until_free (by rw [ha]; rfl) htail (fun x hx => hreads x (List.mem_cons_of_mem _ hx)) hq
    refine ⟨⟨a, reads, rfl, ha⟩, hchain, ⟨z, hz, r, holding, hshows, hfree⟩, ?_⟩
    rintro a' ⟨⟩ r' holding' hshows' hfree'
    cases reads with
    | nil =>
      obtain rfl : a = z := by simpa using hz
      obtain ⟨_, hi, hr, -⟩ := hshows
      obtain ⟨_, hi', hr', -⟩ := hshows'
      rw [hr] at hr'
      cases hr'
      exact ⟨rfl, hpause ha⟩
    | cons b reads => exact absurd hfree' ((List.isChain_cons_cons.mp hchain).1.held hshows')

end

/-- Only a claim that is answered with true is granted. -/
theorem Ask.claim_of_granted {T : Terms} {a : Ask} (h : a.outcome? T = some .granted) :
    ∃ session r, a.demand = .claim session ∧ a.reply = some r ∧
      T.service.claimed T.key T.session r.delivery = .ok true := by
  obtain ⟨stage, r, hstage, hr, hnext⟩ := outcome?_eq_some_iff.mp h
  rcases Contest.next_eq_granted_iff.mp hnext with rfl | ⟨rfl, hclaimed⟩
  · cases hd : a.demand <;> simp [hd, Demand.stage?] at hstage
  · cases hd : a.demand with
    | claim session => exact ⟨session, r, rfl, hr, hclaimed⟩
    | _ => simp [hd, Demand.stage?] at hstage

namespace Course

variable {T : Terms} {a : Ask} {asks : List Ask} {session : String} {f : Http.Failure}

/-- Every ask but the first one follows another. -/
theorem create_or_follows (h : Course T asks) (ha : a ∈ asks) :
    a.demand = .create ∨ ∃ b, Follows T b a := by
  obtain ⟨newer, older, rfl⟩ := List.append_of_mem ha
  cases older with
  | nil =>
    obtain ⟨later, first, hasks, hfirst⟩ := h.begins
    obtain ⟨-, rfl⟩ : newer = later ∧ a = first := by simpa using hasks
    exact .inl hfirst
  | cons b older =>
    exact .inr ⟨b, (List.isChain_cons_cons.mp h.chain.right_of_append).1⟩

theorem session_of_claim (h : Course T asks) (ha : a ∈ asks) (hd : a.demand = .claim session) :
    session = T.session := by
  rcases h.create_or_follows ha with hc | ⟨b, hb⟩
  · simp [hd] at hc
  · exact hb.session_of_claim hd

/-- A request of a contest comes to nothing exactly if the contest fails by it. -/
theorem outcome?_eq_failed_iff (h : Course T asks) (ha : a ∈ asks) :
    a.outcome? T = some (.failed f) ↔ a.Fails T.service T.key f := by
  rw [Ask.outcome?_eq_some_iff]
  constructor
  · rintro ⟨stage, r, hstage, hr, hnext⟩
    rcases Contest.next_eq_failed_iff.mp hnext with rfl | ⟨rfl, hc⟩ | ⟨index, hindex, hc⟩
    · cases hd : a.demand <;> simp [hd, Demand.stage?] at hstage
    · cases hd : a.demand with
      | claim session =>
        obtain rfl := h.session_of_claim ha hd
        exact .claim hd hr hc
      | _ => simp [hd, Demand.stage?] at hstage
    · exact .read ((Contest.index?_of_stage? hstage).trans hindex) hr hc
  · rintro (@⟨session, r, hd, hr, hc⟩ | @⟨index, r, hd, hr, hc⟩)
    · obtain rfl := h.session_of_claim ha hd
      exact ⟨.claiming, r, by rw [hd]; rfl, hr, Contest.next_eq_failed_iff.mpr (.inr (.inl ⟨rfl, hc⟩))⟩
    · obtain ⟨stage, hstage, hindex⟩ := Contest.exists_stage_of_index? hd
      exact ⟨stage, r, hstage, hr,
        Contest.next_eq_failed_iff.mpr (.inr (.inr ⟨index, hindex, hc⟩))⟩

end Course

/-! ## Where failures and grants leave the owner -/

/-- Whether an owner got a lease. -/
def Owner.hasLease : Owner → Bool
  | .holding | .yielding | .closing _ | .released _ | .deserted | .forgotten => true
  | _ => false

namespace Stands

variable {T : Terms} {o : Owner} {a b : Ask} {asks : List Ask} {f : Http.Failure}

/-- A failure is not the last that happened to an owner: it ends the session then. -/
theorem last_not_failed (h : Stands T o (a :: asks)) : a.outcome? T ≠ some (.failed f) := by
  have hunanswered {a : Ask} (hr : a.reply = none) : a.outcome? T ≠ some (.failed f) := by
    simp [Ask.outcome?, hr]
  have hother {a : Ask} (hd : a.demand.stage? = none) : a.outcome? T ≠ some (.failed f) := by
    simp [Ask.outcome?, hd]
  generalize hasks : a :: asks = l at h
  induction h with cases hasks
  | opening hd hr => exact hunanswered hr
  | unopened hd hr ho => exact hother (by rw [hd]; rfl)
  | contesting hd hr => exact hunanswered hr
  | pausing ho => simp [ho]
  | withdrawing ho hd hr => exact hunanswered hr
  | refused ho hd => exact hother (by rw [hd]; rfl)
  | abandoned ho h ih => exact ih rfl
  | holding ho => simp [ho]
  | yielding ho hd hr => exact hunanswered hr
  | closing ho hd hr hd' hr' => exact hunanswered hr'
  | released ho hd hr hd' => exact hother (by rw [hd']; rfl)
  | deserted ho h ih => exact ih rfl
  | forgotten h ih => exact ih rfl

/-- A failure before the end of the session is the reason of what came of the acquisition. -/
theorem owner_of_failed (h : Stands T o (b :: a :: asks)) (ha : a.outcome? T = some (.failed f))
    (hb : b.demand = .destroy T.session) :
    o = .abandoned ∨ o = .withdrawing f.text ∨ o = .refused (.acquire T.key f.text) := by
  have hnone : b.outcome? T = none := by simp [Ask.outcome?, hb, Demand.stage?]
  generalize hasks : b :: a :: asks = l at h
  induction h with cases hasks
  | @contesting _ _ c hd hr =>
    rw [hb] at hd
    cases c <;> simp [Contest.demand?] at hd
  | pausing ho => simp [hnone] at ho
  | withdrawing ho hd hr =>
    rw [ha] at ho
    cases ho
    exact .inr (.inl rfl)
  | refused ho hd =>
    rw [ha] at ho
    cases ho
    exact .inr (.inr rfl)
  | abandoned ho h ih => exact .inl rfl
  | holding ho => simp [hnone] at ho
  | yielding ho hd hr => simp [hb] at hd
  | closing ho hd hr hd' hr' => simp [Ask.outcome?, hd, Demand.stage?] at ha
  | released ho hd hr hd' => simp [Ask.outcome?, hd, Demand.stage?] at ha
  | deserted ho h ih => rcases ih rfl with rfl | rfl | rfl <;> cases ho
  | forgotten h ih => rcases ih rfl with h | h | h <;> cases h

/-- A lease comes of a grant, after which the owner did not contest any more. -/
theorem exists_granted (h : Stands T o asks) (hl : o.hasLease) :
    ∃ newer p older, asks = newer ++ p :: older ∧ p.outcome? T = some .granted ∧
      ∀ x ∈ newer, x.demand.stage? = none := by
  induction h with
  | holding ho => exact ⟨[], _, _, rfl, ho, by simp⟩
  | yielding ho hd hr => exact ⟨[_], _, _, rfl, ho, by simp [hd, Demand.stage?]⟩
  | closing ho hd hr hd' hr' => exact ⟨[_, _], _, _, rfl, ho, by simp [hd, hd', Demand.stage?]⟩
  | released ho hd hr hd' => exact ⟨[_, _], _, _, rfl, ho, by simp [hd, hd', Demand.stage?]⟩
  | @deserted asks o ho h ih => exact ih (by cases o <;> simp_all [Owner.isReleasing, Owner.hasLease])
  | forgotten h ih => exact ih rfl
  | _ => simp [Owner.hasLease] at hl

end Stands

/-! ## Moving on -/

namespace Tenure

variable {s : Service} {t : Tenure}

/-- Whether an answer leads an acquisition to its result, to the next request or to a pause. -/
def MovesOn (s : Service) (t : Tenure) (d : Http.Delivery) : Prop :=
  (t.step s (.answered d)).acquired?.isSome ∨
    (∃ demand, (t.step s (.answered d)).asks = t.asking s demand :: Ask.replied t.now d t.asks) ∨
    (t.step s (.answered d)).owner = .contesting (.pausing (t.now + claimPause.nanos))

theorem contest_cases (s : Service) (t : Tenure) (c : Contest) :
    (t.contest s c).acquired?.isSome ∨
      (∃ demand, (t.contest s c).asks = t.asking s demand :: t.asks) ∨
      ∃ due, c = .pausing due ∧ (t.contest s c).owner = .contesting c := by
  cases c with
  | claiming => exact .inr (.inl ⟨_, rfl⟩)
  | looking => exact .inr (.inl ⟨_, rfl⟩)
  | waiting index => exact .inr (.inl ⟨_, rfl⟩)
  | pausing due => exact .inr (.inr ⟨due, rfl, rfl⟩)
  | granted => exact .inl rfl
  | failed f => exact .inr (.inl ⟨_, rfl⟩)

theorem movesOn_of_opening (ho : t.owner = .opening) (d : Http.Delivery) : t.MovesOn s d := by
  unfold MovesOn
  simp only [step, answer, ho]
  cases s.opened t.name t.ttl d with
  | ok session => exact .inr (.inl ⟨.claim session, rfl⟩)
  | error reason => exact .inl rfl

theorem movesOn_of_contesting {c : Contest} {demand : Demand} (ho : t.owner = .contesting c)
    (hc : c.demand? t.session = some demand) (d : Http.Delivery) : t.MovesOn s d := by
  have hstep : t.step s (.answered d) =
      (t.heard d).contest s (c.next s t.key t.session t.now d) := by
    simp only [step, answer, ho, hc]
  unfold MovesOn
  rw [hstep]
  rcases contest_cases s (t.heard d) (c.next s t.key t.session t.now d) with
    hdone | hasks | ⟨due, hpauses, howner⟩
  · exact .inl hdone
  · exact .inr (.inl hasks)
  · rw [howner, hpauses, Contest.due_of_next hc hpauses]
    exact .inr (.inr rfl)

end Tenure

/-! ## Every run -/

namespace Tenure

variable {s : Service} {t : Tenure}

theorem Sound.forward (h : t.Sound s) : t.asks.reverse.IsChain (Follows (t.terms s)) :=
  List.isChain_reverse.mpr h.course.chain

theorem acquired?_eq_ok_iff {lease : Lock.Lease} :
    t.acquired? = some (.ok lease) ↔ t.owner.hasLease ∧ lease = t.lease := by
  unfold acquired?
  cases t.owner <;> simp [Owner.hasLease, eq_comm]

namespace Sound

theorem opens {a b : Ask} {asks : List Ask} (h : t.Sound s) (hasks : t.asks.reverse = a :: b :: asks) :
    a.demand = .create ∧ b.demand = .claim t.session ∧
      ∃ r, a.reply = some r ∧ s.opened t.name t.ttl r.delivery = .ok t.session := by
  have hab : Follows (t.terms s) a b := by
    have := h.forward
    rw [hasks] at this
    exact (List.isChain_cons_cons.mp this).1
  obtain ⟨later, first, hlater, hfirst⟩ := h.course.begins
  obtain rfl : first = a := by
    rw [hlater, List.reverse_append] at hasks
    simpa using congrArg List.head? hasks
  obtain ⟨r, hr, ho, hb⟩ := hab.after_create hfirst
  exact ⟨hfirst, hb, r, hr, ho⟩

theorem granted {lease : Lock.Lease} (h : t.Sound s) (hl : t.acquired? = some (.ok lease)) :
    lease = t.lease ∧
    ∃ (created p : Ask) (before after : List Ask) (r r' : Reply) (response : Http.Response),
      t.asks.reverse = created :: before ++ p :: after ∧
      created.reply = some r ∧ s.opened t.name t.ttl r.delivery = .ok lease.session ∧
      p.demand = .claim lease.session ∧ p.reply = some r' ∧ r'.delivery = .answered response ∧
      response.json = .ok (.bool true) ∧ ∀ a ∈ after, a.demand.stage? = none := by
  obtain ⟨hhas, rfl⟩ := acquired?_eq_ok_iff.mp hl
  obtain ⟨newer, p, older, hasks, hp, hnewer⟩ := h.stands.exists_granted hhas
  obtain ⟨session, r', hd, hr', hclaimed⟩ := Ask.claim_of_granted hp
  obtain rfl : session = t.session := h.course.session_of_claim (by simp [hasks]) hd
  obtain ⟨-, response, hdelivery, -, hjson⟩ := Service.verdict_eq_ok_iff.mp hclaimed
  obtain ⟨created, before, holder⟩ : ∃ created before, older.reverse = created :: before := by
    rcases hrev : older.reverse with - | ⟨created, before⟩
    · -- the claim would be the first ask
      obtain ⟨later, first, hlater, hfirst⟩ := h.course.begins
      rw [List.reverse_eq_nil_iff.mp hrev, hlater] at hasks
      obtain ⟨-, rfl⟩ : later = newer ∧ first = p := by simpa using hasks
      simp [hd] at hfirst
    · exact ⟨created, before, rfl⟩
  have hreverse : t.asks.reverse = created :: before ++ p :: newer.reverse := by
    simp [hasks, holder]
  obtain ⟨b, rest, hrest⟩ : ∃ b rest, before ++ p :: newer.reverse = b :: rest :=
    List.exists_cons_of_ne_nil (by simp)
  obtain ⟨-, -, r, hr, ho⟩ := h.opens (hreverse.trans (by rw [List.cons_append, hrest]))
  exact ⟨rfl, created, p, before, newer.reverse, r, r', response, hreverse, hr, ho, hd, hr',
    hdelivery, hjson, fun a ha => hnewer a (List.mem_reverse.mp ha)⟩

theorem waits {p q : Ask} {before reads after : List Ask} (h : t.Sound s)
    (hasks : t.asks.reverse = before ++ (p :: reads ++ [q]) ++ after) (hp : p.demand.isClaim)
    (hq : q.demand.isClaim) (hreads : ∀ a ∈ reads, a.demand.isClaim = false) :
    Waits s t.key reads q := by
  have hchain := h.forward
  rw [hasks] at hchain
  exact waits_between_claims hchain.left_of_append.right_of_append hp hreads hq

/-- After the first request that fails there is only the end of the session. -/
theorem after_fails {a : Ask} {before after : List Ask} {f : Http.Failure} (h : t.Sound s)
    (hasks : t.asks.reverse = before ++ a :: after) (hf : a.Fails s t.key f) :
    ∃ b, after = [b] ∧ b.demand = .destroy t.session ∧
      (t.owner = .abandoned ∨ t.owner = .withdrawing f.text ∨
        t.owner = .refused (.acquire t.key f.text)) := by
  have hchain := h.forward
  rw [hasks] at hchain
  have hrev : t.asks = after.reverse ++ a :: before.reverse := by
    simpa using congrArg List.reverse hasks
  have hstands := h.stands
  rw [hrev] at hstands
  have ha : a.outcome? (t.terms s) = some (.failed f) :=
    (h.course.outcome?_eq_failed_iff (by simp [hrev])).mpr hf
  obtain ⟨stage, r, hstage, hr, hnext⟩ := Ask.outcome?_eq_some_iff.mp ha
  cases after with
  | nil => exact absurd ha hstands.last_not_failed
  | cons b after =>
    obtain ⟨hab, htail⟩ := List.isChain_cons_cons.mp hchain.right_of_append
    have hb : b.demand = .destroy t.session := by
      obtain ⟨r', hr', h⟩ := hab.after_stage hstage
      rw [hr] at hr'
      cases hr'
      rw [hnext] at h
      exact h
    cases after with
    | nil => exact ⟨b, rfl, hb, hstands.owner_of_failed ha hb⟩
    | cons c after =>
      exact absurd (List.isChain_cons_cons.mp htail).1 (Follows.after_destroy hb)

theorem fails {a : Ask} {before after : List Ask} {f : Http.Failure} (h : t.Sound s)
    (hasks : t.asks.reverse = before ++ a :: after) (hf : a.Fails s t.key f) :
    (∀ b ∈ after, b.demand.stage? = none) ∧
      (t.owner = .abandoned ∨ t.owner = .withdrawing f.text ∨
        t.owner = .refused (.acquire t.key f.text)) := by
  obtain ⟨b, rfl, hb, howner⟩ := h.after_fails hasks hf
  exact ⟨by simp [hb, Demand.stage?], howner⟩

theorem goesOn (h : t.Sound s) (ho : t.owner.isAcquiring) :
    (∀ d, t.MovesOn s d) ∨ ∃ due, t.owner = .contesting (.pausing due) ∧
      (due ≤ t.now → (t.step s .rested).asks = t.asking s (.claim t.session) :: t.asks) := by
  have hstands := h.stands
  generalize hasks : t.asks = asks at hstands
  generalize howner : t.owner = owner at ho hstands ⊢
  cases hstands with
  | opening hd hr => exact .inl (movesOn_of_opening howner)
  | contesting hd hr => exact .inl (movesOn_of_contesting howner hd)
  | @pausing a older due hpauses =>
    refine .inr ⟨due, rfl, fun hdue => ?_⟩
    simp only [Tenure.step, howner, if_pos hdue, Tenure.contest, Contest.demand?, ask, hasks]
  | withdrawing hfailed hd hr =>
    refine .inl fun d => .inl ?_
    simp [Tenure.step, Tenure.answer, howner, acquired?]
  | _ => cases ho

end Sound

/-- A claim that is refused although the key is free is made again after the pause. -/
example : ((start .loopback "k" "n" (.ofSeconds 15)).run .loopback
    [.answered (.answered (okay "\x7b\"ID\":\"a\"\x7d")), .answered (.answered (okay "false")),
      .answered (.answered (okay "[]")), .pass 999999999, .rested, .pass 1, .rested]).asks.reverse.map
    (fun a => (a.demand, a.time)) =
      [(.create, 0), (.claim "a", 0), (.look, 0), (.claim "a", 1000000000)] := by
  decide +kernel

end Tenure

end ChangeFeed.Consul
