import IbkrDx.Engine.Descriptions
import IbkrDx.Engine.SessionRejects
import IbkrDx.Lib.Grouping

/-!
# Option chains, asked one at a time and answered by underlying

A chain request states no number of its own, and a reply names an underlying and no request.  So one
request for each symbol and underlying id is on the wire at a time, and a reply goes to the first
request on the wire that it meets.

* **`chains_answered`** — where they do, each request is answered once, with its own underlying's
  chain, or refused.
-/

namespace IbkrDx

open Runs

/-! ## The desk -/

structure QueuedChain where
  reqId : ℕ
  symbol : String
  futFopExchange : String
  underlyingSecType : String
  underlyingConId : ℤ
  /-- Which request it is, in the order they are asked. -/
  ticket : ℕ
  /-- The id of the underlying the venue takes it to name. -/
  names : ℤ

structure WiredChain extends PendingChain where
  ticket : ℕ
  names : ℤ
  deriving DecidableEq

structure ChainScope (Listing : Type) where
  symbol : String
  underlyingConId : ℤ
  listing : Listing
  deriving DecidableEq

inductive ChainTold (Listing : Type) where
  /-- `push_option_params`. -/
  | answered (ticket reqId : ℕ) (conId : ℤ) (scopes : List (ChainScope Listing))
  /-- `push_historical_error`. -/
  | refused (ticket reqId : ℕ) (code : ℤ) (why : String)
  deriving DecidableEq

variable {Listing : Type}

def ChainTold.ticket : ChainTold Listing → ℕ
  | .answered ticket _ _ _ => ticket
  | .refused ticket _ _ _ => ticket

def caseless (s : String) : String := s.map Char.toLower

lemma eqIgnoreAsciiCase_iff {s t : String} :
    eqIgnoreAsciiCase s t = true ↔ caseless s = caseless t := decide_eq_true_iff

def PendingChain.key (p : PendingChain) : String × ℤ := (caseless p.symbol, p.conId)

def QueuedChain.key (q : QueuedChain) : String × ℤ := (caseless q.symbol, q.underlyingConId)

def WiredChain.underlying (w : WiredChain) : String × ℤ := (caseless w.symbol, w.names)

structure ChainDesk (Listing : Type) where
  connected : Bool := true
  /-- How many requests were written to the connections there were. -/
  written : ℕ := 0
  /-- The fields of those the connection took, but for the time. -/
  sent : List (List (ℕ × String)) := []
  pending : List WiredChain := []
  queued : List QueuedChain := []
  told : List (ChainTold Listing) := []
  asked : ℕ := 0
  venue : List WiredChain := []

namespace ChainDesk

variable (upper : String → String) (fails : ℕ → Option String)

def tell (t : ChainTold Listing) (d : ChainDesk Listing) : ChainDesk Listing :=
  { d with told := d.told ++ [t] }

def requestFields (q : QueuedChain) : List (ℕ × String) :=
  let futuresOption := q.futFopExchange ≠ "" ∧ q.underlyingSecType ≠ "FUT"
  [(35, "U"), (6040, "138"), (55, upper q.symbol)] ++
    (if q.underlyingSecType = "" then [] else [(310, q.underlyingSecType)]) ++
    [(if futuresOption then 6457 else 6346, toString q.underlyingConId), (6320, "1"),
      (6994, "1")] ++
    if q.underlyingSecType = "FUT" then [(6995, q.futFopExchange)] else []

def wired (q : QueuedChain) : WiredChain where
  reqId := q.reqId
  symbol := upper q.symbol
  conId := q.underlyingConId
  ticket := q.ticket
  names := q.names

/-- `send_option_params_request`: what cannot go out is refused. -/
def sendOptionParamsRequest (q : QueuedChain) (d : ChainDesk Listing) : ChainDesk Listing :=
  if d.connected then
    match fails d.written with
    | some why =>
        tell (.refused q.ticket q.reqId notConnected
          s!"option chain request could not be sent: {why}") { d with written := d.written + 1 }
    | none =>
        { d with
          written := d.written + 1
          sent := d.sent ++ [requestFields upper q]
          pending := d.pending ++ [wired upper q]
          venue := d.venue ++ [wired upper q] }
  else
    d.tell (.refused q.ticket q.reqId notConnected
      "option chain request could not be sent: no connection to the venue")

def chainOnTheWire (d : ChainDesk Listing) (q : QueuedChain) : Bool :=
  d.pending.any fun p => eqIgnoreAsciiCase p.symbol q.symbol && p.conId = q.underlyingConId

def sameChain (q q' : QueuedChain) : Bool :=
  eqIgnoreAsciiCase q'.symbol q.symbol && q'.underlyingConId = q.underlyingConId

def askOptionParams (q : QueuedChain) (d : ChainDesk Listing) : ChainDesk Listing :=
  if d.chainOnTheWire q || d.queued.any (sameChain q) then { d with queued := d.queued ++ [q] }
  else d.sendOptionParamsRequest upper fails q

/-- The walk over the requests held back, those walked past in front. -/
def sendNextFrom : ℕ → List QueuedChain → List QueuedChain → ChainDesk Listing → ChainDesk Listing
  | _, past, [], d => { d with queued := past }
  | left, past, q :: rest, d =>
      if left = 0 then { d with queued := past ++ q :: rest }
      else if past.any (sameChain q) || d.chainOnTheWire q then
        sendNextFrom left (past ++ [q]) rest d
      else sendNextFrom (left - 1) past rest (d.sendOptionParamsRequest upper fails q)

def sendNextOptionParams (left : ℕ) (d : ChainDesk Listing) : ChainDesk Listing :=
  sendNextFrom upper fails left [] d.queued d

def statedUnder (scopes : List (ChainScope Listing)) : Option ℤ :=
  (scopes.map ChainScope.underlyingConId).find? (· ≠ 0)

def meets (symbol : String) (stated : Option ℤ) (p : PendingChain) : Bool :=
  eqIgnoreAsciiCase p.symbol symbol && stated.all fun named => p.conId = 0 ∨ named = p.conId

/-- One underlying of a reply, answered to the first request it meets. -/
def answerUnderlying (d : ChainDesk Listing) (g : String × List (ChainScope Listing)) :
    ChainDesk Listing :=
  match d.pending.find? fun w => meets g.1 (statedUnder g.2) w.toPendingChain with
  | none => d
  | some w =>
      { d with
        pending := d.pending.eraseP fun w => meets g.1 (statedUnder g.2) w.toPendingChain
        told := d.told ++
          [.answered w.ticket w.reqId ((statedUnder g.2).getD w.conId) g.2] }

def byUnderlying (symbolTag : String) (scopes : List (ChainScope Listing)) :
    List (String × List (ChainScope Listing)) :=
  if scopes.isEmpty then [(symbolTag, [])]
  else Grouping.groups ChainScope.symbol caseless scopes

/-- `handle_option_chain`, of the listings a reply carries. -/
def handleOptionChain (symbolTag : String) (scopes : List (ChainScope Listing))
    (d : ChainDesk Listing) : ChainDesk Listing :=
  (byUnderlying symbolTag scopes).foldl answerUnderlying d

/-- The chain a reject refuses; `alone` says that no lookup and no search waits. -/
def refusedBy (m : SessionReject) (alone : Bool) (d : ChainDesk Listing) : Option WiredChain :=
  (m.stated.bind fun n => d.pending.find? (·.reqId == n)).or
    (if m.namedNothing ∧ d.pending.length = 1 ∧ alone then d.pending.head? else none)

def rejectChain (m : SessionReject) (alone : Bool) (d : ChainDesk Listing) : ChainDesk Listing :=
  match d.refusedBy m alone with
  | none => d
  | some w =>
      { d with
        pending := d.pending.eraseP (·.reqId == w.reqId)
        told := d.told ++
          [.refused w.ticket w.reqId noDefinition s!"option chain request rejected: {m.why}"] }

def wentAwayFor (ticket reqId : ℕ) : ChainTold Listing :=
  .refused ticket reqId notConnected Lookups.wentAway

/-- `fail_pending_lookups`, of the chains. -/
def failPendingLookups (d : ChainDesk Listing) : ChainDesk Listing :=
  { d with
    connected := false
    pending := []
    queued := []
    venue := []
    told := d.told ++ d.pending.map (fun w => wentAwayFor w.ticket w.reqId) ++
      d.queued.map fun q => wentAwayFor q.ticket q.reqId }

end ChainDesk

/-! ## Events -/

/-- What happens to the chain requests.  Whom the venue answers is said beside what it sends. -/
inductive ChainEvent (Listing : Type) where
  | asks (reqId : ℕ) (symbol futFopExchange underlyingSecType : String) (conId names : ℤ)
  | sendsNext (left : ℕ)
  | reply (symbolTag : String) (scopes : List (ChainScope Listing)) (owners : List WiredChain)
  | reject (m : SessionReject) (alone : Bool) (owner : Option WiredChain)
  | drops
  | connects

namespace ChainDesk

def settle (owners : List WiredChain) (d : ChainDesk Listing) : ChainDesk Listing :=
  { d with venue := d.venue.diff owners }

def step (upper : String → String) (fails : ℕ → Option String) (d : ChainDesk Listing) :
    ChainEvent Listing → ChainDesk Listing
  | .asks reqId symbol futFopExchange underlyingSecType conId names =>
      askOptionParams upper fails
        ⟨reqId, symbol, futFopExchange, underlyingSecType, conId, d.asked, names⟩
        { d with asked := d.asked + 1 }
  | .sendsNext left => d.sendNextOptionParams upper fails left
  | .reply symbolTag scopes owners => (d.handleOptionChain symbolTag scopes).settle owners
  | .reject m alone owner => (d.rejectChain m alone).settle owner.toList
  | .drops => d.failPendingLookups
  | .connects => { d with connected := true }

end ChainDesk

def ChainScope.Of (s : ChainScope Listing) (t : WiredChain) : Prop :=
  caseless s.symbol = caseless t.symbol ∧
    (s.underlyingConId = t.names ∨ t.conId = 0 ∧ s.underlyingConId = 0)

instance (s : ChainScope Listing) (t : WiredChain) : Decidable (s.Of t) :=
  inferInstanceAs (Decidable (_ ∧ _))

/-- **How a venue answers.**  A request that states an id names that underlying.  A reply answers
requests it has, one an underlying, with listings that state the underlying's id where the request
did; or it has no listing, and names the symbol of the one it answers. -/
def ChainDesk.Lawful (d : ChainDesk Listing) : ChainEvent Listing → Prop
  | .asks _ _ _ _ conId names => conId ≠ 0 → names = conId
  | .reply symbolTag scopes owners =>
      owners.Subperm d.venue ∧ (owners.map WiredChain.underlying).Nodup ∧
        if scopes.isEmpty then owners.map (fun t => caseless t.symbol) = [caseless symbolTag]
        else (∀ s ∈ scopes, ∃ t ∈ owners, s.Of t) ∧ ∀ t ∈ owners, ∃ s ∈ scopes, s.Of t
  | .reject _ _ owner => ∀ t ∈ owner, t ∈ d.venue
  | _ => True

/-- The requests on the wire for a symbol, in front of the first for this underlying. -/
def aheadOf (pending : List WiredChain) (t : WiredChain) : List WiredChain :=
  (pending.filter fun w => decide (caseless w.symbol = caseless t.symbol)).takeWhile fun w =>
    decide (w.underlying ≠ t.underlying)

/-- **Where the requests are told apart.**  The upper case of a symbol asked for is its own but for
the case of ASCII letters, or nothing of that upper case is out under the id.  A reply answers one
underlying a symbol, and in front of the requests for it no request for the same symbol stands that
states no id, and none at all where the reply states none.  A reject names a number the first
request under which is for the underlying refused, or it names nothing and the chain is all that
waits; what refuses no chain names none, and leaves none to be taken. -/
def ChainDesk.ToldApart (upper : String → String) (d : ChainDesk Listing) :
    ChainEvent Listing → Prop
  | .asks _ symbol _ _ conId _ =>
      caseless (upper symbol) = caseless symbol ∨
        (caseless (upper symbol), conId) ∉ (d.pending.map fun w => w.key) ∧
          ∀ q ∈ d.queued, (caseless (upper q.symbol), q.underlyingConId) ≠
            (caseless (upper symbol), conId)
  | .reply _ scopes owners =>
      (owners.map fun t => caseless t.symbol).Nodup ∧
        ∀ t ∈ owners, ∀ w ∈ aheadOf d.pending t,
          w.conId ≠ 0 ∧ ∃ s ∈ scopes, s.Of t ∧ s.underlyingConId ≠ 0
  | .reject m alone (some t) =>
      (∃ n ∈ m.stated, ∃ w ∈ d.pending.find? (·.reqId == n), w.underlying = t.underlying) ∨
        m.namedNothing = true ∧ alone = true ∧ d.pending.length = 1
  | .reject m alone none =>
      (∀ n ∈ m.stated, ∀ w ∈ d.pending, w.reqId ≠ n) ∧
        ¬ (m.namedNothing = true ∧ alone = true ∧ d.pending.length = 1)
  | _ => True

instance (d : ChainDesk Listing) : DecidablePred d.Lawful
  | .asks _ _ _ _ conId names => inferInstanceAs (Decidable (conId ≠ 0 → names = conId))
  | .reply symbolTag scopes owners =>
      inferInstanceAs (Decidable (owners.Subperm d.venue ∧
        (owners.map WiredChain.underlying).Nodup ∧
          if scopes.isEmpty then owners.map (fun t => caseless t.symbol) = [caseless symbolTag]
          else (∀ s ∈ scopes, ∃ t ∈ owners, s.Of t) ∧ ∀ t ∈ owners, ∃ s ∈ scopes, s.Of t))
  | .reject _ _ owner => inferInstanceAs (Decidable (∀ t ∈ owner, t ∈ d.venue))
  | .sendsNext _ | .drops | .connects => isTrue trivial

instance (upper : String → String) (d : ChainDesk Listing) : DecidablePred (d.ToldApart upper)
  | .asks _ symbol _ _ conId _ =>
      inferInstanceAs (Decidable (caseless (upper symbol) = caseless symbol ∨
        (caseless (upper symbol), conId) ∉ (d.pending.map fun w => w.key) ∧
          ∀ q ∈ d.queued, (caseless (upper q.symbol), q.underlyingConId) ≠
            (caseless (upper symbol), conId)))
  | .reply _ scopes owners =>
      inferInstanceAs (Decidable ((owners.map fun t => caseless t.symbol).Nodup ∧
        ∀ t ∈ owners, ∀ w ∈ aheadOf d.pending t,
          w.conId ≠ 0 ∧ ∃ s ∈ scopes, s.Of t ∧ s.underlyingConId ≠ 0))
  | .reject m alone (some t) =>
      inferInstanceAs (Decidable ((∃ n ∈ m.stated,
        ∃ w ∈ d.pending.find? (·.reqId == n), w.underlying = t.underlying) ∨
          m.namedNothing = true ∧ alone = true ∧ d.pending.length = 1))
  | .reject m alone none =>
      inferInstanceAs (Decidable ((∀ n ∈ m.stated, ∀ w ∈ d.pending, w.reqId ≠ n) ∧
        ¬ (m.namedNothing = true ∧ alone = true ∧ d.pending.length = 1)))
  | .sendsNext _ | .drops | .connects => isTrue trivial

/-! ## What a run keeps -/

/-- What holds of the chain requests, those held back given apart. -/
structure ChainsKept (d : ChainDesk Listing) (held : List QueuedChain) : Prop where
  /-- A request that states an id names that underlying. -/
  named : ∀ w ∈ d.pending, w.conId ≠ 0 → w.names = w.conId
  heldNamed : ∀ q ∈ held, q.underlyingConId ≠ 0 → q.names = q.underlyingConId
  /-- One request for each symbol and id is on the wire. -/
  oneEach : (d.pending.map fun w => w.key).Nodup
  /-- What the venue has still to answer is what is waited for. -/
  matched : (d.pending.map WiredChain.underlying).Perm (d.venue.map WiredChain.underlying)
  /-- Each request is told of once, or on the wire, or held back. -/
  ledger : (d.told.map ChainTold.ticket ++ d.pending.map WiredChain.ticket ++
    held.map QueuedChain.ticket).Perm (List.range d.asked)
  inTurn : held.Pairwise fun q q' => q.ticket < q'.ticket
  /-- and behind what is on the wire for the same symbol and id. -/
  behind : ∀ w ∈ d.pending, ∀ q ∈ held, w.key = q.key → w.ticket < q.ticket

namespace ChainDesk

variable {upper : String → String} {fails : ℕ → Option String} {d : ChainDesk Listing}

lemma chainOnTheWire_iff {q : QueuedChain} :
    d.chainOnTheWire q = true ↔ q.key ∈ d.pending.map fun w => w.key := by
  simp only [chainOnTheWire, List.any_eq_true, Bool.and_eq_true, eqIgnoreAsciiCase_iff,
    decide_eq_true_eq, List.mem_map, PendingChain.key, QueuedChain.key, Prod.mk.injEq]

lemma sameChain_iff {q q' : QueuedChain} : sameChain q q' = true ↔ q'.key = q.key := by
  simp only [sameChain, Bool.and_eq_true, eqIgnoreAsciiCase_iff, decide_eq_true_eq,
    QueuedChain.key, Prod.mk.injEq]

lemma send_cases (upper : String → String) (fails : ℕ → Option String) (q : QueuedChain)
    (d : ChainDesk Listing) :
    let d' := d.sendOptionParamsRequest upper fails q
    d'.queued = d.queued ∧ d'.asked = d.asked ∧
      (d'.pending = d.pending ∧ d'.venue = d.venue ∧
          (∃ t, d'.told = d.told ++ [t] ∧ t.ticket = q.ticket) ∨
        d'.pending = d.pending ++ [wired upper q] ∧ d'.venue = d.venue ++ [wired upper q] ∧
          d'.told = d.told) := by
  unfold sendOptionParamsRequest
  by_cases hconnected : d.connected = true
  · simp only [if_pos hconnected]
    cases fails d.written with
    | some why => exact ⟨rfl, rfl, .inl ⟨rfl, rfl, _, rfl, rfl⟩⟩
    | none => exact ⟨rfl, rfl, .inr ⟨rfl, rfl, rfl⟩⟩
  · simp only [if_neg hconnected]
    exact ⟨rfl, rfl, .inl ⟨rfl, rfl, _, rfl, rfl⟩⟩

lemma pending_prefix_send (upper : String → String) (fails : ℕ → Option String) (q : QueuedChain)
    (d : ChainDesk Listing) : d.pending <+: (d.sendOptionParamsRequest upper fails q).pending := by
  obtain ⟨-, -, ⟨hpending, -⟩ | ⟨hpending, -⟩⟩ := send_cases upper fails q d
  · exact hpending ▸ List.prefix_rfl
  · exact hpending ▸ List.prefix_append _ _

lemma mem_pending_send {q : QueuedChain} {w : WiredChain}
    (hw : w ∈ (d.sendOptionParamsRequest upper fails q).pending) :
    w ∈ d.pending ∨ w = wired upper q := by
  obtain ⟨-, -, ⟨hpending, -⟩ | ⟨hpending, -⟩⟩ := send_cases upper fails q d
  · exact .inl (hpending ▸ hw)
  · rw [hpending] at hw
    exact (List.mem_append.1 hw).imp_right List.mem_singleton.1

end ChainDesk

namespace ChainsKept

variable {upper : String → String} {d : ChainDesk Listing}
  {held l r : List QueuedChain} {q : QueuedChain}

open ChainDesk

lemma send (fails : ℕ → Option String) (h : ChainsKept d (l ++ q :: r))
    (hwire : (wired upper q).key ∉ d.pending.map fun w => w.key)
    (hfirst : ∀ q' ∈ l, q'.key ≠ (wired upper q).key) :
    ChainsKept (d.sendOptionParamsRequest upper fails q) (l ++ r) := by
  have hq : q ∈ l ++ q :: r := List.mem_append_right _ List.mem_cons_self
  have hsub : (l ++ r).Sublist (l ++ q :: r) := (List.sublist_cons_self q r).append_left l
  have hheldNamed := fun q' hq' => h.heldNamed q' (hsub.subset hq')
  have hinTurn := h.inTurn.sublist hsub
  obtain ⟨-, hasked, ⟨hpending, hvenue, t, htold, ht⟩ | ⟨hpending, hvenue, htold⟩⟩ :=
    send_cases upper fails q d
  · refine ⟨hpending ▸ h.named, hheldNamed, hpending ▸ h.oneEach,
      hpending ▸ hvenue ▸ h.matched, ?_, hinTurn, ?_⟩
    · rw [hasked, hpending, htold]
      refine List.Perm.trans ?_ h.ledger
      simp only [List.map_append, List.map_cons, List.map_nil, ht, List.append_assoc]
      refine List.Perm.append_left _ ?_
      rw [List.singleton_append, ← List.append_assoc, ← List.append_assoc]
      exact List.perm_middle.symm
    · rw [hpending]
      exact fun w hw q' hq' => h.behind w hw q' (hsub.subset hq')
  · refine ⟨?_, hheldNamed, ?_, ?_, ?_, hinTurn, ?_⟩
    · rw [hpending]
      intro w hw hne
      rcases List.mem_append.1 hw with hw | hw
      · exact h.named w hw hne
      · rw [List.mem_singleton.1 hw] at hne ⊢
        exact h.heldNamed q hq hne
    · rw [hpending, List.map_append, List.map_singleton]
      exact h.oneEach.append (List.nodup_singleton _) (by simpa using hwire)
    · rw [hpending, hvenue, List.map_append, List.map_append]
      exact h.matched.append_right _
    · rw [hasked, hpending, htold]
      refine List.Perm.trans ?_ h.ledger
      simp only [List.map_append, List.map_cons, List.map_nil, List.append_assoc]
      refine List.Perm.append_left _ (List.Perm.append_left _ ?_)
      rw [List.singleton_append]
      exact List.perm_middle.symm
    · rw [hpending]
      intro w hw q' hq' hsame
      rcases List.mem_append.1 hw with hw | hw
      · exact h.behind w hw q' (hsub.subset hq') hsame
      · rw [List.mem_singleton.1 hw] at hsame ⊢
        rcases List.mem_append.1 hq' with hl | hr
        · exact absurd hsame.symm (hfirst q' hl)
        · exact (List.pairwise_cons.1 (List.pairwise_append.1 h.inTurn).2.1).1 q' hr

lemma asks (h : ChainsKept d held) (hnamed : q.underlyingConId ≠ 0 → q.names = q.underlyingConId)
    (hticket : q.ticket = d.asked) :
    ChainsKept { d with asked := d.asked + 1 } (held ++ [q]) := by
  have hlt : ∀ n ∈ d.told.map ChainTold.ticket ++ d.pending.map WiredChain.ticket ++
      held.map QueuedChain.ticket, n < d.asked := fun n hn =>
    List.mem_range.1 (h.ledger.subset hn)
  refine ⟨h.named, ?_, h.oneEach, h.matched, ?_, ?_, ?_⟩
  · intro q' hq'
    rcases List.mem_append.1 hq' with hq' | hq'
    · exact h.heldNamed q' hq'
    · rw [List.mem_singleton.1 hq']
      exact hnamed
  · rw [List.range_succ, List.map_append, List.map_singleton, hticket, ← List.append_assoc]
    exact h.ledger.append_right _
  · refine List.pairwise_append.2 ⟨h.inTurn, List.pairwise_singleton _ _, fun q' hq' q'' hq'' => ?_⟩
    rw [List.mem_singleton.1 hq'', hticket]
    exact hlt _ (List.mem_append_right _ (List.mem_map_of_mem hq'))
  · intro w hw q' hq' hsame
    rcases List.mem_append.1 hq' with hq' | hq'
    · exact h.behind w hw q' hq' hsame
    · rw [List.mem_singleton.1 hq', hticket]
      exact hlt _ (List.mem_append_left _ (List.mem_append_right _ (List.mem_map_of_mem hw)))

lemma of_queue (h : ChainsKept d held) (queue : List QueuedChain) :
    ChainsKept { d with queued := queue } held :=
  ⟨h.named, h.heldNamed, h.oneEach, h.matched, h.ledger, h.inTurn, h.behind⟩

lemma settled (h : ChainsKept d held) {d' : ChainDesk Listing}
    {ds : List (ChainTold Listing)} (hsub : d'.pending.Sublist d.pending)
    (hmatched : (d'.pending.map WiredChain.underlying).Perm (d'.venue.map WiredChain.underlying))
    (htold : d'.told = d.told ++ ds) (hasked : d'.asked = d.asked)
    (htickets : (ds.map ChainTold.ticket ++ d'.pending.map WiredChain.ticket).Perm
      (d.pending.map WiredChain.ticket)) : ChainsKept d' held where
  named w hw := h.named w (hsub.subset hw)
  heldNamed := h.heldNamed
  oneEach := h.oneEach.sublist (hsub.map _)
  matched := hmatched
  ledger := by
    rw [htold, hasked, List.map_append]
    refine List.Perm.trans ?_ h.ledger
    simp only [List.append_assoc]
    refine List.Perm.append_left _ ?_
    rw [← List.append_assoc]
    exact htickets.append_right _
  inTurn := h.inTurn
  behind w hw := h.behind w (hsub.subset hw)

end ChainsKept

/-! ## Sending in turn -/

namespace ChainDesk

variable {upper : String → String} {fails : ℕ → Option String}

def PlainSymbols (upper : String → String) (held : List QueuedChain) : Prop :=
  ∀ q ∈ held, caseless (upper q.symbol) = caseless q.symbol

/-- What the walk over the requests held back leaves. -/
structure SentOn (upper : String → String) (d d' : ChainDesk Listing) (left : ℕ)
    (past rest : List QueuedChain) : Prop where
  kept : ChainsKept d' d'.queued
  wire : d.pending <+: d'.pending
  joined : ∀ w ∈ d'.pending, w ∈ d.pending ∨ ∃ q ∈ past ++ rest, w = wired upper q
  queue : d'.queued.Sublist (past ++ rest)
  /-- and what is still held waits for the same on the wire, unless the pass was too short. -/
  waits : rest.length ≤ left → ∀ q ∈ d'.queued, d'.chainOnTheWire q = true

lemma chainOnTheWire_of_prefix {d d' : ChainDesk Listing} (h : d.pending <+: d'.pending)
    {q : QueuedChain} (hq : d.chainOnTheWire q = true) : d'.chainOnTheWire q = true := by
  rw [chainOnTheWire_iff] at hq ⊢
  exact (h.map _).subset hq

lemma sendNextFrom_sentOn : ∀ {rest : List QueuedChain} {left : ℕ} {past : List QueuedChain}
    {d : ChainDesk Listing}, ChainsKept d (past ++ rest) → PlainSymbols upper (past ++ rest) →
    (∀ q ∈ past, d.chainOnTheWire q = true) →
    SentOn upper d (sendNextFrom upper fails left past rest d) left past rest
  | [], left, past, d, h, _, hpast => by
      rw [sendNextFrom]
      refine ⟨?_, List.prefix_rfl, fun w hw => .inl hw, by simp, fun _ => hpast⟩
      simpa using h.of_queue past
  | q :: rest, left, past, d, h, hplain, hpast => by
      unfold sendNextFrom
      by_cases hleft : left = 0
      · rw [if_pos hleft]
        refine ⟨h.of_queue _, List.prefix_rfl, fun w hw => .inl hw, List.Sublist.refl _,
          fun hle => ?_⟩
        rw [hleft, List.length_cons] at hle
        omega
      · rw [if_neg hleft]
        by_cases hwaits : past.any (sameChain q) || d.chainOnTheWire q
        · rw [if_pos hwaits]
          -- An earlier one walked past waits for the same on the wire.
          have hq : d.chainOnTheWire q = true := by
            rcases (Bool.or_eq_true _ _).mp hwaits with hpastq | hq
            · obtain ⟨e, he, hsame⟩ := List.any_eq_true.1 hpastq
              have hwire := chainOnTheWire_iff.1 (hpast e he)
              rw [sameChain_iff.1 hsame] at hwire
              exact chainOnTheWire_iff.2 hwire
            · exact hq
          have hpast' : ∀ e ∈ past ++ [q], d.chainOnTheWire e = true := by
            intro e he
            rcases List.mem_append.1 he with he | he
            · exact hpast e he
            · exact List.mem_singleton.1 he ▸ hq
          have hrest : SentOn upper d (sendNextFrom upper fails left (past ++ [q]) rest d) _ _ _ :=
            sendNextFrom_sentOn (by simpa using h) (by simpa using hplain) hpast'
          refine ⟨hrest.kept, hrest.wire, by simpa using hrest.joined, by simpa using hrest.queue,
            fun hle => hrest.waits ?_⟩
          rw [List.length_cons] at hle
          omega
        · rw [if_neg hwaits]
          rw [Bool.or_eq_true, not_or] at hwaits
          have hkey : (wired upper q).key = q.key :=
            Prod.ext (hplain q (List.mem_append_right _ List.mem_cons_self)) rfl
          have hwire : (wired upper q).key ∉ d.pending.map fun w => w.key :=
            fun hcon => hwaits.2 (chainOnTheWire_iff.2 (hkey ▸ hcon))
          have hfirst : ∀ q' ∈ past, q'.key ≠ (wired upper q).key := by
            intro q' hq' hsame
            exact hwaits.1 (List.any_eq_true.2 ⟨q', hq', sameChain_iff.2 (hsame.trans hkey)⟩)
          have hsub : (past ++ rest).Sublist (past ++ q :: rest) :=
            (List.sublist_cons_self q rest).append_left past
          have hsent := h.send fails hwire hfirst
          have hprefix := pending_prefix_send upper fails q d
          have hrest : SentOn upper _ (sendNextFrom upper fails (left - 1) past rest _) _ _ _ :=
            sendNextFrom_sentOn hsent (fun e he => hplain e (hsub.subset he)) fun e he =>
              chainOnTheWire_of_prefix hprefix (hpast e he)
          refine ⟨hrest.kept, hprefix.trans hrest.wire, fun w hw => ?_, hrest.queue.trans hsub,
            fun hle => hrest.waits ?_⟩
          · rcases hrest.joined w hw with hw | ⟨q', hq', rfl⟩
            · rcases mem_pending_send hw with hw | rfl
              · exact .inl hw
              · exact .inr ⟨q, List.mem_append_right _ List.mem_cons_self, rfl⟩
            · exact .inr ⟨q', hsub.subset hq', rfl⟩
          rw [List.length_cons] at hle
          omega

end ChainDesk

/-! ## One reply -/

def ChainTold.Answers (pending : List WiredChain) (scopes : List (ChainScope Listing))
    (t : WiredChain) (a : ChainTold Listing) : Prop :=
  ∃ w ∈ pending, w.underlying = t.underlying ∧
    ∃ conId, a = .answered w.ticket w.reqId conId (scopes.filter (·.Of t)) ∧
      (conId = t.names ∨ (∀ s ∈ scopes, s.Of t → s.underlyingConId = 0) ∧ conId = w.conId)

/-- One underlying of a reply, and the request the venue answers with it. -/
structure FitsOwner (pending : List WiredChain) (scopes : List (ChainScope Listing))
    (g : String × List (ChainScope Listing)) (t : WiredChain) : Prop where
  symbol : caseless g.1 = caseless t.symbol
  listings : g.2 = scopes.filter (·.Of t)
  ahead : ∀ w ∈ aheadOf pending t, w.conId ≠ 0 ∧ ∃ s ∈ scopes, s.Of t ∧ s.underlyingConId ≠ 0

namespace ChainDesk

variable {scopes : List (ChainScope Listing)}

lemma statedUnder_filter {t : WiredChain} {u : ℤ}
    (h : statedUnder (scopes.filter (·.Of t)) = some u) : u = t.names := by
  have hmem := List.mem_of_find?_eq_some h
  have hne : u ≠ 0 := by simpa using List.find?_some h
  obtain ⟨s, hs, rfl⟩ := List.mem_map.1 hmem
  rcases (of_decide_eq_true (List.mem_filter.1 hs).2).2 with hnames | ⟨-, hzero⟩
  · exact hnames
  · exact absurd hzero hne

lemma statedUnder_eq_none :
    statedUnder scopes = none ↔ ∀ s ∈ scopes, s.underlyingConId = 0 := by
  simp [statedUnder, List.find?_eq_none]

variable {pending : List WiredChain}

lemma other_of_mem_aheadOf {t w : WiredChain}
    (h : w ∈ aheadOf pending t) : w.underlying ≠ t.underlying := by
  unfold aheadOf at h
  simpa using List.mem_takeWhile_imp h

lemma find_meets
    {g : String × List (ChainScope Listing)} {t : WiredChain} (hfits : FitsOwner pending scopes g t)
    (hnamed : ∀ w ∈ pending, w.conId ≠ 0 → w.names = w.conId)
    (hmem : t.underlying ∈ pending.map WiredChain.underlying) :
    ∃ w, pending.find? (fun w => meets g.1 (statedUnder g.2) w.toPendingChain) = some w ∧
      w.underlying = t.underlying := by
  set met : WiredChain → Bool := fun w => meets g.1 (statedUnder g.2) w.toPendingChain with hmet
  have hmeets : ∀ w, met w = true ↔ caseless w.symbol = caseless t.symbol ∧
      ∀ u, statedUnder g.2 = some u → w.conId = 0 ∨ u = w.conId := by
    intro w
    rw [hmet]
    simp only [meets, Bool.and_eq_true, eqIgnoreAsciiCase_iff, hfits.symbol, Option.all_eq_true,
      decide_eq_true_eq]
  have hstated : ∀ u, statedUnder g.2 = some u → u = t.names := by
    intro u hu
    rw [hfits.listings] at hu
    exact statedUnder_filter hu
  set q := pending.filter fun w => decide (caseless w.symbol = caseless t.symbol) with hq
  have hfind : pending.find? met = q.find? met := by
    rw [hq, List.find?_filter]
    refine congrArg (fun p => List.find? p pending) (funext fun w => ?_)
    by_cases hw : met w = true
    · simp [hw, ((hmeets w).1 hw).1]
    · simp [Bool.not_eq_true _ |>.mp hw]
  have hskip : ∀ w ∈ aheadOf pending t, met w = false := by
    intro w hw
    obtain ⟨hne, s, hs, hof, hstates⟩ := hfits.ahead w hw
    have hsome : statedUnder g.2 ≠ none := by
      rw [hfits.listings, Ne, statedUnder_eq_none]
      exact fun hall => hstates (hall s (List.mem_filter.2 ⟨hs, decide_eq_true hof⟩))
    obtain ⟨u, hu⟩ := Option.ne_none_iff_exists'.1 hsome
    refine Bool.eq_false_iff.2 fun hcon => ?_
    obtain ⟨hsymbol, hid⟩ := (hmeets w).1 hcon
    have hwmem : w ∈ pending := (List.mem_filter.1 ((List.takeWhile_prefix _).subset hw)).1
    have hnames : w.names = t.names := by
      rw [hnamed w hwmem hne, ← (hid u hu).resolve_left hne, hstated u hu]
    exact other_of_mem_aheadOf hw (Prod.ext hsymbol hnames)
  have hfound : ∀ w ∈ q, w.underlying = t.underlying → met w = true := by
    intro w hwq hw
    refine (hmeets w).2 ⟨congrArg Prod.fst hw, fun u hu => ?_⟩
    by_cases hzero : w.conId = 0
    · exact .inl hzero
    · have hnames : w.names = t.names := congrArg Prod.snd hw
      have hwmem : w ∈ pending := (List.mem_filter.1 hwq).1
      exact .inr ((hstated u hu).trans (hnames.symm.trans (hnamed w hwmem hzero)))
  obtain ⟨x, hx, hxt⟩ := List.mem_map.1 hmem
  have hxq : x ∈ q := List.mem_filter.2 ⟨hx, decide_eq_true (congrArg Prod.fst hxt)⟩
  rw [hfind]
  exact Removal.find?_of_takeWhile hskip hfound ⟨x, hxq, hxt⟩

lemma aheadOf_eraseP {p : WiredChain → Bool} {w t : WiredChain}
    (hw : pending.find? p = some w) (hne : caseless w.symbol ≠ caseless t.symbol) :
    aheadOf (pending.eraseP p) t = aheadOf pending t := by
  obtain ⟨hp, l, r, rfl, hl⟩ := List.find?_eq_some_iff_append.1 hw
  have herase : (l ++ w :: r).eraseP p = l ++ r := by
    rw [List.eraseP_append_right _ (by simpa using hl), List.eraseP_cons_of_pos hp]
  simp only [aheadOf, herase, List.filter_append, List.filter_cons, hne, decide_false,
    Bool.false_eq_true, if_false]

lemma forall₂_imp_of_mem {α β : Type*} {R S : α → β → Prop} : ∀ {l : List α} {l' : List β},
    (∀ a, ∀ b ∈ l', R a b → S a b) → List.Forall₂ R l l' → List.Forall₂ S l l'
  | _, _, _, .nil => .nil
  | _, _, h, .cons hab hrest => .cons (h _ _ List.mem_cons_self hab)
      (forall₂_imp_of_mem (fun a b hb => h a b (List.mem_cons_of_mem _ hb)) hrest)

lemma answerAll (pending : List WiredChain) :
    ∀ {gs : List (String × List (ChainScope Listing))} {ts : List WiredChain}
      {d : ChainDesk Listing}, d.pending.Sublist pending →
    List.Forall₂ (FitsOwner d.pending scopes) gs ts →
    (∀ w ∈ d.pending, w.conId ≠ 0 → w.names = w.conId) →
    (ts.map fun t => caseless t.symbol).Nodup →
    (ts.map WiredChain.underlying).Subperm (d.pending.map WiredChain.underlying) →
    ∃ rest ds, gs.foldl answerUnderlying d = { d with pending := rest, told := d.told ++ ds } ∧
      rest.Sublist d.pending ∧
      (ts.map WiredChain.underlying ++ rest.map WiredChain.underlying).Perm
        (d.pending.map WiredChain.underlying) ∧
      (ds.map ChainTold.ticket ++ rest.map WiredChain.ticket).Perm
        (d.pending.map WiredChain.ticket) ∧
      List.Forall₂ (ChainTold.Answers pending scopes) ts ds
  | [], _, d, _, .nil, _, _, _ =>
      ⟨d.pending, [], by simp, List.Sublist.refl _, List.Perm.refl _, List.Perm.refl _, .nil⟩
  | g :: gs, t :: ts, d, hsub, .cons hfits hrest, hnamed, hnodup, hsubperm => by
      rw [List.map_cons, List.nodup_cons] at hnodup
      obtain ⟨w, hfind, hw⟩ := find_meets hfits hnamed
        (hsubperm.subset (List.mem_map_of_mem List.mem_cons_self))
      set met : WiredChain → Bool := fun w => meets g.1 (statedUnder g.2) w.toPendingChain
        with hmet
      have hperm := Removal.perm_eraseP hfind
      have herased : (d.pending.eraseP met).Sublist d.pending := List.eraseP_sublist
      have hanswered : d.answerUnderlying g =
          { d with
            pending := d.pending.eraseP met
            told := d.told ++
              [.answered w.ticket w.reqId ((statedUnder g.2).getD w.conId) g.2] } := by
        rw [answerUnderlying]
        simp only [← hmet, hfind]
      have hother : ∀ t' ∈ ts, caseless w.symbol ≠ caseless t'.symbol := by
        intro t' ht' hsame
        have hwt : caseless w.symbol = caseless t.symbol := congrArg Prod.fst hw
        exact hnodup.1 (List.mem_map.2 ⟨t', ht', (hwt.symm.trans hsame).symm⟩)
      have hunderlyings : (d.pending.map WiredChain.underlying).Perm
          (t.underlying :: (d.pending.eraseP met).map WiredChain.underlying) := by
        have hmap := hperm.map WiredChain.underlying
        rwa [List.map_cons, hw] at hmap
      have hsubperm' : (ts.map WiredChain.underlying).Subperm
          ((d.pending.eraseP met).map WiredChain.underlying) :=
        (List.subperm_cons _).1 (hsubperm.trans hunderlyings.subperm)
      have hrest' : List.Forall₂ (FitsOwner (d.pending.eraseP met) scopes) gs ts := by
        refine forall₂_imp_of_mem (fun g' t' ht' hfits' => ?_) hrest
        exact ⟨hfits'.symbol, hfits'.listings, by
          rw [aheadOf_eraseP hfind (hother t' ht')]
          exact hfits'.ahead⟩
      obtain ⟨rest, ds, hfold, hrestsub, hunder, htickets, hanswers⟩ :=
        answerAll pending (d := d.answerUnderlying g) (by rw [hanswered]; exact herased.trans hsub)
          (by rw [hanswered]; exact hrest')
          (by rw [hanswered]; exact fun w hw => hnamed w (herased.subset hw)) hnodup.2
          (by rw [hanswered]; exact hsubperm')
      rw [hanswered] at hfold hrestsub hunder htickets
      refine ⟨rest, .answered w.ticket w.reqId ((statedUnder g.2).getD w.conId) g.2 :: ds, ?_,
        hrestsub.trans herased, ?_, ?_, .cons ?_ hanswers⟩
      · rw [List.foldl_cons, hanswered, hfold]
        simp
      · exact (hunder.cons _).trans hunderlyings.symm
      · exact (htickets.cons _).trans (hperm.map WiredChain.ticket).symm
      · refine ⟨w, hsub.subset (List.mem_of_find?_eq_some hfind), hw, _, by rw [← hfits.listings],
          ?_⟩
        cases hstated : statedUnder g.2 with
        | some u =>
            rw [hfits.listings] at hstated
            exact .inl (statedUnder_filter hstated)
        | none =>
            rw [hfits.listings, statedUnder_eq_none] at hstated
            exact .inr ⟨fun s hs hof => hstated s (List.mem_filter.2 ⟨hs, decide_eq_true hof⟩), rfl⟩

lemma map_eq_of_forall₂ {α β γ : Type*} {R : α → β → Prop} {f : α → γ} {g : β → γ}
    (h : ∀ a b, R a b → f a = g b) : ∀ {l : List α} {l' : List β}, List.Forall₂ R l l' →
      l.map f = l'.map g
  | _, _, .nil => rfl
  | _, _, .cons hab hrest => by
      rw [List.map_cons, List.map_cons, h _ _ hab, map_eq_of_forall₂ h hrest]

lemma exists_forall₂ {α β : Type*} {R : α → β → Prop} {l' : List β} : ∀ {l : List α},
    (∀ a ∈ l, ∃ b ∈ l', R a b) → ∃ bs, List.Forall₂ R l bs ∧ ∀ b ∈ bs, b ∈ l'
  | [], _ => ⟨[], .nil, by simp⟩
  | a :: l, h => by
      obtain ⟨b, hb, hab⟩ := h a List.mem_cons_self
      obtain ⟨bs, hbs, hmem⟩ := exists_forall₂ fun a' ha' => h a' (List.mem_cons_of_mem a ha')
      exact ⟨b :: bs, .cons hab hbs, List.forall_mem_cons.2 ⟨hb, hmem⟩⟩

lemma exists_fits {symbolTag : String}
    {owners : List WiredChain} {d : ChainDesk Listing}
    (hlawful : d.Lawful (.reply symbolTag scopes owners)) {upper : String → String}
    (happart : d.ToldApart upper (.reply symbolTag scopes owners)) :
    ∃ ts, ts.Perm owners ∧
      List.Forall₂ (FitsOwner d.pending scopes) (byUnderlying symbolTag scopes) ts := by
  obtain ⟨-, -, howners⟩ := hlawful
  obtain ⟨hnodup, hahead⟩ := happart
  cases hempty : scopes.isEmpty with
  | true =>
      rw [hempty, if_pos rfl] at howners
      obtain ⟨t, rfl, ht⟩ := List.map_eq_singleton_iff.1 howners
      rw [byUnderlying, hempty, if_pos rfl]
      refine ⟨[t], List.Perm.refl _, .cons ⟨ht.symm, ?_, hahead t List.mem_cons_self⟩ .nil⟩
      rw [List.isEmpty_iff.1 hempty]
      rfl
  | false =>
      rw [hempty, if_neg Bool.false_ne_true] at howners
      obtain ⟨howned, hanswered⟩ := howners
      have hgroups : Grouping.Grouped ChainScope.symbol caseless scopes _ :=
        Grouping.grouped_groups scopes
      have hinj : ∀ t ∈ owners, ∀ t' ∈ owners, caseless t.symbol = caseless t'.symbol → t = t' :=
        fun t ht t' ht' he => List.inj_on_of_nodup_map hnodup ht ht' he
      have hfit : ∀ g ∈ Grouping.groups ChainScope.symbol caseless scopes,
          ∃ t ∈ owners, FitsOwner d.pending scopes g t := by
        intro g hg
        obtain ⟨s, hs, hkey⟩ := hgroups.inhabited g hg
        obtain ⟨t, ht, hof⟩ := howned s hs
        refine ⟨t, ht, ⟨hkey.symm.trans hof.1, ?_, hahead t ht⟩⟩
        rw [hgroups.members g hg]
        refine List.filter_congr fun s' hs' => decide_eq_decide.2 ⟨fun he => ?_, fun hof' =>
          hof'.1.trans (hof.1.symm.trans hkey)⟩
        obtain ⟨t', ht', hof'⟩ := howned s' hs'
        have hsame : t = t' :=
          hinj t ht t' ht' (hof.1.symm.trans (hkey.trans (he.symm.trans hof'.1)))
        exact hsame ▸ hof'
      obtain ⟨ts, hfits, hmem⟩ := exists_forall₂ hfit
      have hkeys := map_eq_of_forall₂ (fun _ _ hfit => hfit.symbol) hfits
      refine ⟨ts, ?_, by rw [byUnderlying, hempty, if_neg Bool.false_ne_true]; exact hfits⟩
      refine (List.perm_ext_iff_of_nodup ?_ (List.Nodup.of_map _ hnodup)).2 fun t =>
        ⟨hmem t, fun ht => ?_⟩
      · have hnodup' := hgroups.nodup
        rw [hkeys] at hnodup'
        exact List.Nodup.of_map _ hnodup'
      · obtain ⟨s, hs, hof⟩ := hanswered t ht
        obtain ⟨g, hg, hkey⟩ := hgroups.covers s hs
        have hin : caseless t.symbol ∈ ts.map fun t => caseless t.symbol := by
          rw [← hkeys]
          exact List.mem_map.2 ⟨g, hg, hkey.trans hof.1⟩
        obtain ⟨t', ht', he⟩ := List.mem_map.1 hin
        exact hinj t' (hmem t' ht') t ht he ▸ ht'

end ChainDesk

/-! ## One event -/

/-- **What an event is to do.**  A request waits exactly while one for the same symbol and id is on
the wire or held; a pass sends what the wire is free for; a reply answers each request the venue
answers, or one for the same underlying, with that underlying's listings; a refusal is told of a
request for the underlying refused; and the end of the connection refuses whatever waits. -/
def ChainDesk.Rightly (upper : String → String) (fails : ℕ → Option String)
    (d : ChainDesk Listing) : ChainEvent Listing → Prop
  | .asks reqId symbol futFopExchange underlyingSecType conId names =>
      let q : QueuedChain :=
        ⟨reqId, symbol, futFopExchange, underlyingSecType, conId, d.asked, names⟩
      let d' := d.step upper fails (.asks reqId symbol futFopExchange underlyingSecType conId names)
      if d.chainOnTheWire q = true ∨ ∃ q' ∈ d.queued, q'.key = q.key then
        d'.queued = d.queued ++ [q] ∧ d'.told = d.told
      else d'.queued = d.queued ∧
        (wired upper q ∈ d'.pending ∨ ∃ t, d'.told = d.told ++ [t] ∧ t.ticket = q.ticket)
  | .sendsNext left =>
      let d' := d.step upper fails (.sendsNext left)
      d.pending <+: d'.pending ∧ d'.queued.Sublist d.queued ∧
        (d.queued.length ≤ left → ∀ q ∈ d'.queued, d'.chainOnTheWire q = true)
  | .reply symbolTag scopes owners =>
      ∃ ts as, ts.Perm owners ∧
        (d.step upper fails (.reply symbolTag scopes owners)).told = d.told ++ as ∧
        List.Forall₂ (ChainTold.Answers d.pending scopes) ts as
  | .reject m alone (some t) =>
      ∃ w ∈ d.pending, w.underlying = t.underlying ∧
        (d.step upper fails (.reject m alone (some t))).told = d.told ++
          [.refused w.ticket w.reqId noDefinition s!"option chain request rejected: {m.why}"]
  | .reject m alone none => d.step upper fails (.reject m alone none) = d
  | .drops =>
      let d' := d.step upper fails .drops
      d'.pending = [] ∧ d'.queued = [] ∧
        d'.told = d.told ++ d.pending.map (fun w => wentAwayFor w.ticket w.reqId) ++
          d.queued.map fun q => wentAwayFor q.ticket q.reqId
  | .connects => (d.step upper fails .connects).told = d.told

structure ChainsStand (upper : String → String) (d : ChainDesk Listing) : Prop where
  kept : ChainsKept d d.queued
  /-- What is held is told from the others as the wire tells it. -/
  plain : ChainDesk.PlainSymbols upper d.queued
  cased : ∀ w ∈ d.pending, upper w.symbol = w.symbol

namespace ChainsStand

open ChainDesk

variable {upper : String → String} {d : ChainDesk Listing}

def Goes (upper : String → String) (fails : ℕ → Option String) (d : ChainDesk Listing)
    (e : ChainEvent Listing) : Prop :=
  ChainsStand upper (d.step upper fails e) ∧ d.Rightly upper fails e

lemma plain_of_waits (hupper : UpperCases upper) (h : ChainsStand upper d) {q : QueuedChain}
    (hwaits : d.chainOnTheWire q = true ∨ ∃ q' ∈ d.queued, q'.key = q.key)
    (happart : caseless (upper q.symbol) = caseless q.symbol ∨
      (wired upper q).key ∉ (d.pending.map fun w => w.key) ∧
        ∀ q' ∈ d.queued, (wired upper q').key ≠ (wired upper q).key) :
    caseless (upper q.symbol) = caseless q.symbol := by
  refine happart.resolve_right fun hfree => ?_
  rcases hwaits with hwire | ⟨q', hq', hsame⟩
  · obtain ⟨w, hw, hkey⟩ := List.mem_map.1 (chainOnTheWire_iff.1 hwire)
    obtain ⟨hsymbol, hid⟩ := Prod.mk.inj hkey
    have hcase : upper w.symbol = upper q.symbol :=
      hupper.eqIgnore _ _ (eqIgnoreAsciiCase_iff.2 hsymbol)
    refine hfree.1 (List.mem_map.2 ⟨w, hw, Prod.ext ?_ hid⟩)
    exact congrArg caseless ((h.cased w hw).symm.trans hcase)
  · obtain ⟨hsymbol, hid⟩ := Prod.mk.inj hsame
    have hcase : upper q'.symbol = upper q.symbol :=
      hupper.eqIgnore _ _ (eqIgnoreAsciiCase_iff.2 hsymbol)
    exact hfree.2 q' hq' (Prod.ext (congrArg caseless hcase) hid)

lemma goes_asks (hupper : UpperCases upper) (fails : ℕ → Option String) (h : ChainsStand upper d)
    {reqId : ℕ} {symbol futFopExchange underlyingSecType : String} {conId names : ℤ}
    (hnamed : conId ≠ 0 → names = conId)
    (happart : d.ToldApart upper
      (.asks reqId symbol futFopExchange underlyingSecType conId names)) :
    Goes upper fails d (.asks reqId symbol futFopExchange underlyingSecType conId names) := by
  set q : QueuedChain := ⟨reqId, symbol, futFopExchange, underlyingSecType, conId, d.asked, names⟩
    with hq
  set d₀ : ChainDesk Listing := { d with asked := d.asked + 1 } with hd₀
  have hkept : ChainsKept d₀ (d.queued ++ [q]) := h.kept.asks hnamed rfl
  have hqueue : d.queued.any (sameChain q) = true ↔ ∃ q' ∈ d.queued, q'.key = q.key := by
    simp only [List.any_eq_true, sameChain_iff]
  have hstep : d.step upper fails
      (.asks reqId symbol futFopExchange underlyingSecType conId names) =
        d₀.askOptionParams upper fails q := rfl
  by_cases hwaits : d.chainOnTheWire q || d.queued.any (sameChain q)
  · have hheld : d₀.askOptionParams upper fails q = { d₀ with queued := d.queued ++ [q] } :=
      if_pos hwaits
    rw [Bool.or_eq_true, hqueue] at hwaits
    refine ⟨?_, ?_⟩
    · rw [hstep, hheld]
      refine ⟨hkept.of_queue _, fun q' hq' => ?_, h.cased⟩
      rcases List.mem_append.1 hq' with hq' | hq'
      · exact h.plain q' hq'
      · exact List.mem_singleton.1 hq' ▸ h.plain_of_waits hupper hwaits happart
    · simp only [Rightly, ← hq, hstep, hheld, if_pos hwaits]
      exact ⟨trivial, rfl⟩
  · have hsent : d₀.askOptionParams upper fails q = d₀.sendOptionParamsRequest upper fails q :=
      if_neg hwaits
    rw [Bool.or_eq_true, hqueue, not_or] at hwaits
    have hfree : (wired upper q).key ∉ (d₀.pending.map fun w => w.key) ∧
        ∀ q' ∈ d.queued, q'.key ≠ (wired upper q).key := by
      rcases happart with hplain | ⟨hwire, hqueued⟩
      · have hkey : (wired upper q).key = q.key := Prod.ext hplain rfl
        rw [hkey]
        exact ⟨fun hcon => hwaits.1 (chainOnTheWire_iff.2 hcon),
          fun q' hq' he => hwaits.2 ⟨q', hq', he⟩⟩
      · refine ⟨hwire, fun q' hq' he => hqueued q' hq' ?_⟩
        rw [h.plain q' hq']
        exact he
    have hdone := hkept.send fails hfree.1 hfree.2
    obtain ⟨hqueued, -, hcases⟩ := send_cases upper fails q d₀
    refine ⟨?_, ?_⟩
    · rw [hstep, hsent]
      refine ⟨?_, hqueued ▸ h.plain, fun w hw => ?_⟩
      · rw [hqueued]
        simpa using hdone
      · rcases mem_pending_send hw with hw | rfl
        · exact h.cased w hw
        · exact hupper.idem symbol
    · simp only [Rightly, ← hq, hstep, hsent, if_neg (not_or.2 hwaits)]
      refine ⟨hqueued, ?_⟩
      rcases hcases with ⟨-, -, ht⟩ | ⟨hpending, -, -⟩
      · exact .inr ht
      · exact .inl (hpending ▸ List.mem_append_right _ (List.mem_singleton_self _))

lemma goes_sendsNext (hupper : UpperCases upper) (fails : ℕ → Option String)
    (h : ChainsStand upper d) (left : ℕ) : Goes upper fails d (.sendsNext left) := by
  have hsent : SentOn upper d (sendNextFrom upper fails left [] d.queued d) left [] d.queued :=
    sendNextFrom_sentOn (by simpa using h.kept) (by simpa using h.plain) (by simp)
  have hqueue := hsent.queue
  rw [List.nil_append] at hqueue
  refine ⟨⟨hsent.kept, fun q hq => h.plain q (hqueue.subset hq), fun w hw => ?_⟩, hsent.wire,
    hqueue, hsent.waits⟩
  rcases hsent.joined w hw with hw | ⟨q, -, rfl⟩
  · exact h.cased w hw
  · exact hupper.idem q.symbol

lemma settled (h : ChainsStand upper d) {d' : ChainDesk Listing} (hkept : ChainsKept d' d.queued)
    (hqueued : d'.queued = d.queued) (hsub : d'.pending.Sublist d.pending) : ChainsStand upper d' :=
  ⟨hqueued ▸ hkept, hqueued ▸ h.plain, fun w hw => h.cased w (hsub.subset hw)⟩

lemma goes_reply (fails : ℕ → Option String) (h : ChainsStand upper d) {symbolTag : String}
    {scopes : List (ChainScope Listing)} {owners : List WiredChain}
    (hlawful : d.Lawful (.reply symbolTag scopes owners))
    (happart : d.ToldApart upper (.reply symbolTag scopes owners)) :
    Goes upper fails d (.reply symbolTag scopes owners) := by
  obtain ⟨ts, hts, hfits⟩ := exists_fits hlawful happart
  have howners := List.subperm_append_diff_self_of_count_le
    (List.subperm_ext_iff.1 hlawful.1)
  have hall : (owners.map WiredChain.underlying ++
      (d.venue.diff owners).map WiredChain.underlying).Perm
        (d.venue.map WiredChain.underlying) := by
    rw [← List.map_append]
    exact howners.map _
  have hnodup : (ts.map fun t => caseless t.symbol).Nodup := (hts.map _).nodup_iff.2 happart.1
  have hsubperm : (ts.map WiredChain.underlying).Subperm (d.pending.map WiredChain.underlying) :=
    ((hts.map _).subperm.trans (List.sublist_append_left _ _).subperm).trans
      (hall.trans h.kept.matched.symm).subperm
  obtain ⟨rest, as, hfold, hsub, hunder, htickets, hanswers⟩ :=
    answerAll d.pending (List.Sublist.refl _) hfits h.kept.named hnodup hsubperm
  have hstep : d.step upper fails (.reply symbolTag scopes owners) =
      { d with pending := rest, told := d.told ++ as, venue := d.venue.diff owners } := by
    rw [ChainDesk.step, handleOptionChain, hfold]
    rfl
  refine ⟨?_, ts, as, hts, by rw [hstep], hanswers⟩
  rw [hstep]
  refine h.settled (h.kept.settled hsub ?_ rfl rfl htickets) rfl hsub
  refine (List.perm_append_left_iff (owners.map WiredChain.underlying)).1 ?_
  exact ((hts.map _).symm.append_right _).trans (hunder.trans (h.kept.matched.trans hall.symm))

lemma refusedBy_of_owner (h : ChainsStand upper d) {m : SessionReject} {alone : Bool}
    {t : WiredChain} (hlawful : d.Lawful (.reject m alone (some t)))
    (happart : d.ToldApart upper (.reject m alone (some t))) :
    ∃ w, d.refusedBy m alone = some w ∧ d.pending.find? (·.reqId == w.reqId) = some w ∧
      w.underlying = t.underlying := by
  rcases happart with ⟨n, hstated, w, hw, hwt⟩ | ⟨hnamed, halone, hlength⟩
  · have hn : w.reqId = n := by simpa using List.find?_some hw
    refine ⟨w, ?_, hn ▸ hw, hwt⟩
    rw [refusedBy, hstated, Option.bind_some, hw]
    rfl
  · obtain ⟨w, hw⟩ := List.length_eq_one_iff.1 hlength
    have hwt : t.underlying ∈ d.pending.map WiredChain.underlying :=
      h.kept.matched.symm.subset (List.mem_map_of_mem (hlawful t rfl))
    have hstated : m.stated = none := by
      cases hstated : m.stated with
      | none => rfl
      | some n => rw [SessionReject.namedNothing_of_stated hstated] at hnamed; cases hnamed
    rw [hw, List.map_singleton, List.mem_singleton] at hwt
    refine ⟨w, ?_, by simp [hw], hwt.symm⟩
    simp [refusedBy, hstated, hnamed, halone, hw]

lemma goes_reject (fails : ℕ → Option String) (h : ChainsStand upper d) {m : SessionReject}
    {alone : Bool} {owner : Option WiredChain} (hlawful : d.Lawful (.reject m alone owner))
    (happart : d.ToldApart upper (.reject m alone owner)) :
    Goes upper fails d (.reject m alone owner) := by
  cases owner with
  | none =>
      have hrefused : d.refusedBy m alone = none := by
        refine Option.or_eq_none_iff.2 ⟨?_, if_neg fun hcon => ?_⟩
        · refine Option.bind_eq_none_iff.2 fun n hn => List.find?_eq_none.2 fun w hw => ?_
          simpa using happart.1 n hn w hw
        · exact happart.2 ⟨hcon.1, hcon.2.2, hcon.2.1⟩
      have hstep : d.step upper fails (.reject m alone none) = d := by
        rw [ChainDesk.step, rejectChain, hrefused]
        rfl
      exact ⟨by rw [hstep]; exact h, hstep⟩
  | some t =>
      obtain ⟨w, hrefused, hfind, hwt⟩ := h.refusedBy_of_owner hlawful happart
      have hperm := Removal.perm_eraseP hfind
      have hstep : d.step upper fails (.reject m alone (some t)) =
          { d with
            pending := d.pending.eraseP (·.reqId == w.reqId)
            told := d.told ++
              [.refused w.ticket w.reqId noDefinition s!"option chain request rejected: {m.why}"]
            venue := d.venue.diff [t] } := by
        rw [ChainDesk.step, rejectChain, hrefused]
        rfl
      have hvenue : (d.venue.map WiredChain.underlying).Perm
          (t.underlying :: (d.venue.diff [t]).map WiredChain.underlying) := by
        rw [List.diff_cons, List.diff_nil]
        exact (List.perm_cons_erase (hlawful t rfl)).map _
      have hpending : (d.pending.map WiredChain.underlying).Perm
          (t.underlying :: (d.pending.eraseP (·.reqId == w.reqId)).map WiredChain.underlying) := by
        have hmap := hperm.map WiredChain.underlying
        rwa [List.map_cons, hwt] at hmap
      refine ⟨?_, w, List.mem_of_find?_eq_some hfind, hwt, by rw [hstep]⟩
      rw [hstep]
      refine h.settled (h.kept.settled List.eraseP_sublist ?_ rfl rfl
        (hperm.map WiredChain.ticket).symm) rfl List.eraseP_sublist
      exact (List.perm_cons t.underlying).1 (hpending.symm.trans (h.kept.matched.trans hvenue))

lemma goes_drops (fails : ℕ → Option String) (h : ChainsStand upper d) :
    Goes upper fails d .drops := by
  refine ⟨⟨⟨by simp [ChainDesk.step, failPendingLookups],
    by simp [ChainDesk.step, failPendingLookups], List.nodup_nil, List.Perm.refl _, ?_,
    List.Pairwise.nil, by simp [ChainDesk.step, failPendingLookups]⟩,
    by simp [ChainDesk.step, failPendingLookups, PlainSymbols],
    by simp [ChainDesk.step, failPendingLookups]⟩, rfl, rfl, rfl⟩
  have hpending : d.pending.map (fun w =>
      (wentAwayFor w.ticket w.reqId : ChainTold Listing).ticket) =
        d.pending.map WiredChain.ticket := rfl
  have hqueued : d.queued.map (fun q =>
      (wentAwayFor q.ticket q.reqId : ChainTold Listing).ticket) =
        d.queued.map QueuedChain.ticket := rfl
  simp only [ChainDesk.step, failPendingLookups, List.map_append, List.map_map, List.map_nil,
    List.append_nil, Function.comp_def, hpending, hqueued]
  exact h.kept.ledger

lemma goes (hupper : UpperCases upper) (fails : ℕ → Option String) (h : ChainsStand upper d) :
    ∀ {e : ChainEvent Listing}, d.Lawful e → d.ToldApart upper e → Goes upper fails d e
  | .asks .., hlawful, happart => h.goes_asks hupper fails hlawful happart
  | .sendsNext left, _, _ => h.goes_sendsNext hupper fails left
  | .reply .., hlawful, happart => h.goes_reply fails hlawful happart
  | .reject .., hlawful, happart => h.goes_reject fails hlawful happart
  | .drops, _, _ => h.goes_drops fails
  | .connects, _, _ =>
      ⟨⟨⟨h.kept.named, h.kept.heldNamed, h.kept.oneEach, h.kept.matched, h.kept.ledger,
        h.kept.inTurn, h.kept.behind⟩, h.plain, h.cased⟩, rfl⟩

end ChainsStand

/-- **Each option-chain request is answered with its own underlying's chain.**  In every run in
which the venue's answers tell the requests apart, every request is sent in its turn, one for each
symbol and id at a time, and told of once: by the answer for its underlying, or a refusal. -/
theorem chains_answered {upper : String → String} (hupper : UpperCases upper)
    (fails : ℕ → Option String) (es : List (ChainEvent Listing))
    (h : Along (ChainDesk.step upper fails) (fun d e => d.Lawful e ∧ d.ToldApart upper e) {} es) :
    Along (ChainDesk.step upper fails) (ChainDesk.Rightly upper fails) {} es ∧
      ChainsStand upper (run (ChainDesk.step upper fails) {} es) := by
  have hstart : ChainsStand upper ({} : ChainDesk Listing) :=
    ⟨⟨by simp, by simp, List.nodup_nil, List.Perm.refl _, List.Perm.refl _, List.Pairwise.nil,
      by simp⟩, by simp [ChainDesk.PlainSymbols], by simp⟩
  have hgoes : ∀ (d : ChainDesk Listing) (e : ChainEvent Listing), ChainsStand upper d →
      d.Lawful e ∧ d.ToldApart upper e → ChainsStand.Goes upper fails d e :=
    fun d e hd he => hd.goes hupper fails he.1 he.2
  exact ⟨h.mono (fun d e hd he => (hgoes d e hd he).1)
      (fun d e hd he => (hgoes d e hd he).2) hstart,
    h.invariant (fun d e hd he => (hgoes d e hd he).1) hstart⟩

def wiredSpy (reqId ticket : ℕ) (conId names : ℤ) : WiredChain :=
  ⟨⟨reqId, "SPY", conId⟩, ticket, names⟩

/-- Two callers ask for the same chain, a third for another; one reply answers two, the second
request is sent behind it, and refused. -/
def twoChains : List (ChainEvent Unit) :=
  [.asks 1 "SPY" "" "STK" 756733 756733, .asks 2 "SPY" "" "STK" 756733 756733,
    .asks 3 "AAPL" "" "" 0 265598,
    .reply "" [⟨"AAPL", 265598, ()⟩, ⟨"SPY", 756733, ()⟩, ⟨"AAPL", 265598, ()⟩]
      [wiredSpy 1 0 756733 756733, ⟨⟨3, "AAPL", 0⟩, 2, 265598⟩],
    .sendsNext 5, .reject ⟨some "no", some (ascii "2")⟩ true (some (wiredSpy 2 1 756733 756733))]

theorem chains_answered_two :
    Along (ChainDesk.step asciiUpper fun _ => none) (ChainDesk.Rightly asciiUpper fun _ => none) {}
        twoChains ∧
      ChainsStand asciiUpper (run (ChainDesk.step asciiUpper fun _ => none) {} twoChains) :=
  chains_answered upperCases_asciiUpper (fun _ => none) twoChains (by decide +kernel)

/-- A request for a symbol alone, and one for another underlying of the symbol: the venue answers
the second, and then the first. -/
def shareAndFuture : List (ChainEvent Unit) :=
  [.asks 1 "SPY" "" "" 0 9, .asks 2 "SPY" "" "" 756733 756733,
    .reply "" [⟨"SPY", 756733, ()⟩] [wiredSpy 2 1 756733 756733],
    .reply "" [⟨"SPY", 9, ()⟩] [wiredSpy 1 0 0 9]]

/-- The first request is answered with the second one's underlying, and the second is never
answered, though the venue has answered both. -/
theorem chain_answered_to_another :
    Along (ChainDesk.step asciiUpper fun _ => none) (fun d e => d.Lawful e) {} shareAndFuture ∧
      (run (ChainDesk.step asciiUpper fun _ => none) {} shareAndFuture).told =
        [.answered 0 1 756733 [⟨"SPY", 756733, ()⟩]] ∧
      (run (ChainDesk.step asciiUpper fun _ => none) {} shareAndFuture).pending =
        [wiredSpy 2 1 756733 756733] ∧
      (run (ChainDesk.step asciiUpper fun _ => none) {} shareAndFuture).venue = [] := by
  decide +kernel

end IbkrDx
