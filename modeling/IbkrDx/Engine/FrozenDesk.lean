import IbkrDx.Engine.MarketState
import IbkrDx.Lib.Overlay
import IbkrDx.Lib.Runs

/-!
# Frozen feeds: the desk

`engine/hot_loop/farm/frozen.rs`, with what of `farm/mod.rs` calls it: a closed market moves a
subscription to a frozen quote asked for beside its own, which is held meanwhile and served again
once the market opens.  The fallback to delayed data makes another feed the subscription's own.

`FrozenDesk.own` is the quote the own entries alone make, and `FrozenDesk.sent` what was asked,
refused and withdrawn, the latest first; nothing served reads either.
-/

namespace IbkrDx

open Overlay Runs

/-! ## A quote and its entries -/

inductive QuoteField where
  | bid | ask | last | high | low | opening | close
  | bidSize | askSize | lastSize | volume | bidExchMask | askExchMask | lastExchMask
  deriving DecidableEq

/-- An entry: a price in increments, a figure as it is counted, or a part of the trade's time. -/
inductive QuoteEntry where
  | price (field : QuoteField) (magnitude : ℤ)
  | figure (field : QuoteField) (value : ℤ)
  | tsBase (magnitude : ℤ)
  | tsOffset (magnitude : ℤ)

structure ServedQuote where
  fields : QuoteField → ℤ := fun _ => 0
  timestampNs : ℕ := 0
  /-- Stated by the trading status, beside the entries. -/
  halted : ℤ := 0
  clock : TradeClock := {}

/-- A `u64` held at its ceiling. -/
def saturated (n : ℕ) : ℕ := min n (2 ^ 64 - 1)

namespace ServedQuote

def set (q : ServedQuote) (field : QuoteField) (v : ℤ) : ServedQuote :=
  { q with fields := Function.update q.fields field v }

/-- What an entry does to a quote, under the contract's increment: a price that cannot be scaled
leaves it. -/
def apply (minTick : ℤ) (q : ServedQuote) : QuoteEntry → ServedQuote
  | .price field magnitude =>
      if 0 < minTick ∧ -2 ^ 63 ≤ magnitude * minTick ∧ magnitude * minTick < 2 ^ 63 then
        q.set field (magnitude * minTick)
      else q
  | .figure field value => q.set field value
  | .tsBase magnitude =>
      if 1000000000 < magnitude then
        { q with
          clock := ⟨magnitude.toNat, 0⟩
          timestampNs := saturated (magnitude.toNat * 1000000000) }
      else q
  | .tsOffset magnitude =>
      if 0 < q.clock.baseSecs ∧ q.clock.offsetSecs ≤ magnitude.toNat then
        { q with
          clock := ⟨q.clock.baseSecs, magnitude.toNat⟩
          timestampNs := saturated (saturated (q.clock.baseSecs + magnitude.toNat) * 1000000000) }
      else q

end ServedQuote

/-- What arrives under a number: an entry of the quote, or a reading of a series, by its kind. -/
inductive FeedEntry (V : Type) where
  | quote (entry : QuoteEntry)
  | reading (tickType : ℤ) (value : V)

/-! ## The watch -/

inductive FrozenFeed where
  | frozen
  | delayedFrozen
  deriving DecidableEq

structure FrozenPair where
  feed : FrozenFeed
  requests : List ℕ
  refused : List ℕ := []
  tags : List ℕ := []
  deriving DecidableEq

structure HeldQuote (V : Type) where
  stated : ServedQuote
  series : List (ℤ × V) := []

structure StatusWatch (V : Type) where
  frozen : Bool
  delayedFrozen : Bool
  status : Option ℕ := none
  closed : Bool := false
  inFrozenState : Bool := false
  pairs : List FrozenPair := []
  refused : List FrozenFeed := []
  showsFrozen : Bool := false
  showsDelayedFrozen : Bool := false
  armed : Bool := false
  held : Option (HeldQuote V) := none

def frozenQuoted : List String :=
  ["STK", "CFD", "OPT", "FOP", "WAR", "IOPT", "FUT", "FWD", "BAG", "ICS", "PDC", "CASH", "IND",
    "BOND", "BILL", "FIXED", "SLB", "CMDTY", "CRYPTO", "EC"]

/-- `note_frozen_feeds`: the watch of a subscription taken with frozen or delayed-frozen data on,
where the logon enables it and a frozen quote is served for the contract. -/
def noteFrozenFeeds {V : Type} (frozen delayedFrozen enabled : Bool) (secType : String) :
    Option (StatusWatch V) :=
  if (frozen || delayedFrozen) && enabled && frozenQuoted.contains secType then
    some { frozen, delayedFrozen }
  else none

/-- What was asked for, refused, withdrawn and lost. -/
inductive FrozenSent where
  | askedStatus (request : ℕ)
  | asked (feed : FrozenFeed) (requests : List ℕ)
  | refused (feed : FrozenFeed)
  | withdrew (pairs : List FrozenPair)
  | withdrewStatus
  | fellBack
  | dropped

structure FrozenDesk (V : Type) where
  /-- The subscription may fall back, and has. -/
  delayed : Option Bool := none
  /-- No delayed-frozen quote is served for it: `NODLFRZ`, or a combination. -/
  noDelayedFrozen : Bool := false
  watch : Option (StatusWatch V) := none
  served : ServedQuote := {}
  minTick : ℤ := 0
  connected : Bool := false
  withdrawn : Bool := false
  nextMdReqId : ℕ := 0
  ownRequests : Option (ℕ × ℕ) := none
  mdReqs : List ℕ := []
  serverTags : List ℕ := []
  told : List (ℤ × V) := []
  own : ServedQuote := {}
  readings : List (ℤ × V) := []
  sent : List FrozenSent := []
  /-- The numbers given for a frozen quote since the connection came up, and not given again. -/
  frozenTags : List ℕ := []

inductive FrozenEvent (V : Type) where
  /-- It goes out, first or on a new connection. -/
  | goesOut
  | acks (request tag : ℕ) (minTick : ℤ)
  | refuses (request : ℕ) (delayedAvailable : Bool)
  | states (closed : Bool)
  | enters (tag : ℕ) (entry : FeedEntry V)
  /-- The trading status, as the quote states it. -/
  | trades (halted : ℤ)
  | drops
  | withdraws

/-- The feed a number was asked for, since the subscription fell back or the connection was lost. -/
def feedAsked (request : ℕ) : List FrozenSent → Option FrozenFeed
  | [] => none
  | .asked f requests :: l => if request ∈ requests then some f else feedAsked request l
  | .fellBack :: _ => none
  | .dropped :: _ => none
  | _ :: l => feedAsked request l

namespace FrozenDesk

variable {V : Type}

/-- A subscription as it is taken: with the feeds that are on, what the logon enables, the kind of
its contract, whether it may fall back, and the next request's number. -/
def taken (frozen delayedFrozen enabled noDelayedFrozen mayFallBack : Bool) (secType : String)
    (nextMdReqId : ℕ) : FrozenDesk V where
  delayed := if mayFallBack then some false else none
  noDelayedFrozen := noDelayedFrozen || secType == "BAG"
  watch := noteFrozenFeeds frozen delayedFrozen enabled secType
  nextMdReqId := nextMdReqId

def fellBack (d : FrozenDesk V) : Bool := d.delayed == some true

def servesItsOwn (d : FrozenDesk V) : Bool :=
  match d.watch with
  | none => true
  | some w => if d.fellBack then !w.showsDelayedFrozen else !w.showsFrozen

def askStatus (d : FrozenDesk V) : FrozenDesk V :=
  match d.watch with
  | none => d
  | some w =>
      { d with
        nextMdReqId := d.nextMdReqId + 1
        mdReqs := d.mdReqs ++ [d.nextMdReqId]
        watch := some { w with status := some d.nextMdReqId }
        sent := .askedStatus d.nextMdReqId :: d.sent }

/-- `show`: serve the frozen quote, the delayed-frozen one, or neither. -/
def serve (d : FrozenDesk V) (frozen delayedFrozen : Bool) : FrozenDesk V :=
  match d.watch with
  | none => d
  | some w =>
      let shown := { w with showsFrozen := frozen, showsDelayedFrozen := delayedFrozen }
      let after := { d with watch := some shown }
      if d.servesItsOwn && !after.servesItsOwn then
        { d with watch := some { shown with held := some ⟨d.served, []⟩ }, readings := [] }
      else if !d.servesItsOwn && after.servesItsOwn then
        match w.held with
        | some held =>
            { d with
              watch := some { shown with held := none }
              served := held.stated
              told := d.told ++ held.series }
        | none => after
      else after

def askFrozenPair (d : FrozenDesk V) (feed : FrozenFeed) : FrozenDesk V :=
  match d.watch with
  | none => d
  | some w =>
      if feed ∈ w.refused ∨ feed ∈ w.pairs.map (·.feed) then d
      else
        { d with
          nextMdReqId := d.nextMdReqId + 2
          mdReqs := d.mdReqs ++ [d.nextMdReqId, d.nextMdReqId + 1]
          watch := some { w with
            pairs := w.pairs ++ [{ feed, requests := [d.nextMdReqId, d.nextMdReqId + 1] }] }
          sent := .asked feed [d.nextMdReqId, d.nextMdReqId + 1] :: d.sent }

def arm (d : FrozenDesk V) : FrozenDesk V :=
  { d with watch := d.watch.map fun w => { w with armed := true } }

def enterFrozenState (d : FrozenDesk V) : FrozenDesk V :=
  match d.watch with
  | none => d
  | some w =>
      let entered := askFrozenPair { d with watch := some { w with inFrozenState := true } } .frozen
      if d.fellBack then (entered.askFrozenPair .delayedFrozen).arm
      else if w.frozen then entered.serve true false
      else entered

def withdrawFrozenPairs (d : FrozenDesk V) (pairs : List FrozenPair) : FrozenDesk V :=
  { d with
    mdReqs := d.mdReqs.filter fun r => r ∉ pairs.flatMap FrozenPair.requests
    sent := .withdrew pairs :: d.sent }

def leaveFrozenState (d : FrozenDesk V) (told : Bool) : FrozenDesk V :=
  match d.watch with
  | none => d
  | some w =>
      let left := { w with inFrozenState := false, armed := false, pairs := [] }
      let forgot := { d with
        serverTags := d.serverTags.filter fun t => t ∉ w.pairs.flatMap FrozenPair.tags }
      if told then
        (withdrawFrozenPairs { forgot with watch := some left } w.pairs).serve false false
      else
        withdrawFrozenPairs
          { forgot with watch := some { left with
              showsFrozen := false, showsDelayedFrozen := false, held := none } } w.pairs

def applyStatus (d : FrozenDesk V) (closed : Bool) : FrozenDesk V :=
  match d.watch with
  | none => d
  | some w =>
      let noted := { d with watch := some { w with closed } }
      if closed && !w.inFrozenState then
        if d.fellBack && d.noDelayedFrozen then noted else noted.enterFrozenState
      else if !closed && w.inFrozenState then noted.leaveFrozenState true
      else noted

def withdrawStatusWatch (d : FrozenDesk V) : FrozenDesk V :=
  match d.watch with
  | none => d
  | some w =>
      let left := withdrawFrozenPairs { d with watch := none } w.pairs
      match w.status with
      | none => left
      | some r =>
          { left with mdReqs := left.mdReqs.filter (· ≠ r), sent := .withdrewStatus :: left.sent }

def statusOnRefusal (d : FrozenDesk V) (fallsBack : Bool) : FrozenDesk V :=
  match d.watch with
  | none => d
  | some w =>
      let noted := { d with watch := some { w with
        frozen := false, refused := if fallsBack then [] else w.refused } }
      let left := if w.inFrozenState then noted.leaveFrozenState false else noted
      if fallsBack && w.delayedFrozen then left else left.withdrawStatusWatch

def statusOnFallback (d : FrozenDesk V) : FrozenDesk V :=
  let refused := d.statusOnRefusal true
  match refused.watch with
  | none => refused
  | some w => if w.status = none then refused.askStatus else refused.applyStatus w.closed

def sendDelayedTop (d : FrozenDesk V) : FrozenDesk V :=
  statusOnFallback
    { d with
      nextMdReqId := d.nextMdReqId + 2
      mdReqs := (d.mdReqs.filter fun r => d.ownRequests.all fun o => r ≠ o.1 ∧ r ≠ o.2) ++
        [d.nextMdReqId, d.nextMdReqId + 1]
      ownRequests := some (d.nextMdReqId, d.nextMdReqId + 1)
      serverTags := []
      served := {}
      own := {}
      delayed := some true
      sent := .fellBack :: d.sent }

/-- A watch started afresh, as the subscription goes out or the connection is lost. -/
def afresh (w : StatusWatch V) : StatusWatch V :=
  { frozen := w.frozen, delayedFrozen := w.delayedFrozen }

/-- `send_mktdata_subscribe`, and `start_status_watch` behind it. -/
def goOut (d : FrozenDesk V) : FrozenDesk V :=
  let out : FrozenDesk V :=
    { d with
      connected := true
      delayed := d.delayed.map fun _ => false
      nextMdReqId := d.nextMdReqId + 2
      mdReqs := d.mdReqs ++ [d.nextMdReqId, d.nextMdReqId + 1]
      ownRequests := some (d.nextMdReqId, d.nextMdReqId + 1)
      watch := d.watch.map afresh }
  if d.watch.any (·.frozen) then out.askStatus else out

/-- `handle_disconnect`, and `reset_status_watches` in it. -/
def handleDisconnect (d : FrozenDesk V) : FrozenDesk V :=
  { d with
    connected := false
    mdReqs := []
    serverTags := []
    frozenTags := []
    ownRequests := none
    served := {}
    own := {}
    watch := d.watch.map afresh
    sent := .dropped :: d.sent }

def noteTag (request tag : ℕ) (pairs : List FrozenPair) : List FrozenPair :=
  match pairs with
  | [] => []
  | p :: rest =>
      if request ∈ p.requests then { p with tags := p.tags.filter (· ≠ tag) ++ [tag] } :: rest
      else p :: noteTag request tag rest

/-- `handle_subscription_ack`, as far as the wait it ends. -/
def answered (d : FrozenDesk V) (request : ℕ) : FrozenDesk V :=
  { d with mdReqs := d.mdReqs.erase request }

/-- `handle_subscription_ack`, of a quote. -/
def acknowledge (d : FrozenDesk V) (request tag : ℕ) (minTick : ℤ) : FrozenDesk V :=
  { d with
    watch := d.watch.map fun w => { w with pairs := noteTag request tag w.pairs }
    serverTags := if tag ∈ d.serverTags then d.serverTags else d.serverTags ++ [tag]
    frozenTags :=
      if d.watch.any fun w => w.pairs.any fun p => request ∈ p.requests then tag :: d.frozenTags
      else d.frozenTags.filter (· ≠ tag)
    minTick := minTick }

def noteRefused (request : ℕ) (pairs : List FrozenPair) : List FrozenPair :=
  match pairs with
  | [] => []
  | p :: rest =>
      if request ∈ p.requests then { p with refused := p.refused ++ [request] } :: rest
      else p :: noteRefused request rest

def refuseOwn (d : FrozenDesk V) (request : ℕ) (delayedAvailable : Bool) : FrozenDesk V :=
  match d.ownRequests with
  | none => d
  | some (bidAsk, _) =>
      if request ≠ bidAsk then d
      else if delayedAvailable && d.delayed == some false then d.sendDelayedTop
      else d.statusOnRefusal false

/-- `handle_subscription_reject`, and `frozen_refusal` in it. -/
def refuse (d : FrozenDesk V) (request : ℕ) (delayedAvailable : Bool) : FrozenDesk V :=
  match d.watch with
  | none => d.refuseOwn request delayedAvailable
  | some w =>
      if w.status = some request then d
      else
        match w.pairs.find? fun p => request ∈ p.requests with
        | none => d.refuseOwn request delayedAvailable
        | some p =>
            { d with
              watch := some { w with
                pairs := noteRefused request w.pairs
                refused := if p.feed ∈ w.refused then w.refused else w.refused ++ [p.feed] }
              sent := .refused p.feed :: d.sent }

/-- A refusal of what is not waited for, which is stepped over. -/
def passOver (d : FrozenDesk V) (request : ℕ) : FrozenDesk V :=
  match feedAsked request d.sent with
  | some f => { d with sent := .refused f :: d.sent }
  | none => d

/-- The trading status is written on the quote served. -/
def noteTrading (d : FrozenDesk V) (halted : ℤ) : FrozenDesk V :=
  { d with served := { d.served with halted }, own := { d.own with halted } }

/-- The feed of a number: the one of the pair that has it, else the subscription's own. -/
def feedOf (d : FrozenDesk V) (tag : ℕ) : Option FrozenFeed :=
  d.watch.bind fun w => (w.pairs.find? fun p => tag ∈ p.tags).map (·.feed)

def applyServed (d : FrozenDesk V) : FeedEntry V → FrozenDesk V
  | .quote e => { d with served := d.served.apply d.minTick e }
  | .reading tickType value => { d with told := d.told ++ [(tickType, value)] }

def applyHeld (d : FrozenDesk V) (e : FeedEntry V) : FrozenDesk V :=
  { d with watch := d.watch.map fun w => { w with held := w.held.map fun h =>
      match e with
      | .quote e => { h with stated := h.stated.apply d.minTick e }
      | .reading tickType value =>
          { h with series := renew Prod.fst h.series (tickType, value) } } }

def noteOwn (d : FrozenDesk V) : FeedEntry V → FrozenDesk V
  | .quote e => { d with own := d.own.apply d.minTick e }
  | .reading tickType value => { d with readings := (tickType, value) :: d.readings }

/-- What an entry is to the program, by `frozen_route`, and what it does. -/
def enter (d : FrozenDesk V) (tag : ℕ) (e : FeedEntry V) : FrozenDesk V :=
  match d.feedOf tag with
  | none => if d.servesItsOwn then (d.applyServed e).noteOwn e else (d.applyHeld e).noteOwn e
  | some .frozen => if d.watch.any (·.showsFrozen) then d.applyServed e else d
  | some .delayedFrozen =>
      if d.watch.any (·.showsDelayedFrozen) then d.applyServed e
      else if d.watch.any (·.armed) then
        (serve { d with watch := d.watch.map fun w => { w with armed := false } } false true)
          |>.applyServed e
      else d

def step (d : FrozenDesk V) : FrozenEvent V → FrozenDesk V
  | .goesOut => if d.connected ∨ d.withdrawn then d else d.goOut
  | .acks request tag minTick =>
      if d.withdrawn ∨ request ∉ d.mdReqs then d
      else if d.watch.any fun w => w.status = some request then d.answered request
      else (d.answered request).acknowledge request tag minTick
  | .refuses request delayedAvailable =>
      if d.withdrawn then d
      else if request ∉ d.mdReqs then d.passOver request
      else d.refuse request delayedAvailable
  | .states closed =>
      if d.withdrawn ∨ ¬ (d.watch.any fun w => w.status.isSome) then d else d.applyStatus closed
  | .enters tag e => if d.withdrawn ∨ tag ∉ d.serverTags then d else d.enter tag e
  | .trades halted => if d.withdrawn ∨ ¬ d.connected then d else d.noteTrading halted
  | .drops => if d.withdrawn then d else d.handleDisconnect
  | .withdraws => if d.withdrawn then d else withdrawStatusWatch { d with withdrawn := true }

/-! ## What it is for -/

def serving (d : FrozenDesk V) : Option FrozenFeed :=
  d.watch.bind fun w =>
    if w.showsFrozen then some .frozen
    else if w.showsDelayedFrozen then some .delayedFrozen
    else none

end FrozenDesk

def standingFeeds : List FrozenSent → List FrozenFeed
  | [] => []
  | .asked f _ :: l => f :: standingFeeds l
  | .withdrew pairs :: l => (standingFeeds l).filter fun f => f ∉ pairs.map (·.feed)
  | .dropped :: _ => []
  | _ :: l => standingFeeds l

/-- The feeds refused since the subscription fell back or the connection was lost. -/
def refusedFeeds : List FrozenSent → List FrozenFeed
  | [] => []
  | .refused f :: l => f :: refusedFeeds l
  | .fellBack :: _ => []
  | .dropped :: _ => []
  | _ :: l => refusedFeeds l

def standingStatus : List FrozenSent → Bool
  | [] => false
  | .askedStatus _ :: _ => true
  | .withdrewStatus :: _ => false
  | .dropped :: _ => false
  | _ :: l => standingStatus l

/-- No feed is asked for while it stands, or once refused. -/
def AsksOnce : List FrozenSent → Prop
  | [] => True
  | .asked f _ :: l => f ∉ standingFeeds l ∧ f ∉ refusedFeeds l ∧ AsksOnce l
  | _ :: l => AsksOnce l

namespace FrozenDesk

variable {V : Type}

def Served (d d' : FrozenDesk V) : FeedEntry V → Prop
  | .quote e => d'.served = d.served.apply d.minTick e ∧ d'.told = d.told
  | .reading tickType value => d'.served = d.served ∧ d'.told = d.told ++ [(tickType, value)]

/-- What is kept of the subscription's own quote: it is served, or it is held as its own entries
alone make it, with the last reading of each kind. -/
def Kept (d : FrozenDesk V) (w : StatusWatch V) : Prop :=
  match w.held with
  | none => d.serving = none ∧ d.served = d.own
  | some h => d.serving ≠ none ∧ h.stated = d.own ∧ (h.series.map Prod.fst).Nodup ∧
      ∀ k, at? Prod.fst h.series k = at? Prod.fst d.readings k

/-- What an event is to meet: a refusal names no frozen quote that is taken or withdrawn, the
trading status states what the quote held states, and the numbers do not run out. -/
def Clean (d : FrozenDesk V) (e : FrozenEvent V) : Prop :=
  d.nextMdReqId + 6 ≤ 2 ^ 32 ∧
  match e with
  | .refuses request _ =>
      d.withdrawn = true ∨ request ∈ d.mdReqs ∨ feedAsked request d.sent = none
  | .trades halted => ∀ w ∈ d.watch, ∀ h ∈ w.held, h.stated.halted = halted
  | _ => True

instance (d : FrozenDesk V) : DecidablePred d.Clean := fun e => by
  unfold Clean
  cases e <;> infer_instance

/-! ## Serving one feed or another -/

variable {d : FrozenDesk V} {w : StatusWatch V}

/-- A frozen quote is served as the subscription stands: the live one's before it falls back, the
delayed one's after. -/
structure Consistent (d : FrozenDesk V) (w : StatusWatch V) : Prop where
  frozen : w.showsFrozen = true → d.fellBack = false
  delayed : w.showsDelayedFrozen = true → d.fellBack = true

lemma servesItsOwn_eq (hw : d.watch = some w) (hc : d.Consistent w) :
    d.servesItsOwn = d.serving.isNone := by
  obtain ⟨hfrozen, hdelayed⟩ := hc
  unfold servesItsOwn serving
  rw [hw]
  cases hback : d.fellBack <;> cases hs : w.showsFrozen <;>
    cases hd : w.showsDelayedFrozen <;> simp_all

lemma serving_of_watch (hw : d.watch = some w) : d.serving =
    if w.showsFrozen then some .frozen
    else if w.showsDelayedFrozen then some .delayedFrozen
    else none := by
  rw [serving, hw]
  rfl

lemma serve_spec (hw : d.watch = some w) (hc : d.Consistent w) (hk : d.Kept w)
    (frozen delayedFrozen : Bool) (hfrozen : frozen = true → d.fellBack = false)
    (hdelayed : delayedFrozen = true → d.fellBack = true) :
    ∃ held, (d.serve frozen delayedFrozen).watch = some { w with
        showsFrozen := frozen, showsDelayedFrozen := delayedFrozen, held := held } ∧
      (d.serve frozen delayedFrozen).Kept { w with
        showsFrozen := frozen, showsDelayedFrozen := delayedFrozen, held := held } ∧
      (d.serving = none → (d.serve frozen delayedFrozen).served = d.served ∧
        (d.serve frozen delayedFrozen).told = d.told) ∧
      (d.serving ≠ none → frozen = false → delayedFrozen = false →
        ∃ h, w.held = some h ∧ (d.serve frozen delayedFrozen).told = d.told ++ h.series) := by
  have hbefore := servesItsOwn_eq hw hc
  have hafter := servesItsOwn_eq (d := { d with watch := some { w with
    showsFrozen := frozen, showsDelayedFrozen := delayedFrozen } }) rfl ⟨hfrozen, hdelayed⟩
  unfold serve
  rw [hw]
  dsimp only
  rw [hbefore, hafter]
  unfold Kept at hk ⊢
  cases hheld : w.held with
  | none =>
      rw [hheld] at hk
      obtain ⟨hown, hserved⟩ := hk
      rw [hown]
      refine ⟨if frozen || delayedFrozen then some ⟨d.served, []⟩ else none, ?_⟩
      cases frozen <;> cases delayedFrozen <;> simp_all [serving, at?]
  | some h =>
      rw [hheld] at hk
      obtain ⟨hother, hstated, hnodup, hlast⟩ := hk
      have hno : d.serving.isNone = false := by
        cases hs : d.serving with
        | none => exact absurd hs hother
        | some f => rfl
      rw [hno]
      clear hbefore hno
      refine ⟨if frozen || delayedFrozen then some h else none, ?_, ?_,
        fun hnone => absurd hnone hother, fun _ hf hd => ⟨h, rfl, ?_⟩⟩
      · cases frozen <;> cases delayedFrozen <;> simp [serving]
      · cases frozen <;> cases delayedFrozen <;> simp [serving, hstated, hnodup, hlast]
      · subst hf
        subst hd
        simp [serving]

/-! ## What each part leaves -/

structure Alike (d d' : FrozenDesk V) : Prop where
  connected : d'.connected = d.connected
  withdrawn : d'.withdrawn = d.withdrawn
  minTick : d'.minTick = d.minTick
  frozenTags : d'.frozenTags = d.frozenTags
  delayed : d'.delayed = d.delayed
  own : d'.own = d.own

structure Unserved (d d' : FrozenDesk V) : Prop extends Alike d d' where
  served : d'.served = d.served
  told : d'.told = d.told
  readings : d'.readings = d.readings

variable {d' d'' : FrozenDesk V} {w' : StatusWatch V}

lemma Alike.refl (d : FrozenDesk V) : Alike d d := ⟨rfl, rfl, rfl, rfl, rfl, rfl⟩

lemma Alike.trans (h : Alike d d') (h' : Alike d' d'') : Alike d d'' :=
  ⟨h'.connected.trans h.connected, h'.withdrawn.trans h.withdrawn, h'.minTick.trans h.minTick,
    h'.frozenTags.trans h.frozenTags, h'.delayed.trans h.delayed, h'.own.trans h.own⟩

lemma Alike.fellBack (h : Alike d d') : d'.fellBack = d.fellBack := by
  unfold FrozenDesk.fellBack
  rw [h.delayed]

lemma Unserved.refl (d : FrozenDesk V) : Unserved d d := ⟨Alike.refl d, rfl, rfl, rfl⟩

lemma Unserved.trans (h : Unserved d d') (h' : Unserved d' d'') : Unserved d d'' :=
  ⟨h.toAlike.trans h'.toAlike, h'.served.trans h.served, h'.told.trans h.told,
    h'.readings.trans h.readings⟩

lemma unserved_watch (d : FrozenDesk V) (w : Option (StatusWatch V)) :
    Unserved d { d with watch := w } :=
  { Unserved.refl d with }

lemma unserved_askFrozenPair (d : FrozenDesk V) (feed : FrozenFeed) :
    Unserved d (d.askFrozenPair feed) := by
  unfold askFrozenPair
  split
  · exact { Unserved.refl d with }
  · split_ifs
    · exact { Unserved.refl d with }
    · exact { Unserved.refl d with }

lemma alike_serve (d : FrozenDesk V) (frozen delayedFrozen : Bool) :
    Alike d (d.serve frozen delayedFrozen) := by
  unfold serve
  split
  · exact { Alike.refl d with }
  · dsimp only
    split_ifs
    · exact { Alike.refl d with }
    · split <;> exact { Alike.refl d with }
    · exact { Alike.refl d with }

lemma alike_enterFrozenState (d : FrozenDesk V) : Alike d d.enterFrozenState := by
  unfold enterFrozenState
  split
  · exact { Alike.refl d with }
  · rename_i w hw
    have hask := (unserved_askFrozenPair
      { d with watch := some { w with inFrozenState := true } } .frozen).toAlike
    dsimp only
    split_ifs
    · exact { hask.trans (unserved_askFrozenPair _ .delayedFrozen).toAlike with }
    · exact { hask.trans (alike_serve _ true false) with }
    · exact { hask with }

lemma alike_leaveFrozenState (d : FrozenDesk V) (told : Bool) :
    Alike d (d.leaveFrozenState told) := by
  unfold leaveFrozenState
  split
  · exact { Alike.refl d with }
  · dsimp only
    split_ifs
    · exact { alike_serve _ false false with }
    · exact { Alike.refl d with }

lemma alike_applyStatus (d : FrozenDesk V) (closed : Bool) : Alike d (d.applyStatus closed) := by
  unfold applyStatus
  split
  · exact { Alike.refl d with }
  · dsimp only
    split_ifs
    · exact { Alike.refl d with }
    · exact { alike_enterFrozenState _ with }
    · exact { alike_leaveFrozenState _ true with }
    · exact { Alike.refl d with }

lemma unserved_withdrawStatusWatch (d : FrozenDesk V) : Unserved d d.withdrawStatusWatch := by
  unfold withdrawStatusWatch
  split
  · exact { Unserved.refl d with }
  · dsimp only
    split <;> exact { Unserved.refl d with }

lemma unserved_leave (d : FrozenDesk V) : Unserved d (d.leaveFrozenState false) := by
  unfold leaveFrozenState
  split <;> exact { Unserved.refl d with }

lemma unserved_statusOnRefusal (d : FrozenDesk V) (fallsBack : Bool) :
    Unserved d (d.statusOnRefusal fallsBack) := by
  unfold statusOnRefusal
  split
  · exact Unserved.refl d
  · rename_i w hw
    generalize (if fallsBack then [] else w.refused) = refused
    have hnoted := unserved_watch d (some { w with frozen := false, refused := refused })
    dsimp only
    split_ifs
    · exact hnoted.trans (unserved_leave _)
    · exact hnoted
    · exact (hnoted.trans (unserved_leave _)).trans (unserved_withdrawStatusWatch _)
    · exact hnoted.trans (unserved_withdrawStatusWatch _)

/-! ## What is served and what is held -/

/-- A watch of a subscription: it shows and is armed in the frozen state alone, as the subscription
stands, and its own quote is kept. -/
structure Watched (d : FrozenDesk V) (w : StatusWatch V) : Prop extends Consistent d w where
  quiet : w.inFrozenState = false →
    w.showsFrozen = false ∧ w.showsDelayedFrozen = false ∧ w.armed = false
  armed : w.armed = true → d.fellBack = true ∧ w.showsDelayedFrozen = false
  kept : d.Kept w

lemma Kept.congr (h : d.Kept w) (hw : d.watch = some w) (hw' : d'.watch = some w')
    (hsame : Unserved d d') (hfrozen : w'.showsFrozen = w.showsFrozen)
    (hdelayed : w'.showsDelayedFrozen = w.showsDelayedFrozen) (hheld : w'.held = w.held) :
    d'.Kept w' := by
  have hserving : d'.serving = d.serving := by
    rw [serving_of_watch hw, serving_of_watch hw', hfrozen, hdelayed]
  unfold Kept at h ⊢
  rw [hheld, hserving, hsame.served, hsame.own, hsame.readings]
  exact h

lemma Watched.congr (h : d.Watched w) (hw : d.watch = some w) (hw' : d'.watch = some w')
    (hsame : Unserved d d') (hstate : w'.inFrozenState = false → w.inFrozenState = false)
    (hfrozen : w'.showsFrozen = w.showsFrozen)
    (hdelayed : w'.showsDelayedFrozen = w.showsDelayedFrozen) (harmed : w'.armed = w.armed)
    (hheld : w'.held = w.held) : d'.Watched w' where
  frozen := by
    rw [hfrozen, hsame.fellBack]
    exact h.frozen
  delayed := by
    rw [hdelayed, hsame.fellBack]
    exact h.delayed
  quiet hout := by
    rw [hfrozen, hdelayed, harmed]
    exact h.quiet (hstate hout)
  armed := by
    rw [harmed, hsame.fellBack, hdelayed]
    exact h.armed
  kept := h.kept.congr hw hw' hsame hfrozen hdelayed hheld

lemma watched_of_quiet (hw : d.watch = some w) (hfrozen : w.showsFrozen = false)
    (hdelayed : w.showsDelayedFrozen = false) (hheld : w.held = none)
    (hback : w.armed = true → d.fellBack = true)
    (hstate : w.inFrozenState = false → w.armed = false) (hserved : d.served = d.own) :
    d.Watched w where
  frozen h := absurd (hfrozen.symm.trans h) Bool.false_ne_true
  delayed h := absurd (hdelayed.symm.trans h) Bool.false_ne_true
  quiet h := ⟨hfrozen, hdelayed, hstate h⟩
  armed h := ⟨hback h, hdelayed⟩
  kept := by
    unfold Kept
    rw [hheld, serving_of_watch hw, hfrozen, hdelayed]
    exact ⟨rfl, hserved⟩

lemma Watched.held_of_quiet (h : d.Watched w) (hw : d.watch = some w)
    (hout : w.inFrozenState = false) : w.held = none ∧ d.served = d.own := by
  obtain ⟨hfrozen, hdelayed, -⟩ := h.quiet hout
  have hkept := h.kept
  unfold Kept at hkept
  rw [serving_of_watch hw, hfrozen, hdelayed] at hkept
  cases hheld : w.held with
  | none =>
      rw [hheld] at hkept
      exact ⟨rfl, hkept.2⟩
  | some held =>
      rw [hheld] at hkept
      exact absurd rfl hkept.1

lemma watch_askFrozenPair (hw : d.watch = some w) (feed : FrozenFeed) :
    ∃ pairs, (d.askFrozenPair feed).watch = some { w with pairs := pairs } := by
  unfold askFrozenPair
  rw [hw]
  dsimp only
  split_ifs
  · exact ⟨w.pairs, hw⟩
  · exact ⟨_, rfl⟩

lemma Watched.enters (h : d.Watched w) (hw : d.watch = some w) (hout : w.inFrozenState = false) :
    ∃ w', d.enterFrozenState.watch = some w' ∧ d.enterFrozenState.Watched w' := by
  obtain ⟨hfrozen, hdelayed, harmed⟩ := h.quiet hout
  obtain ⟨hheld, hserved⟩ := h.held_of_quiet hw hout
  obtain ⟨pairs, hasked⟩ := watch_askFrozenPair
    (d := { d with watch := some { w with inFrozenState := true } }) rfl .frozen
  have hsame : Unserved d (askFrozenPair
      { d with watch := some { w with inFrozenState := true } } .frozen) :=
    { unserved_askFrozenPair _ .frozen with }
  have hwatched := h.congr hw hasked hsame (fun hin => nomatch hin) rfl rfl rfl rfl
  unfold enterFrozenState
  rw [hw]
  dsimp only
  split_ifs with hback hlive
  · obtain ⟨pairs', hasked'⟩ := watch_askFrozenPair hasked .delayedFrozen
    have hsame' : Unserved d (arm (askFrozenPair _ .delayedFrozen)) :=
      { hsame.trans (unserved_askFrozenPair _ .delayedFrozen) with }
    refine ⟨_, by rw [arm, hasked']; rfl, ?_⟩
    refine watched_of_quiet (by rw [arm, hasked']; rfl) hfrozen hdelayed hheld (fun _ => ?_)
      (fun hin => nomatch hin) ?_
    · exact hsame'.fellBack.trans hback
    · exact hsame'.served.trans (hserved.trans hsame'.own.symm)
  · have hlive' : d.fellBack = false := eq_false_of_ne_true hback
    obtain ⟨held, hshown, hkept, -, -⟩ := serve_spec hasked hwatched.toConsistent
      hwatched.kept true false (fun _ => hsame.fellBack.trans hlive') (fun hd => nomatch hd)
    have halike := hsame.toAlike.trans (alike_serve _ true false)
    refine ⟨_, hshown, ⟨⟨fun _ => halike.fellBack.trans hlive', fun hd => (nomatch hd)⟩,
      fun hin => (nomatch hin), fun ha => ?_, hkept⟩⟩
    exact absurd (harmed.symm.trans ha) Bool.false_ne_true
  · exact ⟨_, hasked, hwatched⟩

lemma Watched.leaves (h : d.Watched w) (hw : d.watch = some w) :
    ∃ w', (d.leaveFrozenState true).watch = some w' ∧ (d.leaveFrozenState true).Watched w' ∧
      (d.leaveFrozenState true).serving = none ∧
      (d.serving ≠ none → ∃ held, w.held = some held ∧
        (d.leaveFrozenState true).told = d.told ++ held.series) := by
  have hwatch : (withdrawFrozenPairs { d with
      serverTags := d.serverTags.filter fun t => t ∉ w.pairs.flatMap FrozenPair.tags
      watch := some { w with inFrozenState := false, armed := false, pairs := [] } }
      w.pairs).watch = some { w with inFrozenState := false, armed := false, pairs := [] } := rfl
  have hserving := (serving_of_watch hwatch).trans (serving_of_watch hw).symm
  have hkeeps := h.kept.congr hw hwatch ⟨⟨rfl, rfl, rfl, rfl, rfl, rfl⟩, rfl, rfl, rfl⟩ rfl rfl rfl
  obtain ⟨held, hshown, hkept, -, htold⟩ := serve_spec hwatch ⟨h.frozen, h.delayed⟩ hkeeps
    false false (fun hf => nomatch hf) (fun hd => nomatch hd)
  unfold leaveFrozenState
  rw [hw]
  refine ⟨_, hshown, ⟨⟨fun hf => (nomatch hf), fun hd => (nomatch hd)⟩, fun _ => ⟨rfl, rfl, rfl⟩,
    fun ha => (nomatch ha), hkept⟩, ?_, fun hother => ?_⟩
  · exact serving_of_watch hshown
  · exact htold (hserving ▸ hother) rfl rfl

lemma Watched.applies (h : d.Watched w) (hw : d.watch = some w) (closed : Bool) :
    ∃ w', (d.applyStatus closed).watch = some w' ∧ (d.applyStatus closed).Watched w' := by
  have hnoted : Watched { d with watch := some { w with closed } } { w with closed } :=
    h.congr hw rfl (unserved_watch d _) id rfl rfl rfl rfl
  unfold applyStatus
  rw [hw]
  dsimp only
  split_ifs with hclosed hnone hopen
  · exact ⟨_, rfl, hnoted⟩
  · rw [Bool.and_eq_true, Bool.not_eq_true'] at hclosed
    exact hnoted.enters rfl hclosed.2
  · obtain ⟨w', hw', hthis, -, -⟩ := hnoted.leaves rfl
    exact ⟨w', hw', hthis⟩
  · exact ⟨_, rfl, hnoted⟩

/-! ## A refusal -/

def Quiet (w : StatusWatch V) : Prop :=
  w.showsFrozen = false ∧ w.showsDelayedFrozen = false ∧ w.armed = false ∧ w.held = none

lemma quiet_statusOnRefusal (fallsBack : Bool)
    (h : ∀ w ∈ d.watch, w.inFrozenState = false → Quiet w) :
    ∀ w ∈ (d.statusOnRefusal fallsBack).watch,
      fallsBack = true ∧ w.inFrozenState = false ∧ Quiet w := by
  intro w' hw'
  unfold statusOnRefusal at hw'
  split at hw'
  · rename_i hw
    exact absurd (hw.symm.trans hw') (Option.some_ne_none w').symm
  · rename_i w hw
    generalize (if fallsBack then [] else w.refused) = refused at hw'
    dsimp only at hw'
    split_ifs at hw' with hkeeps hin hin
    · obtain rfl := Option.some.inj hw'
      exact ⟨(Bool.and_eq_true_iff.1 hkeeps).1, rfl, rfl, rfl, rfl, rfl⟩
    · obtain rfl := Option.some.inj hw'
      exact ⟨(Bool.and_eq_true_iff.1 hkeeps).1, eq_false_of_ne_true hin,
        h w hw (eq_false_of_ne_true hin)⟩
    · unfold withdrawStatusWatch leaveFrozenState at hw'
      simp only [Bool.false_eq_true, if_false, withdrawFrozenPairs] at hw'
      split at hw' <;> exact absurd hw' (Option.not_mem_none _)
    · unfold withdrawStatusWatch at hw'
      simp only [withdrawFrozenPairs] at hw'
      split at hw' <;> exact absurd hw' (Option.not_mem_none _)

lemma watched_statusOnFallback (hserved : d.served = d.own)
    (h : ∀ w ∈ d.watch, w.inFrozenState = false → Quiet w) :
    ∀ w ∈ d.statusOnFallback.watch, d.statusOnFallback.Watched w := by
  have hrefused := quiet_statusOnRefusal true h
  have hsame := unserved_statusOnRefusal d true
  have hown : (d.statusOnRefusal true).served = (d.statusOnRefusal true).own :=
    hsame.served.trans (hserved.trans hsame.own.symm)
  unfold statusOnFallback
  dsimp only
  split
  · rename_i hnone
    intro w hw
    exact absurd (hnone.symm.trans hw) (Option.some_ne_none w).symm
  · rename_i w hw
    obtain ⟨-, hout, hfrozen, hdelayed, harmed, hheld⟩ := hrefused w hw
    have hwatched : (d.statusOnRefusal true).Watched w := watched_of_quiet hw hfrozen hdelayed hheld
      (fun ha => absurd (harmed.symm.trans ha) Bool.false_ne_true) (fun _ => harmed) hown
    split_ifs with hstatus
    · unfold askStatus
      rw [hw]
      rintro w' hw'
      obtain rfl := Option.some.inj hw'
      exact hwatched.congr hw rfl ⟨⟨rfl, rfl, rfl, rfl, rfl, rfl⟩, rfl, rfl, rfl⟩ id rfl rfl rfl rfl
    · obtain ⟨w', hw', hthis⟩ := hwatched.applies hw w.closed
      intro w'' hw''
      obtain rfl := Option.some.inj (hw'.symm.trans hw'')
      exact hthis

/-! ## Entries -/

lemma serving_congr (h : d'.watch = d.watch) : d'.serving = d.serving := by
  rw [serving, serving, h]

lemma Watched.entersOwn (h : d.Watched w) (hw : d.watch = some w) {tag : ℕ} (e : FeedEntry V)
    (hfeed : d.feedOf tag = none) :
    (∃ w', (d.enter tag e).watch = some w' ∧ (d.enter tag e).Watched w') ∧
      (d.enter tag e).serving = d.serving ∧
      if d.serving = none then d.Served (d.enter tag e) e
      else (d.enter tag e).served = d.served ∧ (d.enter tag e).told = d.told := by
  have hserves := servesItsOwn_eq hw h.toConsistent
  have hkept := h.kept
  unfold Kept at hkept
  unfold enter
  rw [hfeed]
  dsimp only
  cases hheld : w.held with
  | none =>
      rw [hheld] at hkept
      obtain ⟨hown, hserved⟩ := hkept
      rw [hserves, hown, Option.isNone_none, if_pos rfl, if_pos rfl]
      have hwatch : ((d.applyServed e).noteOwn e).watch = some w := by cases e <;> exact hw
      have hserving := serving_congr (hwatch.trans hw.symm)
      refine ⟨⟨w, hwatch, ⟨?_, h.quiet, ?_, ?_⟩⟩, hserving.trans hown, ?_⟩
      · cases e <;> exact ⟨h.frozen, h.delayed⟩
      · cases e <;> exact h.armed
      · unfold Kept
        rw [hheld]
        refine ⟨hserving.trans hown, ?_⟩
        cases e with
        | quote e => exact congrArg (ServedQuote.apply d.minTick · e) hserved
        | reading tickType value => exact hserved
      · cases e <;> exact ⟨rfl, rfl⟩
  | some held =>
      rw [hheld] at hkept
      obtain ⟨hother, hstated, hnodup, hlast⟩ := hkept
      have hno : d.serving.isNone = false := by
        cases hs : d.serving with
        | none => exact absurd hs hother
        | some f => rfl
      rw [hserves, hno, if_neg Bool.false_ne_true, if_neg hother]
      cases e with
      | quote e =>
          have hwatch : ((d.applyHeld (.quote e)).noteOwn (.quote e)).watch =
              some { w with held := some { held with
                stated := held.stated.apply d.minTick e } } := by
            rw [noteOwn, applyHeld, hw, Option.map_some, hheld, Option.map_some]
          have hserving := (serving_of_watch hwatch).trans (serving_of_watch hw).symm
          refine ⟨⟨_, hwatch, ⟨⟨h.frozen, h.delayed⟩, h.quiet, h.armed, ?_⟩⟩, hserving, rfl, rfl⟩
          exact ⟨hserving ▸ hother, congrArg (ServedQuote.apply d.minTick · e) hstated, hnodup,
            hlast⟩
      | reading tickType value =>
          have hwatch : ((d.applyHeld (.reading tickType value)).noteOwn
              (.reading tickType value)).watch = some { w with held := some { held with
                series := renew Prod.fst held.series (tickType, value) } } := by
            rw [noteOwn, applyHeld, hw, Option.map_some, hheld, Option.map_some]
          have hserving := (serving_of_watch hwatch).trans (serving_of_watch hw).symm
          refine ⟨⟨_, hwatch, ⟨⟨h.frozen, h.delayed⟩, h.quiet, h.armed, ?_⟩⟩, hserving, rfl, rfl⟩
          refine ⟨hserving ▸ hother, hstated, nodup_renew hnodup _, fun k => ?_⟩
          exact (at?_renew _ _ k).trans (by rw [hlast]; exact (at?_cons _ _ k).symm)

lemma Watched.applyServed (h : d.Watched w) (hw : d.watch = some w) (hother : d.serving ≠ none)
    (e : FeedEntry V) : (d.applyServed e).watch = some w ∧ (d.applyServed e).Watched w ∧
      (d.applyServed e).serving = d.serving := by
  have hwatch : (d.applyServed e).watch = some w := by cases e <;> exact hw
  have hserving := serving_congr (hwatch.trans hw.symm)
  refine ⟨hwatch, ⟨?_, h.quiet, ?_, ?_⟩, hserving⟩
  · cases e <;> exact ⟨h.frozen, h.delayed⟩
  · cases e <;> exact h.armed
  · have hkept := h.kept
    unfold Kept at hkept ⊢
    cases hheld : w.held with
    | none =>
        rw [hheld] at hkept
        exact absurd hkept.1 hother
    | some held =>
        rw [hheld] at hkept
        rw [hserving]
        cases e <;> exact hkept

lemma Watched.entersOther (h : d.Watched w) (hw : d.watch = some w) {tag : ℕ} (e : FeedEntry V)
    {feed : FrozenFeed} (hfeed : d.feedOf tag = some feed) :
    (∃ w', (d.enter tag e).watch = some w' ∧ (d.enter tag e).Watched w') ∧
      if some feed = (d.enter tag e).serving then d.Served (d.enter tag e) e
      else (d.enter tag e).served = d.served ∧ (d.enter tag e).told = d.told := by
  have hserving := serving_of_watch hw
  have hserved : d.Served (d.applyServed e) e := by cases e <;> exact ⟨rfl, rfl⟩
  unfold enter
  rw [hfeed, hw]
  cases feed with
  | frozen =>
      dsimp only
      rw [Option.any_some]
      split_ifs with hshows hsame hsame
      · rw [if_pos hshows] at hserving
        obtain ⟨hwatch, hwatched, -⟩ := h.applyServed hw (by rw [hserving]; simp) e
        exact ⟨⟨w, hwatch, hwatched⟩, hserved⟩
      · rw [if_pos hshows] at hserving
        obtain ⟨-, -, hthis⟩ := h.applyServed hw (by rw [hserving]; simp) e
        exact absurd (hthis.trans hserving).symm hsame
      · rw [if_neg hshows] at hserving
        rw [hserving] at hsame
        exact absurd hsame (by split_ifs <;> simp)
      · exact ⟨⟨w, hw, h⟩, rfl, rfl⟩
  | delayedFrozen =>
      dsimp only
      rw [Option.any_some, Option.any_some, Option.map_some]
      by_cases hshows : w.showsDelayedFrozen = true
      · have hlive : w.showsFrozen = false := by
          by_contra hf
          exact absurd ((h.frozen (eq_true_of_ne_false hf)).symm.trans (h.delayed hshows))
            Bool.false_ne_true
        rw [hlive, if_neg Bool.false_ne_true, if_pos hshows] at hserving
        obtain ⟨hwatch, hwatched, hthis⟩ := h.applyServed hw (by rw [hserving]; simp) e
        rw [if_pos hshows, if_pos (hthis.trans hserving).symm]
        exact ⟨⟨w, hwatch, hwatched⟩, hserved⟩
      · rw [if_neg hshows]
        by_cases harmed : w.armed = true
        · obtain ⟨hback, hnot⟩ := h.armed harmed
          have hlive : w.showsFrozen = false := by
            by_contra hf
            exact absurd ((h.frozen (eq_true_of_ne_false hf)).symm.trans hback) Bool.false_ne_true
          have hkeeps : Kept { d with watch := some { w with armed := false } }
              { w with armed := false } :=
            h.kept.congr hw rfl (unserved_watch d _) rfl rfl rfl
          have hnone : serving { d with watch := some { w with armed := false } } = none := by
            rw [serving_of_watch rfl]
            simp [hlive, hnot]
          obtain ⟨held, hshown, hkept, hsame, -⟩ := serve_spec
            (d := { d with watch := some { w with armed := false } }) rfl ⟨h.frozen, h.delayed⟩
            hkeeps false true (fun hf => nomatch hf) (fun _ => hback)
          have halike := alike_serve { d with watch := some { w with armed := false } } false true
          have hthis : serving (serve { d with watch := some { w with armed := false } } false
              true) = some .delayedFrozen := serving_of_watch hshown
          have hin : w.inFrozenState ≠ false := fun hout =>
            absurd ((h.quiet hout).2.2.symm.trans harmed) Bool.false_ne_true
          have hnow : Watched (serve { d with watch := some { w with armed := false } } false true)
              { w with armed := false, showsFrozen := false, showsDelayedFrozen := true,
                       held := held } :=
            ⟨⟨fun hf => (nomatch hf), fun _ => halike.fellBack.trans hback⟩,
              fun hout => absurd hout hin, fun ha => (nomatch ha), hkept⟩
          obtain ⟨hwatch, hwatched, hserves⟩ := hnow.applyServed hshown (by rw [hthis]; simp) e
          rw [if_pos harmed, if_pos ((hserves.trans hthis).symm)]
          refine ⟨⟨_, hwatch, hwatched⟩, ?_⟩
          obtain ⟨hserved', htold'⟩ := hsame hnone
          cases e with
          | quote e =>
              have hmin := halike.minTick
              refine ⟨?_, htold'⟩
              rw [FrozenDesk.applyServed]
              dsimp only
              rw [hserved', hmin]
          | reading tickType value =>
              exact ⟨hserved', congrArg (· ++ [(tickType, value)]) htold'⟩
        · have hother : some FrozenFeed.delayedFrozen ≠ d.serving := by
            rw [hserving, if_neg hshows]
            split_ifs <;> simp
          rw [if_neg harmed, if_neg hother]
          exact ⟨⟨w, hw, h⟩, rfl, rfl⟩

end FrozenDesk

end IbkrDx
