import Mathlib.Algebra.Order.Group.Multiset
import Mathlib.Tactic.Abel
import IbkrDx.Lib.InLine
import IbkrDx.Lib.Removal
import IbkrDx.Lib.Runs

/-!
# Spread scans of a contract

A contract has one spread scan at the venue at a time.  A scan asked while one stands is held,
`take_subscription` of `engine/hot_loop/market_requests.rs`, and the withdrawal of the one before
releases it, `release_next_scan`: it joins the requests whose contracts the venue has named, and a
lap takes it from there.

* **`scans_in_turn`** — under the condition the scans of a contract are taken one at a time and in
  the order they were asked.

What a request's lookup comes to, and whether the feed has been given up, the allowance is spent or
the contract is priced off another, is said by each event.  A request carries when it was first
handed over, which no function reads.
-/

namespace IbkrDx

/-! ## The desk -/

/-- What of a request for market data decides whether and when it is taken. -/
structure MdRequest where
  reqId : ℤ
  /-- The contract it names, zero until the venue numbers it. -/
  conId : ℤ
  scan : Bool
  calculation : Bool
  /-- When it was first handed to `takeSubscription`. -/
  asked : Option ℕ := none
  deriving DecidableEq

structure ScanDesk where
  mdRequests : List MdRequest := []
  heldScans : List MdRequest := []
  /-- Those a lap has started on. -/
  cmdBuf : List MdRequest := []
  /-- Those released, or named by the venue, for the next lap. -/
  resolvedNamed : List MdRequest := []
  pendingNamed : List (ℕ × MdRequest) := []
  clock : ℕ := 0

structure MdStanding where
  halted : Bool
  /-- A watch of the engine's on a contract priced off another. -/
  pricedOff : Bool
  /-- It would begin a stream, and every line is in use. -/
  spent : Bool
  deriving DecidableEq

def MdStanding.clear : MdStanding := ⟨false, false, false⟩

/-- What becomes of a request on its way to `takeSubscription`. -/
inductive MdNaming where
  | asItStands
  | lookedUp (lookup : ℕ)
  | abandoned
  deriving DecidableEq

inductive MdAnswer where
  | unavailable | duplicate | calculationKept | held | notAsked | tooMany | taken
  /-- It waits for a name, or is refused for want of one. -/
  | naming | unnamed
  deriving DecidableEq

namespace ScanDesk

def handed (d : ScanDesk) (s : MdRequest) : MdRequest :=
  { s with asked := some (s.asked.getD d.clock) }

def waits (d : ScanDesk) (reqId : ℤ) : Bool :=
  (d.heldScans ++ d.resolvedNamed ++ d.pendingNamed.map Prod.snd).any (·.reqId = reqId)

def scans (d : ScanDesk) (conId : ℤ) : Bool :=
  d.mdRequests.any fun r => r.scan && decide (r.conId = conId)

def takeSubscription (d : ScanDesk) (standing : MdStanding) (s : MdRequest) : ScanDesk × MdAnswer :=
  if standing.halted then (d, .unavailable)
  else if d.waits s.reqId then (d, .duplicate)
  else
    match d.mdRequests.find? (·.reqId = s.reqId) with
    | some held =>
        if s.calculation ∧ s.conId ≠ 0 ∧ held.conId = s.conId then (d, .calculationKept)
        else (d, .duplicate)
    | none =>
        if s.scan ∧ 0 < s.conId ∧ d.scans s.conId then
          ({ d with heldScans := d.heldScans ++ [d.handed s], clock := d.clock + 1 }, .held)
        else if standing.pricedOff then (d, .notAsked)
        else if standing.spent then (d, .tooMany)
        else
          ({ d with mdRequests := d.mdRequests ++ [d.handed s], clock := d.clock + 1 }, .taken)

/-- Whether a number is held already, by a request it could not share. -/
def claimed (d : ScanDesk) (s : MdRequest) : Bool :=
  (d.mdRequests.find? (·.reqId = s.reqId)).any (fun held =>
      !(s.calculation && decide (s.conId ≠ 0) && decide (held.conId = s.conId)))
    || d.pendingNamed.any (·.2.reqId = s.reqId)

/-- Carry a request to `takeSubscription`, or hold it until the venue names its contract. -/
def carry (d : ScanDesk) (standing : MdStanding) (naming : MdNaming) (s : MdRequest) :
    ScanDesk × MdAnswer :=
  if d.claimed s then d.takeSubscription standing s
  else
    match naming with
    | .asItStands => d.takeSubscription standing s
    | .lookedUp lookup => ({ d with pendingNamed := d.pendingNamed ++ [(lookup, s)] }, .naming)
    | .abandoned => (d, .unnamed)

def releaseNextScan (d : ScanDesk) (conId : ℤ) : ScanDesk :=
  match d.heldScans.find? (·.conId = conId) with
  | none => d
  | some s =>
      { d with
        heldScans := d.heldScans.eraseP (·.conId = conId)
        resolvedNamed := d.resolvedNamed ++ [s] }

/-- Withdraw a market-data request, by the caller's number for it. -/
def withdrawMktData (d : ScanDesk) (reqId : ℤ) : ScanDesk :=
  if d.pendingNamed.any (·.2.reqId = reqId) then
    { d with pendingNamed := d.pendingNamed.filter (·.2.reqId ≠ reqId) }
  else
    match d.resolvedNamed.find? (·.reqId = reqId) with
    | some s =>
        releaseNextScan { d with resolvedNamed := d.resolvedNamed.eraseP (·.reqId = reqId) } s.conId
    | none =>
        if d.heldScans.any (·.reqId = reqId) then
          { d with heldScans := d.heldScans.eraseP (·.reqId = reqId) }
        else
          match d.mdRequests.find? (·.reqId = reqId) with
          | none => d
          | some r =>
              let rest := { d with mdRequests := d.mdRequests.eraseP (·.reqId = reqId) }
              if r.scan then rest.releaseNextScan r.conId else rest

/-- What is left once the questions under a number that wait for a name are gone. -/
def forgetCalculation (d : ScanDesk) (reqId : ℤ) : ScanDesk :=
  { d with
    pendingNamed := d.pendingNamed.filter fun p => !(p.2.reqId = reqId && p.2.calculation)
    resolvedNamed := d.resolvedNamed.filter fun s => !(s.reqId = reqId && s.calculation) }

def forCalculation (d : ScanDesk) (reqId : ℤ) : Bool :=
  (d.mdRequests.find? (·.reqId = reqId)).any (·.calculation)

def withdrawCalculation (d : ScanDesk) (reqId : ℤ) : ScanDesk :=
  if d.forCalculation reqId then (d.forgetCalculation reqId).withdrawMktData reqId
  else d.forgetCalculation reqId

def name (d : ScanDesk) (lookup : ℕ) (conId : ℤ) : ScanDesk :=
  match d.pendingNamed.find? (·.1 = lookup) with
  | none => d
  | some p =>
      { d with
        pendingNamed := d.pendingNamed.eraseP (·.1 = lookup)
        resolvedNamed := d.resolvedNamed ++ [{ p.2 with conId := conId }] }

end ScanDesk

/-! ## Runs -/

inductive ScanEvent where
  | asked (s : MdRequest) (standing : MdStanding) (naming : MdNaming)
  /-- A lap starts on the first of the requests released or named. -/
  | lap (n : ℕ)
  | carried (standing : MdStanding) (naming : MdNaming)
  | named (lookup : ℕ) (conId : ℤ)
  | givenUp (lookups : ℕ → Bool)
  | withdrawn (reqId : ℤ)
  | calculationWithdrawn (reqId : ℤ)

/-- The desk beside the scans taken of each contract, each by when it was asked. -/
structure ScanRun where
  desk : ScanDesk := {}
  taken : ℤ → List ℕ := fun _ => []

namespace ScanRun

def carry (w : ScanRun) (standing : MdStanding) (naming : MdNaming) (s : MdRequest) : ScanRun where
  desk := (w.desk.carry standing naming s).1
  taken := if (w.desk.carry standing naming s).2 = .taken ∧ s.scan then
      Function.update w.taken s.conId (w.taken s.conId ++ [s.asked.getD w.desk.clock])
    else w.taken

def step (w : ScanRun) : ScanEvent → ScanRun
  | .asked s standing naming => w.carry standing naming { s with asked := none }
  | .lap n =>
      { w with
        desk := { w.desk with
          cmdBuf := w.desk.cmdBuf ++ w.desk.resolvedNamed.take n
          resolvedNamed := w.desk.resolvedNamed.drop n } }
  | .carried standing naming =>
      match w.desk.cmdBuf with
      | [] => w
      | s :: rest => carry { w with desk := { w.desk with cmdBuf := rest } } standing naming s
  | .named lookup conId => { w with desk := w.desk.name lookup conId }
  | .givenUp lookups =>
      { w with
        desk := { w.desk with pendingNamed := w.desk.pendingNamed.filter fun p => !lookups p.1 } }
  | .withdrawn reqId => { w with desk := w.desk.withdrawMktData reqId }
  | .calculationWithdrawn reqId => { w with desk := w.desk.withdrawCalculation reqId }

end ScanRun

namespace ScanDesk

def live (d : ScanDesk) (conId : ℤ) : List MdRequest :=
  d.mdRequests.filter fun s => s.scan && decide (s.conId = conId)

/-- The scans of a contract that were held, and are released and not yet taken. -/
def released (d : ScanDesk) (conId : ℤ) : List MdRequest :=
  (d.cmdBuf ++ d.resolvedNamed).filter fun s =>
    s.scan && decide (s.conId = conId) && s.asked.isSome

def held (d : ScanDesk) (conId : ℤ) : List MdRequest := d.heldScans.filter (·.conId = conId)

end ScanDesk

/-- **What is asked of a state.** -/
structure InTurn (w : ScanRun) : Prop where
  /-- One scan of a contract is taken at a time. -/
  one : ∀ conId, 0 < conId → (w.desk.live conId).length ≤ 1
  behind : ∀ s ∈ w.desk.heldScans, ∃ earlier ∈ w.desk.live s.conId ++ w.desk.released s.conId,
    ∃ t ∈ earlier.asked, ∃ u ∈ s.asked, t < u
  /-- The scans of a contract are taken in the order they were asked. -/
  inOrder : ∀ conId, 0 < conId → (w.taken conId).Pairwise (· < ·)
  /-- Those that wait were asked after those taken. -/
  later : ∀ conId, 0 < conId → ∀ s ∈ w.desk.released conId ++ w.desk.held conId,
    ∀ t ∈ w.taken conId, ∀ u ∈ s.asked, t < u

/-- **What is asked of an event**: a scan released is taken, or is refused. -/
def TakesTurn (w : ScanRun) : ScanEvent → Prop
  | .carried standing naming => ∀ s ∈ w.desk.cmdBuf.head?, s.scan → s.asked.isSome →
      (({ w.desk with cmdBuf := w.desk.cmdBuf.tail }).carry standing naming s).2 ≠ .held
  | _ => True

/-! ## Where each request is -/

/-- What of a request the naming of its contract and the stamp leave as the caller stated it. -/
def MdRequest.caller (s : MdRequest) : ℤ × Bool × Bool := (s.reqId, s.scan, s.calculation)

/-- The request goes no further: refused, or the one it would repeat stands for it. -/
def MdAnswer.ends : MdAnswer → Bool
  | .held | .taken | .naming => false
  | _ => true

/-- What an answer lets go of. -/
def MdAnswer.letsGo (answer : MdAnswer) (s : MdRequest) : Multiset MdRequest :=
  if answer.ends then {s} else 0

/-- The requests taken, held, released or named, and waiting for a name. -/
def ScanDesk.inHand (d : ScanDesk) : Multiset MdRequest :=
  d.mdRequests + d.heldScans + d.resolvedNamed + d.pendingNamed.map Prod.snd

/-- Those, and the requests a lap has started on. -/
def ScanDesk.all (d : ScanDesk) : Multiset MdRequest := d.inHand + d.cmdBuf

def ScanEvent.handedOver : ScanEvent → Multiset MdRequest
  | .asked s _ _ => {{ s with asked := none }}
  | _ => 0

/-- **What an event lets go of**: a request it refuses or withdraws. -/
def LetsGo (w : ScanRun) (gone : Multiset MdRequest) : ScanEvent → Prop
  | .asked s standing naming =>
      gone = (w.desk.carry standing naming { s with asked := none }).2.letsGo { s with asked := none }
  | .carried standing naming => ∀ s ∈ w.desk.cmdBuf.head?,
      gone = (({ w.desk with cmdBuf := w.desk.cmdBuf.tail }).carry standing naming s).2.letsGo s
  | .givenUp lookups => gone = (w.desk.pendingNamed.filter fun p => lookups p.1).map Prod.snd
  | .withdrawn reqId => (∀ s ∈ gone, s.reqId = reqId) ∧
      (gone = 0 → ∀ s ∈ w.desk.inHand, s.reqId ≠ reqId)
  | .calculationWithdrawn reqId => ∀ s ∈ gone, s.reqId = reqId
  | .lap _ | .named _ _ => gone = 0

/-- **Nothing is lost and nothing is doubled**: behind an event each request handed over is taken,
held, released or waiting, once, or is one the event lets go of. -/
def Accounted (w : ScanRun) (e : ScanEvent) : Prop :=
  ∃ gone, LetsGo w gone e ∧
    (w.desk.all + e.handedOver).map MdRequest.caller = ((w.step e).desk.all + gone).map MdRequest.caller

/-! ## The condition -/

namespace ScanDesk

/-- A scan handed over for the first time finds none of its contract released, where none is
taken. -/
def FindsNoneReleased (d : ScanDesk) (naming : MdNaming) (s : MdRequest) : Prop :=
  naming = .asItStands → s.scan → 0 < s.conId → d.live s.conId = [] → d.released s.conId = []

/-- A scan released finds nothing against its being taken. -/
def Free (d : ScanDesk) (standing : MdStanding) (naming : MdNaming) (s : MdRequest) : Prop :=
  standing = .clear ∧ naming = .asItStands ∧ d.waits s.reqId = false ∧
    d.mdRequests.all (·.reqId ≠ s.reqId)

def CarriedInTurn (d : ScanDesk) (standing : MdStanding) (naming : MdNaming) (s : MdRequest) :
    Prop :=
  if s.asked = none then d.FindsNoneReleased naming s
  else (∀ lookup, naming ≠ .lookedUp lookup) ∧
    (s.scan → d.held s.conId = [] ∨ d.Free standing naming s)

/-- A request withdrawn between its naming and its taking is a scan released, or no scan of its
contract is held. -/
def WithdrawnInTurn (d : ScanDesk) (reqId : ℤ) : Prop :=
  d.pendingNamed.any (·.2.reqId = reqId) ∨
    ∀ s ∈ d.resolvedNamed.find? (·.reqId = reqId),
      (s.scan ∧ s.asked.isSome) ∨ d.held s.conId = []

instance (d : ScanDesk) (naming : MdNaming) (s : MdRequest) :
    Decidable (d.FindsNoneReleased naming s) := inferInstanceAs (Decidable (_ → _ → _ → _ → _))

instance (d : ScanDesk) (standing : MdStanding) (naming : MdNaming) (s : MdRequest) :
    Decidable (d.Free standing naming s) := inferInstanceAs (Decidable (_ ∧ _ ∧ _ ∧ _))

instance : (naming : MdNaming) → Decidable (∀ lookup, naming ≠ .lookedUp lookup)
  | .asItStands => isTrue fun _ => nofun
  | .lookedUp lookup => isFalse fun h => h lookup rfl
  | .abandoned => isTrue fun _ => nofun

instance (d : ScanDesk) (standing : MdStanding) (naming : MdNaming) (s : MdRequest) :
    Decidable (d.CarriedInTurn standing naming s) :=
  inferInstanceAs (Decidable (if s.asked = none then _ else _ ∧ (_ → _ ∨ _)))

instance (d : ScanDesk) (reqId : ℤ) : Decidable (d.WithdrawnInTurn reqId) :=
  inferInstanceAs (Decidable ((d.pendingNamed.any (·.2.reqId = reqId)) = true ∨
    ∀ s ∈ d.resolvedNamed.find? (·.reqId = reqId),
      (s.scan = true ∧ s.asked.isSome = true) ∨ d.held s.conId = []))

end ScanDesk

/-- **The condition.** -/
def PassesOn (w : ScanRun) : ScanEvent → Prop
  | .asked s _ naming => w.desk.FindsNoneReleased naming s
  | .carried standing naming => ∀ s ∈ w.desk.cmdBuf.head?,
      ({ w.desk with cmdBuf := w.desk.cmdBuf.tail }).CarriedInTurn standing naming s
  | .withdrawn reqId => w.desk.WithdrawnInTurn reqId
  | .calculationWithdrawn reqId =>
      (∀ s ∈ w.desk.resolvedNamed, s.reqId = reqId → s.calculation → s.scan →
        s.asked.isSome → w.desk.held s.conId = []) ∧
      (w.desk.forCalculation reqId → (w.desk.forgetCalculation reqId).WithdrawnInTurn reqId)
  | _ => True

instance (w : ScanRun) : DecidablePred (PassesOn w)
  | .asked s _ naming => inferInstanceAs (Decidable (w.desk.FindsNoneReleased naming s))
  | .carried standing naming => inferInstanceAs (Decidable (∀ s ∈ w.desk.cmdBuf.head?,
      ({ w.desk with cmdBuf := w.desk.cmdBuf.tail }).CarriedInTurn standing naming s))
  | .withdrawn reqId => inferInstanceAs (Decidable (w.desk.WithdrawnInTurn reqId))
  | .calculationWithdrawn reqId => inferInstanceAs (Decidable (
      (∀ s ∈ w.desk.resolvedNamed, s.reqId = reqId → s.calculation → s.scan →
        s.asked.isSome → w.desk.held s.conId = []) ∧
      (w.desk.forCalculation reqId → (w.desk.forgetCalculation reqId).WithdrawnInTurn reqId)))
  | .lap _ | .named _ _ | .givenUp _ => isTrue trivial

/-! ## What takes a request -/

namespace ScanDesk

variable {d : ScanDesk} {standing : MdStanding} {naming : MdNaming} {s : MdRequest}

inductive Comes (d : ScanDesk) (s : MdRequest) : ScanDesk × MdAnswer → Prop where
  | left {answer : MdAnswer} (hheld : answer ≠ .held) (htaken : answer ≠ .taken) :
      Comes d s (d, answer)
  | held (hscan : s.scan = true) (hpos : 0 < s.conId) (hscans : d.scans s.conId = true) :
      Comes d s
        ({ d with heldScans := d.heldScans ++ [d.handed s], clock := d.clock + 1 }, .held)
  | taken (hfree : s.scan = true → 0 < s.conId → d.scans s.conId = false) :
      Comes d s
        ({ d with mdRequests := d.mdRequests ++ [d.handed s], clock := d.clock + 1 }, .taken)

lemma comes_takeSubscription (d : ScanDesk) (standing : MdStanding) (s : MdRequest) :
    Comes d s (d.takeSubscription standing s) := by
  unfold takeSubscription
  cases d.mdRequests.find? (·.reqId = s.reqId) with
  | some held =>
      dsimp only
      split_ifs
      · exact .left nofun nofun
      · exact .left nofun nofun
      · exact .left nofun nofun
      · exact .left nofun nofun
  | none =>
      dsimp only
      split_ifs with hhalted hwaits hscan hpriced hspent
      · exact .left nofun nofun
      · exact .left nofun nofun
      · exact .held hscan.1 hscan.2.1 hscan.2.2
      · exact .left nofun nofun
      · exact .left nofun nofun
      · refine .taken fun h hpos => ?_
        simpa [h, hpos] using hscan

lemma takeSubscription_of_claimed (standing : MdStanding) (h : d.claimed s = true) :
    (d.takeSubscription standing s).1 = d ∧ (d.takeSubscription standing s).2 ≠ .held ∧
      (d.takeSubscription standing s).2 ≠ .taken := by
  unfold takeSubscription
  cases hfind : d.mdRequests.find? (·.reqId = s.reqId) with
  | some held =>
      dsimp only
      split_ifs
      · exact ⟨rfl, nofun, nofun⟩
      · exact ⟨rfl, nofun, nofun⟩
      · exact ⟨rfl, nofun, nofun⟩
      · exact ⟨rfl, nofun, nofun⟩
  | none =>
      rw [claimed, hfind, Option.any_none, Bool.false_or, List.any_eq_true] at h
      obtain ⟨p, hp, hnumber⟩ := h
      have hwaits : d.waits s.reqId = true :=
        List.any_eq_true.2 ⟨p.2, by simpa using .inr (.inr ⟨p.1, hp⟩), hnumber⟩
      dsimp only
      rw [if_pos hwaits]
      split_ifs
      · exact ⟨rfl, nofun, nofun⟩
      · exact ⟨rfl, nofun, nofun⟩

inductive Carried (d : ScanDesk) (naming : MdNaming) (s : MdRequest) : ScanDesk × MdAnswer → Prop
    where
  | asItStands {r : ScanDesk × MdAnswer} (hnaming : naming = .asItStands) (h : Comes d s r) :
      Carried d naming s r
  | refused {answer : MdAnswer} (hheld : answer ≠ .held) (htaken : answer ≠ .taken) :
      Carried d naming s (d, answer)
  | lookedUp {lookup : ℕ} (hnaming : naming = .lookedUp lookup) :
      Carried d naming s ({ d with pendingNamed := d.pendingNamed ++ [(lookup, s)] }, .naming)

lemma carried_carry (d : ScanDesk) (standing : MdStanding) (naming : MdNaming) (s : MdRequest) :
    Carried d naming s (d.carry standing naming s) := by
  unfold carry
  split_ifs with hclaimed
  · obtain ⟨hdesk, hheld, htaken⟩ := takeSubscription_of_claimed standing hclaimed
    have hr : d.takeSubscription standing s = (d, (d.takeSubscription standing s).2) :=
      Prod.ext hdesk rfl
    rw [hr]
    exact .refused hheld htaken
  · cases naming with
    | asItStands => exact .asItStands rfl (comes_takeSubscription d standing s)
    | lookedUp lookup => exact .lookedUp rfl
    | abandoned => exact .refused nofun nofun

lemma carry_of_free (h : d.Free standing naming s) (hscans : d.scans s.conId = false) :
    (d.carry standing naming s).2 = .taken := by
  obtain ⟨rfl, rfl, hwaits, hnone⟩ := h
  have hfind : d.mdRequests.find? (·.reqId = s.reqId) = none := by
    rw [List.find?_eq_none]
    exact fun r hr => by simpa using List.all_eq_true.1 hnone r hr
  have htake : (d.takeSubscription .clear s).2 = .taken := by
    simp [takeSubscription, MdStanding.clear, hwaits, hfind, hscans]
  unfold carry
  split_ifs
  · exact htake
  · exact htake

end ScanDesk

/-! ## The line of a contract -/

namespace ScanDesk

def times (l : List MdRequest) : List ℕ := l.map (·.asked.getD 0)

@[simp] lemma times_append (l l' : List MdRequest) : times (l ++ l') = times l ++ times l' :=
  List.map_append

lemma times_sublist {l l' : List MdRequest} (h : l.Sublist l') : (times l).Sublist (times l') :=
  h.map _

structure Queued (d : ScanDesk) : Prop where
  held : ∀ s ∈ d.heldScans, s.scan = true ∧ 0 < s.conId ∧ s.asked.isSome
  taken : ∀ s ∈ d.mdRequests, s.asked.isSome
  naming : ∀ p ∈ d.pendingNamed, p.2.asked = none

variable {d : ScanDesk}

lemma scans_eq_false {c : ℤ} (h : d.live c = []) : d.scans c = false := by
  rw [scans, List.any_eq_false]
  exact List.filter_eq_nil_iff.1 h

lemma live_ne_nil {c : ℤ} (h : d.scans c = true) : d.live c ≠ [] := fun hnil => by
  rw [scans_eq_false hnil] at h
  exact Bool.false_ne_true h

lemma live_eq_nil {c : ℤ} (h : d.scans c = false) : d.live c = [] :=
  List.filter_eq_nil_iff.2 (List.any_eq_false.1 h)

end ScanDesk

namespace ScanRun

open ScanDesk

def Line (w : ScanRun) (c : ℤ) : Prop :=
  InLine w.desk.clock (w.taken c) (times (w.desk.live c)) (times (w.desk.released c))
    (times (w.desk.held c))

structure Ordered (w : ScanRun) : Prop where
  queued : w.desk.Queued
  line : ∀ c, 0 < c → w.Line c

lemma ordered_init : Ordered {} where
  queued := ⟨by simp, by simp, by simp⟩
  line := fun _ _ => InLine.empty 0

variable {w : ScanRun}

variable {c : ℤ}

lemma Line.congr {w' : ScanRun} (h : w.Line c) (hclock : w.desk.clock ≤ w'.desk.clock)
    (htaken : w'.taken c = w.taken c) (hlive : w'.desk.live c = w.desk.live c)
    (hreleased : w'.desk.released c = w.desk.released c)
    (hheld : w'.desk.held c = w.desk.held c) : w'.Line c := by
  unfold Line
  rw [htaken, hlive, hreleased, hheld]
  exact h.later hclock

variable {s : MdRequest}

lemma asked_eq (h : s.asked.isSome) : s.asked = some (s.asked.getD 0) := by
  obtain ⟨t, ht⟩ := Option.isSome_iff_exists.1 h
  rw [ht, Option.getD_some]

variable {d : ScanDesk}

lemma mem_live :
    s ∈ d.live c ↔ s ∈ d.mdRequests ∧ s.scan = true ∧ s.conId = c := by
  simp [live]

lemma mem_released :
    s ∈ d.released c ↔
      s ∈ d.cmdBuf ++ d.resolvedNamed ∧ s.scan = true ∧ s.conId = c ∧ s.asked.isSome := by
  rw [released, List.mem_filter]
  simp only [Bool.and_eq_true, decide_eq_true_eq, and_assoc]

lemma mem_held :
    s ∈ d.held c ↔ s ∈ d.heldScans ∧ s.conId = c := by
  simp [held]

lemma mem_times {l : List MdRequest} (h : s ∈ l) : s.asked.getD 0 ∈ times l :=
  List.mem_map.2 ⟨s, h, rfl⟩

/-- **Scans in line are in turn.** -/
theorem Ordered.inTurn (h : w.Ordered) : InTurn w where
  one := fun c hc => by
    have hone := (h.line c hc).one
    rw [times, List.length_map] at hone
    omega
  behind := fun s hs => by
    obtain ⟨-, hpos, hasked⟩ := h.queued.held s hs
    have hheld : s ∈ w.desk.held s.conId := mem_held.2 ⟨hs, rfl⟩
    have hfront := (h.line s.conId hpos).behind (List.ne_nil_of_mem (mem_times hheld))
    rw [← times_append] at hfront
    obtain ⟨t, ht⟩ := List.exists_mem_of_ne_nil _ hfront
    obtain ⟨earlier, hearlier, rfl⟩ := List.mem_map.1 ht
    refine ⟨earlier, hearlier, earlier.asked.getD 0, ?_, s.asked.getD 0, asked_eq hasked, ?_⟩
    · rcases List.mem_append.1 hearlier with hlive | hreleased
      · exact asked_eq (h.queued.taken earlier (mem_live.1 hlive).1)
      · exact asked_eq (mem_released.1 hreleased).2.2.2
    · rcases List.mem_append.1 hearlier with hlive | hreleased
      · exact (h.line s.conId hpos).served_lt ((h.line s.conId hpos).known _ (mem_times hlive))
          (List.mem_append_right _ (mem_times hheld))
      · exact (h.line s.conId hpos).called_lt (mem_times hreleased) (mem_times hheld)
  inOrder := fun c hc => (List.pairwise_append.1 (h.line c hc).inOrder).1
  later := fun c hc s hs t ht u hu => by
    have hasked : s.asked.getD 0 = u := by rw [Option.mem_def.1 hu, Option.getD_some]
    rw [← hasked]
    refine (h.line c hc).served_lt ht ?_
    rw [← times_append]
    exact mem_times hs

/-- **With the place free, the next scan is released; with nobody held, whoever is in front may
go.** -/
theorem Ordered.release (h : w.Ordered) {c₀ : ℤ} (hqueued : d.Queued)
    (hclock : d.clock = w.desk.clock) (hheld : d.heldScans = w.desk.heldScans)
    (hother : ∀ c, c ≠ c₀ → d.live c = w.desk.live c ∧ d.released c = w.desk.released c)
    (hown : d.live c₀ = [] ∧ d.released c₀ = [] ∨
      w.desk.held c₀ = [] ∧ (d.live c₀).Sublist (w.desk.live c₀) ∧
        (d.released c₀).Sublist (w.desk.released c₀)) :
    Ordered { w with desk := d.releaseNextScan c₀ } := by
  have hsame : ∀ c, d.held c = w.desk.held c := fun c => by rw [held, hheld, held]
  unfold releaseNextScan
  cases hfind : d.heldScans.find? (·.conId = c₀) with
  | none =>
      have hnone : w.desk.held c₀ = [] := by
        rw [← hsame, held, List.filter_eq_nil_iff]
        exact List.find?_eq_none.1 hfind
      refine ⟨hqueued, fun c hc => ?_⟩
      by_cases hcc : c = c₀
      · subst hcc
        have hline := h.line c hc
        unfold Line at hline ⊢
        rw [hnone] at hline
        dsimp only
        rw [hsame, hnone, hclock]
        rcases hown with ⟨hlive, hreleased⟩ | ⟨-, hlive, hreleased⟩
        · rw [hlive, hreleased]
          exact hline.go (List.nil_sublist _) (List.nil_sublist _)
        · exact hline.go (times_sublist hlive) (times_sublist hreleased)
      · exact (h.line c hc).congr (Nat.le_of_eq hclock.symm) rfl (hother c hcc).1 (hother c hcc).2
          (hsame c)
  | some s =>
      have hs : s ∈ d.heldScans := List.mem_of_find?_eq_some hfind
      have hcon : s.conId = c₀ := by simpa using List.find?_some hfind
      obtain ⟨hscan, hpos, hasked⟩ := hqueued.held s hs
      have hcons : w.desk.held c₀ =
          s :: (d.heldScans.eraseP (·.conId = c₀)).filter (·.conId = c₀) := by
        rw [← hsame]
        exact Removal.filter_eq_cons hfind
      have hfree : d.live c₀ = [] ∧ d.released c₀ = [] := by
        refine hown.resolve_right fun hnil => ?_
        rw [hcons] at hnil
        exact List.cons_ne_nil _ _ hnil.1
      refine ⟨⟨fun r hr => hqueued.held r (List.mem_of_mem_eraseP hr), hqueued.taken,
        hqueued.naming⟩, fun c hc => ?_⟩
      by_cases hcc : c = c₀
      · subst hcc
        have hline := h.line c hc
        unfold Line at hline ⊢
        rw [hcons] at hline
        have hreleased : released { d with
            heldScans := d.heldScans.eraseP (·.conId = c)
            resolvedNamed := d.resolvedNamed ++ [s] } c = [s] := by
          rw [released, ← List.append_assoc, List.filter_append]
          refine congrArg₂ (· ++ ·) hfree.2 ?_
          simp [hscan, hcon, hasked]
        rw [hreleased]
        have hlive : live { d with
            heldScans := d.heldScans.eraseP (·.conId = c)
            resolvedNamed := d.resolvedNamed ++ [s] } c = [] := hfree.1
        rw [hlive]
        dsimp only
        rw [hclock]
        exact hline.call
      · refine (h.line c hc).congr (Nat.le_of_eq hclock.symm) rfl (hother c hcc).1 ?_ ?_
        · rw [← (hother c hcc).2, released, ← List.append_assoc, List.filter_append]
          have hnot :
              [s].filter (fun s => s.scan && decide (s.conId = c) && s.asked.isSome) = [] := by
            simp [hcon, Ne.symm hcc]
          rw [hnot, List.append_nil]
          rfl
        · rw [← hsame, held, held]
          refine Removal.filter_eraseP_of_not hfind ?_
          simpa [hcon] using Ne.symm hcc

/-! ## What each event keeps -/

lemma held_eq_nil (h : d.Queued) (hc : ¬0 < c) : d.held c = [] := by
  rw [held, List.filter_eq_nil_iff]
  intro s hs hcon
  obtain ⟨-, hpos, -⟩ := h.held s hs
  exact hc (of_decide_eq_true hcon ▸ hpos)

lemma Ordered.free (h : w.Ordered) (hpos : 0 < s.conId)
    (hs : s ∈ w.desk.released s.conId) :
    w.desk.live s.conId = [] ∧ (w.desk.released s.conId).length ≤ 1 := by
  obtain ⟨hlive, hreleased⟩ := (h.line s.conId hpos).free_of_called (mem_times hs)
  refine ⟨List.map_eq_nil_iff.1 hlive, ?_⟩
  rw [← List.length_map (f := fun s : MdRequest => s.asked.getD 0)]
  exact Nat.le_of_eq (congrArg List.length hreleased)

lemma Ordered.alone (h : w.Ordered) (hpos : 0 < s.conId)
    (hs : s ∈ w.desk.live s.conId) :
    (w.desk.live s.conId).length ≤ 1 ∧ w.desk.released s.conId = [] := by
  have hone := (h.line s.conId hpos).one
  simp only [times, List.length_map] at hone
  have hlength := List.length_pos_of_mem hs
  exact ⟨by omega, List.length_eq_zero_iff.1 (by omega)⟩

lemma Ordered.releaseBehind (h : w.Ordered) {p : MdRequest → Bool}
    (hfind : w.desk.resolvedNamed.find? p = some s)
    (hturn : s.scan = true ∧ s.asked.isSome ∨ w.desk.held s.conId = []) :
    Ordered { w with desk :=
      { w.desk with resolvedNamed := w.desk.resolvedNamed.eraseP p }.releaseNextScan s.conId } := by
  have hsub : ∀ c, (released { w.desk with resolvedNamed := w.desk.resolvedNamed.eraseP p }
      c).Sublist (w.desk.released c) :=
    fun c => (List.Sublist.append_left List.eraseP_sublist _).filter _
  refine h.release ⟨h.queued.held, h.queued.taken, h.queued.naming⟩ rfl rfl ?_ ?_
  · intro c hc
    refine ⟨rfl, ?_⟩
    rw [released, released, List.filter_append, List.filter_append]
    refine congrArg _ (Removal.filter_eraseP_of_not hfind ?_)
    simp [Ne.symm hc]
  · by_cases hpos : 0 < s.conId
    · rcases hturn with ⟨hscan, hasked⟩ | hnone
      · left
        have hmem : s ∈ w.desk.released s.conId := mem_released.2
          ⟨List.mem_append_right _ (List.mem_of_find?_eq_some hfind), hscan, rfl, hasked⟩
        obtain ⟨hlive, hone⟩ := h.free hpos hmem
        refine ⟨hlive, ?_⟩
        rw [released, List.filter_append, List.length_append] at hone
        have hin : s ∈ w.desk.resolvedNamed.filter fun r =>
            r.scan && decide (r.conId = s.conId) && r.asked.isSome :=
          List.mem_filter.2 ⟨List.mem_of_find?_eq_some hfind, by simp [hscan, hasked]⟩
        have hlength := List.length_pos_of_mem hin
        rw [released, List.filter_append]
        refine List.append_eq_nil_iff.2 ⟨List.length_eq_zero_iff.1 (by dsimp only; omega), ?_⟩
        exact Removal.filter_eraseP_of_single hfind (List.mem_filter.1 hin).2 (by omega)
      · exact .inr ⟨hnone, List.Sublist.refl _, hsub _⟩
    · exact .inr ⟨held_eq_nil h.queued hpos, List.Sublist.refl _, hsub _⟩

lemma Ordered.withdrawTaken (h : w.Ordered) {p : MdRequest → Bool}
    (hfind : w.desk.mdRequests.find? p = some s) :
    Ordered { w with desk :=
      if s.scan then
        { w.desk with mdRequests := w.desk.mdRequests.eraseP p }.releaseNextScan s.conId
      else { w.desk with mdRequests := w.desk.mdRequests.eraseP p } } := by
  have hqueued : Queued { w.desk with mdRequests := w.desk.mdRequests.eraseP p } :=
    ⟨h.queued.held, fun r hr => h.queued.taken r (List.mem_of_mem_eraseP hr), h.queued.naming⟩
  split_ifs with hscan
  · refine h.release hqueued rfl rfl ?_ ?_
    · intro c hc
      refine ⟨Removal.filter_eraseP_of_not hfind ?_, rfl⟩
      simp [Ne.symm hc]
    · by_cases hpos : 0 < s.conId
      · left
        have hmem : s ∈ w.desk.live s.conId :=
          mem_live.2 ⟨List.mem_of_find?_eq_some hfind, hscan, rfl⟩
        obtain ⟨hone, hreleased⟩ := h.alone hpos hmem
        exact ⟨Removal.filter_eraseP_of_single hfind (List.mem_filter.1 hmem).2 hone, hreleased⟩
      · exact .inr ⟨held_eq_nil h.queued hpos, List.eraseP_sublist.filter _, List.Sublist.refl _⟩
  · refine ⟨hqueued, fun c hc => (h.line c hc).congr (Nat.le_refl _) rfl ?_ rfl rfl⟩
    exact Removal.filter_eraseP_of_not hfind (by simp [hscan])

variable {reqId : ℤ}

lemma Ordered.withdrawMktData (h : w.Ordered)
    (hturn : w.desk.WithdrawnInTurn reqId) :
    Ordered { w with desk := w.desk.withdrawMktData reqId } := by
  unfold ScanDesk.withdrawMktData
  by_cases hnaming : w.desk.pendingNamed.any (·.2.reqId = reqId) = true
  · rw [if_pos hnaming]
    refine ⟨⟨h.queued.held, h.queued.taken, fun p hp => ?_⟩, h.line⟩
    exact h.queued.naming p (List.mem_of_mem_filter hp)
  rw [if_neg hnaming]
  cases hfind : w.desk.resolvedNamed.find? (·.reqId = reqId) with
  | some s => exact h.releaseBehind hfind (hturn.resolve_left hnaming s (Option.mem_def.2 hfind))
  | none =>
      by_cases hheld : w.desk.heldScans.any (·.reqId = reqId) = true
      · dsimp only
        rw [if_pos hheld]
        refine ⟨⟨fun s hs => h.queued.held s (List.mem_of_mem_eraseP hs), h.queued.taken,
          h.queued.naming⟩, fun c hc => ?_⟩
        exact (h.line c hc).leave (times_sublist (List.eraseP_sublist.filter _))
      · dsimp only
        rw [if_neg hheld]
        cases htaken : w.desk.mdRequests.find? (·.reqId = reqId) with
        | none => exact h
        | some r => exact h.withdrawTaken htaken

lemma Ordered.forgetCalculation (h : w.Ordered)
    (hturn : ∀ s ∈ w.desk.resolvedNamed, s.reqId = reqId → s.calculation = true → s.scan = true →
      s.asked.isSome → w.desk.held s.conId = []) :
    Ordered { w with desk := w.desk.forgetCalculation reqId } := by
  refine ⟨⟨h.queued.held, h.queued.taken, fun p hp => ?_⟩, fun c hc => ?_⟩
  · exact h.queued.naming p (List.mem_of_mem_filter hp)
  by_cases hnone : w.desk.held c = []
  · have hline := h.line c hc
    unfold Line at hline ⊢
    have hheld : (w.desk.forgetCalculation reqId).held c = [] := hnone
    dsimp only
    rw [hnone] at hline
    rw [hheld]
    refine hline.go (List.Sublist.refl _) (times_sublist ?_)
    exact (List.Sublist.append_left List.filter_sublist _).filter _
  · refine (h.line c hc).congr (Nat.le_refl _) rfl rfl ?_ rfl
    rw [released, released, List.filter_append, List.filter_append]
    refine congrArg _ ?_
    unfold ScanDesk.forgetCalculation
    rw [List.filter_filter]
    refine List.filter_congr fun s hs => ?_
    by_cases hkept : (s.scan && decide (s.conId = c) && s.asked.isSome) = true
    · rw [hkept, Bool.true_and]
      simp only [Bool.and_eq_true, decide_eq_true_eq] at hkept
      obtain ⟨⟨hscan, rfl⟩, hasked⟩ := hkept
      have hnot : ¬(s.reqId = reqId ∧ s.calculation = true) := fun hq =>
        hnone (hturn s hs hq.1 hq.2 hscan hasked)
      rw [Bool.not_eq_true', Bool.eq_false_iff]
      exact fun hq => hnot (by simpa using hq)
    · rw [Bool.eq_false_iff.2 hkept, Bool.false_and]

lemma Ordered.withdrawCalculation (h : w.Ordered)
    (hturn : PassesOn w (.calculationWithdrawn reqId)) :
    Ordered { w with desk := w.desk.withdrawCalculation reqId } := by
  have hforget := h.forgetCalculation hturn.1
  unfold ScanDesk.withdrawCalculation
  split_ifs with hfor
  · exact hforget.withdrawMktData (hturn.2 hfor)
  · exact hforget

lemma Ordered.named (h : w.Ordered) (lookup : ℕ) (c₀ : ℤ) :
    Ordered { w with desk := w.desk.name lookup c₀ } := by
  unfold ScanDesk.name
  cases hfind : w.desk.pendingNamed.find? (·.1 = lookup) with
  | none => exact h
  | some p =>
      have hasked : p.2.asked = none := h.queued.naming p (List.mem_of_find?_eq_some hfind)
      refine ⟨⟨h.queued.held, h.queued.taken, fun q hq =>
        h.queued.naming q (List.mem_of_mem_eraseP hq)⟩, fun c hc => ?_⟩
      refine (h.line c hc).congr (Nat.le_refl _) rfl rfl ?_ rfl
      rw [released, ← List.append_assoc, List.filter_append]
      have hnot : [{ p.2 with conId := c₀ }].filter
          (fun s => s.scan && decide (s.conId = c) && s.asked.isSome) = [] := by
        simp [hasked]
      rw [hnot, List.append_nil]
      rfl

lemma live_taken (d : ScanDesk) (s : MdRequest) (c : ℤ) :
    live { d with mdRequests := d.mdRequests ++ [d.handed s], clock := d.clock + 1 } c =
      d.live c ++ if s.scan = true ∧ s.conId = c then [d.handed s] else [] := by
  rw [live, List.filter_append, live]
  refine congrArg _ ?_
  split_ifs with h
  · refine List.filter_eq_self.2 fun r hr => ?_
    rw [List.mem_singleton.1 hr, Bool.and_eq_true, decide_eq_true_eq]
    exact h
  · refine List.filter_eq_nil_iff.2 fun r hr hq => h ?_
    rw [List.mem_singleton.1 hr, Bool.and_eq_true, decide_eq_true_eq] at hq
    exact hq

lemma Queued.taken_append (h : d.Queued) (s : MdRequest) :
    Queued { d with mdRequests := d.mdRequests ++ [d.handed s], clock := d.clock + 1 } := by
  refine ⟨h.held, fun r hr => ?_, h.naming⟩
  rcases List.mem_append.1 hr with hr | hr
  · exact h.taken r hr
  · rw [List.mem_singleton.1 hr]
    rfl

lemma Ordered.takeOther (h : w.Ordered) {taken : ℤ → List ℕ}
    (hs : ¬(s.scan = true ∧ 0 < s.conId)) (htaken : ∀ c, 0 < c → taken c = w.taken c) :
    Ordered ⟨{ w.desk with
      mdRequests := w.desk.mdRequests ++ [w.desk.handed s]
      clock := w.desk.clock + 1 }, taken⟩ := by
  refine ⟨Queued.taken_append h.queued s, fun c hc => ?_⟩
  refine (h.line c hc).congr (Nat.le_succ _) (htaken c hc) ?_ rfl rfl
  rw [live_taken, if_neg, List.append_nil]
  exact fun hq => hs ⟨hq.1, hq.2 ▸ hc⟩

lemma Ordered.hold (h : w.Ordered) (hs : s.asked = none)
    (hscan : s.scan = true) (hpos : 0 < s.conId) (hlive : w.desk.live s.conId ≠ []) :
    Ordered { w with desk := { w.desk with
      heldScans := w.desk.heldScans ++ [w.desk.handed s], clock := w.desk.clock + 1 } } := by
  refine ⟨⟨fun r hr => ?_, h.queued.taken, h.queued.naming⟩, fun c hc => ?_⟩
  · rcases List.mem_append.1 hr with hr | hr
    · exact h.queued.held r hr
    · rw [List.mem_singleton.1 hr]
      exact ⟨hscan, hpos, rfl⟩
  have hheld : held { w.desk with
      heldScans := w.desk.heldScans ++ [w.desk.handed s], clock := w.desk.clock + 1 } c =
        w.desk.held c ++ if s.conId = c then [w.desk.handed s] else [] := by
    rw [held, List.filter_append, held]
    refine congrArg _ ?_
    split_ifs with hcc
    · exact List.filter_eq_self.2 fun r hr => by
        rw [List.mem_singleton.1 hr]
        exact decide_eq_true hcc
    · exact List.filter_eq_nil_iff.2 fun r hr hq => hcc (by
        rw [List.mem_singleton.1 hr] at hq
        exact of_decide_eq_true hq)
  by_cases hcc : s.conId = c
  · subst hcc
    unfold Line
    rw [hheld, if_pos rfl, times_append]
    have htime : times [w.desk.handed s] = [w.desk.clock] := by
      rw [times, List.map_singleton, handed, hs]
      rfl
    rw [htime]
    exact (h.line s.conId hpos).join fun hnil => hlive (List.map_eq_nil_iff.1 hnil)
  · refine (h.line c hc).congr (Nat.le_succ _) rfl rfl rfl ?_
    rw [hheld, if_neg hcc, List.append_nil]

lemma Ordered.takeScan (h : w.Ordered)
    (hqueued : d.Queued) (hclock : d.clock = w.desk.clock)
    (hrequests : d.mdRequests = w.desk.mdRequests) (hheld : d.heldScans = w.desk.heldScans)
    (hscan : s.scan = true) (hlive : w.desk.live s.conId = [])
    (hother : ∀ c, c ≠ s.conId → d.released c = w.desk.released c)
    (hown : d.released s.conId = [])
    (hserved : InLine (w.desk.clock + 1)
      (w.taken s.conId ++ [s.asked.getD d.clock]) [s.asked.getD d.clock] []
      (times (w.desk.held s.conId))) :
    Ordered ⟨{ d with mdRequests := d.mdRequests ++ [d.handed s], clock := d.clock + 1 },
      Function.update w.taken s.conId (w.taken s.conId ++ [s.asked.getD d.clock])⟩ := by
  refine ⟨Queued.taken_append hqueued s, fun c hc => ?_⟩
  have hsame : ∀ c, d.live c = w.desk.live c := fun c => by rw [live, hrequests, live]
  by_cases hcc : c = s.conId
  · subst hcc
    unfold Line
    rw [live_taken, if_pos ⟨hscan, rfl⟩, hsame, hlive, List.nil_append]
    dsimp only
    rw [Function.update_self]
    have hreleased : released { d with
        mdRequests := d.mdRequests ++ [d.handed s], clock := d.clock + 1 } s.conId = [] := hown
    have hwaiting : held { d with
        mdRequests := d.mdRequests ++ [d.handed s], clock := d.clock + 1 } s.conId =
          w.desk.held s.conId := by
      rw [held, hheld, held]
    rw [hreleased, hwaiting, hclock]
    rw [hclock] at hserved
    have htime : times [d.handed s] = [s.asked.getD w.desk.clock] := by
      rw [← hclock]
      rfl
    rw [htime]
    exact hserved
  · refine (h.line c hc).congr ?_ (Function.update_of_ne hcc _ _) ?_ (hother c hcc) ?_
    · rw [← hclock]
      exact Nat.le_succ _
    · rw [live_taken, if_neg fun hq => hcc hq.2.symm, List.append_nil, hsame]
    · rw [held, hheld, held]

variable {standing : MdStanding}

variable {naming : MdNaming}

theorem Ordered.carryFresh (h : w.Ordered)
    (hs : s.asked = none) (hturn : w.desk.FindsNoneReleased naming s) :
    (w.carry standing naming s).Ordered := by
  unfold ScanRun.carry
  have hcarried := carried_carry w.desk standing naming s
  generalize w.desk.carry standing naming s = r at hcarried
  cases hcarried with
  | refused hheld htaken =>
      dsimp only
      rw [if_neg fun hq => htaken hq.1]
      exact h
  | lookedUp hnaming =>
      refine ⟨⟨h.queued.held, h.queued.taken, fun p hp => ?_⟩, h.line⟩
      rcases List.mem_append.1 hp with hp | hp
      · exact h.queued.naming p hp
      · rw [List.mem_singleton.1 hp]
        exact hs
  | asItStands hnaming hcomes =>
      cases hcomes with
      | left hheld htaken =>
          dsimp only
          rw [if_neg fun hq => htaken hq.1]
          exact h
      | held hscan hpos hscans =>
          dsimp only
          rw [if_neg fun hq => nomatch hq.1]
          exact h.hold hs hscan hpos (live_ne_nil hscans)
      | taken hfree =>
          dsimp only
          by_cases hline : s.scan = true ∧ 0 < s.conId
          · obtain ⟨hscan, hpos⟩ := hline
            have hlive := live_eq_nil (hfree hscan hpos)
            have hreleased := hturn hnaming hscan hpos hlive
            have hserve := h.line s.conId hpos
            unfold Line at hserve
            rw [hlive, hreleased] at hserve
            rw [if_pos ⟨rfl, hscan⟩]
            refine h.takeScan h.queued rfl rfl rfl hscan hlive (fun _ _ => rfl) hreleased ?_
            rw [hs, Option.getD_none]
            exact hserve.serve_first
          · refine h.takeOther hline fun c hc => ?_
            split_ifs with hq
            · exact Function.update_of_ne (fun hcc : c = s.conId => hline ⟨hq.2, hcc ▸ hc⟩) _ _
            · rfl

variable {rest : List MdRequest}

lemma released_pop
    (hbuf : d.cmdBuf = s :: rest) (c : ℤ) :
    d.released c = (if s.scan = true ∧ s.conId = c ∧ s.asked.isSome then [s] else []) ++
      released { d with cmdBuf := rest } c := by
  have happend : d.cmdBuf ++ d.resolvedNamed = [s] ++ (rest ++ d.resolvedNamed) := by
    rw [hbuf, List.cons_append, List.singleton_append]
  rw [released, happend, List.filter_append, released]
  refine congrArg (· ++ _) ?_
  split_ifs with h
  · refine List.filter_eq_self.2 fun r hr => ?_
    rw [List.mem_singleton.1 hr]
    simpa only [Bool.and_eq_true, decide_eq_true_eq, and_assoc] using h
  · refine List.filter_eq_nil_iff.2 fun r hr hq => h ?_
    rw [List.mem_singleton.1 hr] at hq
    simpa only [Bool.and_eq_true, decide_eq_true_eq, and_assoc] using hq

lemma Ordered.pop (h : w.Ordered)
    (hbuf : w.desk.cmdBuf = s :: rest) (hs : ¬(s.scan = true ∧ s.asked.isSome)) :
    Ordered { w with desk := { w.desk with cmdBuf := rest } } := by
  refine ⟨⟨h.queued.held, h.queued.taken, h.queued.naming⟩, fun c hc => ?_⟩
  refine (h.line c hc).congr (Nat.le_refl _) rfl rfl ?_ rfl
  rw [released_pop hbuf, if_neg fun hq => hs ⟨hq.1, hq.2.2⟩, List.nil_append]

lemma Ordered.refuse (h : w.Ordered)
    (hbuf : w.desk.cmdBuf = s :: rest) (hnone : w.desk.held s.conId = []) :
    Ordered { w with desk := { w.desk with cmdBuf := rest } } := by
  refine ⟨⟨h.queued.held, h.queued.taken, h.queued.naming⟩, fun c hc => ?_⟩
  by_cases hcc : s.conId = c
  · subst hcc
    have hline := h.line s.conId hc
    unfold Line at hline ⊢
    have hheld : held { w.desk with cmdBuf := rest } s.conId = [] := hnone
    rw [hnone] at hline
    dsimp only
    rw [hheld]
    refine hline.go (List.Sublist.refl _) (times_sublist ?_)
    rw [released_pop hbuf]
    exact List.sublist_append_right _ _
  · refine (h.line c hc).congr (Nat.le_refl _) rfl rfl ?_ rfl
    rw [released_pop hbuf, if_neg fun hq => hcc hq.2.1, List.nil_append]

lemma Ordered.carryOther (h : w.Ordered)
    (hs : s.scan = false) (hnaming : ∀ lookup, naming ≠ .lookedUp lookup) :
    (w.carry standing naming s).Ordered := by
  unfold ScanRun.carry
  have hnot : ∀ answer : MdAnswer, ¬(answer = .taken ∧ s.scan = true) := fun _ hq => by
    rw [hs] at hq
    exact Bool.false_ne_true hq.2
  rw [if_neg (hnot _)]
  have hcarried := carried_carry w.desk standing naming s
  generalize w.desk.carry standing naming s = r at hcarried
  cases hcarried with
  | refused hheld htaken => exact h
  | lookedUp hlooked => exact absurd hlooked (hnaming _)
  | asItStands _ hcomes =>
      cases hcomes with
      | left hheld htaken => exact h
      | held hscan hpos hscans => exact absurd (hs.symm.trans hscan) Bool.false_ne_true
      | taken hfree =>
          refine h.takeOther (fun hq => ?_) fun _ _ => rfl
          exact absurd (hs.symm.trans hq.1) Bool.false_ne_true

/-- **A scan released is taken, or is refused with none held behind it.** -/
theorem Ordered.carryReleased (h : w.Ordered)
    (hbuf : w.desk.cmdBuf = s :: rest)
    (hscan : s.scan = true) (hs : s.asked.isSome)
    (hnaming : ∀ lookup, naming ≠ .lookedUp lookup)
    (hturn : w.desk.held s.conId = [] ∨ ({ w.desk with cmdBuf := rest }).Free standing naming s) :
    (ScanRun.carry { w with desk := { w.desk with cmdBuf := rest } } standing naming s).Ordered ∧
      (({ w.desk with cmdBuf := rest }).carry standing naming s).2 ≠ .held := by
  have hmem : s ∈ w.desk.released s.conId := by
    rw [mem_released, hbuf]
    exact ⟨by simp, hscan, rfl, hs⟩
  have hclear : 0 < s.conId → w.desk.live s.conId = [] := fun hpos => (h.free hpos hmem).1
  have hrefused : (({ w.desk with cmdBuf := rest }).carry standing naming s).2 ≠ .taken →
      Ordered { w with desk := { w.desk with cmdBuf := rest } } := fun hnot => by
    rcases hturn with hnone | hfree
    · exact h.refuse hbuf hnone
    · by_cases hpos : 0 < s.conId
      · exact absurd (carry_of_free hfree (scans_eq_false (hclear hpos))) hnot
      · exact h.refuse hbuf (held_eq_nil h.queued hpos)
  unfold ScanRun.carry
  have hcarried := carried_carry { w.desk with cmdBuf := rest } standing naming s
  dsimp only
  generalize ({ w.desk with cmdBuf := rest }).carry standing naming s = r at hcarried hrefused
  cases hcarried with
  | refused hheld htaken =>
      rw [if_neg fun hq => htaken hq.1]
      exact ⟨hrefused htaken, hheld⟩
  | lookedUp hlooked => exact absurd hlooked (hnaming _)
  | asItStands _ hcomes =>
      cases hcomes with
      | left hheld htaken =>
          rw [if_neg fun hq => htaken hq.1]
          exact ⟨hrefused htaken, hheld⟩
      | held _ hpos hscans => exact absurd (hclear hpos) (live_ne_nil hscans)
      | taken hfree =>
          refine ⟨?_, nofun⟩
          rw [if_pos ⟨rfl, hscan⟩]
          by_cases hpos : 0 < s.conId
          · obtain ⟨hlive, hone⟩ := h.free hpos hmem
            rw [released_pop hbuf, if_pos ⟨hscan, rfl, hs⟩, List.singleton_append,
              List.length_cons] at hone
            have hown : released { w.desk with cmdBuf := rest } s.conId = [] :=
              List.length_eq_zero_iff.1 (Nat.le_zero.1 (Nat.le_of_succ_le_succ hone))
            have hserve := h.line s.conId hpos
            unfold Line at hserve
            rw [hlive, released_pop hbuf, if_pos ⟨hscan, rfl, hs⟩, hown] at hserve
            refine h.takeScan ⟨h.queued.held, h.queued.taken, h.queued.naming⟩ rfl rfl rfl hscan
              hlive (fun c hcc => ?_) hown ?_
            · rw [released_pop hbuf, if_neg fun hq => hcc hq.2.1.symm, List.nil_append]
            · have hask : s.asked.getD w.desk.clock = s.asked.getD 0 := by
                rw [asked_eq hs, Option.getD_some, Option.getD_some]
              dsimp only
              rw [hask]
              exact (hserve.serve).later (Nat.le_succ _)
          · have hrest := h.refuse hbuf (held_eq_nil h.queued hpos)
            refine hrest.takeOther (fun hq => hpos hq.2) fun c hc => ?_
            exact Function.update_of_ne (fun hcc : c = s.conId => hpos (hcc ▸ hc)) _ _

/-- **Each event keeps the scans in line.** -/
theorem Ordered.step (h : w.Ordered) {e : ScanEvent} (hturn : PassesOn w e) :
    (w.step e).Ordered := by
  cases e with
  | asked s standing naming => exact h.carryFresh rfl hturn
  | lap n =>
      refine ⟨⟨h.queued.held, h.queued.taken, h.queued.naming⟩, fun c hc => ?_⟩
      refine (h.line c hc).congr (Nat.le_refl _) rfl rfl ?_ rfl
      rw [released, released]
      dsimp only [ScanRun.step]
      rw [List.append_assoc, List.take_append_drop]
  | carried standing naming =>
      unfold ScanRun.step
      cases hbuf : w.desk.cmdBuf with
      | nil => exact h
      | cons s rest =>
          have hs := hturn s (by rw [hbuf]; rfl)
          rw [hbuf, List.tail_cons] at hs
          unfold CarriedInTurn at hs
          split_ifs at hs with hasked
          · refine (h.pop hbuf fun hq => ?_).carryFresh hasked hs
            rw [hasked] at hq
            exact Bool.false_ne_true hq.2
          · cases hscan : s.scan with
            | false => exact (h.pop hbuf (by simp [hscan])).carryOther hscan hs.1
            | true =>
                exact (h.carryReleased hbuf hscan (Option.isSome_iff_ne_none.2 hasked) hs.1
                  (hs.2 hscan)).1
  | named lookup c => exact h.named lookup c
  | givenUp lookups =>
      refine ⟨⟨h.queued.held, h.queued.taken, fun p hp => ?_⟩, h.line⟩
      exact h.queued.naming p (List.mem_of_mem_filter hp)
  | withdrawn reqId => exact h.withdrawMktData hturn
  | calculationWithdrawn reqId => exact h.withdrawCalculation hturn

lemma Ordered.takesTurn (h : w.Ordered) {e : ScanEvent} (hturn : PassesOn w e) :
    TakesTurn w e := by
  cases e with
  | carried standing naming =>
      intro s hs hscan hasked
      obtain ⟨rest, hbuf⟩ := List.head?_eq_some_iff.1 (Option.mem_def.1 hs)
      have hcond := hturn s hs
      rw [hbuf, List.tail_cons] at hcond ⊢
      unfold CarriedInTurn at hcond
      rw [if_neg (Option.isSome_iff_ne_none.1 hasked)] at hcond
      exact (h.carryReleased hbuf hscan hasked hcond.1 (hcond.2 hscan)).2
  | _ => exact trivial

end ScanRun

/-! ## Each request is somewhere, once -/

namespace ScanDesk

variable {d : ScanDesk}

/-- A request taken out of one of the lists. -/
lemma coe_of_find? {α : Type} {p : α → Bool} {l : List α} {a : α} (h : l.find? p = some a) :
    (l : Multiset α) = {a} + l.eraseP p := Multiset.coe_eq_coe.2 (Removal.perm_eraseP h)

lemma coe_filter_not {α : Type} (p : α → Bool) (l : List α) :
    (l : Multiset α) = (l.filter p : Multiset α) + l.filter fun a => !p a := by
  rw [Multiset.coe_add]
  exact Multiset.coe_eq_coe.2 (List.filter_append_perm p l).symm

lemma map_caller_grown {d d' : ScanDesk} {s x : MdRequest} (hall : d'.all = d.all + {x})
    (hcaller : x.caller = s.caller) :
    (d.all + {s}).map MdRequest.caller = (d'.all + 0).map MdRequest.caller := by
  rw [hall, add_zero, Multiset.map_add, Multiset.map_add, Multiset.map_singleton,
    Multiset.map_singleton, hcaller]

lemma all_takeSubscription (d : ScanDesk) (standing : MdStanding) (s : MdRequest) :
    (d.all + {s}).map MdRequest.caller = ((d.takeSubscription standing s).1.all
      + (d.takeSubscription standing s).2.letsGo s).map MdRequest.caller := by
  unfold takeSubscription
  cases d.mdRequests.find? (·.reqId = s.reqId) with
  | some held =>
      dsimp only
      split_ifs <;> rfl
  | none =>
      dsimp only
      split_ifs
      · rfl
      · rfl
      · refine map_caller_grown (x := d.handed s) ?_ rfl
        simp only [all, inHand, ← Multiset.coe_add, Multiset.coe_singleton]
        abel
      · rfl
      · rfl
      · refine map_caller_grown (x := d.handed s) ?_ rfl
        simp only [all, inHand, ← Multiset.coe_add, Multiset.coe_singleton]
        abel

lemma all_carry (d : ScanDesk) (standing : MdStanding) (naming : MdNaming) (s : MdRequest) :
    (d.all + {s}).map MdRequest.caller = ((d.carry standing naming s).1.all
      + (d.carry standing naming s).2.letsGo s).map MdRequest.caller := by
  unfold carry
  split_ifs with hclaimed
  · exact all_takeSubscription d standing s
  · cases naming with
    | asItStands => exact all_takeSubscription d standing s
    | lookedUp lookup =>
        refine map_caller_grown (x := s) ?_ rfl
        simp only [all, inHand, List.map_append, List.map_cons, List.map_nil, ← Multiset.coe_add,
          Multiset.coe_singleton]
        rw [← add_assoc, add_right_comm]
    | abandoned => rfl

lemma all_releaseNextScan (d : ScanDesk) (conId : ℤ) : (d.releaseNextScan conId).all = d.all := by
  unfold releaseNextScan
  cases hfound : d.heldScans.find? (·.conId = conId) with
  | none => rfl
  | some s =>
      simp only [all, inHand, ← Multiset.coe_add, Multiset.coe_singleton]
      rw [coe_of_find? hfound]
      abel

/-- A withdrawal takes out requests under the number, and one at least where any stands under it. -/
lemma all_withdrawMktData (d : ScanDesk) (reqId : ℤ) :
    ∃ gone : Multiset MdRequest, d.all = (d.withdrawMktData reqId).all + gone ∧
      (∀ s ∈ gone, s.reqId = reqId) ∧ (gone = 0 → ∀ s ∈ d.inHand, s.reqId ≠ reqId) := by
  have hone {l : List MdRequest} {s : MdRequest} (hs : l.find? (·.reqId = reqId) = some s) :
      (∀ t ∈ ({s} : Multiset MdRequest), t.reqId = reqId) ∧
        (({s} : Multiset MdRequest) = 0 → ∀ t ∈ d.inHand, t.reqId ≠ reqId) := by
    refine ⟨fun t ht => ?_, fun h => absurd h (Multiset.singleton_ne_zero s)⟩
    rw [Multiset.mem_singleton.1 ht]
    exact of_decide_eq_true (List.find?_some (p := fun r : MdRequest => decide (r.reqId = reqId)) hs)
  unfold withdrawMktData
  by_cases hpending : d.pendingNamed.any (·.2.reqId = reqId)
  · rw [if_pos hpending]
    have hsplit := coe_filter_not (fun p : ℕ × MdRequest => decide (p.2.reqId = reqId)) d.pendingNamed
    have hrest : (d.pendingNamed.filter fun p => !decide (p.2.reqId = reqId)) =
        d.pendingNamed.filter (·.2.reqId ≠ reqId) := List.filter_congr (by simp)
    rw [hrest] at hsplit
    refine ⟨((d.pendingNamed.filter (·.2.reqId = reqId)).map Prod.snd : List MdRequest), ?_, ?_, ?_⟩
    · have hmapped := congrArg (Multiset.map Prod.snd) hsplit
      simp only [Multiset.map_add, Multiset.map_coe] at hmapped
      simp only [all, inHand]
      rw [hmapped]
      abel
    · intro s hs
      obtain ⟨p, hp, rfl⟩ := List.mem_map.1 (Multiset.mem_coe.1 hs)
      exact of_decide_eq_true (List.mem_filter.1 hp).2
    · intro hnone
      obtain ⟨p, hp, hq⟩ := List.any_eq_true.1 hpending
      have hin : p.2 ∈ (d.pendingNamed.filter (·.2.reqId = reqId)).map Prod.snd :=
        List.mem_map_of_mem (List.mem_filter.2 ⟨hp, hq⟩)
      rw [(Multiset.coe_eq_zero _).1 hnone] at hin
      exact absurd hin List.not_mem_nil
  · rw [if_neg hpending]
    cases hnamed : d.resolvedNamed.find? (·.reqId = reqId) with
    | some s =>
        refine ⟨{s}, ?_, hone hnamed⟩
        dsimp only
        rw [all_releaseNextScan]
        simp only [all, inHand]
        rw [coe_of_find? hnamed]
        abel
    | none =>
        dsimp only
        split_ifs with hheld
        · obtain ⟨s, hs, hid⟩ := List.any_eq_true.1 hheld
          cases hfound : d.heldScans.find? (·.reqId = reqId) with
          | none => exact absurd hid (List.find?_eq_none.1 hfound s hs)
          | some s =>
              refine ⟨{s}, ?_, hone hfound⟩
              simp only [all, inHand]
              rw [coe_of_find? hfound]
              abel
        · cases hfound : d.mdRequests.find? (·.reqId = reqId) with
          | none =>
              refine ⟨0, (add_zero _).symm, fun s hs => absurd hs (Multiset.notMem_zero s),
                fun _ s hs hid => ?_⟩
              simp only [inHand, Multiset.mem_add, Multiset.mem_coe] at hs
              rcases hs with ((hs | hs) | hs) | hs
              · exact absurd (decide_eq_true hid) (List.find?_eq_none.1 hfound s hs)
              · exact hheld (List.any_eq_true.2 ⟨s, hs, decide_eq_true hid⟩)
              · exact absurd (decide_eq_true hid) (List.find?_eq_none.1 hnamed s hs)
              · obtain ⟨p, hp, rfl⟩ := List.mem_map.1 hs
                exact hpending (List.any_eq_true.2 ⟨p, hp, decide_eq_true hid⟩)
          | some r =>
              have hall : d.all = ({ d with mdRequests := d.mdRequests.eraseP (·.reqId = reqId) } :
                  ScanDesk).all + {r} := by
                simp only [all, inHand]
                rw [coe_of_find? hfound]
                abel
              refine ⟨{r}, ?_, hone hfound⟩
              dsimp only
              split_ifs
              · rw [all_releaseNextScan]
                exact hall
              · exact hall

lemma all_forgetCalculation (d : ScanDesk) (reqId : ℤ) :
    ∃ gone : Multiset MdRequest, d.all = (d.forgetCalculation reqId).all + gone ∧
      ∀ s ∈ gone, s.reqId = reqId := by
  have hpending := congrArg (Multiset.map Prod.snd) (coe_filter_not
    (fun p : ℕ × MdRequest => decide (p.2.reqId = reqId) && p.2.calculation) d.pendingNamed)
  have hnamed := coe_filter_not
    (fun s : MdRequest => decide (s.reqId = reqId) && s.calculation) d.resolvedNamed
  simp only [Multiset.map_add, Multiset.map_coe] at hpending
  refine ⟨((d.pendingNamed.filter fun p => p.2.reqId = reqId && p.2.calculation).map Prod.snd :
      List MdRequest) + d.resolvedNamed.filter fun s => s.reqId = reqId && s.calculation, ?_,
    fun s hs => ?_⟩
  · simp only [all, inHand, forgetCalculation]
    rw [hpending, hnamed]
    abel
  · rcases Multiset.mem_add.1 hs with hs | hs
    · obtain ⟨p, hp, rfl⟩ := List.mem_map.1 (Multiset.mem_coe.1 hs)
      exact of_decide_eq_true (Bool.and_eq_true_iff.1 (List.mem_filter.1 hp).2).1
    · exact of_decide_eq_true (Bool.and_eq_true_iff.1 (List.mem_filter.1 (Multiset.mem_coe.1 hs)).2).1

lemma all_withdrawCalculation (d : ScanDesk) (reqId : ℤ) :
    ∃ gone : Multiset MdRequest, d.all = (d.withdrawCalculation reqId).all + gone ∧
      ∀ s ∈ gone, s.reqId = reqId := by
  obtain ⟨forgotten, hforgotten, hunder⟩ := all_forgetCalculation d reqId
  unfold withdrawCalculation
  split_ifs
  · obtain ⟨gone, hgone, hof, -⟩ := all_withdrawMktData (d.forgetCalculation reqId) reqId
    refine ⟨gone + forgotten, by rw [hforgotten, hgone, add_assoc], fun s hs => ?_⟩
    exact (Multiset.mem_add.1 hs).elim (hof s) (hunder s)
  · exact ⟨forgotten, hforgotten, hunder⟩

lemma all_name (d : ScanDesk) (lookup : ℕ) (conId : ℤ) :
    (d.name lookup conId).all.map MdRequest.caller = d.all.map MdRequest.caller := by
  unfold name
  cases hfound : d.pendingNamed.find? (·.1 = lookup) with
  | none => rfl
  | some p =>
      have hsplit := congrArg (Multiset.map Prod.snd) (coe_of_find? hfound)
      rw [Multiset.map_add, Multiset.map_singleton, Multiset.map_coe, Multiset.map_coe] at hsplit
      have hcaller : ({ p.2 with conId := conId } : MdRequest).caller = p.2.caller := rfl
      simp only [all, inHand, ← Multiset.coe_add, Multiset.coe_singleton]
      rw [hsplit]
      simp only [Multiset.map_add, Multiset.map_singleton, hcaller]
      abel

end ScanDesk

/-- **Every event accounts for every request**, whatever is asked of it. -/
lemma accounted (w : ScanRun) (e : ScanEvent) : Accounted w e := by
  cases e with
  | asked s standing naming =>
      exact ⟨_, rfl, ScanDesk.all_carry w.desk standing naming { s with asked := none }⟩
  | lap n =>
      refine ⟨0, rfl, congrArg _ ?_⟩
      simp only [ScanRun.step, ScanDesk.all, ScanDesk.inHand, ScanEvent.handedOver,
        ← Multiset.coe_add]
      have hlap : (w.desk.resolvedNamed : Multiset MdRequest) =
          w.desk.resolvedNamed.take n + w.desk.resolvedNamed.drop n := by
        rw [Multiset.coe_add, List.take_append_drop]
      rw [hlap]
      abel
  | carried standing naming =>
      cases hbuf : w.desk.cmdBuf with
      | nil =>
          refine ⟨0, fun s hs => absurd hs (by rw [hbuf]; exact Option.not_mem_none s), ?_⟩
          rw [ScanRun.step, hbuf]
          rfl
      | cons s rest =>
          refine ⟨(({ w.desk with cmdBuf := rest }).carry standing naming s).2.letsGo s, ?_, ?_⟩
          · intro s' hs'
            rw [hbuf] at hs' ⊢
            cases hs'
            rfl
          · have hstart : w.desk.all + ScanEvent.handedOver (.carried standing naming) =
                ({ w.desk with cmdBuf := rest }).all + {s} := by
              simp only [ScanDesk.all, ScanDesk.inHand, ScanEvent.handedOver, hbuf,
                ← Multiset.cons_coe, ← Multiset.singleton_add]
              abel
            rw [hstart, ScanRun.step, hbuf]
            exact ScanDesk.all_carry _ standing naming s
  | named lookup conId =>
      refine ⟨0, rfl, ?_⟩
      have hnone : ScanEvent.handedOver (.named lookup conId) = 0 := rfl
      rw [hnone, add_zero, add_zero]
      exact (ScanDesk.all_name w.desk lookup conId).symm
  | givenUp lookups =>
      refine ⟨_, rfl, congrArg _ ?_⟩
      have hsplit := congrArg (Multiset.map Prod.snd) (ScanDesk.coe_filter_not
        (fun p : ℕ × MdRequest => lookups p.1) w.desk.pendingNamed)
      simp only [Multiset.map_add, Multiset.map_coe] at hsplit
      simp only [ScanRun.step, ScanDesk.all, ScanDesk.inHand, ScanEvent.handedOver]
      rw [hsplit]
      abel
  | withdrawn reqId =>
      obtain ⟨gone, hall, hof⟩ := ScanDesk.all_withdrawMktData w.desk reqId
      refine ⟨gone, hof, congrArg _ ?_⟩
      have hnone : ScanEvent.handedOver (.withdrawn reqId) = 0 := rfl
      rw [hnone, add_zero]
      exact hall
  | calculationWithdrawn reqId =>
      obtain ⟨gone, hall, hof⟩ := ScanDesk.all_withdrawCalculation w.desk reqId
      refine ⟨gone, hof, congrArg _ ?_⟩
      have hnone : ScanEvent.handedOver (.calculationWithdrawn reqId) = 0 := rfl
      rw [hnone, add_zero]
      exact hall

/-- **Scans of a contract in turn.**  Where each scan released is taken or leaves none behind it, no
other request's withdrawal releases one, and no scan is handed over while another is released and
none is taken, the scans of each contract are taken one at a time and in the order they were asked,
none waits behind nothing, none released is held again, and each handed over is taken, held,
released or waiting for a name, once, until it is refused or withdrawn. -/
theorem scans_in_turn (es : List ScanEvent) (hrun : Runs.Along ScanRun.step PassesOn {} es) :
    InTurn (Runs.run ScanRun.step {} es) ∧ Runs.Along ScanRun.step TakesTurn {} es ∧
      Runs.Along ScanRun.step Accounted {} es := by
  have hstep : ∀ (w : ScanRun) (e : ScanEvent), w.Ordered → PassesOn w e → (w.step e).Ordered :=
    fun _ _ h hturn => h.step hturn
  refine ⟨(Runs.Along.invariant hstep ScanRun.ordered_init hrun).inTurn, ?_,
    Runs.Along.of_forall accounted _ es⟩
  exact Runs.Along.mono hstep (fun _ _ h hturn => h.takesTurn hturn) ScanRun.ordered_init hrun

def spreadScan (reqId conId : ℤ) : ScanEvent :=
  .asked { reqId, conId, scan := true, calculation := false } .clear .asItStands

/-- Three scans of a contract and one of another; each of the first two is withdrawn, and the next
taken in the lap behind it. -/
def scansHandedOn : List ScanEvent :=
  [spreadScan 1 700, spreadScan 2 700, spreadScan 3 700, spreadScan 4 800, .withdrawn 1, .lap 1,
    .carried .clear .asItStands, .withdrawn 2, .withdrawn 4, .lap 1, .carried .clear .asItStands]

theorem scansHandedOn_in_turn : InTurn (Runs.run ScanRun.step {} scansHandedOn) ∧
    Runs.Along ScanRun.step TakesTurn {} scansHandedOn ∧
      Runs.Along ScanRun.step Accounted {} scansHandedOn :=
  scans_in_turn scansHandedOn (by decide)

/-- The first of two scans is withdrawn, and a third asked before the lap that takes the second. -/
def scansCrossed : List ScanEvent :=
  [spreadScan 1 700, spreadScan 2 700, .withdrawn 1, spreadScan 3 700, .lap 1,
    .carried .clear .asItStands]

theorem scansCrossed_out_of_turn : ¬(InTurn (Runs.run ScanRun.step {} scansCrossed) ∧
    Runs.Along ScanRun.step TakesTurn {} scansCrossed ∧
      Runs.Along ScanRun.step Accounted {} scansCrossed) := by
  rintro ⟨hturn, -⟩
  have hlater := hturn.later 700 (by decide) ⟨2, 700, true, false, some 1⟩ (by decide) 2
    (by decide) 1 rfl
  exact absurd hlater (by decide)

end IbkrDx
