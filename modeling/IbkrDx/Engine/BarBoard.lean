import IbkrDx.Lib.Runs
import IbkrDx.Engine.BarDesk

/-!
# Five-second bar streams: the board

What is right of a step, and the runs spoken of.
-/

namespace IbkrDx

/-! ## The board -/

structure BarReading where
  ticker : ℕ
  minTick : F64
  sizeTick : F64
  deriving DecidableEq

inductive BarStanding where
  | waiting
  | reads (ρ : BarReading)
  | silent
  deriving DecidableEq

/-- A live request for five-second bars. -/
structure BarEntry where
  reqId : ℕ
  bars : Bars
  standing : BarStanding
  deriving DecidableEq

abbrev BarBoard := List BarEntry

def Bars.sameStream (b c : Bars) : Prop :=
  b.conId = c.conId ∧ b.whatToShow = c.whatToShow ∧ b.useRth = c.useRth

instance (b c : Bars) : Decidable (b.sameStream c) :=
  inferInstanceAs (Decidable (_ ∧ _))

namespace BarEntry

def request (e : BarEntry) : RtBarRequest := ⟨e.reqId, e.bars⟩

@[simp] lemma request_reqId (e : BarEntry) : e.request.reqId = e.reqId := rfl

@[simp] lemma request_bars (e : BarEntry) : e.request.bars = e.bars := rfl

def reading (e : BarEntry) : Option BarReading :=
  match e.standing with
  | .reads ρ => some ρ
  | _ => none

end BarEntry

namespace BarBoard

def readingOf (board : BarBoard) (bars : Bars) : Option BarReading :=
  (board.filter (·.bars = bars)).findSome? (·.reading)

/-- What a number is read as, where it is read for bars of the same contract, kind and hours. -/
def streamOf (board : BarBoard) (bars : Bars) (ticker : ℕ) : Option BarReading :=
  ((board.filter (·.bars.sameStream bars)).filterMap (·.reading)).find? (·.ticker = ticker)

def leave (board : BarBoard) (reqId : ℕ) : BarBoard := board.filter (·.reqId ≠ reqId)

/-- A request asks for bars, and reads the stream they run on at once. -/
def ask (board : BarBoard) (reqId : ℕ) (bars : Bars) : BarBoard :=
  let rest := board.leave reqId
  rest ++ [⟨reqId, bars, ((rest.readingOf bars).map .reads).getD .waiting⟩]

/-- Where a request stands once another's query is given its number: what is read under the number is
another's, and the same bars are read under it, where their unit is the one stated. -/
def renumbered (bars : Bars) (stated : BarReading) (e : BarEntry) : BarStanding :=
  match e.standing with
  | .reads ρ =>
      if ρ.ticker = stated.ticker then .silent
      else if e.bars ≠ bars then .reads ρ
      else if sameTick ρ.minTick stated.minTick then .reads { ρ with ticker := stated.ticker }
      else .silent
  | standing => standing

/-- What a request reads that is given a number nobody reads for its bars. -/
def newReading (board : BarBoard) (bars : Bars) (stated : BarReading) : BarReading :=
  match board.readingOf bars with
  | some ρ =>
      if sameTick ρ.minTick stated.minTick then { ρ with ticker := stated.ticker } else stated
  | none => stated

/-- A request's query is given a number, with the units stated for it. -/
def number (board : BarBoard) (reqId : ℕ) (bars : Bars) (stated : BarReading) : BarBoard :=
  match board.streamOf bars stated.ticker with
  | some ρ => board.map fun e => if e.reqId = reqId then { e with standing := .reads ρ } else e
  | none => board.map fun e =>
      if e.reqId = reqId then { e with standing := .reads (board.newReading bars stated) }
      else { e with standing := renumbered bars stated e }

/-- The number an acknowledgement has cancelled: the same bars' earlier one, its unit another. -/
def givesUp (board : BarBoard) (bars : Bars) (stated : BarReading) : List ℕ :=
  match board.streamOf bars stated.ticker with
  | some _ => []
  | none => ((board.readingOf bars).filter fun ρ =>
      ¬sameTick ρ.minTick stated.minTick).toList.map (·.ticker)

end BarBoard

/-! ## The desk and the board -/

/-- The desk, what stands on the board beside it, and the streams withdrawn before they were
numbered. -/
structure BarWorld (Bar : Type) where
  desk : BarDesk Bar := {}
  board : BarBoard := []
  left : List (BarQuery × RtBarRequest) := []

namespace BarWorld

variable {Bar : Type} (decode : Bytes → F64 → F64 → ℕ → Option Bar)

def named (w : BarWorld Bar) (q : BarQuery) : Option ℕ :=
  ((w.desk.rtbarSubs.find? (·.query = q)).map (·.reqId)).or ((w.desk.batchOf q).map (·.2))

def withdraws (w : BarWorld Bar) : BarEvent → Option ℕ
  | .cancelRealTimeBar r => if w.desk.keepUpToDateReqs.contains r then none else some r
  | .cancelHistorical r => if w.desk.keepUpToDateReqs.contains r then some r else none
  | .failed r => if w.desk.keepUpToDateReqs.contains r then some r else none
  | .refused q =>
      if w.desk.up then
        (w.desk.pendingHistorical.find? (·.1 = q)).bind fun p =>
          if w.desk.keepUpToDateReqs.contains p.2 then some p.2 else none
      else none
  | _ => none

def turnsAway (w : BarWorld Bar) : BarEvent → Option ℕ
  | .refused q =>
      if w.desk.up ∧ w.desk.pendingHistorical.find? (·.1 = q) = none then
        (w.desk.rtbarSubs.find? (·.query = q)).map (·.reqId)
      else none
  | _ => none

def isLate (w : BarWorld Bar) (q : BarQuery) : Bool := w.left.any (·.1 = q)

def numberFor (w : BarWorld Bar) (q : BarQuery) (stated : BarReading) : BarBoard :=
  match w.named q with
  | none => w.board
  | some r =>
      match w.board.find? (·.reqId = r) with
      | none => w.board
      | some e => w.board.number r e.bars stated

def boardAfter (w : BarWorld Bar) (e : BarEvent) : BarBoard :=
  match w.withdraws e, w.turnsAway e with
  | some r, _ => w.board.leave r
  | none, some r => w.board.leave r
  | none, none =>
      match e with
      | .subscribe r bars =>
          if ¬w.desk.up ∨ w.desk.rtbarSubs.any (·.reqId = r) then w.board else w.board.ask r bars
      | .keepUpToDate r bars => if w.desk.up then w.board.ask r bars else w.board
      | .acknowledged q ticker (some minTick) sizeTick =>
          if ¬w.desk.up ∨ w.isLate q then w.board else w.numberFor q ⟨ticker, minTick, sizeTick⟩
      -- a drop ends the requests kept up to date, and no other stream
      | .disconnect => w.board.filter fun e => e.reqId ∉ w.desk.keepUpToDateReqs
      | .reconnect => w.board.map fun e => { e with standing := .waiting }
      | _ => w.board

/-- The stream of a request that waits is withdrawn before it is numbered. -/
def leftBehind (w : BarWorld Bar) (r : ℕ) : List (BarQuery × RtBarRequest) :=
  match w.desk.rtbarSubs.find? (·.reqId = r), w.board.find? (·.reqId = r) with
  | some sub, some e =>
      if e.standing = .waiting then w.left.filter (·.1 ≠ sub.query) ++ [(sub.query, e.request)]
      else w.left
  | _, _ => w.left

def leftAfter (w : BarWorld Bar) (e : BarEvent) : List (BarQuery × RtBarRequest) :=
  match w.withdraws e with
  | some r => w.leftBehind r
  | none =>
      match e with
      | .acknowledged q .. => if w.desk.up then w.left.eraseP (·.1 = q) else w.left
      | .reconnect => []
      | _ => w.left

def step (w : BarWorld Bar) (e : BarEvent) : BarWorld Bar where
  desk := (w.desk.step decode e).2
  board := w.boardAfter e
  left := w.leftAfter e

/-! ## What is right of a step -/

def reach : BarMove Bar → ℕ × Bar
  | .told r bar => (r, bar)
  | .queued r bar => (r, bar)
  | .folded r _ bar => (r, bar)

def cancelled (sent : List BarSent) : List ℕ :=
  sent.filterMap fun
    | .cancel (.number n) => some n
    | _ => none

/-- What each live request is owed of a record: the bar, in the units of the stream it reads. -/
def owed (board : BarBoard) (rec : BarRecord) : List (ℕ × Bar) :=
  board.filterMap fun e => (e.reading.filter (·.ticker = rec.ticker)).bind fun ρ =>
    (decode rec.payload ρ.minTick ρ.sizeTick rec.timestamp).map fun bar => (e.reqId, bar)

/-- A request reads one route at most, and stands on it once. -/
def OneRoute (d : BarDesk Bar) : Prop := (d.rtbarRoutes.flatMap (·.readers)).Nodup

def ReadBeside (w : BarWorld Bar) (r ticker : ℕ) : Prop :=
  ∃ e ∈ w.board, e.reqId ≠ r ∧ ∃ ρ ∈ e.reading, ρ.ticker = ticker

/-- Every record of a frame is handed to each request that reads its number once. -/
def Delivers (w : BarWorld Bar) (e : BarEvent) : Prop :=
  ∀ body, e = .frame body → w.desk.up →
    List.Forall₂ (fun rec moves => (moves.map reach).Perm (owed decode w.board rec))
      (readBarRecords (body.drop 2)) (w.desk.step decode e).1.2

/-- A reader that leaves others reading has nothing cancelled, the last has the number cancelled
once, on every route; and one that waited has its query named to the venue. -/
def Withdraws (w : BarWorld Bar) (e : BarEvent) : Prop :=
  ∀ r, w.withdraws e = some r → w.desk.up →
    (∀ entry ∈ w.board, entry.reqId = r → ∀ ρ ∈ entry.reading,
      (w.ReadBeside r ρ.ticker → cancelled (w.desk.step decode e).1.1 = []) ∧
        (¬w.ReadBeside r ρ.ticker → cancelled (w.desk.step decode e).1.1 = [ρ.ticker])) ∧
      ∀ route ∈ w.desk.rtbarRoutes, r ∈ route.readers →
        cancelled (w.desk.step decode e).1.1
          = if route.readers = [r] then route.ticker.toList else []

/-- A stream withdrawn before it was numbered is cancelled by its number, unless the same bars are
asked for. -/
def CancelsLate (w : BarWorld Bar) (e : BarEvent) : Prop :=
  ∀ q ticker minTick sizeTick asked, e = .acknowledged q ticker minTick sizeTick → w.desk.up →
    w.left.find? (·.1 = q) = some (q, asked) →
      cancelled (w.desk.step decode e).1.1
        = if w.board.any (·.bars = asked.bars) then [] else [ticker]

/-- Nothing else is cancelled by a number, the same bars' earlier one apart. -/
def Spares (w : BarWorld Bar) (e : BarEvent) : Prop :=
  w.withdraws e = none → ∀ n ∈ cancelled (w.desk.step decode e).1.1,
    ∃ q ticker minTick sizeTick, e = .acknowledged q ticker minTick sizeTick ∧
      (w.isLate q ∨ ∃ r ∈ w.named q, ∃ m ∈ minTick, ∃ entry ∈ w.board, entry.reqId = r ∧
        n ∈ w.board.givesUp entry.bars ⟨ticker, m, sizeTick⟩)

/-- **What is right of a step.** -/
structure Right (w : BarWorld Bar) (e : BarEvent) : Prop where
  oneRoute : OneRoute (w.step decode e).desk
  delivers : w.Delivers decode e
  withdraws : w.Withdraws decode e
  cancelsLate : w.CancelsLate decode e
  spares : w.Spares decode e

/-! ## The runs -/

/-- The same bars are read under one number, and the number of a stream is not stated for bars that
only a request that has left asked for on it. -/
def Steady (w : BarWorld Bar) (asked : RtBarRequest) (ticker : ℕ) : Prop :=
  (compatibleRoute w.desk.rtbarRoutes asked ticker ≠ none ∨
      alternateRoute w.desk.rtbarRoutes asked ticker = none →
    ∀ e ∈ w.board, e.bars = asked.bars → ∀ ρ ∈ e.reading, ρ.ticker = ticker) ∧
  (compatibleRoute w.desk.rtbarRoutes asked ticker = none →
    ∀ pos ∈ alternateRoute w.desk.rtbarRoutes asked ticker, ∀ route ∈ w.desk.rtbarRoutes[pos]?,
      ∀ r ∈ route.readers, ∃ e ∈ w.board, e.reqId = r ∧ e.bars = asked.bars)

def Spared (w : BarWorld Bar) : BarEvent → Prop
  | .subscribe r bars =>
      bars.conId ≠ 0 ∧ r ∉ w.desk.keepUpToDateReqs ∧ w.desk.nextHmdsQueryId + 1 < 2 ^ 32
  | .keepUpToDate r bars => bars.conId ≠ 0 ∧ (∀ sub ∈ w.desk.rtbarSubs, sub.reqId ≠ r) ∧
      w.desk.nextHmdsQueryId + 1 < 2 ^ 32
  | .reconnect => w.desk.nextHmdsQueryId + w.desk.rtbarResub.length < 2 ^ 32
  | .acknowledged q ticker minTick _ =>
      w.desk.up → ¬w.isLate q → minTick ≠ none →
        ∀ r ∈ w.named q, ∃ e ∈ w.board, e.reqId = r ∧ w.Steady e.request ticker
  | .refused q =>
      ∀ r ∈ w.turnsAway (.refused q), (w.desk.rtbarSubs.filter (·.reqId = r)).length = 1
  | .disconnect => ∀ r ∈ w.desk.leftToAskAgain, ∀ e ∈ w.board, e.reqId ≠ r
  | _ => True

end BarWorld

end IbkrDx
