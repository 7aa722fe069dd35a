import IbkrDx.Lib.Runs
import IbkrDx.Lib.Window
import IbkrDx.Protocol.BookFrames

/-!
# Depth callers

The market-depth half of `engine/hot_loop/farm/mod.rs`: a stream's book is kept beside the entries
that change it, and each caller reading the stream is handed the entries of the rows it asked for,
the row an insertion pushes out of them and the one a removal lets in.

* `FarmDepth` — who reads which stream, how deep each asked, and the book of each stream.
* `bookEntry`, `depthSection`, `handleDepth35y` — one entry, one section, one frame.

A price is a whole number of a stream's increments, in floating point; that product is a parameter,
`worth`.  A section naming a stream nobody here reads is read and left, so what prices on it would
be counted in does not appear.
-/

namespace IbkrDx

structure BookRow (Price : Type) where
  maker : String
  price : Price
  size : Price
  deriving DecidableEq

/-- One subscription a stream answers, by the venue's number for the stream. -/
structure DepthTag (Price : Type) where
  serverTag : ℕ
  reqId : ℕ
  isSmart : Bool
  minTick : Price
  sizeTick : Price
  venue : String

/-- How deep a caller asked a book of one mode to be. -/
structure DepthRows where
  reqId : ℕ
  isSmart : Bool
  rows : ℤ
  deriving DecidableEq

/-- A change of a caller's book: 0 inserts, 1 updates, 2 deletes. -/
structure DepthUpdate (Price : Type) where
  reqId : ℕ
  position : ℤ
  marketMaker : String
  operation : ℕ
  side : BookSide
  price : Price
  size : Price
  isSmartDepth : Bool

abbrev BookSides (Price : Type) : Type := BookSide → List (BookRow Price)

structure FarmDepth (Price : Type) where
  depthTagToReq : List (DepthTag Price)
  depthRows : List DepthRows
  depthBooks : List (ℕ × BookSides Price)
  updates : List (DepthUpdate Price)

/-- A caller of a stream: its request, the mode of its book and where the stream's levels stand. -/
structure DepthSubscriber where
  reqId : ℕ
  isSmart : Bool
  venue : String
  deriving DecidableEq

/-- The most levels a side keeps: a position is eight bits. -/
def mostLevels : ℕ := 256

/-! ## Names -/

/-- What a name may be trimmed of, among the characters an octet can be. -/
def isWhiteSpace (c : Char) : Bool :=
  c = ' ' ∨ ('\t' ≤ c ∧ c ≤ '\r') ∨ c.toNat = 0x85 ∨ c.toNat = 0xA0

def trim (s : String) : String :=
  String.ofList ((s.toList.dropWhile isWhiteSpace).reverse.dropWhile isWhiteSpace).reverse

/-- The maker a caller is told: on an aggregated book, a level that names none is the venue's. -/
def DepthSubscriber.named (sub : DepthSubscriber) (maker : String) : String :=
  if maker = "" ∧ sub.isSmart = true then sub.venue else maker

namespace FarmDepth

variable {Price : Type}

def depthSubscribersOf (f : FarmDepth Price) (stag : ℕ) : List DepthSubscriber :=
  (f.depthTagToReq.filter (·.serverTag = stag)).map fun t => ⟨t.reqId, t.isSmart, t.venue⟩

def lookupDepthStag (f : FarmDepth Price) (stag : ℕ) : Option (DepthTag Price) :=
  f.depthTagToReq.find? (·.serverTag = stag)

def statedRows (f : FarmDepth Price) (sub : DepthSubscriber) : Option ℤ :=
  (f.depthRows.find? fun r => r.reqId = sub.reqId ∧ r.isSmart = sub.isSmart).map (·.rows)

def withinAskedDepth (f : FarmDepth Price) (sub : DepthSubscriber) (position : ℤ) : Bool :=
  match f.statedRows sub with
  | some rows => position < rows
  | none => true

/-- How many levels a caller asked for, where it named a number. -/
def askedDepth (f : FarmDepth Price) (sub : DepthSubscriber) : Option ℤ :=
  (f.statedRows sub).filter (0 < ·)

def heldBook (f : FarmDepth Price) (tag : ℕ) : Option (BookSides Price) :=
  (f.depthBooks.find? (·.1 = tag)).map (·.2)

def heldSide (f : FarmDepth Price) (tag : ℕ) (side : BookSide) : List (BookRow Price) :=
  ((f.heldBook tag).getD fun _ => []) side

def setBook (tag : ℕ) (book : BookSides Price) :
    List (ℕ × BookSides Price) → List (ℕ × BookSides Price)
  | [] => [(tag, book)]
  | held :: books =>
      if held.1 = tag then (tag, book) :: books else held :: setBook tag book books

def push (f : FarmDepth Price) (us : List (DepthUpdate Price)) : FarmDepth Price :=
  { f with updates := f.updates ++ us }

end FarmDepth

/-! ## What a caller is told of a level -/

structure QuotedLevel (Price : Type) where
  operation : ℕ
  side : BookSide
  price : Price
  size : Price

namespace FarmDepth

variable {Price : Type}

/-- The entry itself, where it is among the rows a caller asked for. -/
def ownEntry (f : FarmDepth Price) (e : BookEntry) (q : QuotedLevel Price)
    (sub : DepthSubscriber) : List (DepthUpdate Price) :=
  if f.withinAskedDepth sub e.position then
    [⟨sub.reqId, e.position, sub.named (trim e.name), q.operation, q.side, q.price, q.size,
      sub.isSmart⟩]
  else []

/-- The level an insertion pushes out of the rows a caller asked for, named as the row was. -/
def outOfWindow [Zero Price] (f : FarmDepth Price) (tag : ℕ) (e : BookEntry)
    (q : QuotedLevel Price) (sub : DepthSubscriber) : List (DepthUpdate Price) :=
  match f.askedDepth sub with
  | some rows =>
      if q.operation = 0 ∧ (e.position : ℤ) < rows ∧
          rows.toNat ≤ (f.heldSide tag q.side).length then
        let maker := ((f.heldSide tag q.side)[rows.toNat - 1]?.map BookRow.maker).getD ""
        [⟨sub.reqId, rows - 1, sub.named maker, 2, q.side, 0, 0, sub.isSmart⟩]
      else []
  | none => []

def toldBefore [Zero Price] (f : FarmDepth Price) (tag : ℕ) (e : BookEntry)
    (q : QuotedLevel Price) (sub : DepthSubscriber) : List (DepthUpdate Price) :=
  f.outOfWindow tag e q sub ++ f.ownEntry e q sub

/-- What a caller is told behind a withdrawal: the level that has moved up into the last of its
rows. -/
def toldAfter (f : FarmDepth Price) (tag : ℕ) (e : BookEntry) (q : QuotedLevel Price)
    (sub : DepthSubscriber) : List (DepthUpdate Price) :=
  if q.operation = 2 ∨ q.operation = 3 then
    match f.askedDepth sub with
    | some rows =>
        if rows ≤ e.position then []
        else
          match (f.heldSide tag q.side)[rows.toNat - 1]? with
          | some row => [⟨sub.reqId, rows - 1, sub.named row.maker, 0, q.side, row.price, row.size,
              sub.isSmart⟩]
          | none => []
    | none => []
  else []

/-- A side of the book with an entry applied.  A position past the end of it is no place in it. -/
def rowsBehind (e : BookEntry) (q : QuotedLevel Price) (rows : List (BookRow Price)) :
    List (BookRow Price) :=
  match q.operation with
  | 0 =>
      if e.position ≤ rows.length then
        (rows.insertIdx e.position ⟨trim e.name, q.price, q.size⟩).take mostLevels
      else rows
  | 1 => rows.set e.position ⟨trim e.name, q.price, q.size⟩
  | _ => rows.eraseIdx e.position

def keepBook (f : FarmDepth Price) (tag : ℕ) (e : BookEntry) (q : QuotedLevel Price) :
    FarmDepth Price :=
  let book := (f.heldBook tag).getD fun _ => []
  { f with
    depthBooks := setBook tag (Function.update book q.side (rowsBehind e q (book q.side)))
      f.depthBooks }

def deliverLevel [Zero Price] (f : FarmDepth Price) (tag : ℕ) (e : BookEntry)
    (q : QuotedLevel Price) : FarmDepth Price :=
  let subscribers := f.depthSubscribersOf tag
  let told := f.push (subscribers.flatMap (f.toldBefore tag e q))
  if subscribers = [] then told
  else
    let kept := told.keepBook tag e q
    kept.push (subscribers.flatMap (kept.toldAfter tag e q))

end FarmDepth

/-! ## Entries, sections, frames -/

section

variable {Price : Type} [Zero Price] [One Price] [LT Price] [DecidableLT Price]
  (worth : ℤ → Price → Price)

/-- What sizes are counted in, where the stream states nothing they can be. -/
def countedIn (sizeTick : Price) : Price := if 0 < sizeTick then sizeTick else 1

/-- The level an entry is about.  A delete names its side in the operation; an insert or an update
is a price and a size, and one stating either alone is not a quoted level. -/
def BookEntry.quoted (e : BookEntry) (tick : DepthTag Price) : Option (QuotedLevel Price) :=
  match e.op with
  | 2 => some ⟨2, .bid, 0, 0⟩
  | 3 => some ⟨2, .ask, 0, 0⟩
  | op =>
      match e.level.price, e.level.size, e.level.side with
      | some p, some s, some side =>
          some ⟨op, side, worth p tick.minTick, worth s (countedIn tick.sizeTick)⟩
      | _, _, _ => none

namespace FarmDepth

def bookEntry (f : FarmDepth Price) (tick : DepthTag Price) (e : BookEntry) : FarmDepth Price :=
  match e.quoted worth tick with
  | none => f
  | some q => f.deliverLevel tick.serverTag e q

def depthSection (f : FarmDepth Price) (entries : ℕ × List BookEntry) : FarmDepth Price :=
  match f.lookupDepthStag entries.1 with
  | none => f
  | some tick => entries.2.foldl (fun f e => f.bookEntry worth tick e) f

def handleDepth35y (f : FarmDepth Price) (msg : Bytes) : FarmDepth Price :=
  (readBook msg).foldl (fun f s => f.depthSection worth s) f

end FarmDepth

end

end IbkrDx
