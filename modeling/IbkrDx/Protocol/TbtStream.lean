import IbkrDx.Lib.Reader
import IbkrDx.Protocol.Fix

/-!
# Tick-by-tick records

The reader of `protocol/tbt_stream.rs`.  A frame carries records until its bits run out, each headed
by its stream and its second; a record ends when the fields of its kind are read, and each field
ends itself.  A price is sent as a move, added to where the stream's price stood.

* `Bits` — the bits of a frame and the position in them; `unsigned`, `signed`, `text` read fields.
* `readRecord` — one record, which moves the running price only once it is read whole.
* `Records.new`, `nextStream` — the payload of a frame, and a record's header.
* `readRecords` — a frame's records, each read by the kind of the stream it names and with that
  stream's running price, the way `handle_tbt_data` reads a frame of streams with one holder each.

A price is a whole number of ticks times the contract's smallest step, in floating point; that
product is a parameter, `worth`.
-/

namespace IbkrDx

/-! ## The bits of a frame -/

/-- The bits of a frame, in the order the venue wrote them, and the position in bits. -/
structure Bits where
  bytes : Bytes
  pos : ℕ
  deriving DecidableEq

namespace Bits

def new (bytes : Bytes) : Bits := ⟨bytes, 0⟩

def remaining (b : Bits) : ℕ := b.bytes.length * 8 - b.pos

def bit : Reader Bits UInt8 := do
  let b ← get
  let byte ← Reader.take b.bytes[b.pos / 8]?
  let shift := 7 - b.pos % 8
  set { b with pos := b.pos + 1 }
  return (byte >>> shift.toUInt8) &&& 1

/-- The next `n` bits behind the ones read so far. -/
def octetFrom : ℕ → UInt8 → Reader Bits UInt8
  | 0, out => return out
  | n + 1, out => do
      let next ← bit
      octetFrom n ((out <<< 1) ||| next)

def octet : Reader Bits UInt8 := octetFrom 8 0

/-- How many octets a loop can ask for before the frame is out, the failing one included. -/
def octetsLeft : Reader Bits ℕ := do
  let b ← get
  return b.remaining / 8 + 1

/-- The next octet's seven bits behind those of a `u64`. -/
def pushUnsigned (acc : UInt64) (o : UInt8) : UInt64 := (acc <<< 7) ||| (o &&& 0x7F).toUInt64

/-- The next octet's seven bits behind those of an `i64`. -/
def pushSigned (acc : Int64) (o : UInt8) : Int64 := (acc <<< 7) ||| (o &&& 0x7F).toUInt64.toInt64

/-- The loop of `unsigned` and of `signed`: the octets up to the one whose top bit is set. -/
def untilLast {α : Type} (push : α → UInt8 → α) : ℕ → α → Reader Bits α
  | 0, _ => failure
  | fuel + 1, acc => do
      let o ← octet
      if o &&& 0x80 ≠ 0 then return push acc o else untilLast push fuel (push acc o)

/-- A whole number, seven bits at a time, most significant first.  The top bit marks the last
octet. -/
def unsigned : Reader Bits UInt64 := do
  let fuel ← octetsLeft
  untilLast pushUnsigned fuel 0

/-- A whole number that may be negative: bit six of the leading octet seeds the accumulator with
all ones. -/
def signed : Reader Bits Int64 := do
  let fuel ← octetsLeft
  let first ← octet
  let acc := pushSigned (if first &&& 0x40 ≠ 0 then -1 else 0) first
  if first &&& 0x80 ≠ 0 then return acc else untilLast pushSigned fuel acc

/-- The loop of `text`; `out` holds the characters read, and every one of them is ASCII. -/
def textFrom : ℕ → List Char → Reader Bits String
  | 0, _ => failure
  | fuel + 1, out => do
      let o ← octet
      if o = 0x80 then return String.ofList out
      let out := out ++ [Char.ofNat (o &&& 0x7F).toNat]
      if o &&& 0x80 ≠ 0 then return String.ofList out
      let b ← get
      if out.length * 8 > b.bytes.length * 8 then failure
      textFrom fuel out

/-- A string, one character per octet, the last carrying the top bit.  One with nothing in it is
the end marker alone. -/
def text : Reader Bits String := do
  let fuel ← octetsLeft
  textFrom fuel []

/-- A size, which the venue may state in one number or in two, the low half first. -/
def size (extended : Bool) : Reader Bits UInt64 :=
  if extended then do
    let low ← unsigned
    let high ← unsigned
    return low ||| (high <<< 32)
  else unsigned

end Bits

/-! ## Records -/

inductive TbtKind where
  | last
  | allLast
  | bidAsk
  | midPoint
  deriving DecidableEq

structure TbtTradeRecord (Price : Type) where
  price : Price
  size : UInt64
  pastLimit : Bool
  unreported : Bool
  exchange : String
  conditions : String
  deriving DecidableEq

/-- What the venue said about the top of the book. -/
structure TbtQuoteRecord (Price : Type) where
  bid : Price
  ask : Price
  bidSize : UInt64
  askSize : UInt64
  bidPastLow : Bool
  askPastHigh : Bool
  deriving DecidableEq

/-- One record.  The midpoint is in the contract's own smallest step. -/
inductive TbtRecord (Price : Type) where
  | trade (record : TbtTradeRecord Price)
  | quote (record : TbtQuoteRecord Price)
  | midPoint (ticks : Int64)
  deriving DecidableEq

structure RunningPrice where
  lastTicks : Int64 := 0
  bidTicks : Int64 := 0
  askTicks : Int64 := 0
  midTicks : Int64 := 0
  deriving DecidableEq

def RunningPrice.checkedAdd (x y : Int64) : Option Int64 :=
  if -2 ^ 63 ≤ x.toInt + y.toInt ∧ x.toInt + y.toInt < 2 ^ 63 then some (x + y) else none

/-- Whether bit `n` of the flags is set. -/
def flagged (flags : UInt64) (n : UInt64) : Bool := flags &&& (1 <<< n) ≠ 0

section

variable {Price : Type} (worth : Int64 → Price → Price)

/-- One record, laid out as `kind` lays one out.  The running price is committed only once the
whole record has been read. -/
def readRecord (kind : TbtKind) (minTick : Price) :
    Reader (Bits × RunningPrice) (TbtRecord Price) := do
  let firstMove ← Reader.onFst Bits.signed
  let running ← Reader.getSnd
  match kind with
  | .last | .allLast =>
      let lastTicks ← Reader.take (RunningPrice.checkedAdd running.lastTicks firstMove)
      let flags ← Reader.onFst Bits.unsigned
      let size ← Reader.onFst
        (if flagged flags 5 then Bits.size (flagged flags 4) else Bits.unsigned)
      let exchange ← Reader.onFst Bits.text
      let conditions ← Reader.onFst Bits.text
      let record : TbtRecord Price := .trade ⟨worth lastTicks minTick, size, flagged flags 0,
        flagged flags 1, exchange, conditions⟩
      Reader.setSnd { running with lastTicks := lastTicks }
      return record
  | .bidAsk =>
      let askMove ← Reader.onFst Bits.signed
      let bidTicks ← Reader.take (RunningPrice.checkedAdd running.bidTicks firstMove)
      let askTicks ← Reader.take (RunningPrice.checkedAdd running.askTicks askMove)
      let flags ← Reader.onFst Bits.unsigned
      let bidSize ← Reader.onFst (Bits.size (flagged flags 2))
      let askSize ← Reader.onFst (Bits.size (flagged flags 3))
      let record : TbtRecord Price := .quote ⟨worth bidTicks minTick, worth askTicks minTick,
        bidSize, askSize, flagged flags 0, flagged flags 1⟩
      Reader.setSnd { running with bidTicks := bidTicks, askTicks := askTicks }
      return record
  | .midPoint =>
      let midTicks ← Reader.take (RunningPrice.checkedAdd running.midTicks firstMove)
      let _flags ← Reader.onFst Bits.unsigned
      Reader.setSnd { running with midTicks := midTicks }
      return .midPoint midTicks

/-! ## Frames -/

/-- What a count of bits stated in two bytes wraps at. -/
def bitCycle : ℕ := 65536

/-- How many bits a section carried, recovered against how much arrived. -/
def bitsCarried (bits arrived : ℕ) : ℕ :=
  if bits + bitCycle < arrived * 8 then bitsCarried (bits + bitCycle) arrived else bits
termination_by arrived * 8 - bits
decreasing_by simp only [bitCycle] at *; omega

lemma bitsCarried_eq {arrived n : ℕ} (hfits : n < arrived * 8) (hcycle : arrived * 8 ≤ n + bitCycle) :
    ∀ (k bits : ℕ), bits + k * bitCycle = n → bitsCarried bits arrived = n
  | 0, bits, h => by
      rw [bitsCarried, if_neg (by omega)]
      omega
  | k + 1, bits, h => by
      rw [bitsCarried, if_pos (by rw [Nat.succ_mul] at h; omega)]
      exact bitsCarried_eq hfits hcycle k (bits + bitCycle) (by rw [Nat.succ_mul] at h; omega)

/-- The records a frame's body carries: two bytes say how many bits of payload follow. -/
def Records.new (body : Bytes) : Option Bits :=
  match body with
  | hi :: lo :: rest =>
      let bitsStated := bitsCarried (hi.toNat * 256 + lo.toNat) body.length
      let len := (bitsStated + 7) / 8
      if len ≤ rest.length then some (Bits.new (rest.take len)) else none
  | _ => none

/-- The stream the next record belongs to and the second it happened; nothing once what is left is
too short to hold a header. -/
def Records.nextStream : Reader Bits (UInt64 × UInt64) := do
  let b ← get
  if b.remaining < 16 then failure
  let stream ← Bits.unsigned
  let second ← Bits.unsigned
  return (stream, second)

/-- What is held for each stream: the kind of its records and its contract's smallest step. -/
structure Streams (Price : Type) where
  kind : UInt64 → TbtKind
  minTick : UInt64 → Price

structure Tick (Price : Type) where
  stream : UInt64
  second : UInt64
  record : TbtRecord Price
  deriving DecidableEq

def readRecords (streams : Streams Price) :
    ℕ → Bits → (UInt64 → RunningPrice) → List (Tick Price) × (UInt64 → RunningPrice)
  | 0, _, running => ([], running)
  | fuel + 1, bits, running =>
      match Records.nextStream.outcome bits with
      | (none, _) => ([], running)
      | (some (stream, second), bits) =>
          match (readRecord worth (streams.kind stream) (streams.minTick stream)).outcome
              (bits, running stream) with
          | (none, (_, moved)) => ([], Function.update running stream moved)
          | (some record, (bits, moved)) =>
              let (ticks, running) :=
                readRecords streams fuel bits (Function.update running stream moved)
              (⟨stream, second, record⟩ :: ticks, running)

/-- The records of one frame.  A record takes sixteen bits at least. -/
def readFrame (streams : Streams Price) (running : UInt64 → RunningPrice) (body : Bytes) :
    List (Tick Price) × (UInt64 → RunningPrice) :=
  match Records.new body with
  | none => ([], running)
  | some bits => readRecords worth streams (bits.remaining / 16 + 1) bits running

def readFrames (streams : Streams Price) (running : UInt64 → RunningPrice) :
    List Bytes → List (Tick Price) × (UInt64 → RunningPrice)
  | [] => ([], running)
  | body :: bodies =>
      let (ticks, running) := readFrame worth streams running body
      let (more, running) := readFrames streams running bodies
      (ticks ++ more, running)

end

end IbkrDx
