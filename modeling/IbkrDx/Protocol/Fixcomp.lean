import IbkrDx.Protocol.Fix

/-!
# Compressed FIX framing

The frames of `protocol/fixcomp.rs`: a FIX message deflated into a length-prefixed raw block, and
what a compressed frame's header says about the bytes in hand.  The zlib encoder is a parameter —
any function from bytes to bytes.
-/

namespace IbkrDx

open Search Decimal

def fixcompBody (compressed : Bytes) : Bytes :=
  ascii "95=" ++ text compressed.length ++ soh :: (ascii "96=" ++ compressed ++ [soh])

/-- Wrap a FIX message in compressed framing. -/
def fixcompBuild (deflate : Bytes → Bytes) (innerMsg : Bytes) : Bytes :=
  let body := fixcompBody (deflate innerMsg)
  header (ascii "FIXCOMP") (text body.length) ++ body

/-- What a frame's stated length says about the bytes in hand. -/
inductive FrameLength where
  /-- The whole frame is here, and this is how long it is. -/
  | complete (total : ℕ)
  /-- The header reads, and the rest of the frame has not arrived yet. -/
  | incomplete
  /-- The header does not read, and no further byte changes that. -/
  | unreadable
  deriving DecidableEq

/-- How much of a frame is read before its header is given up on. -/
def maxHeaderScan : ℕ := 128

/-- Addition in `usize`, where the sum fits. -/
def checkedAdd (a b : ℕ) : Option ℕ := if a + b < usizeBound then some (a + b) else none

/-- A header with no separator in it: still coming, unless there is more here than a header. -/
def unseparated (data : Bytes) : FrameLength :=
  if maxHeaderScan < data.length then .unreadable else .incomplete

/-- What the length field at offset `tag9` says, its separator standing `p` bytes behind that. -/
def statedTotal (data : Bytes) (tag9 p : ℕ) : FrameLength :=
  match parse usizeBound ((data.drop (tag9 + 2)).take (p - 2)) with
  | none => .unreadable
  | some bodyLen =>
      match (checkedAdd (tag9 + p) 1).bind (checkedAdd · bodyLen) with
      | none => .unreadable
      | some total => if data.length < total then .incomplete else .complete total

def fixcompFrameLength (data : Bytes) : FrameLength :=
  if data.length < 10 then .incomplete
  else
    match position soh data with
    | none => unseparated data
    | some soh1 =>
        let tag9 := soh1 + 1
        if data.length < tag9 + 2 then .incomplete
        else if ¬ ascii "9=" <+: data.drop tag9 then .unreadable
        else
          match position soh (data.drop tag9) with
          | none => unseparated data
          | some p => statedTotal data tag9 p

end IbkrDx
