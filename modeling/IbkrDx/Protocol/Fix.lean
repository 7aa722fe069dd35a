import IbkrDx.Lib.Search
import IbkrDx.Lib.Decimal

/-!
# FIX message framing

The messages of `protocol/fix.rs`: how a message is built from its fields, how its fields are
walked, how it is signed and how a signature is found and verified.

* `fixBuild` — header, body and checksum from the fields and a sequence number.
* `fields` — the walk over a message's fields, with the raw block a length field states read whole.
* `fixSign` — the signature field, the XOR distortion and the next IV.
* `carriesSignature`, `fixUnsign` — the receiving side.

HMAC-SHA1 is a parameter throughout: any function from a key and the bytes fed to it to twenty
bytes.  `fix_sign` panics on a message it finds no length, checksum or message type in, and on an
IV shorter than sixteen bytes; the model says `none` there.
-/

namespace IbkrDx

open Search Decimal

abbrev Bytes := List UInt8

def ascii (s : String) : Bytes := s.toList.map Char.toUInt8

def soh : UInt8 := 1

/-- The byte `=`. -/
def eqSign : UInt8 := 61

def tagRawDataLength : ℕ := 95

def tagRawData : ℕ := 96

def tagHmacSignature : ℕ := 8349

/-- What the signature field occupies: `8349=`, eight hex characters, and the separator. -/
def sigFieldLen : ℕ := 5 + 8 + 1

/-- What a FIX.4.1 frame carries after its body: `10=XXX` and the separator. -/
def fix41TrailerLen : ℕ := 7

/-- The texts `parse::<usize>` takes state numbers below this. -/
def usizeBound : ℕ := 2 ^ 64

def u32Bound : ℕ := 2 ^ 32

/-! ## Building a message -/

/-- One field's value, in the characters this wire carries: every character outside ASCII is
written as a single star. -/
def pushValue (val : String) : Bytes :=
  val.toList.map fun c => if c.val < 128 then c.toUInt8 else 42

def field (f : UInt32 × String) : Bytes := text f.1.toNat ++ eqSign :: pushValue f.2 ++ [soh]

/-- The sequence number, in six digits at least. -/
def seqField (seq : UInt32) : Bytes := ascii "34=" ++ padded 6 seq.toNat ++ [soh]

def fixBody (fields : List (UInt32 × String)) (seq : UInt32) : Bytes :=
  match fields with
  | [] => []
  | f :: rest => field f ++ seqField seq ++ rest.flatMap field

/-- The first two fields of every frame: the begin string and the stated length. -/
def header (name len : Bytes) : Bytes :=
  ascii "8=" ++ name ++ soh :: (ascii "9=" ++ len ++ [soh])

/-- The checksum trailer.  The source sums in `u32`, and 256 divides what that wraps at. -/
def trailer (m : Bytes) : Bytes :=
  ascii "10=" ++ padded 3 ((m.map UInt8.toNat).sum % 256) ++ [soh]

/-- Build a complete FIX message.  The length is stated as a `u32`. -/
def fixBuild (fields : List (UInt32 × String)) (seq : UInt32) : Bytes :=
  let body := fixBody fields seq
  let msg := header (ascii "FIX.4.1") (padded 4 (body.length % u32Bound))
  msg ++ body ++ trailer (msg ++ body)

/-! ## Walking a message's fields -/

/-- One field: its tag, the offset it starts at, and its value. -/
structure Field where
  tag : ℕ
  start : ℕ
  value : Bytes
  deriving DecidableEq

def segment (seg : Bytes) : Option (ℕ × Bytes) := do
  let eq ← position eqSign seg
  let tag ← parse u32Bound (seg.take eq)
  return (tag, seg.drop (eq + 1))

/-- How much the raw block behind a length field holds, where there is one: tag 95 states a length
and tag 96 follows it directly. -/
def rawBlock (tag : ℕ) (value rest : Bytes) : Option ℕ :=
  if tag = tagRawDataLength ∧ rest ≠ [] then
    (parse usizeBound value).bind fun n => if ascii "96=" <+: rest then some n else none
  else none

/-- The fields of a message in wire order, from the offset `off` on; `rest` is what the message
holds there.  A length a message cut inside its raw block does not satisfy reads what is left. -/
def fieldsFrom (off : ℕ) (rest : Bytes) : List Field :=
  if _hne : rest = [] then []
  else
    let seg := rest.takeWhile (· ≠ soh)
    let next := rest.drop (seg.length + 1)
    match segment seg with
    | none => fieldsFrom (off + seg.length + 1) next
    | some (tag, value) =>
        ⟨tag, off, value⟩ ::
          match rawBlock tag value next with
          | none => fieldsFrom (off + seg.length + 1) next
          | some n =>
              let raw := (next.drop 3).take n
              ⟨tagRawData, off + seg.length + 1, raw⟩ ::
                fieldsFrom (off + seg.length + 1 + 3 + raw.length) (next.drop (3 + raw.length))
termination_by rest.length
decreasing_by
  all_goals
    have := List.length_pos_iff.2 _hne
    simp only [List.length_drop]
    omega

def fields (data : Bytes) : List Field := fieldsFrom 0 data

/-! ## The signature's text -/

abbrev Digest := Fin 20 → UInt8

/-- HMAC-SHA1: the key, then everything fed to it. -/
abbrev Hmac := Bytes → Bytes → Digest

def xorFoldBytes (h : Digest) : Fin 4 → UInt8 := fun i =>
  h ⟨i, by omega⟩ ^^^ h ⟨i + 4, by omega⟩ ^^^ h ⟨i + 8, by omega⟩ ^^^ h ⟨i + 12, by omega⟩ ^^^
    h ⟨i + 16, by omega⟩

def hexNibble (b : UInt8) : UInt8 :=
  if 48 ≤ b ∧ b ≤ 57 then b - 48
  else if 65 ≤ b ∧ b ≤ 70 then b - 65 + 10
  else if 97 ≤ b ∧ b ≤ 102 then b - 97 + 10
  else 0xFF

def isAsciiHexdigit (b : UInt8) : Bool :=
  decide ((48 ≤ b ∧ b ≤ 57) ∨ (65 ≤ b ∧ b ≤ 70) ∨ (97 ≤ b ∧ b ≤ 102))

/-- The upper-case hex character of a number below sixteen. -/
def hexChar (n : UInt8) : UInt8 := if n < 10 then 48 + n else 55 + n

def pushHexUpper (r : Fin 4 → UInt8) : Bytes :=
  (List.finRange 4).flatMap fun i => [hexChar (r i >>> 4), hexChar (r i &&& 0xF)]

/-- Compare four folded bytes against eight hex characters of either case. -/
def sigHexEq (expected : Fin 4 → UInt8) (hex : Bytes) : Bool :=
  decide (hex.length = 8) && (List.finRange 4).all fun i =>
    let hi := hexNibble (hex.getD (i * 2) 0)
    let lo := hexNibble (hex.getD (i * 2 + 1) 0)
    decide (hi ≤ 0xF ∧ lo ≤ 0xF ∧ hi <<< 4 ||| lo = expected i)

def sigField (h : Digest) : Bytes := ascii "8349=" ++ pushHexUpper (xorFoldBytes h) ++ [soh]

/-! ## Signing -/

def isFixcomp (msg : Bytes) : Bool := decide (ascii "8=FIXCOMP" <+: msg)

def isFix41 (msg : Bytes) : Bool := decide (ascii "8=FIX.4.1" <+: msg)

/-- How much stands behind the signature field of a signed frame. -/
def trailerLen (msg : Bytes) : ℕ := if isFix41 msg then fix41TrailerLen else 0

/-- The position right after the first `needle value SOH`. -/
def findAfterTagBytes (data needle : Bytes) : Option ℕ := do
  let idx ← find needle data
  let p ← position soh (data.drop (idx + needle.length))
  return idx + needle.length + p + 1

/-- The field in front of the bytes the distortion may touch. -/
def distortedBehind (msg : Bytes) : Bytes := if isFixcomp msg then ascii "9=" else ascii "35="

/-- How many bytes the distortion may touch in a frame of `len` bytes: from `start` up to `end`,
short of the signature and of the trailer behind it. -/
def distortionRange (len behind start : ℕ) : ℕ :=
  ((len : ℤ) - 14 - 2 - behind - start + 1).toNat

def distortAt (iv : Bytes) (start rng : ℕ) (msg : Bytes) (i : ℕ) : Bytes :=
  msg.modify (start + (iv.getD (i * 2) 0).toNat % rng) (· ^^^ iv.getD (i * 2 + 1) 0)

/-- The positions of the distortion, in the order given; `behind` is the length of the trailer. -/
def distort (iv : Bytes) (behind start : ℕ) (order : List ℕ) (msg : Bytes) : Bytes :=
  let rng := distortionRange msg.length behind start
  if rng = 0 then msg else order.foldl (distortAt iv start rng) msg

/-- The IV after one message: the old one against the front of the digest. -/
def chainIv (iv : Bytes) (h : Digest) : Bytes :=
  List.ofFn fun i : Fin 16 => iv.getD i 0 ^^^ h ⟨i, by omega⟩

/-- Where the body of an unsigned message ends: in front of its checksum, where it has one. -/
def bodyEnd (msg : Bytes) : Option ℕ :=
  if isFix41 msg then (rfind (soh :: ascii "10=") msg).map (· + 1) else some msg.length

/-- The signed body of a message: what stands between its length field and its checksum. -/
def signedBody (msg : Bytes) : Option Bytes := do
  let after9 ← findAfterTagBytes msg (ascii "9=")
  let stop ← bodyEnd msg
  if after9 ≤ stop then return (msg.take stop).drop after9 else none

/-- A message with its signature, before the distortion: the header again, the length of the body
with the signature behind it, the body, the signature, and a checksum where the header has one.
The length is written plain, as a `u32`. -/
def rebuilt (msg body : Bytes) (h : Digest) : Bytes :=
  let hdrEnd := ((position soh msg).getD 0) + 1
  let newMsg := msg.take hdrEnd ++ ascii "9=" ++ text ((body.length + sigFieldLen) % u32Bound)
    ++ [soh] ++ body ++ sigField h
  if isFix41 msg then newMsg ++ trailer newMsg else newMsg

/-- A message's digest under an IV, and the message with its signature before the distortion. -/
def fixSignPlain (hmac : Hmac) (msg key iv : Bytes) : Option (Bytes × Digest) := do
  let body ← signedBody msg
  let h := hmac key (iv ++ body)
  return (rebuilt msg body h, h)

def fixSign (hmac : Hmac) (msg key iv : Bytes) : Option (Bytes × Bytes) := do
  let (newMsg, h) ← fixSignPlain hmac msg key iv
  let start ← findAfterTagBytes newMsg (distortedBehind msg)
  if 16 ≤ iv.length then
    return (distort iv (trailerLen msg) start (List.range 8) newMsg, chainIv iv h)
  else none

/-! ## Verifying -/

/-- Whether the signature field stands where a signed frame has it, a field of its own. -/
def signatureAtTheTrailer (msg : Bytes) : Bool :=
  let at' := msg.length - (trailerLen msg + sigFieldLen)
  let fld := (msg.drop at').take sigFieldLen
  decide (trailerLen msg + sigFieldLen ≤ msg.length ∧ 0 < at' ∧ msg[at' - 1]? = some soh ∧
    ascii "8349=" <+: fld ∧ fld[sigFieldLen - 1]? = some soh) &&
    ((fld.drop 5).take 8).all isAsciiHexdigit

/-- Whether a frame carries a signature field: at the trailer, or anywhere in the walk. -/
def carriesSignature (msg : Bytes) : Bool :=
  signatureAtTheTrailer msg || (fields msg).any (·.tag = tagHmacSignature)

/-- What verifying a frame gives: the frame without the distortion, the next IV, and whether the
signature is right. -/
structure Unsigned where
  msg : Bytes
  iv : Bytes
  valid : Bool
  deriving DecidableEq

def undistorted (msg iv : Bytes) : Bytes :=
  distort iv (trailerLen msg) ((findAfterTagBytes msg (distortedBehind msg)).getD 0)
    (List.range 8).reverse msg

/-- The signed bytes of a frame and its signature: from behind the length field up to the first
signature field of the walk. -/
def signedParts (msg : Bytes) : Option (Bytes × Bytes) := do
  let after9 ← findAfterTagBytes msg (ascii "9=")
  let sig ← (fields msg).find? (·.tag = tagHmacSignature)
  if after9 ≤ sig.start then return ((msg.take sig.start).drop after9, sig.value) else none

/-- Take the distortion off a signed frame and verify it. -/
def fixUnsign (hmac : Hmac) (msg key iv : Bytes) : Unsigned :=
  let plain := undistorted msg iv
  match signedParts plain with
  | none => ⟨plain, iv, false⟩
  | some (body, sig) =>
      let h := hmac key (iv ++ body)
      ⟨plain, chainIv iv h, sigHexEq (xorFoldBytes h) sig⟩

end IbkrDx
