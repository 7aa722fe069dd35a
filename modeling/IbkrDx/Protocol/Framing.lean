import IbkrDx.Protocol.Signing

/-!
# Framing does not depend on how the socket cuts the stream

A connection appends what a read took to its buffer and takes off whatever whole frames stand at
the front.  The frames a sender writes — plain or signed, compressed or not, and the
length-prefixed binary and control frames — come back in order and under their kinds, however the
bytes were cut, and no byte is thrown away.

* **`frames_independent_of_cuts`** — the two facts, carried over any cut of any run of frames.

The stated length is a `u32` on the plain and on the signed frames, so the result is about bodies
that fit one: `not_frames_independent_of_cuts` is what becomes of a longer body.
-/

namespace IbkrDx

open Search Decimal

/-! ## One round at a time -/

lemma extractLoop_nil : extractLoop [] = ⟨[], [], 0⟩ := by
  rw [extractLoop, dif_pos rfl]

variable {buf : Bytes} {f : Frame}

lemma extractLoop_take (hne : buf ≠ []) {n : ℕ}
    (h : extractStep buf = .take f n) :
    extractLoop buf = (extractLoop (buf.drop n)).cons f := by
  rw [extractLoop, dif_neg hne]
  split
  · next heq =>
      rw [h, Extract.take.injEq] at heq
      rw [heq.1, heq.2]
  · next heq => exact absurd (h.symm.trans heq) (by simp)
  · next heq => exact absurd (h.symm.trans heq) (by simp)

lemma extractLoop_skip (hne : buf ≠ []) {n : ℕ} (h : extractStep buf = .skip n) :
    extractLoop buf = ⟨(extractLoop (buf.drop n)).frames, (extractLoop (buf.drop n)).rest,
      n + (extractLoop (buf.drop n)).dropped⟩ := by
  rw [extractLoop, dif_neg hne]
  split
  · next heq => exact absurd (h.symm.trans heq) (by simp)
  · next heq =>
      rw [h, Extract.skip.injEq] at heq
      rw [heq]
  · next heq => exact absurd (h.symm.trans heq) (by simp)

lemma extractLoop_stop (hne : buf ≠ []) {n : ℕ} (h : extractStep buf = .stop n) :
    extractLoop buf = ⟨[], buf.drop n, n⟩ := by
  rw [extractLoop, dif_neg hne]
  split
  · next heq => exact absurd (h.symm.trans heq) (by simp)
  · next heq => exact absurd (h.symm.trans heq) (by simp)
  · next heq =>
      rw [h, Extract.stop.injEq] at heq
      rw [heq]

/-! ## Every byte is accounted for -/

/-- A round takes no more than the buffer holds, and a frame is the bytes it takes. -/
def Extract.Within (buf : Bytes) : Extract → Prop
  | .take f total => total ≤ buf.length ∧ f.bytes = buf.take total
  | .skip n => n ≤ buf.length
  | .stop n => n ≤ buf.length

lemma nextHeader_lt {i : ℕ} (h : nextHeader buf = some i) : i < buf.length := by
  have hmem := List.min?_mem h
  obtain ⟨m, hm, hfind⟩ := List.mem_filterMap.1 hmem
  have hle := find_le hfind
  have hpos : ∀ m ∈ headers, 0 < m.length := by decide
  have := hpos m hm
  omega

lemma waitOrResync_within (hne : buf ≠ []) (total : Bytes → Option ℕ) :
    (waitOrResync buf total).Within buf := by
  have := List.length_pos_iff.2 hne
  unfold waitOrResync
  split
  · exact this
  · exact Nat.zero_le _

lemma extractFixcomp_within (hne : buf ≠ []) : (extractFixcomp buf).Within buf := by
  have hlen := List.length_pos_iff.2 hne
  unfold extractFixcomp
  split
  · split
    · next h => exact ⟨h, rfl⟩
    · exact Nat.zero_le _
  · exact Nat.zero_le _
  · simp only [Extract.Within]
    cases hn : nextHeader (buf.drop 1) with
    | none =>
        simp only [Option.map_none, Option.getD_none]
        omega
    | some i =>
        have := nextHeader_lt hn
        simp only [List.length_drop] at this
        simp only [Option.map_some, Option.getD_some]
        omega

lemma extractStep_within (hne : buf ≠ []) : (extractStep buf).Within buf := by
  have hlen := List.length_pos_iff.2 hne
  unfold extractStep
  split
  · exact extractFixcomp_within hne
  · split
    · exact Nat.sub_le _ _
    · next e he =>
        split
        · exact (nextHeader_lt he).le
        · split
          · unfold extractBinary
            split
            · next total htotal =>
                have hle := (Option.filter_eq_some_iff.1 htotal).2
                refine ⟨by simpa using hle, ?_⟩
                split <;> rfl
            · exact waitOrResync_within hne _
          · split
            · unfold extractFix
              split
              · next total htotal =>
                  split
                  · have hle := (Option.filter_eq_some_iff.1 htotal).2
                    exact ⟨by simpa using hle, rfl⟩
                  · exact hlen
              · exact waitOrResync_within hne _
            · exact hlen

/-- **The walk accounts for every byte.**  What it was given is the frames it took, what it threw
away and what it left. -/
theorem extractLoop_conserves (buf : Bytes) :
    ((extractLoop buf).frames.flatMap Frame.bytes).length + (extractLoop buf).rest.length
      + (extractLoop buf).dropped = buf.length := by
  induction hn : buf.length using Nat.strong_induction_on generalizing buf with
  | _ n ih =>
      subst hn
      by_cases hne : buf = []
      · rw [hne, extractLoop_nil]
        rfl
      · have hwithin := extractStep_within hne
        have hmoves := extractStep_moves buf
        have hlen := List.length_pos_iff.2 hne
        cases hstep : extractStep buf with
        | take f total =>
            rw [hstep] at hwithin hmoves
            have hpos := hmoves rfl
            have hrec := ih (buf.drop total).length (by
              simp only [List.length_drop, Extract.consumed] at hpos ⊢
              omega) (buf.drop total) rfl
            rw [extractLoop_take hne hstep]
            simp only [Cut.Reading.cons, List.flatMap_cons, List.length_append, hwithin.2,
              List.length_take]
            have := hwithin.1
            simp only [List.length_drop] at hrec
            omega
        | skip n =>
            rw [hstep] at hwithin hmoves
            have hpos := hmoves rfl
            have hrec := ih (buf.drop n).length (by
              simp only [List.length_drop, Extract.consumed] at hpos ⊢
              omega) (buf.drop n) rfl
            rw [extractLoop_skip hne hstep]
            simp only [Extract.Within] at hwithin
            simp only [List.length_drop] at hrec ⊢
            omega
        | stop n =>
            rw [hstep] at hwithin
            rw [extractLoop_stop hne hstep]
            simp only [Extract.Within] at hwithin
            simp only [List.flatMap_nil, List.length_nil, List.length_drop]
            omega

/-! ## Which branch a header takes -/

lemma nextHeader_front {m : Bytes} (hm : m ∈ headers) (h : m <+: buf) :
    nextHeader buf = some 0 := by
  rw [nextHeader, List.min?_eq_some_iff]
  refine ⟨List.mem_filterMap.2 ⟨m, hm, find_front h⟩, ?_⟩
  intro i _
  exact Nat.zero_le i

lemma markers_apart {a b : Bytes} (h : a <+: buf) (hab : ¬ a <+: b) (hba : ¬ b <+: a) :
    ¬ b <+: buf := by
  intro hb
  rcases List.prefix_or_prefix_of_prefix h hb with h' | h'
  · exact hab h'
  · exact hba h'

lemma extractStep_comp (h : fixcompMarker <+: buf) :
    extractStep buf = extractFixcomp buf := if_pos h

lemma extractStep_fix (h : ascii "8=FIX." <+: buf) :
    extractStep buf = extractFix buf := by
  have hcomp : ¬ fixcompMarker <+: buf := markers_apart h (by decide) (by decide)
  have hO : ¬ ascii "8=O\x01" <+: buf := markers_apart h (by decide) (by decide)
  have h1 : ¬ ascii "8=1\x01" <+: buf := markers_apart h (by decide) (by decide)
  have hX : ¬ ascii "8=X\x01" <+: buf := markers_apart h (by decide) (by decide)
  rw [extractStep, if_neg hcomp, nextHeader_front (by decide) h]
  simp only [Nat.lt_irrefl, if_false, hO, h1, hX, or_self, h, if_true]

/-- The begin strings of the length-prefixed frames without a trailer. -/
def plainNames : List Bytes := [ascii "O", ascii "1", ascii "X"]

def plainMarker (name : Bytes) : Bytes := ascii "8=" ++ name ++ [soh]

lemma extractStep_plain {name : Bytes} (hname : name ∈ plainNames)
    (h : plainMarker name <+: buf) : extractStep buf = extractBinary buf := by
  have hsep : ∀ n ∈ plainNames, ¬ plainMarker n <+: fixcompMarker ∧
      ¬ fixcompMarker <+: plainMarker n ∧ plainMarker n ∈ headers ∧
      (plainMarker n = ascii "8=O\x01" ∨ plainMarker n = ascii "8=1\x01" ∨
        plainMarker n = ascii "8=X\x01") := by decide
  obtain ⟨h₁, h₂, hmem, hone⟩ := hsep name hname
  rw [extractStep, if_neg (markers_apart h h₁ h₂), nextHeader_front hmem h]
  simp only [Nat.lt_irrefl, if_false]
  rw [if_pos]
  rcases hone with heq | heq | heq
  · exact Or.inl (heq ▸ h)
  · exact Or.inr (Or.inl (heq ▸ h))
  · exact Or.inr (Or.inr (heq ▸ h))

lemma extractStep_front {m q : Bytes} (hm : m ∈ headers) (hq : q <+: m) (hne : q ≠ m) :
    extractStep q = .stop 0 := by
  have key : ∀ m ∈ headers, ∀ q ∈ m.inits, q ≠ m → extractStep q = .stop 0 := by decide
  exact key m hm q ((List.mem_inits q m).2 hq) hne

/-! ## The frames a sender writes -/

/-- The well-formed frames, each under its kind.  `fits` is what is asked of a body whose length a
builder states as a `u32`. -/
inductive WellFormed (hmac : Hmac) (deflate : Bytes → Bytes) (fits : ℕ → Prop) : Frame → Prop
  | fix (fields : List (UInt32 × String)) (seq : UInt32) (h : fits (fixBody fields seq).length) :
      WellFormed hmac deflate fits (.fix (fixBuild fields seq))
  | fixSigned (fields : List (UInt32 × String)) (seq : UInt32) (key iv d iv' : Bytes)
      (h : fits ((fixBody fields seq).length + sigFieldLen))
      (hsign : fixSign hmac (fixBuild fields seq) key iv = some (d, iv')) :
      WellFormed hmac deflate fits (.fix d)
  | comp (innerMsg : Bytes) :
      WellFormed hmac deflate fits (.fixComp (fixcompBuild deflate innerMsg))
  | compSigned (innerMsg key iv d iv' : Bytes)
      (h : fits ((fixcompBody (deflate innerMsg)).length + sigFieldLen))
      (hsign : fixSign hmac (fixcompBuild deflate innerMsg) key iv = some (d, iv')) :
      WellFormed hmac deflate fits (.fixComp d)
  | binary (len payload : Bytes) (h : parse usizeBound len = some payload.length) :
      WellFormed hmac deflate fits (.binary (header (ascii "O") len ++ payload))
  | control (name : Bytes) (hname : name = ascii "1" ∨ name = ascii "X") (len payload : Bytes)
      (h : parse usizeBound len = some payload.length) :
      WellFormed hmac deflate fits (.control (header name len ++ payload))

/-- A frame is a `Vec<u8>`, which holds no more than `isize::MAX` bytes. -/
def Held (f : Frame) : Prop := f.bytes.length < 2 ^ 63

/-- What the length readers need of a frame: the bytes behind the header are as many as the header
states, and a FIX frame's checksum stands where that puts it. -/
inductive Shaped : Frame → Prop
  | fix (len body close : Bytes) (hlen : soh ∉ len) (hparse : parse usizeBound len = some body.length)
      (hbody : body = [] ∨ Ended body)
      (hclose : close.length = 7 ∧ ascii "10=" <+: close ∧ Ended close) :
      Shaped (.fix (header (ascii "FIX.4.1") len ++ (body ++ close)))
  | comp (len body : Bytes) (hlen : soh ∉ len) (hparse : parse usizeBound len = some body.length)
      (hscan : len.length ≤ 20) :
      Shaped (.fixComp (header (ascii "FIXCOMP") len ++ body))
  | plain (name : Bytes) (hname : name ∈ plainNames) (len body : Bytes) (hlen : soh ∉ len)
      (hparse : parse usizeBound len = some body.length) :
      Shaped (if name = ascii "O" then .binary (header name len ++ body)
        else .control (header name len ++ body))

/-- A whole frame, whatever version its header names and however its length is padded. -/
inductive Framed : Frame → Prop
  | fix (version len body close : Bytes) (hversion : soh ∉ version) (hlen : soh ∉ len)
      (hparse : parse usizeBound len = some body.length) (hbody : body = [] ∨ Ended body)
      (hclose : close.length = 7 ∧ ascii "10=" <+: close ∧ Ended close) :
      Framed (.fix (header (ascii "FIX." ++ version) len ++ (body ++ close)))
  | comp (len body : Bytes) (hlen : soh ∉ len) (hparse : parse usizeBound len = some body.length) :
      Framed (.fixComp (header (ascii "FIXCOMP") len ++ body))
  | plain (name : Bytes) (hname : name ∈ plainNames) (len body : Bytes) (hlen : soh ∉ len)
      (hparse : parse usizeBound len = some body.length) :
      Framed (if name = ascii "O" then .binary (header name len ++ body)
        else .control (header name len ++ body))

lemma Shaped.framed (hf : Shaped f) : Framed f := by
  cases hf with
  | fix len body close hlen hparse hbody hclose =>
      exact .fix (ascii "4.1") len body close (by decide) hlen hparse hbody hclose
  | comp len body hlen hparse hscan => exact .comp len body hlen hparse
  | plain name hname len body hlen hparse => exact .plain name hname len body hlen hparse

lemma trailer_shape (m : Bytes) :
    (trailer m).length = 7 ∧ ascii "10=" <+: trailer m ∧ Ended (trailer m) := by
  refine ⟨length_trailer m, ?_, ⟨_, rfl⟩⟩
  rw [trailer, List.append_assoc]
  exact List.prefix_append _ _

lemma length_fixBody_lt {b : ℕ} (h : b < u32Bound) : b < usizeBound := by
  have : u32Bound < usizeBound := by decide
  omega

lemma parse_signedLen {body : Bytes} (h : body.length + sigFieldLen < u32Bound) :
    parse usizeBound (signedLen body) = some (body.length + sigFieldLen) := by
  rw [signedLen, Nat.mod_eq_of_lt h, parse_text (length_fixBody_lt h)]

lemma Framing.signed_shape (hmac : Hmac) (k : Framing) {len body key iv d iv' : Bytes}
    (hlen : soh ∉ len) (hbody : Ended body)
    (hsign : fixSign hmac (k.frame len body) key iv = some (d, iv')) :
    ∃ b m, Ended b ∧ b.length = body.length + sigFieldLen ∧
      d = header k.name (signedLen body) ++ (b ++ k.closing m) := by
  obtain ⟨s, hs, hd, -⟩ := k.fixSign_frame hmac hlen hbody hsign
  obtain ⟨b, hb, heq⟩ := k.distort_signed hbody (hmac key (iv ++ body)) iv
    (k.findAfter_mark hbody _ hs).1 (List.range 8)
  refine ⟨b ++ [soh] ++ sigField (hmac key (iv ++ body)),
    header k.name (signedLen body) ++ (body ++ sigField (hmac key (iv ++ body))),
    (ended_sigField _).append _, ?_, ?_⟩
  · rw [List.length_append, hb, length_sigField]
  · rw [hd, heq]
    simp only [List.append_assoc]

lemma fields_ne_nil_of_fixSign {hmac : Hmac} {fields : List (UInt32 × String)} {seq : UInt32}
    {key iv d iv' : Bytes} (hsign : fixSign hmac (fixBuild fields seq) key iv = some (d, iv')) :
    fields ≠ [] := by
  rintro rfl
  rw [fixBuild_eq] at hsign
  have hend : Ended (header Framing.fix.name (padded 4 ((fixBody [] seq).length % u32Bound))
      ++ fixBody [] seq) := by
    rw [fixBody, List.append_nil]
    exact ended_header _ _
  have hplain := Framing.fix.fixSignPlain_frame hmac (not_mem_padded (by decide) 4 _) hend key iv
  have hnone := Framing.fix.find_thirtyfive
    (not_mem_signedLen (show isDigit eqSign = false by decide) [])
    (sigField (hmac key (iv ++ [])) ++ trailer (header Framing.fix.name (signedLen [])
      ++ sigField (hmac key (iv ++ []))))
  rw [find_thirtyfive_tail, Option.map_none] at hnone
  have hmark : distortedBehind (Framing.fix.frame
      (padded 4 ((fixBody [] seq).length % u32Bound)) (fixBody [] seq)) = ascii "35=" := by
    rw [Framing.frame, List.append_assoc, Framing.distortedBehind_header]
    rfl
  simp only [fixSign, hplain, Option.bind_eq_bind, Option.bind_some, hmark] at hsign
  rw [fixBody, Framing.signed, Framing.frame, List.nil_append, List.append_assoc,
    Framing.closing, findAfterTagBytes, hnone] at hsign
  exact absurd hsign (by simp)

lemma WellFormed.shaped {hmac : Hmac} {deflate : Bytes → Bytes}
    (hf : WellFormed hmac deflate (· < u32Bound) f) (hheld : Held f) : Shaped f := by
  cases hf with
  | fix fields seq h =>
      rw [fixBuild_eq, Framing.frame, List.append_assoc]
      refine .fix _ _ _ (not_mem_padded (by decide) 4 _) ?_ ?_ (trailer_shape _)
      · rw [Nat.mod_eq_of_lt h, parse_padded (by decide) (length_fixBody_lt h)]
      · by_cases hne : fields = []
        · exact Or.inl (by rw [hne]; rfl)
        · exact Or.inr (ended_fixBody hne seq)
  | fixSigned fields seq key iv d iv' h hsign =>
      have hbody := ended_fixBody (fields_ne_nil_of_fixSign hsign) seq
      rw [fixBuild_eq] at hsign
      obtain ⟨b, m, hb, hblen, rfl⟩ := Framing.fix.signed_shape hmac
        (not_mem_padded (by decide) 4 _) hbody hsign
      exact .fix _ _ _ (not_mem_signedLen (by decide) _) (by rw [hblen, parse_signedLen h])
        (Or.inr hb) (trailer_shape m)
  | comp innerMsg =>
      have hlt : (fixcompBody (deflate innerMsg)).length < 10 ^ 19 := by
        simp only [Held, Frame.bytes, fixcompBuild, List.length_append] at hheld
        omega
      refine .comp _ _ (not_mem_text (by decide) _) (parse_text ?_)
        (length_text_le (by decide) (hlt.trans (by decide)))
      exact hlt.trans (by decide)
  | compSigned innerMsg key iv d iv' h hsign =>
      rw [fixcompBuild_eq] at hsign
      obtain ⟨b, m, hb, hblen, rfl⟩ := Framing.comp.signed_shape hmac
        (not_mem_text (by decide) _) (ended_fixcompBody _) hsign
      have hscan : (signedLen (fixcompBody (deflate innerMsg))).length ≤ 20 := by
        rw [signedLen, Nat.mod_eq_of_lt h]
        exact length_text_le (by decide) (h.trans (by decide))
      rw [Framing.closing, List.append_nil]
      exact .comp _ _ (not_mem_signedLen (by decide) _) (by rw [hblen, parse_signedLen h]) hscan
  | binary len payload h =>
      exact .plain (ascii "O") (by decide) len payload
        (not_mem_of_parse h (by decide) (by decide)) h
  | control name hname len payload h =>
      have hsoh := not_mem_of_parse h (b := soh) (by decide) (by decide)
      have hmem : name ∈ plainNames := by
        rcases hname with rfl | rfl <;> decide
      have hO : name ≠ ascii "O" := by
        rcases hname with rfl | rfl <;> decide
      have := Shaped.plain name hmem len payload hsoh h
      rwa [if_neg hO] at this

/-! ## A whole frame at the front -/

lemma header_prefix_marker (name len r : Bytes) : plainMarker name <+: header name len ++ r := by
  rw [header, plainMarker, List.append_assoc, List.append_assoc, List.append_assoc]
  simp

lemma marker_version (version len r : Bytes) :
    ascii "8=FIX." <+: header (ascii "FIX." ++ version) len ++ r := by
  have hmark : ascii "8=FIX." = ascii "8=" ++ ascii "FIX." := by decide
  rw [hmark, header]
  simp only [List.append_assoc]
  exact (List.prefix_append_right_inj _).2 (List.prefix_append _ _)

lemma marker_fix (len r : Bytes) : ascii "8=FIX." <+: header (ascii "FIX.4.1") len ++ r :=
  marker_version (ascii "4.1") len r

lemma marker_comp (len r : Bytes) : fixcompMarker <+: header (ascii "FIXCOMP") len ++ r :=
  (show fixcompMarker <+: plainMarker (ascii "FIXCOMP") by decide).trans
    (header_prefix_marker _ len r)

lemma trailer_found {hdr body close tail : Bytes} (hend : Ended (hdr ++ body))
    (hclose : close.length = 7 ∧ ascii "10=" <+: close ∧ Ended close) :
    trailerIsWhereTheLengthSays (hdr ++ (body ++ close) ++ tail)
      (hdr ++ (body ++ close)).length = true := by
  obtain ⟨b, hb⟩ := hend
  obtain ⟨hlen, ⟨c, rfl⟩, ⟨d, hd⟩⟩ := hclose
  have hten : (ascii "10=").length = 3 := by decide
  rw [List.length_append, hten] at hlen
  have hblen := congrArg List.length hb
  simp only [List.length_append, List.length_singleton] at hblen
  have htotal : (hdr ++ (body ++ (ascii "10=" ++ c))).length = b.length + 8 := by
    simp only [List.length_append, hten]
    omega
  have hshape : hdr ++ (body ++ (ascii "10=" ++ c)) ++ tail
      = b ++ soh :: (ascii "10=" ++ (c ++ tail)) := by
    rw [← List.append_assoc hdr, hb]
    simp
  have hlast : (hdr ++ (body ++ (ascii "10=" ++ c)) ++ tail)[b.length + 7]? = some soh := by
    have hwhole : hdr ++ (body ++ (ascii "10=" ++ c)) = (b ++ [soh] ++ d) ++ [soh] := by
      rw [← List.append_assoc, hb, hd, List.append_assoc _ d]
    have hdlen := congrArg List.length hd
    simp only [List.length_append, hten, List.length_singleton] at hdlen
    rw [hwhole, List.append_assoc, List.getElem?_append_right (by simp; omega)]
    have hzero : b.length + 7 - (b ++ [soh] ++ d).length = 0 := by
      simp only [List.length_append, List.length_singleton]
      omega
    rw [hzero]
    rfl
  have hfirst : (b ++ soh :: (ascii "10=" ++ (c ++ tail)))[b.length]? = some soh := by
    rw [List.getElem?_append_right (Nat.le_refl _), Nat.sub_self]
    rfl
  have hmid : ((b ++ soh :: (ascii "10=" ++ (c ++ tail))).drop (b.length + 1)).take 3
      = ascii "10=" := by
    rw [List.append_cons, List.drop_left' (by simp), List.take_left' hten]
  rw [trailerIsWhereTheLengthSays, htotal, decide_eq_true_eq]
  refine ⟨?_, by omega, ?_, ?_, ?_⟩
  · simp only [List.length_append, hten]
    omega
  · rw [hshape]
    exact hfirst
  · rw [hshape]
    exact hmid
  · exact hlast

lemma soh_not_mem_version {version : Bytes} (hversion : soh ∉ version) :
    soh ∉ ascii "FIX." ++ version := by
  rw [List.mem_append, not_or]
  exact ⟨by decide, hversion⟩

lemma fixMsgLength_frame {version len body close : Bytes} (hversion : soh ∉ version)
    (hlen : soh ∉ len) (hparse : parse usizeBound len = some body.length)
    (hclose : close.length = 7)
    (hheld : (header (ascii "FIX." ++ version) len ++ (body ++ close)).length < 2 ^ 63)
    (tail : Bytes) :
    fixMsgLength (header (ascii "FIX." ++ version) len ++ (body ++ close) ++ tail)
      = some (header (ascii "FIX." ++ version) len ++ (body ++ close)).length := by
  have hbound : 2 ^ 63 < usizeBound := by decide
  simp only [List.length_append, length_header, hclose] at hheld
  have htotal := fixMsgLength_header (soh_not_mem_version hversion) hlen hparse
    (by simp only [List.length_append]; omega) (body ++ close ++ tail)
  rw [← List.append_assoc] at htotal
  rw [htotal, Option.some.injEq]
  simp only [List.length_append, length_header, hclose]
  omega

lemma binaryMsgLength_frame {name len body : Bytes} (hname : soh ∉ name) (hlen : soh ∉ len)
    (hparse : parse usizeBound len = some body.length)
    (hheld : (header name len ++ body).length < 2 ^ 63) (tail : Bytes) :
    binaryMsgLength (header name len ++ body ++ tail) = some (header name len ++ body).length := by
  have hbound : 2 ^ 63 < usizeBound := by decide
  simp only [List.length_append, length_header] at hheld
  have htotal := binaryMsgLength_header hname hlen hparse (by omega) (body ++ tail)
  rw [← List.append_assoc] at htotal
  rw [htotal, Option.some.injEq]
  simp only [List.length_append, length_header]

lemma ended_header_append {name len body : Bytes} (hbody : body = [] ∨ Ended body) :
    Ended (header name len ++ body) := by
  rcases hbody with rfl | hbody
  · rw [List.append_nil]
    exact ended_header _ _
  · exact hbody.append _

lemma Framed.extractStep_append (hf : Framed f) (hheld : Held f) (tail : Bytes) :
    extractStep (f.bytes ++ tail) = .take f f.bytes.length := by
  have hbound : 2 ^ 63 < usizeBound := by decide
  cases hf with
  | fix version len body close hversion hlen hparse hbody hclose =>
      have htotal := fixMsgLength_frame hversion hlen hparse hclose.1 hheld tail
      simp only [Frame.bytes]
      rw [extractStep_fix (by rw [List.append_assoc]; exact marker_version _ _ _), extractFix, htotal,
        Option.filter_some, if_pos (by simp)]
      simp only [trailer_found (ended_header_append hbody) hclose, if_true, List.take_left]
  | comp len body hlen hparse =>
      simp only [Held, Frame.bytes, List.length_append, length_header] at hheld
      have hten : (ascii "FIXCOMP").length = 7 := by decide
      have htotal := fixcompFrameLength_header (show soh ∉ ascii "FIXCOMP" by decide) hlen
        hparse
        (by omega) (by omega) (body ++ tail)
      rw [if_neg (by simp only [List.length_append, length_header]; omega),
        ← List.append_assoc] at htotal
      have hlength : (ascii "FIXCOMP").length + len.length + 6 + body.length
          = (header (ascii "FIXCOMP") len ++ body).length := by
        simp only [List.length_append, length_header]
      rw [hlength] at htotal
      simp only [Frame.bytes]
      rw [extractStep_comp (by rw [List.append_assoc]; exact marker_comp _ _), extractFixcomp,
        htotal]
      simp only [List.take_left]
      rw [if_pos (by simp)]
  | plain name hname len body hlen hparse =>
      have hnames : ∀ n ∈ plainNames, soh ∉ n ∧ (ascii "8=O\x01" <+: plainMarker n ↔ n = ascii "O")
          ∧ (ascii "8=O\x01").length = (plainMarker n).length := by decide
      obtain ⟨hsoh, hbin, hsame⟩ := hnames name hname
      have hbytes : (if name = ascii "O" then Frame.binary (header name len ++ body)
          else Frame.control (header name len ++ body)).bytes = header name len ++ body := by
        split <;> rfl
      rw [Held, hbytes] at hheld
      have htotal := binaryMsgLength_frame hsoh hlen hparse hheld tail
      have hmark : plainMarker name <+: header name len ++ body ++ tail := by
        rw [List.append_assoc]
        exact header_prefix_marker _ _ _
      have hkind : ascii "8=O\x01" <+: header name len ++ body ++ tail ↔ name = ascii "O" := by
        rw [← hbin]
        constructor
        · intro h
          exact List.prefix_of_prefix_length_le h hmark hsame.le
        · exact fun h => h.trans hmark
      rw [hbytes, extractStep_plain hname hmark, extractBinary, htotal, Option.filter_some,
        if_pos (by simp)]
      simp only [List.take_left, hkind]

lemma Framed.bytes_ne_nil (hf : Framed f) : f.bytes ≠ [] := by
  cases hf with
  | fix version len body close hversion hlen hparse hbody hclose =>
      exact List.ne_nil_of_length_pos (by simp [Frame.bytes])
  | comp len body hlen hparse => exact List.ne_nil_of_length_pos (by simp [Frame.bytes])
  | plain name hname len body hlen hparse =>
      split <;> exact List.ne_nil_of_length_pos (by simp [Frame.bytes])

lemma Framed.extractLoop_append (hf : Framed f) (hheld : Held f) (tail : Bytes) :
    extractLoop (f.bytes ++ tail) = (extractLoop tail).cons f := by
  have hne : f.bytes ++ tail ≠ [] := fun h => hf.bytes_ne_nil (List.append_eq_nil_iff.1 h).1
  rw [extractLoop_take hne (hf.extractStep_append hheld tail), List.drop_left]

/-! ## The front of a frame -/

lemma prefix_append_cases {a b q : Bytes} (h : q <+: a ++ b) :
    (q <+: a ∧ q ≠ a) ∨ ∃ r, q = a ++ r ∧ r <+: b := by
  rcases List.prefix_or_prefix_of_prefix h (List.prefix_append a b) with hq | ⟨r, rfl⟩
  · by_cases hqa : q = a
    · exact Or.inr ⟨[], by simp [hqa], List.nil_prefix⟩
    · exact Or.inl ⟨hq, hqa⟩
  · exact Or.inr ⟨r, rfl, (List.prefix_append_right_inj a).1 h⟩

lemma marker_cases {m q b : Bytes} (hq : q <+: b) (hm : m <+: b) : (q <+: m ∧ q ≠ m) ∨ m <+: q := by
  rcases List.prefix_or_prefix_of_prefix hq hm with h | h
  · by_cases heq : q = m
    · exact Or.inr (heq ▸ List.prefix_refl _)
    · exact Or.inl ⟨h, heq⟩
  · exact Or.inr h

lemma length_lt_of_front {q b : Bytes} (hq : q <+: b) (hne : q ≠ b) : q.length < b.length :=
  lt_of_le_of_ne hq.length_le fun h => hne (hq.eq_of_length h)

lemma Shaped.extractStep_part (hf : Shaped f) (hheld : Held f) {q : Bytes}
    (hq : q <+: f.bytes) (hne : q ≠ f.bytes) : extractStep q = .stop 0 := by
  have hbound : 2 ^ 63 < usizeBound := by decide
  have hshort := length_lt_of_front hq hne
  cases hf with
  | fix len body close hlen hparse hbody hclose =>
      simp only [Frame.bytes] at hq hne hshort
      simp only [Held, Frame.bytes, List.length_append, length_header, hclose.1] at hheld hshort
      rcases marker_cases hq (marker_fix len _) with ⟨h, h'⟩ | hmark
      · exact extractStep_front (by decide) h h'
      · rw [extractStep_fix hmark, extractFix]
        rcases prefix_append_cases hq with ⟨h, h'⟩ | ⟨r, rfl, hr⟩
        · have hnone : fixMsgLength q = none := by
            rw [fixMsgLength, statedBodyLength_part hlen (by decide) h h']
            rfl
          rw [hnone, Option.filter_none]
          exact waitOrResync_part (by decide) hlen _ h h'
        · have htotal := fixMsgLength_header (show soh ∉ ascii "FIX.4.1" by decide) hlen hparse
            (by omega) r
          simp only [List.length_append, length_header] at hshort
          rw [htotal, Option.filter_some,
            if_neg (by simp only [List.length_append, length_header, decide_eq_true_eq]; omega)]
          exact waitOrResync_header (by decide) (by rw [htotal]; rfl)
  | comp len body hlen hparse hscan =>
      simp only [Frame.bytes] at hq hne hshort
      simp only [Held, Frame.bytes, List.length_append, length_header] at hheld hshort
      have hten : (ascii "FIXCOMP").length = 7 := by decide
      rcases marker_cases hq (marker_comp len _) with ⟨h, h'⟩ | hmark
      · exact extractStep_front (by decide) h h'
      · rw [extractStep_comp hmark, extractFixcomp]
        rcases prefix_append_cases hq with ⟨h, h'⟩ | ⟨r, rfl, hr⟩
        · rw [fixcompFrameLength_part (by decide) hlen h h' (by rw [maxHeaderScan]; omega)]
        · simp only [List.length_append, length_header] at hshort
          rw [fixcompFrameLength_header (by decide) hlen hparse (by omega) (by omega),
            if_pos (by simp only [List.length_append, length_header]; omega)]
  | plain name hname len body hlen hparse =>
      have hnames : ∀ n ∈ plainNames, soh ∉ n ∧ plainMarker n ∈ headers := by decide
      obtain ⟨hsoh, hmem⟩ := hnames name hname
      have hbytes : (if name = ascii "O" then Frame.binary (header name len ++ body)
          else Frame.control (header name len ++ body)).bytes = header name len ++ body := by
        split <;> rfl
      rw [hbytes] at hq hne hshort
      rw [Held, hbytes] at hheld
      simp only [List.length_append, length_header] at hheld hshort
      rcases marker_cases hq (header_prefix_marker name len _) with ⟨h, h'⟩ | hmark
      · exact extractStep_front hmem h h'
      · rw [extractStep_plain hname hmark, extractBinary]
        rcases prefix_append_cases hq with ⟨h, h'⟩ | ⟨r, rfl, hr⟩
        · have hnone : binaryMsgLength q = none := by
            rw [binaryMsgLength, statedBodyLength_part hlen hsoh h h']
            rfl
          rw [hnone, Option.filter_none]
          exact waitOrResync_part hsoh hlen _ h h'
        · have htotal := binaryMsgLength_header hsoh hlen hparse (by omega) r
          simp only [List.length_append, length_header] at hshort
          rw [htotal, Option.filter_some,
            if_neg (by simp only [List.length_append, length_header, decide_eq_true_eq]; omega)]
          exact waitOrResync_header hsoh (by rw [htotal]; rfl)

lemma Shaped.extractLoop_part (hf : Shaped f) (hheld : Held f) {q : Bytes}
    (hq : q <+: f.bytes) (hne : q ≠ f.bytes) : extractLoop q = ⟨[], q, 0⟩ := by
  by_cases hnil : q = []
  · rw [hnil, extractLoop_nil]
  · rw [extractLoop_stop hnil (hf.extractStep_part hheld hq hne), List.drop_zero]

lemma reads_shaped :
    Cut.Reads Frame.bytes (fun f => Shaped f ∧ Held f) extractLoop where
  ne := fun _ hf => hf.1.framed.bytes_ne_nil
  nil := extractLoop_nil
  whole := fun _ tail hf => hf.1.framed.extractLoop_append hf.2 tail
  part := fun _ _ hf hq hne => hf.1.extractLoop_part hf.2 hq hne

/-! ## Any cut of any run of frames -/

lemma extractFrames_fst (c : Connection) : c.extractFrames.1 = (extractLoop c.buf).frames := by
  by_cases h : (extractLoop c.buf).frames = []
  · rw [Connection.extractFrames, if_pos h]
  · rw [Connection.extractFrames, if_neg h]

lemma extractFrames_eq {c : Connection} (hun : c.unreadable = 0)
    (hdrop : (extractLoop c.buf).dropped = 0) :
    c.extractFrames = ((extractLoop c.buf).frames, { c with buf := (extractLoop c.buf).rest }) := by
  simp only [Connection.extractFrames]
  split
  · have hmin : min (c.unreadable + (extractLoop c.buf).dropped) (2 ^ 64 - 1) = 0 := by omega
    simp only [hmin, Nat.not_lt_zero, decide_false, Bool.or_false]
    rw [← hun]
  · rw [← hun]

lemma receive_eq_readings : ∀ (chunks : List Bytes) (c : Connection), c.unreadable = 0 →
    (∀ r ∈ Cut.readings extractLoop c.buf chunks, r.dropped = 0) →
    (c.receive chunks).flatMap Prod.fst
        = (Cut.readings extractLoop c.buf chunks).flatMap Cut.Reading.frames ∧
      (c.received chunks).buf = Cut.leftOver extractLoop c.buf chunks ∧
      ∀ call ∈ c.receive chunks, call.2.unreadable = 0 ∧ call.2.readFailed = c.readFailed
  | [], c, _, _ => ⟨rfl, rfl, by simp [Connection.receive]⟩
  | chunk :: chunks, c, hun, hdrop => by
      have hfirst : (extractLoop (c.buf ++ chunk)).dropped = 0 := hdrop _ List.mem_cons_self
      have hcall : (c.injectBuf chunk).extractFrames
          = ((extractLoop (c.buf ++ chunk)).frames,
              { c with buf := (extractLoop (c.buf ++ chunk)).rest }) :=
        extractFrames_eq hun hfirst
      obtain ⟨hframes, hbuf, hstates⟩ := receive_eq_readings chunks
        { c with buf := (extractLoop (c.buf ++ chunk)).rest } hun
        fun r hr => hdrop r (List.mem_cons_of_mem _ hr)
      simp only [Connection.receive, Connection.received, Cut.readings, Cut.leftOver, hcall,
        List.flatMap_cons, hframes, hbuf, true_and, List.forall_mem_cons]
      exact ⟨⟨hun, trivial⟩, hstates⟩

/-- **Framing does not depend on the cuts.**  Well-formed frames laid end to end, cut anywhere and
received chunk by chunk, are extracted in order, each under its kind; the buffer is empty at the
end, no call throws a byte away, and the connection is never given up. -/
theorem frames_independent_of_cuts (hmac : Hmac) (deflate : Bytes → Bytes) (c : Connection)
    (hbuf : c.buf = []) (hun : c.unreadable = 0) (hread : c.readFailed = false)
    (fs : List Frame) (hfs : ∀ f ∈ fs, WellFormed hmac deflate (· < u32Bound) f ∧ Held f)
    (chunks : List Bytes) (hcut : chunks.flatten = fs.flatMap Frame.bytes) :
    (c.receive chunks).flatMap Prod.fst = fs ∧ (c.received chunks).buf = [] ∧
      (∀ r ∈ Cut.readings extractLoop c.buf chunks, r.dropped = 0) ∧
      ∀ call ∈ c.receive chunks, call.2.unreadable = 0 ∧ call.2.readFailed = false := by
  have hshaped : ∀ f ∈ fs, Shaped f ∧ Held f := fun f hf =>
    ⟨(hfs f hf).1.shaped (hfs f hf).2, (hfs f hf).2⟩
  obtain ⟨hframes, hleft, hdrop⟩ := reads_shaped.readings_stream fs hshaped chunks hcut
  obtain ⟨hcalls, hrest, hstates⟩ := receive_eq_readings chunks c hun (by rwa [hbuf])
  rw [hread] at hstates
  rw [hbuf] at hcalls hrest ⊢
  exact ⟨hcalls.trans hframes, hrest.trans hleft, hdrop, hstates⟩

/-- Three frames of three kinds, the second spelling another header in its payload, cut inside the
first header and inside that payload. -/
theorem frames_independent_of_cuts_three :
    (({} : Connection).receive [ascii "8=FI",
        ascii "X.4.1\x019=0015\x0135=0\x0134=000007\x0110=253\x018=O\x019=6\x018=F",
        ascii "IX.8=X\x019=0\x01"]).flatMap Prod.fst
      = [.fix (fixBuild [(35, "0")] 7), .binary (header (ascii "O") (ascii "6") ++ ascii "8=FIX."),
        .control (header (ascii "X") (ascii "0") ++ [])] := by
  refine (frames_independent_of_cuts (fun _ _ _ => 0) id {} rfl rfl rfl _ ?_ _ (by decide)).1
  intro f hf
  simp only [List.mem_cons, List.not_mem_nil, or_false] at hf
  rcases hf with rfl | rfl | rfl
  · exact ⟨.fix _ _ (by decide), by unfold Held; decide⟩
  · exact ⟨.binary _ _ (by decide), by unfold Held; decide⟩
  · exact ⟨.control _ (Or.inr rfl) _ _ (by decide), by unfold Held; decide⟩

/-! ## A body longer than its stated length -/

def longFields (n : ℕ) : List (UInt32 × String) := [(35, String.ofList (List.replicate n 'A'))]

lemma fixBody_longFields (n : ℕ) :
    fixBody (longFields n) 1
      = ascii "35=" ++ List.replicate n 65 ++ ascii "\x0134=000001\x01" := by
  have hval : pushValue (String.ofList (List.replicate n 'A')) = List.replicate n 65 := by
    simp only [pushValue, String.toList_ofList, List.map_replicate]
    rfl
  have htag : text (35 : UInt32).toNat ++ [eqSign] = ascii "35=" := by decide
  have hseq : soh :: seqField 1 = ascii "\x0134=000001\x01" := by decide
  simp only [longFields, fixBody, field, hval, List.flatMap_nil, List.append_nil]
  rw [← hseq, ← htag]
  simp

lemma length_fixBody_longFields (n : ℕ) : (fixBody (longFields n) 1).length = n + 14 := by
  have hlit : (ascii "35=").length = 3 ∧ (ascii "\x0134=000001\x01").length = 11 := by decide
  simp only [fixBody_longFields, List.length_append, List.length_replicate, hlit.1, hlit.2]
  omega

lemma length_longFields : (fixBuild (longFields (2 ^ 32)) 1).length = 2 ^ 32 + 38 := by
  have hlen : (padded 4 (14 % u32Bound)).length = 4 := by decide
  have hname : (ascii "FIX.4.1").length = 7 := by decide
  have hmod : (2 ^ 32 + 14) % u32Bound = 14 % u32Bound := by decide
  simp only [fixBuild, length_fixBody_longFields, hmod, List.length_append, length_header, hlen,
    hname, length_trailer, fix41TrailerLen]
  omega

lemma longFields_shape : fixBuild (longFields (2 ^ 32)) 1 = header (ascii "FIX.4.1") (ascii "0014")
    ++ (fixBody (longFields (2 ^ 32)) 1
      ++ trailer (header (ascii "FIX.4.1") (ascii "0014") ++ fixBody (longFields (2 ^ 32)) 1)) := by
  have hlen : (padded 4 (14 % u32Bound)) = ascii "0014" := by decide
  have hmod : (2 ^ 32 + 14) % u32Bound = 14 % u32Bound := by decide
  simp only [fixBuild, length_fixBody_longFields, hmod, hlen, List.append_assoc]

lemma marker_longFields : ascii "8=FIX." <+: fixBuild (longFields (2 ^ 32)) 1 := by
  rw [longFields_shape]
  exact marker_fix _ _

lemma fixMsgLength_longFields : fixMsgLength (fixBuild (longFields (2 ^ 32)) 1) = some 38 := by
  have htotal := fixMsgLength_header (show soh ∉ ascii "FIX.4.1" by decide)
    (show soh ∉ ascii "0014" by decide) (n := 14) (by decide) (by decide)
    (fixBody (longFields (2 ^ 32)) 1
      ++ trailer (header (ascii "FIX.4.1") (ascii "0014") ++ fixBody (longFields (2 ^ 32)) 1))
  have h38 : (ascii "FIX.4.1").length + (ascii "0014").length + 6 + 14 + 7 = 38 := by decide
  rw [← longFields_shape, h38] at htotal
  exact htotal

lemma trailer_longFields :
    trailerIsWhereTheLengthSays (fixBuild (longFields (2 ^ 32)) 1) 38 = false := by
  have hbyte : (fixBuild (longFields (2 ^ 32)) 1)[30]? = some 65 := by
    have hhdr : (header (ascii "FIX.4.1") (ascii "0014")).length = 17 := by decide
    have hlit : (ascii "35=").length = 3 := by decide
    have hbig : 10 < 2 ^ 32 := by decide
    rw [longFields_shape, List.getElem?_append_right (by rw [hhdr]; decide), hhdr,
      fixBody_longFields, List.append_assoc, List.append_assoc,
      List.getElem?_append_right (by rw [hlit]; decide), hlit,
      List.getElem?_append_left (by rw [List.length_replicate]; exact hbig),
      List.getElem?_replicate, if_pos hbig]
  rw [trailerIsWhereTheLengthSays, decide_eq_false_iff_not]
  rintro ⟨-, -, hsoh, -⟩
  rw [hbyte] at hsoh
  exact absurd hsoh (by decide)

lemma extractStep_longFields : extractStep (fixBuild (longFields (2 ^ 32)) 1) = .skip 1 := by
  rw [extractStep_fix marker_longFields, extractFix, fixMsgLength_longFields, Option.filter_some,
    if_pos (by rw [length_longFields]; decide)]
  simp only [trailer_longFields, Bool.false_eq_true, if_false]

/-- **A longer body is lost.**  The length is stated as a `u32`: a message whose body reaches
`2 ^ 32` bytes states what is left over, and its own header is resynchronised past. -/
theorem not_frames_independent_of_cuts :
    ¬ ∀ (fs : List Frame) (chunks : List Bytes),
      (∀ f ∈ fs, WellFormed (fun _ _ _ => 0) id (fun _ => True) f ∧ Held f) →
      chunks.flatten = fs.flatMap Frame.bytes →
      (({} : Connection).receive chunks).flatMap Prod.fst = fs := by
  intro h
  have hlost := extractStep_longFields
  set bytes := fixBuild (longFields (2 ^ 32)) 1 with hbytes
  have hheld : Held (.fix bytes) := by
    rw [Held, Frame.bytes, hbytes, length_longFields]
    decide
  have hne : bytes ≠ [] := by
    refine List.ne_nil_of_length_pos ?_
    rw [hbytes, length_longFields]
    decide
  have hread := h [.fix bytes] [bytes] (by
    intro f hf
    rw [List.mem_singleton.1 hf]
    exact ⟨.fix _ _ trivial, hheld⟩) (by simp [Frame.bytes])
  have hframes : (extractLoop bytes).frames = [.fix bytes] := by
    rw [← hread]
    simp only [Connection.receive, Connection.injectBuf, extractFrames_fst, List.nil_append,
      List.flatMap_cons, List.flatMap_nil, List.append_nil]
  have hall := extractLoop_conserves bytes
  have hdropped : (extractLoop bytes).dropped ≠ 0 := by
    rw [extractLoop_skip hne hlost]
    simp only
    omega
  rw [hframes] at hall
  simp only [List.flatMap_cons, List.flatMap_nil, List.append_nil, Frame.bytes] at hall
  omega

end IbkrDx
