import IbkrDx.Protocol.Fields

/-!
# The signed channel stays in step

A sender signs each message under the IV the message before it left, and distorts the frame with
that same IV; a receiver takes the distortion off, verifies and moves its own IV on.  Neither says
to the other where it stands.  This file says that the receiver stands where the sender does after
every genuine frame, whatever frames that do not verify were put between them.

* **`signed_channel_in_step`** — over any such sequence.

The receiver is one with a key: `not_signed_channel_in_step` is what becomes of an empty one, under
which the connection verifies nothing and hands a frame on as it came.
-/

namespace IbkrDx

open Search Decimal

/-! ## One genuine frame -/

/-- The messages a sender signs: a FIX message that opens with its type, whose values hold no
separator, which carries no signature and no checksum of its own and whose raw blocks are
balanced, and a compressed message. -/
inductive Genuine (deflate : Bytes → Bytes) : Bytes → Prop
  | fix (v : String) (rest : List (UInt32 × String)) (seq : UInt32)
      (hsoh : ∀ e ∈ (35, v) :: rest, '\x01' ∉ e.2.toList)
      (htags : ∀ e ∈ rest, e.1.toNat ≠ tagHmacSignature ∧ e.1.toNat ≠ 10)
      (hbal : Balanced rest) : Genuine deflate (fixBuild ((35, v) :: rest) seq)
  | comp (innerMsg : Bytes) (hheld : (deflate innerMsg).length < 2 ^ 63) :
      Genuine deflate (fixcompBuild deflate innerMsg)

variable {deflate : Bytes → Bytes}

lemma Genuine.frame {msg : Bytes} (h : Genuine deflate msg) :
    ∃ (k : Framing) (len body : Bytes), msg = k.frame len body ∧ soh ∉ len ∧ Ended body ∧
      Passed body ∧ ∀ h, (findAfterTagBytes (k.signed body h) k.mark).isSome := by
  cases h with
  | fix v rest seq hsoh htags hbal =>
      have hbody := ended_fixBody (List.cons_ne_nil (35, v) rest) seq
      refine ⟨.fix, _, _, fixBuild_eq _ seq, not_mem_padded (by decide) 4 _, hbody,
        passed_fixBody rfl hsoh (fun e he => (htags e he).1) hbal seq, ?_⟩
      intro h
      have h35 : text (35 : UInt32).toNat ++ [eqSign] = ascii "35=" := by decide
      have hthree : (ascii "35=").length = 3 := by decide
      have hv : soh ∉ pushValue v :=
        soh_not_mem_pushValue (hsoh (35, v) List.mem_cons_self)
      have hshape : ∀ m, fixBody ((35, v) :: rest) seq ++ m
          = ascii "35=" ++ (pushValue v ++ soh :: (seqField seq ++ rest.flatMap field ++ m)) := by
        intro m
        rw [fixBody, field, ← h35]
        simp only [List.append_assoc, List.cons_append, List.nil_append]
      rw [Framing.signed, Framing.frame, List.append_assoc, Framing.mark, findAfterTagBytes_append
        (Framing.fix.find_thirtyfive (not_mem_signedLen (by decide) _) _), Option.isSome_map,
        List.append_assoc, hshape, findAfterTagBytes, find_front (List.prefix_append _ _)]
      simp only [Option.bind_eq_bind, Option.bind_some, Nat.zero_add]
      rw [List.drop_left, position_append_cons hv]
      rfl
  | comp innerMsg hheld =>
      have hbound : 2 ^ 63 < usizeBound := by decide
      refine ⟨.comp, _, _, fixcompBuild_eq deflate innerMsg, not_mem_text (by decide) _,
        ended_fixcompBody _, passed_fixcompBody (hheld.trans hbound), ?_⟩
      intro h
      rw [Framing.signed, Framing.frame, List.append_assoc, Framing.mark,
        Framing.comp.findAfter_nine (not_mem_signedLen (by decide) _)]
      rfl

lemma Genuine.fixSign_isSome {msg : Bytes} (hmac : Hmac)
    (h : Genuine deflate msg) (key : Bytes) {iv : Bytes} (hiv : 16 ≤ iv.length) :
    (fixSign hmac msg key iv).isSome := by
  obtain ⟨k, len, body, rfl, hlen, hbody, -, hstart⟩ := h.frame
  have hmark : distortedBehind (k.frame len body) = k.mark := by
    rw [Framing.frame, List.append_assoc, k.distortedBehind_header]
  obtain ⟨s, hs⟩ := Option.isSome_iff_exists.1 (hstart (hmac key (iv ++ body)))
  simp only [fixSign, k.fixSignPlain_frame hmac hlen (hbody.append _), Option.bind_eq_bind,
    Option.bind_some, hmark, hs]
  rw [if_pos hiv]
  rfl

lemma sigHexEq_pushHexUpper (r : Fin 4 → UInt8) : sigHexEq r (pushHexUpper r) = true := by
  have hhi : ∀ m : Fin 16, hexNibble (hexChar ⟨⟨m, by omega⟩⟩) = ⟨⟨m, by omega⟩⟩ := by decide
  have hnib : ∀ n : UInt8, n < 16 → hexNibble (hexChar n) = n := fun n hn => hhi ⟨n.toNat, hn⟩
  have hjoin : ∀ b : UInt8, (b >>> 4) <<< 4 ||| (b &&& 0xF) = b := by
    intro b
    rw [← UInt8.toBitVec_inj]
    have key : ∀ x : BitVec 8, (x >>> 4) <<< 4 ||| (x &&& 0xF#8) = x := by decide
    exact key b.toBitVec
  have hbyte : ∀ b : UInt8, hexNibble (hexChar (b >>> 4)) ≤ 0xF ∧
      hexNibble (hexChar (b &&& 0xF)) ≤ 0xF ∧
      hexNibble (hexChar (b >>> 4)) <<< 4 ||| hexNibble (hexChar (b &&& 0xF)) = b := by
    intro b
    have h₁ := shiftRight_four_lt b
    have h₂ := and_fifteen_lt b
    rw [hnib _ h₁, hnib _ h₂]
    exact ⟨Nat.le_of_lt_succ h₁, Nat.le_of_lt_succ h₂, hjoin b⟩
  rw [sigHexEq, Bool.and_eq_true, decide_eq_true_eq, List.all_eq_true]
  refine ⟨rfl, fun i _ => ?_⟩
  match i with
  | 0 => exact decide_eq_true (hbyte (r 0))
  | 1 => exact decide_eq_true (hbyte (r 1))
  | 2 => exact decide_eq_true (hbyte (r 2))
  | 3 => exact decide_eq_true (hbyte (r 3))

lemma carriesSignature_signed (k : Framing) {len b close : Bytes} (h : Digest)
    (hclose : close.length = k.closingLen) :
    carriesSignature (header k.name len ++ (b ++ [soh]) ++ sigField h ++ close) = true := by
  set msg := header k.name len ++ (b ++ [soh]) ++ sigField h ++ close with hmsg
  have htrail : trailerLen msg = k.closingLen := by
    rw [hmsg, List.append_assoc, List.append_assoc, k.trailerLen_header]
  have hlen : msg.length = (header k.name len ++ b).length + 1 + sigFieldLen + k.closingLen := by
    simp only [hmsg, List.length_append, length_sigField, hclose, List.length_singleton]
    omega
  have hat : msg.length - (k.closingLen + sigFieldLen) = (header k.name len ++ b).length + 1 := by
    omega
  have hfld : (msg.drop ((header k.name len ++ b).length + 1)).take sigFieldLen = sigField h := by
    have hshape : msg = header k.name len ++ b ++ [soh] ++ (sigField h ++ close) := by
      rw [hmsg]
      simp only [List.append_assoc]
    rw [hshape, List.drop_left' (by simp only [List.length_append, List.length_singleton]),
      List.take_left' (length_sigField h)]
  have hsep : msg[(header k.name len ++ b).length]? = some soh := by
    have hshape : msg = header k.name len ++ b ++ soh :: (sigField h ++ close) := by
      rw [hmsg]
      simp only [List.append_assoc, List.cons_append, List.nil_append]
    rw [hshape, List.getElem?_append_right (Nat.le_refl _), Nat.sub_self]
    rfl
  have hhex : ((sigField h).drop 5).take 8 = pushHexUpper (xorFoldBytes h) := by
    have hfive : (ascii "8349=").length = 5 := by decide
    rw [sigField, List.append_assoc, List.drop_left' hfive]
    exact List.take_left' (length_pushHexUpper _)
  have hlast : (sigField h)[sigFieldLen - 1]? = some soh := by
    have hfive : (ascii "8349=").length = 5 := by decide
    rw [sigField, List.getElem?_append_right (by simp [hfive, sigFieldLen])]
    simp [hfive, sigFieldLen]
  have hall : (pushHexUpper (xorFoldBytes h)).all isAsciiHexdigit = true :=
    List.all_eq_true.2 fun c hc => isAsciiHexdigit_of_mem hc
  have hfront : ascii "8349=" <+: sigField h := by
    rw [sigField, List.append_assoc]
    exact List.prefix_append _ _
  have htrailer : signatureAtTheTrailer msg = true := by
    simp only [signatureAtTheTrailer, htrail, hat, hfld, hhex, hall, Nat.add_sub_cancel, hsep,
      hlast, hfront, Bool.and_true, decide_eq_true_eq, and_true]
    omega
  rw [carriesSignature, htrailer, Bool.true_or]

/-- **Verifying undoes signing.**  A genuine frame, verified under the key and the IV it was signed
with, is called signed, comes out as it stood before the distortion, verifies, and leaves the
sender's next IV. -/
theorem fixUnsign_fixSign {msg : Bytes} (hmac : Hmac)
    (hmsg : Genuine deflate msg) {key iv d iv' : Bytes}
    (hsign : fixSign hmac msg key iv = some (d, iv')) :
    carriesSignature d = true ∧ ∃ plain h, fixSignPlain hmac msg key iv = some (plain, h) ∧
      fixUnsign hmac d key iv = ⟨plain, iv', true⟩ := by
  obtain ⟨k, len, body, rfl, hlen, hbody, hpassed, -⟩ := hmsg.frame
  obtain ⟨s, hs, hd, hiv'⟩ := k.fixSign_frame hmac hlen hbody hsign
  set h := hmac key (iv ++ body) with hh
  obtain ⟨b, -, hshape⟩ := k.distort_signed hbody h iv (k.findAfter_mark hbody h hs).1
    (List.range 8)
  rw [← hd] at hshape
  have hmark : distortedBehind d = k.mark := by
    rw [hshape, List.append_assoc, List.append_assoc, k.distortedBehind_header]
  have htrail : trailerLen d = k.closingLen := by
    rw [hshape, List.append_assoc, List.append_assoc, k.trailerLen_header]
  -- in front of the distortion the frame is as it was written, so its start is found again
  have hstart : findAfterTagBytes d k.mark = some s := by
    have hfront : d.take s = (k.signed body h).take s := by rw [hd, take_distort]
    rw [← List.take_append_drop s d, hfront]
    exact findAfterTagBytes_front hs _
  have hplain : undistorted d iv = k.signed body h := by
    rw [undistorted, hmark, htrail, hstart, Option.getD_some, hd, distort_reverse]
  refine ⟨?_, _, _, k.fixSignPlain_frame hmac hlen (hbody.append _) key iv, ?_⟩
  · rw [hshape]
    exact carriesSignature_signed k h (k.length_closing _)
  · simp only [fixUnsign, hplain, signedParts_signed k hpassed, ← hh, sigHexEq_pushHexUpper, hiv']

/-! ## Both ends -/

/-- What reaches the receiver: a message the sender signs, or a frame somebody else put there. -/
inductive Item where
  | genuine (msg : Bytes)
  | foreign (frame : Bytes)
  deriving DecidableEq

/-- The two ends of a channel: the IV the sender signs under next, and the receiving connection. -/
structure Link where
  senderIv : Bytes
  receiver : Connection
  deriving DecidableEq

/-- One frame delivered: what the receiver made of it, between the ends before and after. -/
structure Delivery where
  item : Item
  before : Link
  out : Option Bytes
  after : Link
  deriving DecidableEq

/-- A genuine message is signed and its frame received; a foreign frame is received.  There is no
delivery where the signer panics. -/
def Link.deliver (hmac : Hmac) (key : Bytes) (l : Link) : Item → Option Delivery
  | .genuine msg => do
      let (frame, iv) ← fixSign hmac msg key l.senderIv
      let (out, receiver) := l.receiver.unsign hmac frame
      return ⟨.genuine msg, l, out, ⟨iv, receiver⟩⟩
  | .foreign frame =>
      let (out, receiver) := l.receiver.unsign hmac frame
      some ⟨.foreign frame, l, out, ⟨l.senderIv, receiver⟩⟩

/-- The deliveries of a sequence of items, each from the ends the one before it left. -/
def Link.run (hmac : Hmac) (key : Bytes) : Link → List Item → Option (List Delivery)
  | _, [] => some []
  | l, item :: items => do
      let d ← l.deliver hmac key item
      let ds ← d.after.run hmac key items
      return d :: ds

/-- A foreign frame that carries no signature, or does not verify where it is received. -/
def Delivery.Unverified (hmac : Hmac) (d : Delivery) : Prop :=
  ∀ frame, d.item = .foreign frame → carriesSignature frame = false ∨
    (fixUnsign hmac frame d.before.receiver.readKey d.before.receiver.readIv).valid = false

/-- What a delivery in step does.  A genuine frame comes out as it stood after signing and before
the distortion, and the receiver's IV is then the sender's; a foreign frame moves no IV. -/
def Delivery.InStep (hmac : Hmac) (key : Bytes) (d : Delivery) : Prop :=
  match d.item with
  | .genuine msg =>
      ∃ plain h, fixSignPlain hmac msg key d.before.senderIv = some (plain, h) ∧
        d.out = some plain ∧ d.after.receiver.readIv = d.after.senderIv
  | .foreign _ => d.after.receiver.readIv = d.before.receiver.readIv

/-- Both ends under one key, at the same sixteen bytes. -/
structure Link.Synced (key : Bytes) (l : Link) : Prop where
  key : l.receiver.readKey = key
  iv : l.receiver.readIv = l.senderIv
  width : l.senderIv.length = 16

lemma length_chainIv (iv : Bytes) (h : Digest) : (chainIv iv h).length = 16 := by
  rw [chainIv, List.length_ofFn]

lemma length_of_fixSign {hmac : Hmac} {msg key iv d iv' : Bytes}
    (hsign : fixSign hmac msg key iv = some (d, iv')) : iv'.length = 16 := by
  simp only [fixSign, Option.bind_eq_bind, Option.bind_eq_some_iff] at hsign
  obtain ⟨_, _, _, _, hsome⟩ := hsign
  split at hsome
  · simp only [Option.pure_def, Option.some.injEq, Prod.mk.injEq] at hsome
    rw [← hsome.2, length_chainIv]
  · exact absurd hsome (by simp)

/-! ## One delivery -/

section

variable {hmac : Hmac} {deflate : Bytes → Bytes} {key : Bytes} {l : Link} {d : Delivery}

lemma Link.deliver_isSome (hwidth : l.senderIv.length = 16) {item : Item}
    (hgen : ∀ msg, item = .genuine msg → Genuine deflate msg) :
    ∃ d, l.deliver hmac key item = some d ∧ d.item = item ∧ d.after.senderIv.length = 16 := by
  cases item with
  | genuine msg =>
      obtain ⟨⟨frame, iv⟩, hsign⟩ :=
        Option.isSome_iff_exists.1 ((hgen msg rfl).fixSign_isSome hmac key hwidth.ge)
      refine ⟨⟨.genuine msg, l, (l.receiver.unsign hmac frame).1,
        ⟨iv, (l.receiver.unsign hmac frame).2⟩⟩, ?_, rfl, length_of_fixSign hsign⟩
      simp only [Link.deliver, hsign, Option.bind_eq_bind, Option.bind_some]
      rfl
  | foreign frame => exact ⟨_, rfl, rfl, hwidth⟩

lemma Link.Synced.deliver_genuine (hl : l.Synced key) (hkey : key ≠ []) {msg : Bytes}
    (hmsg : Genuine deflate msg) (hd : l.deliver hmac key (.genuine msg) = some d) :
    d.InStep hmac key ∧ d.after.Synced key := by
  simp only [Link.deliver, Option.bind_eq_bind, Option.bind_eq_some_iff] at hd
  obtain ⟨⟨frame, iv⟩, hsign, hd⟩ := hd
  obtain ⟨hcarries, plain, h, hplain, hun⟩ := fixUnsign_fixSign hmac hmsg hsign
  have hout : l.receiver.unsign hmac frame = (some plain, { l.receiver with readIv := iv }) := by
    simp only [Connection.unsign, hl.key, if_neg hkey, hcarries, hl.iv, hun, not_true_eq_false,
      if_false, if_true]
  simp only [hout, Option.pure_def, Option.some.injEq] at hd
  subst hd
  exact ⟨⟨plain, h, hplain, rfl, rfl⟩, ⟨hl.key, rfl, length_of_fixSign hsign⟩⟩

lemma Link.Synced.deliver_foreign (hl : l.Synced key) {frame : Bytes}
    (hd : l.deliver hmac key (.foreign frame) = some d) (hun : d.Unverified hmac) :
    d.InStep hmac key ∧ d.after.Synced key := by
  simp only [Link.deliver, Option.some.injEq] at hd
  subst hd
  have hstay : (l.receiver.unsign hmac frame).2.readIv = l.receiver.readIv ∧
      (l.receiver.unsign hmac frame).2.readKey = l.receiver.readKey := by
    unfold Connection.unsign
    split
    · exact ⟨rfl, rfl⟩
    · split
      · exact ⟨rfl, rfl⟩
      · next hcarries =>
          rw [not_not] at hcarries
          have hbad := hun frame rfl
          rw [hcarries] at hbad
          simp only [hbad.resolve_left (by simp), Bool.false_eq_true, if_false, and_self]
  exact ⟨hstay.1, ⟨hstay.2.trans hl.key, hstay.1.trans hl.iv, hl.width⟩⟩

end

/-! ## Any sequence of deliveries -/

lemma Link.run_isSome (hmac : Hmac) (key : Bytes) :
    ∀ (items : List Item) (l : Link), l.senderIv.length = 16 →
      (∀ msg, .genuine msg ∈ items → Genuine deflate msg) →
      ∃ ds, l.run hmac key items = some ds ∧ ds.map Delivery.item = items
  | [], _, _, _ => ⟨[], rfl, rfl⟩
  | item :: items, l, hwidth, hgen => by
      have hone : ∃ d, l.deliver hmac key item = some d ∧ d.item = item ∧
          d.after.senderIv.length = 16 :=
        l.deliver_isSome hwidth fun msg hm => hgen msg (hm ▸ List.mem_cons_self)
      obtain ⟨d, hd, hitem, hafter⟩ := hone
      obtain ⟨ds, hds, hitems⟩ := Link.run_isSome hmac key items d.after hafter
        fun msg hm => hgen msg (List.mem_cons_of_mem _ hm)
      refine ⟨d :: ds, ?_, by rw [List.map_cons, hitem, hitems]⟩
      simp only [Link.run, hd, hds, Option.bind_eq_bind, Option.bind_some]
      rfl

lemma Link.Synced.run {hmac : Hmac} {key : Bytes} (hkey : key ≠ []) :
    ∀ (items : List Item) {l : Link} {ds : List Delivery}, l.Synced key →
      (∀ msg, .genuine msg ∈ items → Genuine deflate msg) → l.run hmac key items = some ds →
      (∀ d ∈ ds, d.Unverified hmac) → ∀ d ∈ ds, d.InStep hmac key
  | [], _, _, _, _, hrun, _ => by
      simp only [Link.run, Option.some.injEq] at hrun
      simp [← hrun]
  | item :: items, l, ds, hl, hgen, hrun, hun => by
      simp only [Link.run, Option.bind_eq_bind, Option.bind_eq_some_iff, Option.pure_def,
        Option.some.injEq] at hrun
      obtain ⟨d, hd, rest, hrest, rfl⟩ := hrun
      rw [List.forall_mem_cons] at hun
      have hboth : d.InStep hmac key ∧ d.after.Synced key := by
        cases item with
        | genuine msg => exact hl.deliver_genuine hkey (hgen msg List.mem_cons_self) hd
        | foreign frame => exact hl.deliver_foreign hd hun.1
      exact List.forall_mem_cons.2 ⟨hboth.1, Link.Synced.run hkey items hboth.2
        (fun msg hm => hgen msg (List.mem_cons_of_mem _ hm)) hrest hun.2⟩

/-- **The signed channel stays in step.**  From one non-empty key and one sixteen-byte IV, every
sequence of genuine messages and foreign frames is delivered to its end; and where the foreign
frames carry no signature or do not verify, every genuine frame comes out as it stood before the
distortion with the receiver's IV at the sender's, and no foreign frame moves the receiver's IV. -/
theorem signed_channel_in_step (hmac : Hmac) (deflate : Bytes → Bytes) (key iv : Bytes)
    (hkey : key ≠ []) (hiv : iv.length = 16) (c : Connection) (hc : c.readKey = key)
    (hciv : c.readIv = iv) (items : List Item)
    (hgen : ∀ msg, .genuine msg ∈ items → Genuine deflate msg) :
    ∃ ds, (Link.mk iv c).run hmac key items = some ds ∧ ds.map Delivery.item = items ∧
      ((∀ d ∈ ds, d.Unverified hmac) → ∀ d ∈ ds, d.InStep hmac key) := by
  obtain ⟨ds, hds, hitems⟩ := Link.run_isSome hmac key items ⟨iv, c⟩ hiv hgen
  exact ⟨ds, hds, hitems, Link.Synced.run hkey items ⟨hc, hciv, hiv⟩ hgen hds⟩

/-- A heartbeat, a frame nobody signed, and a second heartbeat under the chained IV. -/
theorem signed_channel_in_step_three :
    ∃ ds, (Link.mk (List.replicate 16 5) { readKey := [1], readIv := List.replicate 16 5 }).run
        (fun _ m _ => m.foldl (· + ·) 0) [1]
        [.genuine (fixBuild [(35, "0")] 1), .foreign (ascii "8=X\x019=0\x01"),
          .genuine (fixBuild [(35, "0")] 2)] = some ds ∧
      ∀ d ∈ ds, d.InStep (fun _ m _ => m.foldl (· + ·) 0) [1] := by
  obtain ⟨ds, hds, hitems, hall⟩ := signed_channel_in_step (fun _ m _ => m.foldl (· + ·) 0) id [1]
    (List.replicate 16 5) (by decide) rfl { readKey := [1], readIv := List.replicate 16 5 } rfl rfl
    [.genuine (fixBuild [(35, "0")] 1), .foreign (ascii "8=X\x019=0\x01"),
      .genuine (fixBuild [(35, "0")] 2)] (by
      intro msg hmsg
      simp only [List.mem_cons, Item.genuine.injEq, reduceCtorEq, List.not_mem_nil, or_false,
        false_or] at hmsg
      rcases hmsg with rfl | rfl
      · exact .fix "0" [] 1 (by decide) (by simp) trivial
      · exact .fix "0" [] 2 (by decide) (by simp) trivial)
  refine ⟨ds, hds, hall fun d hd frame hf => ?_⟩
  have hmem : d.item ∈ ds.map Delivery.item := List.mem_map_of_mem hd
  rw [hitems, hf] at hmem
  simp only [List.mem_cons, reduceCtorEq, Item.foreign.injEq, List.not_mem_nil, or_false,
    false_or] at hmem
  have hnine : ∀ n, fieldsFrom n (text 9 ++ eqSign :: ascii "0" ++ [soh]) = [⟨9, n, ascii "0"⟩] := by
    intro n
    rw [fieldsFrom_field (by decide) (by decide) (rawBlock_of_ne (by decide) _ _), fieldsFrom,
      dif_pos rfl]
  have hshape : ascii "8=X\x019=0\x01" = text 8 ++ eqSign :: ascii "X" ++ soh ::
      (text 9 ++ eqSign :: ascii "0" ++ [soh]) := by decide
  rw [hmem, carriesSignature, fields, hshape,
    fieldsFrom_field (by decide) (by decide) (rawBlock_of_ne (by decide) _ _), hnine]
  exact Or.inl (by decide)

/-- **An empty key verifies nothing.**  The connection takes an empty key for an unsigned channel
and hands the frame on as it came, distortion and all. -/
theorem not_signed_channel_in_step :
    ¬ ∀ (key iv : Bytes), iv.length = 16 → ∀ c : Connection, c.readKey = key → c.readIv = iv →
      ∀ items : List Item, (∀ msg, .genuine msg ∈ items → Genuine id msg) →
      ∃ ds, (Link.mk iv c).run (fun _ _ _ => 0) key items = some ds ∧
        ((∀ d ∈ ds, d.Unverified fun _ _ _ => 0) → ∀ d ∈ ds, d.InStep (fun _ _ _ => 0) key) := by
  intro h
  have hgen : Genuine id (fixBuild [(35, "0")] 1) := .fix "0" [] 1 (by decide) (by simp) trivial
  obtain ⟨ds, hds, hall⟩ := h [] (0 :: 1 :: List.replicate 14 0) rfl
    { readIv := 0 :: 1 :: List.replicate 14 0 } rfl rfl [.genuine (fixBuild [(35, "0")] 1)]
    (by simpa using hgen)
  simp only [Link.run, Link.deliver, Connection.unsign, if_true, Option.bind_eq_bind,
    Option.bind_eq_some_iff, Option.pure_def, Option.some.injEq] at hds
  obtain ⟨d, ⟨⟨frame, iv⟩, hsign, hd⟩, rest, hrest, rfl⟩ := hds
  subst hd hrest
  obtain ⟨hstep, -⟩ := List.forall_mem_cons.1 (hall (by simp_all [Delivery.Unverified]))
  obtain ⟨plain, digest, hplain, hout, -⟩ := hstep
  have hframe : frame = plain := by simpa using hout
  have hsame := congrArg (Option.map Prod.fst) hsign
  rw [Option.map_some, hframe] at hsame
  have hdiff : (fixSign (fun _ _ _ => 0) (fixBuild [(35, "0")] 1) []
      (0 :: 1 :: List.replicate 14 0)).map Prod.fst
      ≠ (fixSignPlain (fun _ _ _ => 0) (fixBuild [(35, "0")] 1) []
        (0 :: 1 :: List.replicate 14 0)).map Prod.fst := by decide +kernel
  exact hdiff (by rw [hsame, hplain]; rfl)

end IbkrDx
