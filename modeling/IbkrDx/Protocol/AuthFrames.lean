import IbkrDx.Lib.BigEndian
import IbkrDx.Protocol.Parsing

/-!
# Authentication frames

The xyz frames of `protocol/xyz.rs`: a version, a message, a sub-message and a state in four bytes
each, and strings, each with its length in four bytes in front of it and filled up to a multiple of
four.

* **`xyz_reads_back`** — what was built is read back, and a frame cut short gives nothing or the
  same header with a front of the strings.
* **`not_xyz_reads_back`** — a string of 2³² bytes is not: its length does not fit.
-/

namespace IbkrDx

open BigEndian

/-! ## Building and parsing -/

def xyzProtocolVersion : ℕ := 23

def asBytes (s : String) : Bytes := Utf8.encode s.toList

/-- How many bytes fill a length up to a multiple of four. -/
def padding (len : ℕ) : ℕ := if 0 < len % 4 then 4 - len % 4 else 0

def xyzWriteString (s : String) : Bytes :=
  toBe 4 (asBytes s).length ++ (asBytes s ++ List.replicate (padding (asBytes s).length) 0)

def xyzBuild (msgId state : UInt32) (username : String) (fields : List String) : Bytes :=
  toBe 4 xyzProtocolVersion ++ (toBe 4 msgId.toNat ++ (toBe 4 1 ++ (toBe 4 state.toNat ++
    (username :: fields).flatMap xyzWriteString)))

structure XyzResponse where
  msgId : UInt32
  subId : UInt32
  state : UInt32
  fields : List String
  deriving DecidableEq

def statedLength (rest : Bytes) : ℕ := ofBe (rest.take 4)

/-- The strings from an offset on; nothing where a length runs past the end. -/
def xyzFields (rest : Bytes) : Option (List String) :=
  if rest.length < 4 then some []
  else if rest.length < 4 + statedLength rest then none
  else
    (xyzFields (rest.drop (4 + statedLength rest + padding (statedLength rest)))).map
      (fromUtf8Lossy ((rest.drop 4).take (statedLength rest)) :: ·)
termination_by rest.length
decreasing_by rw [List.length_drop]; omega

/-- What a payload states; nothing where it did not arrive whole. -/
def xyzParseResponse (payload : Bytes) : Option XyzResponse :=
  if payload.length < 16 then none
  else
    (xyzFields (payload.drop 16)).map fun fields =>
      ⟨UInt32.ofNat (ofBe ((payload.drop 4).take 4)), UInt32.ofNat (ofBe ((payload.drop 8).take 4)),
        UInt32.ofNat (ofBe ((payload.drop 12).take 4)), fields⟩

/-! ## Strings -/

lemma fromUtf8Lossy_asBytes (s : String) : fromUtf8Lossy (asBytes s) = s := by
  rw [fromUtf8Lossy, asBytes, Utf8.lossy_encode, String.ofList_toList]

lemma length_xyzWriteString (s : String) :
    (xyzWriteString s).length = 4 + (asBytes s).length + padding (asBytes s).length := by
  rw [xyzWriteString, List.length_append, List.length_append, length_toBe, List.length_replicate,
    Nat.add_assoc]

lemma statedLength_append {len : ℕ} (h : len < u32Bound) (rest : Bytes) :
    statedLength (toBe 4 len ++ rest) = len := by
  rw [statedLength, List.take_left' (length_toBe 4 len)]
  exact ofBe_toBe_of_lt h

variable {s : String}

lemma xyzFields_string (h : (asBytes s).length < u32Bound) (behind : Bytes) :
    xyzFields (toBe 4 (asBytes s).length ++ (asBytes s ++ behind))
      = (xyzFields (behind.drop (padding (asBytes s).length))).map (s :: ·) := by
  have hdrop : (toBe 4 (asBytes s).length ++ (asBytes s ++ behind)).drop 4 = asBytes s ++ behind :=
    List.drop_left' (length_toBe 4 _)
  have hlen : (toBe 4 (asBytes s).length ++ (asBytes s ++ behind)).length
      = 4 + ((asBytes s).length + behind.length) := by
    rw [List.length_append, List.length_append, length_toBe]
  rw [xyzFields, statedLength_append h, hlen, if_neg (by omega), if_neg (by omega), Nat.add_assoc,
    ← List.drop_drop, hdrop, List.take_left, ← List.drop_drop, List.drop_left,
    fromUtf8Lossy_asBytes]

lemma xyzFields_write (h : (asBytes s).length < u32Bound) (rest : Bytes) :
    xyzFields (xyzWriteString s ++ rest) = (xyzFields rest).map (s :: ·) := by
  rw [xyzWriteString, List.append_assoc, List.append_assoc, xyzFields_string h,
    List.drop_left' List.length_replicate]

lemma xyzFields_writes {fields : List String} (h : ∀ s ∈ fields, (asBytes s).length < u32Bound)
    (rest : Bytes) :
    xyzFields (fields.flatMap xyzWriteString ++ rest) = (xyzFields rest).map (fields ++ ·) := by
  induction fields with
  | nil => exact Option.map_id'.symm
  | cons s ss ih =>
      rw [List.forall_mem_cons] at h
      rw [List.flatMap_cons, List.append_assoc, xyzFields_write h.1, ih h.2, Option.map_map]
      rfl

lemma xyzFields_nil : xyzFields [] = some [] := by rw [xyzFields, if_pos (by decide)]

lemma xyzFields_front (h : (asBytes s).length < u32Bound) {q : Bytes}
    (hq : q <+: xyzWriteString s) :
    xyzFields q = none ∨ xyzFields q = some [] ∨ xyzFields q = some [s] := by
  rcases Nat.lt_or_ge q.length 4 with hshort | hlong
  · exact Or.inr (Or.inl (by rw [xyzFields, if_pos hshort]))
  · rw [xyzWriteString] at hq
    obtain ⟨q, rfl⟩ : toBe 4 (asBytes s).length <+: q :=
      List.prefix_of_prefix_length_le (List.prefix_append _ _) hq (by rw [length_toBe]; exact hlong)
    rw [List.prefix_append_right_inj] at hq
    rcases Nat.lt_or_ge q.length (asBytes s).length with hcut | hwhole
    · -- the text is cut
      refine Or.inl ?_
      rw [xyzFields, if_neg (Nat.not_lt.2 hlong), statedLength_append h, List.length_append,
        length_toBe, if_pos (by omega)]
    · -- the filling may be
      obtain ⟨fill, rfl⟩ : asBytes s <+: q :=
        List.prefix_of_prefix_length_le (List.prefix_append _ _) hq hwhole
      rw [List.prefix_append_right_inj] at hq
      have hfill := hq.length_le
      rw [List.length_replicate] at hfill
      refine Or.inr (Or.inr ?_)
      rw [xyzFields_string h, List.drop_of_length_le hfill, xyzFields_nil]
      rfl

/-! ## Frames -/

def xyzHeader (msgId state : UInt32) : Bytes :=
  toBe 4 xyzProtocolVersion ++ (toBe 4 msgId.toNat ++ (toBe 4 1 ++ toBe 4 state.toNat))

lemma xyzBuild_eq (msgId state : UInt32) (username : String) (fields : List String) :
    xyzBuild msgId state username fields
      = xyzHeader msgId state ++ (username :: fields).flatMap xyzWriteString := by
  simp only [xyzBuild, xyzHeader, List.append_assoc]

@[simp]
lemma length_xyzHeader (msgId state : UInt32) : (xyzHeader msgId state).length = 16 := by
  simp only [xyzHeader, List.length_append, length_toBe]

lemma xyzParseResponse_header (msgId state : UInt32) (rest : Bytes) :
    xyzParseResponse (xyzHeader msgId state ++ rest)
      = (xyzFields rest).map fun fields => ⟨msgId, 1, state, fields⟩ := by
  have hfour (v : ℕ) (behind : Bytes) : (toBe 4 v ++ behind).take 4 = toBe 4 v ∧
      (toBe 4 v ++ behind).drop 4 = behind :=
    ⟨List.take_left' (length_toBe 4 v), List.drop_left' (length_toBe 4 v)⟩
  have hshape : xyzHeader msgId state ++ rest = toBe 4 xyzProtocolVersion ++
      (toBe 4 msgId.toNat ++ (toBe 4 1 ++ (toBe 4 state.toNat ++ rest))) := by
    simp only [xyzHeader, List.append_assoc]
  have hmsg : (xyzHeader msgId state ++ rest).drop 4
      = toBe 4 msgId.toNat ++ (toBe 4 1 ++ (toBe 4 state.toNat ++ rest)) := by
    rw [hshape, (hfour _ _).2]
  have hsub : (xyzHeader msgId state ++ rest).drop 8
      = toBe 4 (1 : UInt32).toNat ++ (toBe 4 state.toNat ++ rest) := by
    rw [show 8 = 4 + 4 from rfl, ← List.drop_drop, hmsg, (hfour _ _).2]
    rfl
  have hstate : (xyzHeader msgId state ++ rest).drop 12 = toBe 4 state.toNat ++ rest := by
    rw [show 12 = 8 + 4 from rfl, ← List.drop_drop, hsub, (hfour _ _).2]
  have hlen : ¬ (xyzHeader msgId state ++ rest).length < 16 := by
    rw [List.length_append, length_xyzHeader]
    omega
  rw [xyzParseResponse, if_neg hlen, List.drop_left' (length_xyzHeader _ _), hmsg, hsub, hstate,
    (hfour _ _).1, (hfour _ _).1, (hfour _ _).1, ofBe_toBe_uInt32, ofBe_toBe_uInt32,
    ofBe_toBe_uInt32]

/-- **A frame reads back, and a cut one invents nothing.**  What was built is read back; every
proper front of it gives nothing, or the same header and a front of the strings. -/
theorem xyz_reads_back (msgId state : UInt32) (username : String) (fields : List String)
    (h : ∀ s ∈ username :: fields, (asBytes s).length < u32Bound) :
    xyzParseResponse (xyzBuild msgId state username fields)
        = some ⟨msgId, 1, state, username :: fields⟩ ∧
      ∀ cut, cut <+: xyzBuild msgId state username fields →
        cut ≠ xyzBuild msgId state username fields →
          xyzParseResponse cut = none ∨
            ∃ read, read <+: username :: fields ∧
              xyzParseResponse cut = some ⟨msgId, 1, state, read⟩ := by
  have hwhole := xyzFields_writes h []
  rw [List.append_nil, xyzFields_nil, Option.map_some, List.append_nil] at hwhole
  rw [xyzBuild_eq]
  refine ⟨by rw [xyzParseResponse_header, hwhole, Option.map_some], fun cut hcut _ => ?_⟩
  rcases Nat.lt_or_ge cut.length 16 with hshort | hlong
  · exact Or.inl (by rw [xyzParseResponse, if_pos hshort])
  · obtain ⟨cut, rfl⟩ : xyzHeader msgId state <+: cut :=
      List.prefix_of_prefix_length_le (List.prefix_append _ _) hcut
        (by rw [length_xyzHeader]; exact hlong)
    rw [List.prefix_append_right_inj] at hcut
    obtain ⟨front, behind, q, hfields, rfl, hq⟩ := Cut.exists_cut xyzWriteString _ hcut
    have hfront : ∀ s ∈ front, (asBytes s).length < u32Bound := fun s hs =>
      h s (hfields ▸ List.mem_append_left _ hs)
    rw [hfields, xyzParseResponse_header, xyzFields_writes hfront]
    cases behind with
    | nil =>
        rw [hq.ended rfl, xyzFields_nil]
        exact Or.inr ⟨front, List.prefix_append _ _, by rw [Option.map_some, List.append_nil]; rfl⟩
    | cons s behind =>
        have hs := h s (hfields ▸ List.mem_append_right _ List.mem_cons_self)
        rcases xyzFields_front hs (hq.front s behind rfl).1 with hnone | hnothing | hone
        · exact Or.inl (by rw [hnone]; rfl)
        · refine Or.inr ⟨front, List.prefix_append _ _, ?_⟩
          rw [hnothing, Option.map_some, List.append_nil]
          rfl
        · refine Or.inr ⟨front ++ [s], ?_, by rw [hone]; rfl⟩
          rw [List.prefix_append_right_inj]
          exact List.prefix_append [s] behind

theorem xyz_reads_back_three :
    xyzParseResponse (xyzBuild 777 2 "user" ["", "Zürich"])
        = some ⟨777, 1, 2, ["user", "", "Zürich"]⟩ ∧
      (xyzParseResponse ((xyzBuild 777 2 "user" ["", "Zürich"]).take 30) = none ∨
        ∃ read, read <+: ["user", "", "Zürich"] ∧
          xyzParseResponse ((xyzBuild 777 2 "user" ["", "Zürich"]).take 30)
            = some ⟨777, 1, 2, read⟩) := by
  have h := xyz_reads_back 777 2 "user" ["", "Zürich"] (by decide)
  exact ⟨h.1, h.2 _ (List.take_prefix _ _) (by decide)⟩

lemma xyzFields_overlong (h : (asBytes s).length % u32Bound = 0) (rest : Bytes) :
    ∃ read, xyzFields (xyzWriteString s ++ rest) = (xyzFields read).map ("" :: ·) := by
  have hnothing : statedLength (xyzWriteString s ++ rest) = 0 := by
    rw [statedLength, xyzWriteString, List.append_assoc, List.take_left' (length_toBe 4 _),
      ofBe_toBe]
    exact h
  have hlen : ¬ (xyzWriteString s ++ rest).length < 4 := by
    rw [List.length_append, length_xyzWriteString]
    omega
  have hempty : fromUtf8Lossy [] = "" := by rw [fromUtf8Lossy, Utf8.lossy_nil, String.ofList_nil]
  have hstep : 4 + 0 + padding 0 = 4 := rfl
  refine ⟨(xyzWriteString s ++ rest).drop 4, ?_⟩
  rw [xyzFields, hnothing, if_neg hlen, if_neg hlen, List.take_zero, hempty, hstep]

/-- **A string of 2³² bytes is lost**: the length in front of it states none. -/
theorem not_xyz_reads_back :
    ¬ ∀ (msgId state : UInt32) (username : String) (fields : List String),
      xyzParseResponse (xyzBuild msgId state username fields)
        = some ⟨msgId, 1, state, username :: fields⟩ := by
  intro h
  have hbytes (n : ℕ) : asBytes (String.ofList (List.replicate n 'a')) = List.replicate n 97 := by
    rw [asBytes, String.toList_ofList, Utf8.encode]
    induction n with
    | zero => rfl
    | succ n ih => rw [List.replicate_succ, List.flatMap_cons, ih, List.replicate_succ]; rfl
  have hread := h 777 1 (String.ofList (List.replicate u32Bound 'a')) []
  have hlen : (asBytes (String.ofList (List.replicate u32Bound 'a'))).length % u32Bound = 0 := by
    rw [hbytes, List.length_replicate, Nat.mod_self]
  obtain ⟨read, hfields⟩ := xyzFields_overlong hlen []
  rw [xyzBuild_eq, List.flatMap_cons, List.flatMap_nil, xyzParseResponse_header, hfields,
    Option.map_map, Option.map_eq_some_iff] at hread
  obtain ⟨strings, -, heq⟩ := hread
  have hname : "" = String.ofList (List.replicate u32Bound 'a') :=
    (List.cons.inj (XyzResponse.mk.inj heq).2.2.2).1
  have hlength := congrArg (fun t : String => t.toList.length) hname
  simp only [String.toList_ofList, List.length_replicate] at hlength
  exact absurd hlength (by decide)

end IbkrDx
