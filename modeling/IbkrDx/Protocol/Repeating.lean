import IbkrDx.Protocol.Parsing

/-!
# The repetitions of a group

The reader `fix_parse_repeating` of `protocol/fix.rs`, which keeps one map for each repetition of a
group.  It cuts a message at every separator, where `fix_parse` walks it and reads a raw block
whole.

* **`repeating_reads_the_walk_iff`** — the messages on which the two readers agree.
-/

namespace IbkrDx

open Search Decimal

/-! ## The reader -/

/-- One part of a message cut at the separators, where it reads as a field. -/
def partField (part : Bytes) : Option (ℕ × String) :=
  if part = [] then none
  else do
    let text := Utf8.lossy part
    let eq ← position '=' text
    let tag ← parse u32Bound (Utf8.encode (text.take eq))
    return (tag, String.ofList (text.drop (eq + 1)))

def splitFields (data : Bytes) : List (ℕ × String) := (data.splitOn soh).filterMap partField

/-- What stands in front of the first repetition, and the repetitions. -/
structure Repeating where
  header : List (ℕ × String)
  groups : List (List (ℕ × String))
  deriving DecidableEq

/-- One more field: a repetition begins at the start tag. -/
def Repeating.push (startTag : ℕ) (r : Repeating) (f : ℕ × String) : Repeating :=
  if f.1 = startTag then { r with groups := r.groups ++ [[f]] }
  else if h : r.groups = [] then { r with header := r.header ++ [f] }
  else { r with groups := r.groups.dropLast ++ [r.groups.getLast h ++ [f]] }

/-- The fields of a message over its header and its repetitions. -/
def distribute (startTag : ℕ) (fs : List (ℕ × String)) : Repeating :=
  fs.foldl (Repeating.push startTag) ⟨[], []⟩

/-- Parse a message whose fields repeat, one map per repetition; what stands in front of the first
is carried onto each. -/
def fixParseRepeating (data : Bytes) (startTag : ℕ) : List TagMap :=
  let r := distribute startTag (splitFields data)
  r.groups.map fun group => insertAll group (insertAll r.header fun _ => none)

/-! ## One part -/

lemma mem_lossy_ascii {e : UInt8} (he : e.toNat < 0x80) {l : Bytes} :
    Char.ofNat e.toNat ∈ Utf8.lossy l ↔ e ∈ l := by
  have hchar (b : UInt8) (hb : b.toNat < 0x80) : (Char.ofNat b.toNat).toNat = b.toNat :=
    Utf8.toNat_ofNat (Or.inl (by omega))
  have hfilter := Utf8.filter_lossy l
  constructor
  · intro hmem
    have hkept : Char.ofNat e.toNat ∈ (Utf8.lossy l).filter (·.toNat < 0x80) :=
      List.mem_filter.2 ⟨hmem, by simpa [hchar e he] using he⟩
    rw [hfilter, List.mem_map] at hkept
    obtain ⟨b, hb, heq⟩ := hkept
    obtain ⟨hmem', hb'⟩ := List.mem_filter.1 hb
    have hbyte := congrArg Char.toNat heq
    rw [hchar e he, hchar b (by simpa using hb')] at hbyte
    rwa [← UInt8.toNat_inj.1 hbyte]
  · intro hmem
    have hkept : Char.ofNat e.toNat ∈ (l.filter (·.toNat < 0x80)).map fun b => Char.ofNat b.toNat :=
      List.mem_map.2 ⟨e, List.mem_filter.2 ⟨hmem, by simpa using he⟩, rfl⟩
    rw [← hfilter] at hkept
    exact (List.mem_filter.1 hkept).1

lemma charOf_eqSign : Char.ofNat eqSign.toNat = '=' := by decide

lemma parse_of_not_ascii {bound : ℕ} {t : Bytes} {b : UInt8} (hb : b ∈ t) (hge : 0x80 ≤ b.toNat) :
    parse bound t = none := by
  cases hparse : parse bound t with
  | none => rfl
  | some n =>
      have hdigit : isDigit b = false := by
        rw [isDigit, decide_eq_false_iff_not, UInt8.le_iff_toNat_le, UInt8.le_iff_toNat_le]
        intro h
        have := h.2
        simp at this
        omega
      refine absurd hb (not_mem_of_parse hparse hdigit ?_)
      rintro rfl
      exact absurd hge (by decide)

lemma parse_lossy (bound : ℕ) (t : Bytes) :
    parse bound (Utf8.encode (Utf8.lossy t)) = parse bound t := by
  by_cases hascii : ∀ b ∈ t, b.toNat < 0x80
  · rw [Utf8.lossy_ascii hascii, Utf8.encode_ascii hascii]
  · obtain ⟨c, hc, hge⟩ : ∃ c ∈ Utf8.lossy t, 0x80 ≤ c.toNat := by
      by_contra hno
      push Not at hno
      exact hascii (Utf8.ascii_of_lossy t hno)
    obtain ⟨d, hd, hdge⟩ := Utf8.exists_mem_encodeChar hge
    push Not at hascii
    obtain ⟨b, hb, hbge⟩ := hascii
    have hencoded : d ∈ Utf8.encode (Utf8.lossy t) := List.mem_flatMap.2 ⟨c, hc, hd⟩
    rw [parse_of_not_ascii hb hbge, parse_of_not_ascii hencoded hdge]

/-- **One part is read as the walk reads it.** -/
theorem partField_eq (part : Bytes) :
    partField part = (segment part).map fun f => (f.1, fromUtf8Lossy f.2) := by
  rw [partField, segment]
  split
  · next hnil => rw [hnil]; rfl
  · cases hpos : position eqSign part with
    | none =>
        have hno : '=' ∉ Utf8.lossy part := by
          rw [← charOf_eqSign, mem_lossy_ascii (by decide)]
          exact position_eq_none.1 hpos
        simp only [position_eq_none.2 hno]
        rfl
    | some i =>
        obtain ⟨r, hr, hnot⟩ := position_eq_some hpos
        have hlen : (part.take i).length = i := by
          rw [List.length_take, Nat.min_eq_left (position_lt hpos).le]
        generalize part.take i = x at hr hnot hlen
        subst hlen hr
        have hno : '=' ∉ Utf8.lossy x := by
          rw [← charOf_eqSign, mem_lossy_ascii (by decide)]
          exact hnot
        have hlossy : Utf8.lossy (x ++ eqSign :: r) = Utf8.lossy x ++ '=' :: Utf8.lossy r := by
          rw [Utf8.lossy_append_ascii (by decide), Utf8.lossy_cons_ascii (by decide), charOf_eqSign]
        have hdrop {α : Type} (l : List α) (a : α) (r : List α) :
            (l ++ a :: r).drop (l.length + 1) = r := by
          rw [List.append_cons, List.drop_left' (by simp)]
        simp only [hlossy, position_append_cons hno, Option.bind_eq_bind, Option.bind_some,
          List.take_left, parse_lossy, hdrop]
        cases parse u32Bound x <;> rfl

/-! ## The parts of a message -/

@[simp]
lemma splitFields_nil : splitFields [] = [] := by
  rw [splitFields, List.splitOn_nil]
  rfl

lemma soh_not_mem_firstSegment (data : Bytes) : soh ∉ firstSegment data := by
  intro hmem
  unfold firstSegment at hmem
  have := List.mem_takeWhile_imp hmem
  simp at this

lemma firstSegment_cases (data : Bytes) : firstSegment data = data ∧ behindSegment data = [] ∨
    data = firstSegment data ++ soh :: behindSegment data := by
  have hsplit : firstSegment data ++ data.dropWhile (· ≠ soh) = data :=
    List.takeWhile_append_dropWhile
  cases hrest : data.dropWhile (· ≠ soh) with
  | nil =>
      rw [hrest, List.append_nil] at hsplit
      refine Or.inl ⟨hsplit, ?_⟩
      rw [behindSegment, hsplit]
      exact List.drop_eq_nil_of_le (Nat.le_succ _)
  | cons b rest =>
      have hb : b = soh := by
        have hhead := List.head_dropWhile_not (· ≠ soh) (l := data) (by rw [hrest]; simp)
        simp only [hrest, List.head_cons] at hhead
        simpa using hhead
      rw [hrest, hb] at hsplit
      have hbehind : behindSegment data = rest := by
        rw [behindSegment]
        conv_lhs => rw [← hsplit]
        have hfirst : firstSegment (firstSegment data ++ soh :: rest) = firstSegment data := by
          rw [hsplit]
        rw [hfirst]
        exact drop_segment _ _
      rw [hbehind]
      exact Or.inr hsplit.symm

lemma splitFields_step (data : Bytes) :
    splitFields data
      = (partField (firstSegment data)).toList ++ splitFields (behindSegment data) := by
  have hfields (x : Option (ℕ × String)) (l : List Bytes) (part : Bytes)
      (h : partField part = x) : (part :: l).filterMap partField = x.toList ++ l.filterMap partField := by
    rw [List.filterMap_cons, h]
    cases x <;> rfl
  have hnot := soh_not_mem_firstSegment data
  rcases firstSegment_cases data with ⟨hseg, hbehind⟩ | hsplit
  · rw [hseg] at hnot
    rw [hbehind, splitFields_nil, splitFields, List.splitOn_eq_singleton hnot, hseg]
    exact hfields _ [] _ rfl
  · have hwhole : data.splitOn soh = firstSegment data :: (behindSegment data).splitOn soh := by
      conv_lhs => rw [hsplit]
      exact List.splitOn_append_cons_self_of_not_mem hnot _
    rw [splitFields, hwhole]
    exact hfields _ _ _ rfl

/-! ## Header and repetitions -/

lemma push_flat (startTag : ℕ) (r : Repeating) (f : ℕ × String) :
    (r.push startTag f).header ++ (r.push startTag f).groups.flatten
      = r.header ++ r.groups.flatten ++ [f] := by
  unfold Repeating.push
  split
  · simp
  · split
    · next hnil => simp [hnil]
    · next hne =>
        simp only [List.flatten_append, List.flatten_singleton]
        conv_rhs => rw [← List.dropLast_append_getLast hne, List.flatten_append,
          List.flatten_singleton]
        simp only [List.append_assoc]

lemma foldl_push_flat (startTag : ℕ) : ∀ (fs : List (ℕ × String)) (r : Repeating),
    (fs.foldl (Repeating.push startTag) r).header
        ++ (fs.foldl (Repeating.push startTag) r).groups.flatten
      = r.header ++ r.groups.flatten ++ fs
  | [], r => by rw [List.foldl_nil, List.append_nil]
  | f :: fs, r => by
      rw [List.foldl_cons, foldl_push_flat startTag fs, push_flat, List.append_assoc,
        List.singleton_append]

/-- **Every field goes to the header or to one repetition**, in order. -/
theorem distribute_flat (startTag : ℕ) (fs : List (ℕ × String)) :
    (distribute startTag fs).header ++ (distribute startTag fs).groups.flatten = fs :=
  foldl_push_flat startTag fs ⟨[], []⟩

lemma length_push (startTag : ℕ) (r : Repeating) (f : ℕ × String) :
    (r.push startTag f).groups.length = r.groups.length + if f.1 = startTag then 1 else 0 := by
  unfold Repeating.push
  split
  · simp
  · split
    · next hnil => simp [hnil]
    · next hne =>
        have := List.length_pos_iff.2 hne
        simp only [List.length_append, List.length_dropLast, List.length_singleton]
        omega

lemma length_distribute (startTag : ℕ) (fs : List (ℕ × String)) :
    (distribute startTag fs).groups.length = fs.countP (·.1 = startTag) := by
  have hfold : ∀ (fs : List (ℕ × String)) (r : Repeating),
      (fs.foldl (Repeating.push startTag) r).groups.length
        = r.groups.length + fs.countP (·.1 = startTag) := by
    intro fs
    induction fs with
    | nil => intro r; simp
    | cons f fs ih =>
        intro r
        rw [List.foldl_cons, ih, length_push, List.countP_cons]
        simp only [decide_eq_true_eq]
        omega
  simpa [distribute] using hfold fs ⟨[], []⟩

lemma insertAll_append (fs gs : List (ℕ × String)) (m : TagMap) :
    insertAll (fs ++ gs) m = insertAll gs (insertAll fs m) := List.foldl_append

lemma fixParseRepeating_one {data : Bytes} {startTag : ℕ}
    (h : (splitFields data).countP (·.1 = startTag) = 1) :
    fixParseRepeating data startTag = [insertAll (splitFields data) fun _ => none] := by
  have hlength := length_distribute startTag (splitFields data)
  have hflat := distribute_flat startTag (splitFields data)
  rw [h, List.length_eq_one_iff] at hlength
  obtain ⟨group, hgroup⟩ := hlength
  rw [hgroup, List.flatten_singleton] at hflat
  rw [fixParseRepeating]
  simp only [hgroup, List.map_cons, List.map_nil]
  rw [← insertAll_append, hflat]

/-! ## Where the two readers agree -/

/-- A field of the walk that reads the same where its bytes are cut at the first separator behind
its start. -/
def CutAlike (data : Bytes) (f : Field) : Prop :=
  partField (firstSegment (data.drop f.start)) = some f.read

lemma no_eqSign_left {x left : Bytes}
    (h : fromUtf8Lossy x = fromUtf8Lossy (x ++ left)) : eqSign ∉ left := by
  have hlossy : Utf8.lossy x = Utf8.lossy (x ++ left) := by
    simpa [fromUtf8Lossy] using congrArg String.toList h
  have hfilter := congrArg (List.filter (·.toNat < 0x80)) hlossy
  rw [Utf8.filter_lossy, Utf8.filter_lossy] at hfilter
  have hlen := congrArg List.length hfilter
  simp only [List.length_map, List.filter_append, List.length_append] at hlen
  intro hmem
  have hpos : 0 < (left.filter (·.toNat < 0x80)).length :=
    List.length_pos_of_mem (List.mem_filter.2 ⟨hmem, by decide⟩)
  omega

lemma firstSegment_append {x : Bytes} (hx : soh ∉ x) (y : Bytes) :
    firstSegment (x ++ y) = x ++ firstSegment y :=
  List.takeWhile_append_of_pos fun b hb => by
    simpa using fun (heq : b = soh) => hx (heq ▸ hb)

lemma partField_of_not_mem {part : Bytes} (h : eqSign ∉ part) : partField part = none := by
  rw [partField_eq, segment, position_eq_none.2 h]
  rfl

lemma splitFields_drop_raw {body : Bytes} {n : ℕ}
    (h : fromUtf8Lossy (firstSegment body) = fromUtf8Lossy (body.take n)) :
    splitFields (body.drop (body.take n).length) = splitFields (behindSegment body) := by
  have hsoh : soh ∉ body.take n := by
    intro hmem
    have hlossy : Utf8.lossy (firstSegment body) = Utf8.lossy (body.take n) := by
      simpa [fromUtf8Lossy] using congrArg String.toList h
    have hin := (mem_lossy_ascii (e := soh) (by decide)).2 hmem
    rw [← hlossy, mem_lossy_ascii (by decide)] at hin
    exact soh_not_mem_firstSegment body hin
  obtain ⟨left, hleft⟩ := List.take_prefix n body
  have hdrop : body.drop (body.take n).length = left := by
    conv_lhs => rw [← hleft]
    exact List.drop_left' (by rw [hleft])
  have hfirst : firstSegment body = body.take n ++ firstSegment left := by
    conv_lhs => rw [← hleft]
    exact firstSegment_append hsoh left
  have hbehind : behindSegment body = behindSegment left := by
    rw [behindSegment, behindSegment, hfirst, List.length_append, Nat.add_assoc, ← List.drop_drop,
      hdrop]
  rw [hfirst] at h
  rw [hdrop, hbehind, splitFields_step left, partField_of_not_mem (no_eqSign_left h.symm)]
  rfl

lemma partField_raw {next body : Bytes} (h : next = ascii "96=" ++ body) :
    partField (firstSegment next) = some (tagRawData, fromUtf8Lossy (firstSegment body)) := by
  have hlit : ascii "96=" = text tagRawData ++ [eqSign] := by decide
  rw [h, firstSegment_append (by decide), hlit, List.append_assoc, List.singleton_append,
    partField_eq, segment_field (by decide)]
  rfl

lemma behindSegment_raw {next body : Bytes} (h : next = ascii "96=" ++ body) :
    behindSegment next = behindSegment body := by
  have hthree : (ascii "96=").length = 3 := by decide
  have hshort : (firstSegment next).length + 1 = 3 + ((firstSegment body).length + 1) := by
    rw [h, firstSegment_append (by decide), List.length_append, hthree, Nat.add_assoc]
  rw [behindSegment, hshort, ← List.drop_drop, h, List.drop_left' hthree]
  rfl

lemma rawBlock_eq_some {tag n : ℕ} {value next : Bytes} (h : rawBlock tag value next = some n) :
    next = ascii "96=" ++ next.drop 3 := by
  rw [rawBlock] at h
  split at h
  · obtain ⟨m, -, hm⟩ := Option.bind_eq_some_iff.1 h
    rw [Option.ite_none_right_eq_some] at hm
    obtain ⟨t, ht⟩ := hm.1
    rw [← ht, List.drop_left' (by decide)]
  · exact absurd h (by simp)

lemma cutAlike_iff (pre rest : Bytes) (tag : ℕ) (value : Bytes) :
    CutAlike (pre ++ rest) ⟨tag, pre.length, value⟩ ↔
      partField (firstSegment rest) = some (tag, fromUtf8Lossy value) := by
  rw [CutAlike, List.drop_left]
  rfl

lemma behind_eq {rest : Bytes} (pre : Bytes) (hcase : firstSegment rest = rest ∧
    behindSegment rest = [] ∨ rest = firstSegment rest ++ soh :: behindSegment rest) (off : ℕ)
    (hoff : off = pre.length + (firstSegment rest).length + 1) : behindSegment rest = [] ∨
      ∃ pre', pre'.length = off ∧ pre' ++ behindSegment rest = pre ++ rest := by
  rcases hcase with ⟨-, h⟩ | h
  · exact Or.inl h
  · refine Or.inr ⟨pre ++ firstSegment rest ++ [soh], ?_, ?_⟩
    · simp only [List.length_append, List.length_singleton]
      omega
    · conv_rhs => rw [h]
      simp only [List.append_assoc, List.singleton_append]

lemma splitFields_block {next : Bytes} (hnext : next = ascii "96=" ++ next.drop 3) {k : ℕ}
    (pre : Bytes)
    (ih : ∀ pre' rest : Bytes, rest.length ≤ next.length →
      (splitFields rest = (fieldsFrom pre'.length rest).map Field.read ↔
        ∀ f ∈ fieldsFrom pre'.length rest, CutAlike (pre' ++ rest) f)) :
    splitFields next = List.map Field.read (⟨tagRawData, pre.length, rawOf k next⟩ ::
        fieldsFrom (pre.length + 3 + (rawOf k next).length)
          (next.drop (3 + (rawOf k next).length))) ↔
      ∀ f ∈ (⟨tagRawData, pre.length, rawOf k next⟩ :: fieldsFrom
          (pre.length + 3 + (rawOf k next).length) (next.drop (3 + (rawOf k next).length))),
        CutAlike (pre ++ next) f := by
  have hthree : (ascii "96=").length = 3 := by decide
  have hpart := partField_raw hnext
  have hlong : 3 + (rawOf k next).length ≤ next.length := by
    have hlen := congrArg List.length hnext
    rw [List.length_append, hthree] at hlen
    rw [rawOf, List.length_take]
    omega
  have hpre : (pre ++ next.take (3 + (rawOf k next).length)).length
      = pre.length + 3 + (rawOf k next).length := by
    rw [List.length_append, List.length_take, Nat.min_eq_left hlong, Nat.add_assoc]
  have hrec := ih (pre ++ next.take (3 + (rawOf k next).length))
    (next.drop (3 + (rawOf k next).length)) (by rw [List.length_drop]; omega)
  rw [hpre, List.append_assoc, List.take_append_drop] at hrec
  have hhead : CutAlike (pre ++ next) ⟨tagRawData, pre.length, rawOf k next⟩ ↔
      fromUtf8Lossy (firstSegment (next.drop 3)) = fromUtf8Lossy (rawOf k next) := by
    rw [cutAlike_iff, hpart, Option.some.injEq, Prod.mk.injEq]
    exact and_iff_right rfl
  have hleft (heq : fromUtf8Lossy (firstSegment (next.drop 3)) = fromUtf8Lossy (rawOf k next)) :
      splitFields (next.drop (3 + (rawOf k next).length))
        = splitFields (behindSegment (next.drop 3)) := by
    rw [← List.drop_drop]
    exact splitFields_drop_raw heq
  rw [splitFields_step, hpart, behindSegment_raw hnext, List.forall_mem_cons, List.map_cons, hhead,
    Option.toList_some, List.singleton_append]
  constructor
  · intro heq
    obtain ⟨hfield, htail⟩ := List.cons.inj heq
    have htext := congrArg Prod.snd hfield
    exact ⟨htext, hrec.1 ((hleft htext).trans htail)⟩
  · rintro ⟨htext, hall⟩
    rw [htext, ← hleft htext, hrec.2 hall]
    rfl

/-- **Where cutting at the separators reads what the walk reads**: each field of the walk reads the
same cut at the first separator behind its start. -/
theorem splitFields_eq_iff (pre rest : Bytes) :
    splitFields rest = (fieldsFrom pre.length rest).map Field.read ↔
      ∀ f ∈ fieldsFrom pre.length rest, CutAlike (pre ++ rest) f := by
  induction hn : rest.length using Nat.strong_induction_on generalizing pre rest with
  | _ n ih =>
      subst hn
      by_cases hne : rest = []
      · rw [hne, fieldsFrom_nil, splitFields_nil]
        simp
      · have hshort := length_behindSegment hne
        have hbehind : splitFields (behindSegment rest)
              = (fieldsFrom (pre.length + (firstSegment rest).length + 1)
                  (behindSegment rest)).map Field.read ↔
            ∀ f ∈ fieldsFrom (pre.length + (firstSegment rest).length + 1) (behindSegment rest),
              CutAlike (pre ++ rest) f := by
          rcases behind_eq pre (firstSegment_cases rest) _ rfl with h | ⟨pre', hlen, hpre'⟩
          · rw [h, fieldsFrom_nil, splitFields_nil]
            simp
          · rw [← hlen, ← hpre']
            exact ih _ hshort pre' _ rfl
        have hpart := partField_eq (firstSegment rest)
        cases h : segment (firstSegment rest) with
        | none =>
            rw [h] at hpart
            rw [fieldsFrom_step_none hne _ h, splitFields_step, hpart]
            exact hbehind
        | some f =>
            rw [h] at hpart
            have halike : CutAlike (pre ++ rest) ⟨f.1, pre.length, f.2⟩ :=
              (cutAlike_iff pre rest f.1 f.2).2 hpart
            cases hraw : rawBlock f.1 f.2 (behindSegment rest) with
            | none =>
                rw [fieldsFrom_step_some hne _ h hraw, splitFields_step, hpart,
                  List.forall_mem_cons, List.map_cons, Option.map_some, Option.toList_some,
                  List.singleton_append]
                constructor
                · intro heq
                  exact ⟨halike, hbehind.1 (List.cons.inj heq).2⟩
                · rintro ⟨-, hall⟩
                  exact congrArg (_ :: ·) (hbehind.2 hall)
            | some k =>
                have hnext := rawBlock_eq_some hraw
                have hnil : behindSegment rest ≠ [] := fun hnil => by
                  rw [hnil] at hnext
                  exact absurd (List.append_eq_nil_iff.1 hnext.symm).1 (by decide)
                obtain ⟨pre', hlen, hpre'⟩ :=
                  (behind_eq pre (firstSegment_cases rest) _ rfl).resolve_left hnil
                rw [fieldsFrom_step_raw hne _ h hraw, splitFields_step, hpart, ← hlen, ← hpre']
                rw [← hpre'] at halike
                generalize behindSegment rest = next at hnext hshort halike ⊢
                have hblock := splitFields_block hnext (k := k) pre' fun pre'' rest hrest =>
                  ih _ (lt_of_le_of_lt hrest hshort) pre'' _ rfl
                rw [List.forall_mem_cons, List.map_cons, Option.map_some, Option.toList_some,
                  List.singleton_append]
                constructor
                · intro heq
                  exact ⟨halike, hblock.1 (List.cons.inj heq).2⟩
                · rintro ⟨-, hall⟩
                  exact congrArg (_ :: ·) (hblock.2 hall)

/-- The two readers agree on a message: the fields over header and repetitions are the fields of
the walk, in order; and one repetition is the map of the whole message. -/
structure ReadersAgree (data : Bytes) (startTag : ℕ) : Prop where
  flat : (distribute startTag (splitFields data)).header
      ++ (distribute startTag (splitFields data)).groups.flatten = textFields data
  one : (textFields data).countP (·.1 = startTag) = 1 →
    fixParseRepeating data startTag = [fixParse data]

/-- **The messages on which the two readers agree** are those whose every field reads the same cut
at the first separator behind its start; the start tag does not matter. -/
theorem repeating_reads_the_walk_iff (data : Bytes) (startTag : ℕ) :
    ReadersAgree data startTag ↔ ∀ f ∈ fields data, CutAlike data f := by
  have hiff := splitFields_eq_iff [] data
  rw [List.nil_append] at hiff
  constructor
  · intro h
    refine hiff.1 ?_
    rw [← distribute_flat startTag (splitFields data), h.flat]
    rfl
  · intro h
    have hsame : splitFields data = textFields data := hiff.2 h
    refine ⟨(distribute_flat _ _).trans hsame, fun hone => ?_⟩
    rw [← hsame] at hone
    rw [fixParseRepeating_one hone, hsame]
    rfl

lemma map_fst_splitFields (data : Bytes) : (splitFields data).map Prod.fst
    = (data.splitOn soh).filterMap fun part => (segment part).map Prod.fst := by
  rw [splitFields, List.map_filterMap]
  refine List.filterMap_congr fun part _ => ?_
  rw [partField_eq, Option.map_map]
  rfl

lemma countP_fst (fs : List (ℕ × String)) (tag : ℕ) :
    fs.countP (·.1 = tag) = (fs.map Prod.fst).countP (· = tag) := by
  rw [List.countP_map]
  rfl

def spelledGroup : Bytes := ascii "35=U\x0195=8\x0196=x\x0155=IBM\x0155=MSFT\x01"

/-- **A group invented from inside a block.**  The walk reads one start tag, behind a block of
eight bytes; cut at the separators there are two repetitions. -/
theorem group_invented : (textFields spelledGroup).map Prod.fst = [35, 95, 96, 55] ∧
    (fixParseRepeating spelledGroup 55).length = 2 ∧ ¬ ReadersAgree spelledGroup 55 := by
  have hread : WalksAs spelledGroup
      [(35, fromUtf8Lossy (ascii "U")), (95, fromUtf8Lossy (ascii "8")),
        (96, fromUtf8Lossy (ascii "x\x0155=IBM")), (55, fromUtf8Lossy (ascii "MSFT"))] := by
    have hfree : soh ∉ ascii "MSFT" ∧ soh ∉ ascii "8" ∧ soh ∉ ascii "U" := by decide
    have hlen : parse usizeBound (ascii "8") = some (ascii "x\x0155=IBM").length := by decide
    have hlast := walksAs_nil.cons (show 55 < u32Bound by decide) hfree.1
      fun _ _ => rawBlock_of_ne (by decide) _ _
    have hblock := hlast.block hfree.2.1 hlen
    exact hblock.cons (show 35 < u32Bound by decide) hfree.2.2
      fun _ _ => rawBlock_of_ne (by decide) _ _
  have hnil : textFields [] = [] := by rw [textFields_eq 0, fieldsFrom_nil]; rfl
  have hwalk := hread [] (by decide)
  rw [List.append_nil, hnil, List.append_nil] at hwalk
  have hcut : (splitFields spelledGroup).map Prod.fst = [35, 95, 96, 55, 55] := by
    rw [map_fst_splitFields]
    decide
  refine ⟨by rw [hwalk]; rfl, ?_, fun h => ?_⟩
  · rw [fixParseRepeating, List.length_map, length_distribute, countP_fst, hcut]
    rfl
  · have htags := congrArg (List.map Prod.fst) ((distribute_flat 55 _).symm.trans h.flat)
    rw [hcut, hwalk] at htags
    exact absurd htags (by decide)

end IbkrDx
