import IbkrDx.Contracts.Definition

/-!
# The contracts of a definition reply

`parse_secdef_responses` of `control/contracts`.  A record has no length: it runs from the symbol
that begins it to the next symbol behind which a type and an id are stated, and the last one on into
what the reply states once for all.

* **`each_contract_as_itself`** — each record is read as itself, whichever stand beside it.
-/

namespace IbkrDx.Contracts

open Decimal Texts

/-! ## The reader -/

def symbolField : Bytes := soh :: (text tagSymbol ++ [eqSign])

/-- What stands in front of the first symbol, and what stands from each to the next. -/
def symbolCuts : Bytes → Bytes × List Bytes
  | [] => ([], [])
  | b :: l =>
      let cuts := symbolCuts l
      if symbolField <+: b :: l then ([], (b :: cuts.1) :: cuts.2) else (b :: cuts.1, cuts.2)

def containsField (body : Bytes) (tag : ℕ) : Bool :=
  (body.splitOn soh).any fun part => decide (text tag ++ [eqSign] <+: part)

/-- Whether a symbol begins a contract: its type and its id stand behind it. -/
def namesAContract (body : Bytes) : Bool :=
  containsField body tagSecurityType && containsField body tagIbConId

/-- The records of a reply, with the one still open: each begins with the header, and what names no
contract belongs to the one open. -/
def cutRecords (header : Bytes) : Option Bytes → List Bytes → List Bytes
  | none, [] => []
  | some record, [] => [record]
  | record, body :: bodies =>
      if namesAContract body then
        record.toList ++ cutRecords header (some (header ++ body)) bodies
      else cutRecords header (record.map (· ++ body)) bodies

variable {V : Type}

def parseSecdefResponses [LinearOrder V] [Zero V] [One V] (nums : Figures V)
    (islandForNasdaq : Bool) (data : Bytes) : List (ContractDefinition V) :=
  let whole := (parseSecdefResponse nums islandForNasdaq data).toList
  let cuts := symbolCuts data
  if cuts.2.length < 2 then whole
  else
    let out := ((cutRecords cuts.1 none cuts.2).filterMap fun record =>
      parseSecdefRecord nums islandForNasdaq (parseOrderTypeTables data)
        (parseMarketClassifications data) (record ++ [soh])).map
      (nameTheIneligibilityReasons (ineligibilityDescriptions data))
    -- Records that all name the same contract are one contract described once.
    if 1 < out.length ∧ (out.all fun d => out.head?.all fun first => d.conId == first.conId) then
      whole
    else out

/-! ## Fields as they stand in a message -/

lemma encode_part (f : TextField) :
    Utf8.encode f.part = text f.1 ++ eqSign :: Utf8.encode f.2 := by
  have hequals (a : List Char) : Utf8.encode ('=' :: a) = eqSign :: Utf8.encode a := rfl
  have happend (a b : List Char) : Utf8.encode (a ++ b) = Utf8.encode a ++ Utf8.encode b :=
    List.flatMap_append
  rw [TextField.part, happend, encode_numeral, hequals]

variable {f : TextField}

lemma soh_not_mem_part (h : '\x01' ∉ f.2) : soh ∉ Utf8.encode f.part :=
  soh_not_mem_encode (separator_not_mem_part h)

lemma prefix_part_iff {tag : ℕ} (rest : Bytes) :
    text tag ++ [eqSign] <+: Utf8.encode f.part ++ rest ↔ tag = f.1 := by
  have hstop (n : ℕ) (l : Bytes) : (text n ++ eqSign :: l).takeWhile (· ≠ eqSign) = text n := by
    rw [List.takeWhile_append_of_pos, List.takeWhile_cons_of_neg (by simp), List.append_nil]
    intro b hb
    have hdigits : eqSign ∉ text n := not_mem_text (by decide) n
    exact decide_eq_true fun hcon => hdigits (hcon ▸ hb)
  rw [encode_part]
  constructor
  · rintro ⟨left, hleft⟩
    have htake := congrArg (List.takeWhile (· ≠ eqSign)) hleft
    rw [List.append_assoc, List.singleton_append, hstop, List.append_assoc, List.cons_append,
      hstop] at htake
    exact numeral_injective (congrArg (List.map fun b : UInt8 => Char.ofNat b.toNat) htake)
  · rintro rfl
    exact ⟨Utf8.encode f.2 ++ rest, by simp⟩

lemma stripField_part (tag : ℕ) (f : TextField) : stripField tag (Utf8.encode f.part) =
    if tag = f.1 then some (Utf8.encode f.2) else none := by
  have hhead : text tag ++ [eqSign] <+: Utf8.encode f.part ++ [] ↔ tag = f.1 :=
    prefix_part_iff []
  rw [List.append_nil] at hhead
  unfold stripField
  split_ifs with hp hf hf
  · subst hf
    rw [encode_part, List.append_cons, List.drop_left' (by simp)]
  · exact absurd (hhead.1 hp) hf
  · exact absurd (hhead.2 hf) hp
  · rfl

lemma stripField_nil (tag : ℕ) : stripField tag [] = none := by
  rw [stripField, if_neg]
  simp

/-- What may stand behind the fields of a record: nothing, or one more separator. -/
def Blank (m : Bytes) : Prop := m = [] ∨ m = [soh]

variable {m : Bytes}

lemma Blank.parts (h : Blank m) : ∀ part ∈ m.splitOn soh, part = [] := by
  rcases h with rfl | rfl
  · decide
  · decide

lemma Blank.fields (h : Blank m) : splitFields m = [] ∧ textFields m = [] := by
  rcases h with rfl | rfl
  · exact ⟨splitFields_nil, textFields_eq 0 [] |>.trans (by simp)⟩
  · have hnone : fieldsFrom 0 ([] ++ soh :: []) = fieldsFrom (0 + 0 + 1) [] :=
      fieldsFrom_none List.not_mem_nil 0 rfl
    refine ⟨by decide, ?_⟩
    rw [textFields_eq 0 [soh]]
    exact congrArg (List.map Field.read) (hnone.trans (fieldsFrom_nil _))

section

variable {fs : List TextField} {m : Bytes}

lemma splitOn_textFrame (h : Separate fs) (m : Bytes) : (textFrame fs ++ m).splitOn soh =
    fs.map (fun f => Utf8.encode f.part) ++ m.splitOn soh := by
  induction fs with
  | nil => rfl
  | cons f fs ih =>
      obtain ⟨hf, hfs⟩ := List.forall_mem_cons.1 h
      have hno : soh ∉ text f.1 ++ eqSign :: Utf8.encode f.2 := by
        rw [← encode_part]
        exact soh_not_mem_part hf.2.2
      rw [textFrame_cons, List.append_assoc, List.cons_append,
        List.splitOn_append_cons_self_of_not_mem hno, ih hfs, List.map_cons, encode_part,
        List.cons_append]

lemma tagSequence_textFrame (h : Separate fs) (hm : Blank m) :
    tagSequence (textFrame fs ++ m) = fs.map TextField.read := by
  induction fs with
  | nil => exact hm.fields.1
  | cons f fs ih =>
      obtain ⟨hf, hfs⟩ := List.forall_mem_cons.1 h
      rw [tagSequence, textFrame_cons, List.append_assoc, List.cons_append,
        splitFields_field hf.1 (soh_not_mem_encode hf.2.2), ← tagSequence, ih hfs, fromUtf8Lossy,
        Utf8.lossy_encode]
      rfl

lemma textFields_blank (h : Separate fs) (hm : Blank m) :
    textFields (textFrame fs ++ m) = fs.map TextField.read := by
  induction fs with
  | nil => exact hm.fields.2
  | cons f fs ih =>
      obtain ⟨⟨htag, hraw, hvalue⟩, hfs⟩ := List.forall_mem_cons.1 h
      rw [textFrame_cons, List.append_assoc, List.cons_append, textFields_eq 0,
        fieldsFrom_field htag (soh_not_mem_encode hvalue) (rawBlock_of_ne hraw _ _) 0,
        List.map_cons, ← textFields_eq, ih hfs, Field.read, fromUtf8Lossy, Utf8.lossy_encode]
      rfl

end

/-! ## The cut -/

def fronted (fs : List TextField) : Bytes := fs.flatMap fun f => soh :: Utf8.encode f.part

lemma fronted_append (fs gs : List TextField) : fronted (fs ++ gs) = fronted fs ++ fronted gs :=
  List.flatMap_append

lemma fronted_cons (f : TextField) (fs : List TextField) (y : Bytes) :
    fronted (f :: fs) ++ y = soh :: (Utf8.encode f.part ++ (fronted fs ++ y)) := by
  rw [fronted, List.flatMap_cons, ← fronted, List.append_assoc, List.cons_append]

lemma soh_textFrame (fs : List TextField) : soh :: textFrame fs = fronted fs ++ [soh] := by
  induction fs with
  | nil => rfl
  | cons f fs ih =>
      rw [textFrame_cons, ← encode_part, ih, fronted, fronted, List.flatMap_cons]
      simp only [List.append_assoc, List.cons_append]

lemma textFrame_fronted (f : TextField) (fs : List TextField) :
    textFrame (f :: fs) = Utf8.encode f.part ++ fronted fs ++ [soh] := by
  rw [textFrame_cons, ← encode_part, soh_textFrame, List.append_assoc]

lemma symbolCuts_segment {seg : Bytes} (h : soh ∉ seg) (y : Bytes) :
    symbolCuts (seg ++ y) = (seg ++ (symbolCuts y).1, (symbolCuts y).2) := by
  induction seg with
  | nil => rfl
  | cons b seg ih =>
      rw [List.mem_cons, not_or] at h
      have hno : ¬ symbolField <+: b :: (seg ++ y) := fun hcon =>
        h.1 (List.prefix_cons_iff.1 hcon |>.resolve_left (by simp [symbolField]) |>.elim
          fun _ hl => (List.cons.inj hl.1).1)
      rw [List.cons_append, symbolCuts, if_neg hno, ih h.2]
      rfl

lemma symbolCuts_field (hf : '\x01' ∉ f.2) (hsymbol : f.1 ≠ 55) (y : Bytes) :
    symbolCuts (soh :: (Utf8.encode f.part ++ y)) =
      (soh :: (Utf8.encode f.part ++ (symbolCuts y).1), (symbolCuts y).2) := by
  have hno : ¬ symbolField <+: soh :: (Utf8.encode f.part ++ y) := by
    rw [symbolField, List.prefix_cons_inj, prefix_part_iff]
    exact Ne.symm hsymbol
  rw [symbolCuts]
  rw [if_neg hno, symbolCuts_segment (soh_not_mem_part hf)]

lemma symbolCuts_symbol {v : List Char} (hv : '\x01' ∉ v) (y : Bytes) :
    symbolCuts (soh :: (Utf8.encode (TextField.part (55, v)) ++ y)) =
      ([], (soh :: (Utf8.encode (TextField.part (55, v)) ++ (symbolCuts y).1)) ::
        (symbolCuts y).2) := by
  have hyes : symbolField <+: soh :: (Utf8.encode (TextField.part (55, v)) ++ y) := by
    rw [symbolField, List.prefix_cons_inj, prefix_part_iff]
  rw [symbolCuts]
  rw [if_pos hyes, symbolCuts_segment (soh_not_mem_part hv)]

variable {fs : List TextField}

lemma symbolCuts_fronted (h : ∀ f ∈ fs, '\x01' ∉ f.2 ∧ f.1 ≠ 55)
    (y : Bytes) :
    symbolCuts (fronted fs ++ y) = (fronted fs ++ (symbolCuts y).1, (symbolCuts y).2) := by
  induction fs with
  | nil => rfl
  | cons f fs ih =>
      obtain ⟨hf, hfs⟩ := List.forall_mem_cons.1 h
      rw [fronted_cons, symbolCuts_field hf.1 hf.2, ih hfs, fronted_cons]

abbrev Chunk := List Char × List TextField

namespace Chunk

def fields (c : Chunk) : List TextField := (55, c.1) :: c.2

/-- A chunk whose texts can be told apart, with no other symbol in it. -/
def Sound (c : Chunk) : Prop := '\x01' ∉ c.1 ∧ ∀ f ∈ c.2, '\x01' ∉ f.2 ∧ f.1 ≠ 55

def body (c : Chunk) : Bytes := fronted c.fields

end Chunk

def appendLast (tail : Bytes) : List Bytes → List Bytes
  | [] => []
  | [b] => [b ++ tail]
  | b :: b' :: bs => b :: appendLast tail (b' :: bs)

variable {tail : Bytes}

lemma appendLast_cons {b : Bytes} {bs : List Bytes} (h : bs ≠ []) :
    appendLast tail (b :: bs) = b :: appendLast tail bs := by
  cases bs with
  | nil => exact absurd rfl h
  | cons b' bs => rfl

lemma appendLast_append (xs : List Bytes) {ys : List Bytes} (h : ys ≠ []) :
    appendLast tail (xs ++ ys) = xs ++ appendLast tail ys := by
  induction xs with
  | nil => rfl
  | cons x xs ih =>
      rw [List.cons_append, appendLast_cons (by simp [h]), ih, List.cons_append]

@[simp]
lemma length_appendLast (tail : Bytes) (bs : List Bytes) :
    (appendLast tail bs).length = bs.length := by
  induction bs with
  | nil => rfl
  | cons b bs ih =>
      cases bs with
      | nil => rfl
      | cons b' bs => rw [appendLast, List.length_cons, ih]; rfl

lemma symbolCuts_chunk {c : Chunk} (h : c.Sound) (y : Bytes) : symbolCuts (c.body ++ y) =
    ([], (c.body ++ (symbolCuts y).1) :: (symbolCuts y).2) := by
  rw [Chunk.body, Chunk.fields, fronted_cons, symbolCuts_symbol h.1, symbolCuts_fronted h.2,
    fronted_cons]

lemma symbolCuts_chunks {cs : List Chunk} (h : ∀ c ∈ cs, c.Sound) (hne : cs ≠ []) {y : Bytes}
    (hy : symbolCuts y = (y, [])) :
    symbolCuts (cs.flatMap Chunk.body ++ y) = ([], appendLast y (cs.map Chunk.body)) := by
  induction cs with
  | nil => exact absurd rfl hne
  | cons c cs ih =>
      obtain ⟨hc, hcs⟩ := List.forall_mem_cons.1 h
      rw [List.flatMap_cons, List.append_assoc, symbolCuts_chunk hc]
      cases cs with
      | nil =>
          rw [List.flatMap_nil, List.nil_append, hy]
          rfl
      | cons c' cs =>
          rw [ih hcs (by simp), List.append_nil]
          rfl

/-! ## The records cut -/

lemma splitOn_soh (l : Bytes) : (soh :: l).splitOn soh = [] :: l.splitOn soh := by
  have hno : soh ∉ ([] : Bytes) := List.not_mem_nil
  rw [← List.nil_append (soh :: l), List.splitOn_append_cons_self_of_not_mem hno]

lemma splitOn_fronted (h : Separate fs) (hm : Blank m) :
    ∃ blanks, (fronted fs ++ m).splitOn soh =
        [] :: fs.map (fun f => Utf8.encode f.part) ++ blanks ∧ ∀ part ∈ blanks, part = [] := by
  rcases hm with rfl | rfl
  · refine ⟨[], ?_, fun _ hno => absurd hno List.not_mem_nil⟩
    rw [List.append_nil, List.append_nil]
    induction fs with
    | nil => rfl
    | cons f fs ih =>
        obtain ⟨hf, hfs⟩ := List.forall_mem_cons.1 h
        have hrest := ih hfs
        rw [← List.append_nil (fronted (f :: fs)), fronted_cons, List.append_nil, splitOn_soh]
        cases fs with
        | nil =>
            rw [fronted, List.flatMap_nil, List.append_nil,
              List.splitOn_eq_singleton (soh_not_mem_part hf.2.2)]
            rfl
        | cons f' fs =>
            rw [← List.append_nil (fronted (f' :: fs)), fronted_cons, List.append_nil,
              splitOn_soh] at hrest
            rw [← List.append_nil (fronted (f' :: fs)), fronted_cons, List.append_nil,
              List.splitOn_append_cons_self_of_not_mem (soh_not_mem_part hf.2.2),
              (List.cons.inj hrest).2]
            rfl
  · refine ⟨[[]], ?_, by simp⟩
    rw [← soh_textFrame, splitOn_soh, ← List.append_nil (textFrame fs), splitOn_textFrame h]
    rfl

lemma containsField_fronted (h : Separate fs) (hm : Blank m)
    (tag : ℕ) : containsField (fronted fs ++ m) tag = fs.any fun f => decide (tag = f.1) := by
  obtain ⟨blanks, hparts, hblank⟩ := splitOn_fronted h hm
  have hnil : ¬ text tag ++ [eqSign] <+: ([] : Bytes) := by simp
  have hleft : (blanks.any fun part => decide (text tag ++ [eqSign] <+: part)) = false := by
    rw [List.any_eq_false]
    intro part hpart
    rw [hblank part hpart]
    simp
  have hpart (f : TextField) : (text tag ++ [eqSign] <+: Utf8.encode f.part) ↔ tag = f.1 := by
    rw [← prefix_part_iff (f := f) [], List.append_nil]
  rw [containsField, hparts, List.any_append, hleft, Bool.or_false, List.any_cons,
    decide_eq_false hnil, Bool.false_or, List.any_map]
  simp only [Function.comp_def, hpart]

def Names (fs : List TextField) : Bool :=
  (fs.any fun f => decide (167 = f.1)) && fs.any fun f => decide (6008 = f.1)

lemma namesAContract_fronted (h : Separate fs) (hm : Blank m) :
    namesAContract (fronted fs ++ m) = Names fs := by
  rw [namesAContract, containsField_fronted h hm, containsField_fronted h hm]
  rfl

lemma cutRecords_nil (header : Bytes) (record : Option Bytes) :
    cutRecords header record [] = record.toList := by
  cases record <;> rfl

lemma cutRecords_cons (header : Bytes) (record : Option Bytes) (body : Bytes)
    (bodies : List Bytes) : cutRecords header record (body :: bodies) =
      if namesAContract body then
        record.toList ++ cutRecords header (some (header ++ body)) bodies
      else cutRecords header (record.map (· ++ body)) bodies := by
  cases record <;> rfl

lemma cutRecords_some_ne_nil (header : Bytes) (bodies : List Bytes) :
    ∀ record, cutRecords header (some record) bodies ≠ [] := by
  induction bodies with
  | nil => exact fun record => List.cons_ne_nil _ _
  | cons body bodies ih =>
      intro record
      rw [cutRecords_cons]
      split_ifs
      · exact List.cons_ne_nil _ _
      · exact ih _

lemma cutRecords_appendLast (header : Bytes) {bodies : List Bytes}
    (h : ∀ b ∈ bodies, namesAContract (b ++ tail) = namesAContract b) (hne : bodies ≠ []) :
    ∀ record, cutRecords header record (appendLast tail bodies) =
      appendLast tail (cutRecords header record bodies) := by
  induction bodies with
  | nil => exact absurd rfl hne
  | cons body bodies ih =>
      obtain ⟨hbody, hbodies⟩ := List.forall_mem_cons.1 h
      intro record
      cases bodies with
      | nil =>
          rw [appendLast, cutRecords_cons, cutRecords_cons, hbody]
          split_ifs
          · rw [cutRecords_nil, cutRecords_nil, Option.toList_some, Option.toList_some,
              appendLast_append _ (List.cons_ne_nil _ _), ← List.append_assoc]
            rfl
          · rw [cutRecords_nil, cutRecords_nil]
            cases record with
            | none => rfl
            | some r =>
                rw [Option.map_some, Option.map_some, ← List.append_assoc]
                rfl
      | cons b' bodies =>
          rw [appendLast, cutRecords_cons, cutRecords_cons]
          split_ifs
          · rw [ih hbodies (List.cons_ne_nil _ _),
              appendLast_append _ (cutRecords_some_ne_nil header _ _)]
          · rw [ih hbodies (List.cons_ne_nil _ _)]

lemma cutRecords_unnamed (header : Bytes) {bodies : List Bytes}
    (h : ∀ b ∈ bodies, namesAContract b = false) (rest : List Bytes) :
    ∀ record, cutRecords header (some record) (bodies ++ rest) =
      cutRecords header (some (record ++ bodies.flatten)) rest := by
  induction bodies with
  | nil =>
      intro record
      rw [List.flatten_nil, List.append_nil]
      rfl
  | cons body bodies ih =>
      obtain ⟨hbody, hbodies⟩ := List.forall_mem_cons.1 h
      intro record
      rw [List.cons_append, cutRecords_cons, hbody, if_neg Bool.false_ne_true, Option.map_some,
        ih hbodies, List.flatten_cons, List.append_assoc]

/-! ## Records and replies -/

/-- A contract's record: its symbol, its own fields up to the first identifier, and the identifiers,
each with the fields behind it. -/
structure Record where
  symbol : List Char
  own : List TextField
  groups : List Chunk
  named : Names own = true
  whole : ∀ f ∈ own, f.1 ≠ 55
  untyped : ∀ g ∈ groups, ∀ f ∈ g.2, f.1 ≠ 55 ∧ f.1 ≠ 167

namespace Record

def chunks (r : Record) : List Chunk := (r.symbol, r.own) :: r.groups

def fields (r : Record) : List TextField := r.chunks.flatMap Chunk.fields

def conId (r : Record) : Option ℕ :=
  (((r.fields.map TextField.read).filter fun f => f.1 = tagIbConId).getLast?).bind fun f =>
    parseUnsigned f.2

end Record

lemma body_flatMap (cs : List Chunk) :
    (cs.map Chunk.body).flatten = fronted (cs.flatMap Chunk.fields) := by
  induction cs with
  | nil => rfl
  | cons c cs ih =>
      rw [List.map_cons, List.flatten_cons, ih, List.flatMap_cons, fronted_append]
      rfl

lemma Record.names_opening (r : Record) : Names (Chunk.fields (r.symbol, r.own)) = true := by
  have hnamed := r.named
  unfold Names at hnamed ⊢
  rw [Chunk.fields, List.any_cons, List.any_cons]
  exact hnamed

lemma Record.not_names_group (r : Record) {g : Chunk} (hg : g ∈ r.groups) :
    Names g.fields = false := by
  have huntyped : ∀ f ∈ g.2, decide (167 = f.1) = false := fun f hf =>
    decide_eq_false (Ne.symm (r.untyped g hg f hf).2)
  rw [Names, Chunk.fields, List.any_cons, List.any_eq_false.2 fun f hf => by
    rw [huntyped f hf]
    exact Bool.false_ne_true]
  rfl

lemma Record.separate_chunk {r : Record} (h : Separate r.fields) {c : Chunk} (hc : c ∈ r.chunks) :
    Separate c.fields :=
  fun f hf => h f (List.mem_flatMap.2 ⟨c, hc, hf⟩)

lemma cutRecords_record (header : Bytes) {r : Record} (h : Separate r.fields)
    (record : Option Bytes) (rest : List Bytes) :
    cutRecords header record (r.chunks.map Chunk.body ++ rest) =
      record.toList ++ cutRecords header (some (header ++ fronted r.fields)) rest := by
  have hnames {c : Chunk} (hc : c ∈ r.chunks) : namesAContract c.body = Names c.fields := by
    rw [← namesAContract_fronted (Record.separate_chunk h hc) (Or.inl rfl), List.append_nil]
    rfl
  have hopening : namesAContract (Chunk.body (r.symbol, r.own)) = true :=
    (hnames List.mem_cons_self).trans r.names_opening
  have hgroups : ∀ b ∈ r.groups.map Chunk.body, namesAContract b = false := by
    intro b hb
    obtain ⟨g, hg, rfl⟩ := List.mem_map.1 hb
    exact (hnames (List.mem_cons_of_mem _ hg)).trans (r.not_names_group hg)
  rw [Record.chunks, List.map_cons, List.cons_append, cutRecords_cons, hopening, if_pos rfl,
    cutRecords_unnamed header hgroups, body_flatMap, List.append_assoc, Chunk.body,
    ← fronted_append]
  rfl

lemma cutRecords_records (header : Bytes) {rs : List Record} (h : ∀ r ∈ rs, Separate r.fields) :
    ∀ record, cutRecords header record ((rs.flatMap Record.chunks).map Chunk.body) =
      record.toList ++ rs.map fun r => header ++ fronted r.fields := by
  induction rs with
  | nil =>
      intro record
      rw [List.map_nil, List.append_nil]
      exact cutRecords_nil header record
  | cons r rs ih =>
      obtain ⟨hr, hrs⟩ := List.forall_mem_cons.1 h
      intro record
      rw [List.flatMap_cons, List.map_append, cutRecords_record header hr, ih hrs]
      rfl

/-! ## Replies -/

/-- The tags of what a reply states once: what opens a section, and the ineligibility reasons. -/
abbrev sharedTags : List ℕ := sectionTags ++ [tagIneligibilityId, tagIneligibilityDescription]

/-- A definition reply: its header, two or more records with ids of their own, and behind them what
the reply states once. -/
structure DefinitionReply where
  header : List TextField
  records : List Record
  sections : List TextField
  separate : Separate (header ++ records.flatMap Record.fields ++ sections)
  headed : header ≠ []
  typed : insertAll (header.map TextField.read) (fun _ => none) tagMsgType = some "d"
  header_own : ∀ f ∈ header, f.1 ≠ 55 ∧ f.1 ∉ sharedTags
  several : 2 ≤ records.length
  distinct : (records.map Record.conId).Nodup
  records_own : ∀ r ∈ records, ∀ f ∈ r.fields, f.1 ≠ tagMsgType ∧ f.1 ∉ sharedTags
  sections_own : ∀ f ∈ sections, f.1 ≠ 55 ∧ f.1 ≠ tagMsgType

def lastStated (fs : List TextField) (t : ℕ) : Option String :=
  insertAll (fs.map TextField.read) (fun _ => none) t

/-- What stands behind leaves what is stated last under a tag. -/
abbrev Unmoved (fs gs : List TextField) (t : ℕ) : Prop := lastStated (fs ++ gs) t = lastStated fs t

/-- The key a record's order types are looked up under: the first it states. -/
def statedKey (fs : List TextField) : Option String :=
  ((fs.map TextField.read).find? fun f => f.1 = tagIbOrderTypeKey).map Prod.snd

/-- Sections that leave what the fields in front of them are read by: the last value under each tag
looked up, or looked up where another states nothing; the first exchange and the first key; no type
and no identifier; order types only where a table is read in their place; no increment rule, no
rule's id in front of the rules and no id in front of the first section. -/
structure Silent (fs gs : List TextField) : Prop where
  unread : ∀ t ∈ keyedTags, Unmoved fs gs t
  expiry : (lastStated fs 8383).getD "" = "" → Unmoved fs gs 6614
  appended : (lastStated fs 6494).getD "" = "" → Unmoved fs gs 6853
  exchanged : (∃ f ∈ fs, f.1 = tagSecurityExchange) ∨ ∀ g ∈ gs, g.1 ≠ tagSecurityExchange
  unnamed : ∀ g ∈ gs, g.1 ≠ 167 ∧ g.1 ≠ 456
  ordered : Unmoved fs gs tagIbOrderTypes ∨ (statedKey fs).getD "" ≠ "" ∨
    parseOrderTypeTables (textFrame gs) ≠ []
  ruleless : statesRule false (gs.map TextField.read) = false
  unruled : ∀ g ∈ gs.takeWhile fun g => decide (g.1 ≠ tagMarketRuleStart), g.1 ≠ tagMarketRuleId
  opened : ∀ g ∈ gs.takeWhile fun g => decide (g.1 ∉ sectionTags), g.1 ≠ tagIbConId
  keyed : (∃ f ∈ fs, f.1 = tagIbOrderTypeKey) ∨
    ∀ g ∈ gs.takeWhile fun g => decide (g.1 ∉ sectionTags), g.1 ≠ tagIbOrderTypeKey

structure Readable [Zero V] [One V] (nums : Figures V) (header : List TextField) (r : Record) :
    Prop where
  conId : r.conId.isSome
  multiplier : (readOr nums.parse 1 (insertAll ((header ++ r.fields).map TextField.read)
    (fun _ => none) tagMultiplier)).isSome
  strike : (readOr nums.parse 0 (insertAll ((header ++ r.fields).map TextField.read)
    (fun _ => none) 202)).isSome
  underConId : (readOr parseUnsigned 0 (insertAll ((header ++ r.fields).map TextField.read)
    (fun _ => none) tagUnderlyingConId)).isSome

namespace DefinitionReply

def message (w : DefinitionReply) : Bytes :=
  textFrame (w.header ++ w.records.flatMap Record.fields ++ w.sections)

end DefinitionReply

/-- What a record is read as by itself, with what its reply states once. -/
def ownDefinition [LinearOrder V] [Zero V] [One V] (nums : Figures V) (islandForNasdaq : Bool)
    (header sections : List TextField) (r : Record) : Option (ContractDefinition V) :=
  (parseSecdefRecord nums islandForNasdaq (parseOrderTypeTables (textFrame sections))
    (parseMarketClassifications (textFrame sections)) (textFrame (header ++ r.fields))).map
    (nameTheIneligibilityReasons (ineligibilityDescriptions (textFrame sections)))

/-! ## What a reply states once is read from anywhere -/

lemma foldl_unchanged {σ : Type} {step : σ → ℕ × String → σ} {s : σ}
    (h : ∀ f ∈ fs, step s f.read = s) : (fs.map TextField.read).foldl step s = s := by
  induction fs with
  | nil => rfl
  | cons f fs ih =>
      obtain ⟨hf, hfs⟩ := List.forall_mem_cons.1 h
      rw [List.map_cons, List.foldl_cons, hf, ih hfs]

section

variable {fs gs : List TextField} {m : Bytes}

lemma tagSequence_frame (h : Separate fs) : tagSequence (textFrame fs) = fs.map TextField.read := by
  rw [← List.append_nil (textFrame fs), tagSequence_textFrame h (Or.inl rfl)]

lemma tableStep_unshared {f : TextField} (h : f.1 ∉ sharedTags) :
    TableWalk.step {} f.read = {} := by
  have hno : f.read.1 ≠ 6432 := fun hcon => h (by rw [show f.1 = _ from hcon]; decide)
  rw [TableWalk.step, if_neg hno]
  split_ifs <;> simp_all

lemma detailsStep_unshared {f : TextField} (h : f.1 ∉ sharedTags) :
    DetailsWalk.step {} f.read = {} := by
  have hno : f.read.1 ≠ 6344 := fun hcon => h (by rw [show f.1 = _ from hcon]; decide)
  rw [DetailsWalk.step, if_neg hno]
  split_ifs <;> simp_all

lemma reasonStep_unshared {f : TextField} (h : f.1 ∉ sharedTags) :
    reasonStep ("", []) f.read = ("", []) := by
  have hno : f.read.1 ≠ tagIneligibilityId := fun hcon => h (by rw [show f.1 = _ from hcon]; decide)
  rw [reasonStep, if_neg hno]
  split_ifs <;> simp_all

lemma tables_append (h : Separate (fs ++ gs)) (hm : Blank m) (hfs : ∀ f ∈ fs, f.1 ∉ sharedTags) :
    parseOrderTypeTables (textFrame (fs ++ gs) ++ m) = parseOrderTypeTables (textFrame gs) ∧
      parseMarketClassifications (textFrame (fs ++ gs) ++ m) =
        parseMarketClassifications (textFrame gs) ∧
      ineligibilityDescriptions (textFrame (fs ++ gs) ++ m) =
        ineligibilityDescriptions (textFrame gs) := by
  have hgs : Separate gs := fun g hg => h g (List.mem_append_right _ hg)
  unfold parseOrderTypeTables parseMarketClassifications ineligibilityDescriptions
  rw [tagSequence_textFrame h hm, tagSequence_frame hgs, List.map_append, List.foldl_append,
    List.foldl_append, List.foldl_append, foldl_unchanged fun f hf => tableStep_unshared (hfs f hf),
    foldl_unchanged fun f hf => detailsStep_unshared (hfs f hf),
    foldl_unchanged fun f hf => reasonStep_unshared (hfs f hf)]
  exact ⟨rfl, rfl, rfl⟩

end

/-! ## A record's own fields, with the sections behind them -/

lemma lookup_append {t : ℕ} (fs : List TextField) {gs : List TextField} (h : ∀ g ∈ gs, g.1 ≠ t) :
    insertAll ((fs ++ gs).map TextField.read) (fun _ => none) t =
      insertAll (fs.map TextField.read) (fun _ => none) t := by
  rw [List.map_append, insertAll_append, insertAll_of_not_mem]
  rw [List.map_map, List.mem_map]
  rintro ⟨g, hg, hcon⟩
  exact h g hg hcon

lemma fixParse_frame (h : Separate fs) (hm : Blank m) :
    fixParse (textFrame fs ++ m) = insertAll (fs.map TextField.read) fun _ => none := by
  rw [fixParse, textFields_blank h hm]

section

variable {fs gs : List TextField} {m : Bytes}

lemma findSome_part (t : ℕ) {gs : List TextField} (h : ∀ g ∈ gs, g.1 ≠ t) :
    (gs.map fun f => Utf8.encode f.part).findSome? (stripField t) = none := by
  rw [List.findSome?_eq_none_iff]
  intro part hpart
  obtain ⟨g, hg, rfl⟩ := List.mem_map.1 hpart
  rw [stripField_part, if_neg (Ne.symm (h g hg))]

lemma exists_part {t : ℕ} {fs : List TextField} (h : ∃ f ∈ fs, f.1 = t) :
    ∃ v, (fs.map fun f => Utf8.encode f.part).findSome? (stripField t) = some v := by
  obtain ⟨f, hf, rfl⟩ := h
  refine Option.ne_none_iff_exists'.1 fun hnone => ?_
  have hthis := List.findSome?_eq_none_iff.1 hnone _ (List.mem_map_of_mem hf)
  rw [stripField_part, if_pos rfl] at hthis
  exact Option.some_ne_none _ hthis

lemma firstOf_append (h : Separate (fs ++ gs)) (hm : Blank m) {t : ℕ}
    (hgs : (∃ f ∈ fs, f.1 = t) ∨ ∀ g ∈ gs, g.1 ≠ t) :
    firstOf t (textFrame (fs ++ gs) ++ m) = firstOf t (textFrame fs) := by
  have hfs : Separate fs := fun f hf => h f (List.mem_append_left _ hf)
  have hblank {m : Bytes} (hm : Blank m) : (m.splitOn soh).findSome? (stripField t) = none := by
    rw [List.findSome?_eq_none_iff]
    intro part hpart
    rw [hm.parts part hpart, stripField_nil]
  rw [firstOf, firstOf, splitOn_textFrame h, ← List.append_nil (textFrame fs),
    splitOn_textFrame hfs, List.findSome?_append, List.findSome?_append, hblank hm,
    hblank (Or.inl rfl), Option.or_none, Option.or_none, List.map_append, List.findSome?_append]
  rcases hgs with hown | hgs
  · obtain ⟨v, hv⟩ := exists_part hown
    rw [hv, Option.some_or]
  · rw [findSome_part t hgs, Option.or_none]

/-- Two walks over the identifiers that have found the same. -/
structure SecIds.Alike (s s' : SecIds) : Prop where
  secIdList : s.secIdList = s'.secIdList
  cusip : s.cusip = s'.cusip
  isin : s.isin = s'.isin

lemma secIds_unread {parts : List Bytes} (h : ∀ p ∈ parts, stripField 456 p = none) (s : SecIds) :
    (parts.foldl SecIds.step s).Alike s := by
  induction parts generalizing s with
  | nil => exact ⟨rfl, rfl, rfl⟩
  | cons p parts ih =>
      obtain ⟨hkind, hparts⟩ := List.forall_mem_cons.1 h
      have hstep : (s.step p).Alike s := by
        rw [SecIds.step, hkind]
        cases stripField 455 p with
        | none => exact ⟨rfl, rfl, rfl⟩
        | some value => exact ⟨rfl, rfl, rfl⟩
      have hrest := ih hparts (s.step p)
      exact ⟨hrest.secIdList.trans hstep.secIdList, hrest.cusip.trans hstep.cusip,
        hrest.isin.trans hstep.isin⟩

lemma secIds_append (h : Separate (fs ++ gs)) (hm : Blank m) (hgs : ∀ g ∈ gs, g.1 ≠ 456) :
    (((textFrame (fs ++ gs) ++ m).splitOn soh).foldl SecIds.step {}).Alike
      (((textFrame fs).splitOn soh).foldl SecIds.step {}) := by
  have hfs : Separate fs := fun f hf => h f (List.mem_append_left _ hf)
  have hbehind : ∀ p ∈ (gs.map fun f => Utf8.encode f.part) ++ m.splitOn soh,
      stripField 456 p = none := by
    intro p hp
    rcases List.mem_append.1 hp with hp | hp
    · obtain ⟨g, hg, rfl⟩ := List.mem_map.1 hp
      rw [stripField_part, if_neg (Ne.symm (hgs g hg))]
    · rw [hm.parts p hp, stripField_nil]
  have hblank : (textFrame fs).splitOn soh = (fs.map fun f => Utf8.encode f.part) ++ [[]] := by
    rw [← List.append_nil (textFrame fs), splitOn_textFrame hfs]
    rfl
  have hnone : ∀ p ∈ ([[]] : List Bytes), stripField 456 p = none := by
    intro p hp
    rw [List.mem_singleton.1 hp, stripField_nil]
  have hfold (parts parts' : List Bytes) : (parts ++ parts').foldl SecIds.step {} =
      parts'.foldl SecIds.step (parts.foldl SecIds.step {}) := List.foldl_append
  rw [splitOn_textFrame h, hblank, List.map_append, List.append_assoc, hfold, hfold _ [[]]]
  have hleft := secIds_unread hbehind ((fs.map fun f => Utf8.encode f.part).foldl SecIds.step {})
  have hright := secIds_unread hnone ((fs.map fun f => Utf8.encode f.part).foldl SecIds.step {})
  exact ⟨hleft.secIdList.trans hright.secIdList.symm, hleft.cusip.trans hright.cusip.symm,
    hleft.isin.trans hright.isin.symm⟩

lemma walk_append (nums : Figures V) (h : Separate (fs ++ gs)) (hm : Blank m)
    (hfs : ∀ f ∈ fs, f.1 ∉ sharedTags) (hsymbol : ∀ g ∈ gs, g.1 ≠ 55) (hgs : Silent fs gs) :
    walk nums (textFrame (fs ++ gs) ++ m) = walk nums (textFrame fs) := by
  have hf : Separate fs := fun f hf => h f (List.mem_append_left _ hf)
  have hstart : ∀ f ∈ fs.map TextField.read, f.1 ≠ tagMarketRuleStart := by
    intro f hf
    obtain ⟨g, hg, rfl⟩ := List.mem_map.1 hf
    exact fun hcon => hfs g hg (by rw [show g.1 = _ from hcon]; decide)
  have hsection : ∀ f ∈ fs.map TextField.read, decide (f.1 ∉ sectionTags) = true := by
    intro f hf
    obtain ⟨g, hg, rfl⟩ := List.mem_map.1 hf
    exact decide_eq_true fun hcon => hfs g hg (List.mem_append_left _ hcon)
  have hno : ∀ f ∈ fs.map TextField.read, decide (f.1 ≠ tagMarketRuleStart) = true := fun f hf =>
    decide_eq_true (hstart f hf)
  have hids : ((gs.map TextField.read).takeWhile (fun f => decide (f.1 ∉ sectionTags))).filter
      (fun f => decide (f.1 = tagIbConId)) = [] := by
    rw [List.takeWhile_map]
    refine List.filter_eq_nil_iff.2 fun f hf hcon => ?_
    obtain ⟨g, hg, rfl⟩ := List.mem_map.1 hf
    exact hgs.opened g hg (of_decide_eq_true hcon)
  have hkeys : ((fs.map TextField.read).find? fun f => decide (f.1 = tagIbOrderTypeKey)).or
      (((gs.map TextField.read).takeWhile (fun f => decide (f.1 ∉ sectionTags))).find?
        (fun f => decide (f.1 = tagIbOrderTypeKey))) =
      (fs.map TextField.read).find? fun f => decide (f.1 = tagIbOrderTypeKey) := by
    rcases hgs.keyed with ⟨f, hfs, hkey⟩ | hnone
    · refine Option.or_of_isSome (List.find?_isSome.2 ⟨f.read, List.mem_map_of_mem hfs, ?_⟩)
      exact decide_eq_true hkey
    · have hno : ((gs.map TextField.read).takeWhile (fun f => decide (f.1 ∉ sectionTags))).find?
          (fun f => decide (f.1 = tagIbOrderTypeKey)) = none := by
        rw [List.takeWhile_map]
        refine List.find?_eq_none.2 fun f hf hcon => ?_
        obtain ⟨g, hg, rfl⟩ := List.mem_map.1 hf
        exact hnone g hg (of_decide_eq_true hcon)
      rw [hno, Option.or_none]
  have hrules : ((gs.map TextField.read).takeWhile
      (fun f => decide (f.1 ≠ tagMarketRuleStart))).filter
      (fun f => decide (f.1 = tagMarketRuleId)) = [] := by
    rw [List.takeWhile_map]
    refine List.filter_eq_nil_iff.2 fun f hf hcon => ?_
    obtain ⟨g, hg, rfl⟩ := List.mem_map.1 hf
    exact hgs.unruled g hg (of_decide_eq_true hcon)
  have hall {p : ℕ × String → Bool} (hp : ∀ f ∈ fs.map TextField.read, p f = true) :
      (fs.map TextField.read).takeWhile p = fs.map TextField.read :=
    List.takeWhile_eq_self_iff.2 hp
  have hbare : parseMarketRules nums (textFrame fs) = [] := by
    rw [parseMarketRules, tagSequence_frame hf]
    refine marketRules_eq_nil ?_
    rw [← List.append_nil (fs.map TextField.read), statesRule_append hstart]
    rfl
  have hbehind : parseMarketRules nums (textFrame (fs ++ gs) ++ m) = [] := by
    rw [parseMarketRules, tagSequence_textFrame h hm, List.map_append]
    exact marketRules_eq_nil ((statesRule_append hstart).trans hgs.ruleless)
  obtain ⟨hlist, hcusip, hisin⟩ := secIds_append h hm fun g hg => (hgs.unnamed g hg).2
  unfold walk
  rw [hbare, hbehind, firstOf_append h hm (Or.inr hsymbol), firstOf_append h hm hgs.exchanged,
    tagSequence_textFrame h hm, tagSequence_frame hf, List.map_append]
  dsimp only
  rw [hlist, hcusip, hisin]
  rw [List.takeWhile_append_of_pos hsection, List.takeWhile_append_of_pos hno, hall hsection,
    hall hno, List.filter_append, List.filter_append, hids, hrules, List.find?_append, hkeys,
    List.append_nil, List.append_nil]

lemma orderTypeKey_walk (nums : Figures V) (h : Separate fs) (hfs : ∀ f ∈ fs, f.1 ∉ sharedTags) :
    (walk nums (textFrame fs)).orderTypeKey = statedKey fs := by
  have hall : ∀ f ∈ fs.map TextField.read, decide (f.1 ∉ sectionTags) = true := by
    intro f hf
    obtain ⟨g, hg, rfl⟩ := List.mem_map.1 hf
    exact decide_eq_true fun hcon => hfs g hg (List.mem_append_left _ hcon)
  rw [walk, tagSequence_frame h]
  dsimp only
  rw [List.takeWhile_eq_self_iff.2 hall]
  rfl

end

/-! ## A record read as itself -/

lemma nameTheIneligibilityReasons_nil (d : ContractDefinition V) :
    nameTheIneligibilityReasons [] d = d := by
  have hsame : ∀ p : String × String,
      (if p.2 ≠ "" then p else (p.1, p.2)) = p := fun p => by split_ifs <;> rfl
  unfold nameTheIneligibilityReasons
  simp only [List.reverse_nil, List.find?_nil, Option.map_none, Option.getD_none]
  rw [show d.ineligibilityReasonList.map (fun p : String × String =>
    if p.2 ≠ "" then p else (p.1, p.2)) = d.ineligibilityReasonList from
    (List.map_congr_left fun p _ => hsame p).trans (List.map_id _)]

lemma nameTheIneligibilityReasons_twice (table : List (String × String))
    (d : ContractDefinition V) :
    nameTheIneligibilityReasons table (nameTheIneligibilityReasons table d) =
      nameTheIneligibilityReasons table d := by
  unfold nameTheIneligibilityReasons
  dsimp only
  rw [List.map_map]
  congr 1
  refine List.map_congr_left fun p _ => ?_
  obtain ⟨id, description⟩ := p
  simp only [Function.comp_apply]
  split_ifs with h h'
  · rfl
  · rfl
  · rw [not_not] at h
    subst h
    rw [not_not] at h'
    rw [h']

variable [LinearOrder V] [Zero V] [One V]

section

variable {fs gs : List TextField} {m : Bytes}

lemma parseSecdefRecord_append (nums : Figures V) (islandForNasdaq : Bool)
    (classifications : ℕ → Option String) (h : Separate (fs ++ gs)) (hm : Blank m)
    (hfs : ∀ f ∈ fs, f.1 ∉ sharedTags) (hown : ∀ g ∈ gs, g.1 ≠ 55 ∧ g.1 ≠ tagMsgType)
    (hgs : Silent fs gs) :
    (parseSecdefRecord nums islandForNasdaq (parseOrderTypeTables (textFrame gs)) classifications
        (textFrame (fs ++ gs) ++ m)).map
      (nameTheIneligibilityReasons (ineligibilityDescriptions (textFrame gs))) =
    (parseSecdefRecord nums islandForNasdaq (parseOrderTypeTables (textFrame gs)) classifications
        (textFrame fs)).map
      (nameTheIneligibilityReasons (ineligibilityDescriptions (textFrame gs))) := by
  have hf : Separate fs := fun f hf => h f (List.mem_append_left _ hf)
  have hnone : ineligibilityDescriptions (textFrame fs) = [] := by
    have hempty : Separate (fs ++ []) := by rwa [List.append_nil]
    have hshared := (tables_append hempty (Or.inl rfl) hfs).2.2
    rw [List.append_nil, List.append_nil] at hshared
    rw [hshared]
    rfl
  have hbare (t : ℕ) : fixParse (textFrame fs) t = lastStated fs t := by
    rw [← List.append_nil (textFrame fs), fixParse_frame hf (Or.inl rfl), lastStated]
  have hlookup {t : ℕ} (ht : Unmoved fs gs t) : fixParse (textFrame (fs ++ gs) ++ m) t =
      fixParse (textFrame fs) t := by
    rw [fixParse_frame h hm, hbare]
    exact ht
  have htags : ∀ t ∈ keyedTags, fixParse (textFrame (fs ++ gs) ++ m) t =
      fixParse (textFrame fs) t := fun t ht => hlookup (hgs.unread t ht)
  have htype : Unmoved fs gs tagMsgType := lookup_append fs fun g hg => (hown g hg).2
  have hsecond {t u : ℕ} (ht : t ∈ keyedTags)
      (hu : (lastStated fs t).getD "" = "" → Unmoved fs gs u)
      (hnone : stated (fixParse (textFrame (fs ++ gs) ++ m)) t = "") :
      fixParse (textFrame (fs ++ gs) ++ m) u = fixParse (textFrame fs) u := by
    rw [stated, htags t ht, hbare] at hnone
    exact hlookup (hu hnone)
  have horder : applyOrderTypeTable (parseOrderTypeTables (textFrame gs))
      ((walk nums (textFrame fs)).orderTypeKey.getD "")
      ((fixParse (textFrame (fs ++ gs) ++ m) tagIbOrderTypes).elim [] (splitText ',')) =
      applyOrderTypeTable (parseOrderTypeTables (textFrame gs))
        ((walk nums (textFrame fs)).orderTypeKey.getD "")
        ((fixParse (textFrame fs) tagIbOrderTypes).elim [] (splitText ',')) := by
    rw [orderTypeKey_walk nums hf hfs]
    rcases hgs.ordered with hsame | hread
    · rw [hlookup hsame]
    · exact applyOrderTypeTable_of_ne hread _ _
  unfold parseSecdefRecord
  rw [walk_append nums h hm hfs (fun g hg => (hown g hg).1) hgs,
    readDefinition_congr (hlookup htype) horder (hsecond (by decide) hgs.expiry)
      (hsecond (by decide) hgs.appended) htags,
    (tables_append h hm hfs).2.2, hnone, Option.map_map, Option.map_map]
  congr 1
  funext d
  rw [Function.comp_apply, Function.comp_apply, nameTheIneligibilityReasons_twice,
    nameTheIneligibilityReasons_nil]

end

/-! ## The whole reply -/

lemma exists_header {header : List TextField} (hne : header ≠ [])
    (h : ∀ f ∈ header, '\x01' ∉ f.2 ∧ f.1 ≠ 55) :
    ∃ bytes : Bytes, (∀ fs, textFrame (header ++ fs) = bytes ++ fronted fs ++ [soh]) ∧
      ∀ y, symbolCuts (bytes ++ y) = (bytes ++ (symbolCuts y).1, (symbolCuts y).2) := by
  obtain ⟨f, rest, rfl⟩ := List.exists_cons_of_ne_nil hne
  obtain ⟨hf, hrest⟩ := List.forall_mem_cons.1 h
  refine ⟨Utf8.encode f.part ++ fronted rest, fun fs => ?_, fun y => ?_⟩
  · rw [List.cons_append, textFrame_fronted, fronted_append]
    simp only [List.append_assoc]
  · rw [List.append_assoc, symbolCuts_segment (soh_not_mem_part hf.1), symbolCuts_fronted hrest,
      List.append_assoc]

lemma fronted_flatMap (cs : List Chunk) :
    cs.flatMap Chunk.body = fronted (cs.flatMap Chunk.fields) := by
  rw [← body_flatMap, List.flatMap_def]

lemma filterMap_appendLast {β : Type} {g : Bytes → Option β} {xs : List Bytes}
    (h : ∀ x ∈ xs.getLast?, g (x ++ tail) = g x) :
    (appendLast tail xs).filterMap g = xs.filterMap g := by
  induction xs with
  | nil => rfl
  | cons x xs ih =>
      cases xs with
      | nil => rw [appendLast, List.filterMap_cons, List.filterMap_cons, h x rfl]
      | cons x' xs =>
          have hxs := ih fun y hy => h y (List.getLast?_cons_cons.trans hy)
          rw [appendLast, List.filterMap_cons, List.filterMap_cons, hxs]

namespace DefinitionReply

variable {w : DefinitionReply}

lemma separate_record (w : DefinitionReply) {r : Record} (hr : r ∈ w.records) :
    Separate (w.header ++ r.fields ++ w.sections) := by
  have hsub : ∀ f ∈ r.fields, f ∈ w.records.flatMap Record.fields := fun f hf =>
    List.mem_flatMap.2 ⟨r, hr, hf⟩
  intro f hf
  refine w.separate f ?_
  rcases List.mem_append.1 hf with hf | hf
  · rcases List.mem_append.1 hf with hf | hf
    · exact List.mem_append_left _ (List.mem_append_left _ hf)
    · exact List.mem_append_left _ (List.mem_append_right _ (hsub f hf))
  · exact List.mem_append_right _ hf

lemma unshared (w : DefinitionReply) {r : Record} (hr : r ∈ w.records) :
    ∀ f ∈ w.header ++ r.fields, f.1 ∉ sharedTags := by
  intro f hf
  rcases List.mem_append.1 hf with hf | hf
  · exact (w.header_own f hf).2
  · exact (w.records_own r hr f hf).2

lemma names_append_left {fs gs : List TextField} (h : Names fs = true) :
    Names (fs ++ gs) = true := by
  unfold Names at h ⊢
  rw [Bool.and_eq_true] at h
  rw [List.any_append, List.any_append, h.1, h.2]
  rfl

/-- Where the sections leave what the last record is read by, which runs on into them. -/
def Unread (w : DefinitionReply) : Prop :=
  ∀ r ∈ w.records.getLast?, Silent (w.header ++ r.fields) w.sections

lemma Unread.unnamed (hunread : w.Unread) : ∀ f ∈ w.sections, f.1 ≠ 167 := by
  cases hlast : w.records.getLast? with
  | none =>
      have hseveral := w.several
      rw [List.getLast?_eq_none_iff.1 hlast] at hseveral
      exact absurd hseveral (by simp)
  | some r => exact fun f hf => ((hunread r hlast).unnamed f hf).1

lemma cut_message (w : DefinitionReply) (hunread : w.Unread) :
    ∃ bytes : Bytes, (∀ fs, textFrame (w.header ++ fs) = bytes ++ fronted fs ++ [soh]) ∧
      (symbolCuts w.message).1 = bytes ∧ 2 ≤ (symbolCuts w.message).2.length ∧
      cutRecords bytes none (symbolCuts w.message).2 =
        appendLast (fronted w.sections ++ [soh])
          (w.records.map fun r => bytes ++ fronted r.fields) := by
  have hsound : ∀ f ∈ w.header ++ w.records.flatMap Record.fields ++ w.sections, '\x01' ∉ f.2 :=
    fun f hf => (w.separate f hf).2.2
  obtain ⟨bytes, hframe, hcuts⟩ := exists_header w.headed fun f hf =>
    ⟨hsound f (List.mem_append_left _ (List.mem_append_left _ hf)), (w.header_own f hf).1⟩
  have hseparate : ∀ r ∈ w.records, Separate r.fields := fun r hr f hf =>
    w.separate_record hr f (List.mem_append_left _ (List.mem_append_right _ hf))
  have hsections : ∀ f ∈ w.sections, '\x01' ∉ f.2 ∧ f.1 ≠ 55 := fun f hf =>
    ⟨hsound f (List.mem_append_right _ hf), (w.sections_own f hf).1⟩
  have hchunks : ∀ c ∈ w.records.flatMap Record.chunks, c.Sound := by
    intro c hc
    obtain ⟨r, hr, hc⟩ := List.mem_flatMap.1 hc
    have hsep := Record.separate_chunk (hseparate r hr) hc
    refine ⟨(hsep (55, c.1) List.mem_cons_self).2.2, fun f hf =>
      ⟨(hsep f (List.mem_cons_of_mem _ hf)).2.2, ?_⟩⟩
    rcases List.mem_cons.1 hc with rfl | hc
    · exact r.whole f hf
    · exact (r.untyped c hc f hf).1
  have hnot : w.records.flatMap Record.chunks ≠ [] := by
    have hseveral := w.several
    intro hcon
    cases hw : w.records with
    | nil =>
        rw [hw] at hseveral
        exact absurd hseveral (by simp)
    | cons r rs =>
        rw [hw] at hcon
        exact absurd hcon (by simp [Record.chunks])
  have htail : symbolCuts (fronted w.sections ++ [soh]) = (fronted w.sections ++ [soh], []) := by
    rw [symbolCuts_fronted hsections]
    rfl
  have hmessage : w.message = bytes ++ ((w.records.flatMap Record.chunks).flatMap Chunk.body ++
      (fronted w.sections ++ [soh])) := by
    have hfields : w.records.flatMap Record.fields =
        (w.records.flatMap Record.chunks).flatMap Chunk.fields := by
      rw [List.flatMap_assoc]
      rfl
    rw [message, List.append_assoc, hframe, fronted_append, fronted_flatMap, hfields]
    simp only [List.append_assoc]
  have hcut : symbolCuts w.message = (bytes, appendLast (fronted w.sections ++ [soh])
      ((w.records.flatMap Record.chunks).map Chunk.body)) := by
    rw [hmessage, hcuts, symbolCuts_chunks hchunks hnot htail, List.append_nil]
  rw [hcut]
  refine ⟨bytes, hframe, rfl, ?_, ?_⟩
  · dsimp only
    rw [length_appendLast, List.length_map, List.length_flatMap]
    have hone : ∀ rs : List Record, rs.length ≤ (rs.map fun r => r.chunks.length).sum := by
      intro rs
      induction rs with
      | nil => exact Nat.le_refl _
      | cons r rs ih =>
          rw [List.length_cons, List.map_cons, List.sum_cons, Record.chunks, List.length_cons]
          omega
    exact w.several.trans (hone w.records)
  · dsimp only
    rw [cutRecords_appendLast bytes ?_ (by simpa using hnot) none,
      cutRecords_records bytes hseparate none]
    · rfl
    · intro b hb
      obtain ⟨c, hc, rfl⟩ := List.mem_map.1 hb
      obtain ⟨r, hr, hc⟩ := List.mem_flatMap.1 hc
      have hsep := Record.separate_chunk (hseparate r hr) hc
      have hboth : Separate (c.fields ++ w.sections) :=
        hsep.append fun f hf => w.separate f (List.mem_append_right _ hf)
      have hbody : namesAContract c.body = Names c.fields := by
        rw [← namesAContract_fronted hsep (Or.inl rfl), List.append_nil]
        rfl
      have hbehind : c.body ++ (fronted w.sections ++ [soh]) =
          fronted (c.fields ++ w.sections) ++ [soh] := by
        rw [fronted_append, List.append_assoc]
        rfl
      have huntyped : (w.sections.any fun f => decide (167 = f.1)) = false := by
        rw [List.any_eq_false]
        exact fun f hf hcon => hunread.unnamed f hf (of_decide_eq_true hcon).symm
      rw [hbehind, namesAContract_fronted hboth (Or.inr rfl), hbody]
      rcases List.mem_cons.1 hc with rfl | hc
      · rw [r.names_opening, names_append_left r.names_opening]
      · have hnot := r.not_names_group hc
        have hno : (c.fields.any fun f => decide (167 = f.1)) = false := by
          rw [Chunk.fields, List.any_cons]
          exact List.any_eq_false.2 fun f hf hcon =>
            (r.untyped c hc f hf).2 (of_decide_eq_true hcon).symm
        rw [hnot, Names, List.any_append, hno, huntyped]
        rfl

lemma parse_message (w : DefinitionReply) (nums : Figures V) (islandForNasdaq : Bool)
    (hunread : w.Unread) :
    parseSecdefResponses nums islandForNasdaq w.message =
      let out := w.records.filterMap (ownDefinition nums islandForNasdaq w.header w.sections)
      if 1 < out.length ∧ (out.all fun d => out.head?.all fun first => d.conId == first.conId) then
        (parseSecdefResponse nums islandForNasdaq w.message).toList
      else out := by
  obtain ⟨bytes, hframe, hfront, hseveral, hcut⟩ := w.cut_message hunread
  have hrecords : ∀ f ∈ w.header ++ w.records.flatMap Record.fields, f.1 ∉ sharedTags := by
    intro f hf
    rcases List.mem_append.1 hf with hf | hf
    · exact (w.header_own f hf).2
    · obtain ⟨r, hr, hf⟩ := List.mem_flatMap.1 hf
      exact (w.records_own r hr f hf).2
  have htables := tables_append w.separate (Or.inl rfl) hrecords
  rw [List.append_nil] at htables
  have hown : ∀ r ∈ w.records, ∀ tail : Bytes,
      (tail = [] ∨ tail = fronted w.sections ++ [soh] ∧ w.records.getLast? = some r) →
      (parseSecdefRecord nums islandForNasdaq (parseOrderTypeTables (textFrame w.sections))
          (parseMarketClassifications (textFrame w.sections))
          (bytes ++ fronted r.fields ++ tail ++ [soh])).map
        (nameTheIneligibilityReasons (ineligibilityDescriptions (textFrame w.sections))) =
      ownDefinition nums islandForNasdaq w.header w.sections r := by
    rintro r hr tail (rfl | ⟨rfl, hlast⟩)
    · rw [List.append_nil, ← hframe]
      rfl
    · have hbehind : bytes ++ fronted r.fields ++ (fronted w.sections ++ [soh]) ++ [soh] =
          textFrame (w.header ++ r.fields ++ w.sections) ++ [soh] := by
        rw [List.append_assoc w.header, hframe, fronted_append]
        simp only [List.append_assoc]
      rw [hbehind, parseSecdefRecord_append nums islandForNasdaq _ (w.separate_record hr)
        (Or.inr rfl) (w.unshared hr) w.sections_own (hunread r hlast)]
      rfl
  have hout : ((cutRecords bytes none (symbolCuts w.message).2).filterMap fun record =>
      parseSecdefRecord nums islandForNasdaq (parseOrderTypeTables (textFrame w.sections))
        (parseMarketClassifications (textFrame w.sections)) (record ++ [soh])).map
      (nameTheIneligibilityReasons (ineligibilityDescriptions (textFrame w.sections))) =
      w.records.filterMap (ownDefinition nums islandForNasdaq w.header w.sections) := by
    rw [List.map_filterMap, hcut, filterMap_appendLast, List.filterMap_map]
    · refine List.filterMap_congr fun r hr => ?_
      have hread := hown r hr [] (Or.inl rfl)
      rw [List.append_nil] at hread
      exact hread
    · intro x hx
      rw [List.getLast?_map] at hx
      obtain ⟨r, hlast, rfl⟩ := Option.map_eq_some_iff.1 hx
      have hr := List.mem_of_getLast? hlast
      have hread := hown r hr [] (Or.inl rfl)
      rw [List.append_nil] at hread
      exact (hown r hr _ (Or.inr ⟨rfl, hlast⟩)).trans hread.symm
  rw [parseSecdefResponses]
  dsimp only
  rw [if_neg (Nat.not_lt.2 hseveral), hfront]
  unfold message at hout ⊢
  rw [htables.1, htables.2.1, htables.2.2, hout]

end DefinitionReply

lemma Record.stated_conId (r : Record) :
    ((r.fields.map TextField.read).filter fun f => decide (f.1 = tagIbConId)) ≠ [] := by
  have hnamed := r.named
  rw [Names, Bool.and_eq_true, List.any_eq_true, List.any_eq_true] at hnamed
  obtain ⟨f, hf, hid⟩ := hnamed.2
  refine List.ne_nil_of_mem (a := f.read) (List.mem_filter.2 ⟨List.mem_map_of_mem ?_, ?_⟩)
  · exact List.mem_flatMap.2 ⟨_, List.mem_cons_self, List.mem_cons_of_mem _ hf⟩
  · exact decide_eq_true (of_decide_eq_true hid).symm

namespace DefinitionReply

lemma ownDefinition_some (w : DefinitionReply) {nums : Figures V} (islandForNasdaq : Bool)
    {r : Record} (hr : r ∈ w.records) (h : Readable nums w.header r) :
    ∃ d, ownDefinition nums islandForNasdaq w.header w.sections r = some d ∧
      some d.conId = r.conId := by
  have hsep : Separate (w.header ++ r.fields) := fun f hf =>
    w.separate_record hr f (List.mem_append_left _ hf)
  have htags : fixParse (textFrame (w.header ++ r.fields)) =
      insertAll ((w.header ++ r.fields).map TextField.read) fun _ => none := by
    rw [← List.append_nil (textFrame _), fixParse_frame hsep (Or.inl rfl)]
  have htype : fixParse (textFrame (w.header ++ r.fields)) tagMsgType = some "d" := by
    rw [htags, lookup_append w.header fun f hf => (w.records_own r hr f hf).1, w.typed]
  have hown : ∀ f ∈ (w.header ++ r.fields).map TextField.read,
      decide (f.1 ∉ sectionTags) = true := by
    intro f hf
    obtain ⟨g, hg, rfl⟩ := List.mem_map.1 hf
    exact decide_eq_true fun hcon => w.unshared hr g hg (List.mem_append_left _ hcon)
  have hwalk : (walk nums (textFrame (w.header ++ r.fields))).conId =
      (((r.fields.map TextField.read).filter fun f => f.1 = tagIbConId).getLast?).map
        Prod.snd := by
    rw [walk, tagSequence_frame hsep]
    dsimp only
    rw [List.takeWhile_eq_self_iff.2 hown, List.map_append, List.filter_append,
      List.getLast?_append_of_ne_nil _ r.stated_conId]
  obtain ⟨id, hid⟩ := Option.isSome_iff_exists.1 h.conId
  have hread : readOr parseUnsigned 0 (walk nums (textFrame (w.header ++ r.fields))).conId =
      some id := by
    rw [hwalk]
    rw [Record.conId] at hid
    obtain ⟨f, hf, hparse⟩ := Option.bind_eq_some_iff.1 hid
    rw [hf]
    exact hparse
  obtain ⟨d, hd, hdid⟩ := readDefinition_some islandForNasdaq
    (parseOrderTypeTables (textFrame w.sections))
    (parseMarketClassifications (textFrame w.sections)) htype hread
    (htags ▸ h.multiplier) (htags ▸ h.strike) (htags ▸ h.underConId)
  rw [ownDefinition, parseSecdefRecord, hd]
  exact ⟨_, rfl, by rw [hid, ← hdid]; rfl⟩

lemma definitions_of (w : DefinitionReply) {nums : Figures V} (islandForNasdaq : Bool)
    (hunread : w.Unread) (h : ∀ r ∈ w.records, Readable nums w.header r) :
    (parseSecdefResponses nums islandForNasdaq w.message).map some =
      w.records.map (ownDefinition nums islandForNasdaq w.header w.sections) ∧
    (parseSecdefResponses nums islandForNasdaq w.message).map (fun d => some d.conId) =
      w.records.map Record.conId := by
  have hsome : ∀ rs : List Record, (∀ r ∈ rs, r ∈ w.records) →
      (rs.filterMap (ownDefinition nums islandForNasdaq w.header w.sections)).map some =
        rs.map (ownDefinition nums islandForNasdaq w.header w.sections) ∧
      (rs.filterMap (ownDefinition nums islandForNasdaq w.header w.sections)).map
        (fun d => some d.conId) = rs.map Record.conId := by
    intro rs
    induction rs with
    | nil => exact fun _ => ⟨rfl, rfl⟩
    | cons r rs ih =>
        intro hrs
        obtain ⟨hr, hrs⟩ := List.forall_mem_cons.1 hrs
        obtain ⟨d, hd, hid⟩ := w.ownDefinition_some islandForNasdaq hr (h r hr)
        obtain ⟨hdefs, hids⟩ := ih hrs
        rw [List.filterMap_cons_some hd, List.map_cons, List.map_cons, List.map_cons, List.map_cons,
          hdefs, hids, hd, hid]
        exact ⟨rfl, rfl⟩
  obtain ⟨hdefs, hids⟩ := hsome w.records fun _ hr => hr
  have hparse := w.parse_message nums islandForNasdaq hunread
  dsimp only at hparse
  generalize w.records.filterMap (ownDefinition nums islandForNasdaq w.header w.sections) = out
    at hparse hdefs hids
  have hdistinct : ¬ (1 < out.length ∧
      (out.all fun d => out.head?.all fun first => d.conId == first.conId) = true) := by
    rintro ⟨hlen, hall⟩
    have hnodup := w.distinct
    rw [← hids] at hnodup
    match out, hlen with
    | first :: second :: rest, _ =>
        rw [List.all_cons, List.all_cons, Bool.and_eq_true, Bool.and_eq_true] at hall
        have hsame : second.conId = first.conId := beq_iff_eq.1 hall.2.1
        rw [List.map_cons, List.map_cons, List.nodup_cons] at hnodup
        exact hnodup.1 (by rw [hsame]; exact List.mem_cons_self)
  rw [if_neg hdistinct] at hparse
  rw [hparse]
  exact ⟨hdefs, hids⟩

end DefinitionReply

/-- **Each contract is read as itself**: of two replies with one header and sections that leave what
the last record of either is read by, each gives a definition for each of its records, in their
order, and a record that stands in both, wherever it stands, is read as the same definition in
both. -/
theorem each_contract_as_itself (nums : Figures V) (islandForNasdaq : Bool)
    (w w' : DefinitionReply) (hheader : w'.header = w.header) (hsections : w'.sections = w.sections)
    (hunread : w.Unread) (hunread' : w'.Unread)
    (hread : ∀ r ∈ w.records, Readable nums w.header r)
    (hread' : ∀ r ∈ w'.records, Readable nums w.header r) :
    (parseSecdefResponses nums islandForNasdaq w.message).map (fun d => some d.conId) =
      w.records.map Record.conId ∧
    ∀ (i j : ℕ) (r : Record), w.records[i]? = some r → w'.records[j]? = some r →
      (parseSecdefResponses nums islandForNasdaq w.message)[i]? =
        (parseSecdefResponses nums islandForNasdaq w'.message)[j]? := by
  obtain ⟨hdefs, hids⟩ := w.definitions_of islandForNasdaq hunread hread
  obtain ⟨hdefs', -⟩ := w'.definitions_of islandForNasdaq hunread' (hheader ▸ hread')
  refine ⟨hids, fun i j r hi hj => ?_⟩
  have hat := congrArg (·[i]?) hdefs
  have hat' := congrArg (·[j]?) hdefs'
  simp only [List.getElem?_map, hi, hj, hheader, hsections, Option.map_some] at hat hat'
  exact Option.map_injective (Option.some_injective _) (hat.trans hat'.symm)

def wholeFigures : Figures ℤ where
  parse v := parseI64 v.toList
  trunc v := v
  hundred := 100
  tenThousandth := 0

def shareRecord (symbol id : List Char) : Record where
  symbol := symbol
  own := [(167, ['C', 'S']), (6008, id)]
  groups := []
  named := rfl
  whole := by simp
  untyped := by simp

lemma tag_of_share {symbol id : List Char}
    (hf : f ∈ (shareRecord symbol id).fields) : f.1 ∈ [55, 167, 6008] := by
  have hfields : (shareRecord symbol id).fields = [(55, symbol), (167, ['C', 'S']), (6008, id)] :=
    rfl
  rw [hfields] at hf
  exact List.mem_map_of_mem (f := Prod.fst) hf

def twoShares (first second : List Char) (sections : List TextField)
    (hsections : ∀ f ∈ sections, f.1 ≠ 55 ∧ f.1 ≠ tagMsgType)
    (hseparate : Separate ([(35, ['d'])] ++
      [shareRecord first first, shareRecord second second].flatMap Record.fields ++ sections))
    (hdistinct : [(shareRecord first first).conId, (shareRecord second second).conId].Nodup) :
    DefinitionReply where
  header := [(35, ['d'])]
  records := [shareRecord first first, shareRecord second second]
  sections := sections
  separate := hseparate
  headed := List.cons_ne_nil _ _
  typed := rfl
  header_own := by decide
  several := Nat.le_refl 2
  distinct := hdistinct
  records_own := by
    intro r hr f hf
    have hplain : ∀ t ∈ [55, 167, 6008], t ≠ tagMsgType ∧ t ∉ sharedTags := by decide
    rcases List.mem_cons.1 hr with rfl | hr
    · exact hplain _ (tag_of_share hf)
    · rw [List.mem_singleton.1 hr] at hf
      exact hplain _ (tag_of_share hf)
  sections_own := hsections

def tabledSections : List TextField := [(6432, ['1']), (6430, ['k']), (6431, ['L', 'M', 'T'])]

def ruledSections : List TextField :=
  [(6019, ['1']), (6031, ['2', '6']), (6026, ['1']), (6023, ['0']), (6027, ['5'])]

lemma readable_shares : ∀ r ∈ [shareRecord ['1'] ['1'], shareRecord ['2'] ['2']],
    Readable wholeFigures [(35, ['d'])] r := by
  intro r hr
  rcases List.mem_cons.1 hr with rfl | hr
  · exact ⟨by decide, by decide, by decide, by decide⟩
  · rw [List.mem_singleton.1 hr]
    exact ⟨by decide, by decide, by decide, by decide⟩

theorem each_contract_as_itself_two :
    let w := twoShares ['1'] ['2'] tabledSections (by decide) (by decide)
      (by decide)
    let w' := twoShares ['2'] ['1'] tabledSections (by decide) (by decide)
      (by decide)
    (parseSecdefResponses wholeFigures false w.message).map (fun d => some d.conId) =
      w.records.map Record.conId ∧
    ∀ (i j : ℕ) (r : Record), w.records[i]? = some r → w'.records[j]? = some r →
      (parseSecdefResponses wholeFigures false w.message)[i]? =
        (parseSecdefResponses wholeFigures false w'.message)[j]? := by
  have htables : parseOrderTypeTables (textFrame tabledSections) ≠ [] := by decide +kernel
  have hone : Silent ([(35, ['d'])] ++ (shareRecord ['1'] ['1']).fields) tabledSections :=
    ⟨by decide, by decide, by decide, by decide, by decide, Or.inr (Or.inr htables), by decide,
      by decide, by decide, by decide⟩
  have htwo : Silent ([(35, ['d'])] ++ (shareRecord ['2'] ['2']).fields) tabledSections :=
    ⟨by decide, by decide, by decide, by decide, by decide, Or.inr (Or.inr htables), by decide,
      by decide, by decide, by decide⟩
  exact each_contract_as_itself wholeFigures false _ _ rfl rfl
    (fun r hr => Option.some.inj hr ▸ htwo) (fun r hr => Option.some.inj hr ▸ hone)
    readable_shares fun r hr => readable_shares r (by
      rcases List.mem_cons.1 hr with rfl | hr
      · exact List.mem_cons_of_mem _ List.mem_cons_self
      · rw [List.mem_singleton.1 hr]
        exact List.mem_cons_self)

/-- An increment rule behind the records is read by the last of them alone: a share is read with it
or without it as it stands last or first. -/
theorem increments_read_by_the_last :
    let w := twoShares ['1'] ['2'] ruledSections (by decide) (by decide)
      (by decide)
    let w' := twoShares ['2'] ['1'] ruledSections (by decide) (by decide)
      (by decide)
    (∀ r ∈ w.records ++ w'.records, Readable wholeFigures w.header r) ∧
    ((parseSecdefResponses wholeFigures false w.message).map fun d => (d.conId, d.minTick)) =
      [(1, 0), (2, 5)] ∧
    ((parseSecdefResponses wholeFigures false w'.message).map fun d => (d.conId, d.minTick)) =
      [(2, 0), (1, 5)] := by
  refine ⟨fun r hr => ?_, by decide +kernel, by decide +kernel⟩
  have hboth : r = shareRecord ['1'] ['1'] ∨ r = shareRecord ['2'] ['2'] := by
    rcases List.mem_append.1 hr with hr | hr
    · rcases List.mem_cons.1 hr with rfl | hr
      · exact Or.inl rfl
      · exact Or.inr (List.mem_singleton.1 hr)
    · rcases List.mem_cons.1 hr with rfl | hr
      · exact Or.inr rfl
      · exact Or.inl (List.mem_singleton.1 hr)
  rcases hboth with rfl | rfl
  · exact readable_shares _ List.mem_cons_self
  · exact readable_shares _ (List.mem_cons_of_mem _ List.mem_cons_self)

end IbkrDx.Contracts
