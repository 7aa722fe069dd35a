import IbkrDx.Protocol.TbtStream

/-!
# Book frames

The reader of the market-depth frames of `engine/hot_loop/farm/mod.rs`.  A frame is a count of bits
and as many bits, in sections that name a stream, of entries that name a place in its book; nothing
in it is byte-aligned once a name of odd length has been read.

* **`readBook_wire`** — a frame so written is read entry for entry.

A frame that ends inside an entry gives what stands in front of that entry.
-/

namespace IbkrDx

open Search

/-! ## The bits of a frame -/

/-- The bits of a book frame still unread, most significant first. -/
abbrev BookBits := List Bool

namespace BookBits

def digits : ℕ → ℕ → BookBits
  | 0, _ => []
  | n + 1, v => v.testBit n :: digits n v

/-- The number some bits write behind `acc`. -/
def number (acc : ℕ) (bits : BookBits) : ℕ := bits.foldl (fun v b => 2 * v + b.toNat) acc

/-- The next `n` bits as a number, or nothing where fewer remain. -/
def take (n : ℕ) : Reader BookBits ℕ := do
  let bits ← get
  if bits.length < n ∨ 64 < n then failure
  set (List.drop n bits)
  return number 0 (List.take n bits)

/-- Step over `n` bits, or nothing where fewer remain. -/
def skip (n : ℕ) : Reader BookBits Unit := do
  let bits ← get
  if bits.length < n then failure
  set (List.drop n bits)

/-- A book frame's payload: two bytes state how many bits of it count. -/
def ofBody (body : Bytes) : Option BookBits :=
  match body with
  | hi :: lo :: bytes =>
      let stop := bitsCarried (hi.toNat * 256 + lo.toNat) body.length
      if bytes.length * 8 < stop then none
      else some (List.take stop (bytes.flatMap fun o => digits 8 o.toNat))
  | _ => none

@[simp]
lemma length_digits (n v : ℕ) : (digits n v).length = n := by
  induction n with
  | zero => rfl
  | succ n ih => rw [digits, List.length_cons, ih]

lemma number_digits (n v acc : ℕ) : number acc (digits n v) = acc * 2 ^ n + v % 2 ^ n := by
  induction n generalizing acc with
  | zero => simp [number, digits, Nat.mod_one]
  | succ n ih =>
      have hbit : (v.testBit n).toNat = v / 2 ^ n % 2 := by
        rw [Nat.testBit_eq_decide_div_mod_eq]
        rcases Nat.mod_two_eq_zero_or_one (v / 2 ^ n) with h | h <;> rw [h] <;> rfl
      have hstep : number acc (digits (n + 1) v) = number (2 * acc + (v.testBit n).toNat)
          (digits n v) := rfl
      rw [hstep, ih, hbit, Nat.mod_pow_succ, pow_succ]
      ring

lemma gives_take {n v : ℕ} (hn : n ≤ 64) (hv : v < 2 ^ n) (rest : BookBits) :
    Reader.Gives (take n) (digits n v ++ rest) v rest := by
  have hvalue : number 0 (List.take n (digits n v ++ rest)) = v := by
    rw [List.take_left' (length_digits n v), number_digits, Nat.mod_eq_of_lt hv]
    omega
  have hrest : List.drop n (digits n v ++ rest) = rest := List.drop_left' (length_digits n v)
  refine (Reader.gives_get _).bind ?_
  rw [if_neg (by simp only [List.length_append, length_digits]; omega), hrest, hvalue]
  exact (Reader.gives_set _ _).bind (Reader.gives_pure _ _)

lemma gives_take_bit (b : Bool) (rest : BookBits) :
    Reader.Gives (take 1) (b :: rest) b.toNat rest := by
  cases b
  · exact gives_take (n := 1) (v := 0) (by decide) (by decide) rest
  · exact gives_take (n := 1) (v := 1) (by decide) (by decide) rest

lemma gives_skip {n : ℕ} {bits : BookBits} (h : bits.length = n) (rest : BookBits) :
    Reader.Gives (skip n) (bits ++ rest) () rest := by
  have hrest : List.drop n (bits ++ rest) = rest := List.drop_left' h
  refine (Reader.gives_get _).bind ?_
  rw [if_neg (by simp only [List.length_append]; omega), hrest]
  exact Reader.gives_set _ _

end BookBits

/-! ## Entries -/

inductive BookSide where
  | ask
  | bid
  deriving DecidableEq

/-- What the fields of an entry state: the side is the first priced or sized field's. -/
structure LevelStated where
  price : Option ℤ := none
  size : Option ℤ := none
  side : Option BookSide := none
  deriving DecidableEq

/-- What one more field states; a field too wide for a number, or with no width, states nothing. -/
def LevelStated.field (l : LevelStated) (id : ℕ) : Option ℤ → LevelStated
  | none => l
  | some value =>
      match id >>> 2 with
      | 0 => { l with price := some value, side := some (l.side.getD .bid) }
      | 1 => { l with price := some value, side := some (l.side.getD .ask) }
      | 4 => { l with size := some value, side := some (l.side.getD .bid) }
      | 5 => { l with size := some value, side := some (l.side.getD .ask) }
      | _ => l

/-- An entry of a book frame: 0 inserts, 1 updates, 2 deletes on the bid and 3 on the ask. -/
structure BookEntry where
  op : ℕ
  name : String
  position : ℕ
  level : LevelStated
  deriving DecidableEq

open BookBits

def readFieldHead : Reader BookBits (ℕ × Bool × ℕ) := do
  let id ← take 5
  let moreFields ← take 1
  let len ← take 2
  if id = 31 then
    let id ← take 8
    let len ← take 8
    return (id, moreFields ≠ 0, len)
  else return (id, moreFields ≠ 0, len + 1)

/-- What stands behind the head of a field.  The sign bit is there whatever the width says. -/
def readFieldBody (len : ℕ) : Reader BookBits (Option ℤ) := do
  let width := 8 * len
  if width = 0 ∨ 64 < width then
    let _ ← take 1
    skip (width - 1)
    return none
  else
    let sign ← take 1
    let magnitude ← take (width - 1)
    return some (if sign = 1 then -(magnitude : ℤ) else magnitude)

def readFields : ℕ → LevelStated → Reader BookBits LevelStated
  | 0, _ => failure
  | fuel + 1, level => do
      let (id, moreFields, len) ← readFieldHead
      let value ← readFieldBody len
      if moreFields then readFields fuel (level.field id value) else return level.field id value

def readName : ℕ → Reader BookBits (List Char)
  | 0 => return []
  | n + 1 => do
      let c ← take 8
      let cs ← readName n
      return Char.ofNat c :: cs

def readLevel (op : ℕ) : Reader BookBits LevelStated := do
  let left ← get
  if op < 2 then readFields (left.length + 1) {} else return {}

def readEntry : Reader BookBits (Bool × BookEntry) := do
  let moreEntries ← take 1
  let _ ← take 1
  let op ← take 2
  let nameLen ← take 4
  let name ← readName nameLen
  let position ← take 8
  let level ← readLevel op
  return (moreEntries ≠ 0, ⟨op, String.ofList name, position, level⟩)

/-- The entries of a section, and what is left behind the last; nothing where the bits ran out. -/
def readEntries : ℕ → BookBits → List BookEntry × Option BookBits
  | 0, _ => ([], none)
  | fuel + 1, bits =>
      match readEntry.outcome bits with
      | (none, _) => ([], none)
      | (some (moreEntries, entry), rest) =>
          if moreEntries then
            (entry :: (readEntries fuel rest).1, (readEntries fuel rest).2)
          else ([entry], some rest)

def readSectionHead : Reader BookBits (Bool × ℕ) := do
  let moreSections ← take 1
  let tag ← take 31
  return (moreSections ≠ 0, tag)

def readSections : ℕ → BookBits → List (ℕ × List BookEntry)
  | 0, _ => []
  | fuel + 1, bits =>
      match readSectionHead.outcome bits with
      | (none, _) => []
      | (some (moreSections, tag), rest) =>
          match readEntries (rest.length + 1) rest with
          | (entries, none) => [(tag, entries)]
          | (entries, some left) =>
              (tag, entries) ::
                if ¬ moreSections ∨ left.length < 32 then [] else readSections fuel left

def findBodyAfterTag (msg tagMarker : Bytes) : Option Bytes :=
  (find tagMarker msg).map fun pos => msg.drop (pos + tagMarker.length)

/-- The entries of a book frame, under the streams their sections name. -/
def readBook (msg : Bytes) : List (ℕ × List BookEntry) :=
  match (findBodyAfterTag msg (ascii "35=Y\x01")).bind BookBits.ofBody with
  | none => []
  | some bits => readSections (bits.length + 1) bits

/-! ## As the venue writes them -/

inductive BookFieldHead : ℕ → Bool → ℕ → BookBits → Prop
  | short {id len : ℕ} (more : Bool) (hid : id < 31) (hlen : len < 4) :
      BookFieldHead id more (len + 1) (digits 5 id ++ more :: digits 2 len)
  | long {id len any : ℕ} (more : Bool) (hid : id < 2 ^ 8) (hlen : len < 2 ^ 8) (hany : any < 2 ^ 2) :
      BookFieldHead id more len (digits 5 31 ++ more :: (digits 2 any ++ (digits 8 id ++ digits 8 len)))

/-- The rest of a field: a sign and a magnitude, or bits that are no number. -/
inductive BookFieldBody : ℕ → Option ℤ → BookBits → Prop
  | number {len magnitude : ℕ} (negative : Bool) (hlen : 0 < len ∧ len ≤ 8)
      (hmagnitude : magnitude < 2 ^ (8 * len - 1)) :
      BookFieldBody len (some (if negative then -(magnitude : ℤ) else magnitude))
        (negative :: digits (8 * len - 1) magnitude)
  | passed {len : ℕ} {bits : BookBits} (sign : Bool) (hlen : len = 0 ∨ 8 < len)
      (hbits : bits.length = 8 * len - 1) : BookFieldBody len none (sign :: bits)

inductive BookFieldsWire : LevelStated → LevelStated → BookBits → Prop
  | last {level : LevelStated} {id len : ℕ} {value : Option ℤ} {head body : BookBits}
      (hhead : BookFieldHead id false len head) (hbody : BookFieldBody len value body) :
      BookFieldsWire level (level.field id value) (head ++ body)
  | cons {level stated : LevelStated} {id len : ℕ} {value : Option ℤ} {head body rest : BookBits}
      (hhead : BookFieldHead id true len head) (hbody : BookFieldBody len value body)
      (hrest : BookFieldsWire (level.field id value) stated rest) :
      BookFieldsWire level stated (head ++ (body ++ rest))

def nameBits (name : List Char) : BookBits := name.flatMap fun c => digits 8 c.toNat

inductive BookEntryWire (more : Bool) : BookEntry → BookBits → Prop
  | mk {e : BookEntry} {fields : BookBits} (unread : Bool) (hop : e.op < 4)
      (hname : e.name.toList.length < 16) (hchars : ∀ c ∈ e.name.toList, c.toNat < 2 ^ 8)
      (hposition : e.position < 2 ^ 8)
      (hfields : if e.op < 2 then BookFieldsWire {} e.level fields
        else e.level = {} ∧ fields = []) :
      BookEntryWire more e (more :: unread :: (digits 2 e.op ++ (digits 4 e.name.toList.length ++
        (nameBits e.name.toList ++ (digits 8 e.position ++ fields)))))

/-- The entries of a section: each but the last says that another follows. -/
inductive BookEntriesWire : List BookEntry → BookBits → Prop
  | last {e : BookEntry} {bits : BookBits} (h : BookEntryWire false e bits) :
      BookEntriesWire [e] bits
  | cons {e : BookEntry} {es : List BookEntry} {bits rest : BookBits}
      (h : BookEntryWire true e bits) (hs : BookEntriesWire es rest) :
      BookEntriesWire (e :: es) (bits ++ rest)

/-- The sections of a frame.  It ends behind the section that says it is the last, or where less
is left than the head of another. -/
inductive BookSectionsWire : List (ℕ × List BookEntry) → BookBits → Prop
  | last {tag : ℕ} {es : List BookEntry} {bits unread : BookBits} (more : Bool) (htag : tag < 2 ^ 31)
      (hs : BookEntriesWire es bits) (hend : more = false ∨ unread.length < 32) :
      BookSectionsWire [(tag, es)] (more :: (digits 31 tag ++ (bits ++ unread)))
  | cons {tag : ℕ} {es : List BookEntry} {bits rest : BookBits}
      {sections : List (ℕ × List BookEntry)} (htag : tag < 2 ^ 31) (hs : BookEntriesWire es bits)
      (hrest : BookSectionsWire sections rest) :
      BookSectionsWire ((tag, es) :: sections) (true :: (digits 31 tag ++ (bits ++ rest)))

/-- A message that carries the sections: behind its type the count of their bits, the bits, and
less than a cycle of the count behind them. -/
inductive BookFrame (sections : List (ℕ × List BookEntry)) : Bytes → Prop
  | mk {before payload : Bytes} {hi lo : UInt8} {bits unread : BookBits}
      (hmark : find (ascii "35=Y\x01") (before ++ (ascii "35=Y\x01" ++ hi :: lo :: payload))
        = some before.length)
      (hsections : BookSectionsWire sections bits)
      (hpayload : (payload.flatMap fun o => digits 8 o.toNat) = bits ++ unread)
      (hcount : hi.toNat * 256 + lo.toNat = bits.length % bitCycle)
      (hcycle : (payload.length + 2) * 8 ≤ bits.length + bitCycle) :
      BookFrame sections (before ++ (ascii "35=Y\x01" ++ hi :: lo :: payload))

/-! ## Each reader reads what was written for it -/

variable {more : Bool}

lemma gives_readFieldHead {id len : ℕ} {head : BookBits}
    (h : BookFieldHead id more len head) (rest : BookBits) :
    Reader.Gives readFieldHead (head ++ rest) (id, more, len) rest := by
  have hmore : (decide (more.toNat ≠ 0)) = more := by cases more <;> rfl
  cases h with
  | short more hid hlen =>
      rw [List.append_assoc, List.cons_append]
      refine (gives_take (by decide) (lt_trans hid (by decide)) _).bind ?_
      refine (gives_take_bit more _).bind ?_
      refine (gives_take (by decide) hlen _).bind ?_
      rw [if_neg (Nat.ne_of_lt hid), hmore]
      exact Reader.gives_pure _ _
  | long more hid hlen hany =>
      simp only [List.append_assoc, List.cons_append]
      refine (gives_take (by decide) (by decide) _).bind ?_
      refine (gives_take_bit more _).bind ?_
      refine (gives_take (by decide) hany _).bind ?_
      rw [if_pos rfl]
      refine (gives_take (by decide) hid _).bind ?_
      refine (gives_take (by decide) hlen _).bind ?_
      rw [hmore]
      exact Reader.gives_pure _ _

lemma gives_readFieldBody {len : ℕ} {value : Option ℤ} {body : BookBits}
    (h : BookFieldBody len value body) (rest : BookBits) :
    Reader.Gives (readFieldBody len) (body ++ rest) value rest := by
  unfold readFieldBody
  cases h with
  | number negative hlen hmagnitude =>
      rw [List.cons_append]
      simp only []
      rw [if_neg (by omega)]
      refine (gives_take_bit negative _).bind ?_
      refine (gives_take (by omega) hmagnitude _).bind ?_
      cases negative <;> exact Reader.gives_pure _ _
  | passed sign hlen hbits =>
      rw [List.cons_append]
      simp only []
      rw [if_pos (by omega)]
      refine (gives_take_bit sign _).bind ?_
      exact (gives_skip hbits _).bind (Reader.gives_pure _ _)

lemma BookFieldHead.length_pos {id len : ℕ} {head : BookBits}
    (h : BookFieldHead id more len head) : 0 < head.length := by
  cases h <;> simp

variable {bits : BookBits}

lemma gives_readFields {level stated : LevelStated}
    (h : BookFieldsWire level stated bits) : ∀ (fuel : ℕ) (rest : BookBits), bits.length < fuel →
      Reader.Gives (readFields fuel level) (bits ++ rest) stated rest := by
  induction h with
  | @last level id len value head body hhead hbody =>
      rintro (_ | fuel) rest hfuel
      · exact absurd hfuel (by simp)
      · rw [List.append_assoc, readFields]
        refine (gives_readFieldHead hhead _).bind ?_
        exact (gives_readFieldBody hbody _).bind (Reader.gives_pure _ _)
  | @cons level stated id len value head body rest' hhead hbody _ ih =>
      rintro (_ | fuel) rest hfuel
      · exact absurd hfuel (by simp)
      · have hpos := hhead.length_pos
        simp only [List.length_append] at hfuel
        rw [List.append_assoc, List.append_assoc, readFields]
        refine (gives_readFieldHead hhead _).bind ?_
        refine (gives_readFieldBody hbody _).bind ?_
        exact ih fuel rest (by omega)

lemma gives_readName : ∀ (name : List Char), (∀ c ∈ name, c.toNat < 2 ^ 8) →
    ∀ rest : BookBits, Reader.Gives (readName name.length) (nameBits name ++ rest) name rest
  | [], _, rest => Reader.gives_pure _ _
  | c :: cs, h, rest => by
      have htail := gives_readName cs (fun d hd => h d (List.mem_cons_of_mem _ hd)) rest
      rw [nameBits, List.flatMap_cons, List.append_assoc, List.length_cons, readName]
      refine (gives_take (by decide) (h c List.mem_cons_self) _).bind ?_
      refine htail.bind ?_
      rw [Char.ofNat_toNat]
      exact Reader.gives_pure _ _

lemma gives_readEntry {e : BookEntry}
    (h : BookEntryWire more e bits) (rest : BookBits) :
    Reader.Gives readEntry (bits ++ rest) (more, e) rest := by
  have hmore : (decide (more.toNat ≠ 0)) = more := by cases more <;> rfl
  obtain @⟨fields, unread, hop, hname, hchars, hposition, hfields⟩ := h
  have hlevel : Reader.Gives (readLevel e.op) (fields ++ rest) e.level rest := by
    refine (Reader.gives_get _).bind ?_
    by_cases hlow : e.op < 2
    · rw [if_pos hlow] at hfields ⊢
      exact gives_readFields hfields _ rest (by rw [List.length_append]; omega)
    · rw [if_neg hlow] at hfields ⊢
      obtain ⟨hlevel, rfl⟩ := hfields
      rw [hlevel]
      exact Reader.gives_pure _ _
  simp only [List.append_assoc, List.cons_append]
  refine (gives_take_bit more _).bind ?_
  refine (gives_take_bit unread _).bind ?_
  refine (gives_take (by decide) hop _).bind ?_
  refine (gives_take (by decide) hname _).bind ?_
  refine (gives_readName _ hchars _).bind ?_
  refine (gives_take (by decide) hposition _).bind ?_
  refine hlevel.bind ?_
  rw [hmore, String.ofList_toList]
  exact Reader.gives_pure _ _

lemma BookEntryWire.length_pos {e : BookEntry}
    (h : BookEntryWire more e bits) : 0 < bits.length := by
  cases h
  exact Nat.succ_pos _

lemma readEntries_wire {es : List BookEntry} (h : BookEntriesWire es bits) :
    ∀ (fuel : ℕ) (rest : BookBits), bits.length < fuel →
      readEntries fuel (bits ++ rest) = (es, some rest) := by
  induction h with
  | @last e bits h =>
      rintro (_ | fuel) rest hfuel
      · exact absurd hfuel (by simp)
      · have hread := gives_readEntry h rest
        rw [Reader.Gives] at hread
        simp only [readEntries, hread, Bool.false_eq_true, if_false]
  | @cons e es bits rest' h hs ih =>
      rintro (_ | fuel) rest hfuel
      · exact absurd hfuel (by simp)
      · have hpos := h.length_pos
        have hread := gives_readEntry h (rest' ++ rest)
        rw [List.length_append] at hfuel
        rw [Reader.Gives] at hread
        simp only [List.append_assoc, readEntries, hread, if_true, ih fuel rest (by omega)]

lemma gives_readSectionHead (more : Bool) {tag : ℕ} (htag : tag < 2 ^ 31) (rest : BookBits) :
    Reader.Gives readSectionHead (more :: (digits 31 tag ++ rest)) (more, tag) rest := by
  have hmore : (decide (more.toNat ≠ 0)) = more := by cases more <;> rfl
  refine (gives_take_bit more _).bind ?_
  refine (gives_take (by decide) htag _).bind ?_
  rw [hmore]
  exact Reader.gives_pure _ _

variable {sections : List (ℕ × List BookEntry)}

lemma BookSectionsWire.length_ge
    (h : BookSectionsWire sections bits) : 32 ≤ bits.length := by
  cases h <;>
    simp only [List.length_cons, List.length_append, length_digits] <;> omega

lemma readSections_wire
    (h : BookSectionsWire sections bits) : ∀ fuel : ℕ, bits.length < fuel →
      readSections fuel bits = sections := by
  induction h with
  | @last tag es bits unread more htag hs hend =>
      rintro (_ | fuel) hfuel
      · exact absurd hfuel (by simp)
      · have hhead := gives_readSectionHead more htag (bits ++ unread)
        rw [Reader.Gives] at hhead
        have hentries := readEntries_wire hs ((bits ++ unread).length + 1) unread
          (by rw [List.length_append]; omega)
        have hover : ¬ more = true ∨ unread.length < 32 := by
          rcases hend with rfl | hshort
          · exact Or.inl Bool.false_ne_true
          · exact Or.inr hshort
        simp only [readSections, hhead, hentries, if_pos hover]
  | @cons tag es bits rest sections htag hs hrest ih =>
      rintro (_ | fuel) hfuel
      · exact absurd hfuel (by simp)
      · have hhead := gives_readSectionHead true htag (bits ++ rest)
        rw [Reader.Gives] at hhead
        have hentries := readEntries_wire hs ((bits ++ rest).length + 1) rest
          (by rw [List.length_append]; omega)
        have hlong := hrest.length_ge
        simp only [List.length_cons, List.length_append] at hfuel
        simp only [readSections, hhead, hentries, not_true_eq_false, false_or,
          if_neg (not_lt.2 hlong), ih fuel (by omega)]

lemma findBodyAfterTag_of_find {before tagMarker body : Bytes}
    (h : find tagMarker (before ++ (tagMarker ++ body)) = some before.length) :
    findBodyAfterTag (before ++ (tagMarker ++ body)) tagMarker = some body := by
  rw [findBodyAfterTag, h, Option.map_some, ← List.drop_drop, List.drop_left, List.drop_left]

lemma BookBits.ofBody_counted {payload : Bytes} {hi lo : UInt8} {unread : BookBits}
    (hpayload : (payload.flatMap fun o => digits 8 o.toNat) = bits ++ unread)
    (hcount : hi.toNat * 256 + lo.toNat = bits.length % bitCycle)
    (hcycle : (payload.length + 2) * 8 ≤ bits.length + bitCycle) :
    BookBits.ofBody (hi :: lo :: payload) = some bits := by
  have height : payload.length * 8 = bits.length + unread.length := by
    have hlen := congrArg List.length hpayload
    simp only [List.length_flatMap, length_digits, List.map_const', List.sum_replicate_nat,
      List.length_append] at hlen
    exact hlen
  have hstop : bitsCarried (hi.toNat * 256 + lo.toNat) (hi :: lo :: payload).length
      = bits.length := by
    rw [hcount]
    refine bitsCarried_eq ?_ ?_ (bits.length / bitCycle) _ (Nat.mod_add_div' _ _)
    · simp only [List.length_cons]
      omega
    · simpa only [List.length_cons] using hcycle
  rw [BookBits.ofBody]
  simp only [hstop, hpayload]
  rw [if_neg (by omega), List.take_left]

/-- **A frame is read entry for entry.** -/
theorem readBook_wire {msg : Bytes}
    (h : BookFrame sections msg) : readBook msg = sections := by
  obtain @⟨before, payload, hi, lo, bits, unread, hmark, hsections, hpayload, hcount, hcycle⟩ := h
  rw [readBook, findBodyAfterTag_of_find hmark, Option.bind_some,
    BookBits.ofBody_counted hpayload hcount hcycle]
  exact readSections_wire hsections _ (Nat.lt_succ_self _)

end IbkrDx
