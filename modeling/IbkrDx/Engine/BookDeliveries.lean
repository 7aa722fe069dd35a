import IbkrDx.Engine.DepthWindows
import IbkrDx.Lib.Utf8
import IbkrDx.Protocol.BitReader

/-!
# What a book frame delivers

The reader of `Protocol/BookFrames` against the grammar of a book frame, both ways: what is written
by the grammar is delivered level for level, and whatever the bytes are, what is delivered stands in
the bits the frame counts.

* **`book_frame_delivered`** — the two together.
-/

namespace IbkrDx

open Search BookBits
open BitReader (number_eq number_lt)

/-! ## Fields, entries and sections as written -/

/-- The head of a field: short, or a longer one behind an id of thirty-one. -/
inductive BookFieldForm where
  | short (id : Fin 31) (len : Fin 4)
  | long (unread : Fin 4) (id len : Fin 256)

namespace BookFieldForm

def id : BookFieldForm → ℕ
  | short id _ => id
  | long _ id _ => id

def octets : BookFieldForm → ℕ
  | short _ len => len + 1
  | long _ _ len => len

def bits (more : Bool) : BookFieldForm → BookBits
  | short id len => digits 5 id ++ more :: digits 2 len
  | long unread id len =>
      digits 5 31 ++ more :: (digits 2 unread ++ (digits 8 id ++ digits 8 len))

end BookFieldForm

/-- A field: a sign and as many bits of magnitude as its width leaves. -/
structure BookField where
  form : BookFieldForm
  negative : Bool
  magnitude : BookBits
  fits : magnitude.length = 8 * form.octets - 1

namespace BookField

def value (f : BookField) : Option ℤ :=
  if 0 < f.form.octets ∧ f.form.octets ≤ 8 then
    some (if f.negative then -(number 0 f.magnitude : ℤ) else number 0 f.magnitude)
  else none

def priced (f : BookField) : Option (BookSide × ℤ) :=
  if f.form.id / 4 = 0 then f.value.map (BookSide.bid, ·)
  else if f.form.id / 4 = 1 then f.value.map (BookSide.ask, ·)
  else none

def sized (f : BookField) : Option (BookSide × ℤ) :=
  if f.form.id / 4 = 4 then f.value.map (BookSide.bid, ·)
  else if f.form.id / 4 = 5 then f.value.map (BookSide.ask, ·)
  else none

def bits : List BookField → BookBits
  | [] => []
  | f :: fs => f.form.bits (!fs.isEmpty) ++ (f.negative :: (f.magnitude ++ bits fs))

def price (fs : List BookField) : Option ℤ := (fs.filterMap priced).getLast?.map (·.2)

def size (fs : List BookField) : Option ℤ := (fs.filterMap sized).getLast?.map (·.2)

def side (fs : List BookField) : Option BookSide :=
  (fs.filterMap fun f => f.priced <|> f.sized).head?.map (·.1)

end BookField

/-- An entry: an insert or an update carries fields, a delete none. -/
structure WrittenEntry where
  unread : Bool
  op : Fin 4
  name : Bytes
  position : UInt8
  fields : List BookField
  short : name.length < 16
  carries : op.val < 2 ↔ fields ≠ []

structure BookLevel where
  tag : ℕ
  operation : ℕ
  side : BookSide
  position : ℕ
  name : String
  price : ℤ
  size : ℤ
  deriving DecidableEq

namespace WrittenEntry

def nameText (e : WrittenEntry) : String := String.ofList (e.name.map fun o => Char.ofNat o.toNat)

def bits (more : Bool) (e : WrittenEntry) : BookBits :=
  more :: e.unread :: (digits 2 e.op ++ (digits 4 e.name.length ++
    (bitsOf e.name ++ (digits 8 e.position.toNat ++ BookField.bits e.fields))))

/-- The bits of the entries of a section: each but the last says that another follows. -/
def entriesBits : List WrittenEntry → BookBits
  | [] => []
  | e :: es => e.bits (!es.isEmpty) ++ entriesBits es

/-- The level an entry states: a delete names its side, and an insert or an update is a price and
a size. -/
def level (tag : ℕ) (e : WrittenEntry) : Option BookLevel :=
  if e.op = 2 then some ⟨tag, 2, .bid, e.position.toNat, e.nameText, 0, 0⟩
  else if e.op = 3 then some ⟨tag, 2, .ask, e.position.toNat, e.nameText, 0, 0⟩
  else do
    let price ← BookField.price e.fields
    let size ← BookField.size e.fields
    let side ← BookField.side e.fields
    return ⟨tag, e.op, side, e.position.toNat, e.nameText, price, size⟩

end WrittenEntry

structure WrittenSection where
  tag : ℕ
  entries : List WrittenEntry
  named : tag < 2 ^ 31
  stated : entries ≠ []

namespace WrittenSection

def bits : List WrittenSection → BookBits
  | [] => []
  | s :: ss =>
      (!ss.isEmpty) :: (digits 31 s.tag ++ (WrittenEntry.entriesBits s.entries ++ bits ss))

def levels (s : WrittenSection) : List BookLevel := s.entries.filterMap (·.level s.tag)

end WrittenSection

/-- A message that carries the sections: behind its type the count of their bits as two bytes hold
it, the bits to the end of an octet, and fewer than 8190 octets beside them. -/
inductive FrameOf (sections : List WrittenSection) : Bytes → Prop
  | mk {before payload : Bytes} {hi lo : UInt8} {unread : BookBits}
      (hmark : find (ascii "35=Y\x01") (before ++ (ascii "35=Y\x01" ++ hi :: lo :: payload))
        = some before.length)
      (hcount : hi.toNat * 256 + lo.toNat = (WrittenSection.bits sections).length % bitCycle)
      (hpayload : bitsOf payload = WrittenSection.bits sections ++ unread)
      (hspare : payload.length < ((WrittenSection.bits sections).length + 7) / 8 + 8190) :
      FrameOf sections (before ++ (ascii "35=Y\x01" ++ hi :: lo :: payload))

/-! ## What is delivered -/

def BookEntry.levelOn (tag : ℕ) (e : BookEntry) : Option BookLevel :=
  match e.op with
  | 2 => some ⟨tag, 2, .bid, e.position, e.name, 0, 0⟩
  | 3 => some ⟨tag, 2, .ask, e.position, e.name, 0, 0⟩
  | op =>
      match e.level.price, e.level.size, e.level.side with
      | some p, some s, some side => some ⟨tag, op, side, e.position, e.name, p, s⟩
      | _, _, _ => none

def levelsOf (msg : Bytes) : List BookLevel :=
  (readBook msg).flatMap fun s => s.2.filterMap (·.levelOn s.1)

section

variable {Price : Type} [Zero Price] [One Price] [LT Price] [DecidableLT Price]
  (worth : ℤ → Price → Price)

def BookLevel.quoted (l : BookLevel) (tick : DepthTag Price) : QuotedLevel Price :=
  if l.operation = 2 then ⟨2, l.side, 0, 0⟩
  else ⟨l.operation, l.side, worth l.price tick.minTick, worth l.size (countedIn tick.sizeTick)⟩

/-- One level delivered, where the stream it names is one this session holds. -/
def FarmDepth.deliver (f : FarmDepth Price) (l : BookLevel) : FarmDepth Price :=
  match f.lookupDepthStag l.tag with
  | none => f
  | some tick =>
      f.deliverLevel tick.serverTag ⟨l.operation, l.name, l.position, {}⟩ (l.quoted worth tick)

omit [Zero Price] [One Price] [LT Price] [DecidableLT Price] in
lemma SameCallers.lookupDepthStag {f f' : FarmDepth Price} (h : SameCallers f f') (tag : ℕ) :
    f'.lookupDepthStag tag = f.lookupDepthStag tag := by
  rw [FarmDepth.lookupDepthStag, FarmDepth.lookupDepthStag, h.tags]

variable {tag : ℕ}

lemma bookEntry_eq {f : FarmDepth Price} {tick : DepthTag Price}
    (htick : f.lookupDepthStag tag = some tick) (e : BookEntry) :
    f.bookEntry worth tick e = (e.levelOn tag).elim f (f.deliver worth) := by
  obtain ⟨op, name, position, price, size, side⟩ := e
  unfold FarmDepth.bookEntry BookEntry.quoted BookEntry.levelOn
  by_cases hbid : op = 2
  · subst hbid
    simp only [Option.elim_some, FarmDepth.deliver, htick]
    rfl
  · by_cases hask : op = 3
    · subst hask
      simp only [Option.elim_some, FarmDepth.deliver, htick]
      rfl
    · cases price <;> cases size <;> cases side <;>
        simp only [Option.elim_none, Option.elim_some, FarmDepth.deliver, htick, BookLevel.quoted,
          if_neg hbid]
      rfl

lemma foldl_bookEntry {tick : DepthTag Price} :
    ∀ (es : List BookEntry) {f : FarmDepth Price}, f.lookupDepthStag tag = some tick →
      es.foldl (fun f e => f.bookEntry worth tick e) f
        = (es.filterMap (·.levelOn tag)).foldl (FarmDepth.deliver worth) f
  | [], _, _ => rfl
  | e :: es, f, htick => by
      have hbehind : (f.bookEntry worth tick e).lookupDepthStag tag = some tick := by
        rw [(sameCallers_bookEntry worth f tick e).lookupDepthStag, htick]
      rw [List.foldl_cons, foldl_bookEntry es hbehind, bookEntry_eq worth htick,
        List.filterMap_cons]
      cases e.levelOn tag <;> rfl

lemma foldl_deliver_of_none {f : FarmDepth Price} (htick : f.lookupDepthStag tag = none) :
    ∀ ls : List BookLevel, (∀ l ∈ ls, l.tag = tag) → ls.foldl (FarmDepth.deliver worth) f = f
  | [], _ => rfl
  | l :: ls, h => by
      obtain ⟨hl, hls⟩ := List.forall_mem_cons.1 h
      have hkept : f.deliver worth l = f := by
        rw [FarmDepth.deliver, hl, htick]
      rw [List.foldl_cons, hkept, foldl_deliver_of_none htick ls hls]

omit [Zero Price] [One Price] [LT Price] [DecidableLT Price] in
lemma BookEntry.tag_of_levelOn {e : BookEntry} {l : BookLevel}
    (h : e.levelOn tag = some l) : l.tag = tag := by
  unfold levelOn at h
  split at h
  · cases h
    rfl
  · cases h
    rfl
  · split at h
    · cases h
      rfl
    · cases h

lemma depthSection_levels (f : FarmDepth Price) (s : ℕ × List BookEntry) :
    f.depthSection worth s = (s.2.filterMap (·.levelOn s.1)).foldl (FarmDepth.deliver worth) f := by
  rw [FarmDepth.depthSection]
  cases htick : f.lookupDepthStag s.1 with
  | none =>
      refine (foldl_deliver_of_none worth htick _ fun l hl => ?_).symm
      obtain ⟨e, -, he⟩ := List.mem_filterMap.1 hl
      exact e.tag_of_levelOn he
  | some tick => exact foldl_bookEntry worth s.2 htick

lemma handleDepth35y_eq (f : FarmDepth Price) (msg : Bytes) :
    f.handleDepth35y worth msg = (levelsOf msg).foldl (FarmDepth.deliver worth) f := by
  rw [FarmDepth.handleDepth35y, levelsOf]
  induction readBook msg generalizing f with
  | nil => rfl
  | cons s ss ih =>
      rw [List.foldl_cons, ih, depthSection_levels, List.flatMap_cons, List.foldl_append]

end

/-! ## What is written is read -/

lemma digits_mul_add (x v : ℕ) : ∀ {n m : ℕ}, n ≤ m → digits n (x * 2 ^ m + v) = digits n v
  | 0, _, _ => rfl
  | n + 1, m, h => by
      have hbit : (x * 2 ^ m + v).testBit n = v.testBit n := by
        obtain ⟨k, rfl⟩ := Nat.exists_eq_add_of_le h
        have hpow : x * 2 ^ (n + 1 + k) = 2 ^ n * (2 * (2 ^ k * x)) := by ring
        rw [Nat.testBit_eq_decide_div_mod_eq, Nat.testBit_eq_decide_div_mod_eq, hpow,
          Nat.mul_add_div (Nat.two_pow_pos _), Nat.mul_add_mod]
      rw [digits, digits, hbit, digits_mul_add x v (Nat.le_of_succ_le h)]

lemma digits_number : ∀ b : BookBits, digits b.length (number 0 b) = b
  | [] => rfl
  | x :: b => by
      have hcons : number 0 (x :: b) = x.toNat * 2 ^ b.length + number 0 b := by
        rw [← number_eq]
        cases x <;> rfl
      have hhead : (number 0 (x :: b)).testBit b.length = x := by
        rw [hcons, Nat.testBit_eq_decide_div_mod_eq, Nat.add_comm,
          Nat.add_mul_div_right _ _ (Nat.two_pow_pos _), Nat.div_eq_of_lt (number_lt b),
          Nat.zero_add]
        cases x <;> rfl
      rw [List.length_cons, digits, hhead, hcons, digits_mul_add _ _ le_rfl, digits_number b]

def BookField.stated (level : LevelStated) (fs : List BookField) : LevelStated :=
  fs.foldl (fun level f => level.field f.form.id f.value) level

def WrittenEntry.read (e : WrittenEntry) : BookEntry :=
  ⟨e.op, e.nameText, e.position.toNat, BookField.stated {} e.fields⟩

lemma LevelStated.field_eq (l : LevelStated) (f : BookField) :
    l.field f.form.id f.value
      = ⟨(f.priced.map (·.2)).or l.price, (f.sized.map (·.2)).or l.size,
          l.side.or ((f.priced <|> f.sized).map (·.1))⟩ := by
  have hshift : f.form.id >>> 2 = f.form.id / 4 := Nat.shiftRight_eq_div_pow _ _
  obtain ⟨price, size, side⟩ := l
  unfold LevelStated.field BookField.priced BookField.sized
  rw [hshift]
  rcases f.value with _ | v
  · cases side <;> simp
  · rcases hid : f.form.id / 4 with _ | _ | _ | _ | _ | _ | n <;> cases side <;> simp

lemma last_cons {α β γ : Type} (g : α → Option (β × γ)) (x : α) (xs : List α) (o : Option γ) :
    (((x :: xs).filterMap g).getLast?.map (·.2)).or o
      = ((xs.filterMap g).getLast?.map (·.2)).or (((g x).map (·.2)).or o) := by
  rw [List.filterMap_cons]
  generalize xs.filterMap g = ys
  cases g x with
  | none => rfl
  | some y =>
      rw [List.getLast?_cons]
      cases ys.getLast? <;> rfl

lemma head_cons {α β γ : Type} (g : α → Option (β × γ)) (x : α) (xs : List α) (o : Option β) :
    o.or (((x :: xs).filterMap g).head?.map (·.1))
      = (o.or ((g x).map (·.1))).or ((xs.filterMap g).head?.map (·.1)) := by
  rw [List.filterMap_cons]
  cases o with
  | some o => rfl
  | none =>
      cases g x <;> rfl

lemma BookField.stated_eq (fs : List BookField) :
    BookField.stated {} fs = ⟨BookField.price fs, BookField.size fs, BookField.side fs⟩ := by
  have hfrom : ∀ (fs : List BookField) (l : LevelStated), BookField.stated l fs
      = ⟨(BookField.price fs).or l.price, (BookField.size fs).or l.size,
          l.side.or (BookField.side fs)⟩ := by
    intro fs
    induction fs with
    | nil =>
        rintro ⟨price, size, side⟩
        cases side <;> rfl
    | cons f fs ih =>
        intro l
        refine (ih (l.field f.form.id f.value)).trans ?_
        rw [l.field_eq f, BookField.price, BookField.price, last_cons, BookField.size,
          BookField.size, last_cons, BookField.side, BookField.side, head_cons]
  rw [hfrom fs {}, Option.or_none, Option.or_none, Option.none_or]

lemma WrittenEntry.levelOn_read (tag : ℕ) (e : WrittenEntry) :
    e.read.levelOn tag = e.level tag := by
  obtain ⟨unread, op, name, position, fields, short, carries⟩ := e
  rw [WrittenEntry.read, BookEntry.levelOn, BookField.stated_eq, WrittenEntry.level]
  rcases op with ⟨_ | _ | _ | _ | n, hop⟩
  · cases BookField.price fields <;> cases BookField.size fields <;>
      cases BookField.side fields <;> rfl
  · cases BookField.price fields <;> cases BookField.size fields <;>
      cases BookField.side fields <;> rfl
  · rfl
  · rfl
  · omega

/-! ### The bits of what is written -/

lemma BookFieldForm.head (more : Bool) (form : BookFieldForm) :
    BookFieldHead form.id more form.octets (form.bits more) := by
  cases form with
  | short id len => exact .short more id.isLt len.isLt
  | long unread id len => exact .long more id.isLt len.isLt unread.isLt

lemma BookField.body (f : BookField) :
    BookFieldBody f.form.octets f.value (f.negative :: f.magnitude) := by
  rw [BookField.value]
  by_cases hwidth : 0 < f.form.octets ∧ f.form.octets ≤ 8
  · have hdigits := digits_number f.magnitude
    have hlt := number_lt f.magnitude
    rw [f.fits] at hdigits hlt
    rw [if_pos hwidth]
    conv => rhs; rw [← hdigits]
    exact .number f.negative hwidth hlt
  · rw [if_neg hwidth]
    exact .passed f.negative (by omega) f.fits

lemma BookField.wire : ∀ (fs : List BookField) (level : LevelStated), fs ≠ [] →
    BookFieldsWire level (BookField.stated level fs) (BookField.bits fs)
  | [], _, h => absurd rfl h
  | [f], level, _ => by
      rw [BookField.bits, BookField.bits, List.append_nil]
      exact .last (f.form.head false) f.body
  | f :: g :: fs, level, _ => by
      have hrest := BookField.wire (g :: fs) (level.field f.form.id f.value) (List.cons_ne_nil _ _)
      rw [BookField.bits, ← List.cons_append]
      exact .cons (f.form.head true) f.body hrest

lemma WrittenEntry.nameBits_eq (e : WrittenEntry) :
    nameBits e.nameText.toList = bitsOf e.name ∧ e.nameText.toList.length = e.name.length := by
  have hchar (o : UInt8) : (Char.ofNat o.toNat).toNat = o.toNat :=
    Utf8.toNat_ofNat (Or.inl (o.toNat_lt.trans (by decide)))
  rw [nameText, String.toList_ofList, nameBits, List.flatMap_map, List.length_map]
  refine ⟨?_, rfl⟩
  simp only [hchar]
  rfl

lemma WrittenEntry.wire (more : Bool) (e : WrittenEntry) :
    BookEntryWire more e.read (e.bits more) := by
  obtain ⟨hname, hlength⟩ := e.nameBits_eq
  rw [WrittenEntry.bits, ← hname, ← hlength]
  refine .mk e.unread e.op.isLt ?_ ?_ e.position.toNat_lt ?_
  · exact hlength.trans_lt e.short
  · intro c hc
    have hc : c ∈ e.nameText.toList := hc
    rw [nameText, String.toList_ofList] at hc
    obtain ⟨o, -, rfl⟩ := List.mem_map.1 hc
    rw [Utf8.toNat_ofNat (Or.inl (o.toNat_lt.trans (by decide)))]
    exact o.toNat_lt
  · split_ifs with hlow
    · exact BookField.wire e.fields {} (e.carries.1 hlow)
    · have hnone : e.fields = [] := not_not.1 fun h => hlow (e.carries.2 h)
      rw [WrittenEntry.read, hnone]
      exact ⟨rfl, rfl⟩

lemma WrittenEntry.entriesWire :
    ∀ es : List WrittenEntry, es ≠ [] →
      BookEntriesWire (es.map WrittenEntry.read) (WrittenEntry.entriesBits es)
  | [], h => absurd rfl h
  | [e], _ => by
      rw [entriesBits, entriesBits, List.append_nil]
      exact .last (e.wire false)
  | e :: e' :: es, _ => by
      rw [entriesBits]
      exact .cons (e.wire true) (WrittenEntry.entriesWire (e' :: es) (List.cons_ne_nil _ _))

def WrittenSection.read (s : WrittenSection) : ℕ × List BookEntry :=
  (s.tag, s.entries.map WrittenEntry.read)

lemma WrittenSection.wire :
    ∀ ss : List WrittenSection, ss ≠ [] →
      BookSectionsWire (ss.map WrittenSection.read) (WrittenSection.bits ss)
  | [], h => absurd rfl h
  | [s], _ => by
      rw [bits, bits]
      exact .last false s.named (WrittenEntry.entriesWire _ s.stated) (Or.inl rfl)
  | s :: s' :: ss, _ => by
      rw [bits]
      exact .cons s.named (WrittenEntry.entriesWire _ s.stated)
        (WrittenSection.wire (s' :: ss) (List.cons_ne_nil _ _))

lemma WrittenSection.flatMap_levels (sections : List WrittenSection) :
    (sections.map WrittenSection.read).flatMap (fun s => s.2.filterMap (·.levelOn s.1))
      = sections.flatMap WrittenSection.levels := by
  rw [List.flatMap_map]
  congr 1
  funext s
  rw [WrittenSection.read, WrittenSection.levels, List.filterMap_map]
  congr 1
  funext e
  exact e.levelOn_read s.tag

def countedBits (msg : Bytes) : Option BookBits :=
  (findBodyAfterTag msg (ascii "35=Y\x01")).bind BookBits.ofBody

lemma levelsOf_frame {sections : List WrittenSection} {msg : Bytes} (h : FrameOf sections msg) :
    levelsOf msg = sections.flatMap WrittenSection.levels := by
  obtain @⟨before, payload, hi, lo, unread, hmark, hcount, hpayload, hspare⟩ := h
  have hcycle : (payload.length + 2) * 8 ≤ (WrittenSection.bits sections).length + bitCycle := by
    rw [bitCycle]
    omega
  rcases eq_or_ne sections [] with rfl | hsome
  · rw [levelsOf, readBook, findBodyAfterTag_of_find hmark, Option.bind_some,
      BookBits.ofBody_counted hpayload hcount hcycle]
    rfl
  · rw [levelsOf, readBook_wire (.mk hmark (WrittenSection.wire _ hsome) hpayload hcount hcycle),
      WrittenSection.flatMap_levels]

/-! ## What is read was written -/

variable {bits : BookBits}

lemma take_of_gives {n v : ℕ} {rest : BookBits} (h : Reader.Gives (take n) bits v rest) :
    bits = digits n v ++ rest ∧ v < 2 ^ n := by
  obtain ⟨_, _, hget, h⟩ := h.of_bind
  cases hget
  by_cases hshort : bits.length < n ∨ 64 < n
  · rw [if_pos hshort] at h
    cases h
  · rw [if_neg hshort] at h
    obtain ⟨_, _, hset, h⟩ := h.of_bind
    cases hset
    obtain ⟨rfl, rfl⟩ := h.pure_eq
    have hlen : (List.take n bits).length = n := by
      rw [List.length_take]
      omega
    have hdigits := digits_number (List.take n bits)
    have hlt := number_lt (List.take n bits)
    rw [hlen] at hdigits hlt
    exact ⟨by rw [hdigits, List.take_append_drop], hlt⟩

lemma take_one_of_gives {v : ℕ} {rest : BookBits} (h : Reader.Gives (take 1) bits v rest) :
    bits = decide (v ≠ 0) :: rest ∧ v = (decide (v ≠ 0)).toNat := by
  obtain ⟨rfl, hv⟩ := take_of_gives h
  obtain rfl | rfl : v = 0 ∨ v = 1 := by omega
  · exact ⟨rfl, rfl⟩
  · exact ⟨rfl, rfl⟩

lemma skip_of_gives {n : ℕ} {rest : BookBits} (h : Reader.Gives (skip n) bits () rest) :
    ∃ own, bits = own ++ rest ∧ own.length = n := by
  obtain ⟨_, _, hget, h⟩ := h.of_bind
  cases hget
  by_cases hshort : bits.length < n
  · rw [if_pos hshort] at h
    cases h
  · rw [if_neg hshort] at h
    cases h
    refine ⟨List.take n bits, (List.take_append_drop n bits).symm, ?_⟩
    rw [List.length_take]
    omega

lemma readFieldHead_of_gives {rest : BookBits} {id len : ℕ} {more : Bool}
    (h : Reader.Gives readFieldHead bits (id, more, len) rest) :
    ∃ form : BookFieldForm, bits = form.bits more ++ rest ∧ form.id = id ∧ form.octets = len := by
  obtain ⟨id', bits₁, hid, h₁⟩ := h.of_bind
  obtain ⟨more', bits₂, hmore, h₂⟩ := h₁.of_bind
  obtain ⟨len', bits₃, hlen, h₃⟩ := h₂.of_bind
  obtain ⟨rfl, hidlt⟩ := take_of_gives hid
  obtain ⟨rfl, -⟩ := take_one_of_gives hmore
  obtain ⟨rfl, hlenlt⟩ := take_of_gives hlen
  by_cases hlong : id' = 31
  · rw [if_pos hlong] at h₃
    obtain ⟨id₂, bits₄, hid₂, h₄⟩ := h₃.of_bind
    obtain ⟨len₂, bits₅, hlen₂, h₅⟩ := h₄.of_bind
    obtain ⟨rfl, hid₂lt⟩ := take_of_gives hid₂
    obtain ⟨rfl, hlen₂lt⟩ := take_of_gives hlen₂
    obtain ⟨heq, rfl⟩ := h₅.pure_eq
    cases heq
    refine ⟨.long ⟨len', hlenlt⟩ ⟨id, hid₂lt⟩ ⟨len, hlen₂lt⟩, ?_, rfl, rfl⟩
    simp only [BookFieldForm.bits, hlong, List.append_assoc, List.cons_append]
  · rw [if_neg hlong] at h₃
    obtain ⟨heq, rfl⟩ := h₃.pure_eq
    cases heq
    refine ⟨.short ⟨id, by omega⟩ ⟨len', hlenlt⟩, ?_, rfl, rfl⟩
    simp only [BookFieldForm.bits, List.append_assoc, List.cons_append]

lemma readFieldBody_of_gives {form : BookFieldForm} {rest : BookBits} {value : Option ℤ}
    (h : Reader.Gives (readFieldBody form.octets) bits value rest) :
    ∃ f : BookField, f.form = form ∧ f.value = value ∧
      bits = f.negative :: (f.magnitude ++ rest) := by
  unfold readFieldBody at h
  simp only [] at h
  by_cases hwidth : 8 * form.octets = 0 ∨ 64 < 8 * form.octets
  · rw [if_pos hwidth] at h
    obtain ⟨sign, bits₁, hsign, h₁⟩ := h.of_bind
    obtain ⟨_, bits₂, hskip, h₂⟩ := h₁.of_bind
    obtain ⟨rfl, -⟩ := take_one_of_gives hsign
    obtain ⟨own, rfl, hown⟩ := skip_of_gives hskip
    obtain ⟨rfl, rfl⟩ := h₂.pure_eq
    refine ⟨⟨form, decide (sign ≠ 0), own, hown⟩, rfl, ?_, rfl⟩
    exact if_neg (by simp only []; omega)
  · rw [if_neg hwidth] at h
    obtain ⟨sign, bits₁, hsign, h₁⟩ := h.of_bind
    obtain ⟨magnitude, bits₂, hmagnitude, h₂⟩ := h₁.of_bind
    obtain ⟨rfl, hbit⟩ := take_one_of_gives hsign
    obtain ⟨rfl, hlt⟩ := take_of_gives hmagnitude
    obtain ⟨rfl, rfl⟩ := h₂.pure_eq
    refine ⟨⟨form, decide (sign ≠ 0), digits (8 * form.octets - 1) magnitude,
      length_digits _ _⟩, rfl, ?_, rfl⟩
    rw [BookField.value, if_pos (by simp only []; omega)]
    simp only [number_digits, Nat.zero_mul, Nat.zero_add, Nat.mod_eq_of_lt hlt]
    obtain rfl | rfl : sign = 0 ∨ sign = 1 := by
      rcases Bool.eq_false_or_eq_true (decide (sign ≠ 0)) with h | h
      · rw [h] at hbit
        exact Or.inr hbit
      · rw [h] at hbit
        exact Or.inl hbit
    · rfl
    · rfl

lemma readFields_of_gives : ∀ {fuel : ℕ} {level stated : LevelStated} {bits rest : BookBits},
    Reader.Gives (readFields fuel level) bits stated rest →
      ∃ fs : List BookField, fs ≠ [] ∧ bits = BookField.bits fs ++ rest ∧
        stated = BookField.stated level fs
  | 0, _, _, _, _, h => by cases h
  | fuel + 1, level, stated, bits, rest, h => by
      obtain ⟨⟨id, more, len⟩, bits₁, hhead, h₁⟩ := h.of_bind
      obtain ⟨value, bits₂, hbody, h₂⟩ := Reader.Gives.of_bind h₁
      obtain ⟨form, rfl, rfl, rfl⟩ := readFieldHead_of_gives hhead
      obtain ⟨f, rfl, rfl, rfl⟩ := readFieldBody_of_gives hbody
      cases more with
      | true =>
          obtain ⟨fs, hne, rfl, rfl⟩ := readFields_of_gives h₂
          refine ⟨f :: fs, List.cons_ne_nil _ _, ?_, rfl⟩
          have hmore : (!fs.isEmpty) = true := by simp [hne]
          simp only [BookField.bits, hmore, List.append_assoc, List.cons_append]
      | false =>
          obtain ⟨rfl, rfl⟩ := Reader.Gives.pure_eq h₂
          refine ⟨[f], List.cons_ne_nil _ _, ?_, rfl⟩
          simp only [BookField.bits, List.isEmpty_nil, Bool.not_true, List.append_assoc,
            List.cons_append, List.nil_append]

lemma readName_of_gives : ∀ {n : ℕ} {name : List Char} {bits rest : BookBits},
    Reader.Gives (readName n) bits name rest →
      ∃ own : Bytes, bits = bitsOf own ++ rest ∧ own.length = n ∧
        name = own.map fun o => Char.ofNat o.toNat
  | 0, _, _, _, h => by
      obtain ⟨rfl, rfl⟩ := Reader.Gives.pure_eq h
      exact ⟨[], rfl, rfl, rfl⟩
  | n + 1, name, bits, rest, h => by
      obtain ⟨c, bits₁, hc, h₁⟩ := h.of_bind
      obtain ⟨cs, bits₂, hcs, h₂⟩ := h₁.of_bind
      obtain ⟨rfl, hlt⟩ := take_of_gives hc
      obtain ⟨own, rfl, hlen, rfl⟩ := readName_of_gives hcs
      obtain ⟨rfl, rfl⟩ := h₂.pure_eq
      have hbyte : (UInt8.ofNat c).toNat = c := UInt8.toNat_ofNat_of_lt' hlt
      refine ⟨UInt8.ofNat c :: own, ?_, ?_, ?_⟩
      · have hcons : bitsOf (UInt8.ofNat c :: own) = digits 8 (UInt8.ofNat c).toNat ++ bitsOf own :=
          List.flatMap_cons
        rw [hcons, hbyte, List.append_assoc]
      · rw [List.length_cons, hlen]
      · rw [List.map_cons, hbyte]

lemma readLevel_of_gives {op : ℕ} {level : LevelStated} {rest : BookBits}
    (h : Reader.Gives (readLevel op) bits level rest) :
    ∃ fs : List BookField, (op < 2 ↔ fs ≠ []) ∧ bits = BookField.bits fs ++ rest ∧
      level = BookField.stated {} fs := by
  obtain ⟨_, _, hget, h₁⟩ := h.of_bind
  cases hget
  by_cases hlow : op < 2
  · rw [if_pos hlow] at h₁
    obtain ⟨fs, hne, hbits, hlevel⟩ := readFields_of_gives h₁
    exact ⟨fs, ⟨fun _ => hne, fun _ => hlow⟩, hbits, hlevel⟩
  · rw [if_neg hlow] at h₁
    obtain ⟨rfl, rfl⟩ := h₁.pure_eq
    exact ⟨[], ⟨fun h => absurd h hlow, fun h => absurd rfl h⟩, rfl, rfl⟩

lemma readEntry_of_gives {rest : BookBits} {more : Bool} {e : BookEntry}
    (h : Reader.Gives readEntry bits (more, e) rest) :
    ∃ w : WrittenEntry, bits = w.bits more ++ rest ∧ e = w.read := by
  obtain ⟨more', bits₁, hmore, h₁⟩ := h.of_bind
  obtain ⟨unread, bits₂, hunread, h₂⟩ := h₁.of_bind
  obtain ⟨op, bits₃, hop, h₃⟩ := h₂.of_bind
  obtain ⟨nameLen, bits₄, hnameLen, h₄⟩ := h₃.of_bind
  obtain ⟨name, bits₅, hname, h₅⟩ := h₄.of_bind
  obtain ⟨position, bits₆, hposition, h₆⟩ := h₅.of_bind
  obtain ⟨level, bits₇, hlevel, h₇⟩ := h₆.of_bind
  obtain ⟨rfl, -⟩ := take_one_of_gives hmore
  obtain ⟨rfl, -⟩ := take_one_of_gives hunread
  obtain ⟨rfl, hoplt⟩ := take_of_gives hop
  obtain ⟨rfl, hnameLt⟩ := take_of_gives hnameLen
  obtain ⟨own, rfl, rfl, rfl⟩ := readName_of_gives hname
  obtain ⟨rfl, hpositionLt⟩ := take_of_gives hposition
  obtain ⟨fs, hcarries, rfl, rfl⟩ := readLevel_of_gives hlevel
  obtain ⟨heq, rfl⟩ := h₇.pure_eq
  cases heq
  have hbyte : (UInt8.ofNat position).toNat = position := UInt8.toNat_ofNat_of_lt' hpositionLt
  refine ⟨⟨decide (unread ≠ 0), ⟨op, hoplt⟩, own, UInt8.ofNat position, fs, hnameLt, hcarries⟩,
    ?_, ?_⟩
  · simp only [WrittenEntry.bits, hbyte, List.append_assoc, List.cons_append]
  · rw [WrittenEntry.read]
    simp only [hbyte]
    rfl

lemma WrittenEntry.length_bits (more : Bool) (w : WrittenEntry) : 0 < (w.bits more).length :=
  Nat.succ_pos _

inductive LiesIn : List BookLevel → BookBits → Prop
  | nil (bits : BookBits) : LiesIn [] bits
  | cons {l : BookLevel} {ls : List BookLevel} {rest : BookBits} (passed : BookBits) (more : Bool)
      (w : WrittenEntry) (hlevel : w.level l.tag = some l) (hrest : LiesIn ls rest) :
      LiesIn (l :: ls) (passed ++ (w.bits more ++ rest))

namespace LiesIn

variable {ls ls' : List BookLevel} {bits bits' : BookBits}

lemma behind (passed : BookBits) (h : LiesIn ls bits) : LiesIn ls (passed ++ bits) := by
  cases h with
  | nil => exact .nil _
  | cons passed' more w hlevel hrest =>
      rw [← List.append_assoc]
      exact .cons _ more w hlevel hrest

lemma append (h : LiesIn ls bits) (h' : LiesIn ls' bits') : LiesIn (ls ++ ls') (bits ++ bits') := by
  induction h with
  | nil bits => exact h'.behind bits
  | cons passed more w hlevel _ ih =>
      rw [List.append_assoc, List.append_assoc]
      exact .cons passed more w hlevel ih

lemma entry (tag : ℕ) (more : Bool) (w : WrittenEntry) :
    LiesIn (w.read.levelOn tag).toList (w.bits more) := by
  rw [w.levelOn_read]
  cases hlevel : w.level tag with
  | none => exact .nil _
  | some l =>
      have htag : l.tag = tag := w.read.tag_of_levelOn ((w.levelOn_read tag).trans hlevel)
      have h := LiesIn.cons [] more w (htag.symm ▸ hlevel) (.nil [])
      rwa [List.nil_append, List.append_nil] at h

end LiesIn

lemma readEntries_liesIn (tag : ℕ) : ∀ {fuel : ℕ} {bits : BookBits} {es : List BookEntry}
    {left : Option BookBits}, readEntries fuel bits = (es, left) →
      ∃ own, bits = own ++ left.getD [] ∧ LiesIn (es.filterMap (·.levelOn tag)) own
  | 0, bits, es, left, h => by
      cases h
      exact ⟨bits, (List.append_nil bits).symm, .nil _⟩
  | fuel + 1, bits, es, left, h => by
      rw [readEntries] at h
      rcases hread : readEntry.outcome bits with ⟨_ | ⟨more, e⟩, rest⟩
      · rw [hread] at h
        cases h
        exact ⟨bits, (List.append_nil bits).symm, .nil _⟩
      · rw [hread] at h
        obtain ⟨w, rfl, rfl⟩ := readEntry_of_gives hread
        have hcons (es : List BookEntry) : (w.read :: es).filterMap (·.levelOn tag)
            = (w.read.levelOn tag).toList ++ es.filterMap (·.levelOn tag) := by
          rw [List.filterMap_cons]
          cases w.read.levelOn tag <;> rfl
        cases more with
        | true =>
            rcases hrest : readEntries fuel rest with ⟨es', left'⟩
            simp only [hrest, if_true] at h
            cases h
            obtain ⟨own, rfl, hlies⟩ := readEntries_liesIn tag hrest
            refine ⟨w.bits true ++ own, (List.append_assoc _ _ _).symm, ?_⟩
            rw [hcons]
            exact (LiesIn.entry tag true w).append hlies
        | false =>
            simp only [Bool.false_eq_true, if_false] at h
            cases h
            refine ⟨w.bits false, rfl, ?_⟩
            have h := LiesIn.entry tag false w
            rw [hcons]
            rwa [List.filterMap_nil, List.append_nil]

lemma readSections_liesIn : ∀ (fuel : ℕ) (bits : BookBits),
    LiesIn ((readSections fuel bits).flatMap fun s => s.2.filterMap (·.levelOn s.1)) bits
  | 0, bits => .nil bits
  | fuel + 1, bits => by
      rw [readSections]
      rcases hhead : readSectionHead.outcome bits with ⟨_ | ⟨more, tag⟩, rest⟩
      · exact .nil bits
      · obtain ⟨head, rfl⟩ : ∃ head, bits = head ++ rest := by
          obtain ⟨_, bits₁, hmore, h₁⟩ := Reader.Gives.of_bind hhead
          obtain ⟨_, bits₂, htag, h₂⟩ := h₁.of_bind
          obtain ⟨rfl, -⟩ := take_one_of_gives hmore
          obtain ⟨rfl, -⟩ := take_of_gives htag
          obtain ⟨-, rfl⟩ := h₂.pure_eq
          exact ⟨_ :: digits 31 _, rfl⟩
        refine LiesIn.behind head ?_
        rcases hentries : readEntries (rest.length + 1) rest with ⟨es, _ | left⟩
        · obtain ⟨own, rfl, hlies⟩ := readEntries_liesIn tag hentries
          simpa only [hentries, List.flatMap_cons, List.flatMap_nil] using hlies.append (.nil _)
        · obtain ⟨own, rfl, hlies⟩ := readEntries_liesIn tag hentries
          simp only [hentries, List.flatMap_cons]
          refine hlies.append ?_
          split_ifs
          · exact .nil _
          · exact readSections_liesIn fuel left

/-! ## The loops end

Each turn of a loop takes bits off the front, so that one more turn than there are bits is never
taken. -/

lemma readFields_fuel : ∀ {fuel fuel' : ℕ} {level : LevelStated} {bits : BookBits},
    bits.length < fuel → bits.length < fuel' →
      (readFields fuel level).outcome bits = (readFields fuel' level).outcome bits
  | 0, _, _, _, h, _ => absurd h (Nat.not_lt_zero _)
  | _ + 1, 0, _, _, _, h => absurd h (Nat.not_lt_zero _)
  | fuel + 1, fuel' + 1, level, bits, h, h' => by
      rw [readFields, readFields]
      refine Reader.outcome_bind_congr ?_
      rintro ⟨id, more, len⟩ rest₁ hhead
      obtain ⟨form, rfl, rfl, rfl⟩ := readFieldHead_of_gives hhead
      refine Reader.outcome_bind_congr fun value rest₂ hbody => ?_
      obtain ⟨f, rfl, rfl, rfl⟩ := readFieldBody_of_gives hbody
      simp only [List.length_append, List.length_cons] at h h'
      cases more with
      | true => exact readFields_fuel (by omega) (by omega)
      | false => rfl

lemma readEntries_fuel : ∀ {fuel fuel' : ℕ} {bits : BookBits},
    bits.length < fuel → bits.length < fuel' → readEntries fuel bits = readEntries fuel' bits
  | 0, _, _, h, _ => absurd h (Nat.not_lt_zero _)
  | _ + 1, 0, _, _, h => absurd h (Nat.not_lt_zero _)
  | fuel + 1, fuel' + 1, bits, h, h' => by
      rw [readEntries, readEntries]
      rcases hread : readEntry.outcome bits with ⟨_ | ⟨more, e⟩, rest⟩
      · rfl
      · obtain ⟨w, rfl, rfl⟩ := readEntry_of_gives hread
        have hpos := w.length_bits more
        rw [List.length_append] at h h'
        have hrest : readEntries fuel rest = readEntries fuel' rest :=
          readEntries_fuel (by omega) (by omega)
        simp only [hrest]

lemma readSections_fuel : ∀ {fuel fuel' : ℕ} {bits : BookBits},
    bits.length < fuel → bits.length < fuel' → readSections fuel bits = readSections fuel' bits
  | 0, _, _, h, _ => absurd h (Nat.not_lt_zero _)
  | _ + 1, 0, _, _, h => absurd h (Nat.not_lt_zero _)
  | fuel + 1, fuel' + 1, bits, h, h' => by
      rw [readSections, readSections]
      rcases hhead : readSectionHead.outcome bits with ⟨_ | ⟨more, tag⟩, rest⟩
      · rfl
      · obtain ⟨_, _, hmore, h₁⟩ := Reader.Gives.of_bind hhead
        obtain ⟨_, _, htag, h₂⟩ := h₁.of_bind
        obtain ⟨rfl, -⟩ := take_one_of_gives hmore
        obtain ⟨rfl, -⟩ := take_of_gives htag
        obtain ⟨-, rfl⟩ := h₂.pure_eq
        rcases hentries : readEntries (rest.length + 1) rest with ⟨es, _ | left⟩
        · simp only [hentries]
        · obtain ⟨own, rfl, -⟩ := readEntries_liesIn 0 hentries
          simp only [Option.getD_some, List.length_cons, List.length_append] at h h' hentries ⊢
          have hrest : readSections fuel left = readSections fuel' left :=
            readSections_fuel (by omega) (by omega)
          simp only [hentries, hrest]

/-- The loops of the reader end of themselves: let run for longer, they come to the same. -/
structure LoopsEnd (bits : BookBits) : Prop where
  fields : ∀ (level : LevelStated) (fuel : ℕ), bits.length < fuel →
    (readFields fuel level).outcome bits = (readFields (bits.length + 1) level).outcome bits
  entries : ∀ fuel : ℕ, bits.length < fuel →
    readEntries fuel bits = readEntries (bits.length + 1) bits
  sections : ∀ fuel : ℕ, bits.length < fuel →
    readSections fuel bits = readSections (bits.length + 1) bits

lemma loopsEnd (bits : BookBits) : LoopsEnd bits where
  fields _ _ h := readFields_fuel h (Nat.lt_succ_self _)
  entries _ h := readEntries_fuel h (Nat.lt_succ_self _)
  sections _ h := readSections_fuel h (Nat.lt_succ_self _)

/-! ## Any bytes -/

lemma levelsOf_eq (msg : Bytes) : levelsOf msg = ((countedBits msg).elim [] fun bits =>
    readSections (bits.length + 1) bits).flatMap fun s => s.2.filterMap (·.levelOn s.1) := by
  rw [levelsOf, readBook, countedBits]
  cases (findBodyAfterTag msg (ascii "35=Y\x01")).bind BookBits.ofBody <;> rfl

lemma countedBits_short {msg bytes : Bytes} {hi lo : UInt8}
    (hbody : findBodyAfterTag msg (ascii "35=Y\x01") = some (hi :: lo :: bytes))
    (hshort : bytes.length * 8 < bitsCarried (hi.toNat * 256 + lo.toNat) (bytes.length + 2)) :
    countedBits msg = none := by
  rw [countedBits, hbody, Option.bind_some, BookBits.ofBody]
  exact if_pos hshort

lemma countedBits_prefix {msg : Bytes} (h : countedBits msg = some bits) :
    ∃ (hi lo : UInt8) (bytes : Bytes),
      findBodyAfterTag msg (ascii "35=Y\x01") = some (hi :: lo :: bytes) ∧
      bits = (bitsOf bytes).take (bitsCarried (hi.toNat * 256 + lo.toNat) (bytes.length + 2)) ∧
      bitsCarried (hi.toNat * 256 + lo.toNat) (bytes.length + 2) ≤ bytes.length * 8 := by
  obtain ⟨body, hbody, h⟩ := Option.bind_eq_some_iff.1 h
  rcases body with _ | ⟨hi, _ | ⟨lo, bytes⟩⟩
  · cases h
  · cases h
  · rw [BookBits.ofBody] at h
    simp only [List.length_cons] at h
    split_ifs at h with hshort
    cases h
    exact ⟨hi, lo, bytes, hbody, rfl, not_lt.1 hshort⟩

structure DeliversWithin (msg : Bytes) : Prop where
  /-- A frame that states more bits than it has bytes for delivers nothing. -/
  short : ∀ (hi lo : UInt8) (bytes : Bytes),
    findBodyAfterTag msg (ascii "35=Y\x01") = some (hi :: lo :: bytes) →
    bytes.length * 8 < bitsCarried (hi.toNat * 256 + lo.toNat) (bytes.length + 2) →
    levelsOf msg = []
  /-- What is delivered stands, entry for entry, in the bits counted behind the count. -/
  within : levelsOf msg = [] ∨ ∃ (hi lo : UInt8) (bytes : Bytes),
    findBodyAfterTag msg (ascii "35=Y\x01") = some (hi :: lo :: bytes) ∧
    bitsCarried (hi.toNat * 256 + lo.toNat) (bytes.length + 2) ≤ bytes.length * 8 ∧
    LiesIn (levelsOf msg)
      ((bitsOf bytes).take (bitsCarried (hi.toNat * 256 + lo.toNat) (bytes.length + 2)))

lemma deliversWithin (msg : Bytes) : DeliversWithin msg where
  short hi lo bytes hbody hshort := by
    rw [levelsOf_eq, countedBits_short hbody hshort]
    rfl
  within := by
    rw [levelsOf_eq]
    cases hcounted : countedBits msg with
    | none => exact Or.inl rfl
    | some bits =>
        obtain ⟨hi, lo, bytes, hbody, rfl, hfits⟩ := countedBits_prefix hcounted
        exact Or.inr ⟨hi, lo, bytes, hbody, hfits, readSections_liesIn _ _⟩

variable {Price : Type} [Zero Price] [One Price] [LT Price] [DecidableLT Price]
  (worth : ℤ → Price → Price)

/-- **A book frame is delivered entry for entry.**  Whatever sections are written by the grammar,
the levels their entries state are delivered, once and in order; whatever the bytes are, the reader
ends, delivers nothing of a frame cut short and nothing from outside the bits counted; and a frame
is to the books of a farm what its levels are, one after another. -/
theorem book_frame_delivered :
    (∀ (sections : List WrittenSection) (msg : Bytes), FrameOf sections msg →
      levelsOf msg = sections.flatMap WrittenSection.levels) ∧
    (∀ msg : Bytes, DeliversWithin msg) ∧
    (∀ bits : BookBits, LoopsEnd bits) ∧
    ∀ (f : FarmDepth Price) (msg : Bytes),
      f.handleDepth35y worth msg = (levelsOf msg).foldl (FarmDepth.deliver worth) f :=
  ⟨fun _ _ h => levelsOf_frame h, deliversWithin, loopsEnd, handleDepth35y_eq worth⟩

/-- Two sections: an insert with a field of no width among its fields, a delete, and an update of
the ask with its size behind a long id. -/
def twoBooks : List WrittenSection :=
  [⟨7, [⟨true, 0, ascii "NYSE ", 0,
      [⟨.short 2 1, false, digits 15 1234, by decide⟩, ⟨.long 0 9 0, true, [], by decide⟩,
        ⟨.short 20 0, false, digits 7 5, by decide⟩], by decide, by decide⟩,
      ⟨false, 2, [], 3, [], by decide, by decide⟩], by decide, by decide⟩,
    ⟨9, [⟨false, 1, ascii "B", 1, [⟨.short 4 0, true, digits 7 3, by decide⟩,
      ⟨.long 3 16 2, false, digits 15 700, by decide⟩], by decide, by decide⟩],
      by decide, by decide⟩]

/-- The octets that carry them, behind the count of their 281 bits. -/
def twoBooksOctets : Bytes :=
  [128, 0, 0, 7, 197, 78, 89, 83, 69, 32, 0, 21, 4, 210, 252, 9, 0, 208, 2, 144, 1, 128, 0, 0, 4,
    136, 161, 0, 146, 65, 253, 136, 1, 1, 94, 0]

theorem book_frame_delivered_two :
    FrameOf twoBooks (ascii "8=O\x01" ++ (ascii "35=Y\x01" ++ 1 :: 25 :: twoBooksOctets)) ∧
    levelsOf (ascii "8=O\x01" ++ (ascii "35=Y\x01" ++ 1 :: 25 :: twoBooksOctets))
      = [⟨7, 0, .bid, 0, "NYSE ", 1234, 5⟩, ⟨7, 2, .bid, 3, "", 0, 0⟩,
          ⟨9, 1, .ask, 1, "B", -3, 700⟩] := by
  have hframe : FrameOf twoBooks
      (ascii "8=O\x01" ++ (ascii "35=Y\x01" ++ 1 :: 25 :: twoBooksOctets)) :=
    @FrameOf.mk _ _ _ _ _ (List.replicate 7 false) (by decide +kernel) (by decide +kernel)
      (by decide +kernel) (by decide +kernel)
  have hlevels : twoBooks.flatMap WrittenSection.levels
      = [⟨7, 0, .bid, 0, "NYSE ", 1234, 5⟩, ⟨7, 2, .bid, 3, "", 0, 0⟩,
          ⟨9, 1, .ask, 1, "B", -3, 700⟩] := by decide +kernel
  exact ⟨hframe,
    ((book_frame_delivered fun n _ => (n : ℤ)).1 twoBooks _ hframe).trans hlevels⟩

end IbkrDx
