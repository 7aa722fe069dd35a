import IbkrDx.Lib.Replace
import Mathlib.Data.List.DropRight

/-!
# The keys presets are asked for under

`PresetKey::parse`, `PresetKey::selector` and `request_selector` of `control/attached_presets.rs`,
with the request for a preset's values and its answer of `control/order_presets.rs`.

* **`asked_under_its_own_name`** — the keys that are read back, exactly.
-/

namespace IbkrDx.Presets

open Replacement

abbrev Text := List Char

/-! ## The code -/

structure PresetKey where
  smartRouting : Option Text := none
  securityType : Option Text := none
  universeName : Option Text := none
  symbol : Option Text := none
  mifidSelector : Option Text := none
  allocationSelector : Option Text := none
  deriving DecidableEq

def decodeKeyValue (value : Text) : Text :=
  replaceAll ['%', '2', '6'] ['&'] <| replaceAll ['%', '3', 'D'] ['='] <|
    replaceAll ['%', '2', '0'] [' '] <| replaceAll ['%', '2', '5'] ['%'] value

def encodeKeyValue (value : Text) : Text :=
  replaceAll ['&'] ['%', '2', '6'] <| replaceAll ['='] ['%', '3', 'D'] <|
    replaceAll [' '] ['%', '2', '0'] <| replaceAll ['%'] ['%', '2', '5'] value

namespace PresetKey

def set (key : PresetKey) (name value : Text) : PresetKey :=
  if name = ['s', 'r'] then { key with smartRouting := some value }
  else if name = ['s'] then { key with securityType := some value }
  else if name = ['u'] then { key with universeName := some value }
  else if name = ['t', 'c'] then { key with symbol := some value }
  else if name = ['m', '2'] then { key with mifidSelector := some value }
  else if name = ['f'] then { key with allocationSelector := some value }
  else key

/-- One part of a key read: a name and a value, the signs at its end dropped. -/
def readPart (key : PresetKey) (part : Text) : PresetKey :=
  let trimmed := part.rdropWhile (· = '=')
  if '=' ∈ trimmed then
    let value := (trimmed.dropWhile (· ≠ '=')).tail
    if '=' ∈ value then key else key.set (trimmed.takeWhile (· ≠ '=')) (decodeKeyValue value)
  else key

def parse (value : Text) : PresetKey := (value.splitOn '&').foldl readPart {}

def named (key : PresetKey) : List (Text × Option Text) :=
  [(['s', 'r'], key.smartRouting), (['s'], key.securityType), (['u'], key.universeName),
    (['t', 'c'], key.symbol), (['m', '2'], key.mifidSelector), (['f'], key.allocationSelector)]

def written (entry : Text × Option Text) : Option Text :=
  (entry.2.filter (· ≠ [])).map fun value => entry.1 ++ '=' :: encodeKeyValue value

def selector (key : PresetKey) : Text := ['&'].intercalate (key.named.filterMap written)

end PresetKey

def requestSelector (listed : Text) : Text := (PresetKey.parse listed).selector

def valuesRequest (requestKey key : Text) : List (ℕ × Text) :=
  [(6556, requestKey), (6040, ['1', '9', '3']), (8166, ['G']), (8176, ['1']),
    (8168, requestSelector key)]

structure PresetValues where
  requestKey : Text
  key : Text
  attributes : Text
  error : Option Text
  fields : List (ℕ × Text)

/-- The fields of an answer that are not a preset's values. -/
def envelope : List ℕ :=
  [8, 9, 10, 34, 35, 43, 49, 52, 56, 58, 6040, 6556, 8166, 8167, 8168, 8169, 8170, 8176, 8349]

/-- `parse_values`, on the fields of a message in their order. -/
def parseValues (fields : List (ℕ × Text)) : Option PresetValues := do
  let value := fun tag => (fields.find? fun field => field.1 = tag).map Prod.snd
  let kind ← value 6040
  if kind ≠ ['1', '9', '4'] ∨ value 8166 ≠ some ['G'] then failure
  let requestKey ← value 6556
  let key := requestSelector (← value 8168)
  return {
    requestKey
    key
    attributes := replaceAll ['%', '2', '0'] [' '] ((value 8169).getD [])
    error := (value 58).filter (· ≠ [])
    fields := (fields.filter fun field => field.1 ∉ envelope).map fun field =>
      (field.1, replaceAll ['%', '2', '0'] [' '] field.2) }

/-! ## Escapes -/

def esc (table : List (Char × Text)) (c : Char) : Text := (table.lookup c).getD [c]

/-- The escapes of a table: a percent sign and two characters that are none. -/
def Codes (table : List (Char × Text)) : Prop :=
  ∀ c e, table.lookup c = some e → ∃ a b, e = ['%', a, b] ∧ a ≠ '%' ∧ b ≠ '%'

section

variable {x y a b t : Char} {r s : Text} {table : List (Char × Text)}

lemma codes_nil : Codes [] := fun c e h => absurd h (by simp)

lemma Codes.cons (hcodes : Codes table) (c : Char) (ha : a ≠ '%') (hb : b ≠ '%') :
    Codes ((c, ['%', a, b]) :: table) := by
  intro d e h
  by_cases hd : d = c
  · subst hd
    rw [List.lookup_cons_self] at h
    exact ⟨a, b, (Option.some.inj h).symm, ha, hb⟩
  · have hbeq : (d == c) = false := beq_false_of_ne hd
    rw [List.lookup_cons, hbeq] at h
    exact hcodes d e h

lemma lookup_ne {e : Text} (h : ∀ entry ∈ table, entry.2 ≠ e) (c : Char) :
    table.lookup c ≠ some e := by
  intro hlook
  obtain ⟨front, back, rfl, -⟩ := List.lookup_eq_some_iff.1 hlook
  exact h (c, e) (by simp) rfl

lemma replaceAll_code (ha : a ≠ '%') (hb : b ≠ '%') (hne : ¬ (a = x ∧ b = y)) (s : Text) :
    replaceAll ['%', x, y] r ('%' :: a :: b :: s) =
      '%' :: a :: b :: replaceAll ['%', x, y] r s := by
  have hpre : ¬ ['%', x, y] <+: '%' :: a :: b :: s := by
    intro h
    simp only [List.cons_prefix_cons, List.nil_prefix, and_true, true_and] at h
    exact hne ⟨h.1.symm, h.2.symm⟩
  rw [replaceAll_cons hpre, replaceAll_cons_of_ne ha.symm, replaceAll_cons_of_ne hb.symm]

lemma prefix_of_prefix_esc (hcodes : Codes table) :
    ∀ (q s : Text), '%' ∉ q → q <+: s.flatMap (esc table) → q <+: s
  | [], _, _, _ => List.nil_prefix
  | _ :: _, [], _, h => h
  | d :: q, c :: s, hq, h => by
      rw [List.flatMap_cons, esc] at h
      cases hc : table.lookup c with
      | none =>
          rw [hc, Option.getD_none, List.singleton_append] at h
          obtain ⟨rfl, hrest⟩ := List.cons_prefix_cons.1 h
          have hq' : '%' ∉ q := fun hmem => hq (List.mem_cons_of_mem _ hmem)
          exact List.cons_prefix_cons.2 ⟨rfl, prefix_of_prefix_esc hcodes q s hq' hrest⟩
      | some e =>
          obtain ⟨a, b, rfl, -, -⟩ := hcodes c e hc
          rw [hc, Option.getD_some, List.cons_append] at h
          rw [(List.cons_prefix_cons.1 h).1] at hq
          exact absurd List.mem_cons_self hq

lemma replaceAll_esc_percent (hcodes : Codes table)
    (hother : ∀ c, table.lookup c ≠ some ['%', x, y]) (s : Text) :
    replaceAll ['%', x, y] ['%'] (s.flatMap (esc (('%', ['%', x, y]) :: table))) =
      s.flatMap fun c => if c = '%' then ['%'] else esc table c := by
  induction s with
  | nil => rfl
  | cons c s ih =>
      rw [List.flatMap_cons, List.flatMap_cons, ← ih]
      by_cases hc : c = '%'
      · subst hc
        have hesc : esc (('%', ['%', x, y]) :: table) '%' = ['%', x, y] := by simp [esc]
        rw [hesc, replaceAll_append (List.cons_ne_nil _ _), if_pos rfl]
      · have hesc : esc (('%', ['%', x, y]) :: table) c = esc table c := by
          have hbeq : (c == '%') = false := beq_false_of_ne hc
          simp [esc, List.lookup_cons, hbeq]
        rw [hesc, if_neg hc, esc]
        cases hlook : table.lookup c with
        | none => exact replaceAll_cons_of_ne (Ne.symm hc) _
        | some e =>
            obtain ⟨a, b, rfl, ha, hb⟩ := hcodes c e hlook
            refine replaceAll_code ha hb ?_ _
            rintro ⟨rfl, rfl⟩
            exact hother c hlook

lemma replaceAll_esc (hcodes : Codes table) (hother : ∀ c, table.lookup c ≠ some ['%', x, y])
    (hkept : ∀ c ∈ ['%', x, y, t], table.lookup c = none) (hx : x ≠ '%') (hy : y ≠ '%')
    (ht : t ∉ ['%', x, y]) (s : Text) :
    replaceAll ['%', x, y] [t] (s.flatMap (esc ((t, ['%', x, y]) :: table))) =
      (replaceAll ['%', x, y] [t] s).flatMap (esc table) := by
  have hne : ['%', x, y] ≠ [] := List.cons_ne_nil _ _
  have hnew (c : Char) (h : c ≠ t) : esc ((t, ['%', x, y]) :: table) c = esc table c := by
    have hbeq : (c == t) = false := beq_false_of_ne h
    simp [esc, List.lookup_cons, hbeq]
  have hown : esc ((t, ['%', x, y]) :: table) t = ['%', x, y] := by simp [esc]
  have hplain (c : Char) (h : c ∈ ['%', x, y, t]) : esc table c = [c] := by
    rw [esc, hkept c h, Option.getD_none]
  have hall : Codes ((t, ['%', x, y]) :: table) := hcodes.cons t hx hy
  induction s using replace_induction hne with
  | nil => rfl
  | here s ih =>
      have hpat : (['%', x, y] : Text).flatMap (esc ((t, ['%', x, y]) :: table)) = ['%', x, y] := by
        have hthree : ∀ c ∈ ['%', x, y], esc ((t, ['%', x, y]) :: table) c = [c] := by
          intro c hc
          have hct : c ≠ t := fun h => ht (h ▸ hc)
          rw [hnew c hct, hplain c (List.mem_append_left [t] hc)]
        rw [List.flatMap_cons, List.flatMap_cons, List.flatMap_cons, List.flatMap_nil,
          hthree '%' (by simp), hthree x (by simp), hthree y (by simp)]
        rfl
      rw [List.flatMap_append, hpat, replaceAll_append hne, replaceAll_append hne, ih,
        List.flatMap_append, List.flatMap_singleton, hplain t (by simp)]
  | past c cs hpre ih =>
      rw [replaceAll_cons hpre, List.flatMap_cons, List.flatMap_cons, ← ih]
      by_cases hc : c = t
      · subst hc
        rw [hown, replaceAll_append hne, hplain c (by simp)]
      · rw [hnew c hc, esc]
        cases hlook : table.lookup c with
        | none =>
            refine replaceAll_cons fun h => hpre ?_
            -- what is not escaped is followed by the pattern's rest only if the text goes on so
            obtain ⟨rfl, hrest⟩ := List.cons_prefix_cons.1 h
            refine List.cons_prefix_cons.2 ⟨rfl, prefix_of_prefix_esc hall _ _ ?_ hrest⟩
            simp [Ne.symm hx, Ne.symm hy]
        | some e =>
            obtain ⟨a, b, rfl, ha, hb⟩ := hcodes c e hlook
            refine replaceAll_code ha hb ?_ _
            rintro ⟨rfl, rfl⟩
            exact hother c hlook

end

/-! ## A text escaped and read back -/

def escapes : List (Char × Text) :=
  [('%', ['%', '2', '5']), (' ', ['%', '2', '0']), ('=', ['%', '3', 'D']), ('&', ['%', '2', '6'])]

/-- The text spells no escape of a blank, an equals sign or an ampersand. -/
def Clean (v : Text) : Prop :=
  ¬ ['%', '2', '0'] <:+: v ∧ ¬ ['%', '3', 'D'] <:+: v ∧ ¬ ['%', '2', '6'] <:+: v

instance : DecidablePred Clean := fun _ => inferInstanceAs (Decidable (_ ∧ _ ∧ _))

lemma encodeKeyValue_eq (v : Text) : encodeKeyValue v = v.flatMap (esc escapes) := by
  rw [encodeKeyValue, replaceAll_singleton, replaceAll_singleton, replaceAll_singleton,
    replaceAll_singleton, List.flatMap_assoc, List.flatMap_assoc, List.flatMap_assoc]
  refine congrArg v.flatMap (funext fun c => ?_)
  by_cases hp : c = '%'
  · subst hp
    decide
  · by_cases hb : c = ' '
    · subst hb
      decide
    · by_cases he : c = '='
      · subst he
        decide
      · by_cases ha : c = '&'
        · subst ha
          decide
        · simp [esc, escapes, List.lookup_cons, hp, hb, he, ha, beq_false_of_ne]

lemma decode_encode_eq (v : Text) : decodeKeyValue (encodeKeyValue v) =
    replaceAll ['%', '2', '6'] ['&'] (replaceAll ['%', '3', 'D'] ['=']
      (replaceAll ['%', '2', '0'] [' '] v)) := by
  have hand : Codes [('&', ['%', '2', '6'])] := codes_nil.cons '&' (by decide) (by decide)
  have hequals : Codes [('=', ['%', '3', 'D']), ('&', ['%', '2', '6'])] :=
    hand.cons '=' (by decide) (by decide)
  have hblank : Codes [(' ', ['%', '2', '0']), ('=', ['%', '3', 'D']), ('&', ['%', '2', '6'])] :=
    hequals.cons ' ' (by decide) (by decide)
  have hpercent : (fun c => if c = '%' then ['%'] else
      esc [(' ', ['%', '2', '0']), ('=', ['%', '3', 'D']), ('&', ['%', '2', '6'])] c) =
      esc [(' ', ['%', '2', '0']), ('=', ['%', '3', 'D']), ('&', ['%', '2', '6'])] := by
    funext c
    by_cases hc : c = '%'
    · subst hc
      decide
    · exact if_neg hc
  rw [decodeKeyValue, encodeKeyValue_eq, escapes,
    replaceAll_esc_percent hblank (lookup_ne (by decide)), hpercent,
    replaceAll_esc hequals (lookup_ne (by decide)) (by simp) (by decide) (by decide) (by decide),
    replaceAll_esc hand (lookup_ne (by decide)) (by simp) (by decide) (by decide) (by decide),
    replaceAll_esc codes_nil (lookup_ne (by decide)) (by simp) (by decide) (by decide)
      (by decide)]
  exact List.flatMap_singleton' _

lemma decode_encode_eq_iff (v : Text) : decodeKeyValue (encodeKeyValue v) = v ↔ Clean v := by
  rw [decode_encode_eq]
  have hshort (t x y : Char) : [t].length < ['%', x, y].length := Nat.lt_of_sub_eq_succ rfl
  have hequals := length_replaceAll_le (hshort '=' '3' 'D') (replaceAll ['%', '2', '0'] [' '] v)
  constructor
  · intro heq
    have hlen := congrArg List.length heq
    have hand := length_replaceAll_le (hshort '&' '2' '6')
      (replaceAll ['%', '3', 'D'] ['='] (replaceAll ['%', '2', '0'] [' '] v))
    -- each of the three leaves the text, or it would have become shorter
    have hb : ¬ ['%', '2', '0'] <:+: v := fun h => by
      have hlt := length_replaceAll_lt (hshort ' ' '2' '0') h
      omega
    rw [replaceAll_absent hb] at heq hlen hand hequals
    have he : ¬ ['%', '3', 'D'] <:+: v := fun h => by
      have hlt := length_replaceAll_lt (hshort '=' '3' 'D') h
      omega
    rw [replaceAll_absent he] at heq
    exact ⟨hb, he, (replaceAll_eq_self_iff (hshort '&' '2' '6')).1 heq⟩
  · rintro ⟨hb, he, ha⟩
    rw [replaceAll_absent hb, replaceAll_absent he, replaceAll_absent ha]

lemma clean_decode (v : Text) : Clean (decodeKeyValue v) := by
  have hne (x y : Char) : ['%', x, y] ≠ [] := List.cons_ne_nil _ _
  refine ⟨fun h => ?_, fun h => ?_, not_infix_replaceAll (hne _ _) (by decide) _⟩
  · have hback := infix_of_infix_replaceAll (hne _ _) (by decide) (hne _ _) _
      (infix_of_infix_replaceAll (hne _ _) (by decide) (hne _ _) _ h)
    exact not_infix_replaceAll (hne _ _) (by decide) _ hback
  · have hback := infix_of_infix_replaceAll (hne _ _) (by decide) (hne _ _) _ h
    exact not_infix_replaceAll (hne _ _) (by decide) _ hback

lemma decode_ne_nil {v : Text} (h : v ≠ []) : decodeKeyValue v ≠ [] :=
  have hne (x y : Char) : ['%', x, y] ≠ [] := List.cons_ne_nil _ _
  replaceAll_ne_nil (hne _ _) (replaceAll_ne_nil (hne _ _)
    (replaceAll_ne_nil (hne _ _) (replaceAll_ne_nil (hne _ _) h)))

lemma not_mem_encode {c : Char} (hc : c = '=' ∨ c = '&') (v : Text) : c ∉ encodeKeyValue v := by
  rw [encodeKeyValue_eq, List.mem_flatMap]
  rintro ⟨d, -, hmem⟩
  rw [esc] at hmem
  cases hlook : escapes.lookup d with
  | none =>
      rw [hlook, Option.getD_none, List.mem_singleton] at hmem
      subst hmem
      rcases hc with rfl | rfl <;> exact absurd hlook (by decide)
  | some e =>
      rw [hlook, Option.getD_some] at hmem
      obtain ⟨front, back, hsplit, -⟩ := List.lookup_eq_some_iff.1 hlook
      have hentry : (d, e) ∈ escapes := by
        rw [hsplit]
        simp
      have hall : ∀ entry ∈ escapes, '=' ∉ entry.2 ∧ '&' ∉ entry.2 := by decide
      rcases hc with rfl | rfl
      · exact (hall _ hentry).1 hmem
      · exact (hall _ hentry).2 hmem

lemma encode_ne_nil {v : Text} (h : v ≠ []) : encodeKeyValue v ≠ [] := by
  obtain ⟨c, cs, rfl⟩ := List.exists_cons_of_ne_nil h
  rw [encodeKeyValue_eq, List.flatMap_cons, esc]
  cases hlook : escapes.lookup c with
  | none => exact List.cons_ne_nil _ _
  | some e =>
      obtain ⟨front, back, hsplit, -⟩ := List.lookup_eq_some_iff.1 hlook
      have hall : ∀ entry ∈ escapes, entry.2 ≠ [] := by decide
      have hentry : (c, e) ∈ escapes := by
        rw [hsplit]
        simp
      exact fun hnil => hall _ hentry (List.append_eq_nil_iff.1 hnil).1

/-! ## Keys -/

namespace PresetKey

def Every (P : Text → Prop) (key : PresetKey) : Prop := ∀ entry ∈ key.named, ∀ v ∈ entry.2, P v

variable {P : Text → Prop} {key : PresetKey}

lemma every_iff : key.Every P ↔
    (∀ v ∈ key.smartRouting, P v) ∧ (∀ v ∈ key.securityType, P v) ∧
      (∀ v ∈ key.universeName, P v) ∧ (∀ v ∈ key.symbol, P v) ∧
      (∀ v ∈ key.mifidSelector, P v) ∧ ∀ v ∈ key.allocationSelector, P v := by
  simp [Every, named]

lemma Every.set (h : key.Every P) {v : Text} (hv : P v)
    (name : Text) : (key.set name v).Every P := by
  have hsome : ∀ w ∈ some v, P w := fun w hw => Option.some.inj hw ▸ hv
  obtain ⟨hsr, hs, hu, htc, hm2, hf⟩ := every_iff.1 h
  rw [PresetKey.set]
  split
  case isTrue _ => exact every_iff.2 ⟨hsome, hs, hu, htc, hm2, hf⟩
  split
  case isTrue _ => exact every_iff.2 ⟨hsr, hsome, hu, htc, hm2, hf⟩
  split
  case isTrue _ => exact every_iff.2 ⟨hsr, hs, hsome, htc, hm2, hf⟩
  split
  case isTrue _ => exact every_iff.2 ⟨hsr, hs, hu, hsome, hm2, hf⟩
  split
  case isTrue _ => exact every_iff.2 ⟨hsr, hs, hu, htc, hsome, hf⟩
  split
  case isTrue _ => exact every_iff.2 ⟨hsr, hs, hu, htc, hm2, hsome⟩
  exact h

/-! ## What a key read states -/

lemma Every.readPart (hP : ∀ v, v ≠ [] → P (decodeKeyValue v))
    (h : key.Every P) (part : Text) : (key.readPart part).Every P := by
  rw [PresetKey.readPart]
  split
  case isFalse _ => exact h
  case isTrue hsign =>
    dsimp only
    split
    case isTrue _ => exact h
    case isFalse _ =>
      refine h.set (hP _ fun hempty => ?_) _
      -- a sign with nothing behind it would be the last character
      have hdrop : (part.rdropWhile (· = '=')).dropWhile (· ≠ '=') = ['='] := by
        cases hd : (part.rdropWhile (· = '=')).dropWhile (· ≠ '=') with
        | nil =>
            have hall := List.dropWhile_eq_nil_iff.1 hd '=' hsign
            exact absurd hall (by decide)
        | cons c cs =>
            have hc : c = '=' := by
              have hhead := List.head?_dropWhile_not (fun c => decide (c ≠ '='))
                (part.rdropWhile (· = '='))
              rw [hd] at hhead
              simpa using hhead
            rw [hd] at hempty
            rw [hc, show cs = [] from hempty]
      have hlast : (part.rdropWhile (· = '=')).getLast (List.ne_nil_of_mem hsign) = '=' := by
        have hsuffix : ['='] <:+ part.rdropWhile (· = '=') := hdrop ▸ List.dropWhile_suffix _
        obtain ⟨front, hfront⟩ := hsuffix
        simp only [← hfront, List.getLast_append_singleton]
      exact List.rdropWhile_last_not _ _ (List.ne_nil_of_mem hsign) (by simpa using hlast)

lemma every_parse (hP : ∀ v, v ≠ [] → P (decodeKeyValue v)) (value : Text) :
    (parse value).Every P := by
  have hfold (parts : List Text) (key : PresetKey) (h : key.Every P) :
      (parts.foldl PresetKey.readPart key).Every P := by
    induction parts generalizing key with
    | nil => exact h
    | cons part parts ih => exact ih _ (h.readPart hP part)
  refine hfold _ _ (every_iff.2 ?_)
  simp

/-! ## A key written and read -/

def restate (o : Option Text) : Option Text :=
  (o.filter (· ≠ [])).map fun v => decodeKeyValue (encodeKeyValue v)

def restated (key : PresetKey) : PresetKey where
  smartRouting := restate key.smartRouting
  securityType := restate key.securityType
  universeName := restate key.universeName
  symbol := restate key.symbol
  mifidSelector := restate key.mifidSelector
  allocationSelector := restate key.allocationSelector

def put (key : PresetKey) (name : Text) : Option Text → PresetKey
  | some v => key.set name v
  | none => key

lemma readPart_written {name v : Text} (hname : '=' ∉ name) (hv : v ≠ []) (key : PresetKey) :
    key.readPart (name ++ '=' :: encodeKeyValue v) =
      key.set name (decodeKeyValue (encodeKeyValue v)) := by
  have henc := encode_ne_nil hv
  have hsign := not_mem_encode (.inl rfl) v
  have hfront : ∀ c ∈ name, decide (c ≠ '=') = true := by
    intro c hc
    rw [decide_eq_true_eq]
    rintro rfl
    exact hname hc
  have htrim : (name ++ '=' :: encodeKeyValue v).rdropWhile (· = '=') =
      name ++ '=' :: encodeKeyValue v := by
    refine List.rdropWhile_eq_self_iff.2 fun hl hlast => hsign ?_
    rw [List.getLast_append_of_ne_nil _ (List.cons_ne_nil _ _), List.getLast_cons henc,
      decide_eq_true_eq] at hlast
    rw [← hlast]
    exact List.getLast_mem henc
  have htake : ('=' :: encodeKeyValue v).takeWhile (fun c => decide (c ≠ '=')) = [] := by simp
  have hdrop : ('=' :: encodeKeyValue v).dropWhile (fun c => decide (c ≠ '=')) =
      '=' :: encodeKeyValue v := by simp
  rw [readPart, htrim]
  simp only [List.dropWhile_append_of_pos hfront, List.takeWhile_append_of_pos hfront, htake, hdrop,
    List.append_nil, List.tail_cons, if_neg hsign]
  rw [if_pos (List.mem_append_right _ List.mem_cons_self)]

lemma readPart_entry {entry : Text × Option Text} (hname : '=' ∉ entry.1) (key : PresetKey) :
    (match written entry with
      | some part => key.readPart part
      | none => key) = key.put entry.1 (restate entry.2) := by
  rw [written, restate]
  cases hentry : entry.2.filter (· ≠ []) with
  | none => rfl
  | some v =>
      have hv : v ≠ [] := by
        obtain ⟨-, hne⟩ := Option.filter_eq_some_iff.1 hentry
        simpa using hne
      exact readPart_written hname hv key

lemma foldl_splitOn (parts : List Text) (h : ∀ part ∈ parts, '&' ∉ part) :
    ((['&'].intercalate parts).splitOn '&').foldl PresetKey.readPart {} =
      parts.foldl PresetKey.readPart {} := by
  cases parts with
  | nil => decide
  | cons part parts => rw [List.splitOn_intercalate _ h (List.cons_ne_nil _ _)]

lemma put_eq (key : PresetKey) (o : Option Text) :
    key.put ['s', 'r'] o = { key with smartRouting := o <|> key.smartRouting } ∧
    key.put ['s'] o = { key with securityType := o <|> key.securityType } ∧
    key.put ['u'] o = { key with universeName := o <|> key.universeName } ∧
    key.put ['t', 'c'] o = { key with symbol := o <|> key.symbol } ∧
    key.put ['m', '2'] o = { key with mifidSelector := o <|> key.mifidSelector } ∧
    key.put ['f'] o = { key with allocationSelector := o <|> key.allocationSelector } := by
  cases o <;> exact ⟨rfl, rfl, rfl, rfl, rfl, rfl⟩

lemma parse_selector (key : PresetKey) : parse key.selector = key.restated := by
  have hparts : ∀ part ∈ key.named.filterMap written, '&' ∉ part := by
    intro part hpart
    obtain ⟨entry, hentry, hwritten⟩ := List.mem_filterMap.1 hpart
    obtain ⟨v, -, rfl⟩ := Option.map_eq_some_iff.1 hwritten
    have hname : ∀ entry ∈ key.named, '&' ∉ entry.1 := by
      simp only [named, List.forall_mem_cons]
      decide
    rw [List.mem_append, List.mem_cons]
    rintro (hmem | hmem | hmem)
    · exact hname entry hentry hmem
    · exact absurd hmem (by decide)
    · exact not_mem_encode (.inr rfl) v hmem
  have hfold : (key.named.filterMap written).foldl PresetKey.readPart {} =
      key.named.foldl (fun key entry => key.put entry.1 (restate entry.2)) {} := by
    rw [List.foldl_filterMap]
    refine List.foldl_ext _ _ _ fun key' entry hentry => ?_
    have hname : ∀ entry ∈ key.named, '=' ∉ entry.1 := by
      simp only [named, List.forall_mem_cons]
      decide
    have hstep := readPart_entry (hname entry hentry) key'
    cases hw : written entry with
    | none => rwa [hw] at hstep
    | some part => rwa [hw] at hstep
  have hnone (o : Option Text) : (o <|> none) = o := by cases o <;> rfl
  rw [parse, selector, foldl_splitOn _ hparts, hfold, named]
  simp only [List.foldl_cons, List.foldl_nil, (put_eq _ _).1, (put_eq _ _).2.1,
    (put_eq _ _).2.2.1, (put_eq _ _).2.2.2.1, (put_eq _ _).2.2.2.2.1, (put_eq _ _).2.2.2.2.2,
    hnone, restated]

lemma restate_eq_iff {o : Option Text} (h : ∀ v ∈ o, v ≠ []) :
    restate o = o ↔ ∀ v ∈ o, Clean v := by
  cases o with
  | none => exact ⟨fun _ v hv => absurd hv (by simp), fun _ => rfl⟩
  | some v =>
      have hv : v ≠ [] := h v rfl
      have hfilter : (some v).filter (· ≠ []) = some v := by simp [hv]
      rw [restate, hfilter, Option.map_some, Option.some.injEq, decode_encode_eq_iff]
      exact ⟨fun hclean w hw => Option.some.inj hw ▸ hclean, fun hall => hall v rfl⟩

lemma parse_selector_eq_iff (h : key.Every (· ≠ [])) :
    parse key.selector = key ↔ key.Every Clean := by
  obtain ⟨hsr, hs, hu, htc, hm2, hf⟩ := every_iff.1 h
  rw [parse_selector, every_iff, ← restate_eq_iff hsr, ← restate_eq_iff hs, ← restate_eq_iff hu,
    ← restate_eq_iff htc, ← restate_eq_iff hm2, ← restate_eq_iff hf]
  cases key
  simp only [restated, PresetKey.mk.injEq]

end PresetKey

open PresetKey

lemma requestSelector_idem (listed : Text) :
    requestSelector (requestSelector listed) = requestSelector listed := by
  have hne := every_parse (P := (· ≠ [])) (fun v hv => decode_ne_nil hv) listed
  have hclean := every_parse (P := Clean) (fun v _ => clean_decode v) listed
  rw [requestSelector, requestSelector, (parse_selector_eq_iff hne).2 hclean]

lemma key_of_parseValues {fields : List (ℕ × Text)} {values : PresetValues}
    (h : parseValues fields = some values) : ∃ stated,
      (fields.find? fun field => field.1 = 8168).map Prod.snd = some stated ∧
        values.key = requestSelector stated := by
  simp only [parseValues, Option.bind_eq_bind, Option.bind_eq_some_iff] at h
  obtain ⟨kind, -, h⟩ := h
  split at h
  case isTrue _ => exact absurd h (by simp [failure])
  case isFalse _ =>
    simp only [Option.bind_eq_some_iff] at h
    obtain ⟨requestKey, -, stated, hstated, h⟩ := h
    refine ⟨stated, hstated, ?_⟩
    rw [← Option.some.inj h]

/-- **A preset is asked for under its own name**, exactly where its selectors spell no escape of a
blank, an equals sign or an ampersand: its key is read back from its selector, and of two such keys
no two are asked for under one selector.  Whatever is asked for, an answer that states the selector
of its request is held under that, and asking again changes nothing. -/
theorem asked_under_its_own_name (key : PresetKey) (hkey : key.Every (· ≠ [])) :
    (PresetKey.parse key.selector = key ↔ key.Every Clean) ∧
    (key.Every Clean → ∀ other : PresetKey, other.Every (· ≠ []) → other.Every Clean →
      requestSelector key.selector = requestSelector other.selector → key = other) ∧
    (key.Every Clean → ∀ requestKey, (8168, key.selector) ∈ valuesRequest requestKey key.selector) ∧
    (∀ requestKey listed answer values, parseValues answer = some values →
      (answer.find? fun field => field.1 = 8168).map Prod.snd =
        ((valuesRequest requestKey listed).find? fun field => field.1 = 8168).map Prod.snd →
      values.key = requestSelector listed) ∧
    ∀ listed, requestSelector (requestSelector listed) = requestSelector listed := by
  refine ⟨parse_selector_eq_iff hkey, ?_, ?_, ?_, requestSelector_idem⟩
  · intro hclean other hother hclean' heq
    have hown := (parse_selector_eq_iff hkey).2 hclean
    have hown' := (parse_selector_eq_iff hother).2 hclean'
    rw [requestSelector, requestSelector, hown, hown'] at heq
    rw [← hown, heq, hown']
  · intro hclean requestKey
    rw [valuesRequest, requestSelector, (parse_selector_eq_iff hkey).2 hclean]
    simp
  · intro requestKey listed answer values hread hecho
    obtain ⟨stated, hstated, hheld⟩ := key_of_parseValues hread
    have hsame : stated = requestSelector listed := by
      rw [hstated] at hecho
      exact Option.some.inj hecho
    rw [hheld, hsame, requestSelector_idem]

theorem asked_under_its_own_name_spaced :
    PresetKey.parse (PresetKey.selector { securityType := some ['S'], symbol := some ['A', ' '] }) =
      { securityType := some ['S'], symbol := some ['A', ' '] } :=
  (asked_under_its_own_name { securityType := some ['S'], symbol := some ['A', ' '] }
    (by simp [every_iff])).1.2 (by simp only [every_iff]; decide)

/-- A symbol that spells a blank's escape is read back with the blank, and is asked for under the
selector of the symbol with the blank. -/
theorem escape_spelled_is_lost :
    PresetKey.parse (PresetKey.selector { symbol := some ['A', '%', '2', '0'] }) ≠
      { symbol := some ['A', '%', '2', '0'] } ∧
    requestSelector (PresetKey.selector { symbol := some ['A', '%', '2', '0'] }) =
      requestSelector (PresetKey.selector { symbol := some ['A', ' '] }) := by
  decide

end IbkrDx.Presets
