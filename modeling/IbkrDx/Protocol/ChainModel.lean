import IbkrDx.Lib.BigEndian
import IbkrDx.Lib.Exactly
import IbkrDx.Lib.Removal
import IbkrDx.Protocol.Fix
import Mathlib.Data.List.DropRight

/-!
# The chain-model record

`protocol/chain_model.rs`: the parameters the venue's option model works a chain from, read out of a
compressed stream whose fields depend on the version stated first.

* **`record_reads_back`** — a record is read as it was written, and nothing is read of less.

Inflating, division, what is no number and the calendar's dates are parameters; a text is its bytes
and a double its bits.
-/

namespace IbkrDx.ChainModel

open Reader

abbrev Text := Bytes

abbrev Double := UInt64

/-! ## The code -/

structure ChainModelTerm where
  lastTradeDate : Text
  modelYield : Double
  interestRate : Double
  forward : Double
  callAtmVol : Double
  putAtmVol : Double
  attributes : ℤ

structure ChainModelParameters where
  productId : ℤ
  classes : List (Text × List Double)
  underlyingPrice : Option Double
  dividends : List (Text × Double)
  indexStyleDividends : Bool
  terms : List ChainModelTerm
  timestampMillis : ℤ
  attributes : ℤ

def maxInflated : ℕ := 64 * 1024 * 1024

/-- The bytes from the pair that opens a compressed stream on. -/
def fromMagic : Bytes → Option Bytes
  | a :: b :: rest => if a = 0x78 ∧ b = 0x9C then some (a :: b :: rest) else fromMagic (b :: rest)
  | _ => none

/-- `split_list`: the empty members at the end are none, and a list of nothing is one. -/
def splitList (named : Text) : List Text :=
  let members := named.rdropWhile (· = 44)
  if named = [] ∨ members ≠ [] then members.splitOn 44 else []

def readI32 : Reader Bytes ℤ := do
  let bytes ← takeN 4
  let word := BigEndian.ofBe bytes
  return if word < 2 ^ 31 then (word : ℤ) else word - 2 ^ 32

def readF64 : Reader Bytes Double := do
  let bytes ← takeN 8
  return UInt64.ofNat (BigEndian.ofBe bytes)

def readAscii : Reader Bytes (Option Text) := do
  let stated ← readI32
  if stated < 0 then return none
  let body ← takeN stated.toNat
  let _ ← takeN ((4 - stated.toNat % 4) % 4)
  return some body

/-- A multiplier put down for a class, behind its others and once. -/
def place (classes : List (Text × List Double)) (mention : Text × Double) :
    List (Text × List Double) :=
  if classes.any fun c => decide (c.1 = mention.1) then
    Removal.modifyFirst (fun c => decide (c.1 = mention.1))
      (fun c => (c.1, if mention.2 ∈ c.2 then c.2 else c.2 ++ [mention.2])) classes
  else classes ++ [(mention.1, [mention.2])]

/-- The classes of one list under one multiplier; one named twice is a record that says two
things. -/
def placeOnce (multiplier : Double) : List Text → List (Text × List Double) →
    Option (List (Text × List Double))
  | [], classes => some classes
  | c :: cs, classes =>
      if classes.any fun placed => decide (placed.1 = c) then none
      else placeOnce multiplier cs (classes ++ [(c, [multiplier])])

/-- A term put down; a date stated twice keeps its place and takes the later figures. -/
def placeTerm (terms : List ChainModelTerm) (term : ChainModelTerm) : List ChainModelTerm :=
  if terms.any fun t => decide (t.lastTradeDate = term.lastTradeDate) then
    Removal.modifyFirst (fun t => decide (t.lastTradeDate = term.lastTradeDate)) (fun _ => term)
      terms
  else terms ++ [term]

section

variable (div : Double → Double → Double) (nan : Double) (day : ℤ → Option Text)

def ratio (numerator denominator : Double) : Double :=
  if denominator = 0 ∨ denominator = 0x8000000000000000 then nan else div numerator denominator

def readRational : Reader Bytes Double := do
  let numerator ← readF64
  let denominator ← readF64
  return ratio div nan numerator denominator

def readDate : Reader Bytes Text := do
  let days ← readI32
  take (day days)

def readPair : Reader Bytes (Double × Option Text) := do
  let multiplier ← readRational div nan
  let named ← readAscii
  return (multiplier, named)

def mentionsOf (pair : Double × Option Text) : List (Text × Double) :=
  (pair.2.elim [] splitList).map fun c => (c, pair.1)

def readClasses (version : ℤ) : Reader Bytes (List (Text × List Double)) := do
  if 1 < version then
    let stated ← readI32
    let pairs ← readMany (readPair div nan) stated.toNat
    return (pairs.flatMap mentionsOf).foldl place []
  else
    let named ← readAscii
    let multiplier ← readRational div nan
    take (placeOnce multiplier (named.elim [] splitList) [])

def readFlags (version : ℤ) : Reader Bytes ℤ := if 3 < version then readI32 else pure 1

def readTerm (version : ℤ) : Reader Bytes ChainModelTerm := do
  let lastTradeDate ← readDate day
  let modelYield ← readF64
  let interestRate ← readF64
  let forward ← readF64
  let callAtmVol ← readF64
  let putAtmVol ← readF64
  let attributes ← readFlags version
  return { lastTradeDate, modelYield, interestRate, forward, callAtmVol, putAtmVol, attributes }

def readStyle (version : ℤ) : Reader Bytes ℤ := if 2 < version then readI32 else pure 0

def readDividend : Reader Bytes (Text × Double) := do
  let exDate ← readDate day
  let amount ← readF64
  return (exDate, amount)

/-- A count, and as many values; a count below nought cannot be. -/
def readCounted {α : Type} (m : Reader Bytes α) : Reader Bytes (List α) := do
  let stated ← readI32
  if stated < 0 then failure
  readMany m stated.toNat

def priceStands (attributes : ℤ) : Bool := 4 ≤ attributes % 8

def readSet (version : ℤ) : Reader Bytes ChainModelParameters := do
  let productId ← readI32
  let classes ← readClasses div nan version
  let underlyingPrice ← readF64
  let dividends ← readCounted (readDividend day)
  let terms ← readCounted (readTerm day version)
  let seconds ← readI32
  let indexStyle ← readStyle version
  let attributes ← readFlags version
  return {
    productId
    classes
    underlyingPrice := if priceStands attributes then some underlyingPrice else none
    dividends
    indexStyleDividends := 0 < indexStyle
    terms := terms.foldl placeTerm []
    timestampMillis := seconds * 1000
    attributes }

def parseStream : Reader Bytes (List ChainModelParameters) := do
  let version ← readI32
  readCounted (readSet div nan day version)

def streamOf (inflate : Bytes → Bytes) (payload : Bytes) : Option Bytes :=
  (fromMagic payload).map fun start => (inflate start).take maxInflated

def parse (inflate : Bytes → Bytes) (payload : Bytes) : Option (List ChainModelParameters) :=
  (streamOf inflate payload).bind fun stream => ((parseStream div nan day).outcome stream).1

end

/-! ## Numbers on the wire -/

/-- A whole number of thirty-two bits. -/
def be32 (n : ℤ) : Bytes := BigEndian.toBe 4 (n % 2 ^ 32).toNat

def be64 (x : Double) : Bytes := BigEndian.toBe 8 x.toNat

/-- A number thirty-two bits hold. -/
def I32 (n : ℤ) : Prop := -2 ^ 31 ≤ n ∧ n < 2 ^ 31

@[simp] lemma length_be32 (n : ℤ) : (be32 n).length = 4 := BigEndian.length_toBe 4 _

@[simp] lemma length_be64 (x : Double) : (be64 x).length = 8 := BigEndian.length_toBe 8 _

lemma i32_natCast {n : ℕ} (h : n < 2 ^ 31) : I32 n := ⟨by omega, by exact_mod_cast h⟩

lemma exactly_i32 {n : ℤ} (h : I32 n) : Exactly readI32 (be32 n) n := by
  have hread := (exactly_takeN (length_be32 n)).map fun bytes =>
    (if BigEndian.ofBe bytes < 2 ^ 31 then (BigEndian.ofBe bytes : ℤ)
      else BigEndian.ofBe bytes - 2 ^ 32)
  have hlt : (n % 2 ^ 32).toNat < 256 ^ 4 := by omega
  have hword : BigEndian.ofBe (be32 n) = (n % 2 ^ 32).toNat := BigEndian.ofBe_toBe_of_lt hlt
  have hvalue : (if BigEndian.ofBe (be32 n) < 2 ^ 31 then (BigEndian.ofBe (be32 n) : ℤ)
      else BigEndian.ofBe (be32 n) - 2 ^ 32) = n := by
    rw [hword]
    obtain ⟨hlo, hhi⟩ := h
    split <;> omega
  rwa [hvalue] at hread

lemma exactly_f64 (x : Double) : Exactly readF64 (be64 x) x := by
  have hread := (exactly_takeN (length_be64 x)).map fun bytes =>
    UInt64.ofNat (BigEndian.ofBe bytes)
  have hword : BigEndian.ofBe (be64 x) = x.toNat := by
    refine BigEndian.ofBe_toBe_of_lt ?_
    exact x.toNat_lt
  rwa [hword, UInt64.ofNat_toNat] at hread

def ascii4 (t : Text) : Bytes :=
  be32 t.length ++ (t ++ List.replicate ((4 - t.length % 4) % 4) 0)

lemma exactly_ascii {t : Text} (h : t.length < 2 ^ 31) :
    Exactly readAscii (ascii4 t) (some t) := by
  refine (exactly_i32 (i32_natCast h)).bind ?_
  rw [if_neg (by omega), Int.toNat_natCast]
  refine (exactly_takeN rfl).bind ?_
  exact (exactly_takeN List.length_replicate).map fun _ => some t

lemma exactly_counted {α ι : Type} {m : Reader Bytes α} {wire : ι → Bytes} {value : ι → α}
    {l : List ι} (hl : l.length < 2 ^ 31) (h : ∀ i ∈ l, Exactly m (wire i) (value i)) :
    Exactly (readCounted m) (be32 l.length ++ l.flatMap wire) (l.map value) := by
  refine (exactly_i32 (i32_natCast hl)).bind ?_
  rw [if_neg (by omega), Int.toNat_natCast]
  exact exactly_readMany h

/-! ## Classes by their mentions -/

section

variable {α : Type} [DecidableEq α]

def firsts (l : List α) : List α :=
  l.foldl (fun seen a => if a ∈ seen then seen else seen ++ [a]) []

lemma firsts_append (l : List α) (a : α) :
    firsts (l ++ [a]) = if a ∈ firsts l then firsts l else firsts l ++ [a] := by
  rw [firsts, List.foldl_append]
  rfl

lemma mem_firsts {l : List α} {a : α} : a ∈ firsts l ↔ a ∈ l := by
  induction l using List.reverseRecOn with
  | nil => rfl
  | append_singleton l b ih =>
      rw [firsts_append, List.mem_append, List.mem_singleton, ← ih]
      split
      case isTrue hb =>
        refine ⟨.inl, ?_⟩
        rintro (h | rfl)
        · exact h
        · exact hb
      case isFalse hb => rw [List.mem_append, List.mem_singleton]

lemma nodup_firsts (l : List α) : (firsts l).Nodup := by
  induction l using List.reverseRecOn with
  | nil => exact List.nodup_nil
  | append_singleton l b ih =>
      rw [firsts_append]
      split
      case isTrue hb => exact ih
      case isFalse hb =>
        refine List.nodup_append.2 ⟨ih, List.nodup_singleton b, ?_⟩
        rintro a ha c hc rfl
        exact hb (List.mem_singleton.1 hc ▸ ha)

end

/-- The classes some mentions name, in the order they come, each with its multipliers in theirs. -/
def regroup (mentions : List (Text × Double)) : List (Text × List Double) :=
  (firsts (mentions.map Prod.fst)).map fun c =>
    (c, firsts ((mentions.filter fun mention => decide (mention.1 = c)).map Prod.snd))

lemma regroup_any (mentions : List (Text × Double)) (c : Text) :
    (regroup mentions).any (fun e => decide (e.1 = c)) = true ↔
      c ∈ firsts (mentions.map Prod.fst) := by
  simp [regroup, List.any_eq_true]

lemma foldl_place (mentions : List (Text × Double)) :
    mentions.foldl place [] = regroup mentions := by
  induction mentions using List.reverseRecOn with
  | nil => rfl
  | append_singleton l mention ih =>
      obtain ⟨c, m⟩ := mention
      have hlast (d : Text) : ((l ++ [(c, m)]).filter fun e => decide (e.1 = d)).map Prod.snd =
          (l.filter fun e => decide (e.1 = d)).map Prod.snd ++ if c = d then [m] else [] := by
        by_cases hd : c = d
        · simp [List.filter_append, hd]
        · simp [List.filter_append, hd]
      rw [List.foldl_append, List.foldl_cons, List.foldl_nil, ih, place]
      by_cases hc : c ∈ firsts (l.map Prod.fst)
      · have hpairwise : (regroup l).Pairwise fun e e' =>
            decide (e.1 = c) = true → ¬ decide (e'.1 = c) = true := by
          refine List.pairwise_map.2 ((nodup_firsts _).imp fun hne h h' => hne ?_)
          exact (of_decide_eq_true h).trans (of_decide_eq_true h').symm
        rw [if_pos ((regroup_any l c).2 hc), Removal.modifyFirst_eq_map _ hpairwise, regroup,
          regroup, List.map_append, List.map_singleton, firsts_append, if_pos hc, List.map_map]
        refine List.map_congr_left fun d _ => ?_
        rw [hlast, Function.comp_apply]
        by_cases hd : d = c
        · subst hd
          simp only [decide_true, if_true, firsts_append]
        · simp only [hd, decide_false, if_neg (Ne.symm hd), List.append_nil, Bool.false_eq_true,
            if_false]
      · have hnone : (l.filter fun e => decide (e.1 = c)) = [] := by
          rw [List.filter_eq_nil_iff]
          intro e he h
          exact hc (mem_firsts.2 (of_decide_eq_true h ▸ List.mem_map_of_mem he))
        rw [if_neg ((regroup_any l c).not.2 hc), regroup, regroup, List.map_append,
          List.map_singleton, firsts_append, if_neg hc, List.map_append, List.map_singleton]
        refine congr_arg₂ _ (List.map_congr_left fun d hd => ?_) ?_
        · have hne : c ≠ d := fun h => hc (h ▸ hd)
          rw [hlast, if_neg hne, List.append_nil]
        · rw [hlast, hnone, if_pos rfl]
          rfl

lemma foldl_place_class {c : Text} {ms : List Double} (hne : ms ≠ []) (hms : ms.Nodup)
    {classes : List (Text × List Double)} (hc : ∀ e ∈ classes, e.1 ≠ c) :
    (ms.map fun m => (c, m)).foldl place classes = classes ++ [(c, ms)] := by
  have hkept (f : Text × List Double → Text × List Double) :
      classes.map (fun e => if decide (e.1 = c) = true then f e else e) = classes := by
    conv_rhs => rw [← List.map_id classes]
    refine List.map_congr_left fun e he => ?_
    rw [decide_eq_false (hc e he), if_neg Bool.false_ne_true]
    rfl
  induction ms using List.reverseRecOn with
  | nil => exact absurd rfl hne
  | append_singleton init m ih =>
      rw [List.map_append, List.foldl_append, List.map_singleton, List.foldl_cons, List.foldl_nil]
      rw [List.nodup_append] at hms
      rcases eq_or_ne init [] with rfl | hinit
      · have hany : ¬ classes.any (fun e => decide (e.1 = c)) = true := by
          rw [List.any_eq_true]
          rintro ⟨e, he, heq⟩
          exact hc e he (of_decide_eq_true heq)
        rw [List.map_nil, List.foldl_nil, place, if_neg hany]
        rfl
      · have hm : m ∉ init := fun h => hms.2.2 m h m (List.mem_singleton_self m) rfl
        have hany : (classes ++ [(c, init)]).any (fun e => decide (e.1 = c)) = true := by simp
        have hpairwise : (classes ++ [(c, init)]).Pairwise fun e e' =>
            decide (e.1 = c) = true → ¬ decide (e'.1 = c) = true := by
          refine List.pairwise_append.2 ⟨?_, List.pairwise_singleton _ _, ?_⟩
          · refine List.pairwise_of_forall_mem_list fun e he _ _ h => ?_
            exact absurd (of_decide_eq_true h) (hc e he)
          · intro e he _ _ h
            exact absurd (of_decide_eq_true h) (hc e he)
        rw [ih hinit hms.1, place, if_pos hany, Removal.modifyFirst_eq_map _ hpairwise,
          List.map_append, hkept, List.map_singleton, decide_eq_true rfl, if_pos rfl, if_neg hm]

lemma regroup_alone {classes : List (Text × List Double)} (hnames : (classes.map Prod.fst).Nodup)
    (hms : ∀ e ∈ classes, e.2 ≠ [] ∧ e.2.Nodup) :
    regroup (classes.flatMap fun e => e.2.map fun m => (e.1, m)) = classes := by
  rw [← foldl_place]
  induction classes using List.reverseRecOn with
  | nil => rfl
  | append_singleton init e ih =>
      rw [List.map_append, List.nodup_append] at hnames
      obtain ⟨hne, hnd⟩ := hms e (List.mem_append_right _ (List.mem_singleton_self e))
      have hother : ∀ e' ∈ init, e'.1 ≠ e.1 := fun e' he' =>
        hnames.2.2 _ (List.mem_map_of_mem he') _ (by simp)
      rw [List.flatMap_append, List.foldl_append,
        ih hnames.1 fun e' he' => hms e' (List.mem_append_left _ he'), List.flatMap_singleton,
        foldl_place_class hne hnd hother]

lemma foldl_placeTerm {terms placed : List ChainModelTerm}
    (h : ((placed ++ terms).map ChainModelTerm.lastTradeDate).Nodup) :
    terms.foldl placeTerm placed = placed ++ terms := by
  induction terms generalizing placed with
  | nil => exact (List.append_nil placed).symm
  | cons t terms ih =>
      have hnew : ¬ placed.any (fun t' => decide (t'.lastTradeDate = t.lastTradeDate)) = true := by
        rw [List.map_append, List.nodup_append] at h
        rw [List.any_eq_true]
        rintro ⟨t', ht', heq⟩
        exact h.2.2 _ (List.mem_map_of_mem ht') _ List.mem_cons_self (of_decide_eq_true heq)
      rw [List.foldl_cons, placeTerm, if_neg hnew, ih, List.append_assoc, List.singleton_append]
      rwa [List.append_assoc, List.singleton_append]

lemma placeOnce_eq (multiplier : Double) {names : List Text} {placed : List (Text × List Double)}
    (h : (placed.map Prod.fst ++ names).Nodup) :
    placeOnce multiplier names placed =
      some (placed ++ names.map fun c => (c, [multiplier])) := by
  induction names generalizing placed with
  | nil => rw [placeOnce, List.map_nil, List.append_nil]
  | cons c names ih =>
      have hnew : ¬ placed.any (fun e => decide (e.1 = c)) = true := by
        rw [List.nodup_append] at h
        rw [List.any_eq_true]
        rintro ⟨e, he, heq⟩
        exact h.2.2 _ (List.mem_map_of_mem he) _ List.mem_cons_self (of_decide_eq_true heq)
      rw [placeOnce, if_neg hnew, ih, List.append_assoc, List.singleton_append, List.map_cons]
      rwa [List.map_append, List.map_singleton, List.append_assoc, List.singleton_append]

/-! ## Lists of classes -/

def Listed (c : Text) : Prop := c ≠ [] ∧ 44 ∉ c

lemma exists_last : ∀ {names : List Text}, names ≠ [] → (∀ c ∈ names, Listed c) →
    ∃ front b, [44].intercalate names = front ++ [b] ∧ b ≠ 44
  | [], hne, _ => absurd rfl hne
  | [c], _, h => by
      obtain ⟨hc, hcomma⟩ := h c List.mem_cons_self
      refine ⟨c.dropLast, c.getLast hc, ?_, ?_⟩
      · rw [List.dropLast_append_getLast hc]
        simp [List.intercalate]
      · intro heq
        exact hcomma (heq ▸ List.getLast_mem hc)
  | c :: d :: names, _, h => by
      obtain ⟨front, b, heq, hb⟩ := exists_last (List.cons_ne_nil d names)
        fun e he => h e (List.mem_cons_of_mem c he)
      refine ⟨c ++ 44 :: front, b, ?_, hb⟩
      have hstep : [44].intercalate (c :: d :: names) =
          c ++ 44 :: [44].intercalate (d :: names) := by
        simp [List.intercalate]
      rw [hstep, heq, List.append_assoc, List.cons_append]

lemma splitList_intercalate {names : List Text} (hne : names ≠ []) (h : ∀ c ∈ names, Listed c) :
    splitList ([44].intercalate names) = names := by
  obtain ⟨front, b, heq, hb⟩ := exists_last hne h
  have htrim : ([44].intercalate names).rdropWhile (fun x => decide (x = 44)) =
      [44].intercalate names := by
    rw [heq, List.rdropWhile_concat_neg _ _ _ (by simpa using hb)]
  have hfull : [44].intercalate names ≠ [] := by
    rw [heq]
    simp
  rw [splitList, htrim]
  rw [if_pos (.inr hfull), List.splitOn_intercalate _ (fun c hc => (h c hc).2) hne]

/-! ## How the venue writes them -/

structure StatedPair where
  numerator : Double
  denominator : Double
  classes : List Text

structure StatedTerm where
  day : ℤ
  term : ChainModelTerm

structure StatedSet where
  set : ChainModelParameters
  pairs : List StatedPair
  price : Double
  dividends : List (ℤ × Text × Double)
  terms : List StatedTerm
  seconds : ℤ
  indexStyle : ℤ

def StatedPair.named (p : StatedPair) : Text := [44].intercalate p.classes

def StatedPair.ratioWire (p : StatedPair) : Bytes := be64 p.numerator ++ be64 p.denominator

def classesWire (version : ℤ) (pairs : List StatedPair) : Bytes :=
  if 1 < version then
    be32 pairs.length ++ pairs.flatMap fun p => p.ratioWire ++ ascii4 p.named
  else pairs.flatMap fun p => ascii4 p.named ++ p.ratioWire

def flagsWire (version n : ℤ) : Bytes := if 3 < version then be32 n else []

def StatedTerm.wire (version : ℤ) (t : StatedTerm) : Bytes :=
  be32 t.day ++ (be64 t.term.modelYield ++ (be64 t.term.interestRate ++ (be64 t.term.forward ++
    (be64 t.term.callAtmVol ++ (be64 t.term.putAtmVol ++ flagsWire version t.term.attributes)))))

def dividendWire (d : ℤ × Text × Double) : Bytes := be32 d.1 ++ be64 d.2.2

def StatedSet.wire (version : ℤ) (s : StatedSet) : Bytes :=
  be32 s.set.productId ++ (classesWire version s.pairs ++ (be64 s.price ++
    ((be32 s.dividends.length ++ s.dividends.flatMap dividendWire) ++
    ((be32 s.terms.length ++ s.terms.flatMap (StatedTerm.wire version)) ++
    (be32 s.seconds ++ ((if 2 < version then be32 s.indexStyle else []) ++
    flagsWire version s.set.attributes))))))

def record (version : ℤ) (sets : List StatedSet) : Bytes :=
  be32 version ++ (be32 sets.length ++ sets.flatMap (StatedSet.wire version))

def FlagsCarried (version n : ℤ) : Prop := if 3 < version then I32 n else n = 1

section

variable (div : Double → Double → Double) (nan : Double) (day : ℤ → Option Text)

def StatedPair.mentions (p : StatedPair) : List (Text × Double) :=
  p.classes.map fun c => (c, ratio div nan p.numerator p.denominator)

structure StatedSet.Written (version : ℤ) (s : StatedSet) : Prop where
  productId : I32 s.set.productId
  seconds : I32 s.seconds
  millis : s.set.timestampMillis = s.seconds * 1000
  indexStyle : I32 s.indexStyle
  style : s.set.indexStyleDividends = decide (0 < if 2 < version then s.indexStyle else 0)
  flags : FlagsCarried version s.set.attributes
  price : s.set.underlyingPrice = if priceStands s.set.attributes then some s.price else none
  named : ∀ p ∈ s.pairs, p.classes ≠ [] ∧ ∀ c ∈ p.classes, Listed c
  classes : s.set.classes = regroup (s.pairs.flatMap (StatedPair.mentions div nan))
  /-- One multiplier for the whole list below the second version. -/
  one : ¬ 1 < version → ∃ p, s.pairs = [p] ∧ p.classes.Nodup
  dividends : s.set.dividends = s.dividends.map Prod.snd
  exDates : ∀ d ∈ s.dividends, I32 d.1 ∧ day d.1 = some d.2.1
  terms : s.set.terms = s.terms.map StatedTerm.term
  dates : ∀ t ∈ s.terms, I32 t.day ∧ day t.day = some t.term.lastTradeDate ∧
    FlagsCarried version t.term.attributes
  distinct : (s.set.terms.map ChainModelTerm.lastTradeDate).Nodup

end

/-- The counts of a set are counts thirty-two bits hold. -/
structure StatedSet.Counted (s : StatedSet) : Prop where
  pairs : s.pairs.length < 2 ^ 31
  named : ∀ p ∈ s.pairs, p.named.length < 2 ^ 31
  dividends : s.dividends.length < 2 ^ 31
  terms : s.terms.length < 2 ^ 31

/-! ## A set is read as it is written -/

section

variable {div : Double → Double → Double} {nan : Double} {day : ℤ → Option Text} {version : ℤ}
  {s : StatedSet}

lemma exactly_rational (p : StatedPair) :
    Exactly (readRational div nan) p.ratioWire (ratio div nan p.numerator p.denominator) :=
  (exactly_f64 p.numerator).bind ((exactly_f64 p.denominator).map fun denominator =>
    ratio div nan p.numerator denominator)

lemma exactly_date {n : ℤ} {t : Text} (hn : I32 n) (ht : day n = some t) :
    Exactly (readDate day) (be32 n) t := by
  have h : Exactly (readDate day) (be32 n ++ []) t := (exactly_i32 hn).bind (exactly_take ht)
  rwa [List.append_nil] at h

lemma exactly_flags {n : ℤ} (h : FlagsCarried version n) :
    Exactly (readFlags version) (flagsWire version n) n := by
  rw [FlagsCarried] at h
  rw [readFlags, flagsWire]
  split
  case isTrue hcarried =>
    rw [if_pos hcarried] at h
    exact exactly_i32 h
  case isFalse hleft =>
    rw [if_neg hleft] at h
    rw [h]
    exact exactly_pure 1

lemma exactly_pair {p : StatedPair} (h : p.named.length < 2 ^ 31) :
    Exactly (readPair div nan) (p.ratioWire ++ ascii4 p.named)
      (ratio div nan p.numerator p.denominator, some p.named) :=
  (exactly_rational p).bind ((exactly_ascii h).map fun named =>
    (ratio div nan p.numerator p.denominator, named))

lemma mentionsOf_named {p : StatedPair} (h : p.classes ≠ [] ∧ ∀ c ∈ p.classes, Listed c) :
    mentionsOf (ratio div nan p.numerator p.denominator, some p.named) =
      p.mentions div nan := by
  rw [mentionsOf, StatedPair.mentions, Option.elim_some, StatedPair.named,
    splitList_intercalate h.1 h.2]

lemma exactly_classes (hw : s.Written div nan day version) (hc : s.Counted) :
    Exactly (readClasses div nan version) (classesWire version s.pairs) s.set.classes := by
  rw [readClasses, classesWire, hw.classes, ← foldl_place]
  split
  case isTrue hpairs =>
    refine (exactly_i32 (i32_natCast hc.pairs)).bind ?_
    rw [Int.toNat_natCast]
    have hpair (p : StatedPair) (hp : p ∈ s.pairs) :
        Exactly (readPair div nan) (p.ratioWire ++ ascii4 p.named)
          (ratio div nan p.numerator p.denominator, some p.named) := exactly_pair (hc.named p hp)
    have hread := (exactly_readMany hpair).map fun pairs =>
      (pairs.flatMap mentionsOf).foldl place []
    have hsame : (s.pairs.map fun p =>
        (ratio div nan p.numerator p.denominator, some p.named)).flatMap mentionsOf =
        s.pairs.flatMap (StatedPair.mentions div nan) := by
      rw [List.flatMap_map]
      exact List.flatMap_congr fun p hp => mentionsOf_named (hw.named p hp)
    rwa [hsame] at hread
  case isFalse hone =>
    obtain ⟨p, hp, hnodup⟩ := hw.one hone
    have hmem : p ∈ s.pairs := by
      rw [hp]
      exact List.mem_singleton_self p
    obtain ⟨hne, hlisted⟩ := hw.named p hmem
    have halone : regroup ((p.classes.map fun c =>
        (c, [ratio div nan p.numerator p.denominator])).flatMap fun e =>
          e.2.map fun m => (e.1, m)) =
        p.classes.map fun c => (c, [ratio div nan p.numerator p.denominator]) := by
      refine regroup_alone ?_ fun e he => ?_
      · rw [List.map_map]
        exact (List.map_id p.classes).symm ▸ hnodup
      · obtain ⟨c, -, rfl⟩ := List.mem_map.1 he
        exact ⟨List.cons_ne_nil _ _, List.nodup_singleton _⟩
    have hmentions : (p.classes.map fun c =>
        (c, [ratio div nan p.numerator p.denominator])).flatMap (fun e =>
          e.2.map fun m => (e.1, m)) = p.mentions div nan := by
      rw [List.flatMap_map]
      exact (List.map_eq_flatMap (l := p.classes)).symm
    have honce : placeOnce (ratio div nan p.numerator p.denominator)
        ((some p.named).elim [] splitList) [] =
        some ((p.mentions div nan).foldl place []) := by
      rw [Option.elim_some, StatedPair.named, splitList_intercalate hne hlisted,
        placeOnce_eq _ (by simpa using hnodup), foldl_place, ← hmentions, halone, List.nil_append]
    rw [hp, List.flatMap_singleton, List.flatMap_singleton]
    refine (exactly_ascii (hc.named p hmem)).bind ?_
    rw [← List.append_nil p.ratioWire]
    exact (exactly_rational p).bind (exactly_take honce)

lemma exactly_term {t : StatedTerm} (h : I32 t.day ∧ day t.day = some t.term.lastTradeDate ∧
    FlagsCarried version t.term.attributes) :
    Exactly (readTerm day version) (t.wire version) t.term :=
  (exactly_date h.1 h.2.1).bind <| (exactly_f64 _).bind <| (exactly_f64 _).bind <|
    (exactly_f64 _).bind <| (exactly_f64 _).bind <| (exactly_f64 _).bind <|
    (exactly_flags h.2.2).map fun attributes => { t.term with attributes }

lemma exactly_dividend {d : ℤ × Text × Double} (h : I32 d.1 ∧ day d.1 = some d.2.1) :
    Exactly (readDividend day) (dividendWire d) d.2 :=
  (exactly_date h.1 h.2).bind ((exactly_f64 d.2.2).map fun amount => (d.2.1, amount))

lemma exactly_set (hw : s.Written div nan day version) (hc : s.Counted) :
    Exactly (readSet div nan day version) (s.wire version) s.set := by
  have hstyle : Exactly (readStyle version) (if 2 < version then be32 s.indexStyle else [])
      (if 2 < version then s.indexStyle else 0) := by
    rw [readStyle]
    split
    · exact exactly_i32 hw.indexStyle
    · exact exactly_pure 0
  have hdividends := exactly_counted hc.dividends fun d hd => exactly_dividend (hw.exDates d hd)
  have hterms := exactly_counted hc.terms fun t ht => exactly_term (hw.dates t ht)
  have hread : Exactly (readSet div nan day version) (s.wire version)
      { productId := s.set.productId
        classes := s.set.classes
        underlyingPrice := if priceStands s.set.attributes then some s.price else none
        dividends := s.dividends.map Prod.snd
        indexStyleDividends := 0 < if 2 < version then s.indexStyle else 0
        terms := (s.terms.map StatedTerm.term).foldl placeTerm []
        timestampMillis := s.seconds * 1000
        attributes := s.set.attributes } :=
    (exactly_i32 hw.productId).bind <| (exactly_classes hw hc).bind <|
      (exactly_f64 s.price).bind <| hdividends.bind <| hterms.bind <|
      (exactly_i32 hw.seconds).bind <| hstyle.bind <| (exactly_flags hw.flags).map fun _ => _
  have hset : ({ productId := s.set.productId
                 classes := s.set.classes
                 underlyingPrice := if priceStands s.set.attributes then some s.price else none
                 dividends := s.dividends.map Prod.snd
                 indexStyleDividends := 0 < if 2 < version then s.indexStyle else 0
                 terms := (s.terms.map StatedTerm.term).foldl placeTerm []
                 timestampMillis := s.seconds * 1000
                 attributes := s.set.attributes } : ChainModelParameters) = s.set := by
    have hplaced : (s.terms.map StatedTerm.term).foldl placeTerm [] = s.set.terms := by
      rw [← hw.terms]
      have hdistinct := hw.distinct
      exact foldl_placeTerm hdistinct
    rw [hplaced, ← hw.dividends, ← hw.millis, ← hw.price, ← hw.style]
  rw [hset] at hread
  exact hread

lemma exactly_record {sets : List StatedSet} (hversion : I32 version) (hlen : sets.length < 2 ^ 31)
    (hw : ∀ s ∈ sets, s.Written div nan day version) (hc : ∀ s ∈ sets, s.Counted) :
    Exactly (parseStream div nan day) (record version sets) (sets.map StatedSet.set) :=
  (exactly_i32 hversion).bind <| exactly_counted hlen fun s hs => exactly_set (hw s hs) (hc s hs)

/-! ## Counts -/

lemma length_le_flatMap {α β : Type} (f : α → List β) {l : List α} {a : α} (h : a ∈ l) :
    (f a).length ≤ (l.flatMap f).length := by
  rw [List.flatMap_def]
  exact (List.sublist_flatten_of_mem (List.mem_map_of_mem h)).length_le

lemma length_le_flatMap_of_ne {α β : Type} (f : α → List β) {l : List α}
    (h : ∀ a ∈ l, f a ≠ []) : l.length ≤ (l.flatMap f).length := by
  induction l with
  | nil => exact Nat.le_refl 0
  | cons a l ih =>
      have hpos := List.length_pos_of_ne_nil (h a List.mem_cons_self)
      have hrest := ih fun b hb => h b (List.mem_cons_of_mem a hb)
      rw [List.flatMap_cons, List.length_append, List.length_cons]
      omega

lemma ne_nil_of_be32 (n : ℤ) (w : Bytes) : be32 n ++ w ≠ [] := by
  intro h
  have hlen := congrArg List.length h
  rw [List.length_append, length_be32, List.length_nil] at hlen
  omega

lemma length_ratioWire (p : StatedPair) : p.ratioWire.length = 16 := by
  rw [StatedPair.ratioWire, List.length_append, length_be64, length_be64]

lemma length_named_le (p : StatedPair) : p.named.length ≤ (ascii4 p.named).length := by
  rw [ascii4, List.length_append, List.length_append]
  omega

lemma StatedSet.counted (h : (s.wire version).length < 2 ^ 31) : s.Counted := by
  have hparts : (classesWire version s.pairs).length ≤ (s.wire version).length ∧
      (s.dividends.flatMap dividendWire).length ≤ (s.wire version).length ∧
      (s.terms.flatMap (StatedTerm.wire version)).length ≤ (s.wire version).length := by
    simp only [StatedSet.wire, List.length_append]
    omega
  have hpairs : s.pairs.length ≤ (classesWire version s.pairs).length ∧
      ∀ p ∈ s.pairs, p.named.length ≤ (classesWire version s.pairs).length := by
    have hne (p : StatedPair) : p.ratioWire ≠ [] := by
      refine List.ne_nil_of_length_pos ?_
      rw [length_ratioWire]
      omega
    rw [classesWire]
    split
    case isTrue hmany =>
      have hlen := length_le_flatMap_of_ne (fun p : StatedPair => p.ratioWire ++ ascii4 p.named)
        (l := s.pairs) fun p _ h => hne p (List.append_eq_nil_iff.1 h).1
      rw [List.length_append]
      refine ⟨by omega, fun p hp => ?_⟩
      have hle := length_le_flatMap (fun p : StatedPair => p.ratioWire ++ ascii4 p.named) hp
      have hnamed := length_named_le p
      rw [List.length_append] at hle
      omega
    case isFalse hone =>
      have hlen := length_le_flatMap_of_ne (fun p : StatedPair => ascii4 p.named ++ p.ratioWire)
        (l := s.pairs) fun p _ h => hne p (List.append_eq_nil_iff.1 h).2
      refine ⟨hlen, fun p hp => ?_⟩
      have hle := length_le_flatMap (fun p : StatedPair => ascii4 p.named ++ p.ratioWire) hp
      have hnamed := length_named_le p
      rw [List.length_append] at hle
      omega
  have hdividends := length_le_flatMap_of_ne dividendWire (l := s.dividends)
    fun d _ => ne_nil_of_be32 d.1 _
  have hterms := length_le_flatMap_of_ne (StatedTerm.wire version) (l := s.terms)
    fun t _ => ne_nil_of_be32 t.day _
  exact ⟨by omega, fun p hp => by have := hpairs.2 p hp; omega, by omega, by omega⟩

lemma counted_of_record {sets : List StatedSet} (h : (record version sets).length < 2 ^ 31) :
    sets.length < 2 ^ 31 ∧ ∀ s ∈ sets, s.Counted := by
  have hlen : (sets.flatMap (StatedSet.wire version)).length < 2 ^ 31 := by
    rw [record, List.length_append, List.length_append] at h
    omega
  have hsets := length_le_flatMap_of_ne (StatedSet.wire version) (l := sets)
    fun s _ => ne_nil_of_be32 s.set.productId _
  exact ⟨by omega, fun s hs =>
    StatedSet.counted ((length_le_flatMap (StatedSet.wire version) hs).trans_lt hlen)⟩

/-! ## What is read -/

lemma consumes_i32 : Consumes readI32 :=
  (consumes_takeN 4).bind fun _ => consumes_pure _

lemma consumes_f64 : Consumes readF64 :=
  (consumes_takeN 8).bind fun _ => consumes_pure _

lemma consumes_ascii : Consumes readAscii := by
  refine consumes_i32.bind fun stated => ?_
  split
  · exact consumes_pure none
  · exact (consumes_takeN _).bind fun body => (consumes_takeN _).bind fun _ => consumes_pure _

lemma consumes_rational : Consumes (readRational div nan) :=
  consumes_f64.bind fun _ => consumes_f64.bind fun _ => consumes_pure _

lemma consumes_classes (version : ℤ) : Consumes (readClasses div nan version) := by
  have hpair : Consumes (readPair div nan) :=
    consumes_rational.bind fun _ => consumes_ascii.bind fun _ => consumes_pure _
  rw [readClasses]
  split
  · exact consumes_i32.bind fun _ => (hpair.readMany _).bind fun _ => consumes_pure _
  · exact consumes_ascii.bind fun _ => consumes_rational.bind fun _ => consumes_take _

lemma consumes_date : Consumes (readDate day) := consumes_i32.bind fun _ => consumes_take _

lemma consumes_flags (version : ℤ) : Consumes (readFlags version) := by
  rw [readFlags]
  split
  · exact consumes_i32
  · exact consumes_pure 1

lemma consumes_style (version : ℤ) : Consumes (readStyle version) := by
  rw [readStyle]
  split
  · exact consumes_i32
  · exact consumes_pure 0

lemma consumes_counted {α : Type} {m : Reader Bytes α} (hm : Consumes m) :
    Consumes (readCounted m) := by
  refine consumes_i32.bind fun stated => ?_
  split
  · exact consumes_failure.bind fun _ => hm.readMany _
  · exact hm.readMany _

lemma consumes_set (version : ℤ) : Consumes (readSet div nan day version) := by
  have hdividend : Consumes (readDividend day) :=
    consumes_date.bind fun _ => consumes_f64.bind fun _ => consumes_pure _
  have hterm : Consumes (readTerm day version) :=
    consumes_date.bind fun _ => consumes_f64.bind fun _ => consumes_f64.bind fun _ =>
      consumes_f64.bind fun _ => consumes_f64.bind fun _ => consumes_f64.bind fun _ =>
      (consumes_flags version).bind fun _ => consumes_pure _
  exact consumes_i32.bind fun _ => (consumes_classes version).bind fun _ =>
    consumes_f64.bind fun _ => (consumes_counted hdividend).bind fun _ =>
    (consumes_counted hterm).bind fun _ => consumes_i32.bind fun _ =>
    (consumes_style version).bind fun _ => (consumes_flags version).bind fun _ => consumes_pure _

lemma consumes_parseStream : Consumes (parseStream div nan day) :=
  consumes_i32.bind fun version => consumes_counted (consumes_set version)

/-! ## The stream in its payload -/

lemma fromMagic_append : ∀ {front : Bytes}, ¬ [0x78, 0x9C] <:+: front → ∀ rest : Bytes,
    fromMagic (front ++ 0x78 :: 0x9C :: rest) = some (0x78 :: 0x9C :: rest)
  | [], _, rest => by
      rw [List.nil_append, fromMagic, if_pos ⟨rfl, rfl⟩]
  | [a], _, rest => by
      rw [List.singleton_append, fromMagic, if_neg (fun h => absurd h.2 (by decide)), fromMagic,
        if_pos ⟨rfl, rfl⟩]
  | a :: b :: front, h, rest => by
      have hpair : ¬ (a = 0x78 ∧ b = 0x9C) := by
        rintro ⟨rfl, rfl⟩
        exact h (List.prefix_append [0x78, 0x9C] front).isInfix
      have hrest : ¬ [0x78, 0x9C] <:+: b :: front := fun hin =>
        h (hin.trans (List.suffix_cons a (b :: front)).isInfix)
      rw [List.cons_append, List.cons_append, fromMagic, if_neg hpair, ← List.cons_append,
        fromMagic_append hrest rest]

end

/-- Compression: what is deflated opens with its pair and inflates to what it was. -/
structure Zlib where
  deflate : Bytes → Bytes
  inflate : Bytes → Bytes
  inflate_deflate : ∀ body, inflate (deflate body) = body
  opens : ∀ body, ∃ rest, deflate body = 0x78 :: 0x9C :: rest

lemma streamOf_deflate (zlib : Zlib) {front : Bytes} (h : ¬ [0x78, 0x9C] <:+: front)
    (body : Bytes) :
    streamOf zlib.inflate (front ++ zlib.deflate body) = some (body.take maxInflated) := by
  obtain ⟨rest, hrest⟩ := zlib.opens body
  rw [streamOf, hrest, fromMagic_append h, ← hrest, Option.map_some, zlib.inflate_deflate]

/-- **A chain-model record reads back as it was written, or states nothing**: compressed behind
bytes that do not open a stream, and with anything behind it inside the stream, a record of at most
as many bytes as are read gives its sets; a record that stops short gives none; and of any payload
at most so many bytes of its stream are read, from the front.  Any classes can be so stated. -/
theorem record_reads_back (div : Double → Double → Double) (nan : Double) (day : ℤ → Option Text)
    (zlib : Zlib) (version : ℤ) (hversion : I32 version) (sets : List StatedSet)
    (hw : ∀ s ∈ sets, s.Written div nan day version)
    (hlen : (record version sets).length ≤ maxInflated) (front : Bytes)
    (hfront : ¬ [0x78, 0x9C] <:+: front) :
    (∀ tail, parse div nan day zlib.inflate (front ++ zlib.deflate (record version sets ++ tail)) =
      some (sets.map StatedSet.set)) ∧
    (∀ short, short <+: record version sets → short ≠ record version sets →
      parse div nan day zlib.inflate (front ++ zlib.deflate short) = none) ∧
    (∀ (inflate : Bytes → Bytes) (payload start : Bytes), fromMagic payload = some start →
      ∃ read rest, read ++ rest <+: inflate start ∧ read.length ≤ maxInflated ∧
        (parseStream div nan day).outcome (read ++ rest) =
          (parse div nan day inflate payload, rest)) ∧
    ∀ classes : List (Text × List Double), (classes.map Prod.fst).Nodup →
      (∀ e ∈ classes, e.2 ≠ [] ∧ e.2.Nodup) →
      regroup (classes.flatMap fun e => e.2.map fun m => (e.1, m)) = classes := by
  have hmax : maxInflated < 2 ^ 31 := by decide
  obtain ⟨hcount, hcounted⟩ := counted_of_record (hlen.trans_lt hmax)
  have hexactly := exactly_record hversion hcount hw hcounted
  refine ⟨fun tail => ?_, fun short hshort hne => ?_, fun inflate payload start hstart => ?_,
    fun classes hnames hms => regroup_alone hnames hms⟩
  · have hgives := hexactly.gives (tail.take (maxInflated - (record version sets).length))
    rw [parse, streamOf_deflate zlib hfront, Option.bind_some, List.take_append,
      List.take_of_length_le hlen, hgives]
  · have hle : short.length ≤ maxInflated := hshort.length_le.trans hlen
    rw [parse, streamOf_deflate zlib hfront, Option.bind_some, List.take_of_length_le hle,
      hexactly.needs short hshort hne]
  · have hconsumes : Consumes (parseStream div nan day) := consumes_parseStream
    obtain ⟨read, hread⟩ := hconsumes ((inflate start).take maxInflated)
    refine ⟨read, ((parseStream div nan day).outcome ((inflate start).take maxInflated)).2, ?_, ?_,
      Prod.ext ?_ ?_⟩
    · rw [hread]
      exact List.take_prefix _ _
    · have hle := List.length_take_le maxInflated (inflate start)
      rw [← hread, List.length_append] at hle
      omega
    · rw [parse, streamOf, hstart, Option.map_some, Option.bind_some, hread]
    · rw [hread]

/-! ## Records of the venue's -/

def adler (body : Bytes) : ℕ :=
  let sums := body.foldl (fun sums o =>
    ((sums.1 + o.toNat) % 65521, (sums.2 + (sums.1 + o.toNat) % 65521) % 65521)) (1, 0)
  sums.2 * 65536 + sums.1

def le16 (n : ℕ) : Bytes := [UInt8.ofNat n, UInt8.ofNat (n / 256)]

def stored : Zlib where
  deflate body := [0x78, 0x9C, 0x01] ++ (le16 body.length ++ (le16 (65535 - body.length % 65536) ++
    (body ++ BigEndian.toBe 4 (adler body))))
  inflate stream := (stream.drop 7).take (stream.length - 11)
  inflate_deflate body := by
    have hlen : ([0x78, 0x9C, 0x01] ++ (le16 body.length ++ (le16 (65535 - body.length % 65536) ++
        (body ++ BigEndian.toBe 4 (adler body))))).length - 11 = body.length := by
      simp only [List.length_append, List.length_cons, List.length_nil, le16,
        BigEndian.length_toBe]
      omega
    rw [hlen]
    exact List.take_left
  opens body := ⟨_, rfl⟩

/-- The set of the source's tests: SPY at a hundred, one dividend and one expiry. -/
def sampleSet : StatedSet where
  set := {
    productId := 1
    classes := [([83, 80, 89], [0x4059000000000000])]
    underlyingPrice := some 0x407C200000000000
    dividends := [([50, 48, 50, 54, 48, 50, 49, 54], 0x3FF91EB851EB851F)]
    indexStyleDividends := false
    terms := [⟨[50, 48, 50, 54, 48, 52, 49, 55], 0, 0, 0, 0, 0, 5⟩]
    timestampMillis := 1790000000000
    attributes := 5 }
  pairs := [⟨0x4059000000000000, 0x3FF0000000000000, [[83, 80, 89]]⟩]
  price := 0x407C200000000000
  dividends := [(20500, [50, 48, 50, 54, 48, 50, 49, 54], 0x3FF91EB851EB851F)]
  terms := [⟨20560, ⟨[50, 48, 50, 54, 48, 52, 49, 55], 0, 0, 0, 0, 0, 5⟩⟩]
  seconds := 1790000000
  indexStyle := 0

def notANumber : Double := 0x7FF8000000000000

def sampleDay (n : ℤ) : Option Text :=
  if n = 20500 then some [50, 48, 50, 54, 48, 50, 49, 54]
  else if n = 20560 then some [50, 48, 50, 54, 48, 52, 49, 55] else none

lemma sampleSet_written :
    sampleSet.Written (fun a _ => a) notANumber sampleDay 4 where
  productId := by simp [I32, sampleSet]
  seconds := by simp [I32, sampleSet]
  millis := rfl
  indexStyle := by simp [I32, sampleSet]
  style := rfl
  flags := by simp [FlagsCarried, I32, sampleSet]
  price := rfl
  named := by
    intro p hp
    rw [sampleSet, List.mem_singleton] at hp
    subst hp
    simp [Listed]
  classes := rfl
  one := fun h => absurd (by decide) h
  dividends := rfl
  exDates := by
    intro d hd
    rw [sampleSet, List.mem_singleton] at hd
    subst hd
    exact ⟨by simp [I32], rfl⟩
  terms := rfl
  dates := by
    intro t ht
    rw [sampleSet, List.mem_singleton] at ht
    subst ht
    exact ⟨by simp [I32], rfl, by simp [FlagsCarried, I32]⟩
  distinct := by simp [sampleSet]

lemma length_record_sample : (record 4 [sampleSet]).length ≤ maxInflated := by decide +kernel

theorem record_reads_back_sample :
    parse (fun a _ => a) notANumber sampleDay stored.inflate
      ([1] ++ stored.deflate (record 4 [sampleSet] ++ [7, 7])) =
        some ([sampleSet].map StatedSet.set) := by
  have hw : ∀ s ∈ [sampleSet], s.Written (fun a _ => a) notANumber sampleDay 4 := by
    intro s hs
    rw [List.mem_singleton.1 hs]
    exact sampleSet_written
  have hfront : ¬ [0x78, 0x9C] <:+: ([1] : Bytes) := by decide
  have hversion : I32 4 := by simp [I32]
  have hread := record_reads_back (fun a _ => a) notANumber sampleDay stored 4 hversion
    [sampleSet] hw length_record_sample [1] hfront
  convert hread.1 [7, 7]

def namedSet (c : Text) : StatedSet where
  set := {
    productId := 1
    classes := [(c, [0])]
    underlyingPrice := none
    dividends := []
    indexStyleDividends := false
    terms := []
    timestampMillis := 0
    attributes := 1 }
  pairs := [⟨0, 0x3FF0000000000000, [c]⟩]
  price := 0
  dividends := []
  terms := []
  seconds := 0
  indexStyle := 0

lemma namedSet_written {c : Text} (hc : Listed c) :
    (namedSet c).Written (fun a _ => a) notANumber sampleDay 4 where
  productId := by simp [I32, namedSet]
  seconds := by simp [I32, namedSet]
  millis := rfl
  indexStyle := by simp [I32, namedSet]
  style := rfl
  flags := by simp [FlagsCarried, I32, namedSet]
  price := rfl
  named := by
    intro p hp
    rw [namedSet, List.mem_singleton] at hp
    subst hp
    simpa using hc
  classes := by
    have hone : regroup ([(c, [(0 : Double)])].flatMap fun e => e.2.map fun m => (e.1, m)) =
        [(c, [0])] := regroup_alone (by simp) (by simp)
    exact hone.symm
  one := fun h => absurd (by decide) h
  dividends := rfl
  exDates := by simp [namedSet]
  terms := rfl
  dates := by simp [namedSet]
  distinct := by simp [namedSet]

lemma parse_namedSet {c : Text} (hc : Listed c) (hlong : maxInflated ≤ c.length)
    (hcount : c.length < 2 ^ 31) (zlib : Zlib) :
    parse (fun a _ => a) notANumber sampleDay zlib.inflate
      (zlib.deflate (record 4 [namedSet c])) = none := by
  have hnamed : (⟨0, 0x3FF0000000000000, [c]⟩ : StatedPair).named = c := by
    simp [StatedPair.named]
  have hcounted : (namedSet c).Counted := by
    refine ⟨by simp [namedSet], fun p hp => ?_, by simp [namedSet], by simp [namedSet]⟩
    rw [namedSet, List.mem_singleton] at hp
    rw [hp, hnamed]
    exact hcount
  have hexactly : Exactly (parseStream (fun a _ => a) notANumber sampleDay)
      (record 4 [namedSet c]) ([namedSet c].map StatedSet.set) :=
    exactly_record (by simp [I32]) (by simp)
      (fun s hs => List.mem_singleton.1 hs ▸ namedSet_written hc)
      (fun s hs => List.mem_singleton.1 hs ▸ hcounted)
  have hmore : maxInflated < (record 4 [namedSet c]).length := by
    have hwire := length_named_le ⟨0, 0x3FF0000000000000, [c]⟩
    rw [hnamed] at hwire
    simp only [record, StatedSet.wire, classesWire, namedSet, List.flatMap_cons, List.flatMap_nil,
      List.length_append, length_be32, hnamed]
    norm_num
    omega
  have hshort : (record 4 [namedSet c]).take maxInflated ≠ record 4 [namedSet c] := by
    intro heq
    have hlen := congrArg List.length heq
    rw [List.length_take] at hlen
    omega
  have hfront : ¬ [0x78, 0x9C] <:+: ([] : Bytes) := by simp
  have hstream := streamOf_deflate zlib hfront (record 4 [namedSet c])
  rw [List.nil_append] at hstream
  rw [parse, hstream, Option.bind_some]
  exact hexactly.needs _ (List.take_prefix _ _) hshort

/-- A set whose class has a name of as many bytes as are read is not read back. -/
theorem too_long_a_record : (∀ zlib : Zlib,
    parse (fun a _ => a) notANumber sampleDay zlib.inflate
      (zlib.deflate (record 4 [namedSet (List.replicate maxInflated 65)])) = none) ∧
    (namedSet (List.replicate maxInflated 65)).Written (fun a _ => a) notANumber sampleDay 4 := by
  have hlen : (List.replicate maxInflated (65 : UInt8)).length = maxInflated :=
    List.length_replicate
  have hlisted : Listed (List.replicate maxInflated 65) := by
    refine ⟨List.ne_nil_of_length_pos ?_, fun hmem => ?_⟩
    · rw [hlen]
      decide
    · exact absurd (List.eq_of_mem_replicate hmem) (by decide)
  refine ⟨parse_namedSet hlisted hlen.ge ?_, namedSet_written hlisted⟩
  rw [hlen]
  decide

end IbkrDx.ChainModel
