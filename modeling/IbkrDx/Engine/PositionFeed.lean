import IbkrDx.Bridge.Portfolio
import IbkrDx.Engine.MarketState
import IbkrDx.Protocol.TextFrames

/-!
# The position feed

A position frame states many holdings one behind another.  A scan over its parts keeps what the
holding at hand states, and files it where the next one begins; the accounts are collected off the
whole frame beforehand, and the holding filed as many-th is filed under the account stated as
many-th.

* **`feed_one_by_one_iff`** — where a frame of many holdings means what they mean one by one.
-/

namespace IbkrDx

open Texts

/-! ## The desk -/

/-- Whose portfolio: `none` is the session's own. -/
abbrev PortfolioOf := Option (List Char)

structure FeedSetting where
  /-- `str::parse::<f64>`. -/
  parseF64 : List Char → Option Figure
  priceFromF64 : Figure → Price
  /-- `adopt_position`: what adding the difference to what is held leaves. -/
  adopted : Figure → Figure → Figure
  sessionAccount : List Char
  accountRequests : List Char → Option (List Char)
  instrumentByConId : ℤ → Option InstrumentId
  hasDefinition : ℤ → Bool

structure PositionUpdate where
  instrument : InstrumentId
  conId : ℤ
  position : Figure
  avgCost : Price
  deriving DecidableEq

structure FeedDesk where
  portfolio : PortfolioState := {}
  portfolios : List Char → PortfolioState := fun _ => {}
  positions : InstrumentId → Figure := fun _ => .zero
  /-- The positions the session's portfolio shows. -/
  shown : InstrumentId → Figure := fun _ => .zero
  updates : List PositionUpdate := []
  /-- The contracts a lookup of the engine's own was made for, and its number. -/
  autoFetchedConids : List (ℤ × UInt32) := []
  nextInternalSecdefId : UInt32
  asked : List (UInt32 × ℤ) := []
  filed : List (ℤ × PortfolioOf) := []

/-- Whether an `f64` is finite. -/
def Figure.isFinite : Figure → Bool
  | .number _ => true
  | _ => false

/-! ## Whose portfolio -/

/-- The field named last and the account stated so far, over the parts of a frame. -/
def accountScan (s : List Char × List Char) (part : List Char) : List Char × List Char :=
  let name := (stripTag 8001 part).getD s.1
  match stripTag 8004 part with
  | none => (name, s.2)
  | some value =>
      ([], if name = "AccountCode".toList ∨ name = "AddAccountCode".toList then value else s.2)

def messageParts (msg : Bytes) : List (List Char) := textParts ((Utf8.decode msg).getD [])

namespace FeedSetting

variable (g : FeedSetting)

def portfolioFor (account : List Char) : PortfolioOf :=
  if account = [] ∨ g.sessionAccount = account then none else some account

def portfolioForRequest (key : List Char) : Option PortfolioOf :=
  if key = [] then some none else (g.accountRequests key).map g.portfolioFor

/-- The key of the request a message answers, empty where it names none. -/
def requestKey (msg : Bytes) : String :=
  (((fixParse msg 8292).filter (· ≠ "")).or (fixParse msg 6529)).getD ""

def portfolioForMessage (msg : Bytes) : Option PortfolioOf :=
  if requestKey msg ≠ "" then g.portfolioForRequest (requestKey msg).toList
  else some (g.portfolioFor ((messageParts msg).foldl accountScan ([], [])).2)

end FeedSetting

/-! ## The scan -/

structure Scan where
  conId : ℤ := 0
  qty : Option Figure := none
  avgCostRaw : Option Figure := none
  symbol : List Char := []
  secType : List Char := []
  count : ℕ := 0

def basisForPortfolio (p : PortfolioState) (conId : ℤ) (stated : Option Price) (qty : Figure) :
    Price :=
  if qty = .zero then 0
  else stated.getD (((p.positionInfo conId).map PositionInfo.avgCost).getD 0)

namespace FeedDesk

variable (g : FeedSetting)

def portfolioAt (w : FeedDesk) : PortfolioOf → PortfolioState
  | none => w.portfolio
  | some account => w.portfolios account

def modify (w : FeedDesk) (f : PortfolioState → PortfolioState) : PortfolioOf → FeedDesk
  | none => { w with portfolio := f w.portfolio }
  | some account =>
      { w with portfolios := Function.update w.portfolios account (f (w.portfolios account)) }

/-- A quantity stated: the row, and of the session's own portfolio the engine's position too. -/
def hold (of : PortfolioOf) (s : Scan) (qty : Figure) (w : FeedDesk) : FeedDesk :=
  let avgCost := basisForPortfolio (w.portfolioAt of) s.conId (s.avgCostRaw.map g.priceFromF64) qty
  let w' := w.modify (fun p => p.setPositionInfo
    { conId := s.conId, position := qty, avgCost, symbol := Utf8.encode s.symbol
      secType := Utf8.encode s.secType }) of
  match of, g.instrumentByConId s.conId with
  | none, some instrument =>
      { w' with
        positions := Function.update w'.positions instrument
          (g.adopted (w'.positions instrument) qty)
        shown := Function.update w'.shown instrument qty
        updates := w'.updates ++ [⟨instrument, s.conId, qty, avgCost⟩] }
  | _, _ => w'

def autoFetchSecdefIfCold (conId : ℤ) (w : FeedDesk) : FeedDesk :=
  if conId = 0 ∨ conId ∈ w.autoFetchedConids.map Prod.fst ∨ g.hasDefinition conId = true then w
  else
    { w with
      nextInternalSecdefId := w.nextInternalSecdefId + 1
      autoFetchedConids := w.autoFetchedConids ++ [(conId, w.nextInternalSecdefId)]
      asked := w.asked ++ [(w.nextInternalSecdefId, conId)] }

def file (of : PortfolioOf) (s : Scan) (w : FeedDesk) : FeedDesk :=
  let w' := (s.qty.map fun qty => hold g of s qty w).getD w
  autoFetchSecdefIfCold g s.conId
    { w'.modify (fun p => p.noteRestated s.conId) of with filed := w'.filed ++ [(s.conId, of)] }

def flush (frameOf : PortfolioOf) (named : List (List Char)) (s : Scan) (w : FeedDesk) : FeedDesk :=
  if 0 < s.count ∧ s.conId ≠ 0 then
    file g ((named[s.count - 1]?.map g.portfolioFor).getD frameOf) s w
  else w

end FeedDesk

def Scan.read (g : FeedSetting) (s : Scan) (part : List Char) : Scan :=
  match stripTag 6068 part, stripTag 167 part, stripTag 6064 part, stripTag 6101 part with
  | some v, _, _, _ => { s with symbol := trimEnd v }
  | none, some v, _, _ => { s with secType := v }
  | none, none, some v, _ => { s with qty := (g.parseF64 v).filter Figure.isFinite }
  | none, none, none, some v => { s with avgCostRaw := (g.parseF64 v).filter Figure.isFinite }
  | none, none, none, none => s

def feedPart (g : FeedSetting) (frameOf : PortfolioOf) (named : List (List Char))
    (r : Scan × FeedDesk) (part : List Char) : Scan × FeedDesk :=
  match stripTag 6008 part with
  | some v =>
      ({ conId := (parseI64 v).getD 0, count := r.1.count + 1 }, r.2.flush g frameOf named r.1)
  | none => (r.1.read g part, r.2)

def feedParts (g : FeedSetting) (frameOf : PortfolioOf) (parts : List (List Char))
    (w : FeedDesk) : FeedDesk :=
  let named := parts.filterMap (stripTag 6095)
  let r := parts.foldl (feedPart g frameOf named) ({}, w)
  r.2.flush g frameOf named r.1

def handlePositionFeed (g : FeedSetting) (msg : Bytes) (w : FeedDesk) : FeedDesk :=
  match g.portfolioForMessage msg, Utf8.decode msg with
  | some frameOf, some text => feedParts g frameOf (textParts text) w
  | _, _ => w

/-! ## Frames -/

inductive EntryTag where
  | symbol | secType | quantity | cost | account
  deriving DecidableEq

def EntryTag.tag : EntryTag → ℕ
  | .symbol => 6068
  | .secType => 167
  | .quantity => 6064
  | .cost => 6101
  | .account => 6095

/-- A holding as the venue states it: its contract first, the rest in any order. -/
structure PositionEntry where
  contract : List Char
  rest : List (EntryTag × List Char)
  deriving DecidableEq

namespace PositionEntry

def fields (e : PositionEntry) : List TextField :=
  (6008, e.contract) :: e.rest.map fun f => (f.1.tag, f.2)

def conId (e : PositionEntry) : ℤ := (parseI64 e.contract).getD 0

def accounts (e : PositionEntry) : List (List Char) :=
  e.rest.filterMap fun f => if f.1 = .account then some f.2 else none

end PositionEntry

def positionFrame (front back : List TextField) (es : List PositionEntry) : Bytes :=
  textFrame (front ++ es.flatMap PositionEntry.fields ++ back)

def OutsideHoldings (fs : List TextField) : Prop :=
  Separate fs ∧ ∀ f ∈ fs, f.1 ∉ [6008, 6068, 167, 6064, 6101, 6095]

/-! ## One holding -/

def Scan.put (g : FeedSetting) (s : Scan) (f : EntryTag × List Char) : Scan :=
  match f.1 with
  | .symbol => { s with symbol := trimEnd f.2 }
  | .secType => { s with secType := f.2 }
  | .quantity => { s with qty := (g.parseF64 f.2).filter Figure.isFinite }
  | .cost => { s with avgCostRaw := (g.parseF64 f.2).filter Figure.isFinite }
  | .account => s

/-- What a holding states, the scan of it begun as the one counted so. -/
def PositionEntry.scan (g : FeedSetting) (e : PositionEntry) (n : ℕ) : Scan :=
  e.rest.foldl (Scan.put g) { conId := e.conId, count := n }

def FeedSetting.filedUnder (g : FeedSetting) (frameOf : PortfolioOf)
    (account : Option (List Char)) : PortfolioOf :=
  (account.map g.portfolioFor).getD frameOf

/-- A holding filed in a portfolio, where it names a contract. -/
def FeedDesk.enter (g : FeedSetting) (of : PortfolioOf) (e : PositionEntry) (w : FeedDesk) :
    FeedDesk :=
  if e.conId ≠ 0 then w.file g of (e.scan g 0) else w

lemma EntryTag.begins_none (t : EntryTag) : t.tag ≠ 6008 := by
  cases t <;> decide

section

variable (g : FeedSetting) (frameOf : PortfolioOf) (named : List (List Char))

lemma read_part (s : Scan) (f : EntryTag × List Char) :
    s.read g (TextField.part (f.1.tag, f.2)) = s.put g f := by
  obtain ⟨t, v⟩ := f
  cases t <;> simp [Scan.read, Scan.put, stripTag_part, EntryTag.tag]

lemma feedPart_rest (r : Scan × FeedDesk) (f : EntryTag × List Char) :
    feedPart g frameOf named r (TextField.part (f.1.tag, f.2)) = (r.1.put g f, r.2) := by
  have hbegins : stripTag 6008 (TextField.part (f.1.tag, f.2)) = none := by
    rw [stripTag_part, if_neg (f.1.begins_none).symm]
  rw [feedPart, hbegins, read_part]

lemma foldl_fields (e : PositionEntry) (s : Scan) (w : FeedDesk) :
    (e.fields.map TextField.part).foldl (feedPart g frameOf named) (s, w) =
      (e.scan g (s.count + 1), w.flush g frameOf named s) := by
  have hrest : ∀ (fs : List (EntryTag × List Char)) (r : Scan × FeedDesk),
      (fs.map fun f => TextField.part (f.1.tag, f.2)).foldl (feedPart g frameOf named) r =
        (fs.foldl (Scan.put g) r.1, r.2) := by
    intro fs
    induction fs with
    | nil => intro r; rfl
    | cons f fs ih =>
        intro r
        rw [List.map_cons, List.foldl_cons, feedPart_rest, ih, List.foldl_cons]
  have hfirst : feedPart g frameOf named (s, w) (TextField.part (6008, e.contract)) =
      ({ conId := e.conId, count := s.count + 1 }, w.flush g frameOf named s) := by
    rw [feedPart, stripTag_part, if_pos rfl]
    rfl
  rw [PositionEntry.fields, List.map_cons, List.foldl_cons, List.map_map, hfirst]
  exact hrest e.rest _

lemma count_scan (e : PositionEntry) (n : ℕ) : e.scan g n = { e.scan g 0 with count := n } := by
  have hput : ∀ (fs : List (EntryTag × List Char)) (s : Scan),
      fs.foldl (Scan.put g) { s with count := n } =
        { fs.foldl (Scan.put g) s with count := n } := by
    intro fs
    induction fs with
    | nil => intro s; rfl
    | cons f fs ih =>
        intro s
        rw [List.foldl_cons, List.foldl_cons, ← ih]
        obtain ⟨t, v⟩ := f
        cases t <;> rfl
  exact hput e.rest { conId := e.conId, count := 0 }

lemma conId_scan (e : PositionEntry) (n : ℕ) : (e.scan g n).conId = e.conId := by
  have hput : ∀ (fs : List (EntryTag × List Char)) (s : Scan),
      (fs.foldl (Scan.put g) s).conId = s.conId := by
    intro fs
    induction fs with
    | nil => intro s; rfl
    | cons f fs ih =>
        intro s
        rw [List.foldl_cons, ih]
        obtain ⟨t, v⟩ := f
        cases t <;> rfl
  exact hput e.rest _

lemma flush_scan (e : PositionEntry) (n : ℕ) (w : FeedDesk) :
    w.flush g frameOf named (e.scan g (n + 1)) =
      w.enter g (g.filedUnder frameOf named[n]?) e := by
  rw [FeedDesk.flush, conId_scan, FeedDesk.enter, count_scan]
  by_cases hzero : e.conId = 0
  · rw [if_neg fun hcon => hcon.2 hzero, if_neg fun hcon => hcon hzero]
  · rw [if_pos ⟨n.succ_pos, hzero⟩, if_pos hzero]
    rfl

lemma foldl_entries (es : List PositionEntry) : ∀ (s : Scan) (w : FeedDesk),
    let r := ((es.flatMap PositionEntry.fields).map TextField.part).foldl
      (feedPart g frameOf named) (s, w)
    r.2.flush g frameOf named r.1 = (es.zipIdx s.count).foldl
      (fun w x => w.enter g (g.filedUnder frameOf named[x.2]?) x.1)
      (w.flush g frameOf named s) := by
  induction es with
  | nil => intro s w; rfl
  | cons e es ih =>
      intro s w
      have hcount : (e.scan g (s.count + 1)).count = s.count + 1 := by rw [count_scan]
      simp only [List.flatMap_cons, List.map_append, List.foldl_append, foldl_fields]
      rw [ih, hcount, List.zipIdx_cons, List.foldl_cons, flush_scan]

lemma foldl_outside : ∀ {fs : List TextField}, OutsideHoldings fs → ∀ r : Scan × FeedDesk,
    (fs.map TextField.part).foldl (feedPart g frameOf named) r = r
  | [], _, r => rfl
  | f :: fs, h, r => by
      obtain ⟨hf, hfs⟩ := List.forall_mem_cons.1 h.2
      simp only [List.mem_cons, not_or] at hf
      have hpart : feedPart g frameOf named r f.part = r := by
        simp only [feedPart, Scan.read, stripTag_part, if_neg (Ne.symm hf.1),
          if_neg (Ne.symm hf.2.1), if_neg (Ne.symm hf.2.2.1), if_neg (Ne.symm hf.2.2.2.1),
          if_neg (Ne.symm hf.2.2.2.2.1)]
      rw [List.map_cons, List.foldl_cons, hpart]
      exact foldl_outside ⟨(List.forall_mem_cons.1 h.1).2, hfs⟩ r

end

/-! ## A frame -/

lemma filterMap_outside {fs : List TextField} (h : OutsideHoldings fs) :
    (fs.map TextField.part).filterMap (stripTag 6095) = [] := by
  rw [List.filterMap_eq_nil_iff]
  intro part hpart
  obtain ⟨f, hf, rfl⟩ := List.mem_map.1 hpart
  rw [stripTag_part, if_neg]
  intro heq
  exact h.2 f hf (by simp [← heq])

lemma filterMap_fields (e : PositionEntry) :
    (e.fields.map TextField.part).filterMap (stripTag 6095) = e.accounts := by
  rw [PositionEntry.fields, List.map_cons, List.filterMap_cons_none (by simp [stripTag_part]),
    PositionEntry.accounts, List.map_map, List.filterMap_map]
  refine List.filterMap_congr fun f _ => ?_
  obtain ⟨t, v⟩ := f
  cases t <;> simp [stripTag_part, EntryTag.tag]

lemma filterMap_entries (es : List PositionEntry) :
    ((es.flatMap PositionEntry.fields).map TextField.part).filterMap (stripTag 6095) =
      es.flatMap PositionEntry.accounts := by
  induction es with
  | nil => rfl
  | cons e es ih =>
      rw [List.flatMap_cons, List.map_append, List.filterMap_append, filterMap_fields, ih,
        List.flatMap_cons]

def HoldingsSeparate (es : List PositionEntry) : Prop :=
  ∀ e ∈ es, '\x01' ∉ e.contract ∧ ∀ f ∈ e.rest, '\x01' ∉ f.2

instance : DecidablePred HoldingsSeparate := fun _ => inferInstanceAs (Decidable (∀ e ∈ _, _ ∧ _))

/-- The tags a holding is stated on say nothing of the frame. -/
def Silent (tag : ℕ) : Prop :=
  tag < u32Bound ∧ tag ≠ tagRawDataLength ∧ tag ∉ [8001, 8004, 8292, 6529]

instance : DecidablePred Silent := fun _ => inferInstanceAs (Decidable (_ ∧ _))

lemma EntryTag.silent (t : EntryTag) : Silent t.tag := by
  cases t <;> decide

lemma silent_of_mem {es : List PositionEntry} {f : TextField}
    (hf : f ∈ es.flatMap PositionEntry.fields) : Silent f.1 := by
  obtain ⟨e, he, hf⟩ := List.mem_flatMap.1 hf
  rcases List.mem_cons.1 hf with rfl | hf
  · show Silent 6008
    decide
  · obtain ⟨v, hv, rfl⟩ := List.mem_map.1 hf
    exact v.1.silent

lemma separate_entries {es : List PositionEntry} (h : HoldingsSeparate es) :
    Separate (es.flatMap PositionEntry.fields) := by
  intro f hf
  refine ⟨(silent_of_mem hf).1, (silent_of_mem hf).2.1, ?_⟩
  obtain ⟨e, he, hf⟩ := List.mem_flatMap.1 hf
  rcases List.mem_cons.1 hf with rfl | hf
  · exact (h e he).1
  · obtain ⟨v, hv, rfl⟩ := List.mem_map.1 hf
    exact (h e he).2 v hv

lemma insertAll_skip {fs gs hs : List (ℕ × String)} {t : ℕ} (h : t ∉ gs.map Prod.fst) (m : TagMap) :
    insertAll (fs ++ gs ++ hs) m t = insertAll (fs ++ hs) m t := by
  have hcongr : ∀ (hs : List (ℕ × String)) (m m' : TagMap), m t = m' t →
      insertAll hs m t = insertAll hs m' t := by
    intro hs
    induction hs with
    | nil => exact fun m m' he => he
    | cons f hs ih =>
        intro m m' he
        refine ih _ _ ?_
        show Function.update m f.1 (some f.2) t = Function.update m' f.1 (some f.2) t
        rw [Function.update_apply, Function.update_apply, he]
  rw [insertAll_append, insertAll_append, insertAll_append]
  exact hcongr hs _ _ (insertAll_of_not_mem _ h)

lemma foldl_accountScan_silent : ∀ {fs : List TextField}, (∀ f ∈ fs, Silent f.1) →
    ∀ s : List Char × List Char, (fs.map TextField.part).foldl accountScan s = s
  | [], _, _ => rfl
  | f :: fs, h, s => by
      obtain ⟨⟨-, -, hf⟩, hfs⟩ := List.forall_mem_cons.1 h
      simp only [List.mem_cons, not_or] at hf
      have hpart : accountScan s f.part = s := by
        simp only [accountScan, stripTag_part, if_neg (Ne.symm hf.1), if_neg (Ne.symm hf.2.1)]
        rfl
      rw [List.map_cons, List.foldl_cons, hpart]
      exact foldl_accountScan_silent hfs s

section

variable {front back : List TextField} (hfront : OutsideHoldings front)
  (hback : OutsideHoldings back)

include hfront hback

variable {es : List PositionEntry}

lemma separate_frame (h : HoldingsSeparate es) :
    Separate (front ++ es.flatMap PositionEntry.fields ++ back) :=
  (hfront.1.append (separate_entries h)).append hback.1

lemma feedParts_frame (g : FeedSetting) (frameOf : PortfolioOf)
    (h : HoldingsSeparate es) (w : FeedDesk) :
    feedParts g frameOf
        (textParts (frameText (front ++ es.flatMap PositionEntry.fields ++ back))) w =
      es.zipIdx.foldl (fun w x => w.enter g
        (g.filedUnder frameOf (es.flatMap PositionEntry.accounts)[x.2]?) x.1) w := by
  have hnamed : ((front ++ es.flatMap PositionEntry.fields ++ back).map TextField.part ++
      [[]]).filterMap (stripTag 6095) = es.flatMap PositionEntry.accounts := by
    rw [List.filterMap_append, List.map_append, List.map_append, List.filterMap_append,
      List.filterMap_append, filterMap_outside hfront, filterMap_outside hback, filterMap_entries]
    simp
  have hlast : ∀ (named : List (List Char)) (r : Scan × FeedDesk),
      feedPart g frameOf named r [] = r := by
    intro named r
    simp [feedPart, Scan.read]
  have hstart : ∀ named : List (List Char), w.flush g frameOf named {} = w := by
    intro named
    rw [FeedDesk.flush, if_neg fun hcon => absurd hcon.1 (by decide)]
  rw [textParts_frameText (separate_frame hfront hback h), feedParts, hnamed, List.map_append,
    List.map_append]
  simp only [List.foldl_append, foldl_outside g frameOf _ hfront, foldl_outside g frameOf _ hback,
    List.foldl_cons, List.foldl_nil, hlast]
  rw [foldl_entries, hstart]

lemma portfolioForMessage_frame (g : FeedSetting)
    (h : HoldingsSeparate es) :
    g.portfolioForMessage (positionFrame front back es) =
      g.portfolioForMessage (positionFrame front back []) := by
  have hnone : HoldingsSeparate [] := fun e he => absurd he (List.not_mem_nil)
  have hsep := separate_frame hfront hback h
  have hsep' := separate_frame hfront hback hnone
  have hparse : ∀ t ∈ [8292, 6529], fixParse (positionFrame front back es) t =
      fixParse (positionFrame front back []) t := by
    intro t ht
    rw [positionFrame, positionFrame, fixParse, fixParse, textFields_textFrame hsep,
      textFields_textFrame hsep', List.map_append, List.map_append]
    refine (insertAll_skip ?_ _).trans (by rw [List.flatMap_nil, List.append_nil, List.map_append])
    rw [List.map_map]
    intro hcon
    obtain ⟨f, hf, hft⟩ := List.mem_map.1 hcon
    have hsilent := (silent_of_mem hf).2.2
    rw [show f.1 = t from hft] at hsilent
    exact hsilent (List.mem_cons_of_mem _ (List.mem_cons_of_mem _ ht))
  have hkey : FeedSetting.requestKey (positionFrame front back es) =
      FeedSetting.requestKey (positionFrame front back []) := by
    rw [FeedSetting.requestKey, FeedSetting.requestKey, hparse 8292 (by decide),
      hparse 6529 (by decide)]
  have hscan : (messageParts (positionFrame front back es)).foldl accountScan ([], []) =
      (messageParts (positionFrame front back [])).foldl accountScan ([], []) := by
    rw [messageParts, messageParts, positionFrame, positionFrame, decode_textFrame,
      decode_textFrame, Option.getD_some, Option.getD_some, textParts_frameText hsep,
      textParts_frameText hsep']
    simp only [List.map_append, List.foldl_append,
      foldl_accountScan_silent fun f hf => silent_of_mem hf, List.flatMap_nil, List.map_nil,
      List.foldl_nil]
  rw [FeedSetting.portfolioForMessage, FeedSetting.portfolioForMessage, hkey, hscan]

lemma handlePositionFeed_frame (g : FeedSetting) (h : HoldingsSeparate es)
    (w : FeedDesk) :
    handlePositionFeed g (positionFrame front back es) w =
      match g.portfolioForMessage (positionFrame front back []) with
      | none => w
      | some frameOf => es.zipIdx.foldl (fun w x => w.enter g
          (g.filedUnder frameOf (es.flatMap PositionEntry.accounts)[x.2]?) x.1) w := by
  have hdecode : Utf8.decode (positionFrame front back es) =
      some (frameText (front ++ es.flatMap PositionEntry.fields ++ back)) := decode_textFrame _
  rw [handlePositionFeed, portfolioForMessage_frame hfront hback g h, hdecode]
  cases g.portfolioForMessage (positionFrame front back []) with
  | none => rfl
  | some frameOf => exact feedParts_frame hfront hback g frameOf h w

lemma handlePositionFeed_one (g : FeedSetting) {e : PositionEntry} (h : HoldingsSeparate [e])
    (w : FeedDesk) :
    handlePositionFeed g (positionFrame front back [e]) w =
      match g.portfolioForMessage (positionFrame front back []) with
      | none => w
      | some frameOf => w.enter g (g.filedUnder frameOf e.accounts.head?) e := by
  rw [handlePositionFeed_frame hfront hback g h]
  cases g.portfolioForMessage (positionFrame front back []) with
  | none => rfl
  | some frameOf =>
      simp only [List.zipIdx_singleton, List.foldl_cons, List.foldl_nil, List.flatMap_singleton,
        List.head?_eq_getElem?]

end

/-! ## One by one -/

/-- The last quantity a holding states, where it reads as a finite number. -/
def PositionEntry.quantity (g : FeedSetting) (e : PositionEntry) : Option Figure :=
  (e.rest.filter fun f => f.1 = .quantity).getLast?.bind fun f =>
    (g.parseF64 f.2).filter Figure.isFinite

/-- Every quantity stays: the rows, the engine's positions, and those shown and told of. -/
structure FeedDesk.SameQuantities (w w' : FeedDesk) : Prop where
  rows : ∀ of, (w'.portfolioAt of).positionInfos = (w.portfolioAt of).positionInfos
  positions : w'.positions = w.positions
  shown : w'.shown = w.shown
  updates : w'.updates = w.updates

/-- **A frame means what its holdings mean one by one.** -/
structure FeedsOneByOne (g : FeedSetting) (front back : List TextField) (es : List PositionEntry)
    (w : FeedDesk) : Prop where
  /-- It leaves what a frame for each holding leaves, one after another. -/
  alike : handlePositionFeed g (positionFrame front back es) w =
    es.foldl (fun w e => handlePositionFeed g (positionFrame front back [e]) w) w
  /-- Each holding is filed under the account it states itself, else the frame's. -/
  own : ∀ frameOf ∈ g.portfolioForMessage (positionFrame front back []),
    (handlePositionFeed g (positionFrame front back es) w).filed = w.filed ++
      (es.filter fun e => decide (e.conId ≠ 0)).map fun e =>
        (e.conId, g.filedUnder frameOf e.accounts.head?)
  /-- A holding without a quantity changes none. -/
  quiet : ∀ e ∈ es, e.quantity g = none → ∀ w',
    FeedDesk.SameQuantities w' (handlePositionFeed g (positionFrame front back [e]) w')

/-- The account stated as many-th is of the portfolio the holding states itself. -/
def AccountsInStep (g : FeedSetting) (frameOf : PortfolioOf) (es : List PositionEntry) : Prop :=
  ∀ x ∈ es.zipIdx, x.1.conId ≠ 0 →
    g.filedUnder frameOf (es.flatMap PositionEntry.accounts)[x.2]? =
      g.filedUnder frameOf x.1.accounts.head?

instance (g : FeedSetting) (frameOf : PortfolioOf) : DecidablePred (AccountsInStep g frameOf) :=
  fun es => inferInstanceAs (Decidable (∀ x ∈ es.zipIdx, _ → _))

lemma qty_scan (g : FeedSetting) (e : PositionEntry) (n : ℕ) :
    (e.scan g n).qty = e.quantity g := by
  have hput : ∀ (fs : List (EntryTag × List Char)) (s : Scan),
      (fs.foldl (Scan.put g) s).qty =
        ((fs.filter fun f => f.1 = .quantity).getLast?.map fun f =>
          (g.parseF64 f.2).filter Figure.isFinite).getD s.qty := by
    intro fs
    induction fs with
    | nil => intro s; rfl
    | cons f fs ih =>
        intro s
        obtain ⟨t, v⟩ := f
        rw [List.foldl_cons, ih]
        cases t with
        | quantity =>
            rw [List.filter_cons_of_pos (by simp), List.getLast?_cons]
            cases (fs.filter fun f => f.1 = .quantity).getLast? <;> rfl
        | symbol | secType | cost | account =>
            rw [List.filter_cons_of_neg (by simp)]
            rfl
  rw [PositionEntry.scan, hput, PositionEntry.quantity]
  cases (e.rest.filter fun f => f.1 = .quantity).getLast? <;> rfl

namespace FeedDesk

variable (g : FeedSetting)

lemma sameQuantities_autoFetch (conId : ℤ) (w : FeedDesk) :
    SameQuantities w (w.autoFetchSecdefIfCold g conId) := by
  unfold autoFetchSecdefIfCold
  split
  · exact ⟨fun _ => rfl, rfl, rfl, rfl⟩
  · exact ⟨fun of => by cases of <;> rfl, rfl, rfl, rfl⟩

lemma sameQuantities_noteRestated (of : PortfolioOf) (conId : ℤ) (w : FeedDesk) :
    SameQuantities w (w.modify (fun p => p.noteRestated conId) of) := by
  cases of with
  | none => exact ⟨fun of => by cases of <;> rfl, rfl, rfl, rfl⟩
  | some account =>
      refine ⟨fun of => ?_, rfl, rfl, rfl⟩
      cases of with
      | none => rfl
      | some account' =>
          simp only [modify, portfolioAt, Function.update_apply]
          split
          case isTrue h => rw [h]; rfl
          case isFalse => rfl

lemma sameQuantities_enter {of : PortfolioOf} {e : PositionEntry} (h : e.quantity g = none)
    (w : FeedDesk) : SameQuantities w (w.enter g of e) := by
  unfold enter
  split
  case isFalse => exact ⟨fun _ => rfl, rfl, rfl, rfl⟩
  case isTrue =>
    rw [file, qty_scan, h]
    have hnoted := sameQuantities_noteRestated of (e.scan g 0).conId w
    have hfetched := sameQuantities_autoFetch g (e.scan g 0).conId
      { w.modify (fun p => p.noteRestated (e.scan g 0).conId) of with
        filed := w.filed ++ [((e.scan g 0).conId, of)] }
    have hfiled : ∀ of' : PortfolioOf, portfolioAt
        { w.modify (fun p => p.noteRestated (e.scan g 0).conId) of with
          filed := w.filed ++ [((e.scan g 0).conId, of)] } of' =
        (w.modify (fun p => p.noteRestated (e.scan g 0).conId) of).portfolioAt of' := by
      intro of'
      cases of' <;> rfl
    exact ⟨fun of' => (hfetched.rows of').trans ((congrArg _ (hfiled of')).trans (hnoted.rows of')),
      hfetched.positions.trans hnoted.positions, hfetched.shown.trans hnoted.shown,
      hfetched.updates.trans hnoted.updates⟩

lemma filed_enter (of : PortfolioOf) (e : PositionEntry) (w : FeedDesk) :
    (w.enter g of e).filed = w.filed ++ if e.conId ≠ 0 then [(e.conId, of)] else [] := by
  have hfetched : ∀ (conId : ℤ) (w : FeedDesk),
      (w.autoFetchSecdefIfCold g conId).filed = w.filed := by
    intro conId w
    unfold autoFetchSecdefIfCold
    split <;> rfl
  have hmodified : ∀ (w : FeedDesk) (f : PortfolioState → PortfolioState),
      (w.modify f of).filed = w.filed := by
    intro w f
    cases of <;> rfl
  have hheld : ∀ (s : Scan) (qty : Figure), (w.hold g of s qty).filed = w.filed := by
    intro s qty
    simp only [hold]
    split
    · rfl
    · exact hmodified w _
  rw [enter]
  by_cases hzero : e.conId = 0
  · rw [if_neg (by simp [hzero]), if_neg (by simp [hzero]), List.append_nil]
  · rw [if_pos hzero, if_pos hzero, file, hfetched, conId_scan]
    cases (e.scan g 0).qty with
    | none => rfl
    | some qty => exact congrArg (· ++ _) (hheld _ qty)

lemma filed_foldl (ref : PositionEntry × ℕ → PortfolioOf) :
    ∀ (xs : List (PositionEntry × ℕ)) (w : FeedDesk),
      (xs.foldl (fun w x => w.enter g (ref x) x.1) w).filed = w.filed ++
        (xs.filter fun x => decide (x.1.conId ≠ 0)).map fun x => (x.1.conId, ref x)
  | [], w => by simp
  | x :: xs, w => by
      rw [List.foldl_cons, filed_foldl ref xs, filed_enter, List.append_assoc]
      by_cases hzero : x.1.conId = 0
      · rw [if_neg (by simp [hzero]), List.filter_cons_of_neg (by simp [hzero]), List.nil_append]
      · rw [if_pos hzero, List.filter_cons_of_pos (by simpa using hzero), List.map_cons,
          List.singleton_append]

end FeedDesk

/-- **Where a position frame means what its holdings mean one by one**: where it names a request
nothing is known of, or the account stated as many-th is of the portfolio each holding states. -/
theorem feed_one_by_one_iff (g : FeedSetting) {front back : List TextField}
    (hfront : OutsideHoldings front) (hback : OutsideHoldings back) {es : List PositionEntry}
    (h : HoldingsSeparate es) (w : FeedDesk) :
    FeedsOneByOne g front back es w ↔
      ∀ frameOf ∈ g.portfolioForMessage (positionFrame front back []),
        AccountsInStep g frameOf es := by
  have hframe := handlePositionFeed_frame hfront hback g h
  have hone : ∀ e ∈ es, ∀ w, handlePositionFeed g (positionFrame front back [e]) w = _ :=
    fun e he w => handlePositionFeed_one hfront hback g (fun e' he' => h e' (by
      rwa [List.mem_singleton.1 he'])) w
  have hidx : ∀ f : PositionEntry → ℤ × PortfolioOf,
      (es.filter fun e => decide (e.conId ≠ 0)).map f =
        (es.zipIdx.filter fun x => decide (x.1.conId ≠ 0)).map fun x => f x.1 := by
    intro f
    conv_lhs => rw [← List.zipIdx_map_fst 0 es, List.filter_map, List.map_map]
    rfl
  constructor
  · intro hfeeds frameOf hof x hx hne
    have hown := hfeeds.own frameOf hof
    rw [hframe, hof] at hown
    simp only [FeedDesk.filed_foldl] at hown
    rw [hidx] at hown
    have hpair := List.map_inj_left.1 (List.append_cancel_left hown) x
      (List.mem_filter.2 ⟨hx, decide_eq_true hne⟩)
    exact (Prod.mk.inj hpair).2
  · intro hstep
    cases hof : g.portfolioForMessage (positionFrame front back []) with
    | none =>
        simp only [hof] at hframe hone
        refine ⟨?_, fun frameOf hcon => ?_, fun e he _ w' => ?_⟩
        · rw [hframe, List.foldl_ext _ (fun w _ => w) w fun w e he => hone e he w]
          exact (List.foldl_fixed es).symm
        · rw [hof] at hcon
          cases hcon
        · rw [hone e he]
          exact ⟨fun _ => rfl, rfl, rfl, rfl⟩
    | some frameOf =>
        have hin := hstep frameOf hof
        simp only [hof] at hframe hone
        refine ⟨?_, fun frameOf' hof' => ?_, fun e he hquiet w' => ?_⟩
        · have hown :
              es.foldl (fun w e => handlePositionFeed g (positionFrame front back [e]) w) w = es.foldl (fun w e => w.enter g (g.filedUnder frameOf e.accounts.head?) e) w :=
            List.foldl_ext _ _ w fun w' e he => hone e he w'
          rw [hframe, hown]
          conv_rhs => rw [← List.zipIdx_map_fst 0 es, List.foldl_map]
          refine List.foldl_ext _ _ w fun w' x hx => ?_
          by_cases hzero : x.1.conId = 0
          · simp [FeedDesk.enter, hzero]
          · rw [hin x hx hzero]
        · obtain rfl : frameOf = frameOf' := Option.some.inj (hof.symm.trans hof')
          rw [hframe, FeedDesk.filed_foldl, hidx]
          refine congrArg (w.filed ++ ·) (List.map_congr_left fun x hx => ?_)
          obtain ⟨hx, hne⟩ := List.mem_filter.1 hx
          rw [hin x hx (of_decide_eq_true hne)]
        · rw [hone e he]
          exact FeedDesk.sameQuantities_enter g hquiet w'

lemma portfolioForMessage_silent (g : FeedSetting) {front back : List TextField}
    (hfront : OutsideHoldings front) (hback : OutsideHoldings back)
    (hsilent : ∀ f ∈ front ++ back, Silent f.1) :
    g.portfolioForMessage (positionFrame front back []) = some none := by
  have hsep : Separate (front ++ [].flatMap PositionEntry.fields ++ back) :=
    separate_frame hfront hback fun e he => absurd he List.not_mem_nil
  have hparse : ∀ t ∈ [8292, 6529], fixParse (positionFrame front back []) t = none := by
    intro t ht
    rw [positionFrame, fixParse, textFields_textFrame hsep, List.flatMap_nil, List.append_nil]
    refine insertAll_of_not_mem _ fun hcon => ?_
    rw [List.map_map] at hcon
    obtain ⟨f, hf, hft⟩ := List.mem_map.1 hcon
    have hnot := (hsilent f hf).2.2
    rw [show f.1 = t from hft] at hnot
    exact hnot (List.mem_cons_of_mem _ (List.mem_cons_of_mem _ ht))
  have hkey : FeedSetting.requestKey (positionFrame front back []) = "" := by
    rw [FeedSetting.requestKey, hparse 8292 (by decide), hparse 6529 (by decide)]
    rfl
  have hscan : (messageParts (positionFrame front back [])).foldl accountScan ([], []) =
      ([], []) := by
    rw [messageParts, positionFrame, decode_textFrame, Option.getD_some, textParts_frameText hsep,
      List.flatMap_nil, List.append_nil, List.foldl_append, foldl_accountScan_silent hsilent]
    simp [accountScan]
  rw [FeedSetting.portfolioForMessage, if_neg (not_not.2 hkey), hscan, FeedSetting.portfolioFor,
    if_pos (.inl rfl)]

/-- A session under one account, whole quantities read, nothing registered and nothing defined. -/
def oneAccount : FeedSetting where
  parseF64 v := (Decimal.parse (2 ^ 53) (Utf8.encode v)).map fun n => .number n
  priceFromF64
    | .number q => (q * 100000000).floor
    | _ => 0
  adopted _ stated := stated
  sessionAccount := "DU1".toList
  accountRequests _ := none
  instrumentByConId _ := none
  hasDefinition _ := false

def feedFront : List TextField := [(35, "U".toList), (6040, "75".toList)]

lemma outside_feedFront : OutsideHoldings feedFront := by
  refine ⟨?_, ?_⟩ <;> decide

lemma outside_nil : OutsideHoldings [] := ⟨fun _ h => absurd h List.not_mem_nil, fun _ h =>
  absurd h List.not_mem_nil⟩

/-- One contract held under two accounts, each holding stating its own. -/
def twoAccounts : List PositionEntry :=
  [⟨"756733".toList, [(.account, "DU1".toList), (.quantity, "3".toList)]⟩,
    ⟨"756733".toList, [(.account, "DU2".toList), (.quantity, "7".toList)]⟩]

theorem feed_one_by_one_two :
    FeedsOneByOne oneAccount feedFront [] twoAccounts { nextInternalSecdefId := 1 } := by
  have hseparate : HoldingsSeparate twoAccounts := by decide
  refine (feed_one_by_one_iff oneAccount outside_feedFront outside_nil hseparate _).2
    fun frameOf hof => ?_
  rw [portfolioForMessage_silent oneAccount outside_feedFront outside_nil (by decide)] at hof
  obtain rfl : none = frameOf := Option.some.inj hof
  decide

/-- The first holding states no account, the second another's. -/
def accountUnstated : List PositionEntry :=
  [⟨"265598".toList, [(.quantity, "3".toList)]⟩,
    ⟨"756733".toList, [(.account, "DU2".toList), (.quantity, "7".toList)]⟩]

/-- The first holding is filed under the account the second states, and the second under the
session's own. -/
theorem feed_files_under_another :
    (handlePositionFeed oneAccount (positionFrame feedFront [] accountUnstated)
      { nextInternalSecdefId := 1 }).filed = [(265598, some "DU2".toList), (756733, none)] ∧
      ¬ FeedsOneByOne oneAccount feedFront [] accountUnstated { nextInternalSecdefId := 1 } := by
  have hof := portfolioForMessage_silent oneAccount outside_feedFront outside_nil (by decide)
  have hseparate : HoldingsSeparate accountUnstated := by decide
  have hfiled : (handlePositionFeed oneAccount (positionFrame feedFront [] accountUnstated)
      { nextInternalSecdefId := 1 }).filed = [(265598, some "DU2".toList), (756733, none)] := by
    rw [handlePositionFeed_frame outside_feedFront outside_nil oneAccount hseparate, hof]
    simp only [FeedDesk.filed_foldl]
    decide
  refine ⟨hfiled, fun hfeeds => ?_⟩
  have hown := hfeeds.own none hof
  rw [hfiled] at hown
  revert hown
  decide

end IbkrDx
