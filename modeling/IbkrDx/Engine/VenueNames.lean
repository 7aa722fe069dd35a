import IbkrDx.Lib.Runs
import IbkrDx.Engine.Orders
import Mathlib.Data.Set.Card

/-!
# The venue's own names for orders

A recovered order goes by a name of the venue's own, and what is reported of it later states that
name alone.  `remember_the_venues_name_for` of `hot_loop/ccp/mod.rs` learns it, in a map beside a
queue, and trims the two together once they hold more than a window.

* **`VenueNames.names_kept`** — whatever is called, in whatever book, the map and the queue hold
  the same names, and a name whose order is working is never forgotten.
-/

namespace IbkrDx

/-! ## Names as they are held -/

def wireNameWindow : ℕ := 4096

structure VenueNames where
  wireNameToOrder : ℕ → Option OrderId
  wireNamesLearned : List ℕ

/-- The orders a session has open: `Context::order`. -/
abbrev OrderBook := OrderId → Option Order

namespace VenueNames

def fresh : VenueNames := ⟨fun _ => none, []⟩

def theOrderNamed (s : VenueNames) (wireName : ℕ) : Option OrderId := s.wireNameToOrder wireName

/-- Where the oldest name stands that is not the one just learned and whose order is not open. -/
def forgettable (s : VenueNames) (book : OrderBook) (wireName : ℕ) : Option ℕ :=
  s.wireNamesLearned.findIdx? fun name =>
    name != wireName && (s.wireNameToOrder name).all fun order => (book order).isNone

/-- A turn of the loop, `none` where the loop is left. -/
def turn (s : VenueNames) (book : OrderBook) (wireName : ℕ) : Option VenueNames :=
  if wireNameWindow < s.wireNamesLearned.length then
    (s.forgettable book wireName).map fun i =>
      match s.wireNamesLearned[i]? with
      | some oldest => ⟨Function.update s.wireNameToOrder oldest none,
          s.wireNamesLearned.eraseIdx i⟩
      | none => s
  else none

/-- The loop, `none` where so many turns do not end it. -/
def trim (book : OrderBook) (wireName : ℕ) : ℕ → VenueNames → Option VenueNames
  | 0, _ => none
  | turns + 1, s =>
      match s.turn book wireName with
      | some s' => trim book wireName turns s'
      | none => some s

def learn (s : VenueNames) (wireName : ℕ) (orderId : OrderId) : VenueNames where
  wireNameToOrder := Function.update s.wireNameToOrder wireName (some orderId)
  wireNamesLearned := if (s.wireNameToOrder wireName).isNone then s.wireNamesLearned ++ [wireName]
    else s.wireNamesLearned

structure Teaching where
  wireName : ℕ
  orderId : OrderId
  book : OrderBook

def rememberTheVenuesNameFor (turns : ℕ) (s : VenueNames) (c : Teaching) : Option VenueNames :=
  (s.learn c.wireName c.orderId).trim c.book c.wireName turns

variable {s s' : VenueNames} {book : OrderBook} {wireName : ℕ}

/-! ## One turn -/

/-- **The queue holds each name of the map once, and no other.** -/
structure Sound (s : VenueNames) : Prop where
  nodup : s.wireNamesLearned.Nodup
  mem_iff : ∀ name, name ∈ s.wireNamesLearned ↔ (s.theOrderNamed name).isSome

lemma sound_fresh : Sound fresh := ⟨List.nodup_nil, by simp [fresh, theOrderNamed]⟩

lemma turn_cases (h : Sound s) (hturn : s.turn book wireName = some s') :
    ∃ oldest ∈ s.wireNamesLearned, oldest ≠ wireName ∧
      (∀ order ∈ s.theOrderNamed oldest, book order = none) ∧
        s' = ⟨Function.update s.wireNameToOrder oldest none,
          s.wireNamesLearned.erase oldest⟩ := by
  rw [turn] at hturn
  split_ifs at hturn with hlong
  obtain ⟨i, hi, rfl⟩ := Option.map_eq_some_iff.1 hturn
  obtain ⟨hlt, hgo, -⟩ := List.findIdx?_eq_some_iff_getElem.1 hi
  rw [Bool.and_eq_true, bne_iff_ne, Option.all_eq_true] at hgo
  refine ⟨s.wireNamesLearned[i], List.getElem_mem hlt, hgo.1, fun order horder =>
    Option.isNone_iff_eq_none.1 (hgo.2 order horder), ?_⟩
  rw [List.getElem?_eq_getElem hlt, h.nodup.erase_getElem i hlt]

/-- Where the loop is left, the window holds them, or every other name's order is open. -/
lemma turn_eq_none (h : Sound s) (hturn : s.turn book wireName = none) :
    s.wireNamesLearned.length ≤ wireNameWindow ∨ ∀ name ∈ s.wireNamesLearned, name ≠ wireName →
      ∃ order ∈ s.theOrderNamed name, (book order).isSome := by
  rw [turn] at hturn
  split_ifs at hturn with hlong
  · refine .inr fun name hname hother => ?_
    obtain ⟨order, horder⟩ := Option.isSome_iff_exists.1 ((h.mem_iff name).1 hname)
    have hstay := List.findIdx?_eq_none_iff.1 (Option.map_eq_none_iff.1 hturn) name hname
    rw [Bool.and_eq_false_iff] at hstay
    refine ⟨order, horder, ?_⟩
    rw [theOrderNamed] at horder
    simpa [hother, horder] using hstay
  · exact .inl (not_lt.1 hlong)

/-! ## One call -/

structure Trimmed (book : OrderBook) (wireName : ℕ) (s s' : VenueNames) : Prop where
  sound : Sound s'
  length_le : s'.wireNamesLearned.length ≤ s.wireNamesLearned.length
  named : ∀ name, s'.theOrderNamed name = s.theOrderNamed name ∨ name ≠ wireName ∧
    s'.theOrderNamed name = none ∧ ∀ order ∈ s.theOrderNamed name, book order = none
  bounded : s'.wireNamesLearned.length ≤ wireNameWindow ∨
    ∀ name ∈ s'.wireNamesLearned, name ≠ wireName →
      ∃ order ∈ s'.theOrderNamed name, (book order).isSome

lemma trim_trimmed : ∀ {turns : ℕ} {s : VenueNames}, Sound s → s.wireNamesLearned.length < turns →
    ∃ s', s.trim book wireName turns = some s' ∧ Trimmed book wireName s s'
  | turns + 1, s, h, hturns => by
      rw [trim]
      cases hturn : s.turn book wireName with
      | none => exact ⟨s, rfl, h, le_rfl, fun _ => .inl rfl, turn_eq_none h hturn⟩
      | some next =>
          obtain ⟨oldest, hmem, hother, hgo, rfl⟩ := turn_cases h hturn
          have hlength : (s.wireNamesLearned.erase oldest).length + 1 = s.wireNamesLearned.length :=
            List.length_erase_add_one hmem
          have hnext : Sound ⟨Function.update s.wireNameToOrder oldest none,
              s.wireNamesLearned.erase oldest⟩ := by
            refine ⟨h.nodup.erase oldest, fun name => ?_⟩
            rw [h.nodup.mem_erase_iff, h.mem_iff]
            by_cases hname : name = oldest <;> simp [hname, theOrderNamed]
          obtain ⟨s', hs', ht⟩ := trim_trimmed hnext
            (Nat.lt_of_succ_lt_succ (hlength.trans_lt hturns))
          refine ⟨s', hs', ht.sound, ht.length_le.trans List.length_erase_le, fun name => ?_,
            ht.bounded⟩
          by_cases hname : name = oldest
          · subst hname
            refine .inr ⟨hother, ?_, hgo⟩
            rcases ht.named name with heq | ⟨-, heq, -⟩
            · simpa [theOrderNamed] using heq
            · exact heq
          · simpa [theOrderNamed, hname] using ht.named name

def standsFor (name : ℕ) (stood : Option OrderId) (c : Teaching) : Option OrderId :=
  if c.wireName = name then some c.orderId else stood

@[simp]
lemma theOrderNamed_learn (s : VenueNames) (c : Teaching) (name : ℕ) :
    (s.learn c.wireName c.orderId).theOrderNamed name =
      standsFor name (s.theOrderNamed name) c := by
  simp only [theOrderNamed, learn, standsFor, Function.update_apply]
  exact if_congr eq_comm rfl rfl

lemma mem_learn (h : Sound s) (c : Teaching) (name : ℕ) :
    name ∈ (s.learn c.wireName c.orderId).wireNamesLearned ↔
      c.wireName = name ∨ name ∈ s.wireNamesLearned := by
  rw [learn]
  split_ifs with hnew
  · simp [or_comm, eq_comm]
  · have hold : c.wireName ∈ s.wireNamesLearned := by
      rw [h.mem_iff, theOrderNamed]
      simpa [Option.isSome_iff_ne_none] using hnew
    exact ⟨.inr, fun hname => hname.elim (fun heq => heq ▸ hold) id⟩

lemma Sound.learn (h : Sound s) (c : Teaching) : Sound (s.learn c.wireName c.orderId) where
  nodup := by
    rw [VenueNames.learn]
    split_ifs with hnew
    · refine List.nodup_append.2 ⟨h.nodup, List.nodup_singleton _, fun name hname _ hsingle => ?_⟩
      rintro rfl
      rw [h.mem_iff, List.mem_singleton.1 hsingle, theOrderNamed] at hname
      simp [Option.isNone_iff_eq_none.1 hnew] at hname
    · exact h.nodup
  mem_iff name := by
    rw [mem_learn h, h.mem_iff, theOrderNamed_learn, standsFor]
    split_ifs with hname <;> simp [hname]

lemma length_learn (s : VenueNames) (c : Teaching) :
    (s.learn c.wireName c.orderId).wireNamesLearned.length ≤ s.wireNamesLearned.length + 1 := by
  rw [learn]
  split_ifs with hnew
  · rw [List.length_append, List.length_singleton]
  · exact Nat.le_succ _

def Taught (s : VenueNames) (c : Teaching) (s' : VenueNames) : Prop :=
  Trimmed c.book c.wireName (s.learn c.wireName c.orderId) s'

/-- **Every call ends.** -/
lemma remember_taught (turns : ℕ) (h : Sound s) (c : Teaching)
    (hturns : s.wireNamesLearned.length + 1 < turns) :
    ∃ s', s.rememberTheVenuesNameFor turns c = some s' ∧ Taught s c s' :=
  trim_trimmed (h.learn c) ((s.length_learn c).trans_lt hturns)

/-- The order a name stands for is in the book a call finds, unless the call teaches the name. -/
def Working (name : ℕ) (stood : Option OrderId) (c : Teaching) : Prop :=
  c.wireName = name ∨ ∃ order ∈ stood, (c.book order).isSome

variable {c : Teaching}

lemma Taught.last (h : Taught s c s') {name : ℕ} {stood : Option OrderId}
    (hstood : ∀ order ∈ s.theOrderNamed name, order ∈ stood) {order : OrderId}
    (hnamed : order ∈ s'.theOrderNamed name) : order ∈ standsFor name stood c := by
  rcases h.named name with heq | ⟨-, hgone, -⟩
  · rw [heq, theOrderNamed_learn, standsFor] at hnamed
    rw [standsFor]
    split_ifs at hnamed ⊢ with hname
    · exact hnamed
    · exact hstood order hnamed
  · rw [hgone] at hnamed
    cases hnamed

lemma Taught.kept (h : Taught s c s') {name : ℕ}
    (hworking : Working name (s.theOrderNamed name) c) :
    s'.theOrderNamed name = standsFor name (s.theOrderNamed name) c := by
  rcases h.named name with heq | ⟨hother, -, hgo⟩
  · rw [heq, theOrderNamed_learn]
  · obtain ⟨order, hnamed, hopen⟩ := hworking.resolve_left (Ne.symm hother)
    rw [theOrderNamed_learn, standsFor, if_neg (Ne.symm hother)] at hgo
    rw [hgo order hnamed] at hopen
    cases hopen

lemma Taught.newest (h : Taught s c s') :
    s'.theOrderNamed c.wireName = some c.orderId := by
  rw [h.kept (.inl rfl), standsFor, if_pos rfl]

/-! ## A run of calls -/

structure Remembered (s : VenueNames) (calls : List Teaching) (s' : VenueNames) : Prop where
  sound : Sound s'
  length_le : s'.wireNamesLearned.length ≤ s.wireNamesLearned.length + calls.length
  last : ∀ name stood, (∀ order ∈ s.theOrderNamed name, order ∈ stood) →
    ∀ order ∈ s'.theOrderNamed name, order ∈ Runs.run (standsFor name) stood calls
  kept : ∀ name, Runs.Along (standsFor name) (Working name) (s.theOrderNamed name) calls →
    s'.theOrderNamed name = Runs.run (standsFor name) (s.theOrderNamed name) calls

lemma run_remembered (turns : ℕ) (calls : List Teaching) (h : Sound s)
    (hturns : s.wireNamesLearned.length + calls.length < turns) :
    ∃ s', calls.foldlM (rememberTheVenuesNameFor turns) s = some s' ∧ Remembered s calls s' := by
  induction calls generalizing s with
  | nil => exact ⟨s, rfl, h, le_rfl, fun _ _ hstood => hstood, fun _ _ => rfl⟩
  | cons c calls ih =>
      rw [List.length_cons] at hturns
      obtain ⟨next, hnext, ht⟩ := remember_taught turns h c (by omega)
      have hle := ht.length_le.trans (s.length_learn c)
      obtain ⟨s', hs', hr⟩ := ih ht.sound (by omega)
      refine ⟨s', by rw [List.foldlM_cons, hnext]; exact hs', hr.sound, ?_, ?_, ?_⟩
      · have := hr.length_le
        rw [List.length_cons]
        omega
      · exact fun name stood hstood => hr.last name _ fun _ => ht.last hstood
      · intro name hworking
        have hstands := ht.kept hworking.1
        exact (hr.kept name (hstands ▸ hworking.2)).trans (by rw [hstands]; rfl)

lemma run_cut {before after : List Teaching} {t : Teaching} {turns : ℕ}
    (hturns : (before ++ t :: after).length < turns)
    (hs : (before ++ t :: after).foldlM (rememberTheVenuesNameFor turns) fresh = some s) :
    ∃ prior next, Taught prior t next ∧
      after.foldlM (rememberTheVenuesNameFor turns) next = some s ∧ Remembered next after s := by
  rw [List.length_append, List.length_cons] at hturns
  obtain ⟨prior, hprior, hb⟩ := run_remembered turns before sound_fresh (by
    rw [fresh, List.length_nil]
    omega)
  have hlength : prior.wireNamesLearned.length ≤ before.length := by
    simpa [fresh] using hb.length_le
  obtain ⟨next, hnext, ht⟩ := remember_taught turns hb.sound t (by omega)
  have hle := ht.length_le.trans (prior.length_learn t)
  obtain ⟨s', hs', ha⟩ := run_remembered turns after ht.sound (by omega)
  rw [List.foldlM_append, hprior] at hs
  have heq : after.foldlM (rememberTheVenuesNameFor turns) next = some s := by
    simpa [List.foldlM_cons, hnext] using hs
  rw [hs'] at heq
  cases heq
  exact ⟨prior, next, ht, hs', ha⟩

def names (s : VenueNames) (p : OrderId → Prop) : Set ℕ :=
  {name | ∃ order, s.theOrderNamed name = some order ∧ p order}

lemma Sound.ncard_names (h : Sound s) :
    (s.names fun _ => True).ncard = s.wireNamesLearned.length := by
  have heq : s.names (fun _ => True) = s.wireNamesLearned.toFinset := by
    ext name
    rw [List.coe_toFinset, Set.mem_ofPred_eq, h.mem_iff, Option.isSome_iff_exists]
    simp [names]
  rw [heq, Set.ncard_coe_finset, List.toFinset_card_of_nodup h.nodup]

/-- Past the window, only the name just taught may stand for an order that is not open. -/
lemma Taught.ncard_names_le (h : Taught s c s') : (s'.names fun _ => True).ncard ≤
    max wireNameWindow ((s'.names fun order => (c.book order).isSome).ncard + 1) := by
  rw [h.sound.ncard_names, le_max_iff]
  refine h.bounded.imp_right fun hopen => ?_
  have hheld : ∀ {name order}, s'.theOrderNamed name = some order → name ∈ s'.wireNamesLearned :=
    fun hnamed => (h.sound.mem_iff _).2 (hnamed ▸ rfl)
  have hsub : s'.names (fun _ => True) ⊆
      insert c.wireName (s'.names fun order => (c.book order).isSome) := by
    rintro name ⟨order, hnamed, -⟩
    by_cases hname : name = c.wireName
    · exact .inl hname
    · exact .inr (hopen name (hheld hnamed) hname)
  have hfinite : (s'.names fun order => (c.book order).isSome).Finite :=
    (List.finite_toSet s'.wireNamesLearned).subset fun _ ⟨_, hnamed, _⟩ => hheld hnamed
  calc s'.wireNamesLearned.length
      = (s'.names fun _ => True).ncard := h.sound.ncard_names.symm
    _ ≤ (insert c.wireName (s'.names fun order => (c.book order).isSome)).ncard :=
        Set.ncard_le_ncard hsub (hfinite.insert _)
    _ ≤ _ := Set.ncard_insert_le _ _

/-- **The venue's names for working orders are never forgotten, and the window stays consistent.**
Whatever calls come, and whatever book each finds, every loop ends; the queue holds each name of the
map once, and no other; a name stands for the order it was last taught; a name whose order is in
every later book, and the one just taught, is held; and no more are held than the window, or than
one more than those whose orders are open. -/
theorem names_kept (calls : List Teaching) {turns : ℕ} (hturns : calls.length < turns) :
    ∃ s, calls.foldlM (rememberTheVenuesNameFor turns) fresh = some s ∧
      (s.wireNamesLearned.Nodup ∧
        ∀ name, name ∈ s.wireNamesLearned ↔ (s.wireNameToOrder name).isSome) ∧
      (∀ name order, s.theOrderNamed name = some order →
        Runs.run (standsFor name) none calls = some order) ∧
      (∀ before t after, calls = before ++ t :: after →
        Runs.Along (standsFor t.wireName) (Working t.wireName) (some t.orderId) after →
          s.theOrderNamed t.wireName =
            Runs.run (standsFor t.wireName) (some t.orderId) after) ∧
      ∀ before t, calls = before ++ [t] → s.theOrderNamed t.wireName = some t.orderId ∧
        (s.names fun _ => True).ncard ≤
          max wireNameWindow ((s.names fun order => (t.book order).isSome).ncard + 1) := by
  obtain ⟨s, hs, hr⟩ := run_remembered turns calls sound_fresh (by
    rw [fresh, List.length_nil, Nat.zero_add]
    exact hturns)
  refine ⟨s, hs, ⟨hr.sound.nodup, hr.sound.mem_iff⟩, fun name order hnamed =>
    hr.last name none nofun order hnamed, fun before t after heq hworking => ?_,
    fun before t heq => ?_⟩
  · obtain ⟨prior, next, ht, -, hafter⟩ := run_cut (heq ▸ hturns) (heq ▸ hs)
    rw [← ht.newest] at hworking ⊢
    exact hafter.kept t.wireName hworking
  · obtain ⟨prior, next, ht, hnext, -⟩ := run_cut (heq ▸ hturns) (heq ▸ hs)
    cases hnext
    exact ⟨ht.newest, ht.ncard_names_le⟩

def sevenOpen : OrderBook := fun order =>
  if order = 7 then some ⟨0, .buy, 100, 0, 50, 48, 0, 0, .submitted⟩ else none

/-- Two names, the first of an order that the second call finds open. -/
theorem names_kept_two : ∃ s, [⟨900, 7, fun _ => none⟩, ⟨901, 8, sevenOpen⟩].foldlM
    (rememberTheVenuesNameFor 3) fresh = some s ∧
      s.theOrderNamed 900 = some 7 ∧ s.theOrderNamed 901 = some 8 := by
  obtain ⟨s, hs, -, -, hkept, hnewest⟩ :=
    @names_kept [⟨900, 7, fun _ => none⟩, ⟨901, 8, sevenOpen⟩] 3 (by decide)
  have hworking : Runs.Along (standsFor 900) (Working 900) (some 7) [⟨901, 8, sevenOpen⟩] :=
    ⟨.inr ⟨7, rfl, by decide⟩, trivial⟩
  exact ⟨s, hs, hkept [] _ _ rfl hworking, (hnewest [_] _ rfl).1⟩

end VenueNames

end IbkrDx
