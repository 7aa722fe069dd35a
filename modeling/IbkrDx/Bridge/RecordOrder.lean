import Mathlib.Algebra.BigOperators.Group.Finset.Piecewise
import Mathlib.Algebra.Order.BigOperators.Group.Finset
import Mathlib.Tactic.Abel
import IbkrDx.Bridge.Records
import IbkrDx.Lib.Runs

/-!
# A reader sees the session's records in one order, each once

Pushes go on while a read goes over one queue after another, and reads follow one another.

* **`SessionRecords.Sound.step`** — every event keeps the records accounted for.
* **`records_in_one_order`** — each read in the order of the stamps, every record in one place, and
  none below the cut missed.  `not_records_in_one_order` is a record nobody holds that is dropped.
-/

namespace IbkrDx

variable {ι α β : Type*}

/-! ## What was handed out -/

@[simp]
lemma mem_recordsOf {l : List (ℕ × Given ι α β)} {e : ℕ × ι × Waiting α} :
    e ∈ recordsOf l ↔ (e.1, Given.record e.2.1 e.2.2) ∈ l := by
  simp only [recordsOf, List.mem_filterMap]
  constructor
  · rintro ⟨⟨n, g⟩, hmem, hg⟩
    cases g with
    | record q w =>
        obtain rfl := Option.some.inj hg
        exact hmem
    | bulletin b => exact absurd hg (by simp)
  · intro hmem
    exact ⟨_, hmem, rfl⟩

@[simp]
lemma recordsOf_append (l l' : List (ℕ × Given ι α β)) :
    recordsOf (l ++ l') = recordsOf l ++ recordsOf l' := List.filterMap_append

@[simp]
lemma recordsOf_records (q : ι) (l : List (ℕ × Waiting α)) :
    recordsOf (l.map fun e => (e.1, (.record q e.2 : Given ι α β)))
      = l.map fun e => (e.1, q, e.2) := by
  simp [recordsOf, List.filterMap_map]

@[simp]
lemma recordsOf_bulletins (l : List (ℕ × β)) :
    recordsOf (l.map fun e => (e.1, (.bulletin e.2 : Given ι α β))) = [] := by
  simp [recordsOf]

lemma stamps_recordsOf_sublist (l : List (ℕ × Given ι α β)) :
    ((recordsOf l).map Prod.fst).Sublist (l.map Prod.fst) := by
  induction l with
  | nil => exact List.Sublist.refl _
  | cons e l ih =>
      obtain ⟨n, g⟩ := e
      cases g with
      | record q w => exact ih.cons_cons n
      | bulletin b => exact ih.cons n

def bulletinStamps (l : List (ℕ × Given ι α β)) : List ℕ :=
  l.filterMap fun e => match e.2 with
    | .record _ _ => none
    | .bulletin _ => some e.1

@[simp]
lemma bulletinStamps_append (l l' : List (ℕ × Given ι α β)) :
    bulletinStamps (l ++ l') = bulletinStamps l ++ bulletinStamps l' := List.filterMap_append

@[simp]
lemma bulletinStamps_records (q : ι) (l : List (ℕ × Waiting α)) :
    bulletinStamps (l.map fun e => (e.1, (.record q e.2 : Given ι α β))) = [] := by
  simp [bulletinStamps]

@[simp]
lemma bulletinStamps_bulletins (l : List (ℕ × β)) :
    bulletinStamps (l.map fun e => (e.1, (.bulletin e.2 : Given ι α β))) = l.map Prod.fst := by
  simp [bulletinStamps, List.filterMap_map]

lemma nodup_of_parts {l : List (ℕ × Given ι α β)} (hrecords : (recordsOf l).Nodup)
    (hbulletins : (bulletinStamps l).Nodup) : l.Nodup := by
  induction l with
  | nil => exact .nil
  | cons e l ih =>
      obtain ⟨n, g⟩ := e
      cases g with
      | record q w =>
          have hr : recordsOf ((n, Given.record q w) :: l) = (n, q, w) :: recordsOf l := rfl
          have hb : bulletinStamps ((n, Given.record q w) :: l) = bulletinStamps l := rfl
          rw [hr, List.nodup_cons] at hrecords
          exact List.nodup_cons.2 ⟨fun h => hrecords.1 (mem_recordsOf.2 h), ih hrecords.2 (hb ▸ hbulletins)⟩
      | bulletin b =>
          have hr : recordsOf ((n, Given.bulletin b) :: l) = recordsOf l := rfl
          have hb : bulletinStamps ((n, Given.bulletin b) :: l) = n :: bulletinStamps l := rfl
          rw [hb, List.nodup_cons] at hbulletins
          exact List.nodup_cons.2 ⟨fun h => hbulletins.1 (List.mem_filterMap.2 ⟨_, h, rfl⟩),
            ih (hr ▸ hrecords) hbulletins.2⟩

/-! ## Where the records are -/

def Read.gone (r : Read ι α β) : Multiset (ℕ × ι × Waiting α) := recordsOf r.out + r.dropped

def tagged (q : ι) (l : List (ℕ × Waiting α)) : List (ℕ × ι × Waiting α) :=
  l.map fun e => (e.1, q, e.2)

lemma mem_tagged {q : ι} {l : List (ℕ × Waiting α)} {e : ℕ × ι × Waiting α} :
    e ∈ tagged q l ↔ e.2.1 = q ∧ (e.1, e.2.2) ∈ l := by
  obtain ⟨n, p, w⟩ := e
  constructor
  · intro h
    obtain ⟨e, hmem, heq⟩ := List.mem_map.1 h
    obtain ⟨rfl, rfl, rfl⟩ : e.1 = n ∧ q = p ∧ e.2 = w := by simpa using heq
    exact ⟨rfl, hmem⟩
  · rintro ⟨rfl, hmem⟩
    exact List.mem_map.2 ⟨_, hmem, rfl⟩

section

variable [Fintype ι]

def inQueues (queues : ι → List (ℕ × Waiting α)) : Multiset (ℕ × ι × Waiting α) :=
  ∑ q, (tagged q (queues q) : Multiset _)

lemma mem_inQueues {queues : ι → List (ℕ × Waiting α)} {q : ι} {e : ℕ × Waiting α}
    (h : e ∈ queues q) : (e.1, q, e.2) ∈ inQueues queues := by
  have hle : (tagged q (queues q) : Multiset _) ≤ inQueues queues :=
    Finset.single_le_sum (f := fun q => (tagged q (queues q) : Multiset (ℕ × ι × Waiting α)))
      (fun _ _ => Multiset.zero_le _) (Finset.mem_univ q)
  exact Multiset.mem_of_le hle (Multiset.mem_coe.2 (mem_tagged.2 ⟨rfl, h⟩))

lemma inQueues_update [DecidableEq ι] (queues : ι → List (ℕ × Waiting α)) (q : ι)
    (l : List (ℕ × Waiting α)) :
    inQueues (Function.update queues q l) + tagged q (queues q) = inQueues queues + tagged q l := by
  have htagged : (fun p => (tagged p (Function.update queues q l p) : Multiset _))
      = Function.update (fun p => (tagged p (queues p) : Multiset (ℕ × ι × Waiting α))) q
        (tagged q l : Multiset _) := by
    funext p
    by_cases hp : p = q
    · subst hp
      simp
    · simp [Function.update_of_ne hp]
  unfold inQueues
  rw [htagged, Finset.sum_update_of_mem (Finset.mem_univ q),
    ← Finset.add_sum_erase Finset.univ _ (Finset.mem_univ q), Finset.sdiff_singleton_eq_erase]
  ac_rfl

end

/-! ## What a read did -/

namespace Read

structure Fair (rule : ι → Keeping) (stamped : List (ℕ × Given ι α β)) (r : Read ι α β) :
    Prop where
  handed : ∀ e ∈ r.out, e ∈ stamped ∧ e.1 < r.cut
  taken : ∀ e ∈ recordsOf r.out, (rule e.2.1).fate (r.holding e.1) e.2.2 = .take
  left : ∀ e ∈ r.left, e.1 < r.cut ∧ (rule e.2.1).fate (r.holding e.1) e.2.2 = .leave
  dropped : ∀ e ∈ r.dropped, e.1 < r.cut ∧ (rule e.2.1).fate (r.holding e.1) e.2.2 = .drop

lemma Fair.mono {rule : ι → Keeping} {stamped stamped' : List (ℕ × Given ι α β)}
    {r : Read ι α β} (h : r.Fair rule stamped) (hsub : stamped ⊆ stamped') : r.Fair rule stamped' :=
  { h with handed := fun e he => ⟨hsub (h.handed e he).1, (h.handed e he).2⟩ }

lemma Fair.append {rule : ι → Keeping} {stamped : List (ℕ × Given ι α β)} {r : Read ι α β}
    (h : r.Fair rule stamped) (rest : List (Option ι)) {q : ι} {met : Fate → List (ℕ × Waiting α)}
    (hmet : ∀ f, ∀ e ∈ met f, (e.1, .record q e.2) ∈ stamped ∧ e.1 < r.cut ∧
      (rule q).fate (r.holding e.1) e.2 = f) :
    Fair rule stamped { r with
      plan := rest
      out := r.out ++ (met .take).map fun e => (e.1, .record q e.2)
      left := r.left ++ tagged q (met .leave)
      dropped := r.dropped ++ tagged q (met .drop) } := by
  have htagged : ∀ {f : Fate}, ∀ e ∈ tagged q (met f), (e.1, .record e.2.1 e.2.2) ∈ stamped ∧
      e.1 < r.cut ∧ (rule e.2.1).fate (r.holding e.1) e.2.2 = f := by
    intro f e he
    obtain ⟨rfl, hmem⟩ := mem_tagged.1 he
    exact hmet f _ hmem
  refine ⟨fun e he => ?_, fun e he => ?_, fun e he => ?_, fun e he => ?_⟩
  · rcases List.mem_append.1 he with hold | hnew
    · exact h.handed e hold
    · obtain ⟨x, hx, rfl⟩ := List.mem_map.1 hnew
      obtain ⟨hstamped, hlt, -⟩ := hmet .take x hx
      exact ⟨hstamped, hlt⟩
  · rw [recordsOf_append, recordsOf_records, List.mem_append] at he
    rcases he with hold | hnew
    · exact h.taken e hold
    · exact (htagged e hnew).2.2
  · rcases List.mem_append.1 he with hold | hnew
    · exact h.left e hold
    · exact (htagged e hnew).2
  · rcases List.mem_append.1 he with hold | hnew
    · exact h.dropped e hold
    · exact (htagged e hnew).2

/-- A queue holds nothing below the cut but what the read left. -/
def Swept (r : Read ι α β) (queues : ι → List (ℕ × Waiting α)) (q : ι) : Prop :=
  ∀ e ∈ queues q, e.1 < r.cut → (e.1, q, e.2) ∈ r.left

def After (r k : Read ι α β) : Prop := r.cut ≤ k.cut ∧ ∀ e ∈ k.gone, e.1 < r.cut → e ∈ r.left

end Read

def Waiting.HeldBy (w : Waiting α) (held : Holding) : Prop :=
  ∃ kind id, held kind id = true ∧ (w.owner = some (.order id) ∨ w.owner = some (.request id))

def Waiting.GivenUpOn (w : Waiting α) (held : Holding) : Prop :=
  ∃ id, w.owner = some (.request id) ∧ isAbandoned held id = true

namespace SessionRecords

/-! ## The invariant -/

structure InOrder (s : SessionRecords ι α β) : Prop where
  stamps : s.stamped.map Prod.fst = List.range s.counter
  sorted : ∀ q, (s.queues q).Pairwise fun a b => a.1 < b.1
  bulletins : (s.newsBulletins.map fun e => (e.1, (.bulletin e.2 : Given ι α β))).Sublist s.stamped

structure Finished (rule : ι → Keeping) (s : SessionRecords ι α β) (r : Read ι α β) : Prop where
  cut : r.cut ≤ s.counter
  fair : r.Fair rule s.stamped
  swept : ∀ q, r.Swept s.queues q
  ordered : r.out.Pairwise fun a b => a.1 < b.1

structure UnderWay (rule : ι → Keeping) (s : SessionRecords ι α β) (r : Read ι α β) : Prop where
  cut : r.cut ≤ s.counter
  fair : r.Fair rule s.stamped
  swept : ∀ q, some q ∉ r.plan → r.Swept s.queues q
  nodup : r.plan.Nodup
  unasked : none ∈ r.plan → bulletinStamps r.out = []
  once : (bulletinStamps r.out).Nodup
  after : ∀ k ∈ s.reads, k.After r

variable {rule : ι → Keeping} {s s' : SessionRecords ι α β}

lemma InOrder.nodup (h : s.InOrder) : (s.stamped.map Prod.fst).Nodup :=
  h.stamps ▸ List.nodup_range

lemma InOrder.lt_counter (h : s.InOrder) {e : ℕ × Given ι α β} (hmem : e ∈ s.stamped) :
    e.1 < s.counter :=
  List.mem_range.1 (h.stamps ▸ List.mem_map_of_mem hmem)

/-- Nothing comes into a queue but with a new stamp. -/
structure Later (s s' : SessionRecords ι α β) : Prop where
  counter : s.counter ≤ s'.counter
  stamped : s.stamped ⊆ s'.stamped
  queues : ∀ q, ∀ e ∈ s'.queues q, e ∈ s.queues q ∨ s.counter ≤ e.1

lemma Later.swept (h : s.Later s') {r : Read ι α β} (hcut : r.cut ≤ s.counter) {q : ι}
    (hswept : r.Swept s.queues q) : r.Swept s'.queues q := by
  intro e he hlt
  rcases h.queues q e he with hmem | hnew
  · exact hswept e hmem hlt
  · omega

lemma Finished.later {r : Read ι α β} (hr : s.Finished rule r) (h : s.Later s') :
    s'.Finished rule r :=
  { hr with
    cut := hr.cut.trans h.counter
    fair := hr.fair.mono h.stamped
    swept := fun q => h.swept hr.cut (hr.swept q) }

lemma UnderWay.later {r : Read ι α β} (hr : s.UnderWay rule r) (h : s.Later s')
    (hreads : s'.reads = s.reads) : s'.UnderWay rule r :=
  { hr with
    cut := hr.cut.trans h.counter
    fair := hr.fair.mono h.stamped
    swept := fun q hq => h.swept hr.cut (hr.swept q hq)
    after := hreads ▸ hr.after }

lemma exists_gone_of_mem_sum {l : List (Read ι α β)} {e : ℕ × ι × Waiting α}
    (h : e ∈ (l.map Read.gone).sum) : ∃ k ∈ l, e ∈ k.gone := by
  induction l with
  | nil => simp at h
  | cons r l ih =>
      rw [List.map_cons, List.sum_cons, Multiset.mem_add] at h
      rcases h with h | h
      · exact ⟨r, List.mem_cons_self, h⟩
      · obtain ⟨k, hk, hgone⟩ := ih h
        exact ⟨k, List.mem_cons_of_mem _ hk, hgone⟩

section

variable [Fintype ι]

def places (s : SessionRecords ι α β) : Multiset (ℕ × ι × Waiting α) :=
  inQueues s.queues + s.reading.elim 0 Read.gone + (s.reads.map Read.gone).sum + s.elsewhere

structure Sound (rule : ι → Keeping) (s : SessionRecords ι α β) : Prop where
  inOrder : s.InOrder
  placed : s.places = recordsOf s.stamped
  finished : ∀ r ∈ s.reads, s.Finished rule r
  after : s.reads.Pairwise Read.After
  underWay : ∀ r, s.reading = some r → s.UnderWay rule r

lemma Sound.stamped_of_waiting (h : s.Sound rule) {q : ι} {e : ℕ × Waiting α}
    (hmem : e ∈ s.queues q) : (e.1, .record q e.2) ∈ s.stamped := by
  have hplace : (e.1, q, e.2) ∈ s.places := by
    simp only [places, Multiset.mem_add]
    exact Or.inl (Or.inl (Or.inl (mem_inQueues hmem)))
  rw [h.placed] at hplace
  exact mem_recordsOf.1 hplace

lemma Sound.lt_counter (h : s.Sound rule) {q : ι} {e : ℕ × Waiting α} (hmem : e ∈ s.queues q) :
    e.1 < s.counter :=
  h.inOrder.lt_counter (h.stamped_of_waiting hmem)

lemma Sound.beside (h : s.Sound rule) (hlater : s.Later s') (horder : s'.InOrder)
    (hplaced : s'.places = recordsOf s'.stamped) (hreads : s'.reads = s.reads)
    (hreading : s'.reading = s.reading) : s'.Sound rule where
  inOrder := horder
  placed := hplaced
  finished r hr := (h.finished r (hreads ▸ hr)).later hlater
  after := hreads ▸ h.after
  underWay r hr := (h.underWay r (hreading ▸ hr)).later hlater hreads

/-! ## One event -/

lemma Sound.nodup_records (h : s.Sound rule) : s.places.Nodup := by
  rw [h.placed, Multiset.coe_nodup]
  exact (h.inOrder.nodup.sublist (stamps_recordsOf_sublist _)).of_map _

variable {r : Read ι α β}

lemma Sound.copied (h : s.Sound rule) (hr : s.reading = some r)
    {rest : List (Option ι)} (hrest : r.plan = none :: rest) (mark : ℕ) (l : List (ℕ × β))
    (hstamped : ∀ e ∈ l, (e.1, .bulletin e.2) ∈ s.stamped ∧ e.1 < r.cut)
    (hl : (l.map Prod.fst).Nodup) :
    Sound rule { s with
      bulletinMark := mark
      reading := some { r with
        plan := rest
        out := r.out ++ l.map fun e => (e.1, .bulletin e.2) } } := by
  have hway := h.underWay r hr
  obtain ⟨hnone, hnodup⟩ := List.nodup_cons.1 (hrest ▸ hway.nodup)
  have hplaced := h.placed
  simp only [places, hr, Option.elim_some, Read.gone] at hplaced
  have hlater : s.Later { s with
      bulletinMark := mark
      reading := some { r with
        plan := rest
        out := r.out ++ l.map fun e => (e.1, .bulletin e.2) } } :=
    ⟨le_rfl, fun _ => id, fun _ _ => Or.inl⟩
  refine ⟨⟨h.inOrder.stamps, h.inOrder.sorted, h.inOrder.bulletins⟩, ?_,
    fun k hk => (h.finished k hk).later hlater, h.after, fun r' hr' => ?_⟩
  · simpa [places, Read.gone] using hplaced
  · obtain rfl := Option.some.inj hr'
    refine
      { cut := hway.cut
        fair := ⟨fun e he => ?_, by simpa using hway.fair.taken, hway.fair.left,
          hway.fair.dropped⟩
        swept := fun p hp => hway.swept p fun hplan => ?_
        nodup := hnodup
        unasked := fun hmore => absurd hmore hnone
        once := ?_
        after := fun k hk => ⟨(hway.after k hk).1, fun e he => (hway.after k hk).2 e ?_⟩ }
    · rcases List.mem_append.1 he with hold | hnew
      · exact hway.fair.handed e hold
      · obtain ⟨b, hb, rfl⟩ := List.mem_map.1 hnew
        exact hstamped b hb
    · rw [hrest] at hplan
      exact hp ((List.mem_cons.1 hplan).resolve_left (by simp))
    · rw [bulletinStamps_append, bulletinStamps_bulletins,
        hway.unasked (hrest ▸ List.mem_cons_self), List.nil_append]
      exact hl
    · simpa [Read.gone] using he

lemma Sound.copyBulletins (h : s.Sound rule) (hr : s.reading = some r)
    {rest : List (Option ι)} (hrest : r.plan = none :: rest) :
    (s.copyBulletins { r with plan := rest }).Sound rule := by
  unfold SessionRecords.copyBulletins
  split_ifs with hasked
  · refine h.copied hr hrest r.cut _ (fun e he => ?_) ?_
    · obtain ⟨hkept, hmark⟩ := List.mem_filter.1 he
      exact ⟨h.inOrder.bulletins.subset (List.mem_map.2 ⟨e, hkept, rfl⟩), (of_decide_eq_true hmark).2⟩
    · have hsub := h.inOrder.bulletins.map Prod.fst
      rw [List.map_map] at hsub
      exact (h.inOrder.nodup.sublist hsub).sublist (List.filter_sublist.map _)
  · simpa using h.copied hr hrest s.bulletinMark [] (by simp) (by simp)

lemma Sound.close (h : s.Sound rule) (hr : s.reading = some r)
    (hplan : r.plan = []) :
    Sound rule { s with reading := none, reads := s.reads ++ [r.close] } := by
  have hway := h.underWay r hr
  have hperm : r.close.out.Perm r.out := List.perm_insertionSort _ _
  have hgone : r.close.gone = r.gone := by
    rw [Read.gone, Read.gone, recordsOf, recordsOf, Multiset.coe_eq_coe.2 (hperm.filterMap _)]
    rfl
  have hrecords : ∀ e, e ∈ recordsOf r.close.out ↔ e ∈ recordsOf r.out :=
    fun e => (hperm.filterMap _).mem_iff
  have hlater : s.Later { s with reading := none, reads := s.reads ++ [r.close] } :=
    ⟨le_rfl, fun _ => id, fun _ _ => Or.inl⟩
  have hplaced := h.placed
  simp only [places, hr, Option.elim_some] at hplaced
  have hnodup : r.out.Nodup := by
    refine nodup_of_parts ?_ hway.once
    have hle : (recordsOf r.out : Multiset (ℕ × ι × Waiting α)) ≤ s.places := by
      rw [h.placed, ← hplaced]
      exact (Multiset.le_add_right _ _).trans ((Multiset.le_add_left _ _).trans
        ((Multiset.le_add_right _ _).trans (Multiset.le_add_right _ _)))
    exact Multiset.coe_nodup.1 (Multiset.nodup_of_le hle h.nodup_records)
  -- nothing is handed out twice, so what is sorted by the stamps is strictly so
  have hordered : r.close.out.Pairwise fun a b => a.1 < b.1 := by
    have hapart : r.close.out.Pairwise fun a b => a.1 ≠ b.1 := by
      refine List.pairwise_map.1 (List.Nodup.map_on (fun a ha b hb heq => ?_) (hperm.nodup_iff.2 hnodup))
      exact List.inj_on_of_nodup_map h.inOrder.nodup (hway.fair.handed a (hperm.mem_iff.1 ha)).1
        (hway.fair.handed b (hperm.mem_iff.1 hb)).1 heq
    have hsorted : r.close.out.Pairwise fun a b => a.1 ≤ b.1 := List.pairwise_insertionSort _ _
    exact hsorted.imp₂ (fun _ _ hle hne => lt_of_le_of_ne hle hne) hapart
  refine ⟨⟨h.inOrder.stamps, h.inOrder.sorted, h.inOrder.bulletins⟩, ?_, fun k hk => ?_, ?_,
    by simp⟩
  · simp only [places, Option.elim_none, List.map_append, List.sum_append, List.map_cons,
      List.map_nil, List.sum_singleton, hgone, ← hplaced]
    ac_rfl
  · rcases List.mem_append.1 hk with hk | hk
    · exact (h.finished k hk).later hlater
    · obtain rfl := List.mem_singleton.1 hk
      exact
        { cut := hway.cut
          fair := ⟨fun e he => hway.fair.handed e (hperm.mem_iff.1 he),
            fun e he => hway.fair.taken e ((hrecords e).1 he), hway.fair.left, hway.fair.dropped⟩
          swept := fun q => hway.swept q (by simp [hplan])
          ordered := hordered }
  · refine List.pairwise_append.2 ⟨h.after, List.pairwise_singleton _ _, fun k hk r' hr' => ?_⟩
    obtain rfl := List.mem_singleton.1 hr'
    exact ⟨(hway.after k hk).1, fun e he => (hway.after k hk).2 e (hgone ▸ he)⟩

section

variable [DecidableEq ι] {plan : List (Option ι)}

lemma Sound.push (h : s.Sound rule) (q : ι) (w : Waiting α) :
    (s.step rule plan (.push q w)).Sound rule := by
  refine h.beside ⟨Nat.le_succ _, List.subset_append_left _ _, fun p e he => ?_⟩
    ⟨?_, fun p => ?_, ?_⟩ ?_ rfl rfl
  · by_cases hp : p = q
    · subst hp
      simp only [step, Function.update_self, List.mem_append, List.mem_singleton] at he
      exact he.imp id fun hnew => (congrArg Prod.fst hnew).ge
    · simp only [step, Function.update_of_ne hp] at he
      exact Or.inl he
  · simp [step, h.inOrder.stamps, List.range_succ]
  · by_cases hp : p = q
    · subst hp
      simp only [step, Function.update_self, List.pairwise_append]
      refine ⟨h.inOrder.sorted p, List.pairwise_singleton _ _, fun a ha b hb => ?_⟩
      obtain rfl := List.mem_singleton.1 hb
      exact h.lt_counter ha
    · simpa [step, Function.update_of_ne hp] using h.inOrder.sorted p
  · exact h.inOrder.bulletins.trans (List.sublist_append_left _ _)
  · have hone : inQueues (Function.update s.queues q (s.queues q ++ [(s.counter, w)]))
        = inQueues s.queues + ([(s.counter, q, w)] : List _) := by
      have := inQueues_update s.queues q (s.queues q ++ [(s.counter, w)])
      rw [tagged, tagged, List.map_append, ← Multiset.coe_add, ← add_assoc] at this
      rw [add_right_comm] at this
      exact add_right_cancel this
    have hplaced := h.placed
    simp only [places] at hplaced
    simp only [places, step, hone]
    rw [recordsOf_append, ← Multiset.coe_add, ← hplaced]
    simp only [recordsOf, List.filterMap_cons, List.filterMap_nil]
    ac_rfl

lemma Sound.pushBulletin (h : s.Sound rule) (b : β) :
    (s.step rule plan (.pushBulletin b)).Sound rule := by
  refine h.beside ⟨Nat.le_succ _, List.subset_append_left _ _, fun p e he => Or.inl he⟩
    ⟨?_, h.inOrder.sorted, ?_⟩ ?_ rfl rfl
  · simp [step, h.inOrder.stamps, List.range_succ]
  · simp only [step, List.map_append]
    refine List.Sublist.append ?_ (List.Sublist.refl _)
    split_ifs
    · exact ((List.tail_sublist _).map _).trans h.inOrder.bulletins
    · exact h.inOrder.bulletins
  · have hplaced := h.placed
    simp only [places] at hplaced
    simp [places, step, recordsOf, hplaced]

lemma Sound.takeIf (h : s.Sound rule) (q : ι) (mine : ℕ → Waiting α → Bool) :
    (s.step rule plan (.takeIf q mine)).Sound rule := by
  have hsub : ∀ p, ((s.step rule plan (.takeIf q mine)).queues p).Sublist (s.queues p) := by
    intro p
    by_cases hp : p = q
    · subst hp
      simp only [step, Function.update_self]
      exact List.filter_sublist
    · simp [step, Function.update_of_ne hp]
  refine h.beside ⟨le_rfl, fun _ => id, fun p e he => Or.inl ((hsub p).subset he)⟩
    ⟨h.inOrder.stamps, fun p => (h.inOrder.sorted p).sublist (hsub p), h.inOrder.bulletins⟩ ?_
    rfl rfl
  have hsplit : (tagged q (s.queues q) : Multiset (ℕ × ι × Waiting α))
      = (tagged q ((s.queues q).filter fun e => !mine e.1 e.2) : Multiset _)
        + (tagged q ((s.queues q).filter fun e => mine e.1 e.2) : Multiset _) := by
    rw [tagged, tagged, tagged, Multiset.coe_add, ← List.map_append]
    refine Multiset.coe_eq_coe.2 (List.Perm.map _ ?_)
    have := List.filter_append_perm (fun e : ℕ × Waiting α => mine e.1 e.2) (s.queues q)
    exact (List.perm_append_comm.trans this).symm
  have hstand := inQueues_update s.queues q ((s.queues q).filter fun e => !mine e.1 e.2)
  rw [hsplit, ← add_assoc, add_right_comm] at hstand
  have hplaced := h.placed
  simp only [places] at hplaced
  simp only [places, step]
  rw [← hplaced, ← add_right_cancel hstand, ← Multiset.coe_add]
  rw [show (((s.queues q).filter fun e => mine e.1 e.2).map fun e => (e.1, q, e.2))
    = tagged q ((s.queues q).filter fun e => mine e.1 e.2) from rfl]
  ac_rfl

lemma Sound.cut (h : s.Sound rule) (hplan : plan.Nodup) (hall : ∀ q, some q ∈ plan)
    (bulletins : Bool) (holding : ℕ → Holding) :
    (s.step rule plan (.cut bulletins holding)).Sound rule := by
  rcases hreading : s.reading with _ | r
  · have hstep : s.step rule plan (.cut bulletins holding)
        = { s with reading := some { cut := s.counter, bulletins, holding, plan } } := by
      simp [step, hreading]
    rw [hstep]
    have hplaced := h.placed
    simp only [places, hreading] at hplaced
    have hlater : s.Later { s with reading := some { cut := s.counter, bulletins, holding, plan } } :=
      ⟨le_rfl, fun _ => id, fun _ _ => Or.inl⟩
    refine ⟨⟨h.inOrder.stamps, h.inOrder.sorted, h.inOrder.bulletins⟩, ?_,
      fun r hr => (h.finished r hr).later hlater, h.after, fun r hr => ?_⟩
    · simpa [places, Read.gone, recordsOf] using hplaced
    · obtain rfl := Option.some.inj hr
      exact
        { cut := le_rfl
          fair := ⟨by simp, by simp, by simp, by simp⟩
          swept := fun q hq => absurd (hall q) hq
          nodup := hplan
          unasked := fun _ => rfl
          once := List.nodup_nil
          after := fun k hk => ⟨(h.finished k hk).cut, by simp [Read.gone, recordsOf]⟩ }
  · simpa [step, hreading] using h

lemma Sound.takeBelow (h : s.Sound rule) {r : Read ι α β} (hr : s.reading = some r) {q : ι}
    {rest : List (Option ι)} (hrest : r.plan = some q :: rest) :
    (s.takeBelow rule q { r with plan := rest }).Sound rule := by
  have hway := h.underWay r hr
  set fate : ℕ × Waiting α → Fate := fun e => (rule q).fate (r.holding e.1) e.2 with hfate
  have hkept : ∀ p, ((s.takeBelow rule q { r with plan := rest }).queues p).Sublist
      (s.queues p) := by
    intro p
    by_cases hp : p = q
    · subst hp
      simp only [SessionRecords.takeBelow, Function.update_self]
      exact Drain.kept_sublist
    · simp [SessionRecords.takeBelow, Function.update_of_ne hp]
  have hlater : s.Later (s.takeBelow rule q { r with plan := rest }) :=
    ⟨le_rfl, fun _ => id, fun p e he => Or.inl ((hkept p).subset he)⟩
  refine ⟨⟨h.inOrder.stamps, fun p => (h.inOrder.sorted p).sublist (hkept p),
    h.inOrder.bulletins⟩, ?_, fun k hk => (h.finished k hk).later hlater, h.after,
    fun r' hr' => ?_⟩
  · -- what is taken, dropped and kept is what stood in the queue
    have hsplit : (tagged q (Drain.picked r.cut fate (s.queues q) .take) : Multiset _)
        + (tagged q (Drain.picked r.cut fate (s.queues q) .drop) : Multiset _)
        + (tagged q (Drain.kept r.cut fate (s.queues q)) : Multiset _)
        = (tagged q (s.queues q) : Multiset (ℕ × ι × Waiting α)) := by
      have := congrArg (Multiset.map fun e : ℕ × Waiting α => (e.1, q, e.2))
        (@Drain.picked_add_kept _ r.cut fate (s.queues q))
      simp only [Multiset.map_add, Multiset.map_coe] at this
      exact this
    have hstand := inQueues_update s.queues q (Drain.kept r.cut fate (s.queues q))
    rw [← hsplit, ← add_assoc] at hstand
    have hplaced := h.placed
    simp only [places, hr, Option.elim_some, Read.gone] at hplaced
    simp only [places, SessionRecords.takeBelow, Option.elim_some, Read.gone, recordsOf_append,
      recordsOf_records, ← Multiset.coe_add]
    rw [← hplaced, ← add_right_cancel hstand]
    simp only [tagged]
    ac_rfl
  · obtain rfl := Option.some.inj hr'
    have hmem : ∀ {o : Option ι}, o ∈ rest → o ∈ r.plan := fun ho =>
      hrest ▸ List.mem_cons_of_mem _ ho
    refine
      { cut := hway.cut
        fair := hway.fair.append rest fun f e he => ?_
        swept := fun p hp e he hlt => ?_
        nodup := (List.nodup_cons.1 (hrest ▸ hway.nodup)).2
        unasked := fun hnone => by simpa using hway.unasked (hmem hnone)
        once := by simpa using hway.once
        after := fun k hk => ⟨(hway.after k hk).1, fun e he hlt => ?_⟩ }
    · obtain ⟨hwaits, hcut, hmet⟩ := Drain.mem_picked he
      exact ⟨h.stamped_of_waiting hwaits, hcut, hmet⟩
    · by_cases hpq : p = q
      · subst hpq
        simp only [SessionRecords.takeBelow, Function.update_self] at he
        exact List.mem_append_right _
          (mem_tagged.2 ⟨rfl, Drain.mem_left_of_kept (h.inOrder.sorted p) he hlt⟩)
      · simp only [SessionRecords.takeBelow, Function.update_of_ne hpq] at he
        refine List.mem_append_left _ (hway.swept p (fun hplan => ?_) e he hlt)
        rw [hrest] at hplan
        rcases List.mem_cons.1 hplan with heq | hmore
        · exact hpq (Option.some.inj heq)
        · exact hp hmore
    · simp only [Read.gone, recordsOf_append, recordsOf_records, ← Multiset.coe_add,
        Multiset.mem_add, Multiset.mem_coe] at he
      have hnew : ∀ {f : Fate}, e ∈ tagged q (Drain.picked r.cut fate (s.queues q) f) →
          e ∈ k.left := by
        intro f hpick
        obtain ⟨rfl, hpick⟩ := mem_tagged.1 hpick
        exact (h.finished k hk).swept _ _ (Drain.mem_picked hpick).1 hlt
      have hold : e ∈ r.gone → e ∈ k.left := fun hgone => (hway.after k hk).2 e hgone hlt
      rcases he with (he | he) | (he | he)
      · exact hold (Multiset.mem_add.2 (Or.inl he))
      · exact hnew he
      · exact hold (Multiset.mem_add.2 (Or.inr he))
      · exact hnew he

/-- **Every event keeps the records accounted for, and the reads in order.** -/
theorem Sound.step (hplan : plan.Nodup) (hall : ∀ q, some q ∈ plan) (h : s.Sound rule)
    (e : RecordEvent ι α β) : (s.step rule plan e).Sound rule := by
  cases e with
  | push q w => exact h.push q w
  | pushBulletin b => exact h.pushBulletin b
  | armBulletins allMsgs =>
      exact h.beside ⟨le_rfl, fun _ => id, fun _ _ => Or.inl⟩
        ⟨h.inOrder.stamps, h.inOrder.sorted, h.inOrder.bulletins⟩ h.placed rfl rfl
  | cut bulletins holding => exact h.cut hplan hall bulletins holding
  | next =>
      rcases hr : s.reading with _ | r
      · simpa [SessionRecords.step, hr] using h
      · rcases hp : r.plan with _ | ⟨_ | q, rest⟩
        · simpa only [SessionRecords.step, hr, hp] using h.close hr hp
        · simpa only [SessionRecords.step, hr, hp] using h.copyBulletins hr hp
        · simpa only [SessionRecords.step, hr, hp] using h.takeBelow hr hp
  | takeIf q mine => exact h.takeIf q mine

omit [Fintype ι] in
/-- What stands in a queue keeps its stamps and its order, and only a push adds to it. -/
lemma queue_step (e : RecordEvent ι α β) (q : ι) :
    ((s.step rule plan e).queues q).Sublist (s.queues q) ∨
      ∃ w, e = .push q w ∧ (s.step rule plan e).queues q = s.queues q ++ [(s.counter, w)] := by
  cases e with
  | push p w =>
      by_cases hp : q = p
      · subst hp
        exact Or.inr ⟨w, rfl, by simp [SessionRecords.step]⟩
      · exact Or.inl (by simp [SessionRecords.step, Function.update_of_ne hp])
  | pushBulletin b => exact Or.inl (List.Sublist.refl _)
  | armBulletins allMsgs => exact Or.inl (List.Sublist.refl _)
  | cut bulletins holding =>
      rcases hr : s.reading with _ | r
      all_goals exact Or.inl (by simp [SessionRecords.step, hr])
  | next =>
      refine Or.inl ?_
      rcases hr : s.reading with _ | r
      · simp [SessionRecords.step, hr]
      · rcases hp : r.plan with _ | ⟨_ | p, rest⟩
        · simp [SessionRecords.step, hr, hp]
        · simp only [SessionRecords.step, hr, hp, SessionRecords.copyBulletins]
          split_ifs
          all_goals exact List.Sublist.refl _
        · simp only [SessionRecords.step, hr, hp, SessionRecords.takeBelow]
          by_cases hq : q = p
          · subst hq
            simp only [Function.update_self]
            exact Drain.kept_sublist
          · simp [Function.update_of_ne hq]
  | takeIf p mine =>
      refine Or.inl ?_
      by_cases hp : q = p
      · subst hp
        simp only [SessionRecords.step, Function.update_self]
        exact List.filter_sublist
      · simp [SessionRecords.step, Function.update_of_ne hp]

end

/-! ## Every run -/

omit [Fintype ι] in
lemma out_le_gone (l : List (Read ι α β)) :
    ((l.flatMap fun r => recordsOf r.out : List _) : Multiset (ℕ × ι × Waiting α))
      ≤ (l.map Read.gone).sum := by
  induction l with
  | nil => exact le_rfl
  | cons r l ih =>
      rw [List.flatMap_cons, List.map_cons, List.sum_cons, ← Multiset.coe_add]
      exact add_le_add (Multiset.le_add_right _ _) ih

lemma Sound.nodup_out (h : s.Sound rule) : (s.reads.flatMap fun r => recordsOf r.out).Nodup := by
  have hle : (s.reads.map Read.gone).sum ≤ s.places :=
    (Multiset.le_add_left _ _).trans (Multiset.le_add_right _ _)
  exact Multiset.coe_nodup.1 (Multiset.nodup_of_le ((out_le_gone _).trans hle) h.nodup_records)

lemma Sound.met (h : s.Sound rule) {before later : List (Read ι α β)}
    (hreads : s.reads = before ++ r :: later) {e : ℕ × ι × Waiting α}
    (he : e ∈ recordsOf s.stamped) (hlt : e.1 < r.cut) :
    e ∈ r.left ∨ (∃ k ∈ before ++ [r], e ∈ recordsOf k.out ∨ e ∈ k.dropped) ∨
      e ∈ s.elsewhere := by
  have hr : r ∈ s.reads := by simp [hreads]
  have hplace : e ∈ s.places := h.placed ▸ Multiset.mem_coe.2 he
  simp only [places, Multiset.mem_add, Multiset.mem_coe] at hplace
  rcases hplace with ((hstands | hreading) | hread) | helse
  · obtain ⟨q, -, hq⟩ := Multiset.mem_sum.1 hstands
    obtain ⟨rfl, hmem⟩ := mem_tagged.1 (Multiset.mem_coe.1 hq)
    exact Or.inl ((h.finished r hr).swept _ _ hmem hlt)
  · rcases hk : s.reading with _ | k
    · simp [hk] at hreading
    · rw [hk] at hreading
      exact Or.inl (((h.underWay k hk).after r hr).2 e hreading hlt)
  · obtain ⟨k, hk, hgone⟩ := exists_gone_of_mem_sum hread
    have hout : e ∈ recordsOf k.out ∨ e ∈ k.dropped := by simpa [Read.gone] using hgone
    rw [hreads] at hk
    have hafter := (List.pairwise_append.1 (hreads ▸ h.after)).2.1
    rcases List.mem_append.1 hk with hbefore | hk
    · exact Or.inr (Or.inl ⟨k, List.mem_append_left _ hbefore, hout⟩)
    · rcases List.mem_cons.1 hk with rfl | hlater
      · exact Or.inr (Or.inl ⟨k, List.mem_append_right _ (List.mem_singleton_self _), hout⟩)
      · exact Or.inl (((List.pairwise_cons.1 hafter).1 k hlater).2 e hgone hlt)
  · exact Or.inr (Or.inr helse)

end

lemma sound_start [Fintype ι] (rule : ι → Keeping) :
    ({} : SessionRecords ι α β).Sound rule where
  inOrder := ⟨rfl, fun _ => .nil, List.Sublist.refl _⟩
  placed := by simp [places, inQueues, tagged, recordsOf]
  finished := by simp
  after := .nil
  underWay := by simp

/-- **A reader sees the session's records in one order, each once.**  Over every run of pushes and
reads, each read hands out in the order of the stamps; a record is in one place, left only where a
reader holds its number and dropped only where its question was given up on; a read misses none
below its cut, and one behind it takes of these only what it left; and what waits keeps its stamp
and its place. -/
theorem records_in_one_order [Fintype ι] [DecidableEq ι] (rule : ι → Keeping)
    (plan : List (Option ι)) (hplan : plan.Nodup) (hall : ∀ q, some q ∈ plan)
    (es : List (RecordEvent ι α β)) (s : SessionRecords ι α β)
    (hs : Runs.run (step rule plan) {} es = s) :
    (∀ r ∈ s.reads, r.out.Pairwise fun a b => a.1 < b.1) ∧
    (s.places = recordsOf s.stamped ∧ (s.stamped.map Prod.fst).Nodup ∧
      (s.reads.flatMap fun r => recordsOf r.out).Nodup) ∧
    (∀ r ∈ s.reads, (∀ e ∈ r.left, e.2.2.HeldBy (r.holding e.1)) ∧
      ∀ e ∈ r.dropped, e.2.2.GivenUpOn (r.holding e.1)) ∧
    (∀ before r later, s.reads = before ++ r :: later → ∀ e ∈ recordsOf s.stamped, e.1 < r.cut →
      e ∈ r.left ∨ (∃ k ∈ before ++ [r], e ∈ recordsOf k.out ∨ e ∈ k.dropped) ∨
        e ∈ s.elsewhere) ∧
    s.reads.Pairwise Read.After ∧
    ∀ e q, ((s.step rule plan e).queues q).Sublist (s.queues q) ∨
      ∃ w, e = .push q w ∧ (s.step rule plan e).queues q = s.queues q ++ [(s.counter, w)] := by
  have h : s.Sound rule := by
    rw [← hs]
    exact Runs.Along.invariant (fun _ e h _ => h.step hplan hall e) (sound_start rule)
      (Runs.Along.of_forall (P := fun _ _ => True) (fun _ _ => trivial) _ es)
  refine ⟨fun r hr => (h.finished r hr).ordered, ⟨h.placed, h.inOrder.nodup, h.nodup_out⟩,
    fun r hr => ⟨fun e he => Keeping.held_of_leave ((h.finished r hr).fair.left e he).2,
      fun e he => Keeping.abandoned_of_drop ((h.finished r hr).fair.dropped e he).2⟩,
    fun _ _ _ hreads _ he hlt => h.met hreads he hlt, h.after, fun e q => queue_step e q⟩

/-- A record nobody holds, in the band of the calls that answer. -/
def givenUp : Waiting Unit := ⟨some (.request askIdBase), false, ()⟩

def givenUpRun : List (RecordEvent QueueName Unit Unit) :=
  [.push .historicalData givenUp, .cut false fun _ _ _ => false]
    ++ List.replicate (takenFrom.length + 1) .next

theorem not_records_in_one_order :
    let s := Runs.run (step QueueName.keeping takenFrom) {} givenUpRun
    s.stamped = [(0, .record .historicalData givenUp)] ∧ s.reads.map (fun r => r.cut) = [1] ∧
    s.reads.all (fun r => !heldUnderAnyKind (r.holding 0) askIdBase) = true ∧
    s.reads.flatMap (fun r => recordsOf r.out) = [] ∧ s.queues .historicalData = [] := by
  decide

def readsBetween : List (RecordEvent QueueName Unit Unit) :=
  [.armBulletins true, .push .fills ⟨none, false, ()⟩, .pushBulletin (), .cut true fun _ _ _ => false]
    ++ List.replicate 10 .next ++ [.push .fills ⟨none, false, ()⟩]
    ++ List.replicate (takenFrom.length + 1) .next ++ [.cut true fun _ _ _ => false]
    ++ List.replicate (takenFrom.length + 1) .next

theorem records_in_one_order_between :
    let s := Runs.run (step QueueName.keeping takenFrom) {} readsBetween
    s.reads.map (fun r => (r.cut, r.out.map Prod.fst)) = [(2, [0, 1]), (3, [2])] ∧
    ∀ r ∈ s.reads, r.out.Pairwise fun a b => a.1 < b.1 := by
  exact ⟨by decide +kernel, (records_in_one_order QueueName.keeping takenFrom nodup_takenFrom
    mem_takenFrom readsBetween _ rfl).1⟩

end SessionRecords

end IbkrDx
