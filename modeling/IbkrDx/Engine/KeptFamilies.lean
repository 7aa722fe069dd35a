import Mathlib.Data.List.Nodup
import Mathlib.Data.List.Perm.Basic
import Mathlib.Data.List.Infix
import Mathlib.Data.List.TakeWhile
import IbkrDx.Lib.Runs

/-!
# Orders kept for a later transmit

An order placed without the transmit flag is built and kept, `Intake::keep` of
`engine/hot_loop/intake.rs`, until an order that transmits releases it with its family,
`transmit_order_family`: the parent the order names, what shares that parent, and what hangs from
the order itself.

* **`families_released`** — every order kept leaves once, behind the parent it names, with its last
  terms.

An order's number at the venue is the one it was placed under.  Whether the session placed an order
under a number, or the venue works one, is said by each placement.
-/

namespace IbkrDx

/-! ## The intake -/

inductive OrderCommand (Terms : Type) where
  | submit (terms : Terms)
  | modify (terms : Terms)
  deriving DecidableEq

def OrderCommand.terms {Terms : Type} : OrderCommand Terms → Terms
  | submit terms => terms
  | modify terms => terms

/-- An order built and not sent, waiting for one that transmits. -/
structure KeptOrder (Terms : Type) where
  orderId : ℕ
  parentId : ℤ
  command : OrderCommand Terms
  deriving DecidableEq

/-- What the engine holds back, and the numbers it has sent placements under. -/
structure Intake (Terms : Type) where
  kept : List (KeptOrder Terms) := []
  sentApiIds : List ℕ := []

/-- A placement: its number, the one it hangs from, its terms, whether it goes now, and whether the
session placed or the venue works an order under the number. -/
structure StatedOrder (Terms : Type) where
  orderId : ℕ
  parentId : ℤ
  terms : Terms
  transmit : Bool
  worked : Bool

/-- What leaves the intake: sent, withdrawn, or forgotten where an order has gone under the number
already. -/
structure Leaving (Terms : Type) where
  queued : List (KeptOrder Terms) := []
  withdrawn : List (KeptOrder Terms) := []
  forgotten : List (KeptOrder Terms) := []

section

variable {Terms : Type}

/-- Whether what is kept would place the order, rather than revise one the venue works. -/
def KeptOrder.placesTheOrder (k : KeptOrder Terms) : Bool :=
  match k.command with
  | .submit _ => true
  | .modify _ => false

namespace Intake

/-- Whether what is kept under this number would place the order. -/
def keepsAPlacement (s : Intake Terms) (orderId : ℕ) : Bool :=
  s.kept.any fun k => k.orderId = orderId && k.placesTheOrder

/-- Keep an order back: where one is kept under its number it is restated in its place. -/
def keep (k : KeptOrder Terms) : List (KeptOrder Terms) → List (KeptOrder Terms)
  | [] => [k]
  | held :: kept => if held.orderId = k.orderId then k :: kept else held :: keep k kept

def release (orderId : ℕ) (kept : List (KeptOrder Terms)) :
    Option (KeptOrder Terms) × List (KeptOrder Terms) :=
  (kept.find? (·.orderId = orderId), kept.eraseP (·.orderId = orderId))

def releaseParent (parentId : ℤ) (kept : List (KeptOrder Terms)) :
    Option (KeptOrder Terms) × List (KeptOrder Terms) :=
  if 0 < parentId then release parentId.toNat kept else (none, kept)

def inFamily (orderId : ℕ) (parentId : ℤ) (k : KeptOrder Terms) : Bool :=
  k.orderId ≠ orderId ∧ ((parentId ≠ 0 ∧ k.parentId = parentId) ∨ k.parentId = orderId)

/-- The family an order that transmits releases: its parent where that is kept, then what shares
the parent or hangs from it. -/
def familyOf (orderId : ℕ) (parentId : ℤ) (kept : List (KeptOrder Terms)) :
    List (KeptOrder Terms) × List (KeptOrder Terms) :=
  ((releaseParent parentId kept).1.toList
      ++ (releaseParent parentId kept).2.filter (inFamily orderId parentId),
    (releaseParent parentId kept).2.filter fun k => !inFamily orderId parentId k)

/-- The order that transmits takes its place in its family: in front of the first member that was
not kept before it. -/
def joined (before : List ℕ) (own : KeptOrder Terms) (family : List (KeptOrder Terms)) :
    List (KeptOrder Terms) :=
  family.insertIdx (family.findIdx (·.orderId ∉ before)) own

/-- The members that go, and those that do not: one placement goes under a number. -/
def retained (orderId : ℕ) (sent : List ℕ) :
    List ℕ → List (KeptOrder Terms) → List (KeptOrder Terms) × List (KeptOrder Terms)
  | _, [] => ([], [])
  | ids, member :: family =>
      if member.placesTheOrder then
        let rest := retained orderId sent (member.orderId :: ids) family
        if member.orderId ∉ ids ∧ (member.orderId = orderId ∨ member.orderId ∉ sent) then
          (member :: rest.1, rest.2)
        else (rest.1, member :: rest.2)
      else
        let rest := retained orderId sent ids family
        (member :: rest.1, rest.2)

def goingWith (orderId : ℕ) (parentId : ℤ) (replacing : Bool) (kept : List (KeptOrder Terms)) :
    List (KeptOrder Terms) × List (KeptOrder Terms) :=
  if replacing then ([], kept) else familyOf orderId parentId kept

def keptBefore (orderId : ℕ) (kept : List (KeptOrder Terms)) : List ℕ :=
  (kept.takeWhile (·.orderId ≠ orderId)).map KeptOrder.orderId

def transmitOrderFamily (s : Intake Terms) (orderId : ℕ) (parentId : ℤ) (replacing : Bool) :
    Intake Terms × Leaving Terms :=
  match (release orderId s.kept).1 with
  | none => (s, {})
  | some own =>
      let going := goingWith orderId parentId replacing (release orderId s.kept).2
      let sorted := retained orderId s.sentApiIds []
        (joined (keptBefore orderId s.kept) own going.1)
      ({ kept := going.2
         sentApiIds := (sorted.1.filter KeptOrder.placesTheOrder).map KeptOrder.orderId
          ++ s.sentApiIds.filter (· ∉ sorted.2.map KeptOrder.orderId) },
        { queued := sorted.1, forgotten := sorted.2 })

/-- An order as it is kept: a replace, where the number is worked and no placement kept under it. -/
def asKept (s : Intake Terms) (order : StatedOrder Terms) : KeptOrder Terms where
  orderId := order.orderId
  parentId := order.parentId
  command := if order.worked && !s.keepsAPlacement order.orderId then .modify order.terms
    else .submit order.terms

/-- Keep an order, and release its family where it transmits. -/
def takePlacement (s : Intake Terms) (order : StatedOrder Terms) : Intake Terms × Leaving Terms :=
  let kept := { s with kept := keep (s.asKept order) s.kept }
  if order.transmit then
    kept.transmitOrderFamily order.orderId order.parentId
      (order.worked && !s.keepsAPlacement order.orderId)
  else (kept, {})

def releaseAll : List ℕ → List (KeptOrder Terms) → List (KeptOrder Terms) × List (KeptOrder Terms)
  | [], kept => ([], kept)
  | n :: ns, kept =>
      ((release n kept).1.toList ++ (releaseAll ns (release n kept).2).1,
        (releaseAll ns (release n kept).2).2)

def childrenOf (parent : ℕ) (kept : List (KeptOrder Terms)) : List ℕ :=
  (kept.filter fun k => k.parentId = (parent : ℤ) && k.placesTheOrder).map KeptOrder.orderId

lemma length_release (n : ℕ) (kept : List (KeptOrder Terms)) :
    (release n kept).1.toList.length + (release n kept).2.length = kept.length := by
  rw [release]
  cases hfound : kept.find? (·.orderId = n) with
  | none =>
      have hnone := List.find?_eq_none.1 hfound
      rw [List.eraseP_of_forall_not hnone]
      exact Nat.zero_add _
  | some k =>
      rw [List.length_eraseP_of_mem (List.mem_of_find?_eq_some hfound)
        (List.find?_some (p := fun k : KeptOrder Terms => decide (k.orderId = n)) hfound)]
      have := List.length_pos_of_mem (List.mem_of_find?_eq_some hfound)
      exact Nat.add_sub_cancel' this

lemma length_releaseAll : ∀ (ns : List ℕ) (kept : List (KeptOrder Terms)),
    (releaseAll ns kept).1.length + (releaseAll ns kept).2.length = kept.length
  | [], kept => Nat.zero_add _
  | n :: ns, kept => by
      rw [releaseAll, List.length_append, Nat.add_assoc, length_releaseAll ns, length_release]

def withdrawing (going kept : List (KeptOrder Terms)) :
    List (KeptOrder Terms) × List (KeptOrder Terms) :=
  match going with
  | [] => ([], kept)
  | k :: going =>
      let out := releaseAll (childrenOf k.orderId kept) kept
      let rest := withdrawing (out.1.reverse ++ going) out.2
      (k :: rest.1, rest.2)
termination_by going.length + kept.length
decreasing_by
  have := length_releaseAll (childrenOf k.orderId kept) kept
  rw [List.length_append, List.length_reverse, List.length_cons]
  omega

/-- Forget a placement that was kept and never sent, with what hangs from it.  A revision kept
under the number goes too, and the order it revises stays. -/
def withdrawKeptPlacement (s : Intake Terms) (orderId : ℕ) : Intake Terms × Leaving Terms :=
  match (release orderId s.kept).1 with
  | none => (s, {})
  | some k =>
      if s.keepsAPlacement orderId then
        let out := withdrawing [k] (release orderId s.kept).2
        ({ kept := out.2
           sentApiIds := s.sentApiIds.filter (· ∉ out.1.map KeptOrder.orderId) },
          { withdrawn := out.1 })
      else ({ s with kept := (release orderId s.kept).2 }, { withdrawn := [k] })

def withdrawEverythingHeld (s : Intake Terms) : Intake Terms × Leaving Terms :=
  ({ kept := []
     sentApiIds := s.sentApiIds.filter
      (· ∉ (s.kept.filter KeptOrder.placesTheOrder).map KeptOrder.orderId) },
    { withdrawn := s.kept })

/-- The venue has finished orders: a revision of one has nothing to revise. -/
def dropFinished (s : Intake Terms) (finished : ℕ → Bool) : Intake Terms × Leaving Terms :=
  ({ s with kept := s.kept.filter fun k => k.placesTheOrder || !finished k.orderId },
    { withdrawn := s.kept.filter fun k => !(k.placesTheOrder || !finished k.orderId) })

end Intake

inductive IntakeEvent (Terms : Type) where
  | placed (order : StatedOrder Terms)
  | cancelled (orderId : ℕ)
  | allCancelled
  | finished (numbers : ℕ → Bool)
  /-- An order under a number is discarded before it was sent, past the intake. -/
  | discarded (orderId : ℕ)

def Intake.take (s : Intake Terms) : IntakeEvent Terms → Intake Terms × Leaving Terms
  | .placed order => s.takePlacement order
  | .cancelled orderId => s.withdrawKeptPlacement orderId
  | .allCancelled => s.withdrawEverythingHeld
  | .finished numbers => s.dropFinished numbers
  | .discarded orderId => ({ s with sentApiIds := s.sentApiIds.filter (· ≠ orderId) }, {})

/-! ## The ledger -/

/-- The intake beside what a reader of the placements would note: when each order kept was first
kept, how its number was last stated, and which orders kept have left. -/
structure Families (Terms : Type) where
  intake : Intake Terms := {}
  since : ℕ → ℕ := fun _ => 0
  stated : ℕ → Option (ℤ × Terms) := fun _ => none
  begun : ℕ := 0
  gone : List ℕ := []

namespace Families

def note (w : Families Terms) (order : StatedOrder Terms) : Families Terms :=
  let fresh := order.orderId ∉ w.intake.kept.map KeptOrder.orderId
  { w with
    since := if fresh then Function.update w.since order.orderId w.begun else w.since
    stated := Function.update w.stated order.orderId (some (order.parentId, order.terms))
    begun := if fresh then w.begun + 1 else w.begun }

def noted (w : Families Terms) : IntakeEvent Terms → Families Terms
  | .placed order => w.note order
  | _ => w

def leaving (w : Families Terms) (e : IntakeEvent Terms) : Leaving Terms := (w.intake.take e).2

def step (w : Families Terms) (e : IntakeEvent Terms) : Families Terms :=
  { w.noted e with
    intake := (w.intake.take e).1
    gone := w.gone ++ ((w.leaving e).queued ++ (w.leaving e).withdrawn
      ++ (w.leaving e).forgotten).map fun k => (w.noted e).since k.orderId }

/-- Every order kept yet is either still kept or has left once. -/
def KeptOnce (w : Families Terms) : Prop :=
  (w.gone ++ w.intake.kept.map fun k => w.since k.orderId).Perm (List.range w.begun)

end Families

/-! ## What is asked -/

def KeptOrder.Names (k : KeptOrder Terms) (n : ℕ) : Prop := 0 < k.parentId ∧ k.parentId = n

def StatedOrder.NamesIt (order : StatedOrder Terms) (k : KeptOrder Terms) : Prop :=
  (0 < order.parentId ∧ order.parentId = k.orderId) ∧ k.orderId ≠ order.orderId

/-- A kept order of the family one that transmits releases: the parent it names, what shares that
parent, and what hangs from it. -/
def StatedOrder.Releases (order : StatedOrder Terms) (k : KeptOrder Terms) : Prop :=
  k.orderId ≠ order.orderId ∧
    (order.NamesIt k ∨ (order.parentId ≠ 0 ∧ k.parentId = order.parentId) ∨
      k.parentId = order.orderId)

/-- **What is asked of a placement.** -/
structure ReleasedInOrder (w : Families Terms) (order : StatedOrder Terms) : Prop where
  held : order.transmit = false → (w.leaving (.placed order)).queued = []
  /-- The order that transmits is sent, as it is stated. -/
  own : order.transmit = true → w.intake.asKept order ∈ (w.leaving (.placed order)).queued
  /-- Its family is sent with it, or forgotten where an order has gone under the number; the
  revision of a worked order goes alone. -/
  family : order.transmit = true →
    (order.worked = true → w.intake.keepsAPlacement order.orderId = true) →
    ∀ k ∈ w.intake.kept, order.Releases k →
      k ∈ (w.leaving (.placed order)).queued ++ (w.leaving (.placed order)).forgotten
  /-- No placement sent names an order left kept, but the parent that went with the order. -/
  parents : ∀ k ∈ (w.leaving (.placed order)).queued, k.placesTheOrder → ¬ order.NamesIt k →
    ∀ left ∈ (w.step (.placed order)).intake.kept, ¬ k.Names left.orderId
  /-- An order stands after the parent it names, but the parent that went with the order, and but
  where the order or one it is the parent of was kept before its own parent. -/
  after : (w.leaving (.placed order)).queued.Pairwise fun a b => a.Names b.orderId →
    order.NamesIt a ∨ ((a.orderId = order.orderId ∨ b.orderId = order.orderId) ∧
      (w.note order).since a.orderId < (w.note order).since b.orderId)
  /-- The others stand in the order they were first kept, where the parent was kept before. -/
  sorted : (∀ k ∈ w.intake.kept, order.NamesIt k →
      (w.note order).since k.orderId < (w.note order).since order.orderId) →
    (w.leaving (.placed order)).queued.Pairwise fun a b => order.NamesIt a ∨
      (¬ order.NamesIt b ∧ (w.note order).since a.orderId < (w.note order).since b.orderId)
  forgotten : ∀ k ∈ (w.leaving (.placed order)).forgotten,
    k.orderId ∈ w.intake.sentApiIds ∧ k.orderId ≠ order.orderId
  /-- What is sent was last stated as it is sent. -/
  terms : ∀ k ∈ (w.leaving (.placed order)).queued,
    (w.note order).stated k.orderId = some (k.parentId, k.command.terms)
  others : ∀ k ∈ w.intake.kept, k.orderId ≠ order.orderId → ¬ order.NamesIt k →
    (order.parentId = 0 ∨ k.parentId ≠ order.parentId) → k.parentId ≠ order.orderId →
    k ∈ (w.step (.placed order)).intake.kept

/-! ## What is kept, in order -/

def stamps (since : ℕ → ℕ) (kept : List (KeptOrder Terms)) : List ℕ :=
  kept.map fun k => since k.orderId

/-- The orders kept stand in the order they were first kept, each as it was last stated, and every
order kept yet is either one of them or has left once. -/
structure Ledger (since : ℕ → ℕ) (stated : ℕ → Option (ℤ × Terms)) (begun : ℕ) (gone : List ℕ)
    (kept : List (KeptOrder Terms)) : Prop where
  sorted : (stamps since kept).Pairwise (· < ·)
  stated : ∀ k ∈ kept, stated k.orderId = some (k.parentId, k.command.terms)
  once : (gone ++ stamps since kept).Perm (List.range begun)

namespace Ledger

variable {since : ℕ → ℕ} {stated : ℕ → Option (ℤ × Terms)} {begun : ℕ} {gone : List ℕ}
  {kept : List (KeptOrder Terms)}

lemma pairwise (h : Ledger since stated begun gone kept) :
    kept.Pairwise fun a b => since a.orderId < since b.orderId :=
  List.pairwise_map.1 h.sorted

lemma unique (h : Ledger since stated begun gone kept) :
    kept.Pairwise fun a b => a.orderId ≠ b.orderId :=
  h.pairwise.imp fun hlt heq => absurd (heq ▸ hlt) (lt_irrefl _)

lemma lt_of_not_lt (h : Ledger since stated begun gone kept) {a b : KeptOrder Terms} (ha : a ∈ kept)
    (hb : b ∈ kept) (hne : a.orderId ≠ b.orderId) (hlt : ¬ since a.orderId < since b.orderId) :
    since b.orderId < since a.orderId := by
  refine lt_of_le_of_ne (not_lt.1 hlt) fun heq => hne ?_
  have hnodup : (stamps since kept).Nodup := h.sorted.imp fun hlt => hlt.ne
  rw [List.inj_on_of_nodup_map hnodup ha hb heq.symm]

lemma earlier (h : Ledger since stated begun gone kept) {n : ℕ} (hn : n ∈ stamps since kept) :
    n < begun :=
  List.mem_range.1 (h.once.subset (List.mem_append_right _ hn))

lemma leave (h : Ledger since stated begun gone kept) {out rest : List (KeptOrder Terms)}
    (hsub : rest.Sublist kept) (hperm : kept.Perm (out ++ rest)) :
    Ledger since stated begun (gone ++ stamps since out) rest where
  sorted := h.sorted.sublist (hsub.map _)
  stated := fun k hk => h.stated k (hsub.subset hk)
  once := by
    rw [List.append_assoc, stamps, stamps, ← List.map_append]
    exact ((hperm.symm.map _).append_left gone).trans h.once

end Ledger

namespace Intake

lemma mem_keep_self (k : KeptOrder Terms) (kept : List (KeptOrder Terms)) : k ∈ keep k kept := by
  induction kept with
  | nil => exact List.mem_singleton_self k
  | cons held kept ih =>
      rw [keep]
      split_ifs
      · exact List.mem_cons_self
      · exact List.mem_cons_of_mem _ ih

lemma mem_keep_of_ne {k other : KeptOrder Terms} {kept : List (KeptOrder Terms)}
    (h : other ∈ kept) (hne : other.orderId ≠ k.orderId) : other ∈ keep k kept := by
  induction kept with
  | nil => exact absurd h List.not_mem_nil
  | cons held kept ih =>
      rw [keep]
      split_ifs with hheld
      · rcases List.mem_cons.1 h with rfl | h
        · exact absurd hheld hne
        · exact List.mem_cons_of_mem _ h
      · rcases List.mem_cons.1 h with rfl | h
        · exact List.mem_cons_self
        · exact List.mem_cons_of_mem _ (ih h)

lemma mem_of_mem_keep {k other : KeptOrder Terms} {kept : List (KeptOrder Terms)}
    (hunique : kept.Pairwise fun a b => a.orderId ≠ b.orderId) (h : other ∈ keep k kept) :
    other = k ∨ (other ∈ kept ∧ other.orderId ≠ k.orderId) := by
  induction kept with
  | nil => exact Or.inl (List.mem_singleton.1 h)
  | cons held kept ih =>
      obtain ⟨hheld, hunique⟩ := List.pairwise_cons.1 hunique
      rw [keep] at h
      split_ifs at h with hid
      · rcases List.mem_cons.1 h with rfl | h
        · exact Or.inl rfl
        · exact Or.inr ⟨List.mem_cons_of_mem _ h, fun heq => hheld other h (hid.trans heq.symm)⟩
      · rcases List.mem_cons.1 h with rfl | h
        · exact Or.inr ⟨List.mem_cons_self, hid⟩
        · exact (ih hunique h).imp_right fun hother =>
            ⟨List.mem_cons_of_mem _ hother.1, hother.2⟩

lemma map_keep (k : KeptOrder Terms) (kept : List (KeptOrder Terms)) :
    (keep k kept).map KeptOrder.orderId
      = if k.orderId ∈ kept.map KeptOrder.orderId then kept.map KeptOrder.orderId
        else kept.map KeptOrder.orderId ++ [k.orderId] := by
  induction kept with
  | nil => rfl
  | cons held kept ih =>
      rw [keep]
      by_cases hid : held.orderId = k.orderId
      · rw [if_pos hid, List.map_cons, List.map_cons, hid, if_pos List.mem_cons_self]
      · have hmem : k.orderId ∈ held.orderId :: kept.map KeptOrder.orderId ↔
            k.orderId ∈ kept.map KeptOrder.orderId :=
          ⟨fun h => (List.mem_cons.1 h).resolve_left fun heq => hid heq.symm,
            List.mem_cons_of_mem _⟩
        rw [if_neg hid, List.map_cons, List.map_cons, ih, apply_ite (held.orderId :: ·)]
        exact if_congr hmem.symm rfl rfl

lemma asKept_terms (s : Intake Terms) (order : StatedOrder Terms) :
    (s.asKept order).command.terms = order.terms := by
  rw [asKept]
  split_ifs <;> rfl

end Intake

def Families.InOrder (w : Families Terms) : Prop :=
  Ledger w.since w.stated w.begun w.gone w.intake.kept

lemma Families.InOrder.keep {w : Families Terms} (h : w.InOrder) (order : StatedOrder Terms) :
    Ledger (w.note order).since (w.note order).stated (w.note order).begun w.gone
      (Intake.keep (w.intake.asKept order) w.intake.kept) := by
  have hids := Intake.map_keep (w.intake.asKept order) w.intake.kept
  have hid : (w.intake.asKept order).orderId = order.orderId := rfl
  have hstated : ∀ k ∈ Intake.keep (w.intake.asKept order) w.intake.kept,
      (w.note order).stated k.orderId = some (k.parentId, k.command.terms) := by
    intro k hk
    rcases Intake.mem_of_mem_keep h.unique hk with rfl | ⟨hk, hne⟩
    · rw [Intake.asKept_terms]
      exact Function.update_self ..
    · rw [← h.stated k hk]
      exact Function.update_of_ne hne ..
  have hstamps (since : ℕ → ℕ) (kept : List (KeptOrder Terms)) :
      stamps since kept = (kept.map KeptOrder.orderId).map since := by
    rw [stamps, List.map_map]
    rfl
  rw [hid] at hids
  by_cases hmem : order.orderId ∈ w.intake.kept.map KeptOrder.orderId
  · -- restated in its place
    have hsince : (w.note order).since = w.since := if_neg (not_not.2 hmem)
    have hcount : (w.note order).begun = w.begun := if_neg (not_not.2 hmem)
    rw [if_pos hmem] at hids
    have hsame : stamps w.since (Intake.keep (w.intake.asKept order) w.intake.kept)
        = stamps w.since w.intake.kept := by
      rw [hstamps, hids, hstamps]
    refine ⟨?_, hstated, ?_⟩
    · rw [hsince, hsame]
      exact h.sorted
    · rw [hsince, hcount, hsame]
      exact h.once
  · -- kept for the first time
    have hsince : (w.note order).since = Function.update w.since order.orderId w.begun :=
      if_pos hmem
    have hcount : (w.note order).begun = w.begun + 1 := if_pos hmem
    have hold : ∀ n ∈ w.intake.kept.map KeptOrder.orderId,
        Function.update w.since order.orderId w.begun n = w.since n := by
      intro n hn
      refine Function.update_of_ne (fun heq => hmem ?_) ..
      rwa [heq] at hn
    rw [if_neg hmem] at hids
    have hmore : stamps (w.note order).since (Intake.keep (w.intake.asKept order) w.intake.kept)
        = stamps w.since w.intake.kept ++ [w.begun] := by
      rw [hstamps, hids, hstamps, List.map_append, List.map_singleton, hsince,
        List.map_congr_left hold, Function.update_self]
    refine ⟨?_, hstated, ?_⟩
    · rw [hmore]
      refine List.pairwise_append.2 ⟨h.sorted, List.pairwise_singleton _ _, ?_⟩
      intro n hn m hm
      rw [List.mem_singleton.1 hm]
      exact h.earlier hn
    · rw [hmore, hcount, List.range_succ, ← List.append_assoc]
      exact h.once.append_right _

/-! ## What a family is -/

namespace Intake

lemma release_cons (n : ℕ) (k : KeptOrder Terms) (kept : List (KeptOrder Terms)) :
    release n (k :: kept) = if k.orderId = n then (some k, kept)
      else ((release n kept).1, k :: (release n kept).2) := by
  rw [release, release, List.find?_cons, List.eraseP_cons]
  by_cases h : k.orderId = n
  · simp [h]
  · simp [h]

lemma release_perm (n : ℕ) (kept : List (KeptOrder Terms)) :
    kept.Perm ((release n kept).1.toList ++ (release n kept).2) := by
  induction kept with
  | nil => exact List.Perm.refl _
  | cons k kept ih =>
      rw [release_cons]
      split_ifs
      · exact List.Perm.refl _
      · exact (ih.cons k).trans List.perm_middle.symm

lemma release_sublist (n : ℕ) (kept : List (KeptOrder Terms)) :
    (release n kept).2.Sublist kept := List.eraseP_sublist

variable {kept : List (KeptOrder Terms)} {k : KeptOrder Terms}

lemma orderId_of_released {n : ℕ}
    (h : (release n kept).1 = some k) : k.orderId = n :=
  of_decide_eq_true (List.find?_some (p := fun k : KeptOrder Terms => decide (k.orderId = n)) h)

lemma ne_of_mem_release {n : ℕ}
    (hunique : kept.Pairwise fun a b => a.orderId ≠ b.orderId) (h : k ∈ (release n kept).2) :
    k.orderId ≠ n := by
  induction kept with
  | nil => exact absurd h List.not_mem_nil
  | cons held kept ih =>
      obtain ⟨hheld, hunique⟩ := List.pairwise_cons.1 hunique
      rw [release_cons] at h
      split_ifs at h with hid
      · exact fun heq => hheld k h (hid.trans heq.symm)
      · rcases List.mem_cons.1 h with rfl | h
        · exact hid
        · exact ih hunique h

lemma mem_release_of_ne {n : ℕ}
    (h : k ∈ kept) (hne : k.orderId ≠ n) : k ∈ (release n kept).2 := by
  rcases List.mem_append.1 ((release_perm n kept).subset h) with h | h
  · exact absurd (orderId_of_released (Option.mem_toList.1 h)) hne
  · exact h

lemma released_of_mem
    (hunique : kept.Pairwise fun a b => a.orderId ≠ b.orderId) (h : k ∈ kept) :
    (release k.orderId kept).1 = some k := by
  rcases List.mem_append.1 ((release_perm k.orderId kept).subset h) with h | h
  · exact Option.mem_toList.1 h
  · exact absurd rfl (ne_of_mem_release hunique h)

lemma releaseParent_perm (parentId : ℤ) (kept : List (KeptOrder Terms)) :
    kept.Perm ((releaseParent parentId kept).1.toList ++ (releaseParent parentId kept).2) := by
  rw [releaseParent]
  split_ifs
  · exact release_perm _ _
  · exact List.Perm.refl _

lemma releaseParent_sublist (parentId : ℤ) (kept : List (KeptOrder Terms)) :
    (releaseParent parentId kept).2.Sublist kept := by
  rw [releaseParent]
  split_ifs
  · exact release_sublist _ _
  · exact List.Sublist.refl _

lemma ne_of_mem_releaseParent {parentId : ℤ}
    (hunique : kept.Pairwise fun a b => a.orderId ≠ b.orderId)
    (h : k ∈ (releaseParent parentId kept).2) (hpos : 0 < parentId) :
    (k.orderId : ℤ) ≠ parentId := by
  rw [releaseParent, if_pos hpos] at h
  have := ne_of_mem_release hunique h
  omega

lemma mem_releaseParent_of_ne {parentId : ℤ}
    (h : k ∈ kept) (hne : ¬ (0 < parentId ∧ parentId = k.orderId)) :
    k ∈ (releaseParent parentId kept).2 := by
  rw [releaseParent]
  split_ifs with hpos
  · refine mem_release_of_ne h fun heq => hne ⟨hpos, ?_⟩
    omega
  · exact h

lemma parentId_of_releaseParent {parentId : ℤ}
    (h : k ∈ (releaseParent parentId kept).1) :
    0 < parentId ∧ parentId = k.orderId := by
  rw [releaseParent] at h
  split_ifs at h with hpos
  · have := orderId_of_released h
    exact ⟨hpos, by omega⟩
  · exact nomatch h

lemma familyOf_perm (orderId : ℕ) (parentId : ℤ) (kept : List (KeptOrder Terms)) :
    kept.Perm ((familyOf orderId parentId kept).1 ++ (familyOf orderId parentId kept).2) := by
  refine (releaseParent_perm parentId kept).trans ?_
  rw [familyOf, List.append_assoc]
  exact (List.filter_append_perm _ _).symm.append_left _

lemma goingWith_perm (orderId : ℕ) (parentId : ℤ) (replacing : Bool)
    (kept : List (KeptOrder Terms)) :
    kept.Perm ((goingWith orderId parentId replacing kept).1
      ++ (goingWith orderId parentId replacing kept).2) := by
  rw [goingWith]
  split_ifs
  · exact List.Perm.refl _
  · exact familyOf_perm _ _ _

lemma goingWith_sublist (orderId : ℕ) (parentId : ℤ) (replacing : Bool)
    (kept : List (KeptOrder Terms)) :
    (goingWith orderId parentId replacing kept).2.Sublist kept := by
  rw [goingWith]
  split_ifs
  · exact List.Sublist.refl _
  · exact List.filter_sublist.trans (releaseParent_sublist _ _)

lemma joined_eq (before : List ℕ) (own : KeptOrder Terms) (family : List (KeptOrder Terms)) :
    joined before own family = family.takeWhile (·.orderId ∈ before)
      ++ own :: family.dropWhile (·.orderId ∈ before) := by
  rw [joined]
  induction family with
  | nil => rfl
  | cons k family ih =>
      rw [List.findIdx_cons]
      by_cases h : k.orderId ∈ before
      · simpa [h] using ih
      · simp [h]

lemma joined_perm (before : List ℕ) (own : KeptOrder Terms) (family : List (KeptOrder Terms)) :
    (joined before own family).Perm (own :: family) := by
  rw [joined_eq]
  refine List.perm_middle.trans ?_
  rw [List.takeWhile_append_dropWhile]

lemma retained_perm (orderId : ℕ) (sent ids : List ℕ) (family : List (KeptOrder Terms)) :
    family.Perm ((retained orderId sent ids family).1 ++ (retained orderId sent ids family).2) := by
  induction family generalizing ids with
  | nil => exact List.Perm.refl _
  | cons k family ih =>
      rw [retained]
      split_ifs
      · exact (ih _).cons k
      · exact ((ih _).cons k).trans List.perm_middle.symm
      · exact (ih _).cons k

lemma retained_sublist (orderId : ℕ) (sent ids : List ℕ) (family : List (KeptOrder Terms)) :
    (retained orderId sent ids family).1.Sublist family := by
  induction family generalizing ids with
  | nil => exact List.Sublist.refl _
  | cons k family ih =>
      rw [retained]
      split_ifs
      · exact (ih _).cons_cons k
      · exact (ih _).cons k
      · exact (ih _).cons_cons k

lemma mem_retained_two {orderId : ℕ} {sent ids : List ℕ} {family : List (KeptOrder Terms)}
    (hunique : family.Pairwise fun a b => a.orderId ≠ b.orderId)
    (hids : ∀ k ∈ family, k.orderId ∉ ids)
    (h : k ∈ (retained orderId sent ids family).2) : k.orderId ∈ sent ∧ k.orderId ≠ orderId := by
  induction family generalizing ids with
  | nil => exact absurd h List.not_mem_nil
  | cons member family ih =>
      obtain ⟨hmember, hunique⟩ := List.pairwise_cons.1 hunique
      have hrest : ∀ other ∈ family, other.orderId ∉ member.orderId :: ids := by
        intro other hother hmem
        rcases List.mem_cons.1 hmem with heq | hmem
        · exact hmember other hother heq.symm
        · exact hids other (List.mem_cons_of_mem _ hother) hmem
      rw [retained] at h
      split_ifs at h with hplaces hgoes
      · exact ih hunique hrest h
      · rcases List.mem_cons.1 h with rfl | h
        · rw [not_and_or, not_or, not_not, not_not] at hgoes
          rcases hgoes with hout | ⟨hne, hsent⟩
          · exact absurd hout (hids k List.mem_cons_self)
          · exact ⟨hsent, hne⟩
        · exact ih hunique hrest h
      · exact ih hunique (fun other hother => hids other (List.mem_cons_of_mem _ hother)) h

section

variable {since : ℕ → ℕ} {stated : ℕ → Option (ℤ × Terms)} {begun : ℕ} {gone : List ℕ}
  {kept : List (KeptOrder Terms)} {own : KeptOrder Terms}

lemma mem_keptBefore (h : Ledger since stated begun gone kept) (hown : own ∈ kept)
    {k : KeptOrder Terms} (hk : k ∈ kept) :
    k.orderId ∈ keptBefore own.orderId kept ↔ since k.orderId < since own.orderId := by
  have hsplit := List.takeWhile_append_dropWhile (p := fun k : KeptOrder Terms =>
    decide (k.orderId ≠ own.orderId)) (l := kept)
  have hpair := h.pairwise
  rw [← hsplit, List.pairwise_append] at hpair
  obtain ⟨-, hdrop, hcross⟩ := hpair
  constructor
  · intro hmem
    obtain ⟨k', hk', heq⟩ := List.mem_map.1 hmem
    have hrest : own ∈ kept.dropWhile fun k => decide (k.orderId ≠ own.orderId) := by
      rw [← hsplit] at hown
      refine (List.mem_append.1 hown).resolve_left fun hin => ?_
      have := List.mem_takeWhile_imp hin
      simp at this
    rw [← heq]
    exact hcross k' hk' own hrest
  · intro hlt
    rw [← hsplit] at hk
    rcases List.mem_append.1 hk with hk | hk
    · exact List.mem_map_of_mem hk
    · -- the first of the others is the order itself
      cases hcases : kept.dropWhile fun k => decide (k.orderId ≠ own.orderId) with
      | nil => rw [hcases] at hk; exact absurd hk List.not_mem_nil
      | cons d ds =>
          have hd : d.orderId = own.orderId := by
            have := List.head?_dropWhile_not (fun k => decide (k.orderId ≠ own.orderId)) kept
            rw [hcases] at this
            simpa using this
          rw [hcases] at hk hdrop
          rcases List.mem_cons.1 hk with rfl | hk
          · rw [hd] at hlt
            exact absurd hlt (lt_irrefl _)
          · have := (List.pairwise_cons.1 hdrop).1 k hk
            rw [hd] at this
            exact absurd hlt (lt_asymm this)

def IsParent (own k : KeptOrder Terms) : Prop :=
  (0 < own.parentId ∧ own.parentId = k.orderId) ∧ k.orderId ≠ own.orderId

lemma mem_tail (h : Ledger since stated begun gone kept) {k : KeptOrder Terms}
    (hk : k ∈ (releaseParent own.parentId (release own.orderId kept).2).2.filter
      (inFamily own.orderId own.parentId)) :
    k ∈ kept ∧ k.orderId ≠ own.orderId ∧ ¬ (0 < own.parentId ∧ own.parentId = k.orderId) ∧
      (k.parentId = own.parentId ∨ k.parentId = own.orderId) := by
  obtain ⟨hk, hfamily⟩ := List.mem_filter.1 hk
  have hrest := h.unique.sublist (release_sublist own.orderId kept)
  rw [inFamily, decide_eq_true_eq] at hfamily
  refine ⟨(release_sublist _ _).subset ((releaseParent_sublist _ _).subset hk), hfamily.1,
    fun hparent => ne_of_mem_releaseParent hrest hk hparent.1 hparent.2.symm, ?_⟩
  exact hfamily.2.imp_left And.right

lemma mem_parent (h : Ledger since stated begun gone kept) {k : KeptOrder Terms}
    (hk : k ∈ (releaseParent own.parentId (release own.orderId kept).2).1) :
    k ∈ kept ∧ IsParent own k := by
  have hin : k ∈ (release own.orderId kept).2 :=
    (releaseParent_perm own.parentId _).symm.subset
      (List.mem_append_left _ (Option.mem_toList.2 hk))
  exact ⟨(release_sublist _ _).subset hin, parentId_of_releaseParent hk,
    ne_of_mem_release h.unique hin⟩

lemma tail_pairwise (h : Ledger since stated begun gone kept) :
    ((releaseParent own.parentId (release own.orderId kept).2).2.filter
      (inFamily own.orderId own.parentId)).Pairwise
        fun a b => since a.orderId < since b.orderId :=
  h.pairwise.sublist (List.filter_sublist.trans
    ((releaseParent_sublist _ _).trans (release_sublist _ _)))

lemma mem_family (h : Ledger since stated begun gone kept) {k : KeptOrder Terms}
    (hk : k ∈ (familyOf own.orderId own.parentId (release own.orderId kept).2).1) :
    k ∈ kept ∧ k.orderId ≠ own.orderId := by
  rcases List.mem_append.1 hk with hk | hk
  · exact ⟨(mem_parent h (Option.mem_toList.1 hk)).1, (mem_parent h (Option.mem_toList.1 hk)).2.2⟩
  · exact ⟨(mem_tail h hk).1, (mem_tail h hk).2.1⟩

lemma pairwise_toList {α : Type*} {R : α → α → Prop} : ∀ o : Option α, o.toList.Pairwise R
  | none => List.Pairwise.nil
  | some _ => List.pairwise_singleton _ _

lemma family_pairwise (h : Ledger since stated begun gone kept) :
    (familyOf own.orderId own.parentId (release own.orderId kept).2).1.Pairwise fun a b =>
      IsParent own a ∨ (¬ IsParent own b ∧ since a.orderId < since b.orderId) := by
  refine List.pairwise_append.2 ⟨?_, ?_, ?_⟩
  · exact pairwise_toList _
  · refine (tail_pairwise h).imp_of_mem ?_
    intro a b ha hb hlt
    exact Or.inr ⟨fun hparent => (mem_tail h hb).2.2.1 hparent.1, hlt⟩
  · intro p hp k hk
    exact Or.inl (mem_parent h (Option.mem_toList.1 hp)).2

lemma family_names (h : Ledger since stated begun gone kept) :
    (familyOf own.orderId own.parentId (release own.orderId kept).2).1.Pairwise fun a b =>
      a.Names b.orderId → IsParent own a := by
  refine List.pairwise_append.2 ⟨?_, ?_, ?_⟩
  · exact pairwise_toList _
  · refine (tail_pairwise h).imp_of_mem ?_
    rintro a b ha hb - ⟨hpos, hnames⟩
    rcases (mem_tail h ha).2.2.2 with hsibling | hchild
    · exact absurd ⟨hsibling ▸ hpos, hsibling ▸ hnames⟩ (mem_tail h hb).2.2.1
    · have := (mem_tail h hb).2.1
      omega
  · intro p hp k hk _
    exact (mem_parent h (Option.mem_toList.1 hp)).2

lemma joined_sorted (h : Ledger since stated begun gone kept) (hown : own ∈ kept)
    (hbefore : ∀ k ∈ kept, IsParent own k → since k.orderId < since own.orderId) :
    (joined (keptBefore own.orderId kept) own
      (familyOf own.orderId own.parentId (release own.orderId kept).2).1).Pairwise fun a b =>
        IsParent own a ∨ (¬ IsParent own b ∧ since a.orderId < since b.orderId) := by
  have hpair : (familyOf own.orderId own.parentId (release own.orderId kept).2).1.Pairwise
      fun a b => IsParent own a ∨ (¬ IsParent own b ∧ since a.orderId < since b.orderId) :=
    family_pairwise h
  have hmem : ∀ k ∈ (familyOf own.orderId own.parentId (release own.orderId kept).2).1,
      k ∈ kept ∧ k.orderId ≠ own.orderId := fun k hk => mem_family h hk
  generalize (familyOf own.orderId own.parentId (release own.orderId kept).2).1 = family at *
  have hsplit := List.takeWhile_append_dropWhile (p := fun k : KeptOrder Terms =>
    decide (k.orderId ∈ keptBefore own.orderId kept)) (l := family)
  have hself : ¬ IsParent own own := fun hparent => hparent.2 rfl
  have hdrop : ∀ d ∈ family.dropWhile (·.orderId ∈ keptBefore own.orderId kept),
      ¬ IsParent own d ∧ since own.orderId < since d.orderId := by
    cases hcases : family.dropWhile (·.orderId ∈ keptBefore own.orderId kept) with
    | nil => exact List.forall_mem_nil _
    | cons first rest =>
        have hfirst : first.orderId ∉ keptBefore own.orderId kept := by
          have := List.head?_dropWhile_not (fun k : KeptOrder Terms =>
            decide (k.orderId ∈ keptBefore own.orderId kept)) family
          rw [hcases] at this
          simpa using this
        have hin := hmem first (List.dropWhile_subset _ (hcases ▸ List.mem_cons_self))
        rw [mem_keptBefore h hown hin.1] at hfirst
        have hlater := h.lt_of_not_lt hin.1 hown hin.2 hfirst
        have hnot : ¬ IsParent own first := fun hparent => hfirst (hbefore first hin.1 hparent)
        rw [← hsplit, hcases, List.pairwise_append] at hpair
        intro d hd
        rcases List.mem_cons.1 hd with rfl | hd
        · exact ⟨hnot, hlater⟩
        · have hnext := ((List.pairwise_cons.1 hpair.2.1).1 d hd).resolve_left hnot
          exact ⟨hnext.1, hlater.trans hnext.2⟩
  rw [joined_eq]
  rw [← hsplit, List.pairwise_append] at hpair
  refine List.pairwise_append.2 ⟨hpair.1, List.pairwise_cons.2 ⟨?_, hpair.2.1⟩, ?_⟩
  · exact fun d hd => Or.inr (hdrop d hd)
  · intro t ht d hd
    have htake : since t.orderId < since own.orderId := by
      have hin := hmem t (List.takeWhile_subset _ ht)
      have hbefore := List.mem_takeWhile_imp ht
      exact (mem_keptBefore h hown hin.1).1 (of_decide_eq_true hbefore)
    rcases List.mem_cons.1 hd with rfl | hd
    · exact Or.inr ⟨hself, htake⟩
    · exact Or.inr ⟨(hdrop d hd).1, htake.trans (hdrop d hd).2⟩

lemma joined_names (h : Ledger since stated begun gone kept) (hown : own ∈ kept) :
    (joined (keptBefore own.orderId kept) own
      (familyOf own.orderId own.parentId (release own.orderId kept).2).1).Pairwise fun a b =>
        a.Names b.orderId → IsParent own a ∨ ((a.orderId = own.orderId ∨ b.orderId = own.orderId) ∧
          since a.orderId < since b.orderId) := by
  have hpair : (familyOf own.orderId own.parentId (release own.orderId kept).2).1.Pairwise
      fun a b => a.Names b.orderId → IsParent own a ∨
        ((a.orderId = own.orderId ∨ b.orderId = own.orderId) ∧
          since a.orderId < since b.orderId) := by
    refine (family_names h).imp ?_
    intro a b hnames hab
    exact Or.inl (hnames hab)
  rw [joined_eq]
  rw [← List.takeWhile_append_dropWhile (p := fun k : KeptOrder Terms =>
    decide (k.orderId ∈ keptBefore own.orderId kept)) (l := (familyOf own.orderId own.parentId
      (release own.orderId kept).2).1), List.pairwise_append] at hpair
  refine List.pairwise_append.2 ⟨hpair.1, List.pairwise_cons.2 ⟨?_, hpair.2.1⟩, ?_⟩
  · -- the order before its parent
    rintro d hd ⟨hpos, hnames⟩
    have hin := mem_family h (List.dropWhile_subset _ hd)
    refine Or.inr ⟨Or.inl rfl, h.lt_of_not_lt hin.1 hown hin.2 fun hlt => ?_⟩
    have hbefore := (mem_keptBefore h hown hin.1).2 hlt
    rw [familyOf] at hd
    cases hparent : (releaseParent own.parentId (release own.orderId kept).2).1 with
    | none =>
        rw [hparent] at hd
        exact (mem_tail h (List.dropWhile_subset _ hd)).2.2.1 ⟨hpos, hnames⟩
    | some p =>
        have hp := (mem_parent h hparent).2.1
        have heq : p.orderId = d.orderId := by
          have := hp.2
          omega
        rw [hparent, Option.toList_some, List.singleton_append, List.dropWhile_cons_of_pos] at hd
        · exact (mem_tail h (List.dropWhile_subset _ hd)).2.2.1 ⟨hpos, hnames⟩
        · rw [heq]
          exact decide_eq_true hbefore
  · intro t ht d hd
    rcases List.mem_cons.1 hd with rfl | hd
    · intro _
      have hin := mem_family h (List.takeWhile_subset _ ht)
      have hbefore := List.mem_takeWhile_imp ht
      exact Or.inr ⟨Or.inr rfl, (mem_keptBefore h hown hin.1).1 (of_decide_eq_true hbefore)⟩
    · exact hpair.2.2 t ht d hd

lemma not_names_left (h : Ledger since stated begun gone kept) {k left : KeptOrder Terms}
    (hk : k = own ∨ k ∈ (familyOf own.orderId own.parentId (release own.orderId kept).2).1)
    (hleft : left ∈ (familyOf own.orderId own.parentId (release own.orderId kept).2).2)
    (hparent : ¬ IsParent own k) : ¬ k.Names left.orderId := by
  have hrest := h.unique.sublist (release_sublist own.orderId kept)
  have hin := (List.mem_filter.1 hleft).1
  have hself : left.orderId ≠ own.orderId :=
    ne_of_mem_release h.unique ((releaseParent_sublist _ _).subset hin)
  have hnot : ¬ (0 < own.parentId ∧ own.parentId = left.orderId) := fun hnames =>
    ne_of_mem_releaseParent hrest hin hnames.1 hnames.2.symm
  rintro ⟨hpos, hnames⟩
  rcases hk with rfl | hk
  · exact hnot ⟨hpos, hnames⟩
  · rcases List.mem_append.1 hk with hk | hk
    · exact hparent (mem_parent h (Option.mem_toList.1 hk)).2
    · rcases (mem_tail h hk).2.2.2 with hsibling | hchild
      · exact hnot ⟨hsibling ▸ hpos, hsibling ▸ hnames⟩
      · omega

end

/-! ## What leaves -/

def goingFor (s : Intake Terms) (order : StatedOrder Terms) :
    List (KeptOrder Terms) × List (KeptOrder Terms) :=
  goingWith order.orderId order.parentId (order.worked && !s.keepsAPlacement order.orderId)
    (release order.orderId (keep (s.asKept order) s.kept)).2

def familyFor (s : Intake Terms) (order : StatedOrder Terms) : List (KeptOrder Terms) :=
  joined (keptBefore order.orderId (keep (s.asKept order) s.kept)) (s.asKept order)
    (s.goingFor order).1

end Intake

namespace Families

variable {w : Families Terms}

variable {order : StatedOrder Terms}

lemma released_own (h : w.InOrder) (order : StatedOrder Terms) :
    (Intake.release order.orderId (Intake.keep (w.intake.asKept order) w.intake.kept)).1 =
      some (w.intake.asKept order) :=
  Intake.released_of_mem (h.keep order).unique (Intake.mem_keep_self _ _)

lemma take_placed (h : w.InOrder) (htransmit : order.transmit = true) :
    ((w.intake.take (.placed order)).1.kept = (w.intake.goingFor order).2 ∧
      (w.intake.take (.placed order)).2.withdrawn = []) ∧
    ((w.intake.take (.placed order)).2.queued, (w.intake.take (.placed order)).2.forgotten)
      = Intake.retained order.orderId w.intake.sentApiIds [] (w.intake.familyFor order) := by
  rw [Intake.take, Intake.takePlacement, if_pos htransmit, Intake.transmitOrderFamily]
  simp only [released_own h order]
  exact ⟨⟨rfl, trivial⟩, rfl⟩

lemma take_held (w : Families Terms)
    (htransmit : order.transmit = false) :
    w.intake.take (.placed order)
      = ({ w.intake with kept := Intake.keep (w.intake.asKept order) w.intake.kept }, {}) := by
  rw [Intake.take, Intake.takePlacement, if_neg (by rw [htransmit]; exact Bool.false_ne_true)]

lemma familyFor_perm (h : w.InOrder) (order : StatedOrder Terms) :
    (Intake.keep (w.intake.asKept order) w.intake.kept).Perm
      (w.intake.familyFor order ++ (w.intake.goingFor order).2) := by
  have hgoing : (Intake.release order.orderId (Intake.keep (w.intake.asKept order)
      w.intake.kept)).2.Perm ((w.intake.goingFor order).1 ++ (w.intake.goingFor order).2) :=
    Intake.goingWith_perm ..
  have hjoined : (w.intake.familyFor order).Perm
      (w.intake.asKept order :: (w.intake.goingFor order).1) := Intake.joined_perm ..
  refine (Intake.release_perm order.orderId _).trans ?_
  rw [released_own h, Option.toList_some, List.singleton_append]
  exact (hgoing.cons _).trans (hjoined.symm.append_right _)

lemma InOrder.of_leave {e : IntakeEvent Terms} {kept : List (KeptOrder Terms)}
    (h : Ledger (w.noted e).since (w.noted e).stated (w.noted e).begun w.gone kept)
    (hsub : (w.intake.take e).1.kept.Sublist kept)
    (hperm : kept.Perm ((w.leaving e).queued ++ (w.leaving e).withdrawn ++ (w.leaving e).forgotten
      ++ (w.intake.take e).1.kept)) : (w.step e).InOrder :=
  h.leave hsub hperm

lemma leave_placed (h : w.InOrder) (order : StatedOrder Terms) :
    (w.intake.take (.placed order)).1.kept.Sublist
        (Intake.keep (w.intake.asKept order) w.intake.kept) ∧
      (Intake.keep (w.intake.asKept order) w.intake.kept).Perm
        ((w.leaving (.placed order)).queued ++ (w.leaving (.placed order)).withdrawn
          ++ (w.leaving (.placed order)).forgotten ++ (w.intake.take (.placed order)).1.kept) := by
  cases htransmit : order.transmit with
  | false =>
      rw [leaving, take_held w htransmit]
      exact ⟨List.Sublist.refl _, List.Perm.refl _⟩
  | true =>
      obtain ⟨⟨hkept, hwithdrawn⟩, hsorted⟩ := take_placed h htransmit
      have hfamily := Intake.retained_perm order.orderId w.intake.sentApiIds []
        (w.intake.familyFor order)
      rw [leaving, hkept, hwithdrawn, List.append_nil]
      rw [← hsorted] at hfamily
      refine ⟨?_, (familyFor_perm h order).trans (hfamily.append_right _)⟩
      exact (Intake.goingWith_sublist ..).trans (Intake.release_sublist ..)

lemma releaseAll_perm : ∀ (ns : List ℕ) (kept : List (KeptOrder Terms)),
    kept.Perm ((Intake.releaseAll ns kept).1 ++ (Intake.releaseAll ns kept).2) ∧
      (Intake.releaseAll ns kept).2.Sublist kept
  | [], kept => ⟨List.Perm.refl _, List.Sublist.refl _⟩
  | n :: ns, kept => by
      obtain ⟨hperm, hsub⟩ := releaseAll_perm ns (Intake.release n kept).2
      rw [Intake.releaseAll, List.append_assoc]
      exact ⟨(Intake.release_perm n kept).trans (hperm.append_left _),
        hsub.trans (Intake.release_sublist n kept)⟩

lemma withdrawing_perm (going kept : List (KeptOrder Terms)) :
    (going ++ kept).Perm ((Intake.withdrawing going kept).1 ++ (Intake.withdrawing going kept).2) ∧
      (Intake.withdrawing going kept).2.Sublist kept := by
  fun_induction Intake.withdrawing going kept with
  | case1 kept => exact ⟨List.Perm.refl _, List.Sublist.refl _⟩
  | case2 kept k going out rest ih =>
      obtain ⟨hperm, hsub⟩ := ih
      have hout := releaseAll_perm (Intake.childrenOf k.orderId kept) kept
      refine ⟨List.Perm.cons k (List.Perm.trans ?_ hperm), hsub.trans hout.2⟩
      rw [List.append_assoc]
      refine (hout.1.append_left going).trans ?_
      rw [← List.append_assoc, ← List.append_assoc]
      exact (List.perm_append_comm.trans ((List.reverse_perm _).symm.append_right _)).append_right _

lemma leave_cancelled (s : Intake Terms) (orderId : ℕ) :
    (s.withdrawKeptPlacement orderId).1.kept.Sublist s.kept ∧
      s.kept.Perm ((s.withdrawKeptPlacement orderId).2.queued
        ++ (s.withdrawKeptPlacement orderId).2.withdrawn
        ++ (s.withdrawKeptPlacement orderId).2.forgotten
        ++ (s.withdrawKeptPlacement orderId).1.kept) := by
  have hperm := Intake.release_perm orderId s.kept
  have hsub := Intake.release_sublist orderId s.kept
  rw [Intake.withdrawKeptPlacement]
  cases hfound : (Intake.release orderId s.kept).1 with
  | none => exact ⟨List.Sublist.refl _, List.Perm.refl _⟩
  | some k =>
      rw [hfound, Option.toList_some] at hperm
      simp only []
      split_ifs with hplaces
      · obtain ⟨hgone, hrest⟩ := withdrawing_perm [k] (Intake.release orderId s.kept).2
        refine ⟨hrest.trans hsub, ?_⟩
        rw [List.nil_append, List.append_nil]
        exact hperm.trans hgone
      · exact ⟨hsub, hperm⟩

lemma InOrder.step (h : w.InOrder) (e : IntakeEvent Terms) : (w.step e).InOrder := by
  cases e with
  | placed order =>
      obtain ⟨hsub, hperm⟩ := leave_placed h order
      exact InOrder.of_leave (h.keep order) hsub hperm
  | cancelled orderId =>
      obtain ⟨hsub, hperm⟩ := leave_cancelled w.intake orderId
      exact InOrder.of_leave h hsub hperm
  | allCancelled =>
      refine InOrder.of_leave h (List.nil_sublist _) ?_
      rw [leaving, Intake.take, Intake.withdrawEverythingHeld, List.nil_append, List.append_nil,
        List.append_nil]
  | finished numbers =>
      refine InOrder.of_leave h List.filter_sublist ?_
      rw [leaving, Intake.take, Intake.dropFinished, List.nil_append, List.append_nil]
      exact (List.filter_append_perm _ _).symm.trans List.perm_append_comm
  | discarded orderId => exact InOrder.of_leave h (List.Sublist.refl _) (List.Perm.refl _)

lemma released_held (htransmit : order.transmit = false) :
    ReleasedInOrder w order := by
  have hleaving : w.leaving (.placed order) = {} := by rw [leaving, take_held w htransmit]
  have hnot : order.transmit ≠ true := by rw [htransmit]; exact Bool.false_ne_true
  refine ⟨fun _ => by rw [hleaving], fun h => absurd h hnot, fun h => absurd h hnot, ?_, ?_,
    fun _ => ?_, ?_, ?_, ?_⟩
  · rw [hleaving]
    exact List.forall_mem_nil _
  · rw [hleaving]
    exact List.Pairwise.nil
  · rw [hleaving]
    exact List.Pairwise.nil
  · rw [hleaving]
    exact List.forall_mem_nil _
  · rw [hleaving]
    exact List.forall_mem_nil _
  · intro k hk hne _ _ _
    rw [step, take_held w htransmit]
    exact Intake.mem_keep_of_ne hk hne

lemma goingFor_cases (w : Families Terms) (order : StatedOrder Terms) :
    ((w.intake.asKept order).placesTheOrder = false ∧ (w.intake.goingFor order)
        = ([], (Intake.release order.orderId (Intake.keep (w.intake.asKept order)
          w.intake.kept)).2)) ∨
      w.intake.goingFor order = Intake.familyOf order.orderId order.parentId
        (Intake.release order.orderId (Intake.keep (w.intake.asKept order) w.intake.kept)).2 := by
  cases hreplacing : order.worked && !w.intake.keepsAPlacement order.orderId with
  | true =>
      refine Or.inl ⟨?_, ?_⟩
      · rw [KeptOrder.placesTheOrder, Intake.asKept, hreplacing]
        rfl
      · rw [Intake.goingFor, hreplacing]
        rfl
  | false =>
      refine Or.inr ?_
      rw [Intake.goingFor, hreplacing]
      rfl

/-- The order that transmits is never one that is forgotten. -/
lemma own_queued (h : w.InOrder) (htransmit : order.transmit = true) :
    w.intake.asKept order ∈ (w.leaving (.placed order)).queued := by
  obtain ⟨-, hsorted⟩ := take_placed h htransmit
  obtain ⟨hqueued, -⟩ := Prod.mk.inj hsorted
  have hunique := (h.keep order).unique
  rw [(familyFor_perm h order).pairwise_iff (fun hne => hne.symm)] at hunique
  have hown : w.intake.asKept order ∈ w.intake.familyFor order :=
    (Intake.joined_perm ..).symm.subset List.mem_cons_self
  rw [leaving, hqueued]
  refine (List.mem_append.1 ((Intake.retained_perm ..).subset hown)).resolve_right fun hforgotten => ?_
  exact (Intake.mem_retained_two (List.pairwise_append.1 hunique).1 (fun _ _ => List.not_mem_nil)
    hforgotten).2 rfl

lemma family_leaves (h : w.InOrder) (htransmit : order.transmit = true)
    (hplacing : order.worked = true → w.intake.keepsAPlacement order.orderId = true)
    {k : KeptOrder Terms} (hk : k ∈ w.intake.kept) (hof : order.Releases k) :
    k ∈ (w.leaving (.placed order)).queued ++ (w.leaving (.placed order)).forgotten := by
  obtain ⟨-, hsorted⟩ := take_placed h htransmit
  obtain ⟨hqueued, hforgotten⟩ := Prod.mk.inj hsorted
  obtain ⟨hne, hof⟩ := hof
  have hreplacing : (order.worked && !w.intake.keepsAPlacement order.orderId) = false := by
    cases hworked : order.worked with
    | false => rfl
    | true => rw [hplacing hworked]; rfl
  have hunique := (h.keep order).unique
  have hgoing : w.intake.goingFor order = Intake.familyOf order.orderId order.parentId
      (Intake.release order.orderId (Intake.keep (w.intake.asKept order) w.intake.kept)).2 := by
    rw [Intake.goingFor, hreplacing]
    rfl
  rw [leaving, hqueued, hforgotten]
  refine (Intake.retained_perm ..).subset ((List.mem_append.1 ((familyFor_perm h order).subset
    (Intake.mem_keep_of_ne hk hne))).resolve_right fun hleft => ?_)
  rw [hgoing] at hleft
  obtain ⟨hleft, hout⟩ := List.mem_filter.1 hleft
  rw [Bool.not_eq_true', Intake.inFamily, decide_eq_false_iff_not] at hout
  rcases hof with ⟨⟨hpos, hnames⟩, -⟩ | hkin
  · exact Intake.ne_of_mem_releaseParent (hunique.sublist (Intake.release_sublist _ _)) hleft hpos
      hnames.symm
  · exact hout ⟨hne, hkin⟩

lemma InOrder.released (h : w.InOrder) (order : StatedOrder Terms) : ReleasedInOrder w order := by
  cases htransmit : order.transmit with
  | false => exact released_held htransmit
  | true =>
      obtain ⟨⟨hkept, -⟩, hsorted⟩ := take_placed h htransmit
      obtain ⟨hqueued, hforgotten⟩ := Prod.mk.inj hsorted
      have hledger := h.keep order
      have hown : w.intake.asKept order ∈ Intake.keep (w.intake.asKept order) w.intake.kept :=
        Intake.mem_keep_self _ _
      have hsub : (w.leaving (.placed order)).queued.Sublist (w.intake.familyFor order) := by
        rw [leaving, hqueued]
        exact Intake.retained_sublist ..
      have hmem : ∀ k ∈ w.intake.familyFor order,
          k ∈ Intake.keep (w.intake.asKept order) w.intake.kept := fun k hk =>
        (familyFor_perm h order).symm.subset (List.mem_append_left _ hk)
      refine ⟨fun hheld => absurd (htransmit.symm.trans hheld) (by decide),
        fun _ => own_queued h htransmit,
        fun _ hplacing k hk hof => family_leaves h htransmit hplacing hk hof, ?_, ?_, ?_, ?_, ?_, ?_⟩
      · intro k hk hplaces hparent left hleft
        have hin := (Intake.joined_perm ..).subset (hsub.subset hk)
        rw [Families.step, hkept] at hleft
        rcases goingFor_cases w order with ⟨hreplace, hgoing⟩ | hgoing
        · rw [hgoing] at hin
          rw [List.mem_singleton.1 hin, hreplace] at hplaces
          exact absurd hplaces (by decide)
        · rw [hgoing] at hin hleft
          exact Intake.not_names_left hledger (List.mem_cons.1 hin) hleft hparent
      · refine List.Pairwise.sublist hsub ?_
        rw [Intake.familyFor]
        rcases goingFor_cases w order with ⟨-, hgoing⟩ | hgoing
        · rw [hgoing]
          exact List.pairwise_singleton _ _
        · rw [hgoing]
          exact Intake.joined_names hledger hown
      · intro hbefore
        refine List.Pairwise.sublist hsub ?_
        rw [Intake.familyFor]
        rcases goingFor_cases w order with ⟨-, hgoing⟩ | hgoing
        · rw [hgoing]
          exact List.pairwise_singleton _ _
        · rw [hgoing]
          refine Intake.joined_sorted hledger hown fun k hk hparent => ?_
          rcases Intake.mem_of_mem_keep h.unique hk with rfl | ⟨hk, -⟩
          · exact absurd rfl hparent.2
          · exact hbefore k hk hparent
      · intro k hk
        rw [leaving, hforgotten] at hk
        have hunique := hledger.unique
        rw [(familyFor_perm h order).pairwise_iff (fun hne => hne.symm)] at hunique
        exact Intake.mem_retained_two (List.pairwise_append.1 hunique).1
          (fun _ _ => List.not_mem_nil) hk
      · intro k hk
        exact hledger.stated k (hmem k (hsub.subset hk))
      · intro k hk hne hparent hsibling hchild
        have hin := Intake.mem_release_of_ne (Intake.mem_keep_of_ne (k := w.intake.asKept order)
          hk hne) hne
        rw [Families.step, hkept]
        rcases goingFor_cases w order with ⟨-, hgoing⟩ | hgoing
        · rw [hgoing]
          exact hin
        · rw [hgoing]
          refine List.mem_filter.2 ⟨Intake.mem_releaseParent_of_ne hin fun hnames =>
            hparent ⟨hnames, hne⟩, ?_⟩
          rw [Bool.not_eq_true', Intake.inFamily, decide_eq_false_iff_not]
          rintro ⟨-, ⟨hpos, hsame⟩ | hsame⟩
          · exact hsibling.elim hpos fun hother => hother hsame
          · exact hchild hsame

end Families

/-- **Families are released in order, and once.**  Whatever is placed, restated, cancelled and
finished, each placement that transmits sends its family as `ReleasedInOrder` says, and every order
kept is kept still or has left once. -/
theorem families_released (es : List (IntakeEvent Terms)) :
    (Runs.run Families.step ({} : Families Terms) es).KeptOnce ∧
      Runs.Along Families.step (fun w e => ∀ order, e = .placed order → ReleasedInOrder w order)
        ({} : Families Terms) es := by
  have hstart : ({} : Families Terms).InOrder :=
    ⟨List.Pairwise.nil, List.forall_mem_nil _, List.Perm.refl _⟩
  have hstep : ∀ (w : Families Terms) (e : IntakeEvent Terms), w.InOrder → True →
      (w.step e).InOrder := fun w e h _ => h.step e
  have hany : Runs.Along Families.step (fun _ _ => True) ({} : Families Terms) es :=
    Runs.Along.of_forall (fun _ _ => trivial) _ es
  refine ⟨(Runs.Along.invariant hstep hstart hany).once, ?_⟩
  refine Runs.Along.mono hstep (fun w e h _ => ?_) hstart hany
  rintro order rfl
  exact h.released order

end

instance {Terms : Type} (k : KeptOrder Terms) (n : ℕ) : Decidable (k.Names n) :=
  inferInstanceAs (Decidable (_ ∧ _))

def parentAndChild : Families Unit :=
  Runs.run Families.step {} [.placed ⟨10, 0, (), false, false⟩, .placed ⟨11, 10, (), false, false⟩]

/-- A child's child transmits: its parent is sent while the parent of that one stays kept. -/
theorem grandparent_left_kept :
    ∃ k ∈ (parentAndChild.leaving (.placed ⟨12, 11, (), true, false⟩)).queued,
      k.placesTheOrder ∧ ∃ left ∈ (parentAndChild.step
        (.placed ⟨12, 11, (), true, false⟩)).intake.kept, k.Names left.orderId := by
  decide

end IbkrDx
