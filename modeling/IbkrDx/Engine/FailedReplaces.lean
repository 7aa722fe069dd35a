import IbkrDx.Engine.Replaces

/-!
# Replaces that do not go out

A replace writes its attempt into the records before it is sent.  It is refused where the order, its
placement or a number for it is missing, and rolled back where the write fails, from
`drain_and_send_orders` of `engine/hot_loop/order_builder/mod.rs`.

* **`undisturbed_iff`** — when they are.
* **`not_undisturbed`** — a statement of an order this session did not place stays behind.
-/

namespace IbkrDx

variable {Spec : Type}

/-! ## A replace and its write -/

/-- How a replace writes onto the placement it restates. -/
structure Restating (Spec : Type) where
  /-- `restate_with`: the prices a request names, onto the placement's own. -/
  restate : Spec → ℤ → ℤ → Spec
  /-- Whether the placement goes to the venue under the type. -/
  describes : Spec → UInt8 → Bool

inductive ReplaceOutcome where
  | sent (r : Replace)
  | refused (r : Refusal)
  | failed

/-- The moved prices, recorded on the placement where the replace restates it. -/
def recordShape (restating : Restating Spec) (req : ModifyRequest Spec) (e : OrderEntry Spec) :
    OrderEntry Spec :=
  { e with submitted := e.submitted.map fun spec =>
      if req.stated.isSome || e.order.any (fun o => restating.describes spec o.ordType) then
        restating.restate spec req.price req.stopPrice
      else spec }

def OrderEntry.dropSnapshot (ver : ℕ) (e : OrderEntry Spec) : OrderEntry Spec :=
  { e with preReplace := e.preReplace.filter fun s => s.1 ≠ ver }

/-- What a failed write undoes.  `before` is the order as it was held. -/
def rollBack (id : OrderId) (before : Option Order) (e : OrderEntry Spec) : OrderEntry Spec :=
  match before with
  | none => e
  | some prior =>
      if id = 0 then e
      else
        let back := e.insertOrder prior
        let ver := back.modifyVersion.getD 0
        match back.preReplace.lookup ver with
        | some ⟨_, _, some record⟩ =>
            { back.dropSnapshot ver with submitted := back.submitted.map fun _ => record }
        | _ => back.dropSnapshot ver

/-- **A replace**, and whether its write succeeds. -/
def sendReplace (placing : Placing Spec) (restating : Restating Spec) (id : OrderId)
    (req : ModifyRequest Spec) (wrote : Bool) (e : OrderEntry Spec) :
    OrderEntry Spec × ReplaceOutcome :=
  match modify placing id req e with
  | (refused, .error r) => (refused, .refused r)
  | (attempted, .ok replace) =>
      let recorded := recordShape restating req attempted
      if wrote then (recorded, .sent replace)
      else ((rollBack id e.order recorded).setOrderStatusForced .uncertain, .failed)

/-! ## What it is to leave -/

/-- **The records are as the venue holds them.**  A refused replace leaves them as they were; one
whose write failed leaves the order in doubt, its revision's number spent and its name recorded, and
all else as it was. -/
def Undisturbed (id : OrderId) (e e' : OrderEntry Spec) : ReplaceOutcome → Prop
  | .sent _ => True
  | .refused _ => e' = e
  | .failed => e' =
      { e with
        order := e.order.map fun o => { o with status := .uncertain }
        modifyVersion := some (e.modifyVersion.getD 0 + 1)
        lastClord := some (chainName id (e.modifyVersion.getD 0 + 1))
        preReplace := e.preReplace.filter fun s => s.1 ≠ e.modifyVersion.getD 0 + 1 }

def statedOnto (placing : Placing Spec) (req : ModifyRequest Spec) (held : Option Spec) :
    Option Spec :=
  match req.stated, held with
  | none, held => held
  | some stated, some resting => some (placing.merge resting stated)
  | some stated, none => some (placing.keepAttached stated)

/-- **When they are**, for an order that is held.  A replace that can be named is written, or has a
placement to go back to, or states none; one that cannot leaves the placement as it is. -/
def GoesBackWhole (placing : Placing Spec) (req : ModifyRequest Spec) (wrote : Bool)
    (e : OrderEntry Spec) : Prop :=
  e.order.isSome →
    if e.modifyVersion.getD 0 + 1 < revisionLimit then
      wrote ∨ e.submitted.isSome ∨ req.stated = none
    else statedOnto placing req e.submitted = e.submitted

lemma modify_cases (placing : Placing Spec) (id : OrderId) (req : ModifyRequest Spec)
    (e : OrderEntry Spec) :
    (e.order = none ∧ ∃ r, modify placing id req e = (e, .error r)) ∨
    (e.order.isSome ∧ (statedOnto placing req e.submitted = none ∨
        ¬ e.modifyVersion.getD 0 + 1 < revisionLimit) ∧
      ∃ r, modify placing id req e
        = ({ e with submitted := statedOnto placing req e.submitted }, .error r)) ∨
    (e.modifyVersion.getD 0 + 1 < revisionLimit ∧ ∃ o o' name r, e.order = some o ∧
      modify placing id req e =
        ({ e with
            order := some o'
            submitted := statedOnto placing req e.submitted
            preReplace := (e.modifyVersion.getD 0 + 1, ⟨o, name, e.submitted⟩)
              :: e.preReplace.filter fun s => s.1 ≠ e.modifyVersion.getD 0 + 1
            modifyVersion := some (e.modifyVersion.getD 0 + 1)
            lastClord := some (chainName id (e.modifyVersion.getD 0 + 1)) }, .ok r)) := by
  unfold modify
  cases ho : e.order with
  | none => exact Or.inl ⟨rfl, _, rfl⟩
  | some o =>
      simp only
      split_ifs with hplaced hver
      · have hnone : statedOnto placing req e.submitted = none :=
          Option.isNone_iff_eq_none.1 (Bool.and_eq_true_iff.1 hplaced).1
        exact Or.inr (Or.inl ⟨rfl, Or.inl hnone, _, rfl⟩)
      · exact Or.inr (Or.inr ⟨hver, o, _, _, _, rfl, rfl⟩)
      · exact Or.inr (Or.inl ⟨rfl, Or.inr hver, _, rfl⟩)

lemma statedOnto_eq_none {placing : Placing Spec} {req : ModifyRequest Spec} {held : Option Spec} :
    statedOnto placing req held = none ↔ req.stated = none ∧ held = none := by
  cases hstated : req.stated <;> cases held <;> simp [statedOnto, hstated]

lemma rollBack_attempt {id : OrderId} (hid : id ≠ 0) (e : OrderEntry Spec) (o o' : Order)
    (name clord : Bytes) (ver : ℕ) (placed : Option Spec) :
    (rollBack id (some o)
        { e with
          order := some o'
          submitted := placed
          preReplace := (ver, ⟨o, name, e.submitted⟩) :: e.preReplace.filter fun s => s.1 ≠ ver
          modifyVersion := some ver
          lastClord := some clord }).setOrderStatusForced .uncertain
      = { e with
          order := some { o with status := .uncertain }
          submitted := if e.submitted.isSome then placed.bind fun _ => e.submitted else placed
          modifyVersion := some ver
          lastClord := some clord
          preReplace := e.preReplace.filter fun s => s.1 ≠ ver } := by
  have hfilter (prior : Snapshot Spec) : ((ver, prior)
      :: e.preReplace.filter fun s => s.1 ≠ ver).filter (fun s => s.1 ≠ ver)
      = e.preReplace.filter fun s => s.1 ≠ ver := by
    rw [List.filter_cons_of_neg (by simp), List.filter_filter]
    simp
  simp only [rollBack, if_neg hid, OrderEntry.insertOrder, Option.getD_some, List.lookup_cons_self]
  cases hheld : e.submitted with
  | none => simp only [OrderEntry.dropSnapshot, hfilter]; rfl
  | some record =>
      simp only [OrderEntry.dropSnapshot, hfilter]
      cases placed <;> rfl

lemma placed_back (placing : Placing Spec) (req : ModifyRequest Spec) (f : Spec → Spec)
    {held : Option Spec} :
    (if held.isSome then ((statedOnto placing req held).map f).bind fun _ => held
      else (statedOnto placing req held).map f) = held ↔ held.isSome ∨ req.stated = none := by
  cases held with
  | some record =>
      have hsome : statedOnto placing req (some record) ≠ none := fun hnone =>
        Option.some_ne_none record (statedOnto_eq_none.1 hnone).2
      obtain ⟨spec, hspec⟩ := Option.ne_none_iff_exists'.1 hsome
      exact iff_of_true (by rw [hspec]; rfl) (Or.inl rfl)
  | none =>
      rw [if_neg (by simp), Option.map_eq_none_iff, statedOnto_eq_none]
      simp

/-- **A replace that does not go out leaves the records exactly where `GoesBackWhole` says.** -/
theorem undisturbed_iff (placing : Placing Spec) (restating : Restating Spec) {id : OrderId}
    (hid : id ≠ 0) (req : ModifyRequest Spec) (wrote : Bool) (e : OrderEntry Spec) :
    Undisturbed id e (sendReplace placing restating id req wrote e).1
      (sendReplace placing restating id req wrote e).2 ↔ GoesBackWhole placing req wrote e := by
  rcases modify_cases placing id req e with ⟨hnone, r, h⟩ | ⟨hheld, hwhy, r, h⟩ |
    ⟨hver, o, o', name, r, ho, h⟩
  · -- no such order
    rw [sendReplace, h, GoesBackWhole, hnone]
    exact iff_of_true rfl fun hno => absurd hno Bool.false_ne_true
  · -- refused: the placement has the statement on it already
    rw [sendReplace, h, GoesBackWhole]
    have hsame : { e with submitted := statedOnto placing req e.submitted } = e ↔
        statedOnto placing req e.submitted = e.submitted :=
      ⟨fun heq => congrArg OrderEntry.submitted heq, fun heq => by rw [heq]⟩
    refine hsame.trans ?_
    rw [forall_prop_of_true hheld]
    split
    · next hver =>
        obtain ⟨hstated, hplaced⟩ := statedOnto_eq_none.1 (hwhy.resolve_right (not_not.2 hver))
        exact iff_of_true ((statedOnto_eq_none.2 ⟨hstated, hplaced⟩).trans hplaced.symm)
          (Or.inr (Or.inr hstated))
    · exact Iff.rfl
  · -- it went to the wire
    have hheld : e.order.isSome := by rw [ho]; rfl
    rw [sendReplace, h, GoesBackWhole, forall_prop_of_true hheld, if_pos hver]
    cases wrote with
    | true => exact iff_of_true trivial (Or.inl rfl)
    | false =>
        rw [or_iff_right Bool.false_ne_true, ho]
        obtain ⟨f, hf⟩ : ∃ f : Spec → Spec, ∀ e' : OrderEntry Spec, e'.order = some o' →
            recordShape restating req e' = { e' with submitted := e'.submitted.map f } :=
          ⟨_, fun e' he' => by rw [recordShape, he']⟩
        have hback := rollBack_attempt hid e o o' name
          (chainName id (e.modifyVersion.getD 0 + 1)) (e.modifyVersion.getD 0 + 1)
          ((statedOnto placing req e.submitted).map f)
        refine (iff_of_eq (congrArg (Undisturbed id e · .failed)
          ((congrArg (fun e' => (rollBack id (some o) e').setOrderStatusForced .uncertain)
            (hf _ rfl)).trans hback))).trans ?_
        rw [← placed_back placing req f, Undisturbed, ho, Option.map_some]
        exact ⟨fun heq => congrArg OrderEntry.submitted heq, fun heq => by rw [heq]⟩

/-! ## Replaces of one order -/

def noRestating : Restating Unit where
  restate spec _ _ := spec
  describes _ _ := false

def statedWhole : ModifyRequest Unit := ⟨11, 100, 0, 0, 0, some ()⟩

/-- The write of a whole statement fails, of an order this session placed. -/
theorem undisturbed_iff_placed :
    Undisturbed 5 { restingEntry with submitted := some () }
      (sendReplace noPlacing noRestating 5 statedWhole false
        { restingEntry with submitted := some () }).1
      (sendReplace noPlacing noRestating 5 statedWhole false
        { restingEntry with submitted := some () }).2 :=
  (undisturbed_iff noPlacing noRestating (by decide) statedWhole false
    { restingEntry with submitted := some () }).2 fun _ => Or.inr (Or.inl rfl)

/-- **A statement stays behind**, of an order this session did not place: where its write fails, and
where no number is left for it. -/
theorem not_undisturbed :
    ¬ Undisturbed 5 restingEntry
        (sendReplace noPlacing noRestating 5 statedWhole false restingEntry).1
        (sendReplace noPlacing noRestating 5 statedWhole false restingEntry).2 ∧
      ¬ Undisturbed 5 { restingEntry with modifyVersion := some (2 ^ 32 - 1) }
        (sendReplace noPlacing noRestating 5 statedWhole true
          { restingEntry with modifyVersion := some (2 ^ 32 - 1) }).1
        (sendReplace noPlacing noRestating 5 statedWhole true
          { restingEntry with modifyVersion := some (2 ^ 32 - 1) }).2 := by
  refine ⟨fun h => ?_, fun h => ?_⟩
  · exact absurd (congrArg OrderEntry.submitted h) (by decide)
  · exact absurd (congrArg OrderEntry.submitted h) (by decide)

end IbkrDx
