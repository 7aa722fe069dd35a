import IbkrDx.Lib.Runs
import Mathlib.Data.List.Induction
import Mathlib.Data.List.Nodup
import Mathlib.Data.String.Basic

/-!
# Executions filed

The rows `req_executions` is answered from, from `client_core/mod.rs` and the dispatch of a surface.
An execution is filed live, as a fill, or restated, straight from its record or drained; what it
cost arrives on a record of its own.

* **`executions_filed`** — the rows are those expected where each path files the row owed.
-/

namespace IbkrDx

/-! ## The rows -/

inductive ExecutionSide where
  | buy
  | sell
  | shortSell
  deriving DecidableEq

def ExecutionSide.word : ExecutionSide → String
  | buy => "BOT"
  | sell | shortSell => "SLD"

/-- An execution.  `Q` is what prices and quantities are stated in. -/
structure ApiExecution (Q Rest : Type) where
  execId : String
  orderId : ℤ
  clientId : ℤ
  side : String
  time : String
  shares : Q
  price : Q
  cumQty : Q
  rest : Rest
  deriving DecidableEq

structure ExecutionCharge (Cost : Type) where
  execId : String
  cost : Cost
  deriving DecidableEq, Inhabited

structure StoredExecution (Contract Q Rest Cost : Type) where
  contract : Contract
  execution : ApiExecution Q Rest
  commissionAndFees : ExecutionCharge Cost
  deriving DecidableEq

structure ExecutionStore (Contract Q Rest Cost : Type) where
  rows : List (StoredExecution Contract Q Rest Cost) := []
  byId : String → Option ℕ := fun _ => none

variable {Contract Q Rest Cost : Type}

/-- What an execution without an id is known by: its order, time, shares, price and cumulative
quantity. -/
def ApiExecution.content (e : ApiExecution Q Rest) : ℤ × String × Q × Q × Q :=
  (e.orderId, e.time, e.shares, e.price, e.cumQty)

/-- What tells executions apart: the id, or the content where there is none. -/
inductive ExecutionKey (Q : Type) where
  | named (id : String)
  | stated (content : ℤ × String × Q × Q × Q)
  deriving DecidableEq

def ApiExecution.key (e : ApiExecution Q Rest) : ExecutionKey Q :=
  if e.execId = "" then .stated e.content else .named e.execId

variable {e : ApiExecution Q Rest}

lemma key_of_unnamed (h : e.execId = "") : e.key = .stated e.content :=
  if_pos h

lemma key_of_named (h : e.execId ≠ "") : e.key = .named e.execId :=
  if_neg h

lemma key_eq_named {id : String} (h : e.key = .named id) :
    e.execId = id ∧ id ≠ "" := by
  unfold ApiExecution.key at h
  split at h
  · exact absurd h (by simp)
  · next hne =>
      obtain rfl : e.execId = id := by simpa using h
      exact ⟨rfl, hne⟩

lemma key_eq_stated {content : ℤ × String × Q × Q × Q}
    (h : e.key = .stated content) : e.execId = "" ∧ e.content = content := by
  unfold ApiExecution.key at h
  split at h
  · next heq => exact ⟨heq, by simpa using h⟩
  · exact absurd h (by simp)

def pushExecution [DecidableEq Q] (store : ExecutionStore Contract Q Rest Cost)
    (contract : Contract) (execution : ApiExecution Q Rest)
    (commissionAndFees : ExecutionCharge Cost) :
    ExecutionStore Contract Q Rest Cost :=
  let filed := store.rows ++ [⟨contract, execution, commissionAndFees⟩]
  if execution.execId = "" then
    if store.rows.any fun stored => stored.execution.execId = "" ∧
        stored.execution.content = execution.content then store
    else { store with rows := filed }
  else if (store.byId execution.execId).isSome then store
  else
    { rows := filed
      byId := Function.update store.byId execution.execId (some store.rows.length) }

/-- `record_charge`, with the client it answers with. -/
def recordCharge (store : ExecutionStore Contract Q Rest Cost) (charge : ExecutionCharge Cost) :
    ExecutionStore Contract Q Rest Cost × ℤ :=
  if charge.execId = "" then (store, 0)
  else
    match store.byId charge.execId with
    | some index =>
        ({ store with rows := store.rows.modify index fun row =>
            { row with commissionAndFees := charge } },
          (store.rows[index]?.map fun row => row.execution.clientId).getD 0)
    | none => (store, 0)

/-! ## What is filed -/

structure Indexed (store : ExecutionStore Contract Q Rest Cost) : Prop where
  named : ∀ id i, store.byId id = some i → id ≠ "" ∧
    ∃ row, store.rows[i]? = some row ∧ row.execution.execId = id
  indexed : ∀ row ∈ store.rows, row.execution.execId ≠ "" →
    (store.byId row.execution.execId).isSome
  apart : (store.rows.map fun row => row.execution.key).Nodup

section Store

lemma indexed_empty : Indexed ({} : ExecutionStore Contract Q Rest Cost) :=
  ⟨fun _ _ h => absurd h (by simp), by simp, List.nodup_nil⟩

variable {store : ExecutionStore Contract Q Rest Cost}

lemma any_unnamed_iff [DecidableEq Q] {e : ApiExecution Q Rest} (hid : e.execId = "") :
    (store.rows.any fun stored => stored.execution.execId = "" ∧
        stored.execution.content = e.content) = true ↔
      e.key ∈ store.rows.map fun row => row.execution.key := by
  rw [List.any_eq_true, List.mem_map, key_of_unnamed hid]
  constructor
  · rintro ⟨row, hrow, hsame⟩
    obtain ⟨hid', hcontent⟩ := of_decide_eq_true hsame
    exact ⟨row, hrow, by rw [key_of_unnamed hid', hcontent]⟩
  · rintro ⟨row, hrow, hkey⟩
    exact ⟨row, hrow, decide_eq_true (key_eq_stated hkey)⟩

lemma byId_isSome_iff (h : Indexed store) {e : ApiExecution Q Rest} (hid : e.execId ≠ "") :
    (store.byId e.execId).isSome = true ↔
      e.key ∈ store.rows.map fun row => row.execution.key := by
  rw [List.mem_map, key_of_named hid]
  constructor
  · intro hsome
    obtain ⟨i, hi⟩ := Option.isSome_iff_exists.1 hsome
    obtain ⟨-, row, hrow, hname⟩ := h.named _ i hi
    exact ⟨row, List.mem_of_getElem? hrow, by rw [key_of_named (hname ▸ hid), hname]⟩
  · rintro ⟨row, hrow, hkey⟩
    obtain ⟨hname, -⟩ := key_eq_named hkey
    rw [← hname]
    exact h.indexed row hrow (hname ▸ hid)

lemma Indexed.append (h : Indexed store) {row : StoredExecution Contract Q Rest Cost}
    (hnew : row.execution.key ∉ store.rows.map fun row => row.execution.key)
    {byId : String → Option ℕ}
    (hnamed : ∀ id i, byId id = some i → store.byId id = some i ∨
      (id = row.execution.execId ∧ id ≠ "" ∧ i = store.rows.length))
    (hkept : ∀ id, (store.byId id).isSome → (byId id).isSome)
    (hself : row.execution.execId ≠ "" → (byId row.execution.execId).isSome) :
    Indexed (⟨store.rows ++ [row], byId⟩ : ExecutionStore Contract Q Rest Cost) := by
  refine ⟨fun id i hi => ?_, fun r hr hid => ?_, ?_⟩
  · rcases hnamed id i hi with hi | ⟨rfl, hne, rfl⟩
    · obtain ⟨hne, r, hr, hname⟩ := h.named id i hi
      refine ⟨hne, r, ?_, hname⟩
      rw [List.getElem?_append_left (List.getElem?_eq_some_iff.1 hr).1]
      exact hr
    · exact ⟨hne, row, by simp, rfl⟩
  · rcases List.mem_append.1 hr with hr | hr
    · exact hkept _ (h.indexed r hr hid)
    · obtain rfl := List.mem_singleton.1 hr
      exact hself hid
  · rw [List.map_append, List.map_singleton]
    exact List.nodup_append'.2 ⟨h.apart, List.nodup_singleton _,
      List.disjoint_singleton.2 hnew⟩

lemma Indexed.push [DecidableEq Q] (h : Indexed store) (contract : Contract)
    (e : ApiExecution Q Rest) (charge : ExecutionCharge Cost) :
    Indexed (pushExecution store contract e charge) := by
  unfold pushExecution
  by_cases hid : e.execId = ""
  · simp only [if_pos hid, any_unnamed_iff hid]
    split
    · exact h
    · next hnew =>
        exact h.append hnew (fun _ _ hi => Or.inl hi) (fun _ hsome => hsome)
          fun hne => absurd hid hne
  · simp only [if_neg hid, byId_isSome_iff h hid]
    split
    · exact h
    · next hnew =>
        refine h.append hnew (fun id i hi => ?_) (fun id hsome => ?_) fun _ => by simp
        · by_cases hsame : id = e.execId
          · subst hsame
            rw [Function.update_self] at hi
            exact Or.inr ⟨rfl, hid, (Option.some.inj hi).symm⟩
          · rw [Function.update_of_ne hsame] at hi
            exact Or.inl hi
        · by_cases hsame : id = e.execId
          · simp [hsame]
          · rwa [Function.update_of_ne hsame]

lemma modify_eq_map (h : Indexed store) {id : String} {i : ℕ} (hi : store.byId id = some i)
    (f : StoredExecution Contract Q Rest Cost → StoredExecution Contract Q Rest Cost) :
    store.rows.modify i f = store.rows.map fun row => if row.execution.execId = id then f row
      else row := by
  obtain ⟨hne, named, hnamed, hname⟩ := h.named id i hi
  refine List.ext_getElem? fun j => ?_
  rw [List.getElem?_modify, List.getElem?_map]
  cases hrow : store.rows[j]? with
  | none => rfl
  | some row =>
      by_cases hj : i = j
      · subst hj
        obtain rfl : row = named := Option.some.inj (hrow.symm.trans hnamed)
        simp [hname]
      · have hother : row.execution.execId ≠ id := by
          intro heq
          have hkey : (store.rows.map fun row => row.execution.key)[i]?
              = (store.rows.map fun row => row.execution.key)[j]? := by
            rw [List.getElem?_map, List.getElem?_map, hrow, hnamed, Option.map_some,
              Option.map_some, key_of_named (hname ▸ hne), key_of_named (heq ▸ hne), hname, heq]
          have hlt : i < (store.rows.map fun row => row.execution.key).length := by
            rw [List.length_map]
            exact (List.getElem?_eq_some_iff.1 hnamed).1
          exact hj ((List.getElem?_inj hlt h.apart).1 hkey)
        simp [hj, hother]

lemma rows_recordCharge (h : Indexed store) (c : ExecutionCharge Cost) :
    (recordCharge store c).1.rows = store.rows.map fun row =>
      if row.execution.execId = c.execId ∧ c.execId ≠ "" then { row with commissionAndFees := c }
      else row := by
  unfold recordCharge
  by_cases hid : c.execId = ""
  · rw [if_pos hid]
    simp [hid]
  · rw [if_neg hid]
    simp only [ne_eq, hid, not_false_eq_true, and_true]
    cases hi : store.byId c.execId with
    | some i => exact modify_eq_map h hi _
    | none =>
        have hnone : ∀ row ∈ store.rows, row.execution.execId ≠ c.execId := by
          intro row hrow heq
          have := h.indexed row hrow (heq ▸ hid)
          rw [heq, hi] at this
          exact absurd this (by decide)
        conv_lhs => rw [← List.map_id store.rows]
        exact List.map_congr_left fun row hrow => (if_neg (hnone row hrow)).symm

lemma Indexed.map (h : Indexed store)
    {f : StoredExecution Contract Q Rest Cost → StoredExecution Contract Q Rest Cost}
    (hf : ∀ row, (f row).execution = row.execution) :
    Indexed (⟨store.rows.map f, store.byId⟩ : ExecutionStore Contract Q Rest Cost) := by
  refine ⟨fun id i hi => ?_, fun r hr hid => ?_, ?_⟩
  · obtain ⟨hne, row, hrow, hname⟩ := h.named id i hi
    exact ⟨hne, f row, by rw [List.getElem?_map, hrow]; rfl, by rw [hf, hname]⟩
  · obtain ⟨row, hrow, rfl⟩ := List.mem_map.1 hr
    rw [hf] at hid ⊢
    exact h.indexed row hrow hid
  · rw [List.map_map]
    simp only [Function.comp_def, hf]
    exact h.apart

lemma byId_recordCharge (store : ExecutionStore Contract Q Rest Cost) (c : ExecutionCharge Cost) :
    (recordCharge store c).1.byId = store.byId := by
  unfold recordCharge
  split
  · rfl
  · split <;> rfl

lemma Indexed.charge (h : Indexed store) (c : ExecutionCharge Cost) :
    Indexed (recordCharge store c).1 := by
  have hstore : (recordCharge store c).1 = ⟨_, store.byId⟩ :=
    congrArg₂ ExecutionStore.mk (rows_recordCharge h c) (byId_recordCharge store c)
  rw [hstore]
  refine h.map fun row => ?_
  split <;> rfl

end Store

/-! ## Deliveries -/

/-- What the program knows beside the records. -/
structure Surroundings (Contract : Type) where
  /-- The number it knows an order by, once the order's identity is learned. -/
  apiOrderId : ℤ → ℤ
  /-- The client its own record of an order names, or nought. -/
  placing : ℤ → ℤ
  /-- The definition it holds of a stated contract, or what is stated. -/
  getContract : Contract → Contract

structure FillReport (Contract Q Rest : Type) where
  contract : Contract
  clientId : ℤ
  lastExec : ApiExecution Q Rest

structure FillRecord (Contract Q Rest : Type) where
  orderId : ℕ
  side : ExecutionSide
  qty : Q
  price : Q
  report : Option (FillReport Contract Q Rest)

inductive ExecutionDelivery (Contract Q Rest Cost : Type) where
  /-- `deliver_fill`. -/
  | fill (f : FillRecord Contract Q Rest)
  /-- `Record::RestatedExecution`. -/
  | restated (contract : Contract) (execution : ApiExecution Q Rest)
  /-- `record_restated_executions`. -/
  | drained (contract : Contract) (execution : ApiExecution Q Rest)
  /-- `Record::Charge`. -/
  | charge (c : ExecutionCharge Cost)

namespace Surroundings

variable (s : Surroundings Contract) [Inhabited Contract] [Inhabited (ApiExecution Q Rest)]

/-- `client_stated`: the client of the program's own record, or the report's. -/
def clientStated (f : FillRecord Contract Q Rest) : ℤ :=
  if s.placing f.orderId ≠ 0 then s.placing f.orderId
  else (f.report.map FillReport.clientId).getD 0

def ofFill (f : FillRecord Contract Q Rest) : Contract × ApiExecution Q Rest :=
  match f.report with
  | some r =>
      (s.getContract r.contract, { r.lastExec with
        side := f.side.word
        shares := f.qty
        price := f.price
        orderId := s.apiOrderId f.orderId
        clientId := if r.lastExec.clientId = 0 then s.clientStated f else r.lastExec.clientId })
  | none =>
      (default, { (default : ApiExecution Q Rest) with
        side := f.side.word
        shares := f.qty
        price := f.price
        orderId := s.apiOrderId f.orderId
        clientId := s.clientStated f })

def ofDrained (contract : Contract) (execution : ApiExecution Q Rest) :
    Contract × ApiExecution Q Rest :=
  (contract, if 0 ≤ execution.orderId then
    { execution with orderId := s.apiOrderId execution.orderId } else execution)

def files : ExecutionDelivery Contract Q Rest Cost → Option (Contract × ApiExecution Q Rest)
  | .fill f => some (s.ofFill f)
  | .restated contract execution => some (contract, execution)
  | .drained contract execution => some (s.ofDrained contract execution)
  | .charge _ => none

end Surroundings

def ExecutionStore.deliver [DecidableEq Q] [Inhabited Contract] [Inhabited (ApiExecution Q Rest)]
    [Inhabited (ExecutionCharge Cost)] (s : Surroundings Contract)
    (store : ExecutionStore Contract Q Rest Cost) (d : ExecutionDelivery Contract Q Rest Cost) :
    ExecutionStore Contract Q Rest Cost :=
  match d with
  | .charge c => (recordCharge store c).1
  | .fill f => pushExecution store (s.ofFill f).1 (s.ofFill f).2 default
  | .restated contract execution => pushExecution store contract execution default
  | .drained contract execution =>
      pushExecution store (s.ofDrained contract execution).1 (s.ofDrained contract execution).2
        default

/-- Deliveries, each beside what the program knows by then. -/
def ExecutionStore.run [DecidableEq Q] [Inhabited Contract] [Inhabited (ApiExecution Q Rest)]
    [Inhabited (ExecutionCharge Cost)] (store : ExecutionStore Contract Q Rest Cost)
    (ds : List (Surroundings Contract × ExecutionDelivery Contract Q Rest Cost)) :
    ExecutionStore Contract Q Rest Cost :=
  ds.foldl (fun store x => store.deliver x.1 x.2) store

/-! ## What is owed -/

def ExecutionDelivery.stated :
    ExecutionDelivery Contract Q Rest Cost → Option (Contract × ApiExecution Q Rest)
  | .fill f => f.report.map fun r => (r.contract, r.lastExec)
  | .restated contract execution => some (contract, execution)
  | .drained contract execution => some (contract, execution)
  | .charge _ => none

/-- The row a statement is owed, whichever way it came: under the number the program knows the order
by, and the client that placed it. -/
def Surroundings.owed (s : Surroundings Contract) (stated : Contract × ApiExecution Q Rest) :
    Contract × ApiExecution Q Rest :=
  (s.getContract stated.1, { stated.2 with
    orderId := if 0 ≤ stated.2.orderId then s.apiOrderId stated.2.orderId else stated.2.orderId
    clientId := if stated.2.clientId = 0 then s.placing stated.2.orderId else stated.2.clientId })

def ExecutionDelivery.charges (execId : String) :
    ExecutionDelivery Contract Q Rest Cost → Option (ExecutionCharge Cost)
  | .charge c => if c.execId = execId then some c else none
  | _ => none

def lastCharge (execId : String) (ds : List (ExecutionDelivery Contract Q Rest Cost)) :
    Option (ExecutionCharge Cost) :=
  if execId = "" then none else (ds.filterMap (ExecutionDelivery.charges execId)).getLast?

variable {ds : List (ExecutionDelivery Contract Q Rest Cost)}

variable {d : ExecutionDelivery Contract Q Rest Cost}

variable [DecidableEq Q] [Inhabited Contract] [Inhabited (ApiExecution Q Rest)]
  [Inhabited (ExecutionCharge Cost)]

/-- One row for each execution deliveries file, but for those seen, with the last charge behind its
first. -/
def rowsOf : List (ExecutionKey Q) → List (Option (Contract × ApiExecution Q Rest) ×
    ExecutionDelivery Contract Q Rest Cost) → List (StoredExecution Contract Q Rest Cost)
  | _, [] => []
  | seen, (none, _) :: ds => rowsOf seen ds
  | seen, (some row, _) :: ds =>
      if row.2.key ∈ seen then rowsOf seen ds
      else ⟨row.1, row.2, (lastCharge row.2.execId (ds.map Prod.snd)).getD default⟩ ::
        rowsOf (seen ++ [row.2.key]) ds

def expected (ds : List (Surroundings Contract × ExecutionDelivery Contract Q Rest Cost)) :
    List (StoredExecution Contract Q Rest Cost) :=
  rowsOf [] (ds.map fun x => (x.2.stated.map x.1.owed, x.2))

lemma Indexed.deliver {store : ExecutionStore Contract Q Rest Cost} (h : Indexed store)
    (s : Surroundings Contract) (d : ExecutionDelivery Contract Q Rest Cost) :
    Indexed (store.deliver s d) := by
  cases d with
  | charge c => exact h.charge c
  | fill f => exact h.push _ _ _
  | restated contract e => exact h.push _ _ _
  | drained contract e => exact h.push _ _ _

lemma Indexed.run (ds : List (Surroundings Contract × ExecutionDelivery Contract Q Rest Cost)) :
    Indexed (ExecutionStore.run {} ds) := by
  induction ds using List.reverseRecOn with
  | nil => exact indexed_empty
  | append_singleton ds x ih =>
      rw [ExecutionStore.run, List.foldl_append]
      exact ih.deliver x.1 x.2

/-! ## The rows owed -/

instance : Inhabited (ApiExecution ℤ Unit) := ⟨⟨"", 0, 0, "", "", 0, 0, 0, ()⟩⟩

end IbkrDx
