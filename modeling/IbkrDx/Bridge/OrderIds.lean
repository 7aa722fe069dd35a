import Mathlib.Algebra.Group.Nat.Defs
import Mathlib.Data.List.AList
import IbkrDx.Lib.Watermark

/-!
# Order numbers kept across sessions

The file of order numbers that sessions share and what each session keeps beside it, from
`bridge/orders/ids.rs`.

* `Counters` — the next number of every account and client the file holds.
* `Counters.migrate` — a file written under account names, under their digests.
* `SavedIds.update` — the file brought up to date under its lock.
* `reserveOrderIds` — a run of numbers past the allocator and a floor.
* `OrderIds` — what a session keeps, and its operations.

An update is one step: the file is read, changed and replaced under a lock, and what fails of it is
its outcome.  The digest of an account is a parameter.
-/

namespace IbkrDx

def maxOrderId : ℕ := 2 ^ 63 - 2

/-- The largest `u64`. -/
def u64Max : ℕ := 2 ^ 64 - 1

/-! ## The file -/

abbrev ClientIds := AList fun _ : ℤ => ℕ

abbrev Counters := AList fun _ : String => ClientIds

/-- Whether a key is a digest: sixty-four digits of lowercase hex. -/
def isDigest (key : String) : Bool :=
  key.toList.length == 64
    && key.toList.all fun c => ('0' ≤ c && c ≤ '9') || ('a' ≤ c && c ≤ 'f')

namespace Counters

def held (key : String) (client : ℤ) (c : Counters) : Option ℕ :=
  (c.lookup key).bind (·.lookup client)

def put (key : String) (client : ℤ) (next : ℕ) (c : Counters) : Counters :=
  c.insert key (((c.lookup key).getD ∅).insert client next)

/-- One client's number joined to those filed, keeping the higher. -/
def join (filed : ClientIds) (client : ℤ) (next : ℕ) : ClientIds :=
  filed.insert client (max ((filed.lookup client).getD next) next)

def refile (digest : String → String) (c : Counters) (account : String) : Counters :=
  let rest := c.erase account
  rest.insert (digest account)
    (((c.lookup account).getD ∅).foldl join ((rest.lookup (digest account)).getD ∅))

def named (c : Counters) : List String := c.keys.filter (!isDigest ·)

/-- `migrate`, and whether there was anything to file anew. -/
def migrate (digest : String → String) (c : Counters) : Counters × Bool :=
  (c.named.foldl (refile digest) c, !c.named.isEmpty)

end Counters

inductive FileOutcome where
  | done
  /-- It failed before what it holds was read. -/
  | unread
  /-- It failed before the file was replaced, where it was to be. -/
  | unwritten
  deriving DecidableEq

structure SavedIds where
  key : String
  client : ℤ
  /-- The next number as the session last read or wrote it. -/
  next : ℕ
  deriving DecidableEq

/-- `SavedIds::update`: the file behind it, what the change gave where it was made, and the store
where nothing failed. -/
def SavedIds.update {T : Type} (digest : String → String) (outcome : FileOutcome)
    (change : ℕ → ℕ × T) (file : Counters) (store : SavedIds) :
    Counters × Option T × Option SavedIds :=
  if outcome = .unread then (file, none, none)
  else
    let (counters, migrated) := file.migrate digest
    let next := (counters.held store.key store.client).getD 1
    let (asked, value) := change next
    let raised := max asked next
    let kept := some { store with next := raised }
    if raised ≠ next ∨ migrated = true then
      if outcome = .unwritten then (file, some value, none)
      else (counters.put store.key store.client raised, some value, kept)
    else (file, some value, kept)

/-! ## A session -/

def noRunLeft (count first : ℕ) : String :=
  "this account has no run of " ++ toString count ++ " order ids left: the ids in use reach "
    ++ toString first ++ ", and an order above " ++ toString maxOrderId
    ++ " cannot be named back by the venue's reports"

/-- `reserve_order_ids`: the first of a run past the allocator and a floor, and the allocator behind
it. -/
def reserveIds (allocator count floor : ℕ) : Except String (ℕ × ℕ) :=
  let first := max allocator floor
  let last := first + (count - 1)
  if last ≤ maxOrderId then .ok (first, last + 1) else .error (noRunLeft count first)

structure OrderIds where
  /-- `next_order_id`, the client's own. -/
  allocator : ℕ := 0
  watermark : ℕ := 0
  used : ℕ := 0
  saved : Option SavedIds := none
  deriving DecidableEq

namespace OrderIds

def floor (s : OrderIds) : ℕ := min (s.watermark + 1) u64Max

def noteTheVenueNamed (id : ℕ) (s : OrderIds) : OrderIds :=
  { s with watermark := max s.watermark id }

def noteUsed (id : ℕ) (s : OrderIds) : OrderIds :=
  { s with used := max s.used id }.noteTheVenueNamed id

/-- A number the program chose itself, spent. -/
def spend (id : ℕ) (s : OrderIds) : OrderIds := { s with allocator := max s.allocator (id + 1) }

/-- `open_order_ids`.  `seen` is what the file held as it was read, where it is set and could be
read. -/
def openOrderIds (digest : String → String) (account : String) (client : ℤ)
    (seen : Option Counters) (outcome : FileOutcome) (file : Counters) : Counters × OrderIds :=
  let (file, next, store) := match seen with
    | none => (file, 1, none)
    | some seen =>
        let (counters, migrated) := seen.migrate digest
        let saved := (counters.held (digest account) client).getD 1
        let store : SavedIds := ⟨digest account, client, saved⟩
        if migrated then
          match store.update digest outcome (fun next => (next, ())) file with
          | (file, _, some store) => (file, max store.next 1, some store)
          | (file, _, none) => (file, max saved 1, none)
        else (file, max saved 1, some store)
  let opened : OrderIds := { used := next - 1, saved := store }
  (file, if 1 < next then opened.noteTheVenueNamed (next - 1) else opened)

def withSavedIds {T : Type} (digest : String → String) (outcome : FileOutcome)
    (change : ℕ → ℕ × T) (file : Counters) (s : OrderIds) : Counters × OrderIds × T :=
  match s.saved with
  | none => (file, s, (change 1).2)
  | some store =>
      let (file, value, store) := store.update digest outcome change file
      (file, { s with saved := store }, value.getD (change 1).2)

def saveOrderIds (digest : String → String) (next : ℕ) (outcome : FileOutcome) (file : Counters)
    (s : OrderIds) : Counters × OrderIds :=
  if s.saved.any fun store => store.next < next then
    let (file, s, _) := s.withSavedIds digest outcome (fun saved => (max saved next, ())) file
    (file, s)
  else (file, s)

def reserving (count : ℕ) (s : OrderIds) (saved : ℕ) : ℕ × Except String (ℕ × ℕ) :=
  match reserveIds s.allocator count (max saved s.floor) with
  | .ok (first, allocator) => (first + count, .ok (first, allocator))
  | .error why => (saved, .error why)

/-- `OrderState::reserve_order_ids`: the file and the session behind it, and the first of the
run. -/
def reserveOrderIds (digest : String → String) (count : ℕ) (outcome : FileOutcome)
    (file : Counters) (s : OrderIds) : Counters × OrderIds × Except String ℕ :=
  match s.withSavedIds digest outcome (s.reserving count) file with
  | (file, s, .ok (first, allocator)) => (file, { s with allocator := allocator }, .ok first)
  | (file, s, .error why) => (file, s, .error why)

def numberInMemory (s : OrderIds) : OrderIds × Except String ℕ :=
  match reserveIds s.allocator 1 s.floor with
  | .ok (first, allocator) => ({ s with allocator := allocator }, .ok first)
  | .error why => (s, .error why)

end OrderIds

end IbkrDx
