import Biztrip.Service.History

/-!
# Pages and filters

What the list calls have in common: the page that is asked for and the one that is
answered, the scopes, and how an empty filter counts as none. `Platform` is what the
queries take from outside the repository.
-/

namespace Biztrip

open Biztrip.Lib

/-- PostgreSQL's `ILIKE` and the time zone `Asia/Seoul`, of which the services use the start of a
day and the day of an instant. -/
structure Platform where
  ilike : String → String → Bool
  midnight : Int → Instant
  localDay : Instant → Int

/-- `%q%`. The wildcards in a search text are not escaped. -/
def Platform.search (P : Platform) (q column : String) : Bool := P.ilike column s!"%{q}%"

/-! ## Pages -/

/-- The query parameters `page` and `size`. -/
structure Paging where
  page : Nat := 1
  size : Nat := 20
  bounded : 1 ≤ page ∧ 1 ≤ size ∧ size ≤ 100 := by decide

/-- Where neither is sent. -/
def Paging.first : Paging := {}

structure Page (α : Type) where
  items : List α
  total : Nat
  page : Nat
  size : Nat
  deriving DecidableEq

/-- PostgreSQL's `OFFSET` is a `bigint`. -/
def Paging.cut {α : Type} (paging : Paging) (l : List α) : Result (List α) := do
  let offset := (paging.page - 1) * paging.size
  guardE (offset < 2 ^ 63) (.dataError "offset")
  return (l.drop offset).take paging.size

/-- Count the selected rows, and bring those of the page into the form of the reply. -/
def selectPage {α β κ : Type} [LinearOrder κ] (paging : Paging) (key : α → κ)
    (out : α → Result β) (rows : List α) : Result (Page β) := do
  let rowsOfPage ← paging.cut (orderBy key rows)
  let items ← mapE rowsOfPage out
  return ⟨items, rows.length, paging.page, paging.size⟩

/-! ## Filters -/

/-- A filter that is left out or empty lets everything through. -/
def given (o : Option String) : Option String := o.filter fun v => v ≠ ""

inductive Scope where
  | mine
  | approvals
  | all
  deriving DecidableEq, Repr

/-- `_scope_conditions`. Anybody may ask for what they are to approve, administrators for all. -/
def scopeConditions {ρ : Type} (userId : ρ → Int) (approverId : ρ → Option Int)
    (forbidden : AppError) (user : CurrentUser) : Scope → Result (ρ → Bool)
  | .mine => return fun r => userId r = user.id
  | .approvals => return fun r => approverId r = some user.id
  | .all => do
    guardE (user.role = .admin) (.app forbidden)
    return fun _ => true

/-! ## Names -/

/-- `load_user_names`, looked up for one user. -/
def userName (s : Store) (userId : Int) : Option String := (s.users.get userId).map User.name

/-- In Python an id of zero counts as none. -/
def approverName (s : Store) (approverId : Option Int) : Option String :=
  (approverId.filter fun i => i ≠ 0).bind (userName s)

/-! ## Timelines -/

structure TimelineEntry where
  id : Int
  action : ActivityAction
  fromStatus : Option String
  toStatus : Option String
  memo : Option String
  actorId : Int
  actorName : String
  createdAt : Instant
  deriving DecidableEq

def timeline (s : Store) (entityType : EntityType) (entityId : Int) : List TimelineEntry :=
  (timelineRows s entityType entityId).map fun p =>
    { id := p.1, action := p.2.action, fromStatus := p.2.fromStatus, toStatus := p.2.toStatus
      memo := p.2.memo, actorId := p.2.actorId, actorName := (userName s p.2.actorId).getD ""
      createdAt := p.2.createdAt }

end Biztrip
