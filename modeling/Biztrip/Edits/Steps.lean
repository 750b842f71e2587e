import Biztrip.Lib.Version
import Biztrip.System
import Mathlib.Logic.Function.Basic

/-!
# Item edits, step by step

`add_item`, `update_item` and `delete_item` in the five steps the database sees: read and
check, flush the statement on the items, sum the items, write the total, commit. Between
the steps the other request may take its own. A transaction sees what is committed and
what it has written itself, and a row it has written is locked until it commits, so a
statement of the other on that row waits (`waits`). The call of the service is the first
step and then the others with nothing in between (`plan_eq`).
-/

namespace Biztrip.Edits

open Biztrip.Lib Codes Expenses

/-! ## Requests -/

inductive EditCall where
  | add (reportId : Int) (payload : ExpenseItemCreate)
  | update (itemId : Int) (payload : ExpenseItemUpdate)
  | delete (itemId : Int)

structure EditRequest where
  env : Env
  userId : Int
  call : EditCall

def EditCall.expense : EditCall → ExpenseCall
  | .add reportId payload => .addItem reportId payload
  | .update itemId payload => .updateItem itemId payload
  | .delete itemId => .deleteItem itemId

def EditRequest.desk (r : EditRequest) : DeskRequest := ⟨r.env, r.userId, .expense r.call.expense⟩

/-- What a request has loaded and decided before it writes. -/
structure Edit where
  reportId : Int
  report : ExpenseReport
  item : RowWrite ExpenseItem

def EditCall.read (s : Store) (user : CurrentUser) : EditCall → Result Edit
  | .add reportId payload => do
    let report ← loadEditableReport s user reportId
    validateCodes s
      [⟨"EXPENSE_CATEGORY", "expense_category_code", some payload.expenseCategoryCode.val⟩]
    validateCenters s (payload.fundCenterCode.map Str.val) (payload.costCenterCode.map Str.val)
    let amount ← itemAmount s report reportId payload
    assertItemAmount amount
    checkSome payload.memo fun v => text "memo" v.val
    let amountKrw ← storeKrw "amount_krw" amount
    return ⟨reportId, report, .insert
      { reportId, cardTransactionId := payload.cardTransactionId
        expenseCategoryCode := payload.expenseCategoryCode.val, amountKrw
        memo := payload.memo.map Str.val, isExcluded := false
        fundCenterCode := payload.fundCenterCode.map Str.val
        costCenterCode := payload.costCenterCode.map Str.val }⟩
  | .update itemId payload => do
    let (item, report) ← loadItemForEdit s user itemId
    validateItemChanges s payload
    let item' ← assignItem item payload
    return ⟨item.reportId, report, .update itemId item item'⟩
  | .delete itemId => do
    let (item, report) ← loadItemForEdit s user itemId
    return ⟨item.reportId, report, .delete itemId⟩

def EditRequest.read (s : Store) (r : EditRequest) : Result Edit := do
  r.call.read s (← currentUser s r.userId)

/-- The services read, and then do the rest in `editItems`. -/
theorem plan_eq (s : Store) (r : EditRequest) :
    r.desk.plan s = r.read s >>= fun e => editItems s r.env e.reportId e.report e.item := by
  obtain ⟨env, userId, call⟩ := r
  show (currentUser s userId >>= fun user => call.expense.plan s env user) =
    (currentUser s userId >>= fun user => call.read s user) >>= _
  rw [bind_assoc]
  refine bind_congr fun user => ?_
  cases call with
  | add reportId payload =>
    simp only [EditCall.expense, ExpenseCall.plan, addItem, EditCall.read, bind_assoc, pure_bind]
  | update itemId payload =>
    simp only [EditCall.expense, ExpenseCall.plan, updateItem, EditCall.read, bind_assoc, pure_bind]
  | delete itemId =>
    simp only [EditCall.expense, ExpenseCall.plan, deleteItem, EditCall.read, bind_assoc, pure_bind]

/-! ## Phases -/

/-- When a request has found the other one committed: not at all, when it summed, or already when
it read. -/
inductive Sight where
  | nothing
  | atSum
  | atRead
  deriving DecidableEq, Repr

/-- How far a request is, with the versions it has written. -/
inductive Phase where
  | idle
  | read (e : Edit) (sight : Sight)
  | flushed (e : Edit) (item : Option (Version ExpenseItem)) (sight : Sight)
  | summed (e : Edit) (item : Option (Version ExpenseItem)) (total : Krw) (sight : Sight)
  | written (e : Edit) (item : Option (Version ExpenseItem))
      (report : Option (Version ExpenseReport)) (sight : Sight)
  | committed (e : Edit) (item : Option (Version ExpenseItem)) (sight : Sight)
  | failed (fault : Fault)

namespace Phase

/-- The version of an item that is not committed yet. -/
def item? : Phase → Option (Version ExpenseItem)
  | .flushed _ item _ | .summed _ item _ _ | .written _ item _ _ => item
  | _ => none

/-- The version of the report that is not committed yet. -/
def report? : Phase → Option (Version ExpenseReport)
  | .written _ _ report _ => report
  | _ => none

def isCommitted : Phase → Bool
  | .committed _ _ _ => true
  | _ => false

end Phase

structure Config where
  db : Store
  /-- The next key of an item. A sequence counts on, whatever becomes of a transaction. -/
  seq : Int
  phase : Bool → Phase

/-- A statement on the items waits for a lock on its row, or for a new row with the same unique
columns. -/
def waits (w : RowWrite ExpenseItem) : Option (Version ExpenseItem) → Bool
  | none => false
  | some (i, v) =>
    match w with
    | .insert row =>
      decide (row.cardTransactionId ≠ none) && v.any fun r =>
        decide ((r.reportId, r.cardTransactionId) = (row.reportId, row.cardTransactionId))
    | .update k old new => decide (new ≠ old) && decide (k = i)
    | .delete k => decide (k = i)

def inserts : RowWrite ExpenseItem → Bool
  | .insert _ => true
  | _ => false

namespace Config

def start (s : Store) : Config := ⟨s, s.items.next, fun _ => .idle⟩

def enter (c : Config) (i : Bool) (p : Phase) : Config :=
  { c with phase := Function.update c.phase i p }

def otherCommitted (c : Config) (i : Bool) : Bool := (c.phase !i).isCommitted

def read (c : Config) (r : EditRequest) (i : Bool) : Config :=
  match r.read c.db with
  | .error fault => c.enter i (.failed fault)
  | .ok e => c.enter i (.read e (if c.otherCommitted i then .atRead else .nothing))

def flush (c : Config) (r : EditRequest) (i : Bool) (e : Edit) (sight : Sight) : Config :=
  if waits e.item (c.phase !i).item? then c
  else
    match (do
      c.db.check (.item e.item)
      e.item.run c.seq r.env.txnNow Fault.staleData c.db.items) with
    | .error fault => c.enter i (.failed fault)
    | .ok item =>
      { c with seq := if inserts e.item then c.seq + 1 else c.seq }.enter i (.flushed e item sight)

/-- The committed store with the version of the item. -/
def visible (c : Config) (item : Option (Version ExpenseItem)) : Store :=
  { c.db with items := c.db.items.overlay item }

def sum (c : Config) (i : Bool) (e : Edit) (item : Option (Version ExpenseItem)) (sight : Sight) :
    Config :=
  match recalcTotal (c.visible item) e.reportId with
  | .error fault => c.enter i (.failed fault)
  | .ok total =>
    let sight := if sight = .nothing ∧ c.otherCommitted i = true then Sight.atSum else sight
    c.enter i (.summed e item total sight)

/-- The total is only sent if it differs from the one that was loaded. -/
def write (c : Config) (r : EditRequest) (i : Bool) (e : Edit)
    (item : Option (Version ExpenseItem)) (total : Krw) (sight : Sight) : Config :=
  let w := RowWrite.update e.reportId e.report { e.report with totalAmountKrw := total }
  if total ≠ e.report.totalAmountKrw ∧ (c.phase !i).report?.any fun v => v.1 = e.reportId then c
  else
    match w.run c.seq r.env.txnNow Fault.staleData c.db.reports with
    | .error fault => c.enter i (.failed fault)
    | .ok report => c.enter i (.written e item report sight)

def commit (c : Config) (i : Bool) (e : Edit) (item : Option (Version ExpenseItem))
    (report : Option (Version ExpenseReport)) (sight : Sight) : Config :=
  { c with db := { c.db with
      items := c.db.items.overlay item
      reports := c.db.reports.overlay report } }.enter i (.committed e item sight)

/-- Request `i` takes its next step, if it does not have to wait. -/
def step (req : Bool → EditRequest) (c : Config) (i : Bool) : Config :=
  match c.phase i with
  | .idle => c.read (req i) i
  | .read e sight => c.flush (req i) i e sight
  | .flushed e item sight => c.sum i e item sight
  | .summed e item total sight => c.write (req i) i e item total sight
  | .written e item report sight => c.commit i e item report sight
  | .committed _ _ _ => c
  | .failed _ => c

/-- An interleaving: whose turn it is, step by step. -/
def exec (req : Bool → EditRequest) (c : Config) (turns : List Bool) : Config :=
  turns.foldl (step req) c

end Config

end Biztrip.Edits
