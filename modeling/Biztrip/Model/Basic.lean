import Mathlib.Algebra.Ring.Int.Defs
import Mathlib.Data.List.TakeWhile
import Mathlib.Data.Rat.Defs
import Biztrip.Lib.Guard

/-!
# Enumerations, errors and dates

The enumerations of `app/enums.py`, the application errors of `app/errors.py`
with the other ways a request can fail (`Fault`), calendar dates, and the
environment a request runs in: the clocks it reads and the random text it draws.
-/

namespace Biztrip

open Biztrip.Lib

/-! ## Enumerations -/

inductive TripStatus where
  | draft
  | submitted
  | approved
  | rejected
  | completed
  | settled
  deriving DecidableEq, Repr

def TripStatus.value : TripStatus → String
  | .draft => "DRAFT"
  | .submitted => "SUBMITTED"
  | .approved => "APPROVED"
  | .rejected => "REJECTED"
  | .completed => "COMPLETED"
  | .settled => "SETTLED"

inductive ExpenseReportStatus where
  | draft
  | submitted
  | approved
  | rejected
  deriving DecidableEq, Repr

def ExpenseReportStatus.value : ExpenseReportStatus → String
  | .draft => "DRAFT"
  | .submitted => "SUBMITTED"
  | .approved => "APPROVED"
  | .rejected => "REJECTED"

inductive UserRole where
  | employee
  | manager
  | admin
  deriving DecidableEq, Repr

/-- Where an account stands between application and approval. -/
inductive UserStatus where
  | pending
  | active
  | rejected
  deriving DecidableEq, Repr

def UserStatus.value : UserStatus → String
  | .pending => "PENDING"
  | .active => "ACTIVE"
  | .rejected => "REJECTED"

inductive ApiKeyScope where
  | tripsRead
  | tripsWrite
  | expensesRead
  | expensesWrite
  | cardsRead
  | admin
  deriving DecidableEq, Repr

def ApiKeyScope.value : ApiKeyScope → String
  | .tripsRead => "trips:read"
  | .tripsWrite => "trips:write"
  | .expensesRead => "expenses:read"
  | .expensesWrite => "expenses:write"
  | .cardsRead => "cards:read"
  | .admin => "admin"

/-- The scopes in declaration order. -/
def ApiKeyScope.all : List ApiKeyScope :=
  [.tripsRead, .tripsWrite, .expensesRead, .expensesWrite, .cardsRead, .admin]

inductive NotificationType where
  | tripSubmitted
  | tripApproved
  | tripRejected
  | expenseSubmitted
  | expenseApproved
  | expenseRejected
  deriving DecidableEq, Repr

inductive ActivityAction where
  | created
  | updated
  | submitted
  | approved
  | rejected
  | completed
  | settled
  deriving DecidableEq, Repr

inductive EntityType where
  | trip
  | expenseReport
  deriving DecidableEq, Repr

/-! ## Errors -/

/-- The subclasses of `AppError`; the base class itself is never raised. -/
inductive ErrorKind where
  | validation
  | auth
  | forbidden
  | notFound
  | conflict
  deriving DecidableEq, Repr

structure AppError where
  kind : ErrorKind
  code : String
  message : String
  field : Option String
  deriving DecidableEq, Repr

/-- `status_code`. -/
def AppError.statusCode (e : AppError) : Nat :=
  match e.kind with
  | .validation => 400
  | .auth => 401
  | .forbidden => 403
  | .notFound => 404
  | .conflict => 409

/-- Application errors blame the client, so an agent does not retry them. -/
theorem AppError.statusCode_bounds (e : AppError) : 400 ≤ e.statusCode ∧ e.statusCode < 500 := by
  unfold AppError.statusCode
  split <;> decide

def validationError (code message : String) (field : Option String) : AppError :=
  ⟨.validation, code, message, field⟩

def authError (code message : String) : AppError := ⟨.auth, code, message, none⟩

def forbiddenError (code message : String) : AppError := ⟨.forbidden, code, message, none⟩

def notFoundError (code message : String) : AppError := ⟨.notFound, code, message, none⟩

def conflictError (code message : String) (field : Option String) : AppError :=
  ⟨.conflict, code, message, field⟩

/-- A declared constraint the database refuses to break. -/
inductive Violation where
  | notNull (column : String)
  | unique (columns : String)
  | foreignKey (column : String)
  deriving DecidableEq, Repr

/-- The ways a request fails. Everything but `app` reaches the catch-all handler and is answered
with status 500. -/
inductive Fault where
  | app (e : AppError)
  /-- Python raised: an operand or attribute of the wrong type. -/
  | typeError
  /-- Python raised: a text that is no number. -/
  | valueError
  /-- Python raised: a table without the key. -/
  | keyError
  /-- Python raised: a division by zero. -/
  | zeroDivisionError
  /-- Python raised: a date off the calendar. -/
  | overflowError
  | integrity (v : Violation)
  /-- The driver or a column type has no representation for the value. -/
  | dataError (column : String)
  /-- A number with more digits than its column. -/
  | numericOverflow
  /-- An `UPDATE` by primary key matched no row. -/
  | staleData
  /-- The reply does not fit its declared schema. -/
  | responseInvalid (field : String)
  deriving DecidableEq, Repr

abbrev Result := Except Fault

def raise {α : Type} (e : AppError) : Result α := .error (.app e)

/-! ## Values the database can carry -/

/-- The range of a PostgreSQL `integer`. -/
def IsInt4 (n : Int) : Prop := -2 ^ 31 ≤ n ∧ n < 2 ^ 31

instance (n : Int) : Decidable (IsInt4 n) := inferInstanceAs (Decidable (_ ∧ _))

def int4 (column : String) (n : Int) : Result Unit := guardE (IsInt4 n) (.dataError column)

/-- PostgreSQL text cannot hold the null character. -/
def IsText (s : String) : Prop := '\x00' ∉ s.toList

instance (s : String) : Decidable (IsText s) := inferInstanceAs (Decidable (¬ _))

def text (column : String) (s : String) : Result Unit := guardE (IsText s) (.dataError column)

/-- A text of `lo` to `hi` characters, as `Field(min_length=lo, max_length=hi)` admits it. Every
text column is at least as wide as the schema field that is written to it. -/
structure Str (lo hi : Nat) where
  val : String
  bounded : lo ≤ val.length ∧ val.length ≤ hi := by decide
  deriving DecidableEq, Repr

/-- A text of at least `lo` characters. -/
structure StrMin (lo : Nat) where
  val : String
  bounded : lo ≤ val.length := by decide
  deriving DecidableEq, Repr

mutual

/-- A parsed JSON value. Python's parser also admits `NaN` and the infinities. -/
inductive Json where
  | null
  | bool (b : Bool)
  | number (q : ℚ)
  | nonFinite
  | string (s : String)
  | array (l : JsonArray)
  | object (l : JsonObject)
  deriving DecidableEq

inductive JsonArray where
  | nil
  | cons (a : Json) (l : JsonArray)
  deriving DecidableEq

inductive JsonObject where
  | nil
  | cons (key : String) (a : Json) (l : JsonObject)
  deriving DecidableEq

end

mutual

/-- What a `jsonb` column can hold: no null character in a text, no non-finite number. -/
def Json.storable : Json → Bool
  | .nonFinite => false
  | .string s => decide (IsText s)
  | .array l => l.storable
  | .object l => l.storable
  | _ => true

def JsonArray.storable : JsonArray → Bool
  | .nil => true
  | .cons a l => a.storable && l.storable

def JsonObject.storable : JsonObject → Bool
  | .nil => true
  | .cons key a l => decide (IsText key) && a.storable && l.storable

end

/-! ## Python texts -/

/-- The characters `str.strip` removes. -/
def isSpace (c : Char) : Bool :=
  let n := c.toNat
  (0x09 ≤ n && n ≤ 0x0d) || (0x1c ≤ n && n ≤ 0x20) || n = 0x85 || n = 0xa0 || n = 0x1680 ||
    (0x2000 ≤ n && n ≤ 0x200a) || n = 0x2028 || n = 0x2029 || n = 0x202f || n = 0x205f || n = 0x3000

/-- `str.strip()`. -/
def strip (s : String) : String :=
  .ofList ((s.toList.dropWhile isSpace).reverse.dropWhile isSpace).reverse

theorem mem_dropWhile_of_neg {α : Type} {p : α → Bool} {a : α} :
    ∀ {l : List α}, a ∈ l → p a = false → a ∈ l.dropWhile p := by
  intro l
  induction l with
  | nil => exact fun h _ => h
  | cons b l ih =>
    intro h ha
    rw [List.dropWhile_cons]
    split
    · next hb =>
      rcases List.mem_cons.mp h with rfl | h
      · rw [ha] at hb
        cases hb
      · exact ih h ha
    · exact h

/-- Something is left if and only if some character is no space. -/
theorem strip_ne_empty_iff {s : String} : strip s ≠ "" ↔ ∃ c ∈ s.toList, isSpace c = false := by
  unfold strip
  constructor
  · intro h
    by_contra hall
    have hnil : s.toList.dropWhile isSpace = [] := by
      refine List.dropWhile_eq_nil_iff.mpr fun c hc => ?_
      by_contra hs
      exact hall ⟨c, hc, by simpa using hs⟩
    rw [hnil] at h
    exact h rfl
  · rintro ⟨c, hc, hs⟩ h
    have hfront := mem_dropWhile_of_neg hc hs
    have hback := mem_dropWhile_of_neg (List.mem_reverse.mpr hfront) hs
    have hnil : ((s.toList.dropWhile isSpace).reverse.dropWhile isSpace).reverse = [] := by
      simpa using congrArg String.toList h
    rw [List.reverse_eq_nil_iff] at hnil
    rw [hnil] at hback
    cases hback

/-- What is left has no need of another `strip`. -/
theorem strip_strip_ne_empty {s : String} (h : strip s ≠ "") : strip (strip s) ≠ "" := by
  obtain ⟨c, hc, hs⟩ := strip_ne_empty_iff.mp h
  refine strip_ne_empty_iff.mpr ⟨c, ?_, hs⟩
  unfold strip
  rw [String.toList_ofList, List.mem_reverse]
  exact mem_dropWhile_of_neg (List.mem_reverse.mpr (mem_dropWhile_of_neg hc hs)) hs

/-- How Python formats `None` and a text in an f-string. -/
def optText (o : Option String) : String := o.getD "None"

/-! ## Dates and clocks -/

/-- A Python `date`, by its proleptic Gregorian ordinal: `0001-01-01` to `9999-12-31`. -/
structure Date where
  ordinal : Nat
  valid : 1 ≤ ordinal ∧ ordinal ≤ 3652059
  deriving DecidableEq, Repr

instance : LT Date := ⟨fun a b => a.ordinal < b.ordinal⟩

instance (a b : Date) : Decidable (a < b) := inferInstanceAs (Decidable (a.ordinal < b.ordinal))

instance : LE Date := ⟨fun a b => a.ordinal ≤ b.ordinal⟩

instance (a b : Date) : Decidable (a ≤ b) := inferInstanceAs (Decidable (a.ordinal ≤ b.ordinal))

/-- The year of an ordinal, as `datetime._ord2ymd` computes it. -/
def Date.year (d : Date) : Nat :=
  let n := d.ordinal - 1
  let n400 := n / 146097
  let n := n % 146097
  let n100 := n / 36524
  let n := n % 36524
  let n4 := n / 1461
  let n := n % 1461
  let n1 := n / 365
  let year := n400 * 400 + 1 + n100 * 100 + n4 * 4 + n1
  -- the last day of a leap cycle falls into a fifth year of it
  if n1 = 4 ∨ n100 = 4 then year - 1 else year

example : Date.year ⟨739866, by decide⟩ = 2026 := by decide

/-- Microseconds of UTC since the epoch. -/
abbrev Instant := Int

/-- What a request reads from its surroundings. -/
structure Env where
  /-- `datetime.now(timezone.utc)` in the application. -/
  now : Instant
  /-- `now()` in the database: the start of the transaction. -/
  txnNow : Instant
  /-- `date.today()`. -/
  today : Date
  /-- `datetime.now(timezone.utc).date()`. -/
  utcToday : Date
  /-- `bcrypt.gensalt()`. -/
  salt : String
  /-- `secrets.token_hex(16)`. -/
  tokenHex : String

end Biztrip
