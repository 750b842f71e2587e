import Biztrip.Model.Rows

/-!
# Document numbers

`app/services/numbering.py`: the next number of a year is the text maximum of
the numbers with the year's heading, plus one.
-/

namespace Biztrip.Numbering

open Biztrip.Lib

/-- The database's `max` over texts. -/
def maxText : List String → Option String
  | [] => none
  | t :: ts =>
    match maxText ts with
    | none => some t
    | some m => some (if m < t then t else m)

/-- `int` of a text of decimal digits. -/
def readInt (cs : List Char) : Option Nat :=
  if cs ≠ [] ∧ cs.all Char.isDigit then
    some (cs.foldl (fun n c => n * 10 + (c.toNat - '0'.toNat)) 0)
  else none

/-- `f"{n:04d}"`. -/
def pad4 (n : Nat) : String :=
  let digits := Nat.toDigits 10 n
  .ofList (List.replicate (4 - digits.length) '0' ++ digits)

/-- The number after the largest of `existing` under `head`. -/
def nextNo (head : String) (existing : List String) : Result String := do
  let sequence ←
    match maxText (existing.filter fun no => no.toList.take head.toList.length = head.toList) with
    | none => .ok 1
    | some last => do
      let n ← getE (readInt (last.toList.drop head.toList.length)) .valueError
      .ok (n + 1)
  return head ++ pad4 sequence

def nextTripNo (s : Store) (today : Date) : Result String :=
  nextNo s!"BT-{today.year}-" (s.trips.rows.map fun p => p.2.tripNo)

def nextReportNo (s : Store) (today : Date) : Result String :=
  nextNo s!"EX-{today.year}-" (s.reports.rows.map fun p => p.2.reportNo)

example :
    nextNo "BT-2026-" ["BT-2026-0009", "BT-2025-0044", "BT-2026-0010"] = .ok "BT-2026-0011" := by
  decide

end Biztrip.Numbering
