import Mathlib.Data.List.Sort
import Biztrip.Model.Rows

/-!
# Common codes

`app/services/codes.py`: the batch validation of code values, and the reads of
the active groups. A read builds its reply from stored rows; the reply's schema
declares `extra` as an object.
-/

namespace Biztrip.Codes

open Biztrip.Lib

/-! ## Validation -/

/-- A value to be checked: its group, the name of its field in the reply, and the value. -/
structure CodeSpec where
  groupCode : String
  field : String
  value : Option String

def assertValidCode (groupCode : String) (value : Option String) (allowed : List String)
    (field : String) : Result Unit :=
  guardE (∃ v ∈ allowed, value = some v) <| .app <|
    validationError "INVALID_CODE" s!"{groupCode} 그룹에 없는 코드값입니다: {optText value}" (some field)

/-- A dictionary built from rows: a later row replaces an earlier one. -/
def lookup (rows : List (String × Int)) (key : String) : Option Int :=
  (rows.reverse.find? fun p => p.1 = key).map Prod.snd

/-- The checks, given the rows of the two queries: all groups first, then all values. -/
def validateRows (specs : List CodeSpec) (groupRows : List (String × Int))
    (codeRows : List (Int × String)) : Result Unit := do
  forE specs fun spec =>
    guardE (lookup groupRows spec.groupCode).isSome <| .app <|
      validationError "UNKNOWN_CODE_GROUP" s!"존재하지 않는 코드그룹입니다: {spec.groupCode}"
        (some spec.field)
  forE specs fun spec => do
    let groupId ← getE (lookup groupRows spec.groupCode) .keyError
    let allowed := (codeRows.filter fun p => p.1 = groupId).map Prod.snd
    assertValidCode spec.groupCode spec.value allowed spec.field

/-- The active groups among the wanted ones. -/
def groupRows (s : Store) (wanted : List String) : List (String × Int) :=
  (s.codeGroups.rows.filter fun p => p.2.groupCode ∈ wanted && p.2.isActive).map fun p =>
    (p.2.groupCode, p.1)

/-- The active codes of the given groups. -/
def codeRows (s : Store) (groupIds : List Int) : List (Int × String) :=
  (s.codes.rows.filter fun p => p.2.groupId ∈ groupIds && p.2.isActive).map fun p =>
    (p.2.groupId, p.2.code)

def validateCodes (s : Store) (specs : List CodeSpec) : Result Unit :=
  if specs = [] then .ok ()
  else
    let groups := groupRows s (specs.map CodeSpec.groupCode)
    validateRows specs groups (codeRows s (groups.map Prod.snd))

/-- Validation raises nothing but application errors: the second pass finds every group. -/
theorem app_of_validateRows_eq_error {specs : List CodeSpec} {groups : List (String × Int)}
    {codes : List (Int × String)} {e : Fault} (h : validateRows specs groups codes = .error e) :
    ∃ a, e = .app a := by
  rcases bind_eq_error.mp h with h | ⟨_, hgroups, h⟩
  · obtain ⟨spec, -, h⟩ := mem_of_forE_eq_error h
    exact ⟨_, (guardE_eq_error.mp h).2⟩
  · obtain ⟨spec, hspec, h⟩ := mem_of_forE_eq_error h
    have hfound := guardE_eq_ok.mp (forE_eq_ok.mp hgroups spec hspec)
    rcases bind_eq_error.mp h with h | ⟨groupId, -, h⟩
    · rw [(getE_eq_error.mp h).1] at hfound
      cases hfound
    · exact ⟨_, (guardE_eq_error.mp h).2⟩

theorem app_of_validateCodes_eq_error {s : Store} {specs : List CodeSpec} {e : Fault}
    (h : validateCodes s specs = .error e) : ∃ a, e = .app a := by
  unfold validateCodes at h
  split at h
  · cases h
  · exact app_of_validateRows_eq_error h

/-- A value that passed is not null. -/
theorem ne_none_of_validateCodes {s : Store} {specs : List CodeSpec} {spec : CodeSpec} {u : Unit}
    (h : validateCodes s specs = .ok u) (hspec : spec ∈ specs) : spec.value ≠ none := by
  unfold validateCodes at h
  split at h
  · next hnil =>
    rw [hnil] at hspec
    cases hspec
  · obtain ⟨_, -, h⟩ := bind_eq_ok.mp h
    obtain ⟨groupId, -, h⟩ := bind_eq_ok.mp (forE_eq_ok.mp h spec hspec)
    obtain ⟨v, -, hv⟩ := guardE_eq_ok.mp h
    rw [hv]
    exact Option.some_ne_none v

/-! ## Reads -/

structure CodeOut where
  code : String
  name : String
  sortOrder : Int
  extra : JsonObject
  deriving DecidableEq

structure CodeGroupOut where
  groupCode : String
  name : String
  description : Option String
  codes : List CodeOut
  deriving DecidableEq

/-- The schema's check of a stored `extra`. -/
def asObject : Json → Result JsonObject
  | .object o => .ok o
  | _ => .error (.responseInvalid "extra")

/-- The codes of a group: `CodeGroup.codes`. -/
def codesOf (s : Store) (groupId : Int) : List (Int × Code) :=
  s.codes.rows.filter fun p => p.2.groupId = groupId

def codeOut (code : Code) : Result CodeOut := do
  return { code := code.code, name := code.name, sortOrder := code.sortOrder
           extra := ← asObject code.extra }

def toGroupOut (s : Store) (groupId : Int) (group : CodeGroup) : Result CodeGroupOut := do
  let active := (codesOf s groupId).filter fun p => p.2.isActive
  let codes ← mapE (active.insertionSort fun a b => a.2.sortOrder ≤ b.2.sortOrder) fun p =>
    codeOut p.2
  return { groupCode := group.groupCode, name := group.name, description := group.description
           codes }

def loadCodeGroups (s : Store) : Result (List CodeGroupOut) :=
  let groups := s.codeGroups.rows.filter fun p => p.2.isActive
  mapE (groups.insertionSort fun a b => a.2.groupCode ≤ b.2.groupCode) fun p => toGroupOut s p.1 p.2

def loadCodeGroup (s : Store) (groupCode : String) : Result CodeGroupOut := do
  text "group_code" groupCode
  match s.codeGroups.rows.find? fun p => p.2.groupCode = groupCode && p.2.isActive with
  | none => raise (notFoundError "CODE_GROUP_NOT_FOUND" s!"존재하지 않는 코드그룹입니다: {groupCode}")
  | some p => toGroupOut s p.1 p.2

end Biztrip.Codes
