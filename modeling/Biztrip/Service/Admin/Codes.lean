import Biztrip.Service.Admin.Common
import Biztrip.Service.Codes

/-!
# Code master

`app/services/admin/codes.py`. The reply of a write is built from the row read
back after the commit, so it can fail when the write has already happened.
-/

namespace Biztrip.Admin.CodeMaster

open Biztrip.Lib Codes

/-! ## Replies -/

structure AdminCodeOut where
  id : Int
  code : String
  name : String
  sortOrder : Int
  isActive : Bool
  extra : JsonObject
  deriving DecidableEq

structure AdminCodeGroupOut where
  id : Int
  groupCode : String
  name : String
  description : Option String
  isActive : Bool
  codes : List AdminCodeOut
  deriving DecidableEq

def toCodeOut (id : Int) (code : Code) : Result AdminCodeOut := do
  return {
    id, code := code.code, name := code.name, sortOrder := code.sortOrder, isActive := code.isActive
    extra := ← asObject code.extra }

/-- Inactive codes are included. -/
def toOut (s : Store) (groupId : Int) (group : CodeGroup) : Result AdminCodeGroupOut := do
  let sorted := (codesOf s groupId).insertionSort fun a b =>
    a.2.sortOrder < b.2.sortOrder ∨ (a.2.sortOrder = b.2.sortOrder ∧ a.2.code ≤ b.2.code)
  let codes ← mapE sorted fun p => toCodeOut p.1 p.2
  return {
    id := groupId, groupCode := group.groupCode, name := group.name
    description := group.description, isActive := group.isActive, codes }

def listCodeGroups (s : Store) : Result (List AdminCodeGroupOut) :=
  mapE (s.codeGroups.rows.insertionSort fun a b => a.2.groupCode ≤ b.2.groupCode) fun p =>
    toOut s p.1 p.2

/-! ## Writes -/

def loadGroup (s : Store) (groupId : Int) : Result CodeGroup :=
  loadOr s.codeGroups groupId <|
    notFoundError "CODE_GROUP_NOT_FOUND" s!"존재하지 않는 코드그룹입니다: {groupId}"

def loadCode (s : Store) (codeId : Int) : Result Code :=
  loadOr s.codes codeId <| notFoundError "CODE_NOT_FOUND" s!"존재하지 않는 코드입니다: {codeId}"

def createCodeGroup (s : Store) (env : Env) (payload : CodeGroupCreate) : Result Plan := do
  assertUnique s.codeGroups CodeGroup.groupCode payload.groupCode.val "group_code"
    payload.groupCode.val <|
      conflictError "DUPLICATE_CODE_GROUP" s!"이미 있는 코드그룹입니다: {payload.groupCode.val}"
        (some "group_code")
  text "name" payload.name.val
  checkSome payload.description fun v => text "description" v.val
  let group : CodeGroup :=
    { groupCode := payload.groupCode.val, name := payload.name.val
      description := payload.description.map Str.val, isActive := payload.isActive }
  return { now := env.txnNow, writes := [.codeGroup (.insert group)] }

/-- Write the sent fields over the group, as the flush finds them. -/
def assignGroup (group : CodeGroup) (payload : CodeGroupUpdate) : Result CodeGroup := do
  checkSome payload.name.val? fun v => text "name" v.val
  checkSome payload.description.val? fun v => text "description" v.val
  let name ← (payload.name.map Str.val).setRequired group.name (notNull "name")
  let isActive ← payload.isActive.setRequired group.isActive (notNull "is_active")
  return { group with
    name, isActive
    description := (payload.description.map Str.val).setNullable group.description }

def updateCodeGroup (s : Store) (env : Env) (groupId : Int) (payload : CodeGroupUpdate) :
    Result Plan := do
  let group ← loadGroup s groupId
  let group' ← assignGroup group payload
  return { now := env.txnNow, writes := [.codeGroup (.update groupId group group')] }

def deleteCodeGroup (s : Store) (env : Env) (groupId : Int) : Result Plan := do
  let _group ← loadGroup s groupId
  let count := (codesOf s groupId).length
  guardE (count = 0) <| .app <|
    conflictError "HAS_DEPENDENTS"
      s!"코드 {count}개가 남아 있는 그룹은 삭제할 수 없습니다. 코드를 먼저 지우거나 그룹을 비활성화하세요" none
  return deleteEntity env (.codeGroup (.delete groupId)) "이 코드그룹을 참조하는 데이터가 있습니다"

def createCode (s : Store) (env : Env) (groupId : Int) (payload : CodeCreate) : Result Plan := do
  let group ← loadGroup s groupId
  assertUnique s.codes (fun c => (c.groupId, c.code)) (groupId, payload.code.val) "code"
    payload.code.val <|
      conflictError "DUPLICATE_CODE"
        s!"{group.groupCode} 그룹에 이미 있는 코드입니다: {payload.code.val}" (some "code")
  text "name" payload.name.val
  int4 "sort_order" payload.sortOrder
  guardE (payload.extra.storable = true) (.dataError "extra")
  let code : Code :=
    { groupId, code := payload.code.val, name := payload.name.val, sortOrder := payload.sortOrder
      isActive := payload.isActive, extra := .object payload.extra }
  return { now := env.txnNow, writes := [.code (.insert code)] }

/-- A null assigned to a `jsonb` attribute is stored as JSON's null, which the column admits. -/
def assignExtra (cur : Json) : Sent JsonObject → Json
  | .absent => cur
  | .null => .null
  | .value o => .object o

/-- Write the sent fields over the code, as the flush finds them. -/
def assignCode (code : Code) (payload : CodeUpdate) : Result Code := do
  checkSome payload.name.val? fun v => text "name" v.val
  checkSome payload.sortOrder.val? (int4 "sort_order")
  checkSome payload.extra.val? fun o => guardE (o.storable = true) (.dataError "extra")
  let name ← (payload.name.map Str.val).setRequired code.name (notNull "name")
  let sortOrder ← payload.sortOrder.setRequired code.sortOrder (notNull "sort_order")
  let isActive ← payload.isActive.setRequired code.isActive (notNull "is_active")
  return { code with name, sortOrder, isActive, extra := assignExtra code.extra payload.extra }

def updateCode (s : Store) (env : Env) (codeId : Int) (payload : CodeUpdate) : Result Plan := do
  let code ← loadCode s codeId
  let code' ← assignCode code payload
  return { now := env.txnNow, writes := [.code (.update codeId code code')] }

def deleteCode (s : Store) (env : Env) (codeId : Int) : Result Plan := do
  let code ← loadCode s codeId
  guardE (code.isActive = false) <| .app <|
    conflictError "CODE_STILL_ACTIVE"
      ("활성 코드는 삭제할 수 없습니다. 먼저 비활성화하세요 " ++
        "(업무 데이터가 코드값을 문자열로 참조하므로 DB가 막아주지 못합니다)") none
  return deleteEntity env (.code (.delete codeId)) "이 코드를 참조하는 데이터가 있습니다"

end Biztrip.Admin.CodeMaster
