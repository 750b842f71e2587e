import Biztrip.Service.Admin.Users

/-!
# API keys

`app/services/api_keys.py`. A key in the clear appears in the reply that issues
it and nowhere else; the database holds its digest.
-/

namespace Biztrip.ApiKeys

open Biztrip.Lib

def maxActiveKeys : Nat := 10

/-- `KEY_PREFIX`. -/
def keyHead : String := "sk_live_"

def prefixDisplayLen : Nat := 16

inductive KeyState where
  | active
  | revoked
  | expired
  deriving DecidableEq, Repr

def keyState (revokedAt expiresAt : Option Instant) (now : Instant) : KeyState :=
  if revokedAt.isSome then .revoked
  else if expiresAt.any fun t => t ≤ now then .expired
  else .active

def invalidApiKey : AppError := authError "INVALID_API_KEY" "유효하지 않은 API Key입니다"

/-- The owner, the scopes, and the note that the key was used. -/
def authenticateKey (sec : Security) (s : Store) (env : Env) (raw : String) :
    Result (CurrentUser × List String × Plan) := do
  guardE (raw.toList.take keyHead.toList.length = keyHead.toList) (.app invalidApiKey)
  let found ← getE (s.apiKeys.rows.find? fun p => p.2.keyHash = sec.hashKey raw)
    (.app invalidApiKey)
  let key := found.2
  let state := keyState key.revokedAt key.expiresAt env.now
  guardE (state ≠ .revoked) <| .app <| authError "API_KEY_REVOKED" "폐기된 API Key입니다"
  guardE (state ≠ .expired) <| .app <| authError "API_KEY_EXPIRED" "만료된 API Key입니다"
  let user ← getE ((s.users.get key.userId).filter fun u => u.isActive) (.app invalidApiKey)
  return ({ user with id := key.userId }, key.scopes,
    { now := env.txnNow
      writes := [.apiKey (.update found.1 key { key with lastUsedAt := some env.now })] })

/-- A set of texts in sorted order, as Python's `sorted` lists one. -/
def sortedSet (l : List String) : List String := l.dedup.insertionSort (· ≤ ·)

/-- The requested scopes in declaration order, each once. -/
def validateScopes (scopes : List String) : Result (List String) := do
  guardE (scopes ≠ []) <| .app <|
    validationError "SCOPES_REQUIRED" "스코프를 최소 1개 선택하세요" (some "scopes")
  let known := ApiKeyScope.all.map ApiKeyScope.value
  let unknown := sortedSet (scopes.filter fun scope => scope ∉ known)
  guardE (unknown = []) <| .app <|
    validationError "INVALID_SCOPE"
      ("알 수 없는 스코프입니다: " ++ ", ".intercalate unknown ++
        " (가능한 값: " ++ ", ".intercalate (sortedSet known) ++ ")") (some "scopes")
  return known.filter fun scope => scope ∈ scopes

/-- The keys of a user that are neither revoked nor expired. -/
def activeKeys (s : Store) (userId : Int) (now : Instant) : List (Int × ApiKey) :=
  s.apiKeys.rows.filter fun p =>
    p.2.userId = userId && p.2.revokedAt.isNone && p.2.expiresAt.all fun t => now < t

def generateKey (env : Env) : String := keyHead ++ env.tokenHex

/-- The key in the clear and the plan that stores its digest. -/
def createKey (sec : Security) (s : Store) (env : Env) (user : CurrentUser)
    (payload : ApiKeyCreate) : Result (String × Plan) := do
  let scopes ← validateScopes payload.scopes
  guardE ((activeKeys s user.id env.now).length < maxActiveKeys) <| .app <|
    conflictError "TOO_MANY_KEYS" "활성 키는 최대 10개입니다. 쓰지 않는 키를 폐기하세요" none
  let raw := generateKey env
  text "name" payload.name.val
  let key : ApiKey :=
    { userId := user.id, name := payload.name.val
      keyPrefix := .ofList (raw.toList.take prefixDisplayLen), keyHash := sec.hashKey raw, scopes
      lastUsedAt := none
      expiresAt := payload.expiresInDays.map fun days => env.now + days.val * 86400 * 1000000
      revokedAt := none, createdAt := env.txnNow }
  return (raw, { now := env.txnNow, writes := [.apiKey (.insert key)] })

structure ApiKeyOut where
  id : Int
  name : String
  keyPrefix : String
  scopes : List String
  state : KeyState
  lastUsedAt : Option Instant
  expiresAt : Option Instant
  revokedAt : Option Instant
  createdAt : Instant
  deriving DecidableEq

def toOut (id : Int) (key : ApiKey) (now : Instant) : ApiKeyOut :=
  { id, name := key.name, keyPrefix := key.keyPrefix, scopes := key.scopes
    state := keyState key.revokedAt key.expiresAt now, lastUsedAt := key.lastUsedAt
    expiresAt := key.expiresAt, revokedAt := key.revokedAt, createdAt := key.createdAt }

/-- The newest key first. -/
def listKeys (s : Store) (env : Env) (user : CurrentUser) : List ApiKeyOut :=
  (orderBy (fun p => toLex (-p.2.createdAt, -p.1))
    (s.apiKeys.rows.filter fun p => p.2.userId = user.id)).map fun p => toOut p.1 p.2 env.now

/-- Somebody else's key is treated as missing. -/
def revokeKey (s : Store) (env : Env) (user : CurrentUser) (keyId : Int) : Result Plan := do
  let key ← sessionGet s.apiKeys keyId
  let key ← getE (key.filter fun k => k.userId = user.id) <| .app <|
    notFoundError "API_KEY_NOT_FOUND" "API Key를 찾을 수 없습니다"
  guardE (key.revokedAt = none) <| .app <|
    conflictError "API_KEY_ALREADY_REVOKED" "이미 폐기된 키입니다" none
  return {
    now := env.txnNow
    writes := [.apiKey (.update keyId key { key with revokedAt := some env.now })] }

end Biztrip.ApiKeys
