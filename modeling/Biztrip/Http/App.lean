import Biztrip.Http.Routes

/-!
# The application

One request from its headers to the committed store. Of a reply, only the
credential it hands out is modelled: the token of a login, or a new key in the
clear.
-/

namespace Biztrip.Http

open Biztrip.Lib

inductive Credential where
  | apiKey (raw : String)
  | jwt (token : Auth.AccessToken)
  deriving DecidableEq

/-- The routes that do not authenticate. -/
inductive OpenOperation where
  | login (payload : LoginRequest)
  | signup (payload : SignupRequest)
  | publicDepartments
  | health
  | healthDb

inductive Target where
  | unguarded (op : OpenOperation)
  | guarded (op : Operation)

structure HttpRequest where
  env : Env
  headers : Headers := {}
  target : Target

/-- What the requester is handed, or why nothing was done. -/
abbrev Answer := Result (Option Credential)

/-- Run a call of the services, if there is one, and hand out `credential` if it goes through. -/
def perform (sec : Security) (s : Store) (env : Env) (call : Option Call)
    (credential : Option Credential) : Answer × Store :=
  match call with
  | none => (.ok credential, s)
  | some call =>
    match (system sec).step s ⟨env, call⟩ with
    | .error e => (.error e, s)
    | .ok s' => (.ok credential, s')

def OpenOperation.serve (sec : Security) (s : Store) (env : Env) : OpenOperation → Answer × Store
  | .login payload =>
    (do return some (.jwt (← Auth.login sec s env payload).accessToken), s)
  | .signup payload => perform sec s env (some (.account (.signup payload))) none
  | .publicDepartments => (.ok none, s)
  | .health => (.ok none, s)
  | .healthDb => (.ok none, s)

/-- The key in the clear is in the reply that issues it. -/
def Operation.credential (env : Env) : Operation → Option Credential
  | .personal (.createKey _) => some (.apiKey (ApiKeys.generateKey env))
  | _ => none

/-- `_enforce_scope`, then the dependencies of the route. -/
def Operation.admit (op : Operation) (principal : Principal) : Result Unit := do
  enforceScope op.endpoint.route.method op.endpoint.route.path principal.scopes
  op.endpoint.route.access.check principal

/-- The note that a key was used outlives what the request itself comes to. -/
def Operation.serve (sec : Security) (s : Store) (env : Env) (headers : Headers) (op : Operation) :
    Answer × Store :=
  match authenticate sec s env headers with
  | .error e => (.error e, s)
  | .ok (principal, s₁) =>
    match op.admit principal with
    | .error e => (.error e, s₁)
    | .ok () => perform sec s₁ env (op.call principal.user.id) (op.credential env)

def HttpRequest.serve (sec : Security) (s : Store) (req : HttpRequest) : Answer × Store :=
  match req.target with
  | .unguarded op => op.serve sec s req.env
  | .guarded op => op.serve sec s req.env req.headers

end Biztrip.Http
