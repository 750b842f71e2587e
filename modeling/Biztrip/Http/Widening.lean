import Biztrip.Accounts.Keys
import Biztrip.Http.App

/-!
# A key never exceeds its owner

Four layers decide whether a request passes: who it comes from, the scope table, the role
and the session. `dependencies` is all four for any method, route path and access, and
`Operation.serve_eq` says that the routes of the application go through it. What one
principal passes another passes that is at least as able (`Principal.Exceeds`).
-/

namespace Biztrip.Http

open Biztrip.Lib Accounts

/-! ## The layers of a route -/

/-- `get_principal`. -/
def getPrincipal (sec : Security) (s : Store) (env : Env) (headers : Headers)
    (method path : String) : Result (Principal × Store) := do
  let (principal, s₁) ← authenticate sec s env headers
  enforceScope method path principal.scopes
  return (principal, s₁)

/-- All that a route depends on. -/
def dependencies (sec : Security) (s : Store) (env : Env) (headers : Headers)
    (method path : String) (access : Access) : Result (Principal × Store) := do
  let (principal, s₁) ← getPrincipal sec s env headers method path
  access.check principal
  return (principal, s₁)

variable {sec : Security} {s : Store} {env : Env} {headers : Headers} {method path : String}
  {access : Access} {principal : Principal} {s₁ : Store}

theorem dependencies_eq_ok : dependencies sec s env headers method path access =
      .ok (principal, s₁) ↔ authenticate sec s env headers = .ok (principal, s₁) ∧
    enforceScope method path principal.scopes = .ok () ∧ access.check principal = .ok () := by
  constructor
  · intro h
    obtain ⟨⟨p, s₂⟩, hget, h⟩ := bind_eq_ok.mp h
    obtain ⟨_, hcheck, h⟩ := bind_eq_ok.mp h
    obtain ⟨⟨p', s₃⟩, hauth, hget⟩ := bind_eq_ok.mp hget
    obtain ⟨_, hscope, hget⟩ := bind_eq_ok.mp hget
    rw [pure_eq_ok, Except.ok.injEq, Prod.mk.injEq] at h hget
    obtain ⟨rfl, rfl⟩ := h
    obtain ⟨rfl, rfl⟩ := hget
    exact ⟨hauth, hscope, hcheck⟩
  · rintro ⟨hauth, hscope, hcheck⟩
    refine bind_eq_ok.mpr ⟨(principal, s₁), ?_, bind_eq_ok.mpr ⟨(), hcheck, rfl⟩⟩
    exact bind_eq_ok.mpr ⟨(principal, s₁), hauth, bind_eq_ok.mpr ⟨(), hscope, rfl⟩⟩

/-- An operation of the application is performed if its route lets the request pass. -/
theorem Operation.serve_eq (op : Operation) (h : dependencies sec s env headers
      op.endpoint.route.method op.endpoint.route.path op.endpoint.route.access =
        .ok (principal, s₁)) :
    op.serve sec s env headers =
      perform sec s₁ env (op.call principal.user.id) (op.credential env) := by
  obtain ⟨hauth, hscope, hcheck⟩ := dependencies_eq_ok.mp h
  have hadmits : op.admit principal = .ok () := bind_eq_ok.mpr ⟨(), hscope, hcheck⟩
  unfold Operation.serve
  rw [hauth]
  dsimp only
  rw [hadmits]

/-- The route lets the request pass, as one of this user. -/
def Passes (sec : Security) (s : Store) (env : Env) (headers : Headers) (method path : String)
    (access : Access) (user : CurrentUser) : Prop :=
  ∃ principal s₁, dependencies sec s env headers method path access = .ok (principal, s₁) ∧
    principal.user = user

/-! ## More able principals -/

/-- Every scope that is had is had. -/
def Scopes.Covers : Scopes → Scopes → Prop
  | .unrestricted, _ => True
  | .only wide, .only narrow => narrow ⊆ wide
  | .only _, .unrestricted => False

theorem enforceScope_of_covers {wide narrow : Scopes} (hcovers : wide.Covers narrow)
    (h : enforceScope method path narrow = .ok ()) : enforceScope method path wide = .ok () := by
  obtain ⟨required, hrequired, h⟩ := bind_eq_ok.mp h
  refine bind_eq_ok.mpr ⟨required, hrequired, ?_⟩
  cases wide with
  | unrestricted => rfl
  | only wide =>
    cases narrow with
    | unrestricted => exact absurd hcovers id
    | only narrow =>
      cases required with
      | none => rfl
      | some required => exact guardE_eq_ok.mpr (hcovers (guardE_eq_ok.mp h))

/-- The same user, with at least the scopes, and with a session where the other has one. -/
structure Principal.Exceeds (p q : Principal) : Prop where
  user : p.user = q.user
  scopes : p.scopes.Covers q.scopes
  authMethod : q.authMethod = .jwt → p.authMethod = .jwt

theorem Principal.Exceeds.check {p q : Principal} (h : p.Exceeds q)
    (hcheck : access.check q = .ok ()) : access.check p = .ok () := by
  have hrole : ∀ {roles}, requireRole roles q = .ok () → requireRole roles p = .ok () := by
    intro roles hq
    refine guardE_eq_ok.mpr ?_
    rw [h.user]
    exact guardE_eq_ok.mp hq
  have hjwt : requireJwt q = .ok () → requireJwt p = .ok () := fun hq =>
    guardE_eq_ok.mpr (h.authMethod (guardE_eq_ok.mp hq))
  cases access with
  | currentUser => rfl
  | jwtOnlyUser => exact hjwt hcheck
  | adminUser => exact hrole hcheck
  | jwtOnlyAdmin =>
    obtain ⟨_, hq, hq'⟩ := bind_eq_ok.mp hcheck
    exact bind_eq_ok.mpr ⟨(), hrole hq, hjwt hq'⟩

/-- Where one principal passes, a more able one passes as the same user. -/
theorem Passes.of_exceeds {s' s₂ : Store} {headers' : Headers} {p q : Principal}
    (h : dependencies sec s env headers method path access = .ok (q, s₁))
    (hauth : authenticate sec s' env headers' = .ok (p, s₂)) (hexceeds : p.Exceeds q) :
    Passes sec s' env headers' method path access q.user := by
  obtain ⟨-, hscope, hcheck⟩ := dependencies_eq_ok.mp h
  exact ⟨p, s₂, dependencies_eq_ok.mpr
    ⟨hauth, enforceScope_of_covers hexceeds.scopes hscope, hexceeds.check hcheck⟩, hexceeds.user⟩

/-! ## Authentication by a key -/

theorem authenticate_of_key {raw : String} (hraw : headers.xApiKey = some raw) (hne : raw ≠ "") :
    authenticate sec s env headers = .ok (principal, s₁) ↔ ∃ user scopes p,
      ApiKeys.authenticateKey sec s env (strip raw) = .ok (user, scopes, p) ∧
        p.commit s = .ok s₁ ∧ principal = ⟨user, .only scopes, .apiKey⟩ := by
  have hkey : headers.xApiKey.filter (· ≠ "") = some raw := by
    rw [hraw, Option.filter_some, if_pos (decide_eq_true hne)]
  unfold authenticate
  rw [hkey]
  constructor
  · intro h
    obtain ⟨⟨user, scopes, p⟩, hlet, h⟩ := bind_eq_ok.mp h
    obtain ⟨s₂, hcommit, h⟩ := bind_eq_ok.mp h
    rw [pure_eq_ok, Except.ok.injEq, Prod.mk.injEq] at h
    obtain ⟨rfl, rfl⟩ := h
    exact ⟨user, scopes, p, hlet, hcommit, rfl⟩
  · rintro ⟨user, scopes, p, hlet, hcommit, rfl⟩
    exact bind_eq_ok.mpr ⟨(user, scopes, p), hlet, bind_eq_ok.mpr ⟨s₁, hcommit, rfl⟩⟩

theorem exists_authenticate_iff {raw : String} (hraw : headers.xApiKey = some raw)
    (hne : raw ≠ "") : (∃ s₁, authenticate sec s env headers = .ok (principal, s₁)) ↔
      ∃ user scopes, Accepts sec s env (strip raw) user scopes ∧
        principal = ⟨user, .only scopes, .apiKey⟩ := by
  simp only [authenticate_of_key hraw hne]
  constructor
  · rintro ⟨s₁, user, scopes, p, hlet, hcommit, rfl⟩
    exact ⟨user, scopes, ⟨p, s₁, hlet, hcommit⟩, rfl⟩
  · rintro ⟨user, scopes, ⟨p, s₁, hlet, hcommit⟩, rfl⟩
    exact ⟨s₁, user, scopes, p, hlet, hcommit, rfl⟩

/-- A key that is there is used whatever else is sent. -/
theorem authenticate_congr {raw : String} (hne : raw ≠ "")
    (authorization authorization' : Option Authorization) :
    authenticate sec s env ⟨some raw, authorization⟩ =
      authenticate sec s env ⟨some raw, authorization'⟩ := by
  unfold authenticate
  rw [Option.filter_some, if_pos (decide_eq_true hne)]

/-! ## Wider keys -/

/-- The store with other scopes for one key. -/
def rescoped (s : Store) (k : Int) (scopes : List String) : Store :=
  { s with apiKeys := s.apiKeys.update k fun key => { key with scopes } }

theorem accepts_rescoped {raw : String} {user : CurrentUser} {scopes wide : List String} {k : Int}
    (hwide : ∀ key, s.apiKeys.get k = some key → key.scopes ⊆ wide)
    (h : Accepts sec s env raw user scopes) :
    ∃ scopes', scopes ⊆ scopes' ∧ Accepts sec (rescoped s k wide) env raw user scopes' := by
  obtain ⟨hhead, i, key, hfind, hstate, hu, hid, hon, rfl⟩ := accepts_iff.mp h
  have hget := Table.mem_rows.mp (List.mem_of_find?_eq_some hfind)
  have hfind' : ((rescoped s k wide).apiKeys.rows.find? fun p => p.2.keyHash = sec.hashKey raw) =
      some (if i = k then (i, { key with scopes := wide }) else (i, key)) := by
    unfold rescoped Table.update
    rw [List.find?_map]
    have hsame : ((fun p : Int × ApiKey => decide (p.2.keyHash = sec.hashKey raw)) ∘ fun p =>
        if p.1 = k then (p.1, { p.2 with scopes := wide }) else p) =
          fun p => decide (p.2.keyHash = sec.hashKey raw) := by
      funext p
      rw [Function.comp_apply]
      split <;> rfl
    rw [hsame, hfind]
    rfl
  split at hfind'
  · next hik =>
    exact ⟨wide, hwide key (hik ▸ hget),
      accepts_iff.mpr ⟨hhead, i, _, hfind', hstate, hu, hid, hon, rfl⟩⟩
  · exact ⟨key.scopes, List.Subset.refl _,
      accepts_iff.mpr ⟨hhead, i, key, hfind', hstate, hu, hid, hon, rfl⟩⟩

/-! ## Keys and sessions -/

/-- With a key, whoever passes is its owner, and passes with a session as well. -/
theorem passes_with_session {raw : String} {user : CurrentUser} {exp : Instant}
    (hraw : headers.xApiKey = some raw) (hne : raw ≠ "") (hexp : env.now < exp)
    (h : Passes sec s env headers method path access user) :
    (∃ k key, s.apiKeys.get k = some key ∧ key.keyHash = sec.hashKey (strip raw) ∧
      key.userId = user.id) ∧
    Passes sec s env { authorization := some (.bearer (.signed ⟨user.id, exp⟩)) } method path access
      user := by
  obtain ⟨principal, s₁, hdeps, rfl⟩ := h
  obtain ⟨hauth, -, -⟩ := dependencies_eq_ok.mp hdeps
  obtain ⟨user, scopes, haccepts, rfl⟩ := (exists_authenticate_iff hraw hne).mp ⟨s₁, hauth⟩
  obtain ⟨-, k, key, hfind, -, hu, hid, hon, -⟩ := accepts_iff.mp haccepts
  have hget := Table.mem_rows.mp (List.mem_of_find?_eq_some hfind)
  refine ⟨⟨k, key, hget, of_decide_eq_true (List.find?_some hfind :), hid.symm⟩, ?_⟩
  have hjwt : authenticate sec s env
      { authorization := some (.bearer (.signed ⟨user.id, exp⟩)) } =
        .ok (⟨user, .unrestricted, .jwt⟩, s) := by
    have hrow : (s.users.get user.id).filter (fun u => u.isActive) = some user.toUser :=
      Option.filter_eq_some_iff.mpr ⟨hid ▸ hu, hon⟩
    have hdecode : decodeToken env (.signed ⟨user.id, exp⟩) = .ok user.id :=
      bind_eq_ok.mpr ⟨(), guardE_eq_ok.mpr hexp, rfl⟩
    refine bind_eq_ok.mpr ⟨user, bind_eq_ok.mpr ⟨user.id, hdecode, ?_⟩, rfl⟩
    exact bind_eq_ok.mpr ⟨user.toUser, getE_eq_ok.mpr hrow, rfl⟩
  exact Passes.of_exceeds hdeps hjwt ⟨rfl, trivial, fun _ => rfl⟩

theorem passes_rescoped {raw : String} {user : CurrentUser} {k : Int} {wide : List String}
    (hraw : headers.xApiKey = some raw) (hne : raw ≠ "")
    (hwide : ∀ key, s.apiKeys.get k = some key → key.scopes ⊆ wide)
    (h : Passes sec s env headers method path access user) :
    Passes sec (rescoped s k wide) env headers method path access user := by
  obtain ⟨principal, s₁, hdeps, rfl⟩ := h
  obtain ⟨hauth, -, -⟩ := dependencies_eq_ok.mp hdeps
  obtain ⟨user, scopes, haccepts, rfl⟩ := (exists_authenticate_iff hraw hne).mp ⟨s₁, hauth⟩
  obtain ⟨scopes', hsub, haccepts'⟩ := accepts_rescoped hwide haccepts
  obtain ⟨s₂, hauth'⟩ := (exists_authenticate_iff hraw hne).mpr ⟨user, scopes', haccepts', rfl⟩
  exact Passes.of_exceeds hdeps hauth' ⟨rfl, hsub, id⟩

/-- A route that is not in the table lets nobody pass. -/
theorem enforceScope_undeclared (h : (method.toUpper, path) ∉ scopeRequirements.map Prod.fst)
    (scopes : Scopes) : enforceScope method path scopes = .error (.app (forbiddenError
      "SCOPE_UNDECLARED" "이 엔드포인트에 필요한 스코프가 선언되지 않았습니다")) := by
  have hnone : scopeRequirements.lookup (method.toUpper, path) = none := by
    rw [List.lookup_eq_none_iff]
    intro p hp
    have hne : (method.toUpper, path) ≠ p.1 := fun he => h (he ▸ List.mem_map_of_mem hp)
    simpa using hne
  unfold enforceScope requiredScopeFor
  rw [hnone]
  rfl

/-- For any request: what passes with a key passes with a session of its owner, and with any wider
key, whatever else is in the headers, and a route that is not in the table refuses everybody. -/
theorem key_within_owner (sec : Security) (s : Store) (env : Env) (method path : String)
    (access : Access) :
    (∀ headers raw user, headers.xApiKey = some raw → raw ≠ "" →
      Passes sec s env headers method path access user →
        (∃ k key, s.apiKeys.get k = some key ∧ key.keyHash = sec.hashKey (strip raw) ∧
          key.userId = user.id) ∧
        ∀ exp, env.now < exp → Passes sec s env
          { authorization := some (.bearer (.signed ⟨user.id, exp⟩)) } method path access user) ∧
    (∀ headers raw user k wide, headers.xApiKey = some raw → raw ≠ "" →
      (∀ key, s.apiKeys.get k = some key → key.scopes ⊆ wide) →
        Passes sec s env headers method path access user →
          Passes sec (rescoped s k wide) env headers method path access user) ∧
    (∀ raw authorization authorization', raw ≠ "" →
      dependencies sec s env ⟨some raw, authorization⟩ method path access =
          dependencies sec s env ⟨some raw, authorization'⟩ method path access ∧
        ∀ op : Operation, op.serve sec s env ⟨some raw, authorization⟩ =
          op.serve sec s env ⟨some raw, authorization'⟩) ∧
    ((method.toUpper, path) ∉ scopeRequirements.map Prod.fst →
      ∀ headers user, ¬ Passes sec s env headers method path access user) := by
  refine ⟨fun headers raw user hraw hne h => ?_, fun headers raw user k wide hraw hne hwide h => ?_,
    fun raw a a' hne => ?_, fun hnone headers user h => ?_⟩
  · exact ⟨(passes_with_session hraw hne (Int.lt_succ env.now) h).1,
      fun exp hexp => (passes_with_session hraw hne hexp h).2⟩
  · exact passes_rescoped hraw hne hwide h
  · unfold dependencies getPrincipal Operation.serve
    rw [authenticate_congr hne a a']
    exact ⟨rfl, fun _ => rfl⟩
  · obtain ⟨principal, s₁, hdeps, -⟩ := h
    obtain ⟨-, hscope, -⟩ := dependencies_eq_ok.mp hdeps
    rw [enforceScope_undeclared hnone] at hscope
    cases hscope

/-- Kim, who can list trips with her key, can list them when she is logged in. -/
theorem key_within_owner_kim :
    Passes Office.sec (Run.all (KeyEvent.step Office.sec) Office.store [kimsKey]) Office.env
      { authorization := some (.bearer (.signed (Auth.createAccessToken Office.env 1))) }
      "GET" "/api/v1/trips" .currentUser kim := by
  have huser : (dependencies Office.sec
      (Run.all (KeyEvent.step Office.sec) Office.store [kimsKey]) Office.env
      { xApiKey := some "sk_live_0" } "GET" "/api/v1/trips" .currentUser).toOption.bind
        (fun p => some (p.1.user.toUser, p.1.user.id)) = some (kim.toUser, 1) := by decide +kernel
  obtain ⟨⟨principal, s₁⟩, hdeps, hkim⟩ := toOption_bind_eq_some.mp huser
  have hpasses : Passes Office.sec (Run.all (KeyEvent.step Office.sec) Office.store [kimsKey])
      Office.env { xApiKey := some "sk_live_0" } "GET" "/api/v1/trips" .currentUser kim := by
    refine ⟨principal, s₁, hdeps, ?_⟩
    obtain ⟨⟨user, id⟩, scopes, authMethod⟩ := principal
    obtain ⟨rfl, rfl⟩ := Prod.mk.inj (Option.some.inj hkim)
    rfl
  exact ((key_within_owner Office.sec _ Office.env "GET" "/api/v1/trips" .currentUser).1 _ _ kim rfl
    (by decide) hpasses).2 _ (by decide)

end Biztrip.Http
