import Biztrip.Accounts.Placement
import Biztrip.Frame
import Biztrip.Http.App

/-!
# What an API key can be turned into

Someone who holds one API key and nothing else sends requests, alone. Keys and
passwords are out of reach of a key (`jwtOnlyUser`, `jwtOnlyAdmin`), so what is
left is a login, and a login needs an open account with a known password
(`Shut`). `create_user`, `approve_user` and `update_user` are open to the key of
an administrator and open accounts: as long as none of them opens an account
whose password the holder knows, the key stays the only credential
(`key_stays_only_credential`).
-/

namespace Biztrip.Http

open Biztrip.Lib Accounts

/-! ## The holder of a key -/

structure Attacker where
  db : Store
  held : List Credential

/-- The credentials in the headers are held. -/
def Presents (held : List Credential) (headers : Headers) : Prop :=
  (∀ raw, headers.xApiKey = some raw → .apiKey (strip raw) ∈ held) ∧
    ∀ token, headers.authorization = some (.bearer (.signed token)) → .jwt token ∈ held

/-- Any password that is tried for a login is a known one. -/
def Tries (knows : String → Prop) : Target → Prop
  | .unguarded (.login payload) => knows payload.password
  | _ => True

/-- The requests the attacker can make. -/
def Attacker.Permitted (knows : String → Prop) (a : Attacker) (req : HttpRequest) : Prop :=
  Presents a.held req.headers ∧ Tries knows req.target

/-- Whatever a request comes to, the attacker keeps what it hands out. -/
def attack (sec : Security) (a : Attacker) (req : HttpRequest) : Except Empty Attacker :=
  match req.serve sec a.db with
  | (.ok credential, db) => .ok ⟨db, a.held ++ credential.toList⟩
  | (.error _, db) => .ok ⟨db, a.held⟩

/-! ## Open accounts -/

def Known (sec : Security) (knows : String → Prop) (passwordHash : String) : Prop :=
  ∃ password, knows password ∧ sec.verifyPassword password passwordHash = true

/-- Open for logins only if the password is not known. -/
def Locked (sec : Security) (knows : String → Prop) (u : User) : Prop :=
  u.status = .active → u.isActive = true → ¬ Known sec knows u.passwordHash

def Shut (sec : Security) (knows : String → Prop) (s : Store) : Prop :=
  ∀ i u, s.users.get i = some u → Locked sec knows u

/-- The call opens an account with a known password, if it goes through. -/
def UserCall.Opens (sec : Security) (knows : String → Prop) (s : Store) (env : Env) :
    UserCall → Prop
  | .create payload =>
    payload.isActive = true ∧ Known sec knows (sec.hashPassword env.salt payload.password.val)
  | .update userId payload =>
    payload.isActive = .value true ∧
      ∃ u, s.users.get userId = some u ∧ u.status = .active ∧ Known sec knows u.passwordHash
  | .approve userId _ => ∃ u, s.users.get userId = some u ∧ Known sec knows u.passwordHash
  | .setPassword _ _ => False
  | .reject _ => False

/-- The request does not open an account with a known password. -/
def OpensNone (sec : Security) (knows : String → Prop) (s : Store) (req : HttpRequest) : Prop :=
  ∀ call credential db, req.target = .guarded (.user call) →
    req.serve sec s = (.ok credential, db) → ¬ call.Opens sec knows s req.env

variable {sec : Security} {knows : String → Prop} {s s' : Store} {env : Env}

theorem Shut.of_users (h : Shut sec knows s) (hu : s'.users = s.users) : Shut sec knows s' := by
  unfold Shut
  rw [hu]
  exact h

theorem Shut.signup (h : Shut sec knows s) {payload : SignupRequest}
    (hstep : (accounts sec).step s ⟨env, .signup payload⟩ = .ok s') : Shut sec knows s' := by
  obtain ⟨w, users, now, deed, happly, rfl⟩ := account_step hstep
  refine (deed.loaded.forall_iff (K := Locked sec knows) (fun _ _ => Iff.rfl) happly h).mpr ?_
  cases deed with
  | apply fresh => simp [RowWrite.row?, applicant, Locked]
  | reapply get email status moved => simp [RowWrite.row?, moved, Locked]

/-- Only a new password could open an account, of those calls that are not said to. -/
theorem Shut.userCall (h : Shut sec knows s) {actorId : Int} {call : UserCall}
    (hstep : (accounts sec).step s ⟨env, call.call actorId⟩ = .ok s')
    (hset : ∀ userId payload, call ≠ .setPassword userId payload)
    (hopens : ¬ call.Opens sec knows s env) : Shut sec knows s' := by
  obtain ⟨w, users, now, deed, happly, rfl⟩ := account_step hstep
  refine (deed.loaded.forall_iff (K := Locked sec knows) (fun _ _ => Iff.rfl) happly h).mpr ?_
  cases call with
  | create payload =>
    cases deed
    rintro _ ⟨⟩ - hon hknown
    exact hopens ⟨hon, hknown⟩
  | update userId payload =>
    rcases deed with _ | _ | _ | ⟨get, assigned⟩
    obtain ⟨hnull, rfl⟩ := assign_eq_ok assigned
    rintro _ ⟨⟩ hst hon hknown
    rcases hp : payload.isActive with _ | _ | b
    · exact h _ _ get hst (by simpa [hp, Sent.onto] using hon) hknown
    · exact hnull hp
    · cases b with
      | false => simp [hp, Sent.onto] at hon
      | true => exact hopens ⟨hp, _, get, hst, hknown⟩
  | setPassword userId payload => exact absurd rfl (hset userId payload)
  | approve userId payload =>
    rcases deed with _ | _ | _ | _ | _ | ⟨get, status, rfl⟩
    rintro _ ⟨⟩ - - hknown
    exact hopens ⟨_, get, hknown⟩
  | reject userId =>
    rcases deed with _ | _ | _ | _ | _ | _ | ⟨get, status, rfl⟩
    rintro _ ⟨⟩ hst
    cases hst

/-! ## A request with the key -/

/-- Without a token, whoever is authenticated has used a key. -/
theorem authMethod_of_presents {held : List Credential} {headers : Headers} {principal : Principal}
    {s₁ : Store} (hheld : ∀ token, .jwt token ∉ held) (hp : Presents held headers)
    (h : authenticate sec s env headers = .ok (principal, s₁)) :
    principal.authMethod = .apiKey ∧ s₁.users = s.users := by
  unfold authenticate at h
  split at h
  · obtain ⟨⟨user, scopes, plan⟩, hkey, h⟩ := bind_eq_ok.mp h
    obtain ⟨s₂, hcommit, h⟩ := bind_eq_ok.mp h
    rw [pure_eq_ok, Except.ok.injEq, Prod.mk.injEq] at h
    obtain ⟨rfl, rfl⟩ := h
    refine ⟨rfl, sameUsers_of_flushes ?_ (Plan.commit_eq_ok.mp hcommit)⟩
    obtain ⟨_, -, hkey⟩ := bind_eq_ok.mp hkey
    obtain ⟨_, -, hkey⟩ := bind_eq_ok.mp hkey
    obtain ⟨_, -, hkey⟩ := bind_eq_ok.mp hkey
    obtain ⟨_, -, hkey⟩ := bind_eq_ok.mp hkey
    obtain ⟨_, -, hkey⟩ := bind_eq_ok.mp hkey
    simp only [pure_eq_ok, Except.ok.injEq, Prod.mk.injEq] at hkey
    obtain ⟨-, -, rfl⟩ := hkey
    intro w hw
    rw [List.mem_singleton.mp hw]
    exact Area.noConfusion
  · obtain ⟨user, hjwt, -⟩ := bind_eq_ok.mp h
    unfold authenticateJwt at hjwt
    split at hjwt
    · next token hauth =>
      obtain ⟨_, hdecode, -⟩ := bind_eq_ok.mp hjwt
      cases token with
      | signed payload => exact absurd (hp.2 payload hauth) (hheld payload)
      | foreign => cases hdecode
    · cases hjwt

/-- A key is not admitted where a login session is asked for. -/
theorem access_of_admit {op : Operation} {principal : Principal}
    (hkey : principal.authMethod = .apiKey) (h : op.admit principal = .ok ()) :
    op.endpoint.route.access ≠ .jwtOnlyUser ∧ op.endpoint.route.access ≠ .jwtOnlyAdmin := by
  obtain ⟨_, -, h⟩ := bind_eq_ok.mp h
  constructor
  · intro ha
    rw [ha] at h
    have := guardE_eq_ok.mp h
    simp [hkey] at this
  · intro ha
    rw [ha] at h
    obtain ⟨_, -, h⟩ := bind_eq_ok.mp h
    have := guardE_eq_ok.mp h
    simp [hkey] at this

theorem perform_cases {call : Option Call} {credential : Option Credential} {answer : Answer}
    (h : perform sec s env call credential = (answer, s')) :
    s' = s ∨ ∃ c, call = some c ∧ (system sec).step s ⟨env, c⟩ = .ok s' ∧
      answer = .ok credential := by
  cases call with
  | none => exact .inl (Prod.mk.inj h).2.symm
  | some c =>
    unfold perform at h
    rcases hstep : (system sec).step s ⟨env, c⟩ with e | s₁
    · simp only [hstep, Prod.mk.injEq] at h
      exact .inl h.2.symm
    · simp only [hstep, Prod.mk.injEq] at h
      obtain ⟨rfl, rfl⟩ := h
      exact .inr ⟨c, rfl, hstep, rfl⟩

theorem perform_ok {call : Option Call} {credential c : Option Credential}
    (h : perform sec s env call credential = (.ok c, s')) : c = credential := by
  unfold perform at h
  split at h
  · exact (Except.ok.inj (Prod.mk.inj h).1).symm
  · split at h
    · cases h
    · exact (Except.ok.inj (Prod.mk.inj h).1).symm

/-- A new key is handed out where a login session is asked for. -/
theorem Operation.credential_eq_none {op : Operation}
    (h : op.endpoint.route.access ≠ .jwtOnlyUser) : op.credential env = none := by
  cases op with
  | personal call =>
    cases call with
    | createKey payload => exact absurd rfl h
    | _ => rfl
  | _ => rfl

theorem Operation.call_eq_account {op : Operation} {userId : Int} {call : AccountCall}
    (h : op.call userId = some (.account call)) : ∃ c, op = .user c ∧ c.call userId = call := by
  cases op with
  | user c => exact ⟨c, rfl, Call.account.inj (Option.some.inj h)⟩
  | _ => cases h

/-- What a request with the key leaves: the accounts shut, and no credential. -/
def Harmless (sec : Security) (knows : String → Prop) (out : Answer × Store) : Prop :=
  Shut sec knows out.2 ∧ ∀ credential, out.1 = .ok credential → credential = none

theorem Operation.serve_harmless {held : List Credential} {headers : Headers} {op : Operation}
    (h : Shut sec knows s) (hheld : ∀ token, .jwt token ∉ held) (hp : Presents held headers)
    (hopens : ∀ call credential db, op = .user call →
      op.serve sec s env headers = (.ok credential, db) → ¬ call.Opens sec knows s env) :
    Harmless sec knows (op.serve sec s env headers) := by
  rcases hserve : op.serve sec s env headers with ⟨answer, db⟩
  have hout := hserve
  unfold Operation.serve at hserve
  split at hserve
  · cases hserve
    exact ⟨h, nofun⟩
  next principal s₁ hauth =>
  obtain ⟨hkey, husers⟩ := authMethod_of_presents hheld hp hauth
  have hs₁ : Shut sec knows s₁ := h.of_users husers
  split at hserve
  · cases hserve
    exact ⟨hs₁, nofun⟩
  next hadmit =>
  obtain ⟨huser, hadmin⟩ := access_of_admit hkey hadmit
  constructor
  · rcases perform_cases hserve with rfl | ⟨c, hc, hstep, rfl⟩
    · exact hs₁
    rcases system_step_accounts hstep with ⟨ac, rfl, hstep⟩ | hsame
    · obtain ⟨call, rfl, rfl⟩ := Operation.call_eq_account hc
      have hnot : ¬ call.Opens sec knows s₁ env := by
        have := hopens call _ _ rfl hout
        unfold UserCall.Opens at this ⊢
        rwa [husers]
      have hset : ∀ userId payload, call ≠ .setPassword userId payload := by
        rintro userId payload rfl
        exact hadmin rfl
      exact hs₁.userCall hstep hset hnot
    · exact hs₁.of_users hsame
  · rintro credential rfl
    rw [perform_ok hserve, Operation.credential_eq_none huser]

theorem OpenOperation.serve_harmless {op : OpenOperation} (h : Shut sec knows s)
    (htries : Tries knows (.unguarded op)) : Harmless sec knows (op.serve sec s env) := by
  cases op with
  | login payload =>
    refine ⟨h, fun credential hc => ?_⟩
    obtain ⟨out, hlogin, -⟩ := bind_eq_ok.mp hc
    obtain ⟨u, hu, hst, hon, hverify⟩ := account_of_login hlogin
    exact absurd ⟨_, htries, hverify⟩ (h _ _ hu hst hon)
  | signup payload =>
    rcases hserve : OpenOperation.serve sec s env (.signup payload) with ⟨answer, db⟩
    change perform sec s env (some (.account (.signup payload))) none = _ at hserve
    constructor
    · rcases perform_cases hserve with rfl | ⟨c, hc, hstep, -⟩
      · exact h
      · obtain rfl := Option.some.inj hc
        exact h.signup hstep
    · rintro credential rfl
      exact perform_ok hserve
  | _ => exact ⟨h, fun _ hc => (Except.ok.inj hc).symm⟩

theorem serve_harmless {held : List Credential} {req : HttpRequest} (h : Shut sec knows s)
    (hheld : ∀ token, .jwt token ∉ held) (hp : Presents held req.headers)
    (htries : Tries knows req.target) (hopens : OpensNone sec knows s req) :
    Harmless sec knows (req.serve sec s) := by
  obtain ⟨env, headers, target⟩ := req
  cases target with
  | unguarded op => exact op.serve_harmless h htries
  | guarded op =>
    exact op.serve_harmless h hheld hp fun call credential db hop =>
      hopens call credential db (congrArg Target.guarded hop)

/-! ## Runs -/

/-- As long as no request that goes through opens an account with a known password, the holder of
one key who knows no password gets no other credential. -/
theorem key_stays_only_credential (sec : Security) (knows : String → Prop) (raw : String)
    {s₀ : Store} (h₀ : ∀ i u, s₀.users.get i = some u → ¬ Known sec knows u.passwordHash)
    {reqs : List HttpRequest}
    (hreqs : Run.Each (attack sec)
      (fun a req => a.Permitted knows req ∧ OpensNone sec knows a.db req)
      ⟨s₀, [.apiKey raw]⟩ reqs) :
    (Run.all (attack sec) ⟨s₀, [.apiKey raw]⟩ reqs).held = [.apiKey raw] := by
  have hinv := Run.invariant
    (I := fun a : Attacker => a.held = [.apiKey raw] ∧ Shut sec knows a.db) ?_
    ⟨rfl, fun i u hu _ _ => h₀ i u hu⟩ hreqs
  · exact hinv.1
  rintro ⟨db, held⟩ req a' ⟨rfl, hshut⟩ ⟨⟨hp, htries⟩, hopens⟩ hstep
  obtain ⟨hdb, hnone⟩ := serve_harmless hshut (by simp) hp htries hopens
  unfold attack at hstep
  split at hstep
  · next credential db' hserve =>
    rw [hserve] at hdb hnone
    obtain rfl := hnone credential rfl
    obtain rfl := Except.ok.inj hstep
    exact ⟨rfl, hdb⟩
  · next e db' hserve =>
    rw [hserve] at hdb
    obtain rfl := Except.ok.inj hstep
    exact ⟨rfl, hdb⟩

/-! ## In the office -/

/-- Park's key, with the scope `admin`. -/
def parkKey : String := ApiKeys.generateKey Office.env

def officeWithKey : Store :=
  { Office.store with
    apiKeys := .ofRows [{
      userId := 3, name := "ops", keyPrefix := parkKey, keyHash := Office.sec.hashKey parkKey
      scopes := [ApiKeyScope.admin.value], lastUsedAt := none, expiresAt := none, revokedAt := none
      createdAt := 0 }] }

/-- The password the attacker has thought of. -/
def ownPassword : StrMin 1 := Office.application.password

theorem officeWithKey_unknown (i : Int) (u : User) (hu : officeWithKey.users.get i = some u) :
    ¬ Known Office.sec (· = ownPassword.val) u.passwordHash := by
  rintro ⟨_, rfl, hverify⟩
  have hall : ∀ q ∈ Office.store.users.rows,
      Office.sec.verifyPassword ownPassword.val q.2.passwordHash = false := by
    decide +kernel
  rw [hall _ (Table.mem_rows.mpr hu)] at hverify
  cases hverify

def withKey (call : UserCall) : HttpRequest :=
  { env := Office.env, headers := { xApiKey := some parkKey }, target := .guarded (.user call) }

def newcomer (isActive : Bool) : AdminUserCreate :=
  { email := Office.application.email, password := ownPassword
    name := Office.application.name, employeeNo := Office.employment.employeeNo, departmentId := 1
    positionCode := Office.employment.positionCode, isActive }

def newcomerLogin : HttpRequest :=
  { env := Office.env
    target := .unguarded (.login ⟨Office.application.email, ownPassword.val⟩) }

theorem permitted_withKey {a : Attacker} {call : UserCall} (h : .apiKey parkKey ∈ a.held) :
    a.Permitted (· = ownPassword.val) (withKey call) := by
  refine ⟨⟨?_, nofun⟩, trivial⟩
  rintro _ ⟨⟩
  have hstrip : strip parkKey = parkKey := by decide +kernel
  rwa [hstrip]

theorem opensNone_withKey {s : Store} {call : UserCall}
    (h : ¬ call.Opens sec knows s Office.env) : OpensNone sec knows s (withKey call) := by
  rintro _ _ _ ⟨⟩ -
  exact h

theorem permitted_newcomerLogin (a : Attacker) :
    a.Permitted (· = ownPassword.val) newcomerLogin :=
  ⟨⟨nofun, nofun⟩, rfl⟩

theorem opensNone_newcomerLogin (s : Store) : OpensNone sec knows s newcomerLogin := by
  rintro _ _ _ ⟨⟩

theorem key_stays_only_credential_office :
    (Run.all (attack Office.sec) ⟨officeWithKey, [.apiKey parkKey]⟩
      [withKey (.create (newcomer false)), withKey (.setPassword 1 ⟨ownPassword⟩),
        newcomerLogin]).held = [.apiKey parkKey] :=
  key_stays_only_credential Office.sec (· = ownPassword.val) parkKey officeWithKey_unknown
    ⟨⟨permitted_withKey (by simp), opensNone_withKey fun h => nomatch h.1⟩,
      ⟨permitted_withKey (by decide +kernel), opensNone_withKey id⟩,
      ⟨permitted_newcomerLogin _, opensNone_newcomerLogin _⟩, trivial⟩

/-- With the key of an administrator an account is made, and logged in to. -/
theorem key_turned_into_session :
    ¬ ∀ (sec : Security) (knows : String → Prop) (raw : String) (s₀ : Store)
      (reqs : List HttpRequest),
      (∀ i u, s₀.users.get i = some u → ¬ Known sec knows u.passwordHash) →
      Run.Each (attack sec) (fun a req => a.Permitted knows req) ⟨s₀, [.apiKey raw]⟩ reqs →
      (Run.all (attack sec) ⟨s₀, [.apiKey raw]⟩ reqs).held = [.apiKey raw] := by
  intro hall
  have h := hall Office.sec (· = ownPassword.val) parkKey officeWithKey
    [withKey (.create (newcomer true)), newcomerLogin] officeWithKey_unknown
    ⟨permitted_withKey (by simp), permitted_newcomerLogin _, trivial⟩
  revert h
  decide +kernel

end Biztrip.Http
