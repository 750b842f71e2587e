import Biztrip.Accounts.Admins
import Biztrip.Http.App
import Biztrip.Http.Escalation

/-!
# An administration does not lock itself out

Nothing counts administrators. That one is always left follows from who can call
`update_user`: an administrator in office, whom the call itself cannot remove. For this
the one who calls must really be in office, so credentials must belong to approved accounts
only. A token is handed out by a login and a key by `create_key`, both to an approved
account, and an account stays approved (`Staffed`).
-/

namespace Biztrip.Http

open Biztrip.Lib Accounts

/-- The database, and the tokens that have been handed out. -/
structure World where
  db : Store
  tokens : List Auth.AccessToken

/-- A signed token in the headers has been handed out. -/
def World.Genuine (w : World) (req : HttpRequest) : Prop :=
  ∀ token, req.headers.authorization = some (.bearer (.signed token)) → token ∈ w.tokens

def handedOut : Answer → List Auth.AccessToken
  | .ok (some (.jwt token)) => [token]
  | _ => []

@[simp] theorem handedOut_error (e : Fault) : handedOut (.error e) = [] := rfl

@[simp] theorem handedOut_none : handedOut (.ok none) = [] := rfl

/-- Serve a request, whatever it comes to. -/
def serve (sec : Security) (w : World) (req : HttpRequest) : Except Empty World :=
  let (answer, db) := req.serve sec w.db
  .ok ⟨db, w.tokens ++ handedOut answer⟩

/-- Somebody is in office, and every credential belongs to an approved account. -/
structure Staffed (w : World) : Prop where
  office : ∃ i, InOffice w.db i
  tokens : ∀ token ∈ w.tokens, Approved w.db token.sub
  keys : ∀ k key, w.db.apiKeys.get k = some key → Approved w.db key.userId

variable {sec : Security} {s s' s₁ : Store} {env : Env}

/-! ## Keys -/

/-- What a personal call does to the keys: it issues one to the caller or writes over one of the
caller's. -/
theorem keys_of_personal {user : CurrentUser} {call : PersonalCall} {p : Plan}
    (h : call.plan sec s env user = .ok p) :
    (∃ w, p.writes = [.apiKey w] ∧ w.Loaded s.apiKeys ∧
      ∀ key, w.row? = some key → key.userId = user.id) ∨ ∀ w ∈ p.writes, w.area ≠ .keys := by
  cases call with
  | createKey payload =>
    obtain ⟨⟨raw, p'⟩, hkey, h⟩ := bind_eq_ok.mp h
    obtain ⟨scopes, -, hkey⟩ := bind_eq_ok.mp hkey
    obtain ⟨_, -, hkey⟩ := bind_eq_ok.mp hkey
    obtain ⟨_, -, hkey⟩ := bind_eq_ok.mp hkey
    rw [pure_eq_ok, Except.ok.injEq, Prod.mk.injEq] at hkey
    obtain ⟨-, rfl⟩ := hkey
    have h : Except.ok _ = Except.ok p := h
    obtain rfl := Except.ok.inj h
    exact .inl ⟨_, rfl, trivial, fun key hkey => Option.some.inj hkey ▸ rfl⟩
  | revokeKey keyId =>
    obtain ⟨o, hget, h⟩ := bind_eq_ok.mp h
    obtain ⟨key, hown, h⟩ := bind_eq_ok.mp h
    obtain ⟨_, -, h⟩ := bind_eq_ok.mp h
    rw [pure_eq_ok, Except.ok.injEq] at h
    subst h
    obtain ⟨rfl, hid⟩ := Option.filter_eq_some_iff.mp (getE_eq_ok.mp hown)
    refine .inl ⟨_, rfl, (sessionGet_eq_ok.mp hget).2, fun key' hkey => ?_⟩
    rw [← Option.some.inj hkey]
    simpa using hid
  | markRead notificationId =>
    obtain ⟨o, -, h⟩ := bind_eq_ok.mp h
    obtain ⟨n, -, h⟩ := bind_eq_ok.mp h
    rw [pure_eq_ok, Except.ok.injEq] at h
    subst h
    refine .inr fun w hw => ?_
    rw [List.mem_singleton.mp hw]
    exact Area.noConfusion

/-- A key is an old one, with its owner, or belongs to the one who has called. -/
theorem keys_of_step {req : Request Call} (hstep : (system sec).step s req = .ok s') :
    ∀ k key, s'.apiKeys.get k = some key →
      (∃ key₀, s.apiKeys.get k = some key₀ ∧ key.userId = key₀.userId) ∨
        ∃ call, req.call = .personal key.userId call := by
  intro k key hk
  obtain ⟨p, hplan, hcommit⟩ := bind_eq_ok.mp hstep
  have hc := Plan.commit_eq_ok.mp hcommit
  rcases req with ⟨env, call⟩
  have hareas := call.plan_areas p hplan
  cases call with
  | personal userId call =>
    obtain ⟨user, huser, hplan⟩ := bind_eq_ok.mp hplan
    rcases keys_of_personal hplan with ⟨w, hw, hloaded, hrow⟩ | hother
    · rw [hw, List.foldlM_cons] at hc
      obtain ⟨s₂, hflush, hc⟩ := bind_eq_ok.mp hc
      rw [List.foldlM_nil, pure_eq_ok, Except.ok.injEq] at hc
      subst hc
      obtain ⟨_, -, hflush⟩ := bind_eq_ok.mp hflush
      obtain ⟨t, happly, hflush⟩ := bind_eq_ok.mp hflush
      rw [pure_eq_ok, Except.ok.injEq] at hflush
      subst hflush
      rcases hloaded.cases happly hk with hold | ⟨new, at₀, hnew, hkey⟩
      · exact .inl ⟨key, hold, rfl⟩
      · have howner : key.userId = userId := by
          rw [hkey]
          exact (hrow new hnew).trans (currentUser_eq_ok.mp huser).2
        exact .inr ⟨call, by rw [howner]⟩
    · rw [sameKeys_of_flushes hother hc] at hk
      exact .inl ⟨key, hk, rfl⟩
  | _ =>
    have hother : ∀ w ∈ p.writes, w.area ≠ .keys := by
      intro w hw harea
      have hmem := hareas w hw
      simp [harea, Call.areas] at hmem
    rw [sameKeys_of_flushes hother hc] at hk
    exact .inl ⟨key, hk, rfl⟩

/-! ## Who is authenticated -/

/-- What `authenticate` has seen of the one it lets in. -/
structure LetIn (s s₁ : Store) (headers : Headers) (principal : Principal) : Prop where
  users : s₁.users = s.users
  keys : ∀ k key, s₁.apiKeys.get k = some key →
    ∃ key₀, s.apiKeys.get k = some key₀ ∧ key.userId = key₀.userId
  row : s.users.get principal.user.id = some principal.user.toUser
  on : principal.user.isActive = true
  credential :
    (∃ token, headers.authorization = some (.bearer (.signed token)) ∧
      token.sub = principal.user.id) ∨
    ∃ k key, s.apiKeys.get k = some key ∧ key.userId = principal.user.id

theorem letIn_of_jwt {headers : Headers} {user : CurrentUser}
    (h : authenticateJwt s env headers = .ok user) :
    LetIn s s headers ⟨user, .unrestricted, .jwt⟩ := by
  unfold authenticateJwt at h
  split at h
  · next token htoken =>
    obtain ⟨userId, hdecode, h⟩ := bind_eq_ok.mp h
    obtain ⟨u, hget, h⟩ := bind_eq_ok.mp h
    rw [pure_eq_ok, Except.ok.injEq] at h
    subst h
    obtain ⟨hu, hon⟩ := Option.filter_eq_some_iff.mp (getE_eq_ok.mp hget)
    refine ⟨rfl, fun k key hk => ⟨key, hk, rfl⟩, hu, hon, .inl ?_⟩
    cases token with
    | foreign => cases hdecode
    | signed payload =>
      obtain ⟨_, -, hsub⟩ := bind_eq_ok.mp hdecode
      exact ⟨payload, htoken, Except.ok.inj hsub⟩
  · cases h

/-- Noting that a key was used leaves its owner. -/
theorem letIn_of_key {headers : Headers} {raw : String} {user : CurrentUser} {scopes : List String}
    {plan : Plan} (h : ApiKeys.authenticateKey sec s env raw = .ok (user, scopes, plan))
    (hcommit : plan.commit s = .ok s₁) : LetIn s s₁ headers ⟨user, .only scopes, .apiKey⟩ := by
  obtain ⟨_, -, h⟩ := bind_eq_ok.mp h
  obtain ⟨⟨k, key⟩, hfind, h⟩ := bind_eq_ok.mp h
  obtain ⟨_, -, h⟩ := bind_eq_ok.mp h
  obtain ⟨_, -, h⟩ := bind_eq_ok.mp h
  obtain ⟨u, hget, h⟩ := bind_eq_ok.mp h
  simp only [pure_eq_ok, Except.ok.injEq, Prod.mk.injEq] at h
  obtain ⟨rfl, -, rfl⟩ := h
  have hkey : s.apiKeys.get k = some key :=
    Table.mem_rows.mp (List.mem_of_find?_eq_some (getE_eq_ok.mp hfind))
  obtain ⟨hu, hon⟩ := Option.filter_eq_some_iff.mp (getE_eq_ok.mp hget)
  have hc := Plan.commit_eq_ok.mp hcommit
  rw [List.foldlM_cons] at hc
  obtain ⟨s₂, hflush, hc⟩ := bind_eq_ok.mp hc
  rw [List.foldlM_nil, pure_eq_ok, Except.ok.injEq] at hc
  subst hc
  obtain ⟨_, -, hflush⟩ := bind_eq_ok.mp hflush
  obtain ⟨t, happly, hflush⟩ := bind_eq_ok.mp hflush
  rw [pure_eq_ok, Except.ok.injEq] at hflush
  subst hflush
  refine ⟨rfl, fun k' key' hk' => ?_, hu, hon, .inr ⟨k, key, hkey, rfl⟩⟩
  rcases (updated_of_apply hkey happly).cases hk' with ⟨rfl, at₀, rfl⟩ | ⟨-, hk'⟩
  · exact ⟨key, hkey, rfl⟩
  · exact ⟨key', hk', rfl⟩

theorem letIn_of_authenticate {headers : Headers} {principal : Principal}
    (h : authenticate sec s env headers = .ok (principal, s₁)) : LetIn s s₁ headers principal := by
  unfold authenticate at h
  split at h
  · obtain ⟨⟨user, scopes, plan⟩, hkey, h⟩ := bind_eq_ok.mp h
    obtain ⟨s₂, hcommit, h⟩ := bind_eq_ok.mp h
    rw [pure_eq_ok, Except.ok.injEq, Prod.mk.injEq] at h
    obtain ⟨rfl, rfl⟩ := h
    exact letIn_of_key hkey hcommit
  · obtain ⟨user, hjwt, h⟩ := bind_eq_ok.mp h
    rw [pure_eq_ok, Except.ok.injEq, Prod.mk.injEq] at h
    obtain ⟨rfl, rfl⟩ := h
    exact letIn_of_jwt hjwt

/-- The accounts are administered by administrators. -/
theorem role_of_admit {call : UserCall} {principal : Principal}
    (h : Operation.admit (.user call) principal = .ok ()) : principal.user.role = .admin := by
  obtain ⟨_, -, h⟩ := bind_eq_ok.mp h
  have hrole : requireRole [.admin] principal = .ok () := by
    cases call with
    | setPassword userId payload =>
      obtain ⟨_, hrole, -⟩ := bind_eq_ok.mp h
      exact hrole
    | _ => exact h
  simpa using guardE_eq_ok.mp hrole

/-! ## A request -/

theorem Staffed.of_users {w : World} (h : Staffed w) (hu : s.users = w.db.users)
    (hkeys : ∀ k key, s.apiKeys.get k = some key →
      ∃ key₀, w.db.apiKeys.get k = some key₀ ∧ key.userId = key₀.userId) :
    Staffed ⟨s, w.tokens⟩ := by
  obtain ⟨i, hi⟩ := h.office
  refine ⟨⟨i, hi.of_users hu⟩, fun token ht => (h.tokens token ht).of_users hu, ?_⟩
  intro k key hk
  obtain ⟨key₀, hk₀, howner⟩ := hkeys k key hk
  have := h.keys k key₀ hk₀
  rw [← howner] at this
  exact this.of_users hu

/-- A step of the system keeps the staff if somebody in office is left after it, and a new key is
for an approved account. -/
theorem Staffed.step {tokens : List Auth.AccessToken} {req : Request Call}
    (h : Staffed ⟨s, tokens⟩) (hstep : (system sec).step s req = .ok s')
    (hoffice : ∀ call, req.call = .account call → ∃ i, InOffice s i ∧
      ∀ actorId payload, call = .update actorId i payload → actorId = i)
    (hcaller : ∀ i call, req.call = .personal i call → Approved s i) : Staffed ⟨s', tokens⟩ := by
  refine ⟨?_, fun token ht => (h.tokens token ht).step hstep, fun k key hk => ?_⟩
  · rcases system_step_accounts hstep with ⟨call, hcall, hstep⟩ | hsame
    · obtain ⟨i, hi, hself⟩ := hoffice call hcall
      exact ⟨i, hi.step hself hstep⟩
    · obtain ⟨i, hi⟩ := h.office
      exact ⟨i, hi.of_users hsame⟩
  · rcases keys_of_step hstep k key hk with ⟨key₀, hk₀, howner⟩ | ⟨call, hcall⟩
    · rw [howner]
      exact (h.keys k key₀ hk₀).step hstep
    · exact (hcaller _ call hcall).step hstep

/-- Whoever is let in with a credential of the staff has an approved account. -/
theorem LetIn.approved {w : World} {headers : Headers} {principal : Principal} (h : Staffed w)
    (hgen : ∀ token, headers.authorization = some (.bearer (.signed token)) → token ∈ w.tokens)
    (hin : LetIn w.db s₁ headers principal) : principal.user.status = .active := by
  have happroved : Approved w.db principal.user.id := by
    rcases hin.credential with ⟨token, htoken, hsub⟩ | ⟨k, key, hk, howner⟩
    · rw [← hsub]
      exact h.tokens token (hgen token htoken)
    · rw [← howner]
      exact h.keys k key hk
  obtain ⟨u, hu, hst⟩ := happroved
  rw [hin.row, Option.some.injEq] at hu
  rw [← hst, ← hu]

/-- The answer of an operation hands out no token. -/
theorem handedOut_of_perform {call : Option Call} {credential : Option Credential} {out : Answer}
    (hnone : ∀ token, credential ≠ some (.jwt token))
    (h : perform sec s env call credential = (out, s')) : handedOut out = [] := by
  cases out with
  | error e => rfl
  | ok c =>
    rw [perform_ok h]
    cases hc : credential with
    | none => rfl
    | some c =>
      cases c with
      | apiKey raw => rfl
      | jwt token => exact absurd hc (hnone token)

theorem Operation.credential_ne_jwt {op : Operation} (token : Auth.AccessToken) :
    op.credential env ≠ some (.jwt token) := by
  cases op with
  | personal call => cases call <;> simp [Operation.credential]
  | _ => simp [Operation.credential]

/-- An administrator in office who is let in stays in office, whatever is asked. -/
theorem Operation.serve_staffed {w : World} {headers : Headers} {op : Operation} {out : Answer}
    (h : Staffed w)
    (hgen : ∀ token, headers.authorization = some (.bearer (.signed token)) → token ∈ w.tokens)
    (hserve : op.serve sec w.db env headers = (out, s')) :
    Staffed ⟨s', w.tokens ++ handedOut out⟩ := by
  unfold Operation.serve at hserve
  split at hserve
  · obtain ⟨rfl, rfl⟩ := Prod.mk.inj hserve
    rw [handedOut_error, List.append_nil]
    exact h
  next principal s₁ hauth =>
  have hin := letIn_of_authenticate hauth
  have h₁ : Staffed ⟨s₁, w.tokens⟩ := h.of_users hin.users hin.keys
  have hactive := hin.approved h hgen
  have hrow : s₁.users.get principal.user.id = some principal.user.toUser := by
    rw [hin.users, hin.row]
  split at hserve
  · obtain ⟨rfl, rfl⟩ := Prod.mk.inj hserve
    rw [handedOut_error, List.append_nil]
    exact h₁
  next hadmit =>
  rw [handedOut_of_perform Operation.credential_ne_jwt hserve, List.append_nil]
  rcases perform_cases hserve with rfl | ⟨c, hc, hstep, -⟩
  · exact h₁
  refine h₁.step hstep ?_ ?_
  · rintro call rfl
    obtain ⟨call, rfl, rfl⟩ := Operation.call_eq_account hc
    refine ⟨principal.user.id, ⟨_, hrow, role_of_admit hadmit, hactive, hin.on⟩, ?_⟩
    intro actorId payload hcall
    cases call with
    | update userId sent =>
      obtain ⟨hactor, -, -⟩ := AccountCall.update.inj hcall
      exact hactor.symm
    | _ => cases hcall
  · rintro i call rfl
    have hi : i = principal.user.id := by
      cases op with
      | personal call => exact (Call.personal.inj (Option.some.inj hc)).1.symm
      | _ => cases hc
    rw [hi]
    exact ⟨_, hrow, hactive⟩

theorem OpenOperation.serve_staffed {w : World} {op : OpenOperation} {out : Answer}
    (h : Staffed w) (hserve : op.serve sec w.db env = (out, s')) :
    Staffed ⟨s', w.tokens ++ handedOut out⟩ := by
  cases op with
  | login payload =>
    obtain ⟨rfl, rfl⟩ := Prod.mk.inj hserve
    refine ⟨h.office, fun token ht => ?_, h.keys⟩
    rcases List.mem_append.mp ht with ht | ht
    · exact h.tokens token ht
    · rcases hlogin : Auth.login sec w.db env payload with e | reply
      · rw [hlogin] at ht
        cases ht
      · rw [hlogin] at ht
        obtain rfl := List.mem_singleton.mp ht
        obtain ⟨u, hu, hst, -⟩ := account_of_login hlogin
        exact ⟨u, hu, hst⟩
  | signup payload =>
    have hperform : perform sec w.db env (some (.account (.signup payload))) none = (out, s') :=
      hserve
    rw [handedOut_of_perform (fun _ => by simp) hperform, List.append_nil]
    rcases perform_cases hperform with rfl | ⟨c, hc, hstep, -⟩
    · exact h
    obtain rfl := Option.some.inj hc
    obtain ⟨i, hi⟩ := h.office
    refine Staffed.step h hstep (fun call hcall => ⟨i, hi, ?_⟩) fun _ _ he => nomatch he
    obtain rfl := Call.account.inj hcall
    intro _ _ he
    cases he
  | _ =>
    obtain ⟨rfl, rfl⟩ := Prod.mk.inj hserve
    rw [handedOut_none, List.append_nil]
    exact h

theorem Staffed.serve {w w' : World} {req : HttpRequest} (h : Staffed w) (hgen : w.Genuine req)
    (hstep : Http.serve sec w req = .ok w') : Staffed w' := by
  rcases hserve : req.serve sec w.db with ⟨out, db⟩
  have hw : (⟨db, w.tokens ++ handedOut out⟩ : World) = w' := by
    unfold Http.serve at hstep
    rw [hserve] at hstep
    exact Except.ok.inj hstep
  rw [← hw]
  obtain ⟨env, headers, target⟩ := req
  cases target with
  | unguarded op => exact OpenOperation.serve_staffed h hserve
  | guarded op => exact Operation.serve_staffed h hgen hserve

/-! ## Runs -/

/-- Somebody is in office after every serial run of requests, as long as tokens are those that
logins have handed out and the credentials at its start belong to approved accounts. -/
theorem administrator_stays_in_office (sec : Security) {w₀ : World} (h₀ : Staffed w₀)
    {reqs : List HttpRequest} (hreqs : Run.Each (Http.serve sec) World.Genuine w₀ reqs) :
    ∃ i u, (Run.all (Http.serve sec) w₀ reqs).db.users.get i = some u ∧ u.role = .admin ∧
      u.status = .active ∧ u.isActive = true := by
  have hinv := Run.invariant (I := Staffed) (fun _ _ _ h hgen => h.serve hgen) h₀ hreqs
  exact hinv.office

/-! ## In the office -/

/-- Nobody has logged in yet. -/
def openingHours : World := ⟨Office.store, []⟩

def parkLogin : HttpRequest :=
  { env := Office.env, target := .unguarded (.login ⟨⟨"park@sk.com", by decide⟩, "park@sk.com"⟩) }

/-- Park, logged in, resigns the role. -/
def parkResigns : HttpRequest :=
  { env := Office.env
    headers := { authorization := some (.bearer (.signed (Auth.createAccessToken Office.env 3))) }
    target := .guarded (.user (.update 3 { role := .value .employee })) }

theorem administrator_stays_in_office_park :
    ∃ i u, (Run.all (Http.serve Office.sec) openingHours [parkLogin, parkResigns]).db.users.get i =
      some u ∧ u.role = .admin ∧ u.status = .active ∧ u.isActive = true := by
  refine administrator_stays_in_office Office.sec ⟨?_, ?_, ?_⟩ ⟨?_, ?_, trivial⟩
  · exact ⟨3, Office.user "park@sk.com" "Park" "E3" none .admin, by decide +kernel, rfl, rfl, rfl⟩
  · exact fun token ht => absurd ht List.not_mem_nil
  · intro k key hk
    exact absurd (Table.mem_rows.mpr hk) (List.not_mem_nil)
  · rintro token ⟨⟩
  · rintro token ⟨⟩
    decide +kernel

end Biztrip.Http
