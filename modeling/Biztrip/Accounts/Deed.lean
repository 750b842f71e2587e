import Biztrip.System

/-!
# What an account request decides

`AccountDeed` lists the one statement on the user table that each call of the
account administration can plan, with what its guards have established.
`account_step` is what a request leaves: the user table after that statement.
-/

namespace Biztrip.Accounts

open Biztrip.Lib Admin Admin.Users Signup

/-- An account as an application makes it. -/
def applicant (sec : Security) (env : Env) (payload : SignupRequest) : User :=
  { email := payload.email.val, passwordHash := sec.hashPassword env.salt payload.password.val
    name := payload.name.val, employeeNo := none, departmentId := payload.departmentId
    positionCode := none, managerId := none, role := .employee, status := .pending
    isActive := false }

/-- An account as an administrator makes it. -/
def appointee (sec : Security) (env : Env) (payload : AdminUserCreate) : User :=
  { email := payload.email.val, passwordHash := sec.hashPassword env.salt payload.password.val
    name := payload.name.val, employeeNo := some payload.employeeNo.val
    departmentId := payload.departmentId, positionCode := some payload.positionCode.val
    managerId := payload.managerId, role := payload.role, status := .active
    isActive := payload.isActive }

inductive AccountDeed (sec : Security) (s : Store) (env : Env) :
    AccountCall → RowWrite User → Prop where
  | apply {payload : SignupRequest}
    (fresh : ∀ i u, s.users.get i = some u → u.email ≠ payload.email.val) :
    AccountDeed sec s env (.signup payload) (.insert (applicant sec env payload))
  | reapply {payload : SignupRequest} {i : Int} {u u' : User} (get : s.users.get i = some u)
    (email : u.email = payload.email.val) (status : u.status = .rejected)
    (moved : u' = { u with
      name := payload.name.val, departmentId := payload.departmentId
      passwordHash := sec.hashPassword env.salt payload.password.val, status := .pending
      isActive := false }) :
    AccountDeed sec s env (.signup payload) (.update i u u')
  | create {payload : AdminUserCreate}
    (fresh : ∀ i u, s.users.get i = some u → u.email ≠ payload.email.val) :
    AccountDeed sec s env (.create payload) (.insert (appointee sec env payload))
  | update {actorId userId : Int} {payload : AdminUserUpdate} {u u' : User}
    (get : s.users.get userId = some u) (assigned : assign u payload = .ok u') :
    AccountDeed sec s env (.update actorId userId payload) (.update userId u u')
  | setPassword {userId : Int} {payload : PasswordSet} {u u' : User}
    (get : s.users.get userId = some u)
    (moved : u' = { u with passwordHash := sec.hashPassword env.salt payload.password.val }) :
    AccountDeed sec s env (.setPassword userId payload) (.update userId u u')
  | approve {userId : Int} {payload : UserApprove} {u u' : User}
    (get : s.users.get userId = some u) (status : u.status = .pending)
    (moved : u' = { u with
      employeeNo := some payload.employeeNo.val, positionCode := some payload.positionCode.val
      managerId := payload.managerId, role := payload.role, status := .active, isActive := true }) :
    AccountDeed sec s env (.approve userId payload) (.update userId u u')
  | reject {userId : Int} {u u' : User}
    (get : s.users.get userId = some u) (status : u.status = .pending)
    (moved : u' = { u with status := .rejected, isActive := false }) :
    AccountDeed sec s env (.reject userId) (.update userId u u')

variable {sec : Security} {s s' : Store} {env : Env} {p : Plan} {u u' : User}

/-- What `update_user` writes over a row. -/
theorem assign_eq_ok {payload : AdminUserUpdate} (h : assign u payload = .ok u') :
    payload.isActive ≠ .null ∧
    u' = { u with
      name := (payload.name.map Str.val).onto u.name
      departmentId := payload.departmentId.onto u.departmentId
      role := payload.role.onto u.role
      isActive := payload.isActive.onto u.isActive
      positionCode := (payload.positionCode.map Str.val).setNullable u.positionCode
      managerId := payload.managerId.setNullable u.managerId } := by
  simp only [assign, bind_eq_ok, Sent.setRequired_eq_ok, pure_eq_ok, Except.ok.injEq] at h
  obtain ⟨_, -, _, ⟨-, rfl⟩, _, ⟨-, rfl⟩, _, ⟨-, rfl⟩, _, ⟨hactive, rfl⟩, rfl⟩ := h
  exact ⟨hactive, rfl⟩

theorem find_email {email : String} {q : Int × User}
    (h : s.users.rows.find? (fun p => decide (p.2.email = email)) = some q) :
    s.users.get q.1 = some q.2 ∧ q.2.email = email :=
  ⟨Table.mem_rows.mp (List.mem_of_find?_eq_some h), by simpa using List.find?_some h⟩

theorem accountDeed_signup {payload : SignupRequest} (h : signup sec s env payload = .ok p) :
    ∃ w, p.writes = [.user w] ∧ AccountDeed sec s env (.signup payload) w := by
  obtain ⟨_, -, h⟩ := bind_eq_ok.mp h
  obtain ⟨_, -, h⟩ := bind_eq_ok.mp h
  split at h
  · next q hq =>
    obtain ⟨hget, hemail⟩ := find_email hq
    obtain ⟨_, hpending, h⟩ := bind_eq_ok.mp h
    obtain ⟨_, hactive, h⟩ := bind_eq_ok.mp h
    obtain ⟨_, -, h⟩ := bind_eq_ok.mp h
    obtain ⟨_, -, h⟩ := bind_eq_ok.mp h
    rw [pure_eq_ok, Except.ok.injEq] at h
    subst h
    have hp := guardE_eq_ok.mp hpending
    have ha := guardE_eq_ok.mp hactive
    have hstatus : q.2.status = .rejected := by
      rcases hst : q.2.status with _ | _ | _ <;> simp_all
    exact ⟨_, rfl, .reapply hget hemail hstatus rfl⟩
  · next hnone =>
    obtain ⟨_, -, h⟩ := bind_eq_ok.mp h
    rw [pure_eq_ok, Except.ok.injEq] at h
    subst h
    refine ⟨_, rfl, .apply fun i u hi he => ?_⟩
    simpa [he] using List.find?_eq_none.mp hnone (i, u) (Table.mem_rows.mpr hi)

theorem accountDeed_create {payload : AdminUserCreate} (h : createUser sec s env payload = .ok p) :
    ∃ w, p.writes = [.user w] ∧ AccountDeed sec s env (.create payload) w := by
  obtain ⟨_, -, h⟩ := bind_eq_ok.mp h
  obtain ⟨_, hunique, h⟩ := bind_eq_ok.mp h
  obtain ⟨_, -, h⟩ := bind_eq_ok.mp h
  obtain ⟨_, -, h⟩ := bind_eq_ok.mp h
  obtain ⟨_, -, h⟩ := bind_eq_ok.mp h
  obtain ⟨_, -, h⟩ := bind_eq_ok.mp h
  obtain ⟨_, -, h⟩ := bind_eq_ok.mp h
  rw [pure_eq_ok, Except.ok.injEq] at h
  subst h
  obtain ⟨_, -, hfree⟩ := bind_eq_ok.mp hunique
  have hfree := guardE_eq_ok.mp hfree
  refine ⟨_, rfl, .create fun i u hi he => ?_⟩
  exact Store.taken_eq_false.mp hfree i u hi (Option.some_ne_none i) he

theorem load_eq_ok {userId : Int} (h : load s userId = .ok u) : s.users.get userId = some u :=
  (loadOr_eq_ok.mp h).2

theorem pending_of_transition {current target : UserStatus} {a : Unit}
    (h : assertSignupTransitionAllowed current target .admin = .ok a) : current = .pending := by
  have h := assertSignupTransitionAllowed_eq_ok.mp h
  cases current <;> cases target <;> simp_all [signupTransitionActor]

theorem accountDeed_of_plan {call : AccountCall} (h : call.plan sec s env = .ok p) :
    ∃ w, p.writes = [.user w] ∧ AccountDeed sec s env call w := by
  cases call with
  | signup payload => exact accountDeed_signup h
  | create payload => exact accountDeed_create h
  | update actorId userId payload =>
    obtain ⟨u, hload, h⟩ := bind_eq_ok.mp h
    obtain ⟨_, -, h⟩ := bind_eq_ok.mp h
    obtain ⟨_, -, h⟩ := bind_eq_ok.mp h
    obtain ⟨u', hassign, h⟩ := bind_eq_ok.mp h
    rw [pure_eq_ok, Except.ok.injEq] at h
    subst h
    exact ⟨_, rfl, .update (load_eq_ok hload) hassign⟩
  | setPassword userId payload =>
    obtain ⟨u, hload, h⟩ := bind_eq_ok.mp h
    obtain ⟨_, -, h⟩ := bind_eq_ok.mp h
    rw [pure_eq_ok, Except.ok.injEq] at h
    subst h
    exact ⟨_, rfl, .setPassword (load_eq_ok hload) rfl⟩
  | approve userId payload =>
    obtain ⟨u, hload, h⟩ := bind_eq_ok.mp h
    obtain ⟨_, hmay, h⟩ := bind_eq_ok.mp h
    obtain ⟨_, -, h⟩ := bind_eq_ok.mp h
    obtain ⟨_, -, h⟩ := bind_eq_ok.mp h
    obtain ⟨_, -, h⟩ := bind_eq_ok.mp h
    rw [pure_eq_ok, Except.ok.injEq] at h
    subst h
    exact ⟨_, rfl, .approve (load_eq_ok hload) (pending_of_transition hmay) rfl⟩
  | reject userId =>
    obtain ⟨u, hload, h⟩ := bind_eq_ok.mp h
    obtain ⟨_, hmay, h⟩ := bind_eq_ok.mp h
    rw [pure_eq_ok, Except.ok.injEq] at h
    subst h
    exact ⟨_, rfl, .reject (load_eq_ok hload) (pending_of_transition hmay) rfl⟩

/-- An account is written back over the row that was loaded. -/
theorem AccountDeed.loaded {call : AccountCall} {w : RowWrite User}
    (h : AccountDeed sec s env call w) : w.Loaded s.users := by
  cases h with
  | apply => trivial
  | create => trivial
  | reapply get | update get | setPassword get | approve get | reject get => exact get

/-- A plan of the account administration commits as one statement on the user table. -/
theorem flight_step {db db' : Store} {f : (accounts sec).InFlight}
    (h : (accounts sec).commit db f.writes = .ok db') :
    ∃ w users now, f.writes.writes = [.user w] ∧ AccountDeed sec f.seen f.req.env f.req.call w ∧
      w.apply now Fault.staleData db.users = .ok users ∧ db' = { db with users := users } := by
  obtain ⟨w, hw, deed⟩ := accountDeed_of_plan f.planned
  have hc := Plan.commit_eq_ok.mp h
  simp only [hw, List.foldlM_cons, List.foldlM_nil, bind_eq_ok, pure_eq_ok, Except.ok.injEq] at hc
  obtain ⟨s₁, hflush, rfl⟩ := hc
  obtain ⟨_, -, hflush⟩ := bind_eq_ok.mp hflush
  obtain ⟨users, happly, hs⟩ := bind_eq_ok.mp hflush
  exact ⟨w, users, f.writes.now, hw, deed, happly, (Except.ok.inj hs).symm⟩

/-- A request of the accounts machine is one statement on the user table. -/
theorem account_step {req : Request AccountCall} (h : (accounts sec).step s req = .ok s') :
    ∃ w users now, AccountDeed sec s req.env req.call w ∧
      w.apply now Fault.staleData s.users = .ok users ∧ s' = { s with users := users } := by
  obtain ⟨p, hplan, hcommit⟩ := bind_eq_ok.mp h
  obtain ⟨w, users, now, -, deed, happly, hs'⟩ := flight_step (f := ⟨req, s, p, hplan⟩) hcommit
  exact ⟨w, users, now, deed, happly, hs'⟩

end Biztrip.Accounts
