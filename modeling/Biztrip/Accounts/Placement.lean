import Biztrip.Accounts.Deed
import Biztrip.Service.Auth

/-!
# Which accounts are switched on, and which are placed

Two conditions on single rows of the user table. An account that is not `ACTIVE`
must be switched off (`Off`), and an `ACTIVE` one must have an employee number
and a position (`Complete`), since the reply of a login declares both as plain
texts. Applications, approvals and rejections set both columns of a pair
together; `update_user` writes `is_active` and `position_code` as they are sent,
without a look at the status, and is the only call that can break either
condition.
-/

namespace Biztrip.Accounts

open Biztrip.Lib Admin.Users

def Off (u : User) : Prop := u.status ≠ .active → u.isActive = false

def Complete (u : User) : Prop := u.status = .active → u.employeeNo ≠ none ∧ u.positionCode ≠ none

instance (u : User) : Decidable (Off u) := inferInstanceAs (Decidable (_ → _))

instance (u : User) : Decidable (Complete u) := inferInstanceAs (Decidable (_ → _))

def SwitchedOff (s : Store) : Prop := ∀ i u, s.users.get i = some u → Off u

def Placed (s : Store) : Prop := ∀ i u, s.users.get i = some u → Complete u

/-- `update_user` is not asked to switch on an account that is not `ACTIVE`. -/
def SwitchesOnActive (s : Store) (req : Request AccountCall) : Prop :=
  ∀ actorId userId payload u, req.call = .update actorId userId payload →
    s.users.get userId = some u → payload.isActive = .value true → u.status = .active

/-- `update_user` is not asked to take the position from an `ACTIVE` account. -/
def KeepsPosition (s : Store) (req : Request AccountCall) : Prop :=
  ∀ actorId userId payload u, req.call = .update actorId userId payload →
    s.users.get userId = some u → payload.positionCode = .null → u.status ≠ .active

variable {sec : Security} {s s' : Store} {req : Request AccountCall}

/-! ## One request -/

theorem SwitchedOff.step_iff (h : SwitchedOff s) (hstep : (accounts sec).step s req = .ok s') :
    SwitchedOff s' ↔ SwitchesOnActive s req := by
  obtain ⟨w, users, now, deed, happly, rfl⟩ := account_step hstep
  unfold SwitchesOnActive
  refine (deed.loaded.forall_iff (K := Off) (fun _ _ => Iff.rfl) happly h).trans ?_
  generalize req.call = call at deed
  cases deed with
  | apply fresh => simp [RowWrite.row?, applicant, Off]
  | reapply get email status moved => simp [RowWrite.row?, moved, Off]
  | create fresh => simp [RowWrite.row?, appointee, Off]
  | setPassword get moved =>
    have := h _ _ get
    simpa [RowWrite.row?, moved, Off] using this
  | approve get status moved => simp [RowWrite.row?, moved, Off]
  | reject get status moved => simp [RowWrite.row?, moved, Off]
  | @update actorId userId payload u u' get assigned =>
    obtain ⟨hnull, rfl⟩ := assign_eq_ok assigned
    have hoff := h _ _ get
    simp only [RowWrite.row?, Option.some.injEq, forall_eq', Off, AccountCall.update.injEq]
      at hoff ⊢
    constructor
    · rintro hnew _ _ _ u₀ ⟨rfl, rfl, rfl⟩ hu₀ hon
      rw [get, Option.some.injEq] at hu₀
      subst hu₀
      by_contra hst
      simpa [hon, Sent.onto] using hnew hst
    · intro hcond hst
      rcases hp : payload.isActive with _ | _ | b
      · simpa [Sent.onto] using hoff hst
      · exact absurd hp hnull
      · cases b with
        | false => rfl
        | true => exact absurd (hcond _ _ _ u ⟨rfl, rfl, rfl⟩ get hp) hst

theorem Placed.step_iff (h : Placed s) (hstep : (accounts sec).step s req = .ok s') :
    Placed s' ↔ KeepsPosition s req := by
  obtain ⟨w, users, now, deed, happly, rfl⟩ := account_step hstep
  unfold KeepsPosition
  refine (deed.loaded.forall_iff (K := Complete) (fun _ _ => Iff.rfl) happly h).trans ?_
  generalize req.call = call at deed
  cases deed with
  | apply fresh => simp [RowWrite.row?, applicant, Complete]
  | reapply get email status moved => simp [RowWrite.row?, moved, Complete]
  | create fresh => simp [RowWrite.row?, appointee, Complete]
  | setPassword get moved =>
    have := h _ _ get
    simpa [RowWrite.row?, moved, Complete] using this
  | approve get status moved => simp [RowWrite.row?, moved, Complete]
  | reject get status moved => simp [RowWrite.row?, moved, Complete]
  | @update actorId userId payload u u' get assigned =>
    obtain ⟨-, rfl⟩ := assign_eq_ok assigned
    have hcomplete := h _ _ get
    simp only [RowWrite.row?, Option.some.injEq, forall_eq', Complete, AccountCall.update.injEq]
      at hcomplete ⊢
    constructor
    · rintro hnew _ _ _ u₀ ⟨rfl, rfl, rfl⟩ hu₀ hnull hst
      rw [get, Option.some.injEq] at hu₀
      subst hu₀
      simpa [hnull, Sent.map, Sent.setNullable] using (hnew hst).2
    · intro hcond hst
      refine ⟨(hcomplete hst).1, ?_⟩
      rcases hp : payload.positionCode with _ | _ | v
      · simpa [Sent.map, Sent.setNullable] using (hcomplete hst).2
      · exact absurd hst (hcond _ _ _ u ⟨rfl, rfl, rfl⟩ get hp)
      · simp [Sent.map, Sent.setNullable]

/-- No request takes `ACTIVE` from an account. -/
theorem active_stays (hstep : (accounts sec).step s req = .ok s') {i : Int} {u : User}
    (hu : s.users.get i = some u) (hst : u.status = .active) :
    ∃ u', s'.users.get i = some u' ∧ u'.status = .active := by
  obtain ⟨w, users, now, deed, happly, rfl⟩ := account_step hstep
  have keep : ∀ {k : Int} {old new : User}, w = .update k old new → s.users.get k = some old →
      (old.status = .active → new.status = .active) →
      ∃ u', users.get i = some u' ∧ u'.status = .active := by
    rintro k old new rfl hold hkeep
    have hupd := updated_of_apply hold happly
    by_cases hik : i = k
    · subst hik
      rw [hu, Option.some.injEq] at hold
      subst hold
      obtain ⟨at₀, hget⟩ := hupd.get_self
      exact ⟨_, hget, hkeep hst⟩
    · exact ⟨u, by rw [hupd.get_of_ne hik, hu], hst⟩
  generalize req.call = call at deed
  cases deed with
  | apply fresh | create fresh =>
    rw [RowWrite.apply_insert, Except.ok.injEq] at happly
    exact ⟨u, by rw [← happly]; exact Table.get_insert_of_some hu, hst⟩
  | reapply get email status moved => exact keep rfl get (by simp [status])
  | update get assigned => exact keep rfl get (by rw [(assign_eq_ok assigned).2]; exact id)
  | setPassword get moved => exact keep rfl get (by rw [moved]; exact id)
  | approve get status moved => exact keep rfl get (by simp [status])
  | reject get status moved => exact keep rfl get (by simp [status])

/-! ## Replies -/

theorem toUserOut_isOk {i : Int} {u : User} (h : Complete u) (hst : u.status = .active) :
    ∃ out, Auth.toUserOut s i u = .ok out := by
  obtain ⟨hno, hpos⟩ := h hst
  obtain ⟨no, hno⟩ := Option.ne_none_iff_exists'.mp hno
  obtain ⟨pos, hpos⟩ := Option.ne_none_iff_exists'.mp hpos
  simp [Auth.toUserOut, hno, hpos, getE]

theorem assertMayLogin_eq_ok {u : User} {a : Unit} :
    Auth.assertMayLogin u = .ok a ↔ u.status = .active ∧ u.isActive = true := by
  simp only [Auth.assertMayLogin, bind_eq_ok, guardE_eq_ok]
  rcases hst : u.status with _ | _ | _ <;> simp

/-- Whoever gets a token has named an account that is open, and its password. -/
theorem account_of_login {env : Env} {payload : LoginRequest} {out : Auth.LoginResponse}
    (h : Auth.login sec s env payload = .ok out) :
    ∃ u, s.users.get out.accessToken.sub = some u ∧ u.status = .active ∧ u.isActive = true ∧
      sec.verifyPassword payload.password u.passwordHash = true := by
  obtain ⟨q, hq, h⟩ := bind_eq_ok.mp h
  obtain ⟨_, hverify, h⟩ := bind_eq_ok.mp h
  obtain ⟨_, hmay, h⟩ := bind_eq_ok.mp h
  obtain ⟨o, -, h⟩ := bind_eq_ok.mp h
  rw [pure_eq_ok, Except.ok.injEq] at h
  subst h
  obtain ⟨hst, hon⟩ := assertMayLogin_eq_ok.mp hmay
  exact ⟨q.2, (find_email (getE_eq_ok.mp hq)).1, hst, hon, guardE_eq_ok.mp hverify⟩

theorem Placed.login (h : Placed s) {env : Env} {payload : LoginRequest} {field : String} :
    Auth.login sec s env payload ≠ .error (.responseInvalid field) := by
  intro he
  rcases bind_eq_error.mp he with he | ⟨q, hq, he⟩
  · cases (getE_eq_error.mp he).2
  rcases bind_eq_error.mp he with he | ⟨_, -, he⟩
  · cases (guardE_eq_error.mp he).2
  rcases bind_eq_error.mp he with he | ⟨_, hmay, he⟩
  · simp [Auth.assertMayLogin, bind_eq_error] at he
  obtain ⟨out, hout⟩ := toUserOut_isOk (s := s) (i := q.1)
    (h _ _ (find_email (getE_eq_ok.mp hq)).1) (assertMayLogin_eq_ok.mp hmay).1
  simp [hout] at he

theorem Placed.me (h : Placed s) {user : CurrentUser} (hu : s.users.get user.id = some user.toUser)
    (hst : user.status = .active) : ∃ out, Auth.me s user = .ok out :=
  toUserOut_isOk (h _ _ hu) hst

/-! ## Runs -/

theorem active_stays_run (sec : Security) (reqs : List (Request AccountCall)) {i : Int} {u : User}
    (hu : s.users.get i = some u) (hst : u.status = .active) :
    ∃ u', (Run.all (accounts sec).step s reqs).users.get i = some u' ∧ u'.status = .active := by
  refine Run.invariant_of_step
    (I := fun s : Store => ∃ u, s.users.get i = some u ∧ u.status = .active) ?_ ⟨u, hu, hst⟩
  rintro s a s' ⟨v, hv, hv'⟩ hstep
  exact active_stays hstep hv hv'

/-- In a serial run of account requests, accounts that are not `ACTIVE` stay switched off if and
only if no `update_user` that goes through switches one on. -/
theorem unapproved_switched_off_iff (sec : Security) {s₀ : Store} (h₀ : SwitchedOff s₀)
    (reqs : List (Request AccountCall)) :
    (∀ n, SwitchedOff (Run.all (accounts sec).step s₀ (reqs.take n))) ↔
      Run.Each (accounts sec).step
        (fun s req => ∀ s', (accounts sec).step s req = .ok s' → SwitchesOnActive s req) s₀ reqs :=
  Run.throughout_iff (J := fun _ => True) (fun _ _ _ _ _ => trivial)
    (fun _ _ _ _ hs hstep => hs.step_iff hstep) trivial h₀

/-- In a serial run of account requests, `ACTIVE` accounts stay placed if and only if no
`update_user` that goes through takes the position from one. As long as they are, no login fails in
its reply, and whoever has logged in can see their own account. -/
theorem active_placed_iff (sec : Security) {s₀ : Store} (h₀ : Placed s₀)
    (reqs : List (Request AccountCall)) :
    let state n := Run.all (accounts sec).step s₀ (reqs.take n)
    ((∀ n, Placed (state n)) ↔
      Run.Each (accounts sec).step
        (fun s req => ∀ s', (accounts sec).step s req = .ok s' → KeepsPosition s req) s₀ reqs) ∧
    ((∀ n, Placed (state n)) → ∀ n,
      (∀ env payload field,
        Auth.login sec (state n) env payload ≠ .error (.responseInvalid field)) ∧
      ∀ k ≤ n, ∀ env payload out user, Auth.login sec (state k) env payload = .ok out →
        currentUser (state n) out.accessToken.sub = .ok user →
        ∃ out, Auth.me (state n) user = .ok out) := by
  intro state
  refine ⟨Run.throughout_iff (J := fun _ => True) (fun _ _ _ _ _ => trivial)
    (fun _ _ _ _ hs hstep => hs.step_iff hstep) trivial h₀, fun hall n =>
      ⟨fun env payload field => (hall n).login, fun k hk env payload out user hlogin huser => ?_⟩⟩
  obtain ⟨u, hu, hst, -⟩ := account_of_login hlogin
  -- the account is still there and `ACTIVE` in the later state
  have hlater : ∃ u', (state n).users.get out.accessToken.sub = some u' ∧ u'.status = .active := by
    have hsplit : reqs.take n = reqs.take k ++ (reqs.take n).drop k := by
      have := (List.take_append_drop k (reqs.take n)).symm
      rwa [List.take_take, min_eq_left hk] at this
    have := active_stays_run sec ((reqs.take n).drop k) hu hst
    rwa [← Run.all_append, ← hsplit] at this
  obtain ⟨u', hu', hst'⟩ := hlater
  obtain ⟨hget, hid⟩ := currentUser_eq_ok.mp huser
  rw [hu', Option.some.injEq] at hget
  exact (hall n).me (by rw [hid, hu', hget]) (by rw [← hget]; exact hst')

/-! ## In the office -/

theorem office_users {K : User → Prop} (h : ∀ q ∈ Office.store.users.rows, K q.2) :
    ∀ i u, Office.store.users.get i = some u → K u :=
  fun _ _ hu => h _ (Table.mem_rows.mpr hu)

/-- Choi applies for an account. -/
def apply : Request AccountCall := ⟨Office.env, .signup Office.application⟩

/-- Park changes the account `userId`. -/
def change (userId : Int) (payload : AdminUserUpdate) : Request AccountCall :=
  ⟨Office.env, .update 3 userId payload⟩

theorem unapproved_switched_off_iff_office :
    (∀ n, SwitchedOff (Run.all (accounts Office.sec).step Office.store
      ([apply, change 1 { isActive := .value true }].take n))) ↔
      Run.Each (accounts Office.sec).step
        (fun s req => ∀ s', (accounts Office.sec).step s req = .ok s' → SwitchesOnActive s req)
        Office.store [apply, change 1 { isActive := .value true }] :=
  unapproved_switched_off_iff Office.sec (office_users (by decide)) _

/-- Switched on before anybody has approved of Choi. -/
theorem unapproved_switched_on :
    ¬ ∀ (sec : Security) (s₀ : Store) (reqs : List (Request AccountCall)), SwitchedOff s₀ →
      SwitchedOff (Run.all (accounts sec).step s₀ reqs) := by
  intro hall
  have h := hall Office.sec Office.store [apply, change 4 { isActive := .value true }]
    (office_users (by decide))
  have hon : ((Run.all (accounts Office.sec).step Office.store
      [apply, change 4 { isActive := .value true }]).users.get 4).map
        (fun u => (u.status, u.isActive)) = some (.pending, true) := by
    decide +kernel
  obtain ⟨u, hu, he⟩ := Option.map_eq_some_iff.mp hon
  simp only [Prod.mk.injEq] at he
  have := h 4 u hu
  simp [Off, he] at this

theorem office_placed : Placed Office.store := office_users (by decide)

/-- Kim's login. -/
def kimLogin : LoginRequest := ⟨⟨"kim@sk.com", by decide⟩, "kim@sk.com"⟩

/-- Choi applies, is approved, and is moved to Lee's team. -/
def employment : List (Request AccountCall) :=
  [apply, ⟨Office.env, .approve 4 Office.employment⟩, change 4 { managerId := .value 2 }]

/-- Choi's login, with the address and the password of the application. -/
def choiLogin : LoginRequest := ⟨Office.application.email, "password"⟩

theorem employment_keepsPosition : ∀ req ∈ employment, ∀ s, KeepsPosition s req := by
  simp only [employment, List.forall_mem_cons]
  refine ⟨fun s => ?_, fun s => ?_, fun s => ?_, List.forall_mem_nil _⟩
  · simp [KeepsPosition, apply]
  · simp [KeepsPosition]
  · rintro _ _ _ u heq - hnull
    simp only [change, AccountCall.update.injEq] at heq
    obtain ⟨-, -, rfl⟩ := heq
    cases hnull

theorem active_placed_iff_office :
    let s := Run.all (accounts Office.sec).step Office.store employment
    (∀ n, Placed (Run.all (accounts Office.sec).step Office.store (employment.take n))) ∧
      ∃ out user me, Auth.login Office.sec s Office.env choiLogin = .ok out ∧
        currentUser s out.accessToken.sub = .ok user ∧ Auth.me s user = .ok me := by
  intro s
  obtain ⟨hplaced, hserved⟩ := active_placed_iff Office.sec office_placed employment
  have hall := hplaced.mpr <|
    Run.each_of_forall (fun req hreq s _ _ => employment_keepsPosition req hreq s) _
  refine ⟨hall, ?_⟩
  have hopen : ((Auth.login Office.sec s Office.env choiLogin).toOption.bind fun out =>
      (currentUser s out.accessToken.sub).toOption.bind fun _ => some ()) = some () := by
    decide +kernel
  obtain ⟨out, hlogin, hopen⟩ := toOption_bind_eq_some.mp hopen
  obtain ⟨user, huser, -⟩ := toOption_bind_eq_some.mp hopen
  obtain ⟨me, hme⟩ := (hserved hall 3).2 3 (Nat.le_refl 3) _ _ out user hlogin huser
  exact ⟨out, user, me, hlogin, huser, hme⟩

/-- Kim's position is taken away, and Kim's next login fails in its reply. -/
theorem active_not_placed :
    ¬ ∀ (sec : Security) (s₀ : Store) (reqs : List (Request AccountCall)), Placed s₀ →
      Placed (Run.all (accounts sec).step s₀ reqs) ∧
      ∀ env payload field, Auth.login sec (Run.all (accounts sec).step s₀ reqs) env payload ≠
        .error (.responseInvalid field) := by
  intro hall
  have h := (hall Office.sec Office.store [change 1 { positionCode := .null }] office_placed).2
  exact h Office.env kimLogin "position_code" (by decide +kernel)

end Biztrip.Accounts
