import Biztrip.Accounts.Deed
import Mathlib.Logic.Function.Basic

/-!
# Applications that overlap

Requests to apply for an account, to approve and to reject one may overlap. Who applies
again checks that the row is `REJECTED` in what has been read, and hashes a password
before the commit; in the meantime the row can have become somebody else's pending
application, or an open account. `Docket` is an interleaving of such requests with the
password each row was last applied for with.
-/

namespace Biztrip.Accounts

open Biztrip.Lib Signup

variable {sec : Security}

abbrev Flight (sec : Security) := (accounts sec).InFlight

def application? : AccountCall → Option SignupRequest
  | .signup payload => some payload
  | _ => none

/-- The calls that an account goes through before it is open. -/
def Handling : AccountCall → Prop
  | .signup _ | .approve _ _ | .reject _ => True
  | _ => False

instance : DecidablePred Handling := fun call => by
  unfold Handling
  split <;> infer_instance

/-- The row under the address of the application, when it was read. -/
def existing? (f : Flight sec) (payload : SignupRequest) : Option (Int × User) :=
  f.seen.users.rows.find? fun p => p.2.email = payload.email.val

/-- A salt is not drawn twice, so a password does not get the hash that is there already. -/
def FreshHash (_ : Store) (f : Flight sec) : Prop :=
  ∀ payload ∈ application? f.req.call, ∀ p ∈ existing? f payload,
    sec.hashPassword f.req.env.salt payload.password.val ≠ p.2.passwordHash

/-- An application that is written over a row still finds it `REJECTED`. -/
def StillRejected (db : Store) (f : Flight sec) : Prop :=
  ∀ payload ∈ application? f.req.call, ∀ p ∈ existing? f payload, ∀ u ∈ db.users.get p.1,
    u.status = .rejected

instance (db : Store) (f : Flight sec) : Decidable (FreshHash db f) := by
  unfold FreshHash
  infer_instance

instance (db : Store) (f : Flight sec) : Decidable (StillRejected db f) := by
  unfold StillRejected
  infer_instance

/-! ## The docket -/

structure Docket (sec : Security) where
  config : (accounts sec).Config
  /-- The hash of the password that each row was last applied for with. -/
  submitted : Int → Option String

namespace Docket

def opened (sec : Security) (s : Store) : Docket sec := ⟨.quiet _ s, fun _ => none⟩

/-- Note the application of a request that commits. -/
def file (d : Docket sec) (f : Flight sec) : Int → Option String :=
  match application? f.req.call, f.writes.writes, (accounts sec).commit d.config.db f.writes with
  | some payload, [.user w], .ok _ =>
    Function.update d.submitted (w.key d.config.db.users)
      (some (sec.hashPassword f.req.env.salt payload.password.val))
  | _, _, _ => d.submitted

def next (d : Docket sec) (e : Machine.Event (Request AccountCall)) : Docket sec where
  config := d.config.next e
  submitted :=
    match e with
    | .begin _ => d.submitted
    | .commit k =>
      match d.config.flying[k]? with
      | none => d.submitted
      | some f => d.file f

/-- Every event of the interleaving meets `P` on the docket it finds. -/
def All (P : Docket sec → Machine.Event (Request AccountCall) → Prop) :
    Docket sec → List (Machine.Event (Request AccountCall)) → Prop
  | _, [] => True
  | d, e :: evs => P d e ∧ All P (d.next e) evs

end Docket

/-- An application is the same in the columns it is made of. -/
structure SameApplication (u u' : User) : Prop where
  passwordHash : u'.passwordHash = u.passwordHash
  name : u'.name = u.name
  departmentId : u'.departmentId = u.departmentId
  status : u'.status = u.status
  isActive : u'.isActive = u.isActive

theorem SameApplication.refl (u : User) : SameApplication u u := ⟨rfl, rfl, rfl, rfl, rfl⟩

/-- No application is written over one that is pending or approved, and an open account has the
password it was applied for with. -/
structure Docket.Undisturbed (d : Docket sec) (e : Machine.Event (Request AccountCall)) : Prop where
  standing : ∀ k f payload, e = .commit k → d.config.flying[k]? = some f →
    f.req.call = .signup payload → ∀ i u, d.config.db.users.get i = some u → u.status ≠ .rejected →
      ∃ u', (d.next e).config.db.users.get i = some u' ∧ SameApplication u u'
  password : ∀ i u hash, (d.next e).config.db.users.get i = some u → u.status = .active →
    (d.next e).submitted i = some hash → u.passwordHash = hash

/-! ## One commit -/

/-- The row an application is written over is the one found under its address. -/
theorem existing_of_update {s : Store} {env : Env} {payload : SignupRequest} {p : Plan} {i : Int}
    {old new : User} (h : signup sec s env payload = .ok p)
    (hw : p.writes = [.user (.update i old new)]) :
    s.users.rows.find? (fun q => decide (q.2.email = payload.email.val)) = some (i, old) := by
  obtain ⟨_, -, h⟩ := bind_eq_ok.mp h
  obtain ⟨_, -, h⟩ := bind_eq_ok.mp h
  split at h
  · next q hq =>
    obtain ⟨_, -, h⟩ := bind_eq_ok.mp h
    obtain ⟨_, -, h⟩ := bind_eq_ok.mp h
    obtain ⟨_, -, h⟩ := bind_eq_ok.mp h
    obtain ⟨_, -, h⟩ := bind_eq_ok.mp h
    rw [pure_eq_ok, Except.ok.injEq] at h
    subst h
    obtain ⟨rfl, rfl, -⟩ := RowWrite.update.inj (Write.user.inj (List.singleton_inj.mp hw))
    exact hq
  · obtain ⟨_, -, h⟩ := bind_eq_ok.mp h
    rw [pure_eq_ok, Except.ok.injEq] at h
    subst h
    cases Write.user.inj (List.singleton_inj.mp hw)

/-- What an application that commits writes: a new row, or one over a row that is `REJECTED` and
that gets the new password. -/
theorem filed_cases {db : Store} {f : Flight sec} {payload : SignupRequest} {w : RowWrite User}
    (hcall : f.req.call = .signup payload) (hw : f.writes.writes = [.user w])
    (deed : AccountDeed sec f.seen f.req.env f.req.call w) (hfresh : FreshHash db f)
    (hstill : StillRejected db f) :
    w = .insert (applicant sec f.req.env payload) ∨
      ∃ i old new, w = .update i old new ∧
        (∀ u, db.users.get i = some u → u.status = .rejected) ∧
        new.passwordHash = sec.hashPassword f.req.env.salt payload.password.val ∧
        new.passwordHash ≠ old.passwordHash := by
  have happ : payload ∈ application? f.req.call := by
    rw [hcall]
    rfl
  have hplan : f.req.call.plan sec f.seen f.req.env = .ok f.writes := f.planned
  rw [hcall] at hplan
  rw [hcall] at deed
  cases deed with
  | apply fresh => exact .inl rfl
  | @reapply _ i old new get email status moved =>
    have hfound : (i, old) ∈ existing? f payload := existing_of_update hplan hw
    refine .inr ⟨i, old, new, rfl, fun u hu => hstill payload happ _ hfound u hu, ?_, ?_⟩
    · rw [moved]
    · rw [moved]
      exact hfresh payload happ _ hfound

/-- A decision leaves the password that is there. -/
theorem decision_cases {f : Flight sec} {w : RowWrite User}
    (hcall : Handling f.req.call) (happ : application? f.req.call = none)
    (deed : AccountDeed sec f.seen f.req.env f.req.call w) :
    ∃ i old new, w = .update i old new ∧
      ∀ cur : User, (merge old new cur).passwordHash = cur.passwordHash := by
  generalize f.req.call = call at hcall happ deed
  cases deed with
  | apply | reapply => cases happ
  | create | update | setPassword => exact absurd hcall id
  | approve get status moved | reject get status moved =>
    refine ⟨_, _, _, rfl, fun cur => ?_⟩
    rw [moved]
    exact mergeCol_same _ _

/-- Every row that was applied for has the password of its last application. -/
def Docket.Accurate (d : Docket sec) : Prop :=
  ∀ i u hash, d.config.db.users.get i = some u → d.submitted i = some hash → u.passwordHash = hash

section
variable {d : Docket sec} {f : Flight sec} {k : Nat} {db : Store}

theorem Docket.next_commit (hf : d.config.flying[k]? = some f)
    (hc : (accounts sec).commit d.config.db f.writes = .ok db) :
    (d.next (.commit k)).config.db = db ∧ (d.next (.commit k)).submitted = d.file f := by
  constructor
  · show (d.config.commit k).db = db
    unfold Machine.Config.commit
    rw [hf]
    exact Run.settle_eq hc
  · show (match d.config.flying[k]? with
      | none => d.submitted
      | some f => d.file f) = d.file f
    rw [hf]

/-- A commit that is refused changes neither. -/
theorem Docket.next_refused {e : Fault} (hf : d.config.flying[k]? = some f)
    (hc : (accounts sec).commit d.config.db f.writes = .error e) :
    (d.next (.commit k)).config.db = d.config.db ∧
      (d.next (.commit k)).submitted = d.submitted := by
  constructor
  · show (d.config.commit k).db = d.config.db
    unfold Machine.Config.commit
    rw [hf]
    show Run.settle d.config.db ((accounts sec).commit d.config.db f.writes) = d.config.db
    rw [hc]
    rfl
  · show (match d.config.flying[k]? with
      | none => d.submitted
      | some f => d.file f) = d.submitted
    rw [hf]
    show d.file f = d.submitted
    unfold Docket.file
    rw [hc]
    split <;> simp_all

theorem Docket.file_of_application {payload : SignupRequest} {w : RowWrite User}
    (happ : application? f.req.call = some payload) (hw : f.writes.writes = [.user w])
    (hc : (accounts sec).commit d.config.db f.writes = .ok db) :
    d.file f = Function.update d.submitted (w.key d.config.db.users)
      (some (sec.hashPassword f.req.env.salt payload.password.val)) := by
  unfold Docket.file
  rw [happ, hw, hc]

theorem Docket.file_of_decision (happ : application? f.req.call = none) :
    d.file f = d.submitted := by
  unfold Docket.file
  rw [happ]

theorem application_eq_some {call : AccountCall} {payload : SignupRequest}
    (h : application? call = some payload) : call = .signup payload := by
  cases call with
  | signup payload' => rw [Option.some.inj h]
  | _ => cases h

/-- The rows after a commit have the passwords noted. -/
theorem Docket.Accurate.commit (h : d.Accurate) (hcall : Handling f.req.call)
    (hfresh : FreshHash d.config.db f) (hstill : StillRejected d.config.db f)
    (hc : (accounts sec).commit d.config.db f.writes = .ok db) :
    ∀ i u hash, db.users.get i = some u → d.file f i = some hash → u.passwordHash = hash := by
  obtain ⟨w, users, now, hw, deed, happly, rfl⟩ := flight_step hc
  intro i u hash hu hhash
  have hu : users.get i = some u := hu
  cases happ : application? f.req.call with
  | none =>
    rw [Docket.file_of_decision happ] at hhash
    obtain ⟨j, old, new, rfl, hkeep⟩ := decision_cases hcall happ deed
    rcases (writtenBack_of_apply happly).cases hu with ⟨rfl, cur, at₀, hcur, rfl⟩ | ⟨-, hu⟩
    · have hsame : (stamp at₀ (merge old new cur)).passwordHash = cur.passwordHash := hkeep cur
      rw [hsame]
      exact h i cur hash hcur hhash
    · exact h i u hash hu hhash
  | some payload =>
    rw [Docket.file_of_application happ hw hc, Function.update_apply] at hhash
    by_cases hi : i = w.key d.config.db.users
    · rw [if_pos hi, Option.some.injEq] at hhash
      rw [← hhash]
      have hcases := filed_cases (application_eq_some happ) hw deed hfresh hstill
      rcases hcases with rfl | ⟨j, old, new, rfl, -, hnew, hne⟩
      · rw [RowWrite.apply_insert, Except.ok.injEq] at happly
        rw [← happly, hi, RowWrite.key, Table.get_insert_next, Option.some.injEq] at hu
        rw [← hu]
        rfl
      · rcases (writtenBack_of_apply happly).cases hu with ⟨-, cur, at₀, -, rfl⟩ | ⟨hij, -⟩
        · have hwritten : (stamp at₀ (merge old new cur)).passwordHash = new.passwordHash :=
            mergeCol_of_ne _ hne
          rw [hwritten, hnew]
        · exact absurd hi hij
    · rw [if_neg hi] at hhash
      rw [RowWrite.get_of_ne happly hi] at hu
      exact h i u hash hu hhash

/-- An application that commits keeps off those that are pending or approved. -/
theorem standing_of_commit {payload : SignupRequest} (hcall : f.req.call = .signup payload)
    (hfresh : FreshHash d.config.db f) (hstill : StillRejected d.config.db f)
    (hc : (accounts sec).commit d.config.db f.writes = .ok db) {i : Int} {u : User}
    (hu : d.config.db.users.get i = some u) (hst : u.status ≠ .rejected) :
    db.users.get i = some u := by
  obtain ⟨w, users, now, hw, deed, happly, rfl⟩ := flight_step hc
  have hi : i ≠ w.key d.config.db.users := by
    rintro rfl
    rcases filed_cases hcall hw deed hfresh hstill with rfl | ⟨j, old, new, rfl, hrejected, -⟩
    · exact absurd (Table.get_lt_next hu) (Int.lt_irrefl _)
    · exact hst (hrejected u hu)
  show users.get i = some u
  rw [RowWrite.get_of_ne happly hi, hu]

theorem Docket.Accurate.next {e : Machine.Event (Request AccountCall)} (h : d.Accurate)
    (hp : ∀ k f, e = .commit k → d.config.flying[k]? = some f → Handling f.req.call ∧
      FreshHash d.config.db f ∧ StillRejected d.config.db f) : (d.next e).Accurate := by
  cases e with
  | begin a =>
    intro i u hash hu hhash
    have hdb : (d.next (.begin a)).config.db = d.config.db := d.config.begin_db a
    rw [hdb] at hu
    exact h i u hash hu hhash
  | commit k =>
    rcases hf : d.config.flying[k]? with _ | f
    · have hsame : d.next (.commit k) = d := by
        unfold Docket.next
        simp [Machine.Config.commit, hf]
      rw [hsame]
      exact h
    · obtain ⟨hcall, hfresh, hstill⟩ := hp k f rfl hf
      intro i u hash hu hhash
      rcases hc : (accounts sec).commit d.config.db f.writes with fault | db
      · obtain ⟨hdb, hsub⟩ := Docket.next_refused hf hc
        rw [hdb] at hu
        rw [hsub] at hhash
        exact h i u hash hu hhash
      · obtain ⟨hdb, hsub⟩ := Docket.next_commit hf hc
        rw [hdb] at hu
        rw [hsub] at hhash
        exact h.commit hcall hfresh hstill hc i u hash hu hhash

theorem Docket.Accurate.undisturbed {e : Machine.Event (Request AccountCall)} (h : d.Accurate)
    (hp : ∀ k f, e = .commit k → d.config.flying[k]? = some f → Handling f.req.call ∧
      FreshHash d.config.db f ∧ StillRejected d.config.db f) : d.Undisturbed e := by
  refine ⟨?_, fun i u hash hu _ hhash => h.next hp i u hash hu hhash⟩
  rintro k f payload rfl hf hcall i u hu hst
  obtain ⟨-, hfresh, hstill⟩ := hp k f rfl hf
  refine ⟨u, ?_, .refl u⟩
  rcases hc : (accounts sec).commit d.config.db f.writes with fault | db
  · rw [(Docket.next_refused hf hc).1, hu]
  · rw [(Docket.next_commit hf hc).1]
    exact standing_of_commit hcall hfresh hstill hc hu hst

end

/-! ## Interleavings -/

theorem Docket.Accurate.all {evs : List (Machine.Event (Request AccountCall))} :
    ∀ {d : Docket sec}, d.Accurate →
      Machine.Config.Each (fun db f => Handling f.req.call ∧ FreshHash db f ∧ StillRejected db f)
        d.config evs → d.All Docket.Undisturbed evs := by
  induction evs with
  | nil => intro d _ _; trivial
  | cons e evs ih =>
    intro d h ⟨hp, hrest⟩
    exact ⟨h.undisturbed hp, ih (h.next hp) hrest⟩

/-- In an interleaving of applications, approvals and rejections, no application disturbs one that
is pending or approved, as long as each that is written over a row finds it still `REJECTED`. -/
theorem applications_undisturbed (sec : Security) (s₀ : Store)
    {evs : List (Machine.Event (Request AccountCall))}
    (hcalls : Machine.Config.Each (fun _ (f : Flight sec) => Handling f.req.call)
      (.quiet _ s₀) evs)
    (hfresh : Machine.Config.Each FreshHash (.quiet (accounts sec) s₀) evs)
    (hstill : Machine.Config.Each StillRejected (.quiet (accounts sec) s₀) evs) :
    (Docket.opened sec s₀).All Docket.Undisturbed evs := by
  have hopened : (Docket.opened sec s₀).Accurate := by
    intro i u hash _ hhash
    cases hhash
  refine hopened.all ?_
  exact hcalls.and (hfresh.and hstill)

/-! ## In the office -/

/-- Choi has applied for an account and was rejected. -/
def officeWithRejected : Store :=
  { Office.store with
    users := Office.store.users.insert
      { applicant Office.sec Office.env Office.application with status := .rejected } }

def applyWith (salt password : String) (h : 1 ≤ password.length := by decide) :
    Request AccountCall :=
  ⟨{ Office.env with salt }, .signup { Office.application with password := ⟨password, h⟩ }⟩

def approveChoi : Request AccountCall := ⟨Office.env, .approve 4 Office.employment⟩

/-- Choi applies again and is approved; a second application comes too late. -/
theorem applications_undisturbed_office :
    (Docket.opened Office.sec officeWithRejected).All Docket.Undisturbed
      [.begin (applyWith "t" "new password"), .commit 0, .begin (applyWith "u" "someone's"),
        .begin approveChoi, .commit 0] :=
  applications_undisturbed Office.sec officeWithRejected (by decide +kernel) (by decide +kernel)
    (by decide +kernel)

/-- Choi applies again while somebody else does, and the account has the password of the other. -/
def bothApply : List (Machine.Event (Request AccountCall)) :=
  [.begin (applyWith "t" "new password"), .begin (applyWith "u" "someone's"), .commit 0, .commit 0]

theorem application_overwritten :
    ¬ ∀ (sec : Security) (s₀ : Store) (evs : List (Machine.Event (Request AccountCall))),
      Machine.Config.Each (fun _ (f : Flight sec) => Handling f.req.call) (.quiet _ s₀) evs →
      Machine.Config.Each FreshHash (.quiet (accounts sec) s₀) evs →
      (Docket.opened sec s₀).All Docket.Undisturbed evs := by
  intro hall
  obtain ⟨-, -, -, h, -⟩ :=
    hall Office.sec officeWithRejected bothApply (by decide +kernel) (by decide +kernel)
  let d : Docket Office.sec := ((Docket.opened Office.sec officeWithRejected).next
    (.begin (applyWith "t" "new password"))).next (.begin (applyWith "u" "someone's")) |>.next
      (.commit 0)
  have h : d.Undisturbed (.commit 0) := h
  have hflying : (d.config.flying[0]?.bind fun f => application? f.req.call).isSome = true := by
    decide +kernel
  have hbefore : (d.config.db.users.get 4).map (fun u => (u.status, u.passwordHash)) =
      some (.pending, "t$new password") := by
    decide +kernel
  have hafter : ((d.next (.commit 0)).config.db.users.get 4).map User.passwordHash =
      some "u$someone's" := by
    decide +kernel
  obtain ⟨payload, hpayload⟩ := Option.isSome_iff_exists.mp hflying
  obtain ⟨f, hf, hpayload⟩ := Option.bind_eq_some_iff.mp hpayload
  obtain ⟨u, hu, heq⟩ := Option.map_eq_some_iff.mp hbefore
  obtain ⟨hst, hhash⟩ := Prod.mk.inj heq
  have hcall := application_eq_some hpayload
  obtain ⟨u', hu', hsame⟩ := h.standing 0 f payload rfl hf hcall 4 u hu (by rw [hst]; decide)
  rw [hu', Option.map_some, Option.some.injEq, hsame.passwordHash, hhash] at hafter
  revert hafter
  decide

end Biztrip.Accounts
