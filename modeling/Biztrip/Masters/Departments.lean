import Biztrip.Accounts.Deed
import Biztrip.Masters.Deed

/-!
# Departments and who refers to them

A user names a department by its key, and no foreign key holds the user to it: whoever
writes the column looks the department up first, and `delete_department` counts the
users itself. Centers and child departments are held by foreign keys, which the
deletion meets in its flush. Both halves make one rule (`deletion_rule`): a department
goes if nothing refers to it, and otherwise nothing happens.
-/

namespace Biztrip.Masters

open Biztrip.Lib Admin Accounts

/-- Every user belongs to a department that is there. -/
def Housed (s : Store) : Prop :=
  ∀ i u, s.users.get i = some u → ∃ d, s.departments.get u.departmentId = some d

/-- Nothing refers to department `i`. -/
structure Unreferred (s : Store) (i : Int) : Prop where
  user : ∀ j u, s.users.get j = some u → u.departmentId ≠ i
  fundCenter : ∀ j c, s.fundCenters.get j = some c → c.departmentId ≠ some i
  costCenter : ∀ j c, s.costCenters.get j = some c → c.departmentId ≠ some i
  child : ∀ j d, s.departments.get j = some d → j ≠ i → d.parentId ≠ some i

variable {sec : Security} {s s' : Store} {env : Env} {now : Instant} {req : Request Call}

/-! ## Who writes the column -/

/-- The department that a call writes into the user table. -/
def sentDepartment : AccountCall → Option Int
  | .signup payload => some payload.departmentId
  | .create payload => some payload.departmentId
  | .update _ _ payload => payload.departmentId.val?
  | _ => none

/-- Every call looks up the department it is sent. -/
theorem found_of_account_plan {call : AccountCall} {p : Plan} {i : Int}
    (h : call.plan sec s env = .ok p) (hi : sentDepartment call = some i) :
    ∃ d, s.departments.get i = some d := by
  cases call with
  | signup payload =>
    cases hi
    obtain ⟨_, -, h⟩ := bind_eq_ok.mp h
    obtain ⟨_, hfound, -⟩ := bind_eq_ok.mp h
    exact Option.isSome_iff_exists.mp (found_of_assertDepartment hfound)
  | create payload =>
    cases hi
    obtain ⟨_, -, h⟩ := bind_eq_ok.mp h
    obtain ⟨_, -, h⟩ := bind_eq_ok.mp h
    obtain ⟨_, -, h⟩ := bind_eq_ok.mp h
    obtain ⟨_, hfound, -⟩ := bind_eq_ok.mp h
    exact Option.isSome_iff_exists.mp (found_of_assertDepartment hfound)
  | update actorId userId payload =>
    obtain ⟨_, -, h⟩ := bind_eq_ok.mp h
    obtain ⟨_, -, h⟩ := bind_eq_ok.mp h
    obtain ⟨_, hvalid, -⟩ := bind_eq_ok.mp h
    obtain ⟨_, hfound, -⟩ := bind_eq_ok.mp hvalid
    exact Option.isSome_iff_exists.mp
      (found_of_assertDepartment (checkSome_eq_ok.mp hfound i hi))
  | _ => cases hi

/-- A row that is written has the department that was sent or the one it had. -/
theorem AccountDeed.departmentId {call : AccountCall} {w : RowWrite User} {new : User}
    (deed : AccountDeed sec s env call w) (hnew : w.row? = some new) :
    sentDepartment call = some new.departmentId ∨
      ∃ i u, s.users.get i = some u ∧ new.departmentId = u.departmentId := by
  cases deed with
  | apply fresh | create fresh =>
    cases hnew
    exact .inl rfl
  | reapply get email status moved =>
    cases hnew
    exact .inl (moved ▸ rfl)
  | setPassword get moved | approve get status moved | reject get status moved =>
    cases hnew
    exact .inr ⟨_, _, get, moved ▸ rfl⟩
  | @update actorId userId payload u u' get assigned =>
    cases hnew
    obtain ⟨-, rfl⟩ := assign_eq_ok assigned
    rcases hp : payload.departmentId with _ | _ | v
    · exact .inr ⟨_, _, get, by simp [Sent.onto]⟩
    · exact .inr ⟨_, _, get, by simp [Sent.onto]⟩
    · exact .inl (by simp [sentDepartment, hp, Sent.val?, Sent.onto])

theorem Housed.account_step {call : AccountCall} (h : Housed s)
    (hstep : (accounts sec).step s ⟨env, call⟩ = .ok s') : Housed s' := by
  obtain ⟨p, hplan, -⟩ := bind_eq_ok.mp hstep
  obtain ⟨w, users, now, deed, happly, rfl⟩ := Accounts.account_step hstep
  refine (deed.loaded.forall_iff
    (K := fun u : User => ∃ d, s.departments.get u.departmentId = some d)
    (fun _ _ => Iff.rfl) happly h).mpr fun new hnew => ?_
  rcases AccountDeed.departmentId deed hnew with hsent | ⟨i, u, hu, hdep⟩
  · exact found_of_account_plan hplan hsent
  · exact hdep ▸ h i u hu

/-! ## Who deletes departments -/

/-- The statement deletes no department that a user of `s` belongs to. -/
def SparesHomes (s : Store) (w : Write) : Prop :=
  ∀ i, w = .department (.delete i) → ∀ j u, s.users.get j = some u → u.departmentId ≠ i

theorem sparesHomes_single {p : Plan} {w : Write} (hw : p.writes = [w]) (h : SparesHomes s w) :
    ∀ w ∈ p.writes, SparesHomes s w := by
  intro w' hw'
  rw [hw, List.mem_singleton] at hw'
  exact hw' ▸ h

theorem MasterCall.sparesHomes (call : MasterCall) :
    Ensures (call.plan s env) fun p => ∀ w ∈ p.writes, SparesHomes s w := by
  cases call with
  | deleteDepartment departmentId =>
    refine ensures_bind fun _ _ => ensures_bind fun _ hfree => ensures_ok ?_
    refine sparesHomes_single rfl fun i hi j u hu => ?_
    obtain rfl : departmentId = i := by simpa using hi
    exact Store.taken_eq_false.mp (guardE_eq_ok.mp hfree) j u hu nofun
  | _ =>
    repeat refine ensures_bind fun _ _ => ?_
    exact ensures_ok (sparesHomes_single rfl nofun)

theorem Call.sparesHomes (call : Call) :
    Ensures (call.plan sec s env) fun p => ∀ w ∈ p.writes, SparesHomes s w := by
  intro p hp
  have hareas := call.plan_areas p hp
  cases call with
  | master call => exact MasterCall.sparesHomes call p hp
  | code call =>
    rcases codeDeed_of_plan hp with ⟨w, hw, -⟩ | ⟨⟨w, hw⟩, -⟩
    · exact sparesHomes_single hw nofun
    · exact sparesHomes_single hw nofun
  | _ =>
    rintro w hw i rfl
    have hmem := hareas _ hw
    simp [Write.area, Call.areas] at hmem

/-- A department stays unless it is deleted. -/
theorem department_of_flush {w : Write} {i : Int} {d : Department} (h : s.flush now w = .ok s')
    (hw : w ≠ .department (.delete i)) (hd : s.departments.get i = some d) :
    ∃ d', s'.departments.get i = some d' := by
  obtain ⟨_, -, h⟩ := bind_eq_ok.mp h
  cases w with
  | department w =>
    obtain ⟨t, happly, h⟩ := bind_eq_ok.mp h
    rw [pure_eq_ok, Except.ok.injEq] at h
    subst h
    cases w with
    | insert r =>
      rw [RowWrite.apply_insert, Except.ok.injEq] at happly
      exact ⟨d, by rw [← happly, Table.get_insert_of_some hd]⟩
    | update j old new =>
      obtain ⟨at₀, hget⟩ := writtenBack_of_apply happly
      refine Option.isSome_iff_exists.mp ?_
      rw [hget]
      split <;> simp [hd]
    | delete j =>
      rw [RowWrite.apply_delete, Except.ok.injEq] at happly
      refine ⟨d, ?_⟩
      have hij : i ≠ j := fun hij => hw (by rw [hij])
      rw [← happly, Table.get_delete, if_neg hij, hd]
  | log entity row => exact ⟨d, Except.ok.inj h ▸ hd⟩
  | center kind w =>
    obtain ⟨t, -, h⟩ := bind_eq_ok.mp h
    rw [← Except.ok.inj h]
    exact ⟨d, by cases kind <;> exact hd⟩
  | _ w =>
    obtain ⟨t, -, h⟩ := bind_eq_ok.mp h
    exact ⟨d, Except.ok.inj h ▸ hd⟩

theorem homes_of_flushes {seen : Store} {ws : List Write} (hws : ∀ w ∈ ws, SparesHomes seen w)
    (h : ws.foldlM (Store.flush now) s = .ok s') {j : Int} {u : User}
    (hu : seen.users.get j = some u) :
    (∃ d, s.departments.get u.departmentId = some d) →
      ∃ d, s'.departments.get u.departmentId = some d :=
  relation_of_flushes
    (R := fun a b => (∃ d, a.departments.get u.departmentId = some d) →
      ∃ d, b.departments.get u.departmentId = some d)
    (fun _ => id) (fun _ _ _ hab hbc => hbc ∘ hab)
    (fun w hw _ _ hflush ⟨_, hd⟩ =>
      department_of_flush hflush (fun hdel => hws w hw _ hdel j u hu rfl) hd) h

theorem Housed.step (h : Housed s) (hstep : (system sec).step s req = .ok s') : Housed s' := by
  rcases system_step_accounts hstep with ⟨call, -, hacc⟩ | husers
  · exact h.account_step hacc
  · obtain ⟨p, hplan, hcommit⟩ := bind_eq_ok.mp hstep
    have hspares := Call.sparesHomes req.call p hplan
    intro i u hu
    rw [husers] at hu
    exact homes_of_flushes hspares (Plan.commit_eq_ok.mp hcommit) hu (h i u hu)

/-! ## Deleting a department -/

/-- The deletion of department `i`. -/
def deletion (env : Env) (i : Int) : Request Call := ⟨env, .master (.deleteDepartment i)⟩

/-- It goes through exactly if nothing refers to the department, and then takes this one row; or it
is refused as a conflict and leaves everything as it is. -/
structure AllOrNothing (sec : Security) (s : Store) (env : Env) (i : Int) : Prop where
  succeeds_iff : (∃ s', (system sec).step s (deletion env i) = .ok s') ↔ Unreferred s i
  deletes : ∀ s', (system sec).step s (deletion env i) = .ok s' →
    s' = { s with departments := s.departments.delete i }
  refused : ¬ Unreferred s i →
    (∃ message, (system sec).step s (deletion env i) =
      .error (.app (conflictError "HAS_DEPENDENTS" message none))) ∧
    Run.all (system sec).step s [deletion env i] = s

/-- The foreign keys of centers and departments, as the deletion meets them. -/
theorem check_delete_department {i : Int} :
    s.check (.department (.delete i)) = .ok () ↔
      (∀ j d, s.departments.get j = some d → j ≠ i → d.parentId ≠ some i) ∧
      (∀ j c, s.fundCenters.get j = some c → c.departmentId ≠ some i) ∧
      ∀ j c, s.costCenters.get j = some c → c.departmentId ≠ some i := by
  simp [Store.check, bind_eq_ok, Store.referenced, Store.taken_eq_false]

theorem raises_check_delete_department {i : Int} :
    Raises (s.check (.department (.delete i))) fun e => ∃ v, e = .integrity v :=
  raises_bind (raises_guardE ⟨_, rfl⟩) fun _ _ =>
    raises_bind (raises_guardE ⟨_, rfl⟩) fun _ _ => raises_guardE ⟨_, rfl⟩

theorem unreferred_iff {i : Int} : Unreferred s i ↔
    Store.referenced s.users User.departmentId i = false ∧
      s.check (.department (.delete i)) = .ok () := by
  rw [check_delete_department, Store.referenced, Store.taken_eq_false]
  constructor
  · rintro ⟨huser, hfund, hcost, hchild⟩
    exact ⟨fun j u hu _ => huser j u hu, hchild, hfund, hcost⟩
  · rintro ⟨huser, hchild, hfund, hcost⟩
    exact ⟨fun j u hu => huser j u hu nofun, hfund, hcost, hchild⟩

section
variable {i : Int} {d : Department} (hload : Departments.load s i = .ok d)
include hload

/-- The users are counted before the row is deleted. -/
theorem plan_deletion (husers : Store.referenced s.users User.departmentId i = false) :
    (system sec).plan s (deletion env i) = .ok (deleteEntity env (.department (.delete i))
      "이 부서를 참조하는 센터·하위 부서가 있어 삭제할 수 없습니다") :=
  bind_eq_ok.mpr ⟨d, hload, bind_eq_ok.mpr ⟨(), guardE_eq_ok.mpr husers, rfl⟩⟩

theorem step_deletion_ok (h : Unreferred s i) : (system sec).step s (deletion env i) =
    .ok { s with departments := s.departments.delete i } := by
  obtain ⟨husers, hcheck⟩ := unreferred_iff.mp h
  refine bind_eq_ok.mpr ⟨_, plan_deletion hload husers, Plan.commit_eq_ok.mpr ?_⟩
  refine bind_eq_ok.mpr ⟨_, ?_, rfl⟩
  rw [Store.flush, hcheck]
  rfl

/-- What else refers to the row stops its `DELETE`. -/
theorem step_deletion_error (h : ¬ Unreferred s i) :
    ∃ message, (system sec).step s (deletion env i) =
      .error (.app (conflictError "HAS_DEPENDENTS" message none)) := by
  rcases husers : Store.referenced s.users User.departmentId i with _ | _
  · rcases he : s.check (.department (.delete i)) with e | u
    · obtain ⟨v, rfl⟩ := raises_check_delete_department _ he
      refine ⟨"이 부서를 참조하는 센터·하위 부서가 있어 삭제할 수 없습니다", ?_⟩
      refine bind_eq_error.mpr (.inr ⟨_, plan_deletion hload husers, ?_⟩)
      have hflush : [Write.department (.delete i)].foldlM (Store.flush env.txnNow) s =
          .error (.integrity v) := by
        rw [List.foldlM_cons, Store.flush, he]
        rfl
      simp only [system, Plan.commit, deleteEntity, hflush, Plan.translate]
    · exact absurd (unreferred_iff.mpr ⟨husers, he⟩) h
  · refine ⟨"이 부서에 속한 사용자가 있어 삭제할 수 없습니다", ?_⟩
    refine bind_eq_error.mpr (.inl (bind_eq_error.mpr (.inr ⟨d, hload, ?_⟩)))
    exact bind_eq_error.mpr (.inl (guardE_eq_error.mpr ⟨by simp [husers], rfl⟩))

theorem allOrNothing : AllOrNothing sec s env i where
  succeeds_iff := by
    refine ⟨fun ⟨s', hstep⟩ => ?_, fun h => ⟨_, step_deletion_ok hload h⟩⟩
    by_contra h
    obtain ⟨message, hrefused⟩ := @step_deletion_error sec s env i d hload h
    rw [hrefused] at hstep
    cases hstep
  deletes s' hstep := by
    by_cases h : Unreferred s i
    · rw [step_deletion_ok hload h, Except.ok.injEq] at hstep
      exact hstep.symm
    · obtain ⟨message, hrefused⟩ := @step_deletion_error sec s env i d hload h
      rw [hrefused] at hstep
      cases hstep
  refused h := by
    obtain ⟨message, hrefused⟩ := @step_deletion_error sec s env i d hload h
    refine ⟨⟨message, hrefused⟩, ?_⟩
    rw [Run.all_cons, hrefused]
    rfl

end

/-! ## Runs -/

/-- From any store where every user's department is there, it still is after any serial run of
department, signup and account requests (and of whatever else the system does); and deleting a
department is all or nothing. -/
theorem departments_never_dangle (sec : Security) {s₀ : Store} (h₀ : Housed s₀)
    (reqs : List (Request Call)) :
    Housed (Run.all (system sec).step s₀ reqs) ∧
      ∀ s env i d, Departments.load s i = .ok d → AllOrNothing sec s env i :=
  ⟨Run.invariant_of_step (fun _ _ _ hs hstep => hs.step hstep) h₀,
    fun _ _ _ _ hload => allOrNothing hload⟩

/-- In the office, also after an attempt to delete the department of all its users. -/
theorem departments_never_dangle_office :
    Housed (Run.all (system Office.sec).step Office.store
      [⟨Office.env, .account (.signup Office.application)⟩, deletion Office.env 1]) ∧
      ∀ s env i d, Departments.load s i = .ok d → AllOrNothing Office.sec s env i := by
  refine departments_never_dangle Office.sec (fun i u hu => ?_) _
  have hrow := Table.mem_rows.mpr hu
  have hone : u.departmentId = 1 := by
    have hall : ∀ p ∈ Office.store.users.rows, p.2.departmentId = 1 := by decide
    exact hall _ hrow
  exact ⟨⟨"D1", "Sales", none⟩, by rw [hone]; rfl⟩

end Biztrip.Masters
