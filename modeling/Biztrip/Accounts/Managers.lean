import Biztrip.Accounts.Deed
import Biztrip.Frame

/-!
# Nobody manages themselves

Three calls put a manager into the user table, and `_assert_manager` stands before
each: `create_user` names a user that exists, so not the one it makes, and
`update_user` and `approve_user` refuse the account itself. An application leaves
the manager empty, and the other calls leave it as it is.
-/

namespace Biztrip.Accounts

open Biztrip.Lib Admin.Users

/-- What `_assert_manager` has been asked before the call writes. -/
def ManagerChecked (s : Store) : AccountCall → Prop
  | .create payload => assertManager s payload.managerId none = .ok ()
  | .update _ userId payload => assertManager s payload.managerId.val? (some userId) = .ok ()
  | .approve userId payload => assertManager s payload.managerId (some userId) = .ok ()
  | _ => True

def NoneOwnManager (s : Store) : Prop := ∀ i u, s.users.get i = some u → u.managerId ≠ some i

variable {sec : Security} {s s' : Store}

theorem assertManager_eq_ok {managerId selfId : Option Int} {a : Unit} :
    assertManager s managerId selfId = .ok a ↔
      ∀ m, managerId = some m → selfId ≠ some m ∧ IsInt4 m ∧ (s.users.get m).isSome := by
  unfold assertManager
  simp only [checkSome_eq_ok, bind_eq_ok, guardE_eq_ok, sessionGet_eq_ok]
  refine forall_congr' fun m => imp_congr_right fun _ => ?_
  constructor
  · rintro ⟨_, hself, _, ⟨hid, rfl⟩, hsome⟩
    exact ⟨hself, hid, hsome⟩
  · rintro ⟨hself, hid, hsome⟩
    exact ⟨(), hself, _, ⟨hid, rfl⟩, hsome⟩

theorem managerChecked_of_plan {env : Env} {call : AccountCall} {p : Plan}
    (h : call.plan sec s env = .ok p) : ManagerChecked s call := by
  cases call with
  | create payload =>
    obtain ⟨_, -, h⟩ := bind_eq_ok.mp h
    obtain ⟨_, -, h⟩ := bind_eq_ok.mp h
    obtain ⟨_, -, h⟩ := bind_eq_ok.mp h
    obtain ⟨_, -, h⟩ := bind_eq_ok.mp h
    obtain ⟨_, hmanager, -⟩ := bind_eq_ok.mp h
    exact hmanager
  | update actorId userId payload =>
    obtain ⟨u, -, h⟩ := bind_eq_ok.mp h
    obtain ⟨_, -, h⟩ := bind_eq_ok.mp h
    obtain ⟨_, hchanges, -⟩ := bind_eq_ok.mp h
    obtain ⟨_, -, hchanges⟩ := bind_eq_ok.mp hchanges
    obtain ⟨_, hmanager, -⟩ := bind_eq_ok.mp hchanges
    exact hmanager
  | approve userId payload =>
    obtain ⟨u, -, h⟩ := bind_eq_ok.mp h
    obtain ⟨_, -, h⟩ := bind_eq_ok.mp h
    obtain ⟨_, -, h⟩ := bind_eq_ok.mp h
    obtain ⟨_, hmanager, -⟩ := bind_eq_ok.mp h
    exact hmanager
  | signup payload => trivial
  | setPassword userId payload => trivial
  | reject userId => trivial

/-! ## One statement -/

theorem NoneOwnManager.inserted {row : User} (h : NoneOwnManager s)
    (hrow : row.managerId ≠ some s.users.next) :
    NoneOwnManager { s with users := s.users.insert row } := by
  intro i u hu
  rcases Table.get_insert_eq_some hu with ⟨rfl, rfl⟩ | ⟨-, hu⟩
  · exact hrow
  · exact h i u hu

theorem NoneOwnManager.updated {users : Table User} {k : Int} {new : User} (h : NoneOwnManager s)
    (hupd : Updated s.users users k new) (hnew : new.managerId ≠ some k) :
    NoneOwnManager { s with users := users } := by
  intro i u hu
  rcases hupd.cases hu with ⟨rfl, at₀, rfl⟩ | ⟨-, hu⟩
  · exact hnew
  · exact h i u hu

/-! ## One request -/

theorem NoneOwnManager.step {req : Request AccountCall} (h : NoneOwnManager s)
    (hstep : (accounts sec).step s req = .ok s') : NoneOwnManager s' := by
  obtain ⟨p, hplan, -⟩ := bind_eq_ok.mp hstep
  have hchecked := managerChecked_of_plan hplan
  obtain ⟨w, users, now, deed, happly, rfl⟩ := account_step hstep
  generalize req.call = call at deed hchecked
  cases deed with
  | apply fresh =>
    rw [RowWrite.apply_insert, Except.ok.injEq] at happly
    subst happly
    exact h.inserted (by simp [applicant])
  | create fresh =>
    rw [RowWrite.apply_insert, Except.ok.injEq] at happly
    subst happly
    refine h.inserted fun hm => ?_
    -- the manager is there already, so the row is not
    obtain ⟨-, -, hsome⟩ := assertManager_eq_ok.mp hchecked _ hm
    simp at hsome
  | reapply get email status moved =>
    subst moved
    have hold := h _ _ get
    exact h.updated (updated_of_apply get happly) hold
  | @update actorId userId payload u u' get assigned =>
    refine h.updated (updated_of_apply get happly) ?_
    have hassigned : u'.managerId = payload.managerId.setNullable u.managerId := by
      rw [(assign_eq_ok assigned).2]
    rw [hassigned]
    rcases hsent : payload.managerId with _ | _ | m
    · exact h _ _ get
    · exact nofun
    · have hself := (assertManager_eq_ok.mp hchecked m (by rw [hsent]; rfl)).1
      exact fun he => hself he.symm
  | setPassword get moved =>
    subst moved
    have hold := h _ _ get
    exact h.updated (updated_of_apply get happly) hold
  | approve get status moved =>
    subst moved
    refine h.updated (updated_of_apply get happly) fun hm => ?_
    exact (assertManager_eq_ok.mp hchecked _ hm).1 rfl
  | reject get status moved =>
    subst moved
    have hold := h _ _ get
    exact h.updated (updated_of_apply get happly) hold

theorem NoneOwnManager.systemStep {req : Request Call} (h : NoneOwnManager s)
    (hstep : (system sec).step s req = .ok s') : NoneOwnManager s' := by
  rcases system_step_accounts hstep with ⟨call, -, hstep⟩ | hsame
  · exact h.step hstep
  · unfold NoneOwnManager
    rw [hsame]
    exact h

end Biztrip.Accounts
