import Biztrip.Accounts.Placement
import Biztrip.Frame

/-!
# Administrators in office

`InOffice` is an administrator who can act: the role, an approved account, and the
switch on. Of all the calls only `update_user` takes a role or switches off an approved
account, and it refuses to do so to the one who calls it.
-/

namespace Biztrip.Accounts

open Biztrip.Lib Admin.Users

def Approved (s : Store) (i : Int) : Prop := ∃ u, s.users.get i = some u ∧ u.status = .active

def InOffice (s : Store) (i : Int) : Prop :=
  ∃ u, s.users.get i = some u ∧ u.role = .admin ∧ u.status = .active ∧ u.isActive = true

variable {sec : Security} {s s' : Store} {i : Int}

theorem InOffice.of_users (h : InOffice s i) (hu : s'.users = s.users) : InOffice s' i := by
  unfold InOffice
  rw [hu]
  exact h

theorem Approved.of_users (h : Approved s i) (hu : s'.users = s.users) : Approved s' i := by
  unfold Approved
  rw [hu]
  exact h

/-- Whoever calls `update_user` keeps the role and stays switched on. -/
theorem keeps_office {payload : AdminUserUpdate} {u u' : User} {a : Unit}
    (h : assertNotDemotingSelf i i payload = .ok a) (hassign : assign u payload = .ok u')
    (hrole : u.role = .admin) (hon : u.isActive = true) :
    u'.role = .admin ∧ u'.isActive = true ∧ u'.status = u.status := by
  simp only [assertNotDemotingSelf, whenE_eq_ok, true_implies, bind_eq_ok, checkSome_eq_ok,
    guardE_eq_ok] at h
  obtain ⟨_, hsentRole, hsentActive⟩ := h
  obtain ⟨-, rfl⟩ := assign_eq_ok hassign
  refine ⟨?_, ?_, rfl⟩
  · rcases hp : payload.role with _ | _ | role
    · exact hrole
    · exact hrole
    · exact hsentRole role (by rw [hp]; rfl)
  · rcases hp : payload.isActive with _ | _ | isActive
    · exact hon
    · exact hon
    · cases isActive with
      | true => rfl
      | false => exact absurd hp hsentActive

theorem notDemoting_of_plan {env : Env} {actorId userId : Int} {payload : AdminUserUpdate}
    {p : Plan}
    (h : AccountCall.plan sec s env (.update actorId userId payload) = .ok p) :
    assertNotDemotingSelf actorId userId payload = .ok () := by
  obtain ⟨u, -, h⟩ := bind_eq_ok.mp h
  obtain ⟨_, hguard, -⟩ := bind_eq_ok.mp h
  exact hguard

/-- An administrator stays in office unless somebody else updates the account. -/
theorem InOffice.step {req : Request AccountCall} (h : InOffice s i)
    (hself : ∀ actorId payload, req.call = .update actorId i payload → actorId = i)
    (hstep : (accounts sec).step s req = .ok s') : InOffice s' i := by
  obtain ⟨p, hplan, -⟩ := bind_eq_ok.mp hstep
  obtain ⟨u, hu, hrole, hst, hon⟩ := h
  obtain ⟨w, users, now, deed, happly, rfl⟩ := account_step hstep
  have keep : ∀ {k : Int} {old new : User}, w = .update k old new → s.users.get k = some old →
      (i = k → old.role = .admin → old.status = .active → old.isActive = true →
        new.role = .admin ∧ new.isActive = true ∧ new.status = .active) →
      InOffice { s with users := users } i := by
    rintro k old new rfl hold hkeep
    have hupd := updated_of_apply hold happly
    by_cases hik : i = k
    · subst hik
      rw [hu, Option.some.injEq] at hold
      subst hold
      obtain ⟨at₀, hget⟩ := hupd.get_self
      obtain ⟨hrole', hon', hst'⟩ := hkeep rfl hrole hst hon
      exact ⟨_, hget, hrole', hst', hon'⟩
    · exact ⟨u, by rw [hupd.get_of_ne hik, hu], hrole, hst, hon⟩
  rcases req with ⟨env, call⟩
  have hplan : call.plan sec s env = .ok p := hplan
  cases deed with
  | apply fresh | create fresh =>
    rw [RowWrite.apply_insert, Except.ok.injEq] at happly
    subst happly
    exact ⟨u, Table.get_insert_of_some hu, hrole, hst, hon⟩
  | reapply get email status moved => exact keep rfl get (by simp [status])
  | approve get status moved => exact keep rfl get (by simp [status])
  | reject get status moved => exact keep rfl get (by simp [status])
  | setPassword get moved =>
    refine keep rfl get fun _ hr hs ho => ?_
    rw [moved]
    exact ⟨hr, ho, hs⟩
  | @update actorId userId payload old new get assigned =>
    refine keep rfl get fun hik hr hs ho => ?_
    subst hik
    obtain rfl := hself actorId payload rfl
    obtain ⟨hr', ho', hs'⟩ := keeps_office (notDemoting_of_plan hplan) assigned hr ho
    exact ⟨hr', ho', hs'.trans hs⟩

theorem Approved.step {req : Request Call} (h : Approved s i)
    (hstep : (system sec).step s req = .ok s') : Approved s' i := by
  rcases system_step_accounts hstep with ⟨call, -, hstep⟩ | hsame
  · obtain ⟨u, hu, hst⟩ := h
    exact active_stays hstep hu hst
  · exact h.of_users hsame

end Biztrip.Accounts
