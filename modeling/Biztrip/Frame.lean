import Biztrip.Desk.Deed

/-!
# Who writes what

The tables fall into five areas, and each kind of call keeps to its own
(`Call.plan_areas`): accounts, keys, master data and the desk are written by their
calls alone. What holds of the tables of one area after every run of its calls
therefore holds after every run of the whole system.
-/

namespace Biztrip

open Biztrip.Lib

inductive Area where
  | accounts
  | keys
  | masters
  | desk
  | notices
  deriving DecidableEq, Repr

def Write.area : Write → Area
  | .user _ => .accounts
  | .apiKey _ => .keys
  | .department _ | .codeGroup _ | .code _ | .center _ _ | .card _ => .masters
  | .trip _ | .report _ | .item _ | .log _ _ => .desk
  | .notification _ => .notices

/-- The areas a call may write to. The history of the desk notifies. -/
def Call.areas : Call → List Area
  | .desk _ _ => [.desk, .notices]
  | .account _ => [.accounts]
  | .code _ | .master _ => [.masters]
  | .personal _ _ => [.keys, .notices]

/-! ## Frames -/

/-- The tables of the desk are the same. -/
structure SameDesk (s s' : Store) : Prop where
  trips : s'.trips = s.trips
  reports : s'.reports = s.reports
  items : s'.items = s.items
  activityLog : s'.activityLog = s.activityLog

theorem SameDesk.refl (s : Store) : SameDesk s s := ⟨rfl, rfl, rfl, rfl⟩

theorem SameDesk.trans {s₁ s₂ s₃ : Store} (h : SameDesk s₁ s₂) (h' : SameDesk s₂ s₃) :
    SameDesk s₁ s₃ :=
  ⟨h'.trips.trans h.trips, h'.reports.trans h.reports, h'.items.trans h.items,
    h'.activityLog.trans h.activityLog⟩

section
variable {s s' : Store} {now : Instant} {ws : List Write}

theorem Write.sameDesk {w : Write} (hw : w.area ≠ .desk) (h : s.flush now w = .ok s') :
    SameDesk s s' := by
  obtain ⟨_, -, h⟩ := bind_eq_ok.mp h
  cases w with
  | trip w | report w | item w | log entity row => exact absurd rfl hw
  | center kind w =>
    obtain ⟨t, -, h⟩ := bind_eq_ok.mp h
    rw [← Except.ok.inj h]
    cases kind <;> exact ⟨rfl, rfl, rfl, rfl⟩
  | _ w =>
    obtain ⟨t, -, h⟩ := bind_eq_ok.mp h
    exact Except.ok.inj h ▸ ⟨rfl, rfl, rfl, rfl⟩

theorem Write.sameUsers {w : Write} (hw : w.area ≠ .accounts) (h : s.flush now w = .ok s') :
    s'.users = s.users := by
  obtain ⟨_, -, h⟩ := bind_eq_ok.mp h
  cases w with
  | user w => exact absurd rfl hw
  | log entity row => exact Except.ok.inj h ▸ rfl
  | center kind w =>
    obtain ⟨t, -, h⟩ := bind_eq_ok.mp h
    rw [← Except.ok.inj h]
    cases kind <;> rfl
  | _ w =>
    obtain ⟨t, -, h⟩ := bind_eq_ok.mp h
    exact Except.ok.inj h ▸ rfl

theorem Write.sameKeys {w : Write} (hw : w.area ≠ .keys) (h : s.flush now w = .ok s') :
    s'.apiKeys = s.apiKeys := by
  obtain ⟨_, -, h⟩ := bind_eq_ok.mp h
  cases w with
  | apiKey w => exact absurd rfl hw
  | log entity row => exact Except.ok.inj h ▸ rfl
  | center kind w =>
    obtain ⟨t, -, h⟩ := bind_eq_ok.mp h
    rw [← Except.ok.inj h]
    cases kind <;> rfl
  | _ w =>
    obtain ⟨t, -, h⟩ := bind_eq_ok.mp h
    exact Except.ok.inj h ▸ rfl

/-- A relation that holds of doing nothing and of each statement holds of their sequence. -/
theorem relation_of_flushes {R : Store → Store → Prop} (hrefl : ∀ s, R s s)
    (htrans : ∀ a b c, R a b → R b c → R a c)
    (hws : ∀ w ∈ ws, ∀ s s', s.flush now w = .ok s' → R s s') :
    ∀ {s s' : Store}, ws.foldlM (Store.flush now) s = .ok s' → R s s' := by
  induction ws with
  | nil =>
    intro s s' h
    rw [List.foldlM_nil, pure_eq_ok, Except.ok.injEq] at h
    exact h ▸ hrefl s
  | cons w ws ih =>
    intro s s' h
    rw [List.foldlM_cons] at h
    obtain ⟨s₁, hflush, h⟩ := bind_eq_ok.mp h
    exact htrans _ _ _ (hws w List.mem_cons_self _ _ hflush)
      (ih (fun w' hw' => hws w' (List.mem_cons_of_mem _ hw')) h)

theorem sameDesk_of_flushes (hws : ∀ w ∈ ws, w.area ≠ .desk)
    (h : ws.foldlM (Store.flush now) s = .ok s') : SameDesk s s' :=
  relation_of_flushes .refl (fun _ _ _ => .trans) (fun w hw _ _ => w.sameDesk (hws w hw)) h

theorem sameUsers_of_flushes (hws : ∀ w ∈ ws, w.area ≠ .accounts)
    (h : ws.foldlM (Store.flush now) s = .ok s') : s'.users = s.users :=
  relation_of_flushes (R := fun s s' => s'.users = s.users) (fun _ => rfl)
    (fun _ _ _ h h' => h'.trans h) (fun w hw _ _ => w.sameUsers (hws w hw)) h

theorem sameKeys_of_flushes (hws : ∀ w ∈ ws, w.area ≠ .keys)
    (h : ws.foldlM (Store.flush now) s = .ok s') : s'.apiKeys = s.apiKeys :=
  relation_of_flushes (R := fun s s' => s'.apiKeys = s.apiKeys) (fun _ => rfl)
    (fun _ _ _ h h' => h'.trans h) (fun w hw _ _ => w.sameKeys (hws w hw)) h

end

/-! ## The areas of a call -/

/-- All statements of a plan are in the given areas. -/
def Plan.Within (areas : List Area) (p : Plan) : Prop := ∀ w ∈ p.writes, w.area ∈ areas

theorem Plan.within_single {areas : List Area} {p : Plan} {w : Write} (h : p.writes = [w])
    (hw : w.area ∈ areas) : p.Within areas := by
  intro w' hw'
  rw [h, List.mem_singleton] at hw'
  exact hw' ▸ hw

theorem area_of_mem_history {env : Env} {entityType : EntityType} {entity : EntityRef}
    {tr : Transition} {w : Write} (h : w ∈ recordTransition env entityType entity tr) :
    w.area ∈ [Area.desk, .notices] := by
  rcases List.mem_cons.mp h with rfl | h
  · exact List.mem_cons_self
  · unfold Transition.notificationWrites at h
    split at h
    · cases h
    · split at h
      · cases h
      · rw [List.mem_singleton.mp h]
        exact List.mem_cons_of_mem _ List.mem_cons_self

theorem area_of_mem_cons {env : Env} {entityType : EntityType} {entity : EntityRef}
    {tr : Transition} {w w₀ : Write} (h₀ : w₀.area = .desk)
    (h : w ∈ w₀ :: recordTransition env entityType entity tr) : w.area ∈ [Area.desk, .notices] := by
  rcases List.mem_cons.mp h with rfl | h
  · exact h₀ ▸ List.mem_cons_self
  · exact area_of_mem_history h

section
variable {sec : Security} {s : Store} {env : Env} {user : CurrentUser}

theorem AccountCall.areas (call : AccountCall) :
    Ensures (call.plan sec s env) (Plan.Within [.accounts]) := by
  cases call with
  | signup payload =>
    refine ensures_bind fun _ _ => ensures_bind fun _ _ => ?_
    split
    · refine ensures_bind fun _ _ => ensures_bind fun _ _ => ?_
      refine ensures_bind fun _ _ => ensures_bind fun _ _ => ?_
      exact ensures_ok (Plan.within_single rfl List.mem_cons_self)
    · exact ensures_bind fun _ _ => ensures_ok (Plan.within_single rfl List.mem_cons_self)
  | _ =>
    repeat refine ensures_bind fun _ _ => ?_
    exact ensures_ok (Plan.within_single rfl List.mem_cons_self)

theorem CodeCall.areas (call : CodeCall) : Ensures (call.plan s env) (Plan.Within [.masters]) := by
  cases call <;>
    (repeat refine ensures_bind fun _ _ => ?_) <;>
    exact ensures_ok (Plan.within_single rfl List.mem_cons_self)

theorem MasterCall.areas (call : MasterCall) :
    Ensures (call.plan s env) (Plan.Within [.masters]) := by
  cases call <;>
    (repeat refine ensures_bind fun _ _ => ?_) <;>
    exact ensures_ok (Plan.within_single rfl List.mem_cons_self)

theorem PersonalCall.areas (call : PersonalCall) :
    Ensures (call.plan sec s env user) (Plan.Within [.keys, .notices]) := by
  cases call with
  | createKey payload =>
    refine ensures_bind fun ⟨raw, p⟩ hp => ensures_ok ?_
    obtain ⟨_, -, hp⟩ := bind_eq_ok.mp hp
    obtain ⟨_, -, hp⟩ := bind_eq_ok.mp hp
    obtain ⟨_, -, hp⟩ := bind_eq_ok.mp hp
    rw [pure_eq_ok, Except.ok.injEq, Prod.mk.injEq] at hp
    obtain ⟨-, rfl⟩ := hp
    exact Plan.within_single rfl List.mem_cons_self
  | revokeKey keyId =>
    repeat refine ensures_bind fun _ _ => ?_
    exact ensures_ok (Plan.within_single rfl List.mem_cons_self)
  | markRead notificationId =>
    repeat refine ensures_bind fun _ _ => ?_
    exact ensures_ok (Plan.within_single rfl (List.mem_cons_of_mem _ List.mem_cons_self))

/-- The statements of a desk request, and its history. -/
theorem Desk.Deed.areas {call : DeskCall} {ws : List Write} (deed : Desk.Deed s env user call ws) :
    ∀ w ∈ ws, w.area ∈ [Area.desk, .notices] := by
  intro w hw
  cases deed with
  | trip deed =>
    cases deed with
    | delete => exact List.mem_singleton.mp hw ▸ List.mem_cons_self
    | _ => exact area_of_mem_cons rfl hw
  | expense deed =>
    cases deed with
    | addItem | updateItem | deleteItem =>
      rcases List.mem_cons.mp hw with rfl | hw
      · exact List.mem_cons_self
      · exact List.mem_singleton.mp hw ▸ List.mem_cons_self
    | approve =>
      rcases List.mem_append.mp hw with hw | hw <;> exact area_of_mem_cons rfl hw
    | _ => exact area_of_mem_cons rfl hw

theorem Call.plan_areas (call : Call) : Ensures (call.plan sec s env) (Plan.Within call.areas) := by
  cases call with
  | desk userId call =>
    intro p hp
    obtain ⟨user, -, deed⟩ := Desk.deed_of_plan (r := ⟨env, userId, call⟩) hp
    exact deed.areas
  | account call => exact call.areas
  | code call => exact call.areas
  | master call => exact call.areas
  | personal userId call => exact ensures_bind fun user _ => call.areas

end

/-! ## Requests of the system -/

section
variable {sec : Security} {s s' : Store} {req : Request Call}

/-- A request of the system is a request of the desk or keeps off it. -/
theorem system_plan_cases {p : Plan} (h : (system sec).plan s req = .ok p) :
    (∃ userId call, req.call = .desk userId call ∧ desk.plan s ⟨req.env, userId, call⟩ = .ok p) ∨
      ∀ w ∈ p.writes, w.area ≠ .desk := by
  rcases req with ⟨env, call⟩
  have hwithin := call.plan_areas p h
  cases call with
  | desk userId call => exact .inl ⟨userId, call, rfl, h⟩
  | _ =>
    refine .inr fun w hw harea => ?_
    have := hwithin w hw
    simp [harea, Call.areas] at this

/-- A step of the system is a step of the desk or leaves its tables alone. -/
theorem system_step_cases (h : (system sec).step s req = .ok s') :
    (∃ userId call, req.call = .desk userId call ∧ desk.step s ⟨req.env, userId, call⟩ = .ok s') ∨
      SameDesk s s' := by
  obtain ⟨p, hplan, hcommit⟩ := bind_eq_ok.mp h
  rcases system_plan_cases hplan with ⟨userId, call, hcall, hplan⟩ | hp
  · exact .inl ⟨userId, call, hcall, bind_eq_ok.mpr ⟨p, hplan, hcommit⟩⟩
  · exact .inr (sameDesk_of_flushes hp (Plan.commit_eq_ok.mp hcommit))

/-- A step of the system is a step of the accounts or leaves the user table alone. -/
theorem system_step_accounts (h : (system sec).step s req = .ok s') :
    (∃ call, req.call = .account call ∧ (accounts sec).step s ⟨req.env, call⟩ = .ok s') ∨
      s'.users = s.users := by
  obtain ⟨p, hplan, hcommit⟩ := bind_eq_ok.mp h
  rcases req with ⟨env, call⟩
  have hwithin := call.plan_areas p hplan
  cases call with
  | account call => exact .inl ⟨call, rfl, h⟩
  | _ =>
    refine .inr (sameUsers_of_flushes (fun w hw harea => ?_) (Plan.commit_eq_ok.mp hcommit))
    have := hwithin w hw
    simp [harea, Call.areas] at this

end

end Biztrip
