import Biztrip.Frame
import Biztrip.Masters.Codes

/-!
# What the administration of master data decides

Every call on the master data is one statement (`MasterDeed`). For centers and cards the
statement comes with what the guards have established: the code of a center and the
owner of a card never change, and a center goes only when no column holds its code.
-/

namespace Biztrip.Masters

open Biztrip.Lib Admin

/-- Some column that may hold a code of this kind holds this one. -/
def Used (s : Store) (kind : CenterKind) (code : String) : Prop :=
  ∃ p ∈ CenterMaster.references s code kind, p.1 = true

inductive CenterDeed (s : Store) (kind : CenterKind) : RowWrite Center → Prop where
  | create {c : Center} : CenterDeed s kind (.insert c)
  | update {i : Int} {c c' : Center} (get : (s.centers kind).get i = some c)
    (code : c'.code = c.code) : CenterDeed s kind (.update i c c')
  | delete {i : Int} {c : Center} (get : (s.centers kind).get i = some c)
    (unused : ¬ Used s kind c.code) : CenterDeed s kind (.delete i)

inductive CardDeed (s : Store) : RowWrite CorporateCard → Prop where
  | create {c : CorporateCard} : CardDeed s (.insert c)
  | update {i : Int} {c c' : CorporateCard} (get : s.cards.get i = some c)
    (userId : c'.userId = c.userId) : CardDeed s (.update i c c')
  | delete {i : Int} : CardDeed s (.delete i)

inductive MasterDeed (s : Store) : Write → Prop where
  | department (w : RowWrite Department) : MasterDeed s (.department w)
  | codeGroup (w : RowWrite CodeGroup) : MasterDeed s (.codeGroup w)
  | code (w : RowWrite Code) : MasterDeed s (.code w)
  | center {kind : CenterKind} {w : RowWrite Center} (deed : CenterDeed s kind w) :
    MasterDeed s (.center kind w)
  | card {w : RowWrite CorporateCard} (deed : CardDeed s w) : MasterDeed s (.card w)

variable {s s' : Store} {env : Env} {now : Instant} {kind : CenterKind} {p : Plan}

/-! ## The plans of the services are deeds -/

theorem masterDeed_createDepartment {payload : DepartmentCreate}
    (h : Departments.createDepartment s env payload = .ok p) :
    ∃ w, p.writes = [w] ∧ MasterDeed s w := by
  obtain ⟨_, -, h⟩ := bind_eq_ok.mp h
  obtain ⟨_, -, h⟩ := bind_eq_ok.mp h
  obtain ⟨_, -, h⟩ := bind_eq_ok.mp h
  rw [pure_eq_ok, Except.ok.injEq] at h
  exact ⟨_, by rw [← h], .department _⟩

theorem masterDeed_updateDepartment {departmentId : Int} {payload : DepartmentUpdate}
    (h : Departments.updateDepartment s env departmentId payload = .ok p) :
    ∃ w, p.writes = [w] ∧ MasterDeed s w := by
  obtain ⟨_, -, h⟩ := bind_eq_ok.mp h
  obtain ⟨_, -, h⟩ := bind_eq_ok.mp h
  obtain ⟨_, -, h⟩ := bind_eq_ok.mp h
  rw [pure_eq_ok, Except.ok.injEq] at h
  exact ⟨_, by rw [← h], .department _⟩

theorem masterDeed_deleteDepartment {departmentId : Int}
    (h : Departments.deleteDepartment s env departmentId = .ok p) :
    ∃ w, p.writes = [w] ∧ MasterDeed s w := by
  obtain ⟨_, -, h⟩ := bind_eq_ok.mp h
  obtain ⟨_, -, h⟩ := bind_eq_ok.mp h
  rw [pure_eq_ok, Except.ok.injEq] at h
  exact ⟨_, by rw [← h]; rfl, .department _⟩

theorem masterDeed_createCenter {payload : CenterCreate}
    (h : CenterMaster.createCenter s env kind payload = .ok p) :
    ∃ w, p.writes = [w] ∧ MasterDeed s w := by
  obtain ⟨_, -, h⟩ := bind_eq_ok.mp h
  obtain ⟨_, -, h⟩ := bind_eq_ok.mp h
  obtain ⟨_, -, h⟩ := bind_eq_ok.mp h
  rw [pure_eq_ok, Except.ok.injEq] at h
  exact ⟨_, by rw [← h], .center .create⟩

/-- `update_center` has no field for the code. -/
theorem assign_code {c c' : Center} {payload : CenterUpdate}
    (h : CenterMaster.assign c payload = .ok c') : c'.code = c.code := by
  obtain ⟨_, -, h⟩ := bind_eq_ok.mp h
  obtain ⟨_, -, h⟩ := bind_eq_ok.mp h
  obtain ⟨_, -, h⟩ := bind_eq_ok.mp h
  rw [pure_eq_ok, Except.ok.injEq] at h
  exact h ▸ rfl

theorem masterDeed_updateCenter {centerId : Int} {payload : CenterUpdate}
    (h : CenterMaster.updateCenter s env kind centerId payload = .ok p) :
    ∃ w, p.writes = [w] ∧ MasterDeed s w := by
  obtain ⟨c, hload, h⟩ := bind_eq_ok.mp h
  obtain ⟨_, -, h⟩ := bind_eq_ok.mp h
  obtain ⟨c', hassign, h⟩ := bind_eq_ok.mp h
  rw [pure_eq_ok, Except.ok.injEq] at h
  exact ⟨_, by rw [← h], .center (.update (loadOr_eq_ok.mp hload).2 (assign_code hassign))⟩

theorem masterDeed_deleteCenter {centerId : Int}
    (h : CenterMaster.deleteCenter s env kind centerId = .ok p) :
    ∃ w, p.writes = [w] ∧ MasterDeed s w := by
  obtain ⟨c, hload, h⟩ := bind_eq_ok.mp h
  obtain ⟨_, hfree, h⟩ := bind_eq_ok.mp h
  rw [pure_eq_ok, Except.ok.injEq] at h
  refine ⟨_, by rw [← h]; rfl, .center (.delete (loadOr_eq_ok.mp hload).2 ?_)⟩
  rintro ⟨q, hq, hfound⟩
  have hnot := guardE_eq_ok.mp (forE_eq_ok.mp hfree q hq)
  rw [hfound] at hnot
  cases hnot

theorem masterDeed_createCard {payload : AdminCardCreate}
    (h : Cards.createCard s env payload = .ok p) : ∃ w, p.writes = [w] ∧ MasterDeed s w := by
  obtain ⟨_, -, h⟩ := bind_eq_ok.mp h
  obtain ⟨_, -, h⟩ := bind_eq_ok.mp h
  obtain ⟨_, -, h⟩ := bind_eq_ok.mp h
  obtain ⟨_, -, h⟩ := bind_eq_ok.mp h
  rw [pure_eq_ok, Except.ok.injEq] at h
  exact ⟨_, by rw [← h], .card .create⟩

/-- `update_card` has no field for the owner. -/
theorem assign_userId {c c' : CorporateCard} {payload : AdminCardUpdate}
    (h : Cards.assign c payload = .ok c') : c'.userId = c.userId := by
  simp only [Cards.assign, bind_eq_ok, pure_eq_ok, Except.ok.injEq] at h
  obtain ⟨_, -, _, -, _, -, _, -, _, -, rfl⟩ := h
  rfl

theorem masterDeed_updateCard {cardId : Int} {payload : AdminCardUpdate}
    (h : Cards.updateCard s env cardId payload = .ok p) :
    ∃ w, p.writes = [w] ∧ MasterDeed s w := by
  obtain ⟨c, hload, h⟩ := bind_eq_ok.mp h
  obtain ⟨c', hassign, h⟩ := bind_eq_ok.mp h
  rw [pure_eq_ok, Except.ok.injEq] at h
  exact ⟨_, by rw [← h], .card (.update (loadOr_eq_ok.mp hload).2 (assign_userId hassign))⟩

theorem masterDeed_deleteCard {cardId : Int} (h : Cards.deleteCard s env cardId = .ok p) :
    ∃ w, p.writes = [w] ∧ MasterDeed s w := by
  obtain ⟨_, -, h⟩ := bind_eq_ok.mp h
  rw [pure_eq_ok, Except.ok.injEq] at h
  exact ⟨_, by rw [← h]; rfl, .card .delete⟩

theorem masterDeed_of_plan {call : MasterCall} (h : call.plan s env = .ok p) :
    ∃ w, p.writes = [w] ∧ MasterDeed s w := by
  cases call with
  | createDepartment payload => exact masterDeed_createDepartment h
  | updateDepartment departmentId payload => exact masterDeed_updateDepartment h
  | deleteDepartment departmentId => exact masterDeed_deleteDepartment h
  | createCenter kind payload => exact masterDeed_createCenter h
  | updateCenter kind centerId payload => exact masterDeed_updateCenter h
  | deleteCenter kind centerId => exact masterDeed_deleteCenter h
  | createCard payload => exact masterDeed_createCard h
  | updateCard cardId payload => exact masterDeed_updateCard h
  | deleteCard cardId => exact masterDeed_deleteCard h

/-- A request of the system is one statement on the masters or leaves them alone. -/
theorem systemDeed_of_plan {sec : Security} {req : Request Call}
    (h : (system sec).plan s req = .ok p) :
    (∃ w, p.writes = [w] ∧ MasterDeed s w) ∨ ∀ w ∈ p.writes, w.area ≠ .masters := by
  rcases req with ⟨env, call⟩
  have hareas := call.plan_areas p h
  cases call with
  | code call =>
    rcases codeDeed_of_plan h with ⟨w, hw, -⟩ | ⟨⟨w, hw⟩, -⟩
    · exact .inl ⟨_, hw, .code w⟩
    · exact .inl ⟨_, hw, .codeGroup w⟩
  | master call => exact .inl (masterDeed_of_plan h)
  | _ =>
    refine .inr fun w hw harea => ?_
    have hmem := hareas w hw
    simp [harea, Call.areas] at hmem

/-! ## Frames -/

/-- The tables that `desk` requests look codes, centers and cards up in. -/
structure SameMasters (s s' : Store) : Prop where
  codeGroups : s'.codeGroups = s.codeGroups
  codes : s'.codes = s.codes
  centers : ∀ kind, s'.centers kind = s.centers kind
  cards : s'.cards = s.cards

theorem SameMasters.refl (s : Store) : SameMasters s s := ⟨rfl, rfl, fun _ => rfl, rfl⟩

theorem SameMasters.trans {s₁ s₂ s₃ : Store} (h : SameMasters s₁ s₂) (h' : SameMasters s₂ s₃) :
    SameMasters s₁ s₃ :=
  ⟨h'.codeGroups.trans h.codeGroups, h'.codes.trans h.codes,
    fun kind => (h'.centers kind).trans (h.centers kind), h'.cards.trans h.cards⟩

theorem sameMasters_of_flush {w : Write} (hw : w.area ≠ .masters) (h : s.flush now w = .ok s') :
    SameMasters s s' := by
  obtain ⟨_, -, h⟩ := bind_eq_ok.mp h
  cases w with
  | department w | codeGroup w | code w | center kind w | card w => exact absurd rfl hw
  | log entity row => exact Except.ok.inj h ▸ ⟨rfl, rfl, fun kind => by cases kind <;> rfl, rfl⟩
  | _ w =>
    obtain ⟨t, -, h⟩ := bind_eq_ok.mp h
    exact Except.ok.inj h ▸ ⟨rfl, rfl, fun kind => by cases kind <;> rfl, rfl⟩

theorem sameMasters_of_flushes {ws : List Write} (hws : ∀ w ∈ ws, w.area ≠ .masters)
    (h : ws.foldlM (Store.flush now) s = .ok s') : SameMasters s s' :=
  relation_of_flushes .refl (fun _ _ _ => .trans)
    (fun w hw _ _ => sameMasters_of_flush (hws w hw)) h

/-- Desk requests read the masters and leave them as they are. -/
theorem sameMasters_of_deed {seen : Store} {user : CurrentUser} {call : DeskCall}
    {ws : List Write} (deed : Desk.Deed seen env user call ws)
    (hc : ws.foldlM (Store.flush now) s = .ok s') : SameMasters s s' := by
  refine sameMasters_of_flushes (fun w hw harea => ?_) hc
  have hmem := deed.areas w hw
  simp [harea] at hmem

end Biztrip.Masters
