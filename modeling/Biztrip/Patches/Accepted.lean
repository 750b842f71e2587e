import Biztrip.Patches.Outcome
import Biztrip.Masters.Codes

/-!
# When a partial update ends well

`Patch.Accepted` is the exact condition, operation by operation: an earlier check
refuses, or no null was sent for a column that is not null and every sent value
can be carried by its column. A header of a report has no such column, so its
update always ends well once the driver can send the keys. The last operation of
the code master also needs the rows it replies with to be readable.
-/

namespace Biztrip.Patches

open Biztrip.Lib Codes Admin Masters

/-! ## Conditions -/

/-- A text that the database can hold, if one was sent. -/
def Encodable {α : Type} (f : Sent α) (val : α → String) : Prop :=
  ∀ v, f = .value v → IsText (val v)

/-- The checks of `update_trip` up to the comparison of the dates. -/
def tripGuards (s : Store) (userId tripId : Int) (payload : TripUpdate) : Result Trip := do
  let user ← currentUser s userId
  let trip ← Trips.loadVisibleTrip s tripId user
  assertTripOwner user.id trip.userId
  assertEditable trip.status
  validateCodes s <| Trips.codeFields
    ((payload.purposeCode.map Str.val).setNullable (some trip.purposeCode))
    ((payload.destinationTypeCode.map Str.val).setNullable (some trip.destinationTypeCode))
    ((payload.countryCode.map Str.val).setNullable (some trip.countryCode))
  return trip

def reportGuards (s : Store) (userId reportId : Int) (payload : ExpenseReportUpdate) :
    Result ExpenseReport := do
  let user ← currentUser s userId
  let report ← Expenses.loadEditableReport s user reportId
  Expenses.validateCenters s (payload.fundCenterCode.map Str.val).val?
    (payload.costCenterCode.map Str.val).val?
  return report

def itemGuards (s : Store) (userId itemId : Int) (payload : ExpenseItemUpdate) :
    Result ExpenseItem := do
  let user ← currentUser s userId
  let (item, _) ← Expenses.loadItemForEdit s user itemId
  Expenses.validateItemChanges s payload
  return item

def userGuards (s : Store) (actorId userId : Int) (payload : AdminUserUpdate) : Result User := do
  let user ← Users.load s userId
  Users.assertNotDemotingSelf actorId userId payload
  Users.validateChanges s userId payload
  return user

def departmentGuards (s : Store) (departmentId : Int) (payload : DepartmentUpdate) :
    Result Department := do
  let department ← Departments.load s departmentId
  Departments.assertParent s payload.parentId.val? (some departmentId)
  return department

def centerGuards (s : Store) (kind : CenterKind) (centerId : Int) (payload : CenterUpdate) :
    Result Center := do
  let center ← CenterMaster.load s kind centerId
  checkSome payload.departmentId.val? (assertDepartment s)
  return center

/-- The dates are compared before the other fields are written. -/
def TripWritable (payload : TripUpdate) (trip : Trip) : Prop :=
  payload.startDate ≠ .null ∧ payload.endDate ≠ .null ∧
    (payload.endDate.onto trip.endDate < payload.startDate.onto trip.startDate ∨
      payload.title ≠ .null ∧ payload.purposeDetail ≠ .null ∧ payload.city ≠ .null ∧
        Encodable payload.title Str.val ∧ Encodable payload.purposeDetail StrMin.val ∧
        Encodable payload.city Str.val)

def ItemWritable (payload : ExpenseItemUpdate) : Prop :=
  payload.expenseCategoryCode ≠ .null ∧ payload.amountKrw ≠ .null ∧ payload.isExcluded ≠ .null ∧
    Encodable payload.memo Str.val ∧ ∀ d, payload.amountKrw = .value d → IsNumeric d

def UserWritable (payload : AdminUserUpdate) : Prop :=
  payload.name ≠ .null ∧ payload.departmentId ≠ .null ∧ payload.role ≠ .null ∧
    payload.isActive ≠ .null ∧ Encodable payload.name Str.val

def GroupWritable (payload : CodeGroupUpdate) : Prop :=
  payload.name ≠ .null ∧ payload.isActive ≠ .null ∧ Encodable payload.name Str.val ∧
    Encodable payload.description Str.val

/-- A null for `extra` is written, and fails the reply. -/
def CodeWritable (payload : CodeUpdate) (code : Code) : Prop :=
  payload.name ≠ .null ∧ payload.sortOrder ≠ .null ∧ payload.isActive ≠ .null ∧
    payload.extra ≠ .null ∧ Encodable payload.name Str.val ∧
    (∀ n, payload.sortOrder = .value n → IsInt4 n) ∧
    (∀ o, payload.extra = .value o → o.storable = true) ∧ (payload.extra = .absent → Readable code)

def CardWritable (payload : AdminCardUpdate) : Prop :=
  payload.cardNoMasked ≠ .null ∧ payload.brand ≠ .null ∧ payload.isActive ≠ .null ∧
    Encodable payload.cardNoMasked Str.val ∧ Encodable payload.brand Str.val

def Patch.Accepted (s : Store) : Patch → Prop
  | .trip userId tripId payload =>
    RefusedOr (tripGuards s userId tripId payload) (TripWritable payload)
  | .report userId reportId payload =>
    RefusedOr (reportGuards s userId reportId payload) fun _ => True
  | .item userId itemId payload =>
    RefusedOr (itemGuards s userId itemId payload) fun _ => ItemWritable payload
  | .user actorId userId payload =>
    RefusedOr (userGuards s actorId userId payload) fun _ => UserWritable payload
  | .department departmentId payload => RefusedOr (departmentGuards s departmentId payload) fun _ =>
      payload.name ≠ .null ∧ Encodable payload.name Str.val
  | .codeGroup groupId payload => RefusedOr (CodeMaster.loadGroup s groupId) fun _ =>
      GroupWritable payload ∧ ∀ p ∈ codesOf s groupId, Readable p.2
  | .code codeId payload => RefusedOr (CodeMaster.loadCode s codeId) (CodeWritable payload)
  | .center kind centerId payload => RefusedOr (centerGuards s kind centerId payload) fun _ =>
      payload.name ≠ .null ∧ payload.isActive ≠ .null ∧ Encodable payload.name Str.val
  | .card cardId payload => RefusedOr (Cards.load s cardId) fun _ => CardWritable payload

/-! ## Writing the fields -/

variable {sec : Security} {s : Store} {env : Env}

theorem internal_dataError (column : String) : Internal (.dataError column) := nofun

theorem internal_integrity (v : Violation) : Internal (.integrity v) := nofun

section
variable {α : Type} {f : Sent α} {column : String}

theorem raises_setRequired {cur : α} :
    Raises (f.setRequired cur (Fault.integrity (.notNull column))) Internal := by
  intro e he
  rw [(Sent.setRequired_eq_error.mp he).2]
  exact internal_integrity _

theorem exists_setRequired {cur : α} {P : α → Prop} :
    (∃ v, (f.setRequired cur (Fault.integrity (.notNull column)) = .ok v ∧ P v)) ↔
      f ≠ .null ∧ P (f.onto cur) := by
  simp [Sent.setRequired_eq_ok]

theorem setNullable_of_ne_null (h : f ≠ .null) (cur : α) :
    f.setNullable (some cur) = some (f.onto cur) := by
  cases f with
  | null => exact absurd rfl h
  | _ => rfl

end

/-- A value that was sent is carried by its column or the update fails. -/
theorem refusedOr_checkSome {α : Type} {f : Sent α} {check : α → Result Unit} {P : Unit → Prop}
    (h : ∀ v, Raises (check v) Internal) :
    RefusedOr (checkSome f.val? check) P ↔ (∀ v, f = .value v → check v = .ok ()) ∧ P () := by
  rw [refusedOr_of_raises (raises_checkSome h)]
  simp only [checkSome_eq_ok, Sent.val?_eq_some]
  constructor
  · rintro ⟨_, he, hp⟩
    exact ⟨he, hp⟩
  · rintro ⟨he, hp⟩
    exact ⟨(), he, hp⟩

theorem refusedOr_encode {α : Type} {f : Sent α} {column : String} {val : α → String}
    {P : Unit → Prop} :
    RefusedOr (checkSome f.val? fun v => text column (val v)) P ↔ Encodable f val ∧ P () := by
  rw [refusedOr_checkSome fun _ => raises_text fun _ => internal_dataError _]
  simp only [text, guardE_eq_ok, Encodable]

theorem refusedOr_int4 {f : Sent Int} {column : String} {P : Unit → Prop} :
    RefusedOr (checkSome f.val? (int4 column)) P ↔ (∀ n, f = .value n → IsInt4 n) ∧ P () := by
  rw [refusedOr_checkSome fun _ => raises_int4 fun _ => internal_dataError _]
  simp only [int4, guardE_eq_ok]

theorem refusedOr_storable {f : Sent JsonObject} {column : String} {P : Unit → Prop} :
    RefusedOr (checkSome f.val? fun o => guardE (o.storable = true) (.dataError column)) P ↔
      (∀ o, f = .value o → o.storable = true) ∧ P () := by
  rw [refusedOr_checkSome fun _ => raises_guardE (internal_dataError _)]
  simp only [guardE_eq_ok]

/-- A null for a column that is not null fails the update. -/
theorem refusedOr_setRequired {α : Type} {f : Sent α} {column : String} {cur : α} {P : α → Prop} :
    RefusedOr (f.setRequired cur (Fault.integrity (.notNull column))) P ↔
      f ≠ .null ∧ P (f.onto cur) := by
  rw [refusedOr_of_raises raises_setRequired, exists_setRequired]

/-! ## Committing -/

theorem answered_commit {p : Plan} (h : ∃ s', p.writes.foldlM (Store.flush p.now) s = .ok s') :
    Answered (p.commit s) := by
  obtain ⟨s', hs'⟩ := h
  exact .inl ⟨s', Plan.commit_eq_ok.mpr hs'⟩

/-- A row written back over the one loaded, with its history. -/
theorem answered_commit_trip {tripId : Int} {trip trip' : Trip} {tr : Transition}
    (h : s.trips.get tripId = some trip) :
    Answered (Plan.commit s {
      now := env.txnNow
      writes := .trip (.update tripId trip trip') ::
        recordTransition env .trip (.stored tripId) tr }) := by
  obtain ⟨u, hu⟩ := Store.flush_trip_loaded h
  exact answered_commit ⟨_, by rw [List.foldlM_cons, hu, ok_bind, Store.flush_history]⟩

theorem commit_one {now : Instant} {w : Write} {onIntegrity : Option AppError} {s' : Store}
    (h : s.flush now w = .ok s') : Plan.commit s ⟨now, [w], onIntegrity⟩ = .ok s' :=
  Plan.commit_eq_ok.mpr (by rw [List.foldlM_cons, h, ok_bind]; rfl)

theorem answered_commit_one {now : Instant} {w : Write} {onIntegrity : Option AppError}
    (h : ∃ s', s.flush now w = .ok s') : Answered (Plan.commit s ⟨now, [w], onIntegrity⟩) := by
  obtain ⟨s', hs'⟩ := h
  exact .inl ⟨s', commit_one hs'⟩

/-- A row of a table without history, written back over the one loaded: its check is all that is
left. -/
theorem exists_apply {ρ : Type} [Merge ρ] [DecidableEq ρ] {t : Table ρ} {i : Int} {old : ρ}
    (now : Instant) (new : ρ) (h : t.get i = some old) :
    ∃ t', (RowWrite.update i old new).apply now Fault.staleData t = .ok t' ∧
      Updated t t' i new := by
  obtain ⟨f, at₀, he, -⟩ := RowWrite.apply_update_loaded h
  exact ⟨_, he, updated_of_apply h he⟩

/-! ## The nine operations -/

/-- The merged code values have been looked up, so none of them is null. -/
theorem codes_not_null {trip : Trip} {payload : TripUpdate} {u : Unit}
    (h : validateCodes s (Trips.codeFields
      ((payload.purposeCode.map Str.val).setNullable (some trip.purposeCode))
      ((payload.destinationTypeCode.map Str.val).setNullable (some trip.destinationTypeCode))
      ((payload.countryCode.map Str.val).setNullable (some trip.countryCode))) = .ok u) :
    payload.purposeCode ≠ .null ∧ payload.destinationTypeCode ≠ .null ∧
      payload.countryCode ≠ .null := by
  have hne : ∀ (cur : String) {f : Sent (Str 1 40)},
      (f.map Str.val).setNullable (some cur) ≠ none → f ≠ .null := by
    rintro cur f hf rfl
    exact hf rfl
  refine ⟨hne trip.purposeCode ?_, hne trip.destinationTypeCode ?_, hne trip.countryCode ?_⟩
  · exact ne_none_of_validateCodes h List.mem_cons_self
  · exact ne_none_of_validateCodes h (List.mem_cons_of_mem _ List.mem_cons_self)
  · exact ne_none_of_validateCodes h
      (List.mem_cons_of_mem _ (List.mem_cons_of_mem _ List.mem_cons_self))

theorem answered_trip {userId tripId : Int} {payload : TripUpdate} :
    Answered ((system sec).step s ⟨env, (Patch.trip userId tripId payload).call⟩) ↔
      (Patch.trip userId tripId payload).Accepted s := by
  change Answered ((currentUser s userId >>= fun user =>
    Trips.updateTrip s env user tripId payload) >>= fun p => p.commit s) ↔
      RefusedOr (tripGuards s userId tripId payload) (TripWritable payload)
  simp only [Trips.updateTrip, tripGuards, Trips.validateMerged, Trips.validateWritableFields,
    Trips.assign, bind_assoc, answered_bind, refusedOr_bind, pure_eq_ok, refusedOr_ok]
  refine refusedOr_congr fun user _ => refusedOr_congr fun trip hload => ?_
  refine refusedOr_congr fun _ _ => refusedOr_congr fun _ _ => refusedOr_congr fun _ hcodes => ?_
  have hget := (Trips.loadVisibleTrip_eq_ok.mp hload).2.1
  obtain ⟨hpurpose, hdestination, hcountry⟩ := codes_not_null hcodes
  simp only [refusedOr_encode, refusedOr_setRequired, Sent.map_eq_null, answered_commit_trip hget,
    and_true, hpurpose, hdestination, hcountry, ne_eq, not_false_eq_true, true_and, TripWritable]
  by_cases hs : payload.startDate = .null
  · simp [hs, Sent.setNullable]
  by_cases he : payload.endDate = .null
  · simp [he, Sent.setNullable]
  rw [setNullable_of_ne_null hs, setNullable_of_ne_null he]
  simp only [assertDateRange, refusedOr_guardE, hs, he, not_false_eq_true, true_and, and_true]
  tauto

theorem answered_report {userId reportId : Int} {payload : ExpenseReportUpdate} :
    Answered ((system sec).step s ⟨env, (Patch.report userId reportId payload).call⟩) ↔
      (Patch.report userId reportId payload).Accepted s := by
  change Answered ((currentUser s userId >>= fun user =>
    Expenses.updateReport s env user reportId payload) >>= fun p => p.commit s) ↔
      RefusedOr (reportGuards s userId reportId payload) fun _ => True
  simp only [Expenses.updateReport, reportGuards, bind_assoc, answered_bind, refusedOr_bind,
    pure_eq_ok, refusedOr_ok]
  refine refusedOr_congr fun user _ => refusedOr_congr fun report hload => ?_
  refine refusedOr_congr fun _ _ => iff_of_true ?_ trivial
  have hget := (Expenses.loadVisibleReport_eq_ok.mp
    (Expenses.loadEditableReport_eq_ok.mp hload).1).2.1
  obtain ⟨u, hu⟩ := Store.flush_report_loaded hget
  exact answered_commit ⟨_, by rw [List.foldlM_cons, hu, ok_bind, Store.flush_history]⟩

/-- The amount has been checked, so storing it can only fail in the driver. -/
theorem exists_assignAmount_iff (cur : Krw) {f : Sent Decimal}
    (hbound : ∀ d, f = .value d → assertItemAmount d = .ok ()) :
    (∃ x, Expenses.assignAmount cur f = .ok x) ↔
      f ≠ .null ∧ ∀ d, f = .value d → IsNumeric d := by
  rcases f with _ | _ | d
  · simp [Expenses.assignAmount]
  · simp [Expenses.assignAmount]
  · by_cases hd : IsNumeric d
    · obtain ⟨x, hx, -⟩ := storeKrw_of_assertItemAmount "amount_krw" (hbound d rfl) hd
      simp [Expenses.assignAmount, hx, hd]
    · simp [Expenses.assignAmount, storeKrw, guardE, hd]

theorem raises_assignAmount {cur : Krw} {f : Sent Decimal} :
    Raises (Expenses.assignAmount cur f) Internal := by
  rcases f with _ | _ | d
  · exact raises_ok
  · exact raises_error (internal_integrity _)
  · exact raises_bind (raises_guardE (internal_dataError _)) fun _ _ => raises_getE nofun

theorem refusedOr_editItems {j k : Int} {r : ExpenseReport} {it it' : ExpenseItem}
    (h : Desk.Exact s) (hget : s.items.get k = some it) (hj : it.reportId = j)
    (hj' : it'.reportId = j) (hr : s.reports.get j = some r)
    (hbound : 0 ≤ it'.amountKrw.units ∧ it'.amountKrw.units ≤ maxItemAmount.coeff) :
    RefusedOr (Expenses.editItems s env j r (.update k it it')) fun p => Answered (p.commit s) := by
  obtain ⟨items, hitems⟩ := Store.flush_item_loaded hget
  unfold Expenses.editItems
  rw [hitems, ok_bind]
  rcases hrecalc : Expenses.recalcTotal { s with items := items } j with e | total
  · -- the bound of the total is all that can be broken
    rw [error_bind, refusedOr_error]
    rcases bind_eq_error.mp hrecalc with hguard | ⟨_, -, hfits⟩
    · exact ⟨_, (guardE_eq_error.mp hguard).2⟩
    · have hfit : Raises (Expenses.editItems s env j r (.update k it it')) Desk.Fits :=
        h.raises_editItems (.update hget hj hj') (Desk.boundedRow_update hbound)
      rw [(getE_eq_error.mp hfits).2] at hrecalc
      rw [Expenses.editItems, hitems, ok_bind, hrecalc, error_bind] at hfit
      exact absurd rfl (hfit _ rfl)
  · rw [ok_bind, pure_eq_ok, refusedOr_ok]
    have hflush : ∃ u, Store.flush env.txnNow { s with items := items }
        (.report (.update j r { r with totalAmountKrw := total })) =
          .ok { s with items := items, reports := u } :=
      Store.flush_report_loaded hr
    obtain ⟨reports, hreports⟩ := hflush
    exact answered_commit ⟨_, by
      rw [List.foldlM_cons, hitems, ok_bind, List.foldlM_cons, hreports, ok_bind]
      rfl⟩

theorem answered_item {userId itemId : Int} {payload : ExpenseItemUpdate} (h : Desk.Exact s) :
    Answered ((system sec).step s ⟨env, (Patch.item userId itemId payload).call⟩) ↔
      (Patch.item userId itemId payload).Accepted s := by
  change Answered ((currentUser s userId >>= fun user =>
    Expenses.updateItem s env user itemId payload) >>= fun p => p.commit s) ↔
      RefusedOr (itemGuards s userId itemId payload) fun _ => ItemWritable payload
  simp only [Expenses.updateItem, itemGuards, Expenses.assignItem, bind_assoc, answered_bind,
    refusedOr_bind, pure_eq_ok, refusedOr_ok]
  refine refusedOr_congr fun user _ => refusedOr_congr fun ⟨item, report⟩ hload => ?_
  refine refusedOr_congr fun _ hchecked => ?_
  obtain ⟨-, hget, hload⟩ := Desk.loadItemForEdit_eq_ok.mp hload
  have hvisible := (Expenses.loadEditableReport_eq_ok.mp hload).1
  have hr := (Expenses.loadVisibleReport_eq_ok.mp hvisible).2.1
  have hchecked := fun d hd => Desk.bound_of_validateItemChanges (d := d) hchecked hd
  simp only [refusedOr_encode, refusedOr_setRequired, Sent.map_eq_null, ne_eq,
    refusedOr_of_raises raises_assignAmount]
  have hedit : ∀ x, Expenses.assignAmount item.amountKrw payload.amountKrw = .ok x →
      ∀ it', it'.amountKrw = x → it'.reportId = item.reportId →
      RefusedOr (Expenses.editItems s env item.reportId report (.update itemId item it')) fun p =>
        Answered (p.commit s) := by
    rintro x hx it' rfl hj
    exact refusedOr_editItems h hget rfl hj hr
      (Desk.assignAmount_bounds ⟨(h.item _ _ hget).nonneg, (h.item _ _ hget).bounded⟩ hchecked hx)
  have hamount := exists_assignAmount_iff item.amountKrw hchecked
  constructor
  · rintro ⟨hmemo, hcategory, x, hx, hexcluded, -⟩
    obtain ⟨hnull, hnumeric⟩ := hamount.mp ⟨x, hx⟩
    exact ⟨hcategory, hnull, hexcluded, hmemo, hnumeric⟩
  · rintro ⟨hcategory, hnull, hexcluded, hmemo, hnumeric⟩
    obtain ⟨x, hx⟩ := hamount.mpr ⟨hnull, hnumeric⟩
    exact ⟨hmemo, hcategory, x, hx, hexcluded, hedit x hx _ rfl rfl⟩

theorem answered_user {actorId userId : Int} {payload : AdminUserUpdate} :
    Answered ((system sec).step s ⟨env, (Patch.user actorId userId payload).call⟩) ↔
      (Patch.user actorId userId payload).Accepted s := by
  change Answered (Users.updateUser s env actorId userId payload >>= fun p => p.commit s) ↔
    RefusedOr (userGuards s actorId userId payload) fun _ => UserWritable payload
  simp only [Users.updateUser, userGuards, Users.assign, notNull, bind_assoc, answered_bind,
    refusedOr_bind, pure_eq_ok, ok_bind, refusedOr_ok]
  refine refusedOr_congr fun user hload => refusedOr_congr fun _ _ => refusedOr_congr fun _ _ => ?_
  have hcommit : ∀ user' : User, user'.employeeNo = user.employeeNo →
      Answered (Plan.commit s {
        now := env.txnNow, writes := [.user (.update userId user user')] }) := by
    intro user' hno
    obtain ⟨t, ht, -⟩ := exists_apply env.txnNow user' (loadOr_eq_ok.mp hload).2
    refine answered_commit_one ⟨_, bind_eq_ok.mpr ⟨(), ?_, bind_eq_ok.mpr ⟨t, ht, rfl⟩⟩⟩
    simp [Store.check, hno]
  simp only [refusedOr_encode, refusedOr_setRequired, Sent.map_eq_null, ne_eq]
  constructor
  · rintro ⟨htext, hname, hdepartment, hrole, hactive, -⟩
    exact ⟨hname, hdepartment, hrole, hactive, htext⟩
  · rintro ⟨hname, hdepartment, hrole, hactive, htext⟩
    exact ⟨htext, hname, hdepartment, hrole, hactive, hcommit _ rfl⟩

/-- A reference that was sent and found keeps the foreign key. -/
theorem refers_setNullable {ρ : Type} {t : Table ρ} {f : Sent Int} {cur : Option Int}
    (hfound : ∀ i, f = .value i → (t.get i).isSome = true) (hne : f.setNullable cur ≠ cur) :
    Store.refers t (f.setNullable cur) = true := by
  cases f with
  | absent => exact absurd rfl hne
  | null => rfl
  | value i => exact hfound i rfl

theorem found_of_assertParent {parentId self : Option Int} {u : Unit} {i : Int}
    (h : Departments.assertParent s parentId self = .ok u) (hi : parentId = some i) :
    (s.departments.get i).isSome = true := by
  obtain ⟨_, -, h⟩ := bind_eq_ok.mp (checkSome_eq_ok.mp h i hi)
  obtain ⟨o, ho, h⟩ := bind_eq_ok.mp h
  obtain ⟨-, rfl⟩ := sessionGet_eq_ok.mp ho
  exact guardE_eq_ok.mp h

theorem answered_department {departmentId : Int} {payload : DepartmentUpdate} :
    Answered ((system sec).step s ⟨env, (Patch.department departmentId payload).call⟩) ↔
      (Patch.department departmentId payload).Accepted s := by
  change Answered (Departments.updateDepartment s env departmentId payload >>=
      fun p => p.commit s) ↔
    RefusedOr (departmentGuards s departmentId payload) fun _ =>
      payload.name ≠ .null ∧ Encodable payload.name Str.val
  simp only [Departments.updateDepartment, departmentGuards, Departments.assign, notNull,
    bind_assoc, answered_bind, refusedOr_bind, pure_eq_ok, ok_bind, refusedOr_ok]
  refine refusedOr_congr fun department hload => refusedOr_congr fun _ hparent => ?_
  have hcommit : ∀ department' : Department,
      department'.parentId = payload.parentId.setNullable department.parentId →
      Answered (Plan.commit s {
        now := env.txnNow
        writes := [.department (.update departmentId department department')] }) := by
    intro department' hpid
    obtain ⟨t, ht, -⟩ := exists_apply env.txnNow department' (loadOr_eq_ok.mp hload).2
    refine answered_commit_one ⟨_, bind_eq_ok.mpr ⟨(), ?_, bind_eq_ok.mpr ⟨t, ht, rfl⟩⟩⟩
    refine whenE_eq_ok.mpr fun hne => guardE_eq_ok.mpr ?_
    rw [hpid] at hne ⊢
    exact refers_setNullable (fun i hi => found_of_assertParent hparent (by rw [hi]; rfl)) hne
  simp only [refusedOr_encode, refusedOr_setRequired, Sent.map_eq_null, ne_eq]
  constructor
  · rintro ⟨htext, hname, -⟩
    exact ⟨hname, htext⟩
  · rintro ⟨hname, htext⟩
    exact ⟨htext, hname, hcommit _ rfl⟩

theorem answered_center {kind : CenterKind} {centerId : Int} {payload : CenterUpdate} :
    Answered ((system sec).step s ⟨env, (Patch.center kind centerId payload).call⟩) ↔
      (Patch.center kind centerId payload).Accepted s := by
  change Answered (CenterMaster.updateCenter s env kind centerId payload >>= fun p => p.commit s) ↔
    RefusedOr (centerGuards s kind centerId payload) fun _ =>
      payload.name ≠ .null ∧ payload.isActive ≠ .null ∧ Encodable payload.name Str.val
  simp only [CenterMaster.updateCenter, centerGuards, CenterMaster.assign, notNull, bind_assoc,
    answered_bind, refusedOr_bind, pure_eq_ok, ok_bind, refusedOr_ok]
  refine refusedOr_congr fun center hload => refusedOr_congr fun _ hdepartment => ?_
  have hcommit : ∀ center' : Center,
      center'.departmentId = payload.departmentId.setNullable center.departmentId →
      Answered (Plan.commit s {
        now := env.txnNow, writes := [.center kind (.update centerId center center')] }) := by
    intro center' hdid
    obtain ⟨t, ht, -⟩ := exists_apply env.txnNow center' (loadOr_eq_ok.mp hload).2
    refine answered_commit_one ⟨_, bind_eq_ok.mpr ⟨(), ?_, bind_eq_ok.mpr ⟨t, ht, rfl⟩⟩⟩
    refine whenE_eq_ok.mpr fun hne => guardE_eq_ok.mpr ?_
    rw [hdid] at hne ⊢
    refine refers_setNullable (fun i hi => ?_) hne
    exact found_of_assertDepartment (checkSome_eq_ok.mp hdepartment i (by rw [hi]; rfl))
  simp only [refusedOr_encode, refusedOr_setRequired, Sent.map_eq_null, ne_eq]
  constructor
  · rintro ⟨htext, hname, hactive, -⟩
    exact ⟨hname, hactive, htext⟩
  · rintro ⟨hname, hactive, htext⟩
    exact ⟨htext, hname, hactive, hcommit _ rfl⟩

theorem answered_card {cardId : Int} {payload : AdminCardUpdate} :
    Answered ((system sec).step s ⟨env, (Patch.card cardId payload).call⟩) ↔
      (Patch.card cardId payload).Accepted s := by
  change Answered (Cards.updateCard s env cardId payload >>= fun p => p.commit s) ↔
    RefusedOr (Cards.load s cardId) fun _ => CardWritable payload
  simp only [Cards.updateCard, Cards.assign, notNull, bind_assoc, answered_bind, pure_eq_ok,
    ok_bind]
  refine refusedOr_congr fun card hload => ?_
  have hcommit : ∀ card' : CorporateCard, Answered (Plan.commit s {
      now := env.txnNow, writes := [.card (.update cardId card card')] }) := by
    intro card'
    obtain ⟨t, ht, -⟩ := exists_apply env.txnNow card' (loadOr_eq_ok.mp hload).2
    exact answered_commit_one ⟨_, bind_eq_ok.mpr ⟨(), rfl, bind_eq_ok.mpr ⟨t, ht, rfl⟩⟩⟩
  simp only [refusedOr_encode, refusedOr_setRequired, Sent.map_eq_null, ne_eq]
  constructor
  · rintro ⟨htext, htext', hno, hbrand, hactive, -⟩
    exact ⟨hno, hbrand, hactive, htext, htext'⟩
  · rintro ⟨hno, hbrand, hactive, htext, htext'⟩
    exact ⟨htext, htext', hno, hbrand, hactive, hcommit _⟩

/-- The group's codes are part of the reply. -/
theorem answered_codeGroup {groupId : Int} {payload : CodeGroupUpdate} :
    Answered ((system sec).step s ⟨env, (Patch.codeGroup groupId payload).call⟩ >>=
      (Patch.codeGroup groupId payload).reply) ↔
      (Patch.codeGroup groupId payload).Accepted s := by
  change Answered ((CodeMaster.updateCodeGroup s env groupId payload >>= fun p => p.commit s) >>=
      (Patch.codeGroup groupId payload).reply) ↔
    RefusedOr (CodeMaster.loadGroup s groupId) fun _ =>
      GroupWritable payload ∧ ∀ p ∈ codesOf s groupId, Readable p.2
  simp only [CodeMaster.updateCodeGroup, CodeMaster.assignGroup, notNull, bind_assoc, answered_bind,
    pure_eq_ok, ok_bind]
  refine refusedOr_congr fun group hload => ?_
  have hcommit : ∀ group' : CodeGroup,
      RefusedOr (Plan.commit s {
        now := env.txnNow, writes := [.codeGroup (.update groupId group group')] })
        (fun s' => Answered ((Patch.codeGroup groupId payload).reply s')) ↔
      ∀ p ∈ codesOf s groupId, Readable p.2 := by
    intro group'
    obtain ⟨t, ht, hu⟩ := exists_apply env.txnNow group' (loadOr_eq_ok.mp hload).2
    obtain ⟨at₀, hget⟩ := hu.get_self
    have hflush : s.flush env.txnNow (.codeGroup (.update groupId group group')) =
        .ok { s with codeGroups := t } :=
      bind_eq_ok.mpr ⟨(), rfl, bind_eq_ok.mpr ⟨t, ht, rfl⟩⟩
    rw [commit_one hflush, refusedOr_ok, Patch.reply, hget, getE, ok_bind, pure_eq_ok,
      answered_bind_ok (raises_toOut _ _ _), toOut_isOk_iff]
    rfl
  simp only [refusedOr_encode, refusedOr_setRequired, Sent.map_eq_null, ne_eq, hcommit]
  constructor
  · rintro ⟨htext, htext', hname, hactive, hcodes⟩
    exact ⟨⟨hname, hactive, htext, htext'⟩, hcodes⟩
  · rintro ⟨⟨hname, hactive, htext, htext'⟩, hcodes⟩
    exact ⟨htext, htext', hname, hactive, hcodes⟩

theorem answered_code {codeId : Int} {payload : CodeUpdate} :
    Answered ((system sec).step s ⟨env, (Patch.code codeId payload).call⟩ >>=
      (Patch.code codeId payload).reply) ↔ (Patch.code codeId payload).Accepted s := by
  change Answered ((CodeMaster.updateCode s env codeId payload >>= fun p => p.commit s) >>=
      (Patch.code codeId payload).reply) ↔
    RefusedOr (CodeMaster.loadCode s codeId) (CodeWritable payload)
  simp only [CodeMaster.updateCode, CodeMaster.assignCode, notNull, bind_assoc, answered_bind,
    pure_eq_ok, ok_bind]
  refine refusedOr_congr fun code hload => ?_
  have hcommit : ∀ code' : Code,
      RefusedOr (Plan.commit s {
        now := env.txnNow, writes := [.code (.update codeId code code')] })
        (fun s' => Answered ((Patch.code codeId payload).reply s')) ↔ Readable code' := by
    intro code'
    obtain ⟨t, ht, hu⟩ := exists_apply env.txnNow code' (loadOr_eq_ok.mp hload).2
    obtain ⟨at₀, hget⟩ := hu.get_self
    have hflush : s.flush env.txnNow (.code (.update codeId code code')) =
        .ok { s with codes := t } :=
      bind_eq_ok.mpr ⟨(), rfl, bind_eq_ok.mpr ⟨t, ht, rfl⟩⟩
    rw [commit_one hflush, refusedOr_ok, Patch.reply, hget, getE, ok_bind, pure_eq_ok,
      answered_bind_ok (raises_toCodeOut _ _), toCodeOut_isOk_iff]
    rfl
  simp only [refusedOr_encode, refusedOr_int4, refusedOr_storable, refusedOr_setRequired,
    Sent.map_eq_null, ne_eq, hcommit]
  have hextra : Readable { code with extra := CodeMaster.assignExtra code.extra payload.extra } ↔
      payload.extra ≠ .null ∧ (payload.extra = .absent → Readable code) := by
    rcases payload.extra with _ | _ | o <;> simp [CodeMaster.assignExtra, Readable]
  constructor
  · rintro ⟨htext, hint, hstorable, hname, horder, hactive, hreadable⟩
    obtain ⟨hnull, habsent⟩ := hextra.mp hreadable
    exact ⟨hname, horder, hactive, hnull, htext, hint, hstorable, habsent⟩
  · rintro ⟨hname, horder, hactive, hnull, htext, hint, hstorable, habsent⟩
    exact ⟨htext, hint, hstorable, hname, horder, hactive, hextra.mpr ⟨hnull, habsent⟩⟩

/-! ## Runs -/

/-- A request without a reply is answered as its step is. -/
theorem answered_bind_unit {α : Type} {x : Result α} :
    Answered (x >>= fun _ => (.ok () : Result Unit)) ↔ Answered x := by
  rw [answered_bind]
  unfold RefusedOr
  simp only [answered_ok, and_true]
  exact or_comm

theorem Patch.endsWell_iff_accepted (h : Desk.Exact s) (patch : Patch) :
    patch.EndsWell sec s env ↔ patch.Accepted s := by
  rw [endsWell_iff]
  cases patch with
  | trip => exact answered_bind_unit.trans answered_trip
  | report => exact answered_bind_unit.trans answered_report
  | item => exact answered_bind_unit.trans (answered_item h)
  | user => exact answered_bind_unit.trans answered_user
  | department => exact answered_bind_unit.trans answered_department
  | center => exact answered_bind_unit.trans answered_center
  | card => exact answered_bind_unit.trans answered_card
  | codeGroup => exact answered_codeGroup
  | code => exact answered_code

/-- In every state that a serial run reaches from a store without reports, a partial update ends
well if and only if it is accepted. -/
theorem patch_ends_well_iff (sec : Security) {s₀ : Store} (h₀ : Desk.NoReports s₀)
    (reqs : List (Request Call)) (env : Env) (patch : Patch) :
    patch.EndsWell sec (Run.all (system sec).step s₀ reqs) env ↔
      patch.Accepted (Run.all (system sec).step s₀ reqs) :=
  Patch.endsWell_iff_accepted (Desk.exact_system_run sec reqs (.of_no_reports h₀)) patch

/-! ## In the office -/

/-- Kim applies for a trip. -/
def applied : List (Request Call) := [⟨Office.env, .desk 1 (.trip (.create Office.trip))⟩]

/-- The trip with a null for its title. -/
def untitled : Patch := .trip 1 1 { title := .null }

theorem patch_ends_well_iff_office :
    untitled.EndsWell Office.sec (Run.all (system Office.sec).step Office.store applied)
        Office.env ↔
      untitled.Accepted (Run.all (system Office.sec).step Office.store applied) :=
  patch_ends_well_iff Office.sec ⟨rfl, rfl⟩ applied Office.env untitled

/-- The null passes the checks of `update_trip` and breaks the column. -/
theorem patch_ends_in_integrity_error :
    ¬ ∀ (s₀ : Store) (reqs : List (Request Call)) (env : Env) (patch : Patch), Desk.NoReports s₀ →
      patch.EndsWell Office.sec (Run.all (system Office.sec).step s₀ reqs) env := by
  intro hall
  have he : (untitled.run Office.sec (Run.all (system Office.sec).step Office.store applied)
      Office.env).1 = .error (.integrity (.notNull "title")) := by
    decide +kernel
  rcases hall Office.store applied Office.env untitled ⟨rfl, rfl⟩ with h | ⟨a, h, -⟩
  · rw [he] at h
    cases h
  · rw [h] at he
    cases he

end Biztrip.Patches
