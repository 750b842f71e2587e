import Biztrip.Service.Expenses

/-!
# What the guards raise

Apart from application errors, a guard of the desk raises only what the driver
raises when a key or a text does not fit its column. Each lemma is stated for any
set `Q` of faults that has the application errors and the driver's refusals the
guard can meet, so that it serves both for excluding one fault and for bounding
all of them.
-/

namespace Biztrip

open Biztrip.Lib Codes Centers Trips Expenses

section
variable {Q : Fault → Prop} {s : Store} {user : CurrentUser} {id : Int}

theorem raises_text {column value : String} (h : ¬ IsText value → Q (.dataError column)) :
    Raises (text column value) Q := by
  intro e he
  obtain ⟨hno, rfl⟩ := guardE_eq_error.mp he
  exact h hno

theorem raises_int4 {column : String} {n : Int} (h : ¬ IsInt4 n → Q (.dataError column)) :
    Raises (int4 column n) Q := by
  intro e he
  obtain ⟨hno, rfl⟩ := guardE_eq_error.mp he
  exact h hno

theorem raises_nextNo {head : String} {existing : List String} (hvalue : Q .valueError) :
    Raises (Numbering.nextNo head existing) Q := by
  unfold Numbering.nextNo
  split
  · exact raises_ok
  · exact raises_bind (raises_getE hvalue) fun _ _ => raises_ok

theorem raises_sessionGet {ρ : Type} {t : Table ρ} (hid : ¬ IsInt4 id → Q (.dataError "id")) :
    Raises (sessionGet t id) Q :=
  raises_bind (raises_int4 hid) fun _ _ => raises_ok

variable (happ : ∀ a, Q (.app a))
include happ

theorem raises_loadVisibleTrip (hid : ¬ IsInt4 id → Q (.dataError "id")) :
    Raises (loadVisibleTrip s id user) Q :=
  raises_bind (raises_sessionGet hid) fun _ _ => raises_getE (happ _)

theorem raises_loadVisibleReport (hid : ¬ IsInt4 id → Q (.dataError "id")) :
    Raises (loadVisibleReport s id user) Q :=
  raises_bind (raises_sessionGet hid) fun _ _ => raises_getE (happ _)

theorem raises_loadEditableReport (hid : ¬ IsInt4 id → Q (.dataError "id")) :
    Raises (loadEditableReport s user id) Q := by
  refine raises_bind (raises_loadVisibleReport happ hid) fun r _ => ?_
  refine raises_bind (raises_guardE (happ _)) fun _ _ => ?_
  exact raises_bind (raises_guardE (happ _)) fun _ _ => raises_ok

theorem raises_loadItemForEdit (hid : ¬ IsInt4 id → Q (.dataError "id"))
    (hreport : ∀ it, s.items.get id = some it → ¬ IsInt4 it.reportId → Q (.dataError "id")) :
    Raises (loadItemForEdit s user id) Q := by
  refine raises_bind (raises_sessionGet hid) fun o ho => ?_
  refine raises_bind (raises_getE (happ _)) fun it hit => ?_
  obtain ⟨-, rfl⟩ := sessionGet_eq_ok.mp ho
  exact raises_bind (raises_loadEditableReport happ (hreport it (getE_eq_ok.mp hit))) fun _ _ =>
    raises_ok

theorem raises_validateCodes {specs : List CodeSpec} : Raises (validateCodes s specs) Q := by
  intro e he
  obtain ⟨a, rfl⟩ := app_of_validateCodes_eq_error he
  exact happ a

theorem raises_createTrip {env : Env} {payload : TripCreate} (hvalue : Q .valueError)
    (htext : ∀ column, Q (.dataError column)) : Raises (createTrip s env user payload) Q := by
  refine raises_bind ?_ fun _ _ => raises_bind (raises_nextNo hvalue) fun _ _ => ?_
  · exact raises_bind (raises_validateCodes happ) fun _ _ => raises_guardE (happ _)
  · refine raises_bind (raises_text fun _ => htext _) fun _ _ => ?_
    refine raises_bind (raises_text fun _ => htext _) fun _ _ => ?_
    exact raises_bind (raises_text fun _ => htext _) fun _ _ => raises_ok

theorem raises_createReport {env : Env} {payload : ExpenseReportCreate} (hvalue : Q .valueError)
    (hid : Q (.dataError "id")) : Raises (createReport s env user payload) Q := by
  refine raises_bind (raises_loadVisibleTrip happ fun _ => hid) fun t _ => ?_
  refine raises_bind (raises_guardE (happ _)) fun _ _ => ?_
  refine raises_bind (raises_guardE (happ _)) fun _ _ => ?_
  refine raises_bind (raises_guardE (happ _)) fun _ _ => ?_
  exact raises_bind (raises_nextNo hvalue) fun _ _ => raises_ok

theorem raises_validateCenters {fundCenterCode costCenterCode : Option String} :
    Raises (validateCenters s fundCenterCode costCenterCode) Q :=
  raises_bind (raises_checkSome fun _ => raises_guardE (happ _)) fun _ _ =>
    raises_checkSome fun _ => raises_guardE (happ _)

theorem raises_assertItemAmount {amount : Decimal} : Raises (assertItemAmount amount) Q :=
  raises_bind (raises_guardE (happ _)) fun _ _ => raises_guardE (happ _)

theorem raises_validateItemChanges {payload : ExpenseItemUpdate} :
    Raises (validateItemChanges s payload) Q := by
  refine raises_bind (raises_checkSome fun _ => raises_validateCodes happ) fun _ _ => ?_
  exact raises_bind (raises_validateCenters happ) fun _ _ =>
    raises_checkSome fun _ => raises_assertItemAmount happ

theorem raises_assertUsableTransaction {r : ExpenseReport} {j : Int}
    (hid : ¬ IsInt4 id → Q (.dataError "id")) : Raises (assertUsableTransaction s r j id) Q := by
  refine raises_bind (raises_sessionGet hid) fun _ _ => ?_
  refine raises_bind (raises_getE (happ _)) fun _ _ => ?_
  exact raises_bind (raises_guardE (happ _)) fun _ _ => raises_ok

theorem raises_itemAmount {r : ExpenseReport} {j : Int} {payload : ExpenseItemCreate}
    (hid : ∀ x, payload.cardTransactionId = some x → ¬ IsInt4 x → Q (.dataError "id")) :
    Raises (itemAmount s r j payload) Q := by
  unfold itemAmount
  split
  · next x hx =>
    exact raises_bind (raises_assertUsableTransaction happ (hid x hx)) fun _ _ => raises_ok
  · exact raises_getE (happ _)

theorem raises_assertRejectReason {reason : Option String} : Raises (assertRejectReason reason) Q :=
  raises_bind (raises_guardE (happ _)) fun _ _ => raises_ok

/-- The second table has every transition the first one allows. -/
theorem raises_assertExpenseTransitionAllowed {current target : ExpenseReportStatus}
    {userId ownerId : Int} {approverId : Option Int} :
    Raises (assertExpenseTransitionAllowed current target userId ownerId approverId) Q := by
  refine raises_bind (raises_guardE (happ _)) fun _ hlegal => ?_
  have hsome := mem_expenseAllowedTransitions_iff.mp (guardE_eq_ok.mp hlegal)
  rcases h : expenseTransitionActor current target with _ | actor
  · simp [h] at hsome
  · cases actor with
    | owner => exact raises_guardE (happ _)
    | approver => exact raises_guardE (happ _)
    | system => exact raises_error (happ _)

end

/-! ## The statements -/

section
variable {Q : Fault → Prop} {s : Store} (hv : ∀ v, Q (.integrity v))
include hv

/-- A declared constraint is all a statement can break. -/
theorem raises_check {w : Write} : Raises (s.check w) Q := by
  unfold Store.check Store.unique Store.foreignKey
  split <;> repeat first
    | exact raises_ok
    | exact raises_guardE (hv _)
    | refine raises_bind ?_ fun _ _ => ?_
    | refine raises_whenE ?_

variable (hs : Q .staleData)
include hs

omit hv in
theorem raises_apply {ρ : Type} [Merge ρ] [DecidableEq ρ] {now : Instant} {t : Table ρ}
    {w : RowWrite ρ} : Raises (w.apply now Fault.staleData t) Q := by
  intro e he
  rw [RowWrite.eq_of_apply_eq_error he]
  exact hs

/-- The row of an `UPDATE` may be gone as well. -/
theorem raises_flush {now : Instant} {w : Write} : Raises (s.flush now w) Q := by
  refine raises_bind (raises_check hv) fun _ _ => ?_
  cases w with
  | log entity row => exact raises_ok
  | _ => exact raises_bind (raises_apply hs) fun _ _ => raises_ok

theorem raises_commit (happ : ∀ a, Q (.app a)) {p : Plan} : Raises (p.commit s) Q := by
  intro e he
  unfold Plan.commit at he
  split at he
  · cases he
  · next e' he' =>
    rw [Except.error.injEq] at he
    subst he
    have hq := raises_foldlM (fun _ _ => raises_flush hv hs) _ _ e' he'
    unfold Plan.translate
    split
    · split
      · exact happ _
      · exact hv _
    · exact hq

end

end Biztrip
