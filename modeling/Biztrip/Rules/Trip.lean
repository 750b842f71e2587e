import Biztrip.Model.Rows

/-!
# Rules of the trip domain

`app/services/trip_status.py` and `app/services/trip_rules.py`: which status
may follow which, who may perform the transition, and the conditions that no
constraint of the database enforces.
-/

namespace Biztrip

open Biztrip.Lib

/-! ## Transitions -/

/-- `ALLOWED_TRANSITIONS`. -/
def allowedTransitions : TripStatus → List TripStatus
  | .draft => [.submitted]
  | .submitted => [.approved, .rejected]
  | .rejected => [.draft]
  | .approved => [.completed]
  | .completed => [.settled]
  | .settled => []

inductive TransitionActor where
  | owner
  | approver
  | system
  deriving DecidableEq, Repr

/-- `TRANSITION_ACTOR`. -/
def transitionActor : TripStatus → TripStatus → Option TransitionActor
  | .draft, .submitted => some .owner
  | .submitted, .approved => some .approver
  | .submitted, .rejected => some .approver
  | .rejected, .draft => some .owner
  | .approved, .completed => some .owner
  | .completed, .settled => some .system
  | _, _ => none

/-- The two tables have the same keys, as the module checks when it is imported. -/
theorem mem_allowedTransitions_iff {current target : TripStatus} :
    target ∈ allowedTransitions current ↔ (transitionActor current target).isSome := by
  cases current <;> cases target <;> decide

def canTransition (current target : TripStatus) : Bool :=
  decide (target ∈ allowedTransitions current)

def assertTripTransition (current target : TripStatus) : Result Unit :=
  guardE (canTransition current target = true) <| .app <|
    conflictError "TRIP_INVALID_TRANSITION"
      s!"{current.value} 상태에서 {target.value} 로 변경할 수 없습니다" none

/-! ## Who may act -/

def canViewTrip (userId : Int) (role : UserRole) (ownerId : Int) (approverId : Option Int) : Bool :=
  role = .admin || userId = ownerId || approverId = some userId

def assertTripOwner (userId ownerId : Int) : Result Unit :=
  guardE (userId = ownerId) <| .app <|
    forbiddenError "NOT_TRIP_OWNER" "본인이 신청한 출장만 처리할 수 있습니다"

def assertTripApprover (userId : Int) (approverId : Option Int) : Result Unit :=
  guardE (approverId = some userId) <| .app <|
    forbiddenError "NOT_TRIP_APPROVER" "이 출장의 결재자가 아닙니다"

/-- Legality first, then the actor: the one check every user transition goes through. -/
def assertTransitionAllowed (current target : TripStatus) (userId ownerId : Int)
    (approverId : Option Int) : Result Unit := do
  assertTripTransition current target
  match transitionActor current target with
  | some .owner => assertTripOwner userId ownerId
  | some .approver => assertTripApprover userId approverId
  | some .system =>
    raise (forbiddenError "SYSTEM_TRANSITION_ONLY" "이 전이는 시스템에 의해서만 수행됩니다")
  | none => .error .keyError

/-- The transitions only the system performs. -/
def assertSystemTransition (current target : TripStatus) : Result Unit := do
  assertTripTransition current target
  guardE (transitionActor current target = some .system) <| .app <|
    forbiddenError "USER_TRANSITION_ONLY" "이 전이는 사용자가 수행해야 합니다"

/-- Who performs a legal transition by hand. -/
def MayTransition (current target : TripStatus) (userId ownerId : Int) (approverId : Option Int) :
    Prop :=
  match transitionActor current target with
  | some .owner => userId = ownerId
  | some .approver => approverId = some userId
  | _ => False

theorem assertTransitionAllowed_eq_ok {current target : TripStatus} {userId ownerId : Int}
    {approverId : Option Int} {u : Unit} :
    assertTransitionAllowed current target userId ownerId approverId = .ok u ↔
      MayTransition current target userId ownerId approverId := by
  unfold assertTransitionAllowed MayTransition assertTripTransition canTransition raise
  simp only [bind_eq_ok, guardE_eq_ok, decide_eq_true_eq, mem_allowedTransitions_iff]
  rcases h : transitionActor current target with _ | actor
  · simp
  · cases actor <;> simp [assertTripOwner, assertTripApprover]

theorem assertSystemTransition_eq_ok {current target : TripStatus} {u : Unit} :
    assertSystemTransition current target = .ok u ↔ current = .completed ∧ target = .settled := by
  unfold assertSystemTransition assertTripTransition canTransition
  cases current <;> cases target <;> simp [bind_eq_ok, allowedTransitions, transitionActor]

/-! ## Conditions -/

/-- The statuses a trip may be edited in. -/
def editableStatuses : List TripStatus := [.draft, .rejected]

theorem mem_editableStatuses {status : TripStatus} :
    status ∈ editableStatuses ↔ status = .draft ∨ status = .rejected := by
  simp [editableStatuses]

/-- The statuses a trip may be deleted in. -/
def deletableStatuses : List TripStatus := [.draft]

def assertDateRange (startDate endDate : Date) : Result Unit :=
  guardE (¬ endDate < startDate) <| .app <|
    validationError "INVALID_DATE_RANGE" "종료일은 시작일보다 빠를 수 없습니다" (some "end_date")

def assertEditable (status : TripStatus) : Result Unit :=
  guardE (status ∈ editableStatuses) <| .app <|
    conflictError "TRIP_NOT_EDITABLE" s!"{status.value} 상태의 출장은 수정할 수 없습니다" none

def assertDeletable (status : TripStatus) : Result Unit :=
  guardE (status ∈ deletableStatuses) <| .app <|
    conflictError "TRIP_NOT_DELETABLE" "임시저장 상태의 출장만 삭제할 수 있습니다" none

def assertCompletable (endDate today : Date) : Result Unit :=
  guardE (endDate < today) <| .app <|
    conflictError "TRIP_NOT_ENDED" "종료일이 지난 출장만 완료 처리할 수 있습니다" none

/-- The trimmed reason, if anything is left of it. -/
def assertRejectReason (reason : Option String) : Result String := do
  let text := strip (reason.getD "")
  guardE (text ≠ "") <| .app <|
    validationError "REJECT_REASON_REQUIRED" "반려 사유를 입력해야 합니다" (some "reason")
  return text

def noApprover : AppError :=
  conflictError "NO_APPROVER" "결재자가 지정되지 않아 상신할 수 없습니다" none

def assertHasApprover (managerId : Option Int) : Result Int := getE managerId (.app noApprover)

end Biztrip
