import Biztrip.Desk.Effect

/-!
# Who may write, and what else stays

Whoever may see a trip or a report (its owner, its approver, any administrator) gets
past the first check of the sixteen calls that change one. `MayWrite` is what the
checks after it come to, call by call: the owner writes, the approver approves and
rejects, and an administrator as such does neither. `Framed` says that a call changes
the row it is about, the total above an item and the trip below an approval.
-/

namespace Biztrip

open Biztrip.Lib

/-- The row a call is about; a creation is about the row it makes. -/
inductive Target where
  | trip (id : Int)
  | report (id : Int)
  | item (id : Int)
  deriving DecidableEq, Repr

def TripCall.target (s : Store) : TripCall → Target
  | .create _ => .trip s.trips.next
  | .update tripId _ => .trip tripId
  | .delete tripId => .trip tripId
  | .submit tripId => .trip tripId
  | .approve tripId => .trip tripId
  | .reject tripId _ => .trip tripId
  | .reopen tripId => .trip tripId
  | .complete tripId => .trip tripId

def ExpenseCall.target (s : Store) : ExpenseCall → Target
  | .create _ => .report s.reports.next
  | .update reportId _ => .report reportId
  | .addItem _ _ => .item s.items.next
  | .updateItem itemId _ => .item itemId
  | .deleteItem itemId => .item itemId
  | .submit reportId => .report reportId
  | .approve reportId => .report reportId
  | .reject reportId _ => .report reportId
  | .reopen reportId => .report reportId

def DeskCall.target (s : Store) : DeskCall → Target
  | .trip call => call.target s
  | .expense call => call.target s

namespace Desk

open Trips Expenses

/-! ## Who writes -/

def OwnsTrip (s : Store) (userId tripId : Int) : Prop :=
  ∃ t, s.trips.get tripId = some t ∧ t.userId = userId

def ApprovesTrip (s : Store) (userId tripId : Int) : Prop :=
  ∃ t, s.trips.get tripId = some t ∧ t.approverId = some userId

def OwnsReport (s : Store) (userId reportId : Int) : Prop :=
  ∃ r, s.reports.get reportId = some r ∧ r.userId = userId

def ApprovesReport (s : Store) (userId reportId : Int) : Prop :=
  ∃ r, s.reports.get reportId = some r ∧ r.approverId = some userId

/-- The owner of the report an item is in. -/
def OwnsItem (s : Store) (userId itemId : Int) : Prop :=
  ∃ it, s.items.get itemId = some it ∧ OwnsReport s userId it.reportId

/-- Everybody may apply for a trip; the rest is for the owner, or for the approver. -/
def MayWrite (s : Store) (userId : Int) : DeskCall → Prop
  | .trip (.create _) => True
  | .trip (.update tripId _) => OwnsTrip s userId tripId
  | .trip (.delete tripId) => OwnsTrip s userId tripId
  | .trip (.submit tripId) => OwnsTrip s userId tripId
  | .trip (.approve tripId) => ApprovesTrip s userId tripId
  | .trip (.reject tripId _) => ApprovesTrip s userId tripId
  | .trip (.reopen tripId) => OwnsTrip s userId tripId
  | .trip (.complete tripId) => OwnsTrip s userId tripId
  | .expense (.create payload) => OwnsTrip s userId payload.tripId
  | .expense (.update reportId _) => OwnsReport s userId reportId
  | .expense (.addItem reportId _) => OwnsReport s userId reportId
  | .expense (.updateItem itemId _) => OwnsItem s userId itemId
  | .expense (.deleteItem itemId) => OwnsItem s userId itemId
  | .expense (.submit reportId) => OwnsReport s userId reportId
  | .expense (.approve reportId) => ApprovesReport s userId reportId
  | .expense (.reject reportId _) => ApprovesReport s userId reportId
  | .expense (.reopen reportId) => OwnsReport s userId reportId

variable {s s' : Store} {env : Env} {user : CurrentUser} {now : Instant} {ws : List Write}

theorem OwnsTrip.of_load {tripId : Int} {t : Trip} (load : loadVisibleTrip s tripId user = .ok t)
    (owner : user.id = t.userId) : OwnsTrip s user.id tripId :=
  ⟨t, (loadVisibleTrip_eq_ok.mp load).2.1, owner.symm⟩

theorem OwnsReport.of_load {reportId : Int} {r : ExpenseReport}
    (load : loadVisibleReport s reportId user = .ok r) (owner : user.id = r.userId) :
    OwnsReport s user.id reportId :=
  ⟨r, (loadVisibleReport_eq_ok.mp load).2.1, owner.symm⟩

theorem OwnsReport.of_edit {reportId : Int} {r : ExpenseReport}
    (load : loadEditableReport s user reportId = .ok r) : OwnsReport s user.id reportId := by
  obtain ⟨hload, howner, -⟩ := loadEditableReport_eq_ok.mp load
  exact .of_load hload howner

theorem TripDeed.mayWrite {call : TripCall} (deed : TripDeed s env user call ws) :
    MayWrite s user.id (.trip call) := by
  cases deed with
  | create new records => trivial
  | update load owner => exact .of_load load owner
  | delete load owner => exact .of_load load owner
  | submit load owner => exact .of_load load owner
  | approve load approver => exact ⟨_, (loadVisibleTrip_eq_ok.mp load).2.1, approver⟩
  | reject load approver => exact ⟨_, (loadVisibleTrip_eq_ok.mp load).2.1, approver⟩
  | reopen load owner => exact .of_load load owner
  | complete load owner => exact .of_load load owner

theorem ExpenseDeed.mayWrite {call : ExpenseCall} (deed : ExpenseDeed s env user call ws) :
    MayWrite s user.id (.expense call) := by
  cases deed with
  | create load owner => exact OwnsTrip.of_load load owner
  | update load => exact OwnsReport.of_edit load
  | addItem load => exact OwnsReport.of_edit load
  | updateItem int4 get load => exact ⟨_, get, .of_edit load⟩
  | deleteItem int4 get load => exact ⟨_, get, .of_edit load⟩
  | submit load owner => exact OwnsReport.of_load load owner
  | approve load approver => exact ⟨_, (loadVisibleReport_eq_ok.mp load).2.1, approver⟩
  | reject load approver => exact ⟨_, (loadVisibleReport_eq_ok.mp load).2.1, approver⟩
  | reopen load owner => exact OwnsReport.of_load load owner

/-- Whoever gets a request through may write. -/
theorem mayWrite_of_plan {req : DeskRequest} {p : Plan} (h : desk.plan s req = .ok p) :
    MayWrite s req.userId req.call := by
  obtain ⟨user, huser, deed⟩ := deed_of_plan h
  have hid := (currentUser_eq_ok.mp huser).2
  rw [← hid]
  generalize req.call = call at deed
  cases deed with
  | trip deed => exact deed.mayWrite
  | expense deed => exact deed.mayWrite

/-! ## What else stays -/

/-- Nothing but the status. -/
def StatusOnly (t t' : Trip) : Prop := ∃ status, t' = { t with status }

/-- Nothing but the total. -/
def TotalOnly (r r' : ExpenseReport) : Prop := ∃ total, r' = { r with totalAmountKrw := total }

/-- The rows that a call is not about are the same, except that the trip of an approved report may
change by `T` and the report of an item by `R`. -/
structure Framed (T : Trip → Trip → Prop) (R : ExpenseReport → ExpenseReport → Prop) (s s' : Store)
    (call : DeskCall) : Prop where
  trip : ∀ i, call.target s ≠ .trip i → s'.trips.get i = s.trips.get i ∨
    ∃ j r t t', call = .expense (.approve j) ∧ s.reports.get j = some r ∧ r.tripId = i ∧
      s.trips.get i = some t ∧ s'.trips.get i = some t' ∧ T t t'
  report : ∀ j, call.target s ≠ .report j → s'.reports.get j = s.reports.get j ∨
    ∃ k it r r', call.target s = .item k ∧
      (s.items.get k = some it ∨ s'.items.get k = some it) ∧ it.reportId = j ∧
      s.reports.get j = some r ∧ s'.reports.get j = some r' ∧ R r r'
  item : ∀ k, call.target s ≠ .item k → s'.items.get k = s.items.get k

/-- Up to the time of its last change, which the database keeps itself. -/
def StatusStamped (t t' : Trip) : Prop := ∃ at₀, StatusOnly (stamp at₀ t) t'

def TotalStamped (r r' : ExpenseReport) : Prop := ∃ at₀, TotalOnly (stamp at₀ r) r'

section
variable {T : Trip → Trip → Prop} {R : ExpenseReport → ExpenseReport → Prop} {call : DeskCall}
  {entityType : EntityType} {entity : EntityRef} {tr : Transition}

theorem framed_of_trip {w : RowWrite Trip} (htarget : call.target s = .trip (w.key s.trips))
    (hc : (Write.trip w :: recordTransition env entityType entity tr).foldlM (Store.flush now) s =
      .ok s') : Framed T R s s' call := by
  obtain ⟨-, u, happly, rfl⟩ := commit_trip hc
  refine ⟨fun i hi => .inl ?_, fun j _ => .inl rfl, fun k _ => rfl⟩
  refine w.get_of_ne happly ?_
  rintro rfl
  exact hi htarget

theorem framed_of_report {w : RowWrite ExpenseReport}
    (htarget : call.target s = .report (w.key s.reports))
    (hc : (Write.report w :: recordTransition env entityType entity tr).foldlM (Store.flush now) s =
      .ok s') : Framed T R s s' call := by
  obtain ⟨-, u, happly, rfl⟩ := commit_report hc
  refine ⟨fun i _ => .inl rfl, fun j hj => .inl ?_, fun k _ => rfl⟩
  refine w.get_of_ne happly ?_
  rintro rfl
  exact hj htarget

end

theorem TripDeed.framed {T : Trip → Trip → Prop} {R : ExpenseReport → ExpenseReport → Prop}
    {call : TripCall} (deed : TripDeed s env user call ws)
    (hc : ws.foldlM (Store.flush now) s = .ok s') : Framed T R s s' (.trip call) := by
  cases deed with
  | delete load owner status =>
    obtain ⟨-, rfl⟩ := commit_delete_trip hc
    refine ⟨fun i hi => .inl ?_, fun j _ => .inl rfl, fun k _ => rfl⟩
    rw [Table.get_delete]
    refine if_neg ?_
    rintro rfl
    exact hi rfl
  | _ => exact framed_of_trip rfl hc

/-- An edit of the items changes the total of their report. -/
theorem framed_of_edit {w : RowWrite ExpenseItem} {j : Int} {r : ExpenseReport} {total : Krw}
    {it : ExpenseItem} {call : DeskCall} {T : Trip → Trip → Prop}
    (htarget : call.target s = .item (w.key s.items)) (load : loadEditableReport s user j = .ok r)
    (hc : [Write.item w, .report (.update j r { r with totalAmountKrw := total })].foldlM
      (Store.flush now) s = .ok s')
    (hit : s.items.get (w.key s.items) = some it ∨ s'.items.get (w.key s.items) = some it)
    (hin : it.reportId = j) : Framed T TotalStamped s s' call := by
  have hload := (loadEditableReport_eq_ok.mp load).1
  have hget := (loadVisibleReport_eq_ok.mp hload).2.1
  obtain ⟨u, u', -, happly, happly', rfl⟩ := commit_edit hc
  have hupd : Updated s.reports u' j { r with totalAmountKrw := total } :=
    updated_of_apply hget happly'
  refine ⟨fun i _ => .inl rfl, fun j' _ => ?_, fun k hk => ?_⟩
  · by_cases hj : j' = j
    · subst hj
      obtain ⟨at₀, hnew⟩ := hupd.get_self
      exact .inr ⟨_, it, r, _, htarget, hit, hin, hget, hnew, at₀, total, rfl⟩
    · exact .inl (hupd.get_of_ne hj)
  · refine w.get_of_ne happly ?_
    rintro rfl
    exact hk htarget

theorem ExpenseDeed.framed {call : ExpenseCall} (deed : ExpenseDeed s env user call ws)
    (hc : ws.foldlM (Store.flush now) s = .ok s') :
    Framed StatusStamped TotalStamped s s' (.expense call) := by
  cases deed with
  | create => exact framed_of_report rfl hc
  | update => exact framed_of_report rfl hc
  | submit => exact framed_of_report rfl hc
  | reject => exact framed_of_report rfl hc
  | reopen => exact framed_of_report rfl hc
  | addItem load new flush recalc =>
    refine framed_of_edit rfl load hc (.inr ?_) new.inReport
    obtain ⟨u, u', -, happly, -, rfl⟩ := commit_edit hc
    rw [RowWrite.apply_insert, Except.ok.injEq] at happly
    subst happly
    exact Table.get_insert_next _ _
  | updateItem int4 get load checked assigned flush recalc =>
    exact framed_of_edit rfl load hc (.inl get) rfl
  | deleteItem int4 get load flush recalc => exact framed_of_edit rfl load hc (.inl get) rfl
  | @approve reportId r r' t t' tr tr' load approver status trip completed moved settled =>
    have hget := (loadVisibleReport_eq_ok.mp load).2.1
    obtain ⟨u, u', happly, happly', rfl⟩ := commit_approve hc
    have hupd : Updated s.reports u reportId r' := updated_of_apply hget happly
    have hupd' : Updated s.trips u' r.tripId t' := updated_of_apply trip happly'
    refine ⟨fun i _ => ?_, fun j hj => .inl ?_, fun k _ => rfl⟩
    · by_cases hi : i = r.tripId
      · subst hi
        obtain ⟨at₀, hnew⟩ := hupd'.get_self
        refine .inr ⟨reportId, r, t, _, rfl, hget, rfl, trip, hnew, at₀, .settled, ?_⟩
        rw [settled]
        rfl
      · exact .inl (hupd'.get_of_ne hi)
    · refine hupd.get_of_ne ?_
      rintro rfl
      exact hj rfl

/-! ## Every call -/

/-- In every state, a trip or report call that goes through is the owner's or, if it approves or
rejects, the approver's, and changes no other row but the total of the edited item's report and the
status of the approved report's trip, with the time of their last change; a call that raises changes
nothing. -/
theorem write_authority (s : Store) (req : DeskRequest) :
    (∀ s', desk.step s req = .ok s' → MayWrite s req.userId req.call ∧
      Framed StatusStamped TotalStamped s s' req.call) ∧
    (∀ e, desk.step s req = .error e → Run.all desk.step s [req] = s) := by
  constructor
  · intro s' hstep
    obtain ⟨p, hplan, hcommit⟩ := bind_eq_ok.mp hstep
    have hc := Plan.commit_eq_ok.mp hcommit
    refine ⟨mayWrite_of_plan hplan, ?_⟩
    obtain ⟨user, -, deed⟩ := deed_of_plan hplan
    generalize req.call = call at deed
    cases deed with
    | trip deed => exact deed.framed hc
    | expense deed => exact deed.framed hc
  · intro e he
    rw [Run.all_cons, he]
    rfl

/-- Kim adds an item later in the day. -/
def laterItem : DeskRequest :=
  { env := { Office.env with txnNow := 1 }, userId := 1, call := .expense (.addItem 1 Office.meal) }

/-- With the total, the time of the report's last change is written. -/
theorem write_authority_stamp :
    ¬ ∀ (s₀ : Store) (reqs : List DeskRequest) (req : DeskRequest), s₀.trips.rows = [] →
      s₀.reports.rows = [] →
      let s := Run.all desk.step s₀ reqs
      (∀ s', desk.step s req = .ok s' →
        MayWrite s req.userId req.call ∧ Framed StatusOnly TotalOnly s s' req.call) ∧
      (∀ e, desk.step s req = .error e → Run.all desk.step s [req] = s) := by
  intro hall
  have h := (hall Office.store (Office.tripDone 1 ++ (Office.reportSubmitted 1).take 2) laterItem
    rfl rfl).1
  have hbefore : ((Run.all desk.step Office.store
      (Office.tripDone 1 ++ (Office.reportSubmitted 1).take 2)).reports.get 1).map
        ExpenseReport.updatedAt = some 0 := by decide +kernel
  have hafter : (desk.step (Run.all desk.step Office.store
      (Office.tripDone 1 ++ (Office.reportSubmitted 1).take 2)) laterItem).toOption.bind
        (fun s' => (s'.reports.get 1).map ExpenseReport.updatedAt) = some 1 := by decide +kernel
  obtain ⟨s', hstep, hnew⟩ := toOption_bind_eq_some.mp hafter
  have hframed := (h s' hstep).2.report 1 (by simp [laterItem, DeskCall.target, ExpenseCall.target])
  rcases hframed with heq | ⟨k, it, r, r', -, -, -, hr, hr', total, rfl⟩
  · rw [heq, hbefore] at hnew
    cases hnew
  · rw [hr', Option.map_some] at hnew
    rw [hr, Option.map_some] at hbefore
    have h0 : r.updatedAt = 0 := Option.some.inj hbefore
    have h1 : r.updatedAt = 1 := Option.some.inj hnew
    exact absurd (h0.symm.trans h1) (by decide)

end Desk

end Biztrip
