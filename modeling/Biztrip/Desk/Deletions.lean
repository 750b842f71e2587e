import Biztrip.Desk.AuditTrail

/-!
# Deleted trips and their log

A draft can be deleted, and its log stays. That only the entries of a draft stay, created and
updated (`OnlyDrafts`), does not follow from the status: a rejected trip that is reopened is
a draft again. Its row still has the reason of the rejection, and this is what tells such a
draft from one that was never submitted (`Tells`); the log of deleted trips is clean exactly
if none with a reason is deleted (`only_drafts_iff`).
-/

namespace Biztrip.Desk

open Biztrip.Lib Trips Expenses

/-- The entry is about writing the application, not about deciding on it. -/
def Plain (e : ActivityLog) : Prop := e.action = .created ∨ e.action = .updated

/-- The entries about trips that are no longer there have no other actions. -/
def OnlyDrafts (s : Store) : Prop :=
  ∀ k e, s.activityLog.get k = some e → e.entityType = .trip →
    s.trips.get e.entityId = none → Plain e

/-- A draft has been submitted before if and only if the reason of a rejection is on its row. -/
structure Tells (t : Trip) (log : List ActivityLog) : Prop where
  draft : t.status = .draft → ((∀ e ∈ log, Plain e) ↔ t.rejectReason = none)
  rejected : t.status = .rejected → (¬ ∀ e ∈ log, Plain e) ∧ t.rejectReason ≠ none

structure RowsTell (s : Store) : Prop where
  rows : ∀ i t, s.trips.get i = some t → Tells t (entriesOf s .trip i)
  fresh : ∀ i, s.trips.next ≤ i → entriesOf s .trip i = []

variable {s s' : Store} {env : Env} {user : CurrentUser} {now : Instant} {ws : List Write}
  {tr : Transition} {i : Int} {t t' : Trip} {u : Table Trip} {log : List ActivityLog}
  {e : ActivityLog}

theorem mem_entriesOf {entityType : EntityType} : e ∈ entriesOf s entityType i ↔
    ∃ k, s.activityLog.get k = some e ∧ e.entityType = entityType ∧ e.entityId = i := by
  simp only [entriesOf, List.mem_filter, List.mem_map, Prod.exists, exists_eq_right,
    Table.mem_rows, decide_eq_true_eq, exists_and_right]

theorem onlyDrafts_iff :
    OnlyDrafts s ↔ ∀ i, s.trips.get i = none → ∀ e ∈ entriesOf s .trip i, Plain e := by
  constructor
  · intro h i hi e he
    obtain ⟨k, hk, htype, rfl⟩ := mem_entriesOf.mp he
    exact h k e hk htype hi
  · intro h k e hk htype hi
    exact h _ hi e (mem_entriesOf.mpr ⟨k, hk, htype, rfl⟩)

/-! ## One row and its log -/

theorem plain_append : (∀ e' ∈ log ++ [e], Plain e') ↔ (∀ e' ∈ log, Plain e') ∧ Plain e := by
  simp only [List.forall_mem_append, List.forall_mem_singleton]

/-- What a request makes of a row and adds to its log. -/
inductive Recorded (t t' : Trip) (e : ActivityLog) : Prop where
  | edited (status : t'.status = t.status) (reason : t'.rejectReason = t.rejectReason)
    (plain : Plain e)
  | rejected (status : t'.status = .rejected) (reason : t'.rejectReason ≠ none) (weighs : ¬ Plain e)
  | reopened (was : t.status = .rejected) (status : t'.status = .draft)
    (reason : t'.rejectReason = t.rejectReason)
  | moved (status : t'.status ≠ .draft ∧ t'.status ≠ .rejected)

theorem Tells.append (h : Tells t log) (hw : Recorded t t' e) : Tells t' (log ++ [e]) := by
  cases hw with
  | edited status reason plain =>
    constructor
    · intro hdraft
      rw [plain_append, and_iff_left plain, reason]
      exact h.draft (status ▸ hdraft)
    · intro hrejected
      rw [plain_append, and_iff_left plain, reason]
      exact h.rejected (status ▸ hrejected)
  | rejected status reason weighs =>
    constructor
    · intro hdraft
      rw [status] at hdraft
      cases hdraft
    · intro _
      rw [plain_append]
      exact ⟨fun hp => weighs hp.2, reason⟩
  | reopened was status reason =>
    obtain ⟨hlog, hreason⟩ := h.rejected was
    constructor
    · intro _
      rw [plain_append, reason]
      exact ⟨fun hp => absurd hp.1 hlog, fun hp => absurd hp hreason⟩
    · intro hrejected
      rw [status] at hrejected
      cases hrejected
  | moved status => exact ⟨fun hd => absurd hd status.1, fun hr => absurd hr status.2⟩

/-! ## One request -/

/-- The trips and what the log has on them are the same. -/
def SameTrips (s s' : Store) : Prop :=
  s'.trips = s.trips ∧ entriesOf s' .trip = entriesOf s .trip

theorem RowsTell.of_same (h : RowsTell s) (hsame : SameTrips s s') : RowsTell s' := by
  obtain ⟨htrips, hlog⟩ := hsame
  refine ⟨fun i t hi => ?_, fun i hi => ?_⟩
  · rw [htrips] at hi
    rw [hlog]
    exact h.rows i t hi
  · rw [htrips] at hi
    rw [hlog]
    exact h.fresh i hi

theorem OnlyDrafts.of_same (h : OnlyDrafts s) (hsame : SameTrips s s') : OnlyDrafts s' := by
  obtain ⟨htrips, hlog⟩ := hsame
  rw [onlyDrafts_iff, htrips, hlog]
  exact onlyDrafts_iff.mp h

/-- The history of a report is not about a trip. -/
theorem sameTrips_record {ref : EntityRef} {reports : Table ExpenseReport} :
    SameTrips s (Store.record { s with reports := reports } env .expenseReport ref tr) := by
  refine ⟨rfl, funext fun i => ?_⟩
  rw [entriesOf_record, if_neg fun h => nomatch h.1]
  rfl

/-- What both laws make of a change to one trip with its history. -/
def Keeps (s s' : Store) : Prop := (RowsTell s → RowsTell s') ∧ (OnlyDrafts s → OnlyDrafts s')

theorem Keeps.of_same (h : SameTrips s s') : Keeps s s' :=
  ⟨fun hs => hs.of_same h, fun hs => hs.of_same h⟩

theorem Keeps.trans {s'' : Store} (h : Keeps s s') (h' : Keeps s' s'') : Keeps s s'' :=
  ⟨fun hs => h'.1 (h.1 hs), fun hs => h'.2 (h.2 hs)⟩

theorem keeps_update (get : s.trips.get i = some t)
    (ha : (RowWrite.update i t t').apply now Fault.staleData s.trips = .ok u)
    (hw : Recorded t t' { tr.logRow env .trip with entityId := i }) :
    Keeps s (Store.record { s with trips := u } env .trip (.stored i) tr) := by
  have hupdated := updated_of_apply get ha
  have hself : entriesOf (Store.record { s with trips := u } env .trip (.stored i) tr) .trip i =
      entriesOf s .trip i ++ [{ tr.logRow env .trip with entityId := i }] := by
    rw [entriesOf_record, if_pos ⟨rfl, rfl⟩]
    rfl
  have hother : ∀ j, j ≠ i →
      entriesOf (Store.record { s with trips := u } env .trip (.stored i) tr) .trip j =
        entriesOf s .trip j := by
    intro j hj
    rw [entriesOf_record, if_neg fun h => hj h.2]
    rfl
  constructor
  · intro hs
    refine ⟨fun j row hj => ?_, fun j hj => ?_⟩
    · rcases hupdated.cases hj with ⟨rfl, at₀, rfl⟩ | ⟨hne, hj⟩
      · have htells := (hs.rows _ _ get).append hw
        rw [hself]
        exact ⟨htells.draft, htells.rejected⟩
      · rw [hother j hne]
        exact hs.rows j row hj
    · have hle : s.trips.next ≤ j := Int.le_trans (RowWrite.next_le ha) hj
      have hne : j ≠ i := by
        rintro rfl
        exact absurd (Table.get_lt_next get) (Int.not_lt.mpr hle)
      rw [hother j hne]
      exact hs.fresh j hle
  · intro hs
    rw [onlyDrafts_iff] at hs ⊢
    intro j hj
    have hne : j ≠ i := by
      rintro rfl
      obtain ⟨at₀, hget⟩ := hupdated.get_self
      exact nomatch hj.symm.trans hget
    rw [hother j hne]
    exact hs j ((hupdated.get_of_ne hne).symm.trans hj)

theorem keeps_insert (hstatus : t.status = .draft) (hreason : t.rejectReason = none)
    (hplain : tr.action = .created) :
    Keeps s (Store.record { s with trips := s.trips.insert t } env .trip .inserted tr) := by
  have hkey : Store.resolve { s with trips := s.trips.insert t } .trip .inserted = s.trips.next :=
    Int.add_sub_cancel s.trips.next 1
  have hlog : ∀ j,
      entriesOf (Store.record { s with trips := s.trips.insert t } env .trip .inserted tr) .trip j =
        if j = s.trips.next then
          entriesOf s .trip j ++ [{ tr.logRow env .trip with entityId := j }]
        else entriesOf s .trip j := by
    intro j
    rw [entriesOf_record, hkey]
    simp only [true_and]
    rfl
  constructor
  · intro hs
    refine ⟨fun j row hj => ?_, fun j hj => ?_⟩
    · rw [hlog]
      rcases Table.get_insert_eq_some hj with ⟨rfl, rfl⟩ | ⟨hne, hj⟩
      · rw [if_pos rfl, hs.fresh _ (Int.le_refl _), List.nil_append]
        refine ⟨fun _ => iff_of_true (fun e he => ?_) hreason, fun hrejected => ?_⟩
        · rw [List.mem_singleton.mp he]
          exact .inl hplain
        · rw [hstatus] at hrejected
          cases hrejected
      · rw [if_neg (Int.ne_of_lt hne)]
        exact hs.rows j row hj
    · have hj : s.trips.next + 1 ≤ j := hj
      rw [hlog, if_neg (by omega)]
      exact hs.fresh j (by omega)
  · intro hs
    rw [onlyDrafts_iff] at hs ⊢
    intro j hj
    change (s.trips.insert t).get j = none at hj
    rw [Table.get_insert] at hj
    split at hj
    · cases hj
    · next hne =>
      rw [hlog, if_neg hne]
      exact hs j hj

theorem TripDeed.keeps {call : TripCall} (deed : TripDeed s env user call ws)
    (hc : ws.foldlM (Store.flush now) s = .ok s') (hcall : ∀ i, call ≠ .delete i) : Keeps s s' := by
  have get : ∀ {i : Int} {t : Trip}, loadVisibleTrip s i user = .ok t → s.trips.get i = some t :=
    fun load => (loadVisibleTrip_eq_ok.mp load).2.1
  cases deed with
  | delete => exact absurd rfl (hcall _)
  | create new records =>
    obtain ⟨-, u, happly, rfl⟩ := commit_trip hc
    rw [RowWrite.apply_insert, Except.ok.injEq] at happly
    subst happly
    exact keeps_insert new.status new.rejectReason records.action
  | update load owner editable assigned range same records =>
    obtain ⟨-, u, happly, rfl⟩ := commit_trip hc
    exact keeps_update (get load) happly
      (.edited same.status same.rejectReason (.inr records.action))
  | reject load approver status given moved records =>
    obtain ⟨-, u, happly, rfl⟩ := commit_trip hc
    subst moved
    refine keeps_update (get load) happly (.rejected rfl nofun ?_)
    rintro (h | h)
    · exact nomatch records.action.symm.trans h
    · exact nomatch records.action.symm.trans h
  | reopen load owner status moved records =>
    obtain ⟨-, u, happly, rfl⟩ := commit_trip hc
    subst moved
    exact keeps_update (get load) happly (.reopened status rfl rfl)
  | submit load owner status range approver moved records =>
    obtain ⟨-, u, happly, rfl⟩ := commit_trip hc
    subst moved
    exact keeps_update (get load) happly (.moved ⟨nofun, nofun⟩)
  | approve load approver status moved records =>
    obtain ⟨-, u, happly, rfl⟩ := commit_trip hc
    subst moved
    exact keeps_update (get load) happly (.moved ⟨nofun, nofun⟩)
  | complete load owner status ended moved records =>
    obtain ⟨-, u, happly, rfl⟩ := commit_trip hc
    subst moved
    exact keeps_update (get load) happly (.moved ⟨nofun, nofun⟩)

/-- A report that is approved settles its trip, and no other call on a report writes a trip. -/
theorem ExpenseDeed.keeps {call : ExpenseCall} (deed : ExpenseDeed s env user call ws)
    (hc : ws.foldlM (Store.flush now) s = .ok s') : Keeps s s' := by
  cases deed with
  | addItem | updateItem | deleteItem =>
    obtain ⟨u, u', -, -, -, rfl⟩ := commit_edit hc
    exact .of_same ⟨rfl, rfl⟩
  | approve load approver status trip completed moved settled records records' =>
    obtain ⟨u, u', -, htrip, rfl⟩ := commit_approve hc
    subst settled
    refine Keeps.trans (.of_same sameTrips_record) (keeps_update ?_ htrip (.moved ⟨nofun, nofun⟩))
    exact trip
  | create | update | submit | reject | reopen =>
    obtain ⟨-, u, -, rfl⟩ := commit_report hc
    exact .of_same sameTrips_record

/-- A trip that a request deletes has no reason of a rejection on its row. -/
def DeletesUnrejected (s : Store) (req : DeskRequest) : Prop :=
  ∀ i t, req.call = .trip (.delete i) → s.trips.get i = some t → t.rejectReason = none

/-- A deleted draft leaves its log, and its row has told whether there are decisions in it. -/
theorem delete_iff (h : RowsTell s) (hs : OnlyDrafts s) (get : s.trips.get i = some t)
    (hstatus : t.status = .draft) :
    OnlyDrafts { s with trips := s.trips.delete i } ↔ t.rejectReason = none := by
  rw [onlyDrafts_iff] at hs ⊢
  rw [← (h.rows i t get).draft hstatus]
  constructor
  · intro hall
    exact hall i (by rw [Table.get_delete, if_pos rfl])
  · intro hplain j hj
    change (s.trips.delete i).get j = none at hj
    rw [Table.get_delete] at hj
    split at hj
    · next hji =>
      rw [hji]
      exact hplain
    · exact hs j hj

theorem TripDeed.deleted (deed : TripDeed s env user (.delete i) ws)
    (hc : ws.foldlM (Store.flush now) s = .ok s') : ∃ t, s.trips.get i = some t ∧
      t.status = .draft ∧ s' = { s with trips := s.trips.delete i } := by
  cases deed with
  | delete load owner status =>
    obtain ⟨-, rfl⟩ := commit_delete_trip hc
    exact ⟨_, (loadVisibleTrip_eq_ok.mp load).2.1, status, rfl⟩

theorem step_cases_delete {req : DeskRequest} (hstep : desk.step s req = .ok s') :
    (Keeps s s' ∧ ∀ i, req.call ≠ .trip (.delete i)) ∨ ∃ i t, req.call = .trip (.delete i) ∧
      s.trips.get i = some t ∧ t.status = .draft ∧ s' = { s with trips := s.trips.delete i } := by
  obtain ⟨p, hplan, hcommit⟩ := bind_eq_ok.mp hstep
  obtain ⟨user, -, deed⟩ := deed_of_plan hplan
  have hc := Plan.commit_eq_ok.mp hcommit
  generalize req.call = call at deed ⊢
  cases deed with
  | expense deed => exact .inl ⟨deed.keeps hc, fun _ he => nomatch he⟩
  | @trip call ws deed =>
    by_cases hcall : ∃ i, call = .delete i
    · obtain ⟨i, rfl⟩ := hcall
      obtain ⟨t, get, hstatus, hs'⟩ := deed.deleted hc
      exact .inr ⟨i, t, rfl, get, hstatus, hs'⟩
    · have hcall : ∀ i, call ≠ .delete i := fun i he => hcall ⟨i, he⟩
      exact .inl ⟨deed.keeps hc hcall, fun i he => hcall i (DeskCall.trip.inj he)⟩

theorem RowsTell.step {req : DeskRequest} (h : RowsTell s) (hstep : desk.step s req = .ok s') :
    RowsTell s' := by
  rcases step_cases_delete hstep with ⟨hkeeps, -⟩ | ⟨i, t, -, -, -, rfl⟩
  · exact hkeeps.1 h
  · exact ⟨fun j row hj => h.rows j row (Table.get_delete_eq_some hj).2, fun j hj => h.fresh j hj⟩

theorem OnlyDrafts.step_iff {req : DeskRequest} (h : RowsTell s) (hs : OnlyDrafts s)
    (hstep : desk.step s req = .ok s') : OnlyDrafts s' ↔ DeletesUnrejected s req := by
  rcases step_cases_delete hstep with ⟨hkeeps, hcall⟩ | ⟨i, t, hcall, get, hstatus, rfl⟩
  · exact iff_of_true (hkeeps.2 hs) fun i _ he => absurd he (hcall i)
  · rw [delete_iff h hs get hstatus]
    constructor
    · intro hreason j row hj hrow
      obtain rfl : i = j := TripCall.delete.inj (DeskCall.trip.inj (hcall.symm.trans hj))
      rw [Option.some.inj (hrow.symm.trans get)]
      exact hreason
    · intro hun
      exact hun i t hcall get

/-! ## Runs -/

/-- From a store without trips and without entries on trips, the log of the deleted trips never has
more than the entries of a draft if and only if no deletion that goes through is of a trip with the
reason of a rejection on its row. -/
theorem only_drafts_iff {s₀ : Store} (htrips : s₀.trips.rows = [])
    (hlog : ∀ i, entriesOf s₀ .trip i = []) (reqs : List DeskRequest) :
    (∀ n, OnlyDrafts (Run.all desk.step s₀ (reqs.take n))) ↔
      Run.Each desk.step
        (fun s req => ∀ s', desk.step s req = .ok s' → DeletesUnrejected s req) s₀ reqs := by
  have htell : RowsTell s₀ := by
    refine ⟨fun i t hi => ?_, fun i _ => hlog i⟩
    rw [Table.get_of_rows_nil htrips] at hi
    cases hi
  have hdrafts : OnlyDrafts s₀ := onlyDrafts_iff.mpr fun i _ e he => by
    rw [hlog i] at he
    cases he
  exact Run.throughout_iff (fun _ _ _ hj hstep => hj.step hstep)
    (fun _ _ _ hj hs hstep => hs.step_iff hj hstep) htell hdrafts

/-- In the office, a trip that is deleted before it is submitted. -/
theorem only_drafts_iff_office :
    let reqs := [Office.ask 1 (.trip (.create Office.trip)), Office.ask 1 (.trip (.delete 1))]
    (∀ n, OnlyDrafts (Run.all desk.step Office.store (reqs.take n))) ↔
      Run.Each desk.step
        (fun s req => ∀ s', desk.step s req = .ok s' → DeletesUnrejected s req) Office.store reqs :=
  only_drafts_iff rfl (fun _ => rfl) _

/-- Kim's trip is rejected, reopened and deleted; the log says that it was submitted. -/
def rejectedAndDeleted : List DeskRequest :=
  [Office.ask 1 (.trip (.create Office.trip)), Office.ask 1 (.trip (.submit 1)),
    Office.ask 2 (.trip (.reject 1 ⟨"Too late"⟩)), Office.ask 1 (.trip (.reopen 1)),
    Office.ask 1 (.trip (.delete 1))]

theorem decided_trip_deleted :
    ¬ ∀ (s₀ : Store) (reqs : List DeskRequest), s₀.trips.rows = [] →
      (∀ i, entriesOf s₀ .trip i = []) → OnlyDrafts (Run.all desk.step s₀ reqs) := by
  intro hall
  have h := hall Office.store rejectedAndDeleted rfl fun _ => rfl
  have hentry : ((Run.all desk.step Office.store rejectedAndDeleted).activityLog.get 2).map
      (fun e => (e.entityType, e.entityId, e.action)) = some (.trip, 1, .submitted) := by
    decide +kernel
  have hgone : (Run.all desk.step Office.store rejectedAndDeleted).trips.get 1 = none := by
    decide +kernel
  obtain ⟨e, he, hfields⟩ := Option.map_eq_some_iff.mp hentry
  simp only [Prod.mk.injEq] at hfields
  obtain ⟨htype, hid, haction⟩ := hfields
  rcases h 2 e he htype (by rw [hid]; exact hgone) with hplain | hplain
  · exact nomatch haction.symm.trans hplain
  · exact nomatch haction.symm.trans hplain

end Biztrip.Desk
