import Biztrip.Desk.Deed

/-!
# What a desk request leaves behind

The effect of committing the statements of a deed, for each of their shapes. A
history never fails and touches nothing but the log and the notifications
(`Store.record`). In a serial run the rows are still the ones the request
loaded, so an `UPDATE` leaves the row that was computed (`Updated`).
-/

namespace Biztrip

open Biztrip.Lib

@[simp] theorem stamp_trip (now : Instant) (t : Trip) : stamp now t = { t with updatedAt := now } :=
  rfl

@[simp] theorem stamp_report (now : Instant) (r : ExpenseReport) :
    stamp now r = { r with updatedAt := now } := rfl

namespace Store

/-- The store with a log row and, where somebody is told, a notification. -/
def record (s : Store) (env : Env) (entityType : EntityType) (entity : EntityRef)
    (tr : Transition) : Store :=
  { s with
    activityLog := s.activityLog.insert
      { tr.logRow env entityType with entityId := s.resolve entityType entity }
    notifications :=
      match tr.notify with
      | none => s.notifications
      | some n =>
        if n.userId = tr.actorId then s.notifications
        else s.notifications.insert
          { userId := n.userId, type := n.type, title := n.title, body := n.body
            linkUrl := n.linkUrl, isRead := false, createdAt := env.txnNow } }

variable {s s' : Store} {now : Instant} {env : Env} {entityType : EntityType} {entity : EntityRef}
  {tr : Transition}

@[simp] theorem record_trips : (s.record env entityType entity tr).trips = s.trips := rfl

@[simp] theorem record_reports : (s.record env entityType entity tr).reports = s.reports := rfl

@[simp] theorem record_items : (s.record env entityType entity tr).items = s.items := rfl

@[simp] theorem record_users : (s.record env entityType entity tr).users = s.users := rfl

theorem flush_history :
    (recordTransition env entityType entity tr).foldlM (flush now) s =
      .ok (s.record env entityType entity tr) := by
  unfold recordTransition Transition.notificationWrites record
  rcases tr.notify with _ | n
  · rfl
  · by_cases hn : n.userId = tr.actorId
    · simp only [hn, if_true]
      rfl
    · simp only [hn, if_false]
      rfl

theorem flush_trip {w : RowWrite Trip} (h : s.flush now (.trip w) = .ok s') :
    s.check (.trip w) = .ok () ∧
      ∃ t, w.apply now Fault.staleData s.trips = .ok t ∧ s' = { s with trips := t } := by
  obtain ⟨_, hcheck, h⟩ := bind_eq_ok.mp h
  obtain ⟨t, happly, h⟩ := bind_eq_ok.mp h
  rw [pure_eq_ok, Except.ok.injEq] at h
  exact ⟨hcheck, t, happly, h.symm⟩

theorem flush_report {w : RowWrite ExpenseReport} (h : s.flush now (.report w) = .ok s') :
    s.check (.report w) = .ok () ∧
      ∃ t, w.apply now Fault.staleData s.reports = .ok t ∧ s' = { s with reports := t } := by
  obtain ⟨_, hcheck, h⟩ := bind_eq_ok.mp h
  obtain ⟨t, happly, h⟩ := bind_eq_ok.mp h
  rw [pure_eq_ok, Except.ok.injEq] at h
  exact ⟨hcheck, t, happly, h.symm⟩

theorem flush_item {w : RowWrite ExpenseItem} (h : s.flush now (.item w) = .ok s') :
    s.check (.item w) = .ok () ∧
      ∃ t, w.apply now Fault.staleData s.items = .ok t ∧ s' = { s with items := t } := by
  obtain ⟨_, hcheck, h⟩ := bind_eq_ok.mp h
  obtain ⟨t, happly, h⟩ := bind_eq_ok.mp h
  rw [pure_eq_ok, Except.ok.injEq] at h
  exact ⟨hcheck, t, happly, h.symm⟩

/-- Writing back over the loaded row never fails. -/
theorem flush_trip_loaded {i : Int} {t t' : Trip} (h : s.trips.get i = some t) :
    ∃ u, s.flush now (.trip (.update i t t')) = .ok { s with trips := u } := by
  obtain ⟨f, at₀, he, -⟩ := RowWrite.apply_update_loaded h
  exact ⟨_, bind_eq_ok.mpr ⟨(), rfl, bind_eq_ok.mpr ⟨_, he, rfl⟩⟩⟩

theorem flush_report_loaded {j : Int} {r r' : ExpenseReport} (h : s.reports.get j = some r) :
    ∃ u, s.flush now (.report (.update j r r')) = .ok { s with reports := u } := by
  obtain ⟨f, at₀, he, -⟩ := RowWrite.apply_update_loaded h
  exact ⟨_, bind_eq_ok.mpr ⟨(), rfl, bind_eq_ok.mpr ⟨_, he, rfl⟩⟩⟩

theorem flush_item_loaded {k : Int} {it it' : ExpenseItem} (h : s.items.get k = some it) :
    ∃ u, s.flush now (.item (.update k it it')) = .ok { s with items := u } := by
  obtain ⟨f, at₀, he, -⟩ := RowWrite.apply_update_loaded h
  exact ⟨_, bind_eq_ok.mpr ⟨(), rfl, bind_eq_ok.mpr ⟨_, he, rfl⟩⟩⟩

/-- Items carry no stamp, so what a flush leaves does not depend on the time. -/
theorem flush_item_now {w : RowWrite ExpenseItem} (now' : Instant) :
    s.flush now (.item w) = s.flush now' (.item w) := by
  cases w <;> rfl

end Store

namespace Desk

variable {s s' : Store} {now : Instant} {env : Env} {entityType : EntityType} {entity : EntityRef}
  {tr : Transition}

/-! ## The log of an entity -/

/-- The log rows of an entity, in the order they were written. -/
def entriesOf (s : Store) (entityType : EntityType) (i : Int) : List ActivityLog :=
  (s.activityLog.rows.map Prod.snd).filter fun e => e.entityType = entityType ∧ e.entityId = i

theorem entriesOf_record {ty : EntityType} (i : Int) :
    entriesOf (s.record env entityType entity tr) ty i =
      if ty = entityType ∧ i = s.resolve entityType entity then
        entriesOf s ty i ++ [{ tr.logRow env entityType with entityId := i }]
      else entriesOf s ty i := by
  by_cases h : ty = entityType ∧ i = s.resolve entityType entity
  · obtain ⟨rfl, rfl⟩ := h
    simp [entriesOf, Store.record, Table.insert, List.filter_append, Transition.logRow]
  · have hne : ¬ (entityType = ty ∧ s.resolve entityType entity = i) := fun hsame =>
      h ⟨hsame.1.symm, hsame.2.symm⟩
    simp [entriesOf, Store.record, Table.insert, List.filter_append, Transition.logRow, h, hne]

/-! ## Commits -/

theorem commit_trip {w : RowWrite Trip}
    (h : (Write.trip w :: recordTransition env entityType entity tr).foldlM (Store.flush now) s =
      .ok s') :
    s.check (.trip w) = .ok () ∧ ∃ t, w.apply now Fault.staleData s.trips = .ok t ∧
      s' = Store.record { s with trips := t } env entityType entity tr := by
  rw [List.foldlM_cons] at h
  obtain ⟨s₁, hflush, h⟩ := bind_eq_ok.mp h
  obtain ⟨hcheck, t, happly, rfl⟩ := Store.flush_trip hflush
  rw [Store.flush_history, Except.ok.injEq] at h
  exact ⟨hcheck, t, happly, h.symm⟩

theorem commit_report {w : RowWrite ExpenseReport}
    (h : (Write.report w :: recordTransition env entityType entity tr).foldlM (Store.flush now) s =
      .ok s') :
    s.check (.report w) = .ok () ∧ ∃ t, w.apply now Fault.staleData s.reports = .ok t ∧
      s' = Store.record { s with reports := t } env entityType entity tr := by
  rw [List.foldlM_cons] at h
  obtain ⟨s₁, hflush, h⟩ := bind_eq_ok.mp h
  obtain ⟨hcheck, t, happly, rfl⟩ := Store.flush_report hflush
  rw [Store.flush_history, Except.ok.injEq] at h
  exact ⟨hcheck, t, happly, h.symm⟩

theorem commit_delete_trip {tripId : Int}
    (h : [Write.trip (.delete tripId)].foldlM (Store.flush now) s = .ok s') :
    s.check (.trip (.delete tripId)) = .ok () ∧ s' = { s with trips := s.trips.delete tripId } := by
  simp only [List.foldlM_cons, List.foldlM_nil, bind_eq_ok, pure_eq_ok, Except.ok.injEq] at h
  obtain ⟨s₁, hflush, rfl⟩ := h
  obtain ⟨hcheck, t, happly, rfl⟩ := Store.flush_trip hflush
  rw [RowWrite.apply_delete, Except.ok.injEq] at happly
  exact ⟨hcheck, by rw [happly]⟩

theorem commit_edit {w : RowWrite ExpenseItem} {w' : RowWrite ExpenseReport}
    (h : [Write.item w, .report w'].foldlM (Store.flush now) s = .ok s') :
    ∃ t t', s.check (.item w) = .ok () ∧ w.apply now Fault.staleData s.items = .ok t ∧
      w'.apply now Fault.staleData s.reports = .ok t' ∧
      s' = { s with items := t, reports := t' } := by
  simp only [List.foldlM_cons, List.foldlM_nil, bind_eq_ok, pure_eq_ok, Except.ok.injEq] at h
  obtain ⟨s₁, hitem, s₂, hreport, rfl⟩ := h
  obtain ⟨hcheck, t, happly, rfl⟩ := Store.flush_item hitem
  obtain ⟨-, t', happly', rfl⟩ := Store.flush_report hreport
  exact ⟨t, t', hcheck, happly, happly', rfl⟩

/-- The approval of a report, which settles its trip. -/
theorem commit_approve {w : RowWrite ExpenseReport} {w' : RowWrite Trip}
    {entityType' : EntityType} {entity' : EntityRef} {tr' : Transition}
    (h : (Write.report w :: recordTransition env entityType entity tr ++
      .trip w' :: recordTransition env entityType' entity' tr').foldlM (Store.flush now) s =
        .ok s') :
    ∃ t t', w.apply now Fault.staleData s.reports = .ok t ∧
      w'.apply now Fault.staleData s.trips = .ok t' ∧
      s' = Store.record { Store.record { s with reports := t } env entityType entity tr with
        trips := t' } env entityType' entity' tr' := by
  rw [List.foldlM_append] at h
  obtain ⟨s₁, hreport, h⟩ := bind_eq_ok.mp h
  obtain ⟨-, t, happly, rfl⟩ := commit_report hreport
  obtain ⟨-, t', happly', rfl⟩ := commit_trip h
  exact ⟨t, t', happly, happly', rfl⟩

theorem not_referenced {β : Type} [DecidableEq β] {ρ : Type} {t : Table ρ} {column : ρ → β} {v : β}
    (h : Store.referenced t column v = false) {j : Int} {row : ρ} (hj : t.get j = some row) :
    column row ≠ v :=
  Store.taken_eq_false.mp h j row hj (Option.some_ne_none j)

/-- The declared keys leave a trip to one report. -/
theorem single_of_check {r : ExpenseReport} (h : s.check (.report (.insert r)) = .ok ()) {j : Int}
    {row : ExpenseReport} (hj : s.reports.get j = some row) : row.tripId ≠ r.tripId := by
  obtain ⟨_, -, h⟩ := bind_eq_ok.mp h
  obtain ⟨_, htrip, -⟩ := bind_eq_ok.mp h
  exact not_referenced (guardE_eq_ok.mp htrip) hj

/-- A trip request writes no report and no item. -/
theorem TripDeed.tables {seen : Store} {user : CurrentUser} {call : TripCall}
    {ws : List Write} (deed : TripDeed seen env user call ws)
    (hc : ws.foldlM (Store.flush now) s = .ok s') :
    s'.reports = s.reports ∧ s'.items = s.items := by
  cases deed with
  | delete => exact (commit_delete_trip hc).2 ▸ ⟨rfl, rfl⟩
  | _ =>
    obtain ⟨-, u, -, rfl⟩ := commit_trip hc
    exact ⟨rfl, rfl⟩

/-! ## Edits of the items -/

/-- A statement on the items of one report. -/
inductive EditOf (s : Store) (j : Int) : RowWrite ExpenseItem → Prop where
  | insert {it : ExpenseItem} (inReport : it.reportId = j) : EditOf s j (.insert it)
  | update {k : Int} {it it' : ExpenseItem} (get : s.items.get k = some it)
    (inReport : it.reportId = j) (stays : it'.reportId = j) : EditOf s j (.update k it it')
  | delete {k : Int} {it : ExpenseItem} (get : s.items.get k = some it)
    (inReport : it.reportId = j) : EditOf s j (.delete k)

variable {j k : Int} {w : RowWrite ExpenseItem} {items : Table ExpenseItem} {row : ExpenseItem}

theorem EditOf.loaded (h : EditOf s j w) : w.Loaded s.items := by
  cases h with
  | update get => exact get
  | _ => trivial

/-- An item read after an edit was there before or is the one written. -/
theorem EditOf.cases (h : EditOf s j w) (ha : w.apply now Fault.staleData s.items = .ok items)
    (hk : items.get k = some row) :
    s.items.get k = some row ∨ (w.row? = some row ∧ row.reportId = j) := by
  refine (h.loaded.cases ha hk).imp_right ?_
  rintro ⟨new, at₀, hnew, rfl⟩
  refine ⟨hnew, ?_⟩
  cases h with
  | insert inReport => cases hnew; exact inReport
  | update get inReport stays => cases hnew; exact stays
  | delete get inReport => cases hnew

theorem follows_reportId : Follows ExpenseItem.reportId where
  merge h cur := by simp [merge, h]
  stamp _ _ := rfl

/-- The items of the other reports stay the same list, also if items have been written meanwhile. -/
theorem EditOf.others {db : Table ExpenseItem} (h : EditOf s j w)
    (hsince : Descends ExpenseItem.reportId s.items db)
    (ha : w.apply now Fault.staleData db = .ok items) {m : Int} (hm : m ≠ j) :
    items.rows.filter (fun p => decide (p.2.reportId = m)) =
      db.rows.filter fun p => decide (p.2.reportId = m) := by
  cases h with
  | insert inReport =>
    rw [RowWrite.apply_insert, Except.ok.injEq] at ha
    subst ha
    exact Table.filter_insert (by simp [inReport, hm.symm])
  | @update k it it' get inReport stays =>
    rcases RowWrite.apply_update_eq_ok.mp ha with ⟨-, rfl⟩ | ⟨-, -, rfl⟩
    · rfl
    refine Table.filter_update fun cur hcur => ?_
    have hcol : cur.reportId = j := (hsince.column_eq get hcur).trans inReport
    have hmerged : (stamp now (merge it it' cur)).reportId = j :=
      (follows_reportId.merge (stays.trans inReport.symm) cur).trans hcol
    simp only [hcol, hmerged, hm.symm, decide_false, and_self]
  | delete get inReport =>
    rw [RowWrite.apply_delete, Except.ok.injEq] at ha
    subst ha
    refine Table.filter_delete fun cur hcur => ?_
    simp [(hsince.column_eq get hcur).trans inReport, hm.symm]

end Desk

end Biztrip
