import Biztrip.Desk.Lineage
import Biztrip.Desk.Totals

/-!
# What is approved is what was submitted

While a report is submitted or approved, its items and its sums belong to its
approver, and so does the content of a trip from its submission on. `Untouched`
says that a commit respects this. The edits check the status they have read;
`StillOpen` says that their check still holds when they commit, and that is all
it takes over any interleaving of requests.
-/

namespace Biztrip.Desk

open Biztrip.Lib Trips Expenses

/-- The columns of a report that its approval is about. -/
structure SameSums (r r' : ExpenseReport) : Prop where
  fundCenterCode : r'.fundCenterCode = r.fundCenterCode
  costCenterCode : r'.costCenterCode = r.costCenterCode
  totalAmountKrw : r'.totalAmountKrw = r.totalAmountKrw

structure Untouched (s s' : Store) : Prop where
  report : ∀ j r, s.reports.get j = some r → r.status = .submitted ∨ r.status = .approved →
    itemsOf s' j = itemsOf s j ∧ ∃ r', s'.reports.get j = some r' ∧ SameSums r r'
  trip : ∀ i t, s.trips.get i = some t →
    t.status = .submitted ∨ t.status = .approved ∨ t.status = .completed ∨ t.status = .settled →
    ∃ t', s'.trips.get i = some t' ∧ SameContent t t'

/-! ## Commits in time -/

def ReportOpen (s : Store) (j : Int) : Prop :=
  ∀ r, s.reports.get j = some r → r.status ∈ expenseEditableStatuses

def TripOpen (s : Store) (i : Int) : Prop :=
  ∀ t, s.trips.get i = some t → t.status ∈ editableStatuses

/-- An edit finds the report or the trip still editable. A submission may find its report in any
status if the total it has read was the sum of the items. -/
def StillOpen (s seen : Store) : DeskCall → Prop
  | .trip (.update i _) => TripOpen s i
  | .trip (.delete i) => TripOpen s i
  | .expense (.update j _) => ReportOpen s j
  | .expense (.addItem j _) => ReportOpen s j
  | .expense (.updateItem k _) => ∀ it, seen.items.get k = some it → ReportOpen s it.reportId
  | .expense (.deleteItem k) => ∀ it, seen.items.get k = some it → ReportOpen s it.reportId
  | .expense (.submit j) => ReportOpen s j ∨
      ∀ r, seen.reports.get j = some r → r.totalAmountKrw.units = includedTotal seen j
  | _ => True

instance {s : Store} {j : Int} : Decidable (ReportOpen s j) :=
  inferInstanceAs (Decidable (∀ r ∈ s.reports.get j, _))

instance {s : Store} {i : Int} : Decidable (TripOpen s i) :=
  inferInstanceAs (Decidable (∀ t ∈ s.trips.get i, _))

instance {s seen : Store} : ∀ {call : DeskCall}, Decidable (StillOpen s seen call)
  | .trip (.update i _) | .trip (.delete i) => inferInstanceAs (Decidable (TripOpen s i))
  | .expense (.update j _) | .expense (.addItem j _) => inferInstanceAs (Decidable (ReportOpen s j))
  | .expense (.updateItem k _) | .expense (.deleteItem k) =>
    inferInstanceAs (Decidable (∀ it ∈ seen.items.get k, ReportOpen s it.reportId))
  | .expense (.submit j) =>
    inferInstanceAs (Decidable (ReportOpen s j ∨ ∀ r ∈ seen.reports.get j, _))
  | .trip (.create _) | .trip (.submit _) | .trip (.approve _) | .trip (.reject _ _)
  | .trip (.reopen _) | .trip (.complete _) | .expense (.create _) | .expense (.approve _)
  | .expense (.reject _ _) | .expense (.reopen _) => inferInstanceAs (Decidable True)

variable {seen s s' : Store} {env : Env} {user : CurrentUser} {now : Instant} {i j k : Int}

theorem SameSums.refl (r : ExpenseReport) : SameSums r r := ⟨rfl, rfl, rfl⟩

/-- Columns that the request has not changed are not written. -/
theorem SameSums.merged {r r' : ExpenseReport} (h : SameSums r r') (at₀ : Instant)
    (cur : ExpenseReport) : SameSums cur (stamp at₀ (merge r r' cur)) := by
  constructor <;> simp [merge, h.fundCenterCode, h.costCenterCode, h.totalAmountKrw]

theorem SameContent.merged {t t' : Trip} (h : SameContent t t') (at₀ : Instant) (cur : Trip) :
    SameContent cur (stamp at₀ (merge t t' cur)) := by
  constructor <;>
    simp [merge, h.title, h.purposeCode, h.purposeDetail, h.destinationTypeCode, h.countryCode,
      h.city, h.costCenterCode, h.startDate, h.endDate]

theorem not_locked_of_open {r : ExpenseReport} (ho : ReportOpen s j)
    (hr : s.reports.get j = some r) :
    ¬ (r.status = .submitted ∨ r.status = .approved) := by
  rcases mem_expenseEditableStatuses.mp (ho r hr) with h | h <;> simp [h]

theorem not_tripLocked_of_open {t : Trip} (ho : TripOpen s i) (ht : s.trips.get i = some t) :
    ¬ (t.status = .submitted ∨ t.status = .approved ∨ t.status = .completed ∨
      t.status = .settled) := by
  rcases mem_editableStatuses.mp (ho t ht) with h | h <;> simp [h]

/-! ## One table at a time -/

section
variable {r r' cur : ExpenseReport}

/-- A report is locked with its sums, unless it is open or its sums were not changed. -/
theorem sums_of_writtenBack (hw : WrittenBack s.reports s'.reports i r r')
    (h : ReportOpen s i ∨ SameSums r r') (hj : s.reports.get j = some cur)
    (hlocked : cur.status = .submitted ∨ cur.status = .approved) :
    ∃ r', s'.reports.get j = some r' ∧ SameSums cur r' := by
  by_cases hji : j = i
  · subst hji
    obtain ⟨at₀, hget⟩ := hw.get_self hj
    rcases h with ho | hs
    · exact absurd hlocked (not_locked_of_open ho hj)
    · exact ⟨_, hget, hs.merged at₀ cur⟩
  · exact ⟨cur, (hw.get_of_ne hji).trans hj, .refl _⟩

theorem Untouched.of_report (hw : WrittenBack s.reports s'.reports i r r')
    (h : ReportOpen s i ∨ SameSums r r') (hi : s'.items = s.items) (ht : s'.trips = s.trips) :
    Untouched s s' where
  report j cur hj hlocked := ⟨by simp only [itemsOf, hi], sums_of_writtenBack hw h hj hlocked⟩
  trip k t hk _ := ⟨t, ht ▸ hk, .refl _⟩

/-- The items of an open report. -/
theorem Untouched.of_edit {w : RowWrite ExpenseItem} (hedit : EditOf seen i w)
    (hl : Lineage seen s) (ho : ReportOpen s i)
    (ha : w.apply now Fault.staleData s.items = .ok s'.items)
    (hw : WrittenBack s.reports s'.reports i r r') (ht : s'.trips = s.trips) : Untouched s s' where
  report j cur hj hlocked := by
    have hji : j ≠ i := by
      rintro rfl
      exact not_locked_of_open ho hj hlocked
    exact ⟨hedit.others hl.items ha hji, sums_of_writtenBack hw (.inl ho) hj hlocked⟩
  trip k t hk _ := ⟨t, ht ▸ hk, .refl _⟩

end

theorem content_of_writtenBack {t t' cur : Trip} (hw : WrittenBack s.trips s'.trips i t t')
    (h : TripOpen s i ∨ SameContent t t') (hk : s.trips.get k = some cur)
    (hlocked : cur.status = .submitted ∨ cur.status = .approved ∨ cur.status = .completed ∨
      cur.status = .settled) :
    ∃ t', s'.trips.get k = some t' ∧ SameContent cur t' := by
  by_cases hki : k = i
  · subst hki
    obtain ⟨at₀, hget⟩ := hw.get_self hk
    rcases h with ho | hs
    · exact absurd hlocked (not_tripLocked_of_open ho hk)
    · exact ⟨_, hget, hs.merged at₀ cur⟩
  · exact ⟨cur, (hw.get_of_ne hki).trans hk, .refl _⟩

/-! ## One commit -/

theorem TripDeed.untouched {call : TripCall} {ws : List Write}
    (deed : TripDeed seen env user call ws) (hc : ws.foldlM (Store.flush now) s = .ok s')
    (hopen : StillOpen s seen (.trip call)) : Untouched s s' := by
  obtain ⟨hr, hi⟩ := deed.tables hc
  refine ⟨fun j r hj _ => ⟨by simp only [itemsOf, hi], r, hr ▸ hj, .refl _⟩,
    fun k t hk hlocked => ?_⟩
  cases deed.change hc with
  | create status trips => exact ⟨t, by rw [trips, Table.get_insert_of_some hk], .refl _⟩
  | edit written status => exact content_of_writtenBack written (.inl hopen) hk hlocked
  | @delete i trips =>
    have hki : k ≠ i := by
      rintro rfl
      exact not_tripLocked_of_open hopen hk hlocked
    exact ⟨t, by rw [trips, Table.get_delete, if_neg hki, hk], .refl _⟩
  | move written status content => exact content_of_writtenBack written (.inr content) hk hlocked

theorem ExpenseDeed.untouched {call : ExpenseCall} {ws : List Write}
    (deed : ExpenseDeed seen env user call ws) (hc : ws.foldlM (Store.flush now) s = .ok s')
    (hl : Lineage seen s) (hopen : StillOpen s seen (.expense call)) : Untouched s s' := by
  cases deed with
  | create load owner reportable single new records =>
    obtain ⟨-, u, happly, rfl⟩ := commit_report hc
    rw [RowWrite.apply_insert, Except.ok.injEq] at happly
    subst happly
    exact ⟨fun j r hj _ => ⟨rfl, r, Table.get_insert_of_some hj, .refl _⟩,
      fun k t hk _ => ⟨t, hk, .refl _⟩⟩
  | update load centers assigned records =>
    obtain ⟨-, u, happly, rfl⟩ := commit_report hc
    exact .of_report (writtenBack_of_apply happly) (.inl hopen) rfl rfl
  | addItem load new flush recalc =>
    obtain ⟨u, u', -, hitem, hreport, rfl⟩ := commit_edit hc
    exact .of_edit (.insert new.inReport) hl hopen hitem (writtenBack_of_apply hreport) rfl
  | updateItem int4 get load checked assigned flush recalc =>
    obtain ⟨u, u', -, hitem, hreport, rfl⟩ := commit_edit hc
    exact .of_edit (.update get rfl (assignItem_eq_ok assigned).1) hl (hopen _ get) hitem
      (writtenBack_of_apply hreport) rfl
  | deleteItem int4 get load flush recalc =>
    obtain ⟨u, u', -, hitem, hreport, rfl⟩ := commit_edit hc
    exact .of_edit (.delete get rfl) hl (hopen _ get) hitem (writtenBack_of_apply hreport) rfl
  | submit load owner status trip completed present centers items recalc approver moved records =>
    obtain ⟨-, u, happly, rfl⟩ := commit_report hc
    subst moved
    refine .of_report (writtenBack_of_apply happly) ?_ rfl rfl
    refine hopen.imp_right fun hexact => ⟨rfl, rfl, ?_⟩
    -- the sum it has taken is the total that it has read
    have htotal := hexact _ (loadVisibleReport_eq_ok.mp load).2.1
    exact Numeric.ext ((recalcTotal_eq_ok recalc).1.trans htotal.symm)
  | approve load approver status trip completed moved settled records records' =>
    obtain ⟨u, u', hreport, htrip, rfl⟩ := commit_approve hc
    subst moved settled
    refine ⟨fun j r hj hlocked => ⟨rfl, ?_⟩, fun k t hk hlocked => ?_⟩
    · exact sums_of_writtenBack (writtenBack_of_apply hreport)
        (.inr ⟨rfl, rfl, rfl⟩) hj hlocked
    · exact content_of_writtenBack (writtenBack_of_apply htrip) (.inr .moved) hk hlocked
  | reject load approver status given moved records =>
    obtain ⟨-, u, happly, rfl⟩ := commit_report hc
    subst moved
    exact .of_report (writtenBack_of_apply happly) (.inr ⟨rfl, rfl, rfl⟩) rfl rfl
  | reopen load owner status moved records =>
    obtain ⟨-, u, happly, rfl⟩ := commit_report hc
    subst moved
    exact .of_report (writtenBack_of_apply happly) (.inr ⟨rfl, rfl, rfl⟩) rfl rfl

theorem Deed.untouched {call : DeskCall} {ws : List Write} (deed : Deed seen env user call ws)
    (hc : ws.foldlM (Store.flush now) s = .ok s') (hl : Lineage seen s)
    (hopen : StillOpen s seen call) : Untouched s s' := by
  cases deed with
  | trip deed => exact deed.untouched hc hopen
  | expense deed => exact deed.untouched hc hl hopen

theorem Untouched.of_sameDesk (h : SameDesk s s') : Untouched s s' where
  report j r hj _ := ⟨by simp only [itemsOf, h.items], r, h.reports ▸ hj, .refl _⟩
  trip i t hi _ := ⟨t, h.trips ▸ hi, .refl _⟩

/-- The guards establish what is asked for. -/
theorem Deed.stillOpen {call : DeskCall} {ws : List Write} (deed : Deed seen env user call ws) :
    StillOpen seen seen call := by
  have hreport : ∀ {j : Int} {r : ExpenseReport}, loadEditableReport seen user j = .ok r →
      ReportOpen seen j := by
    intro j r load r' hr'
    obtain ⟨hload, -, editable⟩ := loadEditableReport_eq_ok.mp load
    rw [(loadVisibleReport_eq_ok.mp hload).2.1, Option.some.injEq] at hr'
    exact hr' ▸ editable
  have htrip : ∀ {i : Int} {t : Trip}, loadVisibleTrip seen i user = .ok t →
      t.status ∈ editableStatuses → TripOpen seen i := by
    intro i t load editable t' ht'
    rw [(loadVisibleTrip_eq_ok.mp load).2.1, Option.some.injEq] at ht'
    exact ht' ▸ editable
  have hitem : ∀ {k : Int} {it : ExpenseItem} {r : ExpenseReport}, seen.items.get k = some it →
      loadEditableReport seen user it.reportId = .ok r →
      ∀ it', seen.items.get k = some it' → ReportOpen seen it'.reportId := by
    intro k it r get load it' hit'
    rw [get, Option.some.injEq] at hit'
    exact hit' ▸ hreport load
  cases deed with
  | trip deed =>
    cases deed with
    | update load owner editable => exact htrip load editable
    | delete load owner status => exact htrip load (mem_editableStatuses.mpr (.inl status))
    | _ => trivial
  | expense deed =>
    cases deed with
    | update load => exact hreport load
    | addItem load => exact hreport load
    | updateItem int4 get load => exact hitem get load
    | deleteItem int4 get load => exact hitem get load
    | submit load owner status =>
      refine .inl fun r hr => ?_
      rw [(loadVisibleReport_eq_ok.mp load).2.1, Option.some.injEq] at hr
      exact mem_expenseEditableStatuses.mpr (.inl (hr ▸ status))
    | _ => trivial

/-! ## Interleavings -/

section
variable (sec : Security)

theorem keeps_lineage :
    (system sec).Keeps (fun _ => True) Lineage (Meets StillOpen) where
  refl := .refl
  trans _ _ _ := .trans
  commit s f s' _ _ _ _ h := by
    rcases flight_cases f h with ⟨userId, call, user, ws, -, deed, hc⟩ | hsame
    · exact ⟨trivial, deed.lineage hc⟩
    · exact ⟨trivial, .of_sameDesk hsame⟩

/-- Requests overlap, from any store. If every edit finds what it edits still editable when it
commits, and every submission that does not has read an exact total, then no commit touches the
items and sums of a report that is submitted or approved, or the content of a trip from its
submission on. -/
theorem approved_as_submitted (s₀ : Store) (evs : List (Machine.Event (Request Call)))
    (hopen : Machine.Config.Each (Meets StillOpen) (Machine.Config.quiet (system sec) s₀) evs) :
    Machine.Config.Across Untouched (Machine.Config.quiet (system sec) s₀) evs := by
  have hc : (Machine.Config.quiet (system sec) s₀).Sound (fun _ => True) Lineage :=
    Machine.Config.sound_quiet trivial
  refine hc.across (keeps_lineage sec) (fun s => .of_sameDesk (.refl s))
    (fun s f s' _ _ hl hp h => ?_) hopen
  rcases flight_cases f h with ⟨userId, call, user, ws, hcall, deed, hc⟩ | hsame
  · exact deed.untouched hc hl (hp userId call hcall)
  · exact .of_sameDesk hsame

end

/-! ## In the office -/

/-- Kim's report with its one item, not yet submitted. -/
def draftReport : List (Request Call) :=
  (Office.tripDone 1 ++ (Office.reportSubmitted 1).take 3).map fun r =>
    ⟨r.env, .desk r.userId r.call⟩

/-- Kim adds a meal paid in cash and submits the report, and the new item commits first. Then Lee
approves and rejects the submitted report at once. -/
def overlappingDecisions : List (Machine.Event (Request Call)) :=
  [.begin ⟨Office.env, .desk 1 (.expense (.addItem 1 Office.cashMeal))⟩,
    .begin ⟨Office.env, .desk 1 (.expense (.submit 1))⟩, .commit 0, .commit 0,
    .begin ⟨Office.env, .desk 2 (.expense (.approve 1))⟩,
    .begin ⟨Office.env, .desk 2 (.expense (.reject 1 ⟨"No receipt"⟩))⟩, .commit 0, .commit 0]

theorem approved_as_submitted_office :
    Machine.Config.Across Untouched (Machine.Config.quiet (system Office.sec)
      (Run.all (system Office.sec).step Office.store draftReport)) overlappingDecisions :=
  approved_as_submitted Office.sec _ _ (by decide +kernel)

/-- Kim deletes the item and submits the report. Both requests read the draft, and the submission
commits first. -/
def lateDeletion : List (Machine.Event (Request Call)) :=
  [.begin ⟨Office.env, .desk 1 (.expense (.deleteItem 1))⟩,
    .begin ⟨Office.env, .desk 1 (.expense (.submit 1))⟩, .commit 1, .commit 0]

/-- The submitted report loses its item. -/
theorem edited_after_submission :
    ¬ ∀ (s₀ : Store) (evs : List (Machine.Event (Request Call))),
      Machine.Config.Across Untouched (Machine.Config.quiet (system Office.sec) s₀) evs := by
  intro hall
  -- the last of the four events
  obtain ⟨-, -, -, h, -⟩ :=
    hall (Run.all (system Office.sec).step Office.store draftReport) lateDeletion
  have hstatus : (((Machine.Config.quiet (system Office.sec)
      (Run.all (system Office.sec).step Office.store draftReport)).exec
        (lateDeletion.take 3)).db.reports.get 1).map ExpenseReport.status = some .submitted := by
    decide +kernel
  obtain ⟨r, hr, hst⟩ := Option.map_eq_some_iff.mp hstatus
  have hlength := congrArg List.length (h.report 1 r hr (.inl hst)).1
  revert hlength
  decide +kernel

end Biztrip.Desk
