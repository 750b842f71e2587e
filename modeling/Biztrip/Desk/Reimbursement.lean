import Biztrip.Desk.Effect

/-!
# Payments and the reports that take them

A report that is submitted or approved locks the card payments among its items.
The list of match candidates leaves out what other reports have locked, but
neither `add_item` nor `submit_report` looks at it, so two reports can be
submitted with the same payment. `Once` is the law; a request breaks it exactly
when it submits a report with a payment that another report has locked
(`Once.step_iff`).
-/

namespace Biztrip.Desk

open Biztrip.Lib Trips Expenses

/-- A status in which a report locks its payments. -/
def Locking (status : ExpenseReportStatus) : Prop := status = .submitted ∨ status = .approved

instance : DecidablePred Locking := fun _ => inferInstanceAs (Decidable (_ ∨ _))

def Locks (s : Store) (j : Int) : Prop := ∃ r, s.reports.get j = some r ∧ Locking r.status

instance (s : Store) (j : Int) : Decidable (Locks s j) :=
  inferInstanceAs (Decidable (∃ r ∈ s.reports.get j, Locking r.status))

/-- The report has the payment among its items that are not excluded. -/
def Takes (s : Store) (j x : Int) : Prop :=
  ∃ k it, s.items.get k = some it ∧ it.reportId = j ∧ it.cardTransactionId = some x ∧
    it.isExcluded = false

/-- No payment is in two reports that have locked it. -/
def Once (s : Store) : Prop :=
  ∀ j j' x, Locks s j → Locks s j' → Takes s j x → Takes s j' x → j = j'

/-- No other report has locked a payment that the report takes. -/
def Unclaimed (s : Store) (j : Int) : Prop :=
  ∀ j' x, Locks s j' → Takes s j' x → Takes s j x → j' = j

/-- Only unclaimed payments are submitted. -/
def SubmitsUnclaimed (s : Store) (req : DeskRequest) : Prop :=
  ∀ j, req.call = .expense (.submit j) → Unclaimed s j

variable {s s' : Store} {j m x : Int} {r r' : ExpenseReport}

theorem unclaimed_iff : Unclaimed s j ↔ ∀ p ∈ s.items.rows, ∀ q ∈ s.items.rows,
    ∀ x ∈ p.2.cardTransactionId, q.2.cardTransactionId = some x → p.2.isExcluded = false →
      q.2.isExcluded = false → q.2.reportId = j → Locks s p.2.reportId → p.2.reportId = j := by
  constructor
  · intro h p hp q hq x hpx hqx hpin hqin hqj hlock
    exact h p.2.reportId x hlock ⟨p.1, p.2, Table.mem_rows.mp hp, rfl, hpx, hpin⟩
      ⟨q.1, q.2, Table.mem_rows.mp hq, hqj, hqx, hqin⟩
  · rintro h j' x hlock ⟨k, it, hk, rfl, hx, hin⟩ ⟨l, it', hl, hj', hx', hin'⟩
    exact h (k, it) (Table.mem_rows.mpr hk) (l, it') (Table.mem_rows.mpr hl) x hx hx' hin hin' hj'
      hlock

instance (s : Store) (j : Int) : Decidable (Unclaimed s j) := decidable_of_iff _ unclaimed_iff.symm

instance (s : Store) (req : DeskRequest) : Decidable (SubmitsUnclaimed s req) :=
  match h : req.call with
  | .expense (.submit j) =>
    decidable_of_iff (Unclaimed s j)
      ⟨fun hj _ heq => by cases h.symm.trans heq; exact hj, fun hsub => hsub j h⟩
  | .trip _ | .expense (.create _) | .expense (.update _ _) | .expense (.addItem _ _)
  | .expense (.updateItem _ _) | .expense (.deleteItem _) | .expense (.approve _)
  | .expense (.reject _ _) | .expense (.reopen _) => .isTrue fun _ heq => nomatch h.symm.trans heq

theorem Once.of_no_reports (h : s.reports.rows = []) : Once s := by
  rintro j j' x ⟨r, hr, -⟩
  simp [Table.get_of_rows_nil h] at hr

/-! ## What a request locks and takes -/

theorem Takes.of_items (h : s'.items = s.items) : Takes s' j x ↔ Takes s j x := by
  simp only [Takes, h]

theorem Once.of_le (h : Once s) (hl : ∀ m, Locks s' m → Locks s m)
    (ht : ∀ m x, Locks s' m → Takes s' m x → Takes s m x) : Once s' :=
  fun j j' x hj hj' hx hx' => h j j' x (hl j hj) (hl j' hj') (ht j x hj hx) (ht j' x hj' hx')

theorem locks_of_updated (hu : Updated s.reports s'.reports j r') :
    Locks s' m ↔ (m = j ∧ Locking r'.status) ∨ (m ≠ j ∧ Locks s m) := by
  constructor
  · rintro ⟨r, hr, hlock⟩
    rcases hu.cases hr with ⟨rfl, at₀, rfl⟩ | ⟨hm, hr⟩
    · exact .inl ⟨rfl, hlock⟩
    · exact .inr ⟨hm, r, hr, hlock⟩
  · rintro (⟨rfl, hlock⟩ | ⟨hm, r, hr, hlock⟩)
    · obtain ⟨at₀, hget⟩ := hu.get_self
      exact ⟨_, hget, hlock⟩
    · exact ⟨r, by rw [hu.get_of_ne hm, hr], hlock⟩

/-- A change of a report that locks nothing new. -/
theorem Once.reportUpdated (h : Once s) (hj : s.reports.get j = some r)
    (hu : Updated s.reports s'.reports j r') (hi : s'.items = s.items)
    (hlock : Locking r'.status → Locking r.status) : Once s' := by
  refine h.of_le (fun m hm => ?_) fun m x _ => (Takes.of_items hi).mp
  rcases (locks_of_updated hu).mp hm with ⟨rfl, hr'⟩ | ⟨-, hm⟩
  · exact ⟨r, hj, hlock hr'⟩
  · exact hm

theorem not_locking (h : r.status ∈ expenseEditableStatuses) : ¬ Locking r.status := by
  rintro (hs | hs) <;> simp [hs, mem_expenseEditableStatuses] at h

/-- An edit changes what its own report takes, which locks nothing. -/
theorem Once.edited {user : CurrentUser} {now : Instant} {w : RowWrite ExpenseItem} {total : Krw}
    (h : Once s) (load : loadEditableReport s user j = .ok r) (hw : EditOf s j w)
    (hc : [Write.item w, .report (.update j r { r with totalAmountKrw := total })].foldlM
      (Store.flush now) s = .ok s') : Once s' := by
  obtain ⟨hload, -, heditable⟩ := loadEditableReport_eq_ok.mp load
  have hget := (loadVisibleReport_eq_ok.mp hload).2.1
  obtain ⟨items, reports, -, hitems, hreports, rfl⟩ := commit_edit hc
  have hu : Updated s.reports reports j { r with totalAmountKrw := total } :=
    updated_of_apply hget hreports
  have hlocks : ∀ m, Locks { s with items := items, reports := reports } m → m ≠ j ∧ Locks s m := by
    intro m hm
    rcases (locks_of_updated hu).mp hm with
      ⟨rfl, hr⟩ | hm
    · exact absurd hr (not_locking heditable)
    · exact hm
  refine h.of_le (fun m hm => (hlocks m hm).2) ?_
  rintro m x hm ⟨k, it, hk, rfl, hx⟩
  rcases hw.cases hitems hk with hk | ⟨-, hj⟩
  · exact ⟨k, it, hk, rfl, hx⟩
  · exact absurd hj (hlocks _ hm).1

/-- A submission locks what the report takes. -/
theorem Once.submitted_iff (h : Once s) (hu : Updated s.reports s'.reports j r')
    (hi : s'.items = s.items) (hstatus : r'.status = .submitted) : Once s' ↔ Unclaimed s j := by
  have hself : Locks s' j := (locks_of_updated hu).mpr (.inl ⟨rfl, .inl hstatus⟩)
  constructor
  · intro h' m x hm hx hjx
    by_cases hmj : m = j
    · exact hmj
    · exact h' m j x ((locks_of_updated hu).mpr (.inr ⟨hmj, hm⟩)) hself
        ((Takes.of_items hi).mpr hx) ((Takes.of_items hi).mpr hjx)
  · intro hun a b x ha hb hax hbx
    rw [Takes.of_items hi] at hax hbx
    rcases (locks_of_updated hu).mp ha with ⟨rfl, -⟩ | ⟨-, ha⟩ <;>
      rcases (locks_of_updated hu).mp hb with ⟨rfl, -⟩ | ⟨-, hb⟩
    · rfl
    · exact (hun b x hb hbx hax).symm
    · exact hun a x ha hax hbx
    · exact h a b x ha hb hax hbx

/-! ## One request -/

theorem Once.expenseStep {env : Env} {user : CurrentUser} {call : ExpenseCall} {now : Instant}
    {ws : List Write} (h : Once s) (deed : ExpenseDeed s env user call ws)
    (hc : ws.foldlM (Store.flush now) s = .ok s') :
    Once s' ↔ ∀ j, call = .submit j → Unclaimed s j := by
  cases deed with
  | submit load owner status trip completed present centers items recalc approver moved records =>
    obtain ⟨-, u, happly, hs'⟩ := commit_report hc
    have hget := (loadVisibleReport_eq_ok.mp load).2.1
    obtain ⟨hr, hi⟩ : s'.reports = u ∧ s'.items = s.items := by
      rw [hs']
      exact ⟨rfl, rfl⟩
    rw [← hr] at happly
    rw [h.submitted_iff (updated_of_apply hget happly) hi (by rw [moved])]
    exact ⟨fun hun j hj => by cases hj; exact hun, fun hun => hun _ rfl⟩
  | create load owner reportable single new records =>
    refine iff_of_true ?_ nofun
    obtain ⟨-, u, happly, rfl⟩ := commit_report hc
    rw [RowWrite.apply_insert, Except.ok.injEq] at happly
    subst happly
    refine h.of_le (fun m hm => ?_) fun m x _ hx => hx
    obtain ⟨r, hr, hlock⟩ := hm
    rcases Table.get_insert_eq_some hr with ⟨-, rfl⟩ | ⟨-, hr⟩
    · simp [Locking, new.status] at hlock
    · exact ⟨r, hr, hlock⟩
  | update load centers assigned records =>
    refine iff_of_true ?_ nofun
    obtain ⟨-, u, happly, rfl⟩ := commit_report hc
    have hget := (loadVisibleReport_eq_ok.mp (loadEditableReport_eq_ok.mp load).1).2.1
    exact h.reportUpdated hget (updated_of_apply hget happly) rfl (by rw [assigned]; exact id)
  | addItem load new flush recalc =>
    exact iff_of_true (h.edited load (.insert new.inReport) hc) nofun
  | updateItem int4 get load checked assigned flush recalc =>
    exact iff_of_true (h.edited load (.update get rfl (assignItem_eq_ok assigned).1) hc) nofun
  | deleteItem int4 get load flush recalc =>
    exact iff_of_true (h.edited load (.delete get rfl) hc) nofun
  | approve load approver status trip completed moved settled records records' =>
    refine iff_of_true ?_ nofun
    obtain ⟨u, u', happly, happly', rfl⟩ := commit_approve hc
    have hget := (loadVisibleReport_eq_ok.mp load).2.1
    exact h.reportUpdated hget (updated_of_apply hget happly) rfl fun _ => .inl status
  | reject load approver status given moved records =>
    refine iff_of_true ?_ nofun
    obtain ⟨-, u, happly, rfl⟩ := commit_report hc
    have hget := (loadVisibleReport_eq_ok.mp load).2.1
    exact h.reportUpdated hget (updated_of_apply hget happly) rfl fun _ => .inl status
  | reopen load owner status moved records =>
    refine iff_of_true ?_ nofun
    obtain ⟨-, u, happly, rfl⟩ := commit_report hc
    have hget := (loadVisibleReport_eq_ok.mp load).2.1
    exact h.reportUpdated hget (updated_of_apply hget happly) rfl (by simp [moved, Locking])

/-- A request keeps the law unless it submits a payment that is already locked. -/
theorem Once.step_iff {req : DeskRequest} (h : Once s) (hstep : desk.step s req = .ok s') :
    Once s' ↔ SubmitsUnclaimed s req := by
  obtain ⟨p, hplan, hcommit⟩ := bind_eq_ok.mp hstep
  obtain ⟨user, -, deed⟩ := deed_of_plan hplan
  have hc := Plan.commit_eq_ok.mp hcommit
  unfold SubmitsUnclaimed
  generalize req.call = call at deed ⊢
  cases deed with
  | trip deed =>
    refine iff_of_true ?_ nofun
    obtain ⟨hr, hi⟩ := deed.tables hc
    exact h.of_le (fun m => by simp only [Locks, hr, imp_self])
      fun m x _ => (Takes.of_items hi).mp
  | expense deed =>
    rw [h.expenseStep deed hc]
    simp only [DeskCall.expense.injEq]

/-! ## Runs -/

/-- From a store without reports, a serial run never leaves a payment in two reports that are
submitted or approved if and only if no submission that goes through takes a payment that another
such report already has. -/
theorem no_payment_reimbursed_twice_iff {s₀ : Store} (h₀ : s₀.reports.rows = [])
    (reqs : List DeskRequest) :
    (∀ n, Once (Run.all desk.step s₀ (reqs.take n))) ↔
      Run.Each desk.step
        (fun s req => ∀ s', desk.step s req = .ok s' → SubmitsUnclaimed s req) s₀ reqs :=
  Run.throughout_iff (J := fun _ => True) (fun _ _ _ _ _ => trivial)
    (fun _ _ _ _ hs hstep => hs.step_iff hstep) trivial (.of_no_reports h₀)

theorem locks_of_status (h : (s.reports.get j).map ExpenseReport.status = some .submitted) :
    Locks s j := by
  obtain ⟨r, hr, hst⟩ := Option.map_eq_some_iff.mp h
  exact ⟨r, hr, .inl hst⟩

theorem takes_of_item {k : Int} (h : (s.items.get k).map (fun it =>
    (it.reportId, it.cardTransactionId, it.isExcluded)) = some (j, some x, false)) :
    Takes s j x := by
  obtain ⟨it, hk, he⟩ := Option.map_eq_some_iff.mp h
  simp only [Prod.mk.injEq] at he
  exact ⟨k, it, hk, he⟩

/-- Kim submits the one card payment on a report, Lee rejects it, and Kim submits the payment on
the report of another trip. -/
def submittedElsewhere : List DeskRequest :=
  Office.tripDone 1 ++ Office.tripDone 2 ++ Office.reportSubmitted 1 ++
    [Office.ask 2 (.expense (.reject 1 ⟨"No receipt"⟩))] ++ Office.reportSubmitted 2

theorem no_payment_reimbursed_twice_iff_office :
    let s := Run.all desk.step Office.store submittedElsewhere
    (∀ n, Once (Run.all desk.step Office.store (submittedElsewhere.take n))) ∧
      Takes s 1 1 ∧ Takes s 2 1 ∧ Locks s 2 := by
  refine ⟨(no_payment_reimbursed_twice_iff rfl submittedElsewhere).mpr ?_,
    takes_of_item (k := 1) (by decide +kernel), takes_of_item (k := 2) (by decide +kernel),
    locks_of_status (by decide +kernel)⟩
  exact Run.Each.imp (P := SubmitsUnclaimed) (fun _ _ h _ _ => h) (by decide +kernel)

/-- Kim submits the one card payment on two reports, and both go through. -/
theorem payment_reimbursed_twice :
    ¬ ∀ (s₀ : Store) (reqs : List DeskRequest), s₀.reports.rows = [] →
      Once (Run.all desk.step s₀ reqs) := by
  intro hall
  have h := hall Office.store (Office.tripDone 1 ++ Office.tripDone 2 ++ Office.reportSubmitted 1 ++
    Office.reportSubmitted 2) rfl
  have he := h 1 2 1 (locks_of_status (by decide +kernel)) (locks_of_status (by decide +kernel))
    (takes_of_item (k := 1) (by decide +kernel)) (takes_of_item (k := 2) (by decide +kernel))
  exact absurd he (by decide)

end Biztrip.Desk
