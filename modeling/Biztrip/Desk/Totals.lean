import Mathlib.Algebra.Order.BigOperators.Group.List
import Biztrip.Desk.Effect
import Biztrip.Frame
import Biztrip.Service.Faults

/-!
# Totals are exact

`Exact` is the invariant of the denormalised totals: every stored amount is
within the item bound, every item belongs to a report, and a report's total is
the sum of its items that are not excluded. An edit rewrites the total of the
report it touches from the items it leaves, and the items of every other report
stay the same list.
-/

namespace Biztrip.Desk

open Biztrip.Lib Trips Expenses

/-- No report, and so, by the foreign key, no item. -/
structure NoReports (s : Store) : Prop where
  reports : s.reports.rows = []
  items : s.items.rows = []

structure GoodItem (s : Store) (it : ExpenseItem) : Prop where
  nonneg : 0 ≤ it.amountKrw.units
  bounded : it.amountKrw.units ≤ maxItemAmount.coeff
  report : ∃ r, s.reports.get it.reportId = some r
  int4 : IsInt4 it.reportId

structure Exact (s : Store) : Prop where
  item : ∀ k it, s.items.get k = some it → GoodItem s it
  total : ∀ j r, s.reports.get j = some r → r.totalAmountKrw.units = includedTotal s j

variable {s s' : Store} {j k : Int} {r r' : ExpenseReport} {it it' : ExpenseItem}

theorem Exact.of_no_reports (h : NoReports s) : Exact s where
  item k it hk := by simp [Table.get_of_rows_nil h.items] at hk
  total j r hj := by simp [Table.get_of_rows_nil h.reports] at hj

/-! ## Sums -/

theorem includedTotal_congr (h : s'.items = s.items) (j : Int) :
    includedTotal s' j = includedTotal s j := by
  simp only [includedTotal, itemsOf, h]

theorem sumIncluded_nonneg {l : List (Krw × Bool)} (h : ∀ p ∈ l, 0 ≤ p.1.units) :
    0 ≤ sumIncluded l := by
  refine List.sum_nonneg fun n hn => ?_
  obtain ⟨p, hp, rfl⟩ := List.mem_map.mp hn
  exact h p (List.mem_filter.mp hp).1

theorem includedTotal_nonneg (h : ∀ k it, s.items.get k = some it → 0 ≤ it.amountKrw.units)
    (j : Int) :
    0 ≤ includedTotal s j := by
  refine sumIncluded_nonneg fun p hp => ?_
  obtain ⟨q, hq, rfl⟩ := List.mem_map.mp hp
  exact h q.1 q.2 (Table.mem_rows.mp (List.mem_filter.mp hq).1)

/-- The total of a report that no item names. -/
theorem includedTotal_eq_zero (h : ∀ k it, s.items.get k = some it → it.reportId ≠ j) :
    includedTotal s j = 0 := by
  have hnil : itemsOf s j = [] := by
    refine List.filter_eq_nil_iff.mpr fun p hp => ?_
    simpa using h p.1 p.2 (Table.mem_rows.mp hp)
  simp [includedTotal, hnil, sumIncluded]

theorem recalcTotal_eq_ok {x : Krw} (h : recalcTotal s j = .ok x) :
    x.units = includedTotal s j ∧ includedTotal s j ≤ maxReportTotal.coeff := by
  obtain ⟨_, hbound, h⟩ := bind_eq_ok.mp h
  have hle := guardE_eq_ok.mp hbound
  exact ⟨Numeric.ofUnits?_eq_some.mp (getE_eq_ok.mp h), not_lt.mp hle⟩

/-- A total that passed its bound fits the column, since it cannot be negative. -/
theorem recalcTotal_ne_overflow
    (h : ∀ k it, s.items.get k = some it → 0 ≤ it.amountKrw.units) :
    recalcTotal s j ≠ .error .numericOverflow := by
  intro he
  rcases bind_eq_error.mp he with he | ⟨_, hbound, he⟩
  · simp [assertReportTotal] at he
  · have hle : includedTotal s j ≤ 99999999999999 := not_lt.mp (guardE_eq_ok.mp hbound)
    have h0 := includedTotal_nonneg h j
    have := Numeric.ofUnits?_eq_none.mp (getE_eq_error.mp he).1
    omega

/-! ## Changed items -/

/-- An amount stays within the bound: it is the old one, or was checked before it was stored. -/
theorem assignAmount_bounds {cur x : Krw} {f : Sent Decimal}
    (hcur : 0 ≤ cur.units ∧ cur.units ≤ maxItemAmount.coeff)
    (hchecked : ∀ d, f = .value d → assertItemAmount d = .ok ()) (h : assignAmount cur f = .ok x) :
    0 ≤ x.units ∧ x.units ≤ maxItemAmount.coeff := by
  rcases f with _ | _ | d
  · exact Except.ok.inj h ▸ hcur
  · cases h
  · exact bounds_of_storeKrw (hchecked d rfl) h

theorem assignItem_bounds {payload : ExpenseItemUpdate} {u : Unit} (hold : GoodItem s it)
    (hchecked : validateItemChanges s payload = .ok u) (h : assignItem it payload = .ok it') :
    0 ≤ it'.amountKrw.units ∧ it'.amountKrw.units ≤ maxItemAmount.coeff :=
  assignAmount_bounds ⟨hold.nonneg, hold.bounded⟩
    (fun _ hd => bound_of_validateItemChanges hchecked hd) (assignItem_eq_ok h).2.2.2

/-- A row that is written stays within the item bound. -/
def BoundedRow (w : RowWrite ExpenseItem) : Prop :=
  ∀ row, w.row? = some row → 0 ≤ row.amountKrw.units ∧ row.amountKrw.units ≤ maxItemAmount.coeff

theorem boundedRow_insert (h0 : 0 ≤ it.amountKrw.units)
    (hmax : it.amountKrw.units ≤ maxItemAmount.coeff) : BoundedRow (.insert it) := by
  rintro row ⟨⟩
  exact ⟨h0, hmax⟩

theorem boundedRow_update
    (h : 0 ≤ it'.amountKrw.units ∧ it'.amountKrw.units ≤ maxItemAmount.coeff) :
    BoundedRow (.update k it it') := by
  rintro row ⟨⟩
  exact h

theorem boundedRow_delete : BoundedRow (.delete k) := by
  rintro row ⟨⟩

/-! ## One table at a time -/

theorem GoodItem.of_reports (h : GoodItem s it)
    (hr : ∀ j r, s.reports.get j = some r → ∃ r', s'.reports.get j = some r') : GoodItem s' it where
  nonneg := h.nonneg
  bounded := h.bounded
  report := by
    obtain ⟨r, hr'⟩ := h.report
    exact hr _ r hr'
  int4 := h.int4

theorem Exact.of_same (h : Exact s) (hr : s'.reports = s.reports) (hi : s'.items = s.items) :
    Exact s' where
  item k it hk := by
    rw [hi] at hk
    exact (h.item k it hk).of_reports fun j r hj => ⟨r, by rw [hr, hj]⟩
  total j r hj := by
    rw [hr] at hj
    rw [includedTotal_congr hi, h.total j r hj]

theorem Exact.reportInserted (h : Exact s) (hzero : r.totalAmountKrw = Numeric.zero)
    (hr : s'.reports = s.reports.insert r) (hi : s'.items = s.items) : Exact s' where
  item k it hk := by
    rw [hi] at hk
    exact (h.item k it hk).of_reports fun j r' hj => ⟨r', by rw [hr, Table.get_insert_of_some hj]⟩
  total j r' hj := by
    rw [hr] at hj
    rw [includedTotal_congr hi]
    rcases Table.get_insert_eq_some hj with ⟨rfl, rfl⟩ | ⟨-, hj⟩
    · rw [hzero, includedTotal_eq_zero fun k it hk he => ?_]
      · rfl
      -- no item can name a report before it exists
      · obtain ⟨r₀, hr₀⟩ := (h.item k it hk).report
        simp [he] at hr₀
    · exact h.total j r' hj

theorem Exact.reportUpdated (h : Exact s) (hj : s.reports.get j = some r)
    (hr : Updated s.reports s'.reports j r') (hi : s'.items = s.items)
    (htotal : r'.totalAmountKrw.units = includedTotal s j) : Exact s' where
  item k it hk := by
    rw [hi] at hk
    refine (h.item k it hk).of_reports fun m r₀ hm => ?_
    by_cases hmj : m = j
    · obtain ⟨at₀, hget⟩ := hr.get_self
      exact ⟨_, hmj ▸ hget⟩
    · exact ⟨r₀, by rw [hr.get_of_ne hmj, hm]⟩
  total m r₀ hm := by
    rw [includedTotal_congr hi]
    rcases hr.cases hm with ⟨rfl, at₀, rfl⟩ | ⟨-, hm⟩
    · exact htotal
    · exact h.total m r₀ hm

/-- An edit sums its own report again and leaves the sums of the others. -/
theorem Exact.edited {user : CurrentUser} {now : Instant} {env : Env} {w : RowWrite ExpenseItem}
    {flushed : Store} {total : Krw} (h : Exact s) (load : loadEditableReport s user j = .ok r)
    (hw : EditOf s j w) (hbound : BoundedRow w) (flush : s.flush env.txnNow (.item w) = .ok flushed)
    (recalc : recalcTotal flushed j = .ok total)
    (hc : [Write.item w, .report (.update j r { r with totalAmountKrw := total })].foldlM
      (Store.flush now) s = .ok s') : Exact s' := by
  obtain ⟨hload, -, -⟩ := loadEditableReport_eq_ok.mp load
  obtain ⟨hint4, hget, -⟩ := loadVisibleReport_eq_ok.mp hload
  obtain ⟨items, reports, -, hitems, hreports, rfl⟩ := commit_edit hc
  have hu : Updated s.reports reports j { r with totalAmountKrw := total } :=
    updated_of_apply hget hreports
  have hstay : ∀ m r₀, s.reports.get m = some r₀ → ∃ r₁, reports.get m = some r₁ := by
    intro m r₀ hm
    by_cases hmj : m = j
    · obtain ⟨at₀, hself⟩ := hu.get_self
      exact ⟨_, hmj ▸ hself⟩
    · exact ⟨r₀, by rw [hu.get_of_ne hmj, hm]⟩
  -- the items the total was summed from are the ones the commit leaves
  have hflushed : flushed.items = items := by
    obtain ⟨-, items', hitems', rfl⟩ :=
      Store.flush_item ((Store.flush_item_now now).symm.trans flush)
    rw [hitems, Except.ok.injEq] at hitems'
    exact hitems'.symm
  refine ⟨fun m row hm => ?_, fun m r₀ hm => ?_⟩
  · rcases hw.cases hitems hm with hm | ⟨hrow, hj⟩
    · exact (h.item m row hm).of_reports hstay
    · exact ⟨(hbound row hrow).1, (hbound row hrow).2, hj ▸ hstay j r hget, hj ▸ hint4⟩
  · rcases hu.cases hm with ⟨rfl, at₀, rfl⟩ | ⟨hmj, hm⟩
    · exact (recalcTotal_eq_ok recalc).1.trans (includedTotal_congr hflushed m)
    · rw [h.total m r₀ hm]
      simp only [includedTotal, itemsOf, hw.others (.refl _) hitems hmj]

/-! ## One request -/

theorem Exact.expenseStep {env : Env} {user : CurrentUser} {call : ExpenseCall} {now : Instant}
    {ws : List Write} (h : Exact s) (deed : ExpenseDeed s env user call ws)
    (hc : ws.foldlM (Store.flush now) s = .ok s') : Exact s' := by
  cases deed with
  | create load owner reportable single new records =>
    obtain ⟨-, u, happly, rfl⟩ := commit_report hc
    rw [RowWrite.apply_insert, Except.ok.injEq] at happly
    exact h.reportInserted new.totalAmountKrw happly.symm rfl
  | update load centers assigned records =>
    obtain ⟨-, u, happly, rfl⟩ := commit_report hc
    have hget := (loadVisibleReport_eq_ok.mp (loadEditableReport_eq_ok.mp load).1).2.1
    have htotal := h.total _ _ hget
    subst assigned
    exact h.reportUpdated hget (updated_of_apply hget happly) rfl htotal
  | addItem load new flush recalc =>
    exact h.edited load (.insert new.inReport) (boundedRow_insert new.nonneg new.bounded) flush
      recalc hc
  | updateItem int4 get load checked assigned flush recalc =>
    exact h.edited load (.update get rfl (assignItem_eq_ok assigned).1)
      (boundedRow_update (assignItem_bounds (h.item _ _ get) checked assigned)) flush recalc hc
  | deleteItem int4 get load flush recalc =>
    exact h.edited load (.delete get rfl) boundedRow_delete flush recalc hc
  | submit load owner status trip completed present centers items recalc approver moved records =>
    obtain ⟨-, u, happly, rfl⟩ := commit_report hc
    have hget := (loadVisibleReport_eq_ok.mp load).2.1
    subst moved
    exact h.reportUpdated hget (updated_of_apply hget happly) rfl (recalcTotal_eq_ok recalc).1
  | approve load approver status trip completed moved settled records records' =>
    obtain ⟨u, u', happly, happly', rfl⟩ := commit_approve hc
    have hget := (loadVisibleReport_eq_ok.mp load).2.1
    have htotal := h.total _ _ hget
    subst moved settled
    exact h.reportUpdated hget (updated_of_apply hget happly) rfl htotal
  | reject load approver status given moved records =>
    obtain ⟨-, u, happly, rfl⟩ := commit_report hc
    have hget := (loadVisibleReport_eq_ok.mp load).2.1
    have htotal := h.total _ _ hget
    subst moved
    exact h.reportUpdated hget (updated_of_apply hget happly) rfl htotal
  | reopen load owner status moved records =>
    obtain ⟨-, u, happly, rfl⟩ := commit_report hc
    have hget := (loadVisibleReport_eq_ok.mp load).2.1
    have htotal := h.total _ _ hget
    subst moved
    exact h.reportUpdated hget (updated_of_apply hget happly) rfl htotal

theorem Exact.step {req : DeskRequest} (h : Exact s) (hstep : desk.step s req = .ok s') :
    Exact s' := by
  obtain ⟨p, hplan, hcommit⟩ := bind_eq_ok.mp hstep
  obtain ⟨user, -, deed⟩ := deed_of_plan hplan
  have hc := Plan.commit_eq_ok.mp hcommit
  generalize req.call = call at deed
  cases deed with
  | trip deed =>
    obtain ⟨hr, hi⟩ := deed.tables hc
    exact h.of_same hr hi
  | expense deed => exact h.expenseStep deed hc

theorem exact_run (reqs : List DeskRequest) (h : Exact s) : Exact (Run.all desk.step s reqs) :=
  Run.invariant_of_step (fun _ _ _ hi hstep => hi.step hstep) h

theorem exact_system_run (sec : Security) (reqs : List (Request Call)) (h : Exact s) :
    Exact (Run.all (system sec).step s reqs) := by
  refine Run.invariant_of_step (fun s req s' hs hstep => ?_) h
  rcases system_step_cases hstep with ⟨userId, call, -, hdesk⟩ | hsame
  · exact hs.step hdesk
  · exact hs.of_same hsame.reports hsame.items

/-! ## Nothing overflows -/

/-- A number that does not fit its column is the only fault excluded. -/
abbrev Fits (e : Fault) : Prop := e ≠ .numericOverflow

theorem fits_app (a : AppError) : Fits (.app a) := nofun

theorem fits_integrity (v : Violation) : Fits (.integrity v) := nofun

theorem fits_dataError (column : String) : Fits (.dataError column) := nofun

theorem fits_typeError : Fits .typeError := nofun

/-- A checked amount always fits. -/
theorem raises_storeKrw {column : String} {d : Decimal} (hbound : assertItemAmount d = .ok ()) :
    Raises (storeKrw column d) Fits := by
  refine raises_bind (raises_guardE nofun) fun _ hd => ?_
  obtain ⟨x, hx, -⟩ := storeKrw_of_assertItemAmount column hbound (guardE_eq_ok.mp hd)
  obtain ⟨_, -, hx⟩ := bind_eq_ok.mp hx
  rw [hx]
  exact raises_ok

theorem raises_assignItem {payload : ExpenseItemUpdate}
    (hchecked : validateItemChanges s payload = .ok ()) : Raises (assignItem it payload) Fits := by
  have hnull : ∀ {α : Type} {f : Sent α} {cur : α} {column : String},
      Raises (f.setRequired cur (Fault.integrity (.notNull column))) Fits := by
    intro α f cur column e he
    rw [(Sent.setRequired_eq_error.mp he).2]
    exact fits_integrity _
  refine raises_bind (raises_checkSome fun _ => raises_text fun _ => fits_dataError _) fun _ _ => ?_
  refine raises_bind hnull fun _ _ => ?_
  refine raises_bind ?_ fun _ _ => raises_bind hnull fun _ _ => raises_ok
  rcases hp : payload.amountKrw with _ | _ | d
  · exact raises_ok
  · exact raises_error (fits_integrity _)
  · exact raises_storeKrw (bound_of_validateItemChanges hchecked hp)

/-- The sum is taken over items within the bound, and is checked before it is stored. -/
theorem Exact.raises_editItems {env : Env} {w : RowWrite ExpenseItem} (h : Exact s)
    (hw : EditOf s j w) (hbound : BoundedRow w) : Raises (editItems s env j r w) Fits := by
  refine raises_bind (raises_flush fits_integrity nofun) fun flushed hflush => ?_
  obtain ⟨-, items, happly, rfl⟩ := Store.flush_item hflush
  refine raises_bind (fun e he heq => ?_) fun _ _ => raises_ok
  refine recalcTotal_ne_overflow (fun m row hm => ?_) (heq ▸ he)
  rcases hw.cases happly hm with hm | ⟨hrow, -⟩
  · exact (h.item m row hm).nonneg
  · exact (hbound row hrow).1

theorem raises_expenseTransition {env : Env} {user : CurrentUser} {target : ExpenseReportStatus}
    {change : ExpenseReport → Result Expenses.Change} (hchange : ∀ r, Raises (change r) Fits) :
    Raises (Expenses.transition s env user j target change) Fits := by
  refine raises_bind (raises_loadVisibleReport fits_app fun _ => fits_dataError _) fun r _ => ?_
  refine raises_bind (raises_assertExpenseTransitionAllowed fits_app) fun _ _ => ?_
  exact raises_bind (hchange r) fun _ _ => raises_ok

theorem Exact.raises_submitReport {env : Env} {user : CurrentUser} (h : Exact s) :
    Raises (submitReport s env user j) Fits := by
  refine raises_expenseTransition fun r => ?_
  refine raises_bind (raises_getE fits_typeError) fun t _ => ?_
  refine raises_bind (raises_guardE (fits_app _)) fun _ _ => ?_
  refine raises_bind (raises_bind (raises_guardE (fits_app _))
    fun _ _ => raises_guardE (fits_app _)) fun _ _ => ?_
  refine raises_bind (raises_guardE (fits_app _)) fun _ _ => ?_
  refine raises_bind (raises_guardE (fits_app _)) fun _ _ => ?_
  refine raises_bind (raises_guardE (fits_app _)) fun _ _ => ?_
  refine raises_bind (fun e he heq => ?_) fun _ _ =>
    raises_bind (raises_getE (fits_app _)) fun _ _ => raises_ok
  exact recalcTotal_ne_overflow (fun k it hk => (h.item k it hk).nonneg) (heq ▸ he)

theorem Exact.raises_plan {env : Env} {user : CurrentUser} {call : ExpenseCall} (h : Exact s) :
    Raises (call.plan s env user) Fits := by
  cases call with
  | create payload => exact raises_createReport fits_app nofun (fits_dataError _)
  | update reportId payload =>
    refine raises_bind (raises_loadEditableReport fits_app fun _ => fits_dataError _) fun r _ => ?_
    exact raises_bind (raises_validateCenters fits_app) fun _ _ => raises_ok
  | addItem reportId payload =>
    refine raises_bind (raises_loadEditableReport fits_app fun _ => fits_dataError _) fun r _ => ?_
    refine raises_bind (raises_validateCodes fits_app) fun _ _ => ?_
    refine raises_bind (raises_validateCenters fits_app) fun _ _ => ?_
    refine raises_bind (raises_itemAmount fits_app fun _ _ _ => fits_dataError _) fun d _ => ?_
    refine raises_bind (raises_assertItemAmount fits_app) fun _ hbound => ?_
    refine raises_bind (raises_checkSome fun _ => raises_text fun _ => fits_dataError _)
      fun _ _ => ?_
    refine raises_bind (raises_storeKrw hbound) fun x hx => ?_
    obtain ⟨h0, hmax⟩ := bounds_of_storeKrw hbound hx
    exact h.raises_editItems (.insert rfl) (boundedRow_insert h0 hmax)
  | updateItem itemId payload =>
    refine raises_bind (raises_loadItemForEdit fits_app (fun _ => fits_dataError _)
      fun _ _ _ => fits_dataError _) fun ⟨it, r⟩ hload => ?_
    obtain ⟨-, hget, -⟩ := loadItemForEdit_eq_ok.mp hload
    refine raises_bind (raises_validateItemChanges fits_app) fun _ hchecked => ?_
    refine raises_bind (raises_assignItem hchecked) fun it' hassign => ?_
    exact h.raises_editItems (.update hget rfl (assignItem_eq_ok hassign).1)
      (boundedRow_update (assignItem_bounds (h.item _ _ hget) hchecked hassign))
  | deleteItem itemId =>
    refine raises_bind (raises_loadItemForEdit fits_app (fun _ => fits_dataError _)
      fun _ _ _ => fits_dataError _) fun ⟨it, r⟩ hload => ?_
    obtain ⟨-, hget, -⟩ := loadItemForEdit_eq_ok.mp hload
    exact h.raises_editItems (.delete hget rfl) boundedRow_delete
  | submit reportId => exact h.raises_submitReport
  | approve reportId =>
    refine raises_expenseTransition fun r => ?_
    refine raises_bind (raises_getE fits_typeError) fun t _ => ?_
    refine raises_bind ?_ fun _ _ => raises_ok
    refine raises_bind ?_ fun _ _ => raises_ok
    exact raises_bind (raises_guardE (fits_app _)) fun _ _ => raises_guardE (fits_app _)
  | reject reportId payload =>
    refine raises_expenseTransition fun r => ?_
    refine raises_bind (raises_assertRejectReason fits_app) fun _ _ => ?_
    refine raises_bind (raises_getE fits_typeError) fun t _ => ?_
    exact raises_bind (raises_text fun _ => fits_dataError _) fun _ _ => raises_ok
  | reopen reportId => exact raises_expenseTransition fun r => raises_ok

/-- A request for an expense call never meets a value its column cannot hold. -/
theorem Exact.step_ne_overflow {env : Env} {userId : Int} {call : ExpenseCall} (h : Exact s) :
    desk.step s ⟨env, userId, .expense call⟩ ≠ .error .numericOverflow := by
  intro he
  rcases bind_eq_error.mp he with he | ⟨p, -, he⟩
  · rcases bind_eq_error.mp he with he | ⟨user, -, he⟩
    · rcases bind_eq_error.mp he with he | ⟨_, -, he⟩
      · cases (getE_eq_error.mp he).2
      · cases he
    · exact h.raises_plan _ he rfl
  · exact raises_commit fits_integrity nofun fits_app _ he rfl

/-! ## Reachable states -/

/-- The sum of the amounts, as numbers of won. -/
theorem includedTotal_toRat (s : Store) (j : Int) :
    (((itemsOf s j).filter fun p => !p.2.isExcluded).map fun p => p.2.amountKrw.toRat).sum =
      (includedTotal s j : ℚ) / ((10 ^ 2 : Nat) : ℚ) := by
  have h : (((itemsOf s j).filter fun p => !p.2.isExcluded).map fun p => p.2.amountKrw.units).sum =
      includedTotal s j := by
    simp only [includedTotal, sumIncluded, List.filter_map, List.map_map, Function.comp_def]
  rw [← h]
  have := Numeric.sum_toRat
    (((itemsOf s j).filter fun p => !p.2.isExcluded).map fun p => p.2.amountKrw)
  simpa only [List.map_map, Function.comp_def] using this

/-- After any serial run from a store without reports: each stored amount is a whole number of
hundredths within the item bound, each report's total is the exact sum of its items that are not
excluded and within the total's bound, and no expense call meets a value its column cannot hold. -/
theorem totals_exact {s₀ : Store} (h₀ : NoReports s₀) (reqs : List DeskRequest) :
    let s := Run.all desk.step s₀ reqs
    (∀ k it, s.items.get k = some it →
      0 ≤ it.amountKrw.toRat ∧ it.amountKrw.toRat ≤ maxItemAmount.toRat ∧
        ∃ n : Int, it.amountKrw.toRat = n / 100) ∧
    (∀ j r, s.reports.get j = some r →
      r.totalAmountKrw.toRat = (((itemsOf s j).filter fun p => !p.2.isExcluded).map
        fun p => p.2.amountKrw.toRat).sum ∧
      0 ≤ r.totalAmountKrw.toRat ∧ r.totalAmountKrw.toRat ≤ maxReportTotal.toRat) ∧
    ∀ env userId call, desk.step s ⟨env, userId, .expense call⟩ ≠ .error .numericOverflow := by
  intro s
  have h : Exact s := exact_run reqs (.of_no_reports h₀)
  refine ⟨fun k it hk => ⟨Numeric.toRat_nonneg (h.item k it hk).nonneg,
    Numeric.toRat_le (h.item k it hk).bounded, it.amountKrw.units, ?_⟩, fun j r hj => ?_,
    fun env userId call => h.step_ne_overflow⟩
  · rw [Numeric.toRat]
    norm_num
  · have htotal := h.total j r hj
    have h0 := includedTotal_nonneg (fun k it hk => (h.item k it hk).nonneg) j
    -- the column has no room for more than the bound
    have hmax : r.totalAmountKrw.units ≤ maxReportTotal.coeff := by
      have := r.totalAmountKrw.bound
      change r.totalAmountKrw.units ≤ 99999999999999
      omega
    rw [includedTotal_toRat, ← htotal]
    exact ⟨rfl, Numeric.toRat_nonneg (htotal ▸ h0), Numeric.toRat_le hmax⟩

/-- In the office, once the report is submitted. -/
theorem totals_exact_office :
    desk.step (Run.all desk.step Office.store (Office.tripDone 1 ++ Office.reportSubmitted 1))
      (Office.ask 1 (.expense (.addItem 1 Office.meal))) ≠ .error .numericOverflow :=
  (totals_exact ⟨rfl, rfl⟩
    (Office.tripDone 1 ++ Office.reportSubmitted 1)).2.2 _ _ _

end Biztrip.Desk
