import Biztrip.Desk.Totals
import Biztrip.Edits.Steps

/-!
# One edit after another

What a request for an edit decides when it reads (`Decided`), that it decides the same on a
store that another edit of the report has left (`Beside`), and what the call of the
service leaves, in terms of the version that the statement on the items leaves
(`serial_step`).
-/

namespace Biztrip.Edits

open Biztrip.Lib Codes Expenses Desk

/-! ## Sums -/

/-- What an item adds to the total of report `j`. -/
def counted (j : Int) (it : ExpenseItem) : Int :=
  if it.reportId = j ∧ it.isExcluded = false then it.amountKrw.units else 0

variable {s s' : Store} {j : Int}

theorem includedTotal_eq_sum (s : Store) (j : Int) :
    includedTotal s j = (s.items.rows.map fun p => counted j p.2).sum := by
  unfold includedTotal itemsOf sumIncluded
  induction s.items.rows with
  | nil => rfl
  | cons p rows ih =>
    rw [List.map_cons, List.sum_cons, ← ih]
    by_cases hj : p.2.reportId = j
    · rw [List.filter_cons_of_pos (by simpa using hj), List.map_cons]
      cases hx : p.2.isExcluded <;> simp [counted, hj, hx]
    · rw [List.filter_cons_of_neg (by simpa using hj)]
      simp [counted, hj]

/-- The sum depends on what is read under each key. -/
theorem includedTotal_of_get (h : ∀ k, s'.items.get k = s.items.get k) :
    includedTotal s' j = includedTotal s j := by
  rw [includedTotal_eq_sum, includedTotal_eq_sum]
  exact ((Table.rows_perm h).map _).sum_eq

theorem includedTotal_write (s : Store) (k : Int) (v : Option ExpenseItem) (j : Int) :
    includedTotal { s with items := s.items.write k v } j =
      includedTotal s j - ((s.items.get k).map (counted j)).getD 0 +
        (v.map (counted j)).getD 0 := by
  rw [includedTotal_eq_sum, includedTotal_eq_sum]
  exact Table.sum_write (counted j) s.items k v

theorem recalcTotal_of_get (h : ∀ k, s'.items.get k = s.items.get k) :
    recalcTotal s' j = recalcTotal s j := by
  unfold recalcTotal
  rw [includedTotal_of_get h]

theorem recalcTotal_of_units {x : Krw} (h : includedTotal s j = x.units) :
    recalcTotal s j = .ok x := by
  have hmax : ¬ maxReportTotal.coeff < x.units := by
    have hx : x.units.natAbs < 100000000000000 := x.bound
    show ¬ (99999999999999 : Int) < x.units
    omega
  refine bind_eq_ok.mpr ⟨(), ?_, ?_⟩
  · show assertReportTotal (includedTotal s j) = .ok ()
    rw [h]
    exact guardE_eq_ok.mpr hmax
  · show getE (Numeric.ofUnits? (includedTotal s j)) _ = _
    rw [getE_eq_ok, Numeric.ofUnits?_eq_some, h]

/-! ## Reading -/

/-- What a request has established when it has read. -/
inductive Decided (s : Store) : EditCall → Edit → Prop where
  | add {j : Int} {payload : ExpenseItemCreate} {r : ExpenseReport} {row : ExpenseItem}
    (inReport : row.reportId = j) (nonneg : 0 ≤ row.amountKrw.units)
    (unused : ∀ k it x, s.items.get k = some it → it.reportId = j →
      row.cardTransactionId = some x → it.cardTransactionId ≠ some x) :
    Decided s (.add j payload) ⟨j, r, .insert row⟩
  | update {k : Int} {payload : ExpenseItemUpdate} {r : ExpenseReport} {it it' : ExpenseItem}
    (get : s.items.get k = some it) (assigned : assignItem it payload = .ok it') :
    Decided s (.update k payload) ⟨it.reportId, r, .update k it it'⟩
  | delete {k : Int} {r : ExpenseReport} {it : ExpenseItem} (get : s.items.get k = some it) :
    Decided s (.delete k) ⟨it.reportId, r, .delete k⟩

variable {r : EditRequest} {e : Edit}

theorem decided_of_read (h : r.read s = .ok e) : Decided s r.call e ∧
    ∃ user, currentUser s r.userId = .ok user ∧
      loadEditableReport s user e.reportId = .ok e.report := by
  obtain ⟨env, userId, call⟩ := r
  obtain ⟨user, huser, h⟩ := bind_eq_ok.mp h
  cases call with
  | add reportId payload =>
    obtain ⟨report, hload, h⟩ := bind_eq_ok.mp h
    obtain ⟨_, -, h⟩ := bind_eq_ok.mp h
    obtain ⟨_, -, h⟩ := bind_eq_ok.mp h
    obtain ⟨amount, hamount, h⟩ := bind_eq_ok.mp h
    obtain ⟨_, hbound, h⟩ := bind_eq_ok.mp h
    obtain ⟨_, -, h⟩ := bind_eq_ok.mp h
    obtain ⟨x, hstore, h⟩ := bind_eq_ok.mp h
    rw [pure_eq_ok, Except.ok.injEq] at h
    subst h
    refine ⟨.add rfl (bounds_of_storeKrw hbound hstore).1 ?_, user, huser, hload⟩
    intro k it y hk hj hy
    obtain ⟨txn, htxn⟩ := itemAmount_usable hamount hy
    obtain ⟨-, -, -, -, hunused⟩ := assertUsableTransaction_eq_ok.mp htxn
    exact hunused k it hk hj
  | update itemId payload =>
    obtain ⟨⟨it, report⟩, hload, h⟩ := bind_eq_ok.mp h
    obtain ⟨-, hget, hload⟩ := loadItemForEdit_eq_ok.mp hload
    obtain ⟨_, -, h⟩ := bind_eq_ok.mp h
    obtain ⟨it', hassign, h⟩ := bind_eq_ok.mp h
    rw [pure_eq_ok, Except.ok.injEq] at h
    subst h
    exact ⟨.update hget hassign, user, huser, hload⟩
  | delete itemId =>
    obtain ⟨⟨it, report⟩, hload, h⟩ := bind_eq_ok.mp h
    obtain ⟨-, hget, hload⟩ := loadItemForEdit_eq_ok.mp hload
    obtain rfl := Except.ok.inj h
    exact ⟨.delete hget, user, huser, hload⟩

theorem report_of_read (h : r.read s = .ok e) : s.reports.get e.reportId = some e.report := by
  obtain ⟨-, user, -, hload⟩ := decided_of_read h
  exact (loadVisibleReport_eq_ok.mp (loadEditableReport_eq_ok.mp hload).1).2.1

/-- `s'` is `s` after edits of report `j`: other items, and another total. -/
structure Beside (s s' : Store) (j : Int) : Prop where
  shape : s' = { s with items := s'.items, reports := s'.reports }
  report : ∀ r, s.reports.get j = some r → ∃ total at₀, s'.reports.get j =
    some { r with totalAmountKrw := total, updatedAt := at₀ }

theorem Beside.load (h : Beside s s' j) {user : CurrentUser} {report : ExpenseReport}
    (hload : loadEditableReport s user j = .ok report) : ∃ total at₀,
      loadEditableReport s' user j =
        .ok { report with totalAmountKrw := total, updatedAt := at₀ } := by
  obtain ⟨hload, howner, heditable⟩ := loadEditableReport_eq_ok.mp hload
  obtain ⟨hint, hget, hview⟩ := loadVisibleReport_eq_ok.mp hload
  obtain ⟨total, at₀, hget'⟩ := h.report report hget
  exact ⟨total, at₀, loadEditableReport_eq_ok.mpr
    ⟨loadVisibleReport_eq_ok.mpr ⟨hint, hget', hview⟩, howner, heditable⟩⟩

theorem Beside.currentUser (h : Beside s s' j) (userId : Int) :
    currentUser s' userId = Biztrip.currentUser s userId := by
  rw [h.shape]
  rfl

theorem Beside.validateCodes (h : Beside s s' j) (specs : List CodeSpec) :
    validateCodes s' specs = Codes.validateCodes s specs := by
  rw [h.shape]
  rfl

theorem Beside.validateCenters (h : Beside s s' j) (fundCenterCode costCenterCode : Option String) :
    validateCenters s' fundCenterCode costCenterCode =
      Expenses.validateCenters s fundCenterCode costCenterCode := by
  rw [h.shape]
  rfl

/-- The amount of a new item, unless the other edit has taken its transaction. -/
theorem Beside.itemAmount (h : Beside s s' j) {report : ExpenseReport}
    {payload : ExpenseItemCreate} {amount : Decimal} (total : Krw) (at₀ : Instant)
    (hamount : itemAmount s report j payload = .ok amount)
    (hunused : ∀ k it x, s'.items.get k = some it → it.reportId = j →
      payload.cardTransactionId = some x → it.cardTransactionId ≠ some x) :
    itemAmount s' { report with totalAmountKrw := total, updatedAt := at₀ } j payload =
      .ok amount := by
  cases hx : payload.cardTransactionId with
  | none =>
    rw [Expenses.itemAmount, hx] at hamount ⊢
    exact hamount
  | some x =>
    rw [Expenses.itemAmount, hx] at hamount ⊢
    obtain ⟨txn, htxn, hamount⟩ := bind_eq_ok.mp hamount
    obtain ⟨hint, hget, howner, hcancelled, -⟩ := assertUsableTransaction_eq_ok.mp htxn
    have hget' : s'.transactions.get x = some txn := by
      rw [h.shape]
      exact hget
    have hcards : s'.cards = s.cards := by rw [h.shape]
    rw [← hcards] at howner
    exact bind_eq_ok.mpr ⟨txn, assertUsableTransaction_eq_ok.mpr ⟨hint, hget', howner, hcancelled,
      fun k it hk hj => hunused k it x hk hj hx⟩, hamount⟩

/-- A request that adds an item decides the same beside, unless its transaction has been used. -/
theorem Beside.read_insert (h : Beside s s' e.reportId) (hread : r.read s = .ok e)
    {row : ExpenseItem} (hitem : e.item = .insert row)
    (hunused : ∀ k it x, s'.items.get k = some it → it.reportId = e.reportId →
      row.cardTransactionId = some x → it.cardTransactionId ≠ some x) :
    ∃ e', r.read s' = .ok e' ∧ e'.reportId = e.reportId ∧ e'.item = .insert row := by
  obtain ⟨env, userId, call⟩ := r
  obtain ⟨user, huser, hread⟩ := bind_eq_ok.mp hread
  rw [← h.currentUser] at huser
  cases call with
  | add reportId payload =>
    obtain ⟨report, hload, hread⟩ := bind_eq_ok.mp hread
    obtain ⟨_, hcodes, hread⟩ := bind_eq_ok.mp hread
    obtain ⟨_, hcenters, hread⟩ := bind_eq_ok.mp hread
    obtain ⟨amount, hamount, hread⟩ := bind_eq_ok.mp hread
    obtain ⟨_, hbound, hread⟩ := bind_eq_ok.mp hread
    obtain ⟨_, hmemo, hread⟩ := bind_eq_ok.mp hread
    obtain ⟨x, hstore, hread⟩ := bind_eq_ok.mp hread
    rw [pure_eq_ok, Except.ok.injEq] at hread
    subst hread
    obtain rfl := RowWrite.insert.inj hitem
    obtain ⟨total, at₀, hload'⟩ := h.load hload
    have hamount' := h.itemAmount total at₀ hamount hunused
    rw [← h.validateCodes] at hcodes
    rw [← h.validateCenters] at hcenters
    refine ⟨⟨reportId, { report with totalAmountKrw := total, updatedAt := at₀ }, .insert _⟩,
      bind_eq_ok.mpr ⟨user, huser, ?_⟩, rfl, rfl⟩
    refine bind_eq_ok.mpr ⟨_, hload', bind_eq_ok.mpr ⟨_, hcodes, bind_eq_ok.mpr ⟨_, hcenters, ?_⟩⟩⟩
    refine bind_eq_ok.mpr ⟨_, hamount', bind_eq_ok.mpr ⟨_, hbound, bind_eq_ok.mpr ⟨_, hmemo, ?_⟩⟩⟩
    exact bind_eq_ok.mpr ⟨_, hstore, rfl⟩
  | update itemId payload =>
    obtain ⟨⟨it, report⟩, -, hread⟩ := bind_eq_ok.mp hread
    obtain ⟨_, -, hread⟩ := bind_eq_ok.mp hread
    obtain ⟨it', -, hread⟩ := bind_eq_ok.mp hread
    obtain rfl := Except.ok.inj hread
    cases hitem
  | delete itemId =>
    obtain ⟨⟨it, report⟩, -, hread⟩ := bind_eq_ok.mp hread
    obtain rfl := Except.ok.inj hread
    cases hitem

/-- One that writes over an item writes over what is there beside. -/
theorem Beside.read_update (h : Beside s s' e.reportId) (hread : r.read s = .ok e) {k : Int}
    {old new cur cur' : ExpenseItem} (hitem : e.item = .update k old new)
    {payload : ExpenseItemUpdate} (hcall : r.call = .update k payload)
    (hcur : s'.items.get k = some cur) (hj : cur.reportId = e.reportId)
    (hassign : assignItem cur payload = .ok cur') :
    ∃ e', r.read s' = .ok e' ∧ e'.reportId = e.reportId ∧ e'.item = .update k cur cur' := by
  obtain ⟨env, userId, call⟩ := r
  obtain ⟨user, huser, hread⟩ := bind_eq_ok.mp hread
  rw [← h.currentUser] at huser
  obtain rfl : call = .update k payload := hcall
  obtain ⟨⟨it, report⟩, hload, hread⟩ := bind_eq_ok.mp hread
  obtain ⟨hint, hget, hload⟩ := loadItemForEdit_eq_ok.mp hload
  obtain ⟨_, hchecked, hread⟩ := bind_eq_ok.mp hread
  obtain ⟨it', -, hread⟩ := bind_eq_ok.mp hread
  obtain rfl := Except.ok.inj hread
  obtain ⟨total, at₀, hload'⟩ := h.load hload
  have hitem' : loadItemForEdit s' user k =
      .ok (cur, { report with totalAmountKrw := total, updatedAt := at₀ }) := by
    refine loadItemForEdit_eq_ok.mpr ⟨hint, hcur, ?_⟩
    rw [hj]
    exact hload'
  have hchecked' : validateItemChanges s' payload = .ok () := by
    rw [h.shape]
    exact hchecked
  exact ⟨⟨cur.reportId, { report with totalAmountKrw := total, updatedAt := at₀ },
    .update k cur cur'⟩, bind_eq_ok.mpr ⟨user, huser, bind_eq_ok.mpr ⟨_, hitem',
      bind_eq_ok.mpr ⟨_, hchecked', bind_eq_ok.mpr ⟨_, hassign, rfl⟩⟩⟩⟩, hj, rfl⟩

theorem Beside.read_delete (h : Beside s s' e.reportId) (hread : r.read s = .ok e) {k : Int}
    {cur : ExpenseItem} (hitem : e.item = .delete k) (hcur : s'.items.get k = some cur)
    (hj : cur.reportId = e.reportId) :
    ∃ e', r.read s' = .ok e' ∧ e'.reportId = e.reportId ∧ e'.item = .delete k := by
  obtain ⟨env, userId, call⟩ := r
  obtain ⟨user, huser, hread⟩ := bind_eq_ok.mp hread
  rw [← h.currentUser] at huser
  cases call with
  | delete itemId =>
    obtain ⟨⟨it, report⟩, hload, hread⟩ := bind_eq_ok.mp hread
    obtain ⟨hint, hget, hload⟩ := loadItemForEdit_eq_ok.mp hload
    obtain rfl := Except.ok.inj hread
    obtain rfl := RowWrite.delete.inj hitem
    obtain ⟨total, at₀, hload'⟩ := h.load hload
    have hitem' : loadItemForEdit s' user itemId =
        .ok (cur, { report with totalAmountKrw := total, updatedAt := at₀ }) := by
      refine loadItemForEdit_eq_ok.mpr ⟨hint, hcur, ?_⟩
      rw [hj]
      exact hload'
    exact ⟨⟨cur.reportId, { report with totalAmountKrw := total, updatedAt := at₀ },
      .delete itemId⟩, bind_eq_ok.mpr ⟨user, huser, bind_eq_ok.mpr ⟨_, hitem', rfl⟩⟩, hj, rfl⟩
  | update itemId payload =>
    obtain ⟨⟨it, report⟩, -, hread⟩ := bind_eq_ok.mp hread
    obtain ⟨_, -, hread⟩ := bind_eq_ok.mp hread
    obtain ⟨it', -, hread⟩ := bind_eq_ok.mp hread
    obtain rfl := Except.ok.inj hread
    cases hitem
  | add reportId payload =>
    obtain ⟨report, -, hread⟩ := bind_eq_ok.mp hread
    obtain ⟨_, -, hread⟩ := bind_eq_ok.mp hread
    obtain ⟨_, -, hread⟩ := bind_eq_ok.mp hread
    obtain ⟨_, -, hread⟩ := bind_eq_ok.mp hread
    obtain ⟨_, -, hread⟩ := bind_eq_ok.mp hread
    obtain ⟨_, -, hread⟩ := bind_eq_ok.mp hread
    obtain ⟨_, -, hread⟩ := bind_eq_ok.mp hread
    obtain rfl := Except.ok.inj hread
    cases hitem

/-- There is nothing to edit if the item is gone. -/
theorem read_gone {k : Int} (hgone : s'.items.get k = none)
    (hcall : (∃ payload, r.call = .update k payload) ∨ r.call = .delete k) :
    ∃ fault, r.read s' = .error fault := by
  rcases hread : r.read s' with fault | e
  · exact ⟨fault, rfl⟩
  · have hdecided := (decided_of_read hread).1
    rcases hcall with ⟨payload, hcall⟩ | hcall
    · rw [hcall] at hdecided
      cases hdecided with
      | update get assigned =>
        rw [hgone] at get
        cases get
    · rw [hcall] at hdecided
      cases hdecided with
      | delete get =>
        rw [hgone] at get
        cases get

/-! ## One call -/

/-- The table after a statement, and the version it leaves. -/
theorem next_of_apply {now : Instant} {w : RowWrite ExpenseItem} {t t' : Table ExpenseItem}
    (h : w.apply now Fault.staleData t = .ok t') :
    t'.next = if inserts w then t.next + 1 else t.next := by
  cases w with
  | insert row =>
    obtain rfl := Except.ok.inj h
    rfl
  | update k old new => rcases RowWrite.apply_update_eq_ok.mp h with ⟨-, rfl⟩ | ⟨-, -, rfl⟩ <;> rfl
  | delete k =>
    obtain rfl := Except.ok.inj h
    rfl

/-- What an edit leaves when nothing comes in between. -/
theorem serial_step {item : Option (Version ExpenseItem)} {total : Krw} (hread : r.read s = .ok e)
    (hcheck : s.check (.item e.item) = .ok ())
    (hrun : e.item.run s.items.next r.env.txnNow Fault.staleData s.items = .ok item)
    (hsum : recalcTotal { s with items := s.items.overlay item } e.reportId = .ok total) :
    ∃ s', desk.step s r.desk = .ok s' ∧ Beside s s' e.reportId ∧
      (∀ k, s'.items.get k = (s.items.overlay item).get k) ∧
      s'.items.next = if inserts e.item then s.items.next + 1 else s.items.next := by
  have hget := report_of_read hread
  obtain ⟨items, happly, hitems⟩ := RowWrite.run_apply hrun
  have hflush : s.flush r.env.txnNow (.item e.item) = .ok { s with items := items } :=
    bind_eq_ok.mpr ⟨(), hcheck, bind_eq_ok.mpr ⟨items, happly, rfl⟩⟩
  have hrecalc : recalcTotal { s with items := items } e.reportId = .ok total := by
    rw [← hsum]
    exact recalcTotal_of_get hitems
  let report := { e.report with totalAmountKrw := total }
  have hloaded : ∃ f at₀, (RowWrite.update e.reportId e.report report).apply r.env.txnNow
      Fault.staleData s.reports = .ok (s.reports.update e.reportId f) ∧
        f e.report = stamp at₀ report := RowWrite.apply_update_loaded hget
  obtain ⟨f, at₀, hreports, hself⟩ := hloaded
  have hplan : desk.plan s r.desk = .ok
      { now := r.env.txnNow
        writes := [.item e.item, .report (.update e.reportId e.report report)] } := by
    show r.desk.plan s = _
    rw [plan_eq, hread, ok_bind]
    exact bind_eq_ok.mpr ⟨_, hflush, bind_eq_ok.mpr ⟨total, hrecalc, rfl⟩⟩
  refine ⟨{ s with items := items, reports := s.reports.update e.reportId f }, ?_, ⟨rfl, ?_⟩,
    hitems, next_of_apply happly⟩
  · refine bind_eq_ok.mpr ⟨_, hplan, Plan.commit_eq_ok.mpr ?_⟩
    rw [List.foldlM_cons]
    refine bind_eq_ok.mpr ⟨_, hflush, ?_⟩
    rw [List.foldlM_cons]
    refine bind_eq_ok.mpr ⟨_, bind_eq_ok.mpr ⟨(), rfl, bind_eq_ok.mpr ⟨_, hreports, rfl⟩⟩, ?_⟩
    exact pure_eq_ok _
  · intro row hreport
    rw [hget, Option.some.injEq] at hreport
    refine ⟨total, at₀, ?_⟩
    rw [Table.get_update, if_pos rfl, hget, Option.map_some, hself, ← hreport]
    rfl

end Biztrip.Edits
