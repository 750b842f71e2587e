import Biztrip.Edits.InTime

/-!
# When no edit is lost

Two edits of a report that overlap do not always leave what they would have left one after
the other: who sums before the other has committed does not count the other's item, and
what was read before can be written back in parts. If both commit and neither has happened
(`NothingLost`), both are there as if one had followed the other (`overlapping_edits_serial`).
-/

namespace Biztrip.Edits

open Biztrip.Lib Expenses Desk

/-- The same items, and the same total of report `j`. -/
structure SameReport (j : Int) (s s' : Store) : Prop where
  items : ∀ k, s'.items.get k = s.items.get k
  total : (s'.reports.get j).map ExpenseReport.totalAmountKrw =
    (s.reports.get j).map ExpenseReport.totalAmountKrw

/-- `db` is what one of the two serial orders leaves. -/
def Serializable (s : Store) (req : Bool → EditRequest) (j : Int) (db : Store) : Prop :=
  ∃ i, SameReport j (Run.all desk.step s [(req i).desk, (req !i).desk]) db

variable {s s₁ t : Store} {req : Bool → EditRequest} {r r' : EditRequest} {e e' : Edit}
  {item item' : Option (Version ExpenseItem)} {report report' : Option (Version ExpenseReport)}
  {total : Krw} {sight : Sight} {j : Int}

/-! ## Totals -/

/-- The total of the report after a request, which writes it if it has changed. -/
theorem Stored.total_eq {cur : ExpenseReport} (h : Stored t r e total report)
    (hcur : t.reports.get e.reportId = some cur) :
    ((t.reports.overlay report).get e.reportId).map ExpenseReport.totalAmountKrw =
      some (if total = e.report.totalAmountKrw then cur.totalAmountKrw else total) := by
  obtain ⟨key, hrun⟩ := h
  by_cases hsame : total = e.report.totalAmountKrw
  · have hnoop : { e.report with totalAmountKrw := total } = e.report := by rw [hsame]
    rw [hnoop, RowWrite.run_update_same, Except.ok.injEq] at hrun
    subst hrun
    rw [if_pos hsame, Table.overlay_none, hcur, Option.map_some]
  · have hne : { e.report with totalAmountKrw := total } ≠ e.report := fun heq =>
      hsame (congrArg ExpenseReport.totalAmountKrw heq)
    obtain ⟨cur', hcur', rfl⟩ := (RowWrite.run_update_eq_ok hne).mp hrun
    rw [hcur, Option.some.injEq] at hcur'
    subst hcur'
    rw [if_neg hsame, Table.get_overlay_some, if_pos rfl, Option.map_some, Option.some.injEq]
    exact mergeCol_of_ne _ hsame

/-- The report as a request that commits first leaves it. -/
theorem Stored.get_report (h : Stored s r e total report) (hread : r.read s = .ok e) :
    ∃ at₀, (committed s item report).reports.get e.reportId =
      some { e.report with totalAmountKrw := total, updatedAt := at₀ } := by
  have hget := report_of_read hread
  obtain ⟨key, hrun⟩ := h
  by_cases hsame : { e.report with totalAmountKrw := total } = e.report
  · rw [hsame, RowWrite.run_update_same, Except.ok.injEq] at hrun
    subst hrun
    refine ⟨e.report.updatedAt, hget.trans (congrArg some ?_)⟩
    exact (congrArg (fun row => { row with updatedAt := e.report.updatedAt }) hsame).symm
  · obtain ⟨cur, hcur, rfl⟩ := (RowWrite.run_update_eq_ok hsame).mp hrun
    rw [hget, Option.some.injEq] at hcur
    subst hcur
    refine ⟨r.env.txnNow, ?_⟩
    show (s.reports.overlay _).get e.reportId = _
    rw [Table.get_overlay_some, if_pos rfl, merge_loaded]
    rfl

theorem Stored.beside (h : Stored s r e total report) (hread : r.read s = .ok e) :
    Beside s (committed s item report) e.reportId := by
  refine ⟨rfl, fun row hrow => ?_⟩
  rw [report_of_read hread, Option.some.injEq] at hrow
  subst hrow
  exact ⟨total, h.get_report hread⟩

theorem units_of_sums (h : Sums t e item total) :
    total.units = includedTotal (laid t item) e.reportId := (recalcTotal_eq_ok h).1

/-- The version does not change the sum of the report. -/
def Neutral (s : Store) (j : Int) (item : Option (Version ExpenseItem)) : Prop :=
  includedTotal (laid s item) j = includedTotal s j

/-- What is asked of the sums, in the versions that are left. -/
def Counted (s : Store) (j : Int) (item item' : Option (Version ExpenseItem)) : Sight → Prop
  | .nothing => Neutral s j item ∨ Neutral s j item'
  | .atSum => Neutral s j item ∨ includedTotal (laid (laid s item) item') j ≠ includedTotal s j
  | .atRead => True

/-- The total that is left is the sum of the items that are left. -/
theorem total_of_both (hexact : Exact s)
    (known : Known s s r (.written e item report .nothing))
    (known' : Known s (committed s item report) r' (.written e' item' report' sight))
    (blind : Disjoint item (Phase.written e' item' report' sight).blind?)
    (hj : e'.reportId = e.reportId) (hcounted : Counted s e.reportId item item' sight) :
    ∃ x : Krw, ((committed (committed s item report) item' report').reports.get e.reportId).map
        ExpenseReport.totalAmountKrw = some x ∧
      includedTotal (laid (laid s item) item') e.reportId = x.units := by
  obtain ⟨hread, -, total, ⟨-, hsums⟩, hstored⟩ := known
  obtain ⟨hsaw, -, total', htotalled, hstored'⟩ := known'
  have hread : r.read s = .ok e := hread
  have hget := report_of_read hread
  have hstart : e.report.totalAmountKrw.units = includedTotal s e.reportId :=
    hexact.total _ _ hget
  have hfirst := units_of_sums hsums
  obtain ⟨at₀, hget'⟩ : ∃ at₀, (committed s item report).reports.get e.reportId = _ :=
    hstored.get_report hread
  rw [← hj] at hget'
  have hlast := hstored'.total_eq hget'
  rw [hj] at hlast
  refine ⟨_, hlast, ?_⟩
  cases sight with
  | atRead =>
    have hsaw : r'.read (committed s item report) = .ok e' := hsaw
    have hreport := report_of_read hsaw
    rw [hget', Option.some.injEq] at hreport
    have hunits := units_of_sums htotalled
    rw [hj] at hunits
    show includedTotal (laid (committed s item report) item') e.reportId = _
    rw [← hunits]
    split
    · next hsame => rw [hsame, ← hreport]
    · rfl
  | atSum =>
    have hsaw : r'.read s = .ok e' := hsaw
    have hreport := report_of_read hsaw
    rw [hj, hget, Option.some.injEq] at hreport
    have hunits := units_of_sums htotalled
    rw [hj] at hunits
    have hunits : total'.units = includedTotal (laid (laid s item) item') e.reportId := hunits
    rw [← hreport]
    split
    · next hsame =>
      show includedTotal (laid (laid s item) item') e.reportId = total.units
      rcases hcounted with hneutral | hchanged
      · rw [← hunits, hsame, hstart, hfirst, hneutral]
      · exact absurd (by rw [← hunits, hsame, hstart]) hchanged
    · exact hunits.symm
  | nothing =>
    have hsaw : r'.read s = .ok e' := hsaw
    have hreport := report_of_read hsaw
    rw [hj, hget, Option.some.injEq] at hreport
    obtain ⟨-, hsums'⟩ := htotalled
    have hunits := units_of_sums hsums'
    rw [hj] at hunits
    have hboth : includedTotal (laid (laid s item) item') e.reportId =
        includedTotal (laid s item) e.reportId + includedTotal (laid s item') e.reportId -
          includedTotal s e.reportId := includedTotal_laid blind e.reportId
    rw [← hreport]
    split
    · next hsame =>
      have hsame' : total'.units = e.report.totalAmountKrw.units := by rw [hsame]
      show includedTotal (laid (laid s item) item') e.reportId = total.units
      omega
    · next hchanged =>
      have hne : total'.units ≠ e.report.totalAmountKrw.units := fun he =>
        hchanged (Numeric.ext he)
      rcases hcounted with hneutral | hneutral
      · have hneutral : includedTotal (laid s item) e.reportId = includedTotal s e.reportId :=
          hneutral
        omega
      · have hneutral : includedTotal (laid s item') e.reportId = includedTotal s e.reportId :=
          hneutral
        omega

/-! ## One after the other -/

theorem check_of_read (h : r.read s = .ok e) : s.check (.item e.item) = .ok () := by
  have hget := report_of_read h
  have hdecided := (decided_of_read h).1
  generalize r.call = call at hdecided
  cases hdecided with
  | update | delete => rfl
  | @add j payload report row inReport nonneg unused =>
    refine bind_eq_ok.mpr ⟨(), whenE_eq_ok.mpr fun hsome => ?_, ?_⟩
    · obtain ⟨x, hx⟩ := Option.ne_none_iff_exists'.mp hsome
      refine guardE_eq_ok.mpr (Store.taken_eq_false.mpr fun k it hk _ he => ?_)
      obtain ⟨hreport, hcard⟩ := Prod.mk.inj he
      exact unused k it x hk (hreport.trans inReport) hx (hcard.trans hx)
    · refine guardE_eq_ok.mpr ?_
      rw [inReport, hget]
      rfl

theorem step_of_read_error {fault : Fault} (h : r.read s = .error fault) :
    desk.step s r.desk = .error fault := by
  have hplan : desk.plan s r.desk = .error fault := by
    show r.desk.plan s = _
    rw [plan_eq, h]
    rfl
  show desk.plan s r.desk >>= desk.commit s = _
  rw [hplan]
  rfl

/-- The call of `r` on `s₁` leaves the items of `db`, or there is nothing left for it to do. -/
def Completes (s₁ : Store) (r : EditRequest) (j : Int) (db : Store) : Prop :=
  (∃ e v, r.read s₁ = .ok e ∧ e.reportId = j ∧
    e.item.run s₁.items.next r.env.txnNow Fault.staleData s₁.items = .ok v ∧
      ∀ k, db.items.get k = (s₁.items.overlay v).get k) ∨
    (∃ fault, r.read s₁ = .error fault) ∧ ∀ k, db.items.get k = s₁.items.get k

/-- In a state with exact totals, the same items make the same total. -/
theorem same_of_exact {s₂ db : Store} {x : Krw} (h : Exact s₂)
    (hitems : ∀ k, db.items.get k = s₂.items.get k) (hsum : includedTotal db j = x.units)
    (htotal : (db.reports.get j).map ExpenseReport.totalAmountKrw = some x)
    (hreport : ∃ row, s₂.reports.get j = some row) : SameReport j s₂ db := by
  refine ⟨hitems, ?_⟩
  obtain ⟨row, hrow⟩ := hreport
  have hunits := h.total j row hrow
  rw [← includedTotal_of_get hitems, hsum] at hunits
  rw [htotal, hrow, Option.map_some, Numeric.ext hunits]

theorem serializable_of_completes {i : Bool} {v : Option (Version ExpenseItem)} {x y : Krw}
    {db : Store} (hexact : Exact s) (hread : (req i).read s = .ok e) (hj : e.reportId = j)
    (hrun : e.item.run s.items.next (req i).env.txnNow Fault.staleData s.items = .ok v)
    (hsum : includedTotal (laid s v) j = x.units) (hdb : includedTotal db j = y.units)
    (htotal : (db.reports.get j).map ExpenseReport.totalAmountKrw = some y)
    (hnext : ∀ s₁, Beside s s₁ j → (∀ k, s₁.items.get k = (s.items.overlay v).get k) →
      s₁.items.next = (if inserts e.item then s.items.next + 1 else s.items.next) →
        Completes s₁ (req !i) j db) : Serializable s req j db := by
  subst hj
  obtain ⟨s₁, hstep, hbeside, hitems, hseq⟩ :=
    serial_step hread (check_of_read hread) hrun (recalcTotal_of_units hsum)
  have hexact₁ := hexact.step hstep
  obtain ⟨a, at₀, hrow⟩ := hbeside.report _ (report_of_read hread)
  refine ⟨i, ?_⟩
  rw [Run.all_cons, Run.settle_eq hstep, Run.all_cons, Run.all_nil]
  rcases hnext s₁ hbeside hitems hseq with
    ⟨e₂, v₂, hread₂, hj₂, hrun₂, hget₂⟩ | ⟨⟨fault, hread₂⟩, hget₂⟩
  · have hsum₂ : includedTotal (laid s₁ v₂) e₂.reportId = y.units := by
      rw [hj₂, ← hdb]
      exact includedTotal_of_get fun k => (hget₂ k).symm
    obtain ⟨s₂, hstep₂, hbeside₂, hitems₂, -⟩ :=
      serial_step hread₂ (check_of_read hread₂) hrun₂ (recalcTotal_of_units hsum₂)
    rw [Run.settle_eq hstep₂]
    rw [← hj₂] at hrow
    obtain ⟨b, at₁, hrow₂⟩ := hbeside₂.report _ hrow
    rw [hj₂] at hrow₂
    exact same_of_exact (hexact₁.step hstep₂) (fun k => (hget₂ k).trans (hitems₂ k).symm) hdb htotal
      ⟨_, hrow₂⟩
  · rw [step_of_read_error hread₂]
    exact same_of_exact hexact₁ hget₂ hdb htotal ⟨_, hrow⟩

/-! ## The second call -/

section
variable {b db : Store} {k : Int}

theorem completes_insert {row : ExpenseItem} (h : Beside b s₁ e.reportId)
    (hread : r.read b = .ok e) (hitem : e.item = .insert row)
    (hunused : ∀ k it x, s₁.items.get k = some it → it.reportId = e.reportId →
      row.cardTransactionId = some x → it.cardTransactionId ≠ some x)
    (hdb : ∀ m, db.items.get m = if m = s₁.items.next then some row else s₁.items.get m) :
    Completes s₁ r e.reportId db := by
  obtain ⟨e', hread', hj', hitem'⟩ := h.read_insert hread hitem hunused
  refine .inl ⟨e', some (s₁.items.next, some row), hread', hj', ?_, fun m => ?_⟩
  · rw [hitem', RowWrite.run_insert]
  · rw [hdb, Table.get_overlay_some]

theorem completes_update {old new cur z : ExpenseItem} {payload : ExpenseItemUpdate}
    (h : Beside b s₁ e.reportId) (hread : r.read b = .ok e) (hitem : e.item = .update k old new)
    (hcall : r.call = .update k payload) (hcur : s₁.items.get k = some cur)
    (hj : cur.reportId = e.reportId) (hassign : assignItem cur payload = .ok z)
    (hdb : ∀ m, db.items.get m = if m = k then some z else s₁.items.get m) :
    Completes s₁ r e.reportId db := by
  obtain ⟨e', hread', hj', hitem'⟩ := h.read_update hread hitem hcall hcur hj hassign
  obtain ⟨v, hrun⟩ : ∃ v, (RowWrite.update k cur z).run s₁.items.next r.env.txnNow Fault.staleData
      s₁.items = .ok v := RowWrite.exists_run_update hcur
  refine .inl ⟨e', v, hread', hj', ?_, fun m => ?_⟩
  · rw [hitem', hrun]
  · rw [hdb, RowWrite.get_overlay_run_update hrun hcur rfl]

theorem completes_delete {cur : ExpenseItem} (h : Beside b s₁ e.reportId)
    (hread : r.read b = .ok e) (hitem : e.item = .delete k) (hcur : s₁.items.get k = some cur)
    (hj : cur.reportId = e.reportId)
    (hdb : ∀ m, db.items.get m = if m = k then none else s₁.items.get m) :
    Completes s₁ r e.reportId db := by
  obtain ⟨e', hread', hj', hitem'⟩ := h.read_delete hread hitem hcur hj
  refine .inl ⟨e', some (k, none), hread', hj', ?_, fun m => ?_⟩
  · rw [hitem', RowWrite.run_delete, hcur, Option.map_some]
  · rw [hdb, Table.get_overlay_some]

/-- A request whose row the other has left alone does the same after it. -/
theorem completes_same {key : Int} {v : Option (Version ExpenseItem)}
    (h : Beside b s₁ e.reportId) (hread : r.read b = .ok e)
    (hrun : e.item.run key r.env.txnNow Fault.staleData b.items = .ok v)
    (hkey : inserts e.item = true → key = s₁.items.next)
    (hget : ∀ k, Touches e.item k → s₁.items.get k = b.items.get k)
    (hunused : ∀ row, e.item = .insert row → ∀ k it x, s₁.items.get k = some it →
      it.reportId = e.reportId → row.cardTransactionId = some x → it.cardTransactionId ≠ some x)
    (hdb : ∀ m, db.items.get m = (s₁.items.overlay v).get m) : Completes s₁ r e.reportId db := by
  have hdecided := (decided_of_read hread).1
  obtain ⟨reportId, report, w⟩ := e
  generalize hcall : r.call = call at hdecided
  cases hdecided with
  | @add _ payload _ row inReport nonneg unused =>
    rw [RowWrite.run_insert, Except.ok.injEq] at hrun
    subst hrun
    obtain rfl := hkey rfl
    refine completes_insert h hread rfl (hunused row rfl) fun m => ?_
    rw [hdb, Table.get_overlay_some]
  | @update k payload _ it it' get assigned =>
    have hcur : s₁.items.get k = some it := (hget k rfl).trans get
    refine completes_update h hread rfl hcall hcur rfl assigned fun m => ?_
    obtain ⟨key₁, hrun₁⟩ := Ran.congr ⟨key, hrun⟩ hget
    rw [hdb, RowWrite.get_overlay_run_update hrun₁ hcur rfl]
  | @delete k _ it get =>
    have hcur : s₁.items.get k = some it := (hget k rfl).trans get
    refine completes_delete h hread rfl hcur rfl fun m => ?_
    rw [RowWrite.run_delete, get, Option.map_some, Except.ok.injEq] at hrun
    rw [hdb, ← hrun, Table.get_overlay_some]

/-- What the other request has left takes no transaction that a new item needs. -/
theorem unused_after {row : ExpenseItem} (hread' : r'.read s = .ok e')
    (hitem' : e'.item = .insert row) (hread : r.read s = .ok e) (hran : Ran s r e item)
    (hunshared : Unshared (if inserts e.item then item else none) (some (k, some row)))
    (hget : ∀ m, s₁.items.get m = (s.items.overlay item).get m) :
    ∀ m it x, s₁.items.get m = some it → it.reportId = e'.reportId →
      row.cardTransactionId = some x → it.cardTransactionId ≠ some x := by
  have hdecided' := (decided_of_read hread').1
  have hold : row.reportId = e'.reportId ∧ ∀ m it x, s.items.get m = some it →
      it.reportId = e'.reportId → row.cardTransactionId = some x →
        it.cardTransactionId ≠ some x := by
    generalize r'.call = call at hdecided'
    cases hdecided' with
    | add inReport nonneg unused =>
      obtain rfl := RowWrite.insert.inj hitem'
      exact ⟨inReport, unused⟩
    | update | delete => cases hitem'
  intro m it x hm hreport hx
  rw [hget] at hm
  cases item with
  | none => exact hold.2 m it x hm hreport hx
  | some v =>
    rw [Table.get_overlay_some] at hm
    by_cases hmv : m = v.1
    · rw [if_pos hmv] at hm
      obtain ⟨key, hrun⟩ := hran
      have hdecided := (decided_of_read hread).1
      generalize r.call = call at hdecided
      cases hdecided with
      | @add _ payload _ row₀ inReport nonneg unused =>
        rw [RowWrite.run_insert, Except.ok.injEq, Option.some.injEq] at hrun
        subst hrun
        obtain rfl := Option.some.inj hm
        intro hx'
        exact hunshared key row₀ k row x rfl rfl (hreport.trans hold.1.symm) hx' hx
      | @update k₀ payload _ old new get assigned =>
        obtain ⟨-, cur, hcur, rfl⟩ := RowWrite.run_update_eq_some.mp hrun
        rw [get, Option.some.injEq] at hcur
        subst hcur
        rw [merge_loaded] at hm
        obtain rfl : new = it := Option.some.inj hm
        obtain ⟨hreport', hcard, -, -⟩ := assignItem_eq_ok assigned
        rw [hcard]
        exact hold.2 k₀ old x get (hreport'.symm.trans hreport) hx
      | @delete k₀ _ old get =>
        obtain ⟨-, rfl⟩ := RowWrite.run_delete_eq_some.mp hrun
        cases hm
    · rw [if_neg hmv] at hm
      exact hold.2 m it x hm hreport hx

end

/-! ## Keys -/

theorem Keys.left_eq {n q : Int} {v : Version ExpenseItem} (h : Keys n (some v) none q) :
    v.1 = n := by
  have hc := h.count
  have := h.left v rfl
  simp at hc
  omega

theorem Keys.both_eq {n q : Int} {v v' : Version ExpenseItem} (h : Keys n (some v) (some v') q) :
    (v.1 = n ∧ v'.1 = n + 1) ∨ (v.1 = n + 1 ∧ v'.1 = n) := by
  have hc := h.count
  have := h.left v rfl
  have := h.right v' rfl
  have := h.apart v v' rfl rfl
  simp at hc
  omega

/-- The first of two keys that are handed out in order, or the only one. -/
theorem Keys.first {n q : Int} {a b : Option (Version ExpenseItem)} (h : Keys n a b q)
    (horder : ∀ v v', a = some v → b = some v' → v.1 < v'.1) :
    ∀ v, a = some v → v.1 = n := by
  rintro v rfl
  cases b with
  | none => exact h.left_eq
  | some v' =>
    have := horder v v' rfl rfl
    have := h.both_eq
    omega

theorem Keys.second {n q : Int} {a b : Option (Version ExpenseItem)} (h : Keys n a b q)
    (horder : ∀ v v', a = some v → b = some v' → v.1 < v'.1) :
    ∀ v', b = some v' → v'.1 = if a.isSome then n + 1 else n := by
  rintro v' rfl
  cases a with
  | none => exact h.symm.left_eq
  | some v =>
    have := horder v v' rfl rfl
    have := h.both_eq
    rw [Option.isSome_some, if_pos rfl]
    omega

/-- An insert leaves a version, and no other statement is one. -/
theorem Ran.isSome_inserted (h : Ran t r e item) :
    (if inserts e.item then item else none).isSome = inserts e.item := by
  cases hitem : e.item with
  | insert row =>
    obtain ⟨key, rfl⟩ := h.inserted hitem
    rfl
  | update | delete => rfl

/-- The statement with the key that a new row has got. -/
theorem Ran.run {key : Int} (h : Ran t r e item)
    (hkey : ∀ v, (if inserts e.item then item else none) = some v → v.1 = key) :
    e.item.run key r.env.txnNow Fault.staleData t.items = .ok item := by
  obtain ⟨key₀, hrun⟩ := h
  cases hitem : e.item with
  | insert row =>
    rw [hitem] at hrun hkey
    rw [RowWrite.run_insert, Except.ok.injEq] at hrun
    subst hrun
    obtain rfl : key₀ = key := hkey _ rfl
    rfl
  | update k old new =>
    rw [hitem] at hrun
    exact hrun
  | delete k =>
    rw [hitem] at hrun
    exact hrun

theorem inserts_of_ite {w : RowWrite ExpenseItem} {v : Version ExpenseItem}
    (h : (if inserts w then item else none) = some v) : inserts w = true := by
  split at h
  · assumption
  · cases h

/-- A new item does not make the sum less. -/
theorem le_laid_of_inserts (hread : r.read s = .ok e) (hinserts : inserts e.item = true)
    (hran : Ran s r e item) (hnew : ∀ v, item = some v → s.items.get v.1 = none) (j : Int) :
    includedTotal s j ≤ includedTotal (laid s item) j := by
  obtain ⟨key, hrun⟩ := hran
  have hdecided := (decided_of_read hread).1
  generalize r.call = call at hdecided
  cases hdecided with
  | @add _ payload _ row inReport nonneg unused =>
    rw [RowWrite.run_insert, Except.ok.injEq] at hrun
    have hwrite : includedTotal (laid s (some (key, some row))) j = _ :=
      includedTotal_write s key (some row) j
    have hcounted : 0 ≤ counted j row := by
      unfold counted
      split
      · exact nonneg
      · exact Int.le_refl 0
    have hnone : s.items.get key = none := hnew _ hrun.symm
    rw [hnone] at hwrite
    simp only [Option.map_none, Option.getD_none, Option.map_some, Option.getD_some] at hwrite
    rw [← hrun]
    omega
  | update | delete => cases hinserts

theorem exists_krw {n : Int} {y : Krw} (hnonneg : 0 ≤ n) (hle : n ≤ y.units) :
    ∃ x : Krw, n = x.units := by
  have hy : y.units.natAbs < 100000000000000 := y.bound
  have hn : n.natAbs < 100000000000000 := by omega
  exact ⟨⟨n, hn⟩, rfl⟩

/-- What one edit leaves is beside what another leaves. -/
theorem Beside.other {s₂ : Store} {row : ExpenseReport} (h : Beside s s₁ j) (h' : Beside s s₂ j)
    (hrow : s.reports.get j = some row) : Beside s₁ s₂ j := by
  refine ⟨?_, fun row₁ hrow₁ => ?_⟩
  · rw [h.shape, h'.shape]
  · obtain ⟨a, at₀, hget⟩ := h.report row hrow
    obtain ⟨b, at₁, hget'⟩ := h'.report row hrow
    rw [hget, Option.some.injEq] at hrow₁
    subst hrow₁
    exact ⟨b, at₁, hget'⟩

@[simp] theorem committed_items : (committed t item report).items = t.items.overlay item := rfl

/-! ## Both -/

/-- What is left of two requests of which `i` has committed first. -/
structure Finished (s : Store) (req : Bool → EditRequest) (i : Bool) (e e' : Edit)
    (item item' : Option (Version ExpenseItem)) (report report' : Option (Version ExpenseReport))
    (sight : Sight) : Prop where
  exact : Exact s
  known : Known s s (req i) (.written e item report .nothing)
  known' : Known s (committed s item report) (req !i) (.written e' item' report' sight)
  blind : Disjoint item (Phase.written e' item' report' sight).blind?
  unshared : Unshared (if inserts e.item then item else none)
    (if inserts e'.item then item' else none)
  keys : ∃ q, Keys s.items.next (if inserts e.item then item else none)
    (if inserts e'.item then item' else none) q
  later : sight = .atRead → ∀ v v', (if inserts e'.item then item' else none) = some v →
    (if inserts e.item then item else none) = some v' → v'.1 < v.1
  sameReport : e'.reportId = e.reportId
  unhurt : Unhurt s (req i).call (req !i).call sight

section
variable {i : Bool}

/-- What is asked of the requests, in what they leave. -/
theorem Finished.counted (h : Finished s req i e e' item item' report report' sight) :
    Counted s e.reportId item item' sight := by
  obtain ⟨hread, hran, -⟩ := h.known
  obtain ⟨hsaw, hranAfter, total', htotalled, -⟩ := h.known'
  have hread : (req i).read s = .ok e := hread
  obtain ⟨q, hkeys⟩ := h.keys
  have hkey : inserts e.item = true → ∀ v, item = some v → s.items.next ≤ v.1 :=
    fun hinserts v hv => (hkeys.left v (by rw [if_pos hinserts, hv])).1
  have hkey' : inserts e'.item = true → ∀ v, item' = some v → s.items.next ≤ v.1 :=
    fun hinserts v hv => (hkeys.right v (by rw [if_pos hinserts, hv])).1
  have hneutral : (req i).call.change s = 0 → Neutral s e.reportId item := by
    intro hzero
    have hsum := includedTotal_ran hread hran fun hinserts v hv => free_of_le (hkey hinserts v hv)
    unfold Neutral
    omega
  have hunhurt := h.unhurt
  cases sight with
  | atRead => trivial
  | nothing =>
    refine hunhurt.imp hneutral fun hzero => ?_
    have hsaw : (req !i).read s = .ok e' := hsaw
    have hsum := includedTotal_ran hsaw htotalled.1 fun hinserts v hv =>
      free_of_le (hkey' hinserts v hv)
    rw [h.sameReport] at hsum
    unfold Neutral
    omega
  | atSum =>
    have hsaw : (req !i).read s = .ok e' := hsaw
    cases item with
    | none => exact .inl rfl
    | some v =>
      cases item' with
      | none => exact Classical.em _
      | some v' =>
        refine hunhurt.1.imp hneutral fun hchanged => ?_
        have hsum := includedTotal_both hread hsaw h.sameReport hran hranAfter
          (fun hinserts => hkey hinserts v rfl) (fun hinserts => hkey' hinserts v' rfl)
          fun hinserts hinserts' => hkeys.apart v v' (if_pos hinserts) (if_pos hinserts')
        omega

/-- The sum with an item written over, unless it is too large. -/
theorem exists_krw_laid (hexact : Exact s) {k : Int} {it row : ExpenseItem}
    (hget : s.items.get k = some it) (j : Int)
    (hle : includedTotal (laid s (some (k, some row))) j ≤ maxReportTotal.coeff) :
    ∃ x : Krw, includedTotal (laid s (some (k, some row))) j = x.units := by
  have hwrite : includedTotal (laid s (some (k, some row))) j = _ :=
    includedTotal_write s k (some row) j
  have hrest : includedTotal (laid s (some (k, none))) j = _ := includedTotal_write s k none j
  have hnonneg : 0 ≤ includedTotal (laid s (some (k, none))) j := by
    refine includedTotal_nonneg (fun m it hm => ?_) j
    have hm : (s.items.overlay (some (k, none))).get m = some it := hm
    rw [Table.get_overlay_some] at hm
    split at hm
    · cases hm
    · exact (hexact.item m it hm).nonneg
  rw [hget, Option.map_some, Option.getD_some] at hwrite hrest
  rw [Option.map_some, Option.getD_some] at hwrite
  rw [Option.map_none, Option.getD_none] at hrest
  have hrow : (counted j row).natAbs < 100000000000000 := by
    unfold counted
    split
    · exact row.amountKrw.bound
    · decide
  have hmax : includedTotal (laid s (some (k, some row))) j ≤ 99999999999999 := hle
  have hbound : (includedTotal (laid s (some (k, some row))) j).natAbs < 100000000000000 := by
    omega
  exact ⟨⟨_, hbound⟩, rfl⟩

/-- If the other request does the same after `i` as it has done, `i` comes first. -/
theorem Finished.in_order (h : Finished s req i e e' item item' report report' sight)
    (hkey : ∀ v, (if inserts e.item then item else none) = some v → v.1 = s.items.next)
    (hnext : ∀ s₁, Beside s s₁ e.reportId →
      (∀ k, s₁.items.get k = (s.items.overlay item).get k) →
      s₁.items.next = (if inserts e.item then s.items.next + 1 else s.items.next) →
        Completes s₁ (req !i) e.reportId (committed (committed s item report) item' report')) :
    Serializable s req e.reportId (committed (committed s item report) item' report') := by
  obtain ⟨x, htotal, hsum⟩ := total_of_both h.exact h.known h.known' h.blind h.sameReport h.counted
  obtain ⟨hread, hran, a, ⟨-, hsums⟩, -⟩ := h.known
  exact serializable_of_completes h.exact hread rfl (hran.run hkey) (units_of_sums hsums).symm hsum
    htotal hnext

/-- If `i` does the same after the other request, that one comes first. -/
theorem Finished.reversed (h : Finished s req i e e' item item' report report' sight)
    (hread' : (req !i).read s = .ok e') {v : Option (Version ExpenseItem)} {x : Krw}
    (hrun : e'.item.run s.items.next (req !i).env.txnNow Fault.staleData s.items = .ok v)
    (hx : includedTotal (laid s v) e.reportId = x.units)
    (hnext : ∀ s₁, Beside s s₁ e.reportId →
      (∀ k, s₁.items.get k = (s.items.overlay v).get k) →
      s₁.items.next = (if inserts e'.item then s.items.next + 1 else s.items.next) →
        Completes s₁ (req i) e.reportId (committed (committed s item report) item' report')) :
    Serializable s req e.reportId (committed (committed s item report) item' report') := by
  obtain ⟨y, htotal, hsum⟩ := total_of_both h.exact h.known h.known' h.blind h.sameReport h.counted
  refine serializable_of_completes h.exact hread' h.sameReport hrun hx hsum htotal ?_
  rw [Bool.not_not]
  exact hnext

/-- The request that has read after the first commit. -/
theorem Finished.serializable_atRead
    (h : Finished s req i e e' item item' report report' .atRead) :
    Serializable s req e.reportId (committed (committed s item report) item' report') := by
  obtain ⟨hread, hran, a, ⟨-, hsums⟩, hstored⟩ := h.known
  obtain ⟨hread', hran', -⟩ := h.known'
  have hread : (req i).read s = .ok e := hread
  have hread' : (req !i).read (committed s item report) = .ok e' := hread'
  obtain ⟨q, hkeys⟩ := h.keys
  have horder : ∀ v v', (if inserts e.item then item else none) = some v →
      (if inserts e'.item then item' else none) = some v' → v.1 < v'.1 :=
    fun v v' hv hv' => h.later rfl v' v hv' hv
  refine h.in_order (hkeys.first horder) fun s₁ hbeside hget hseq => ?_
  have hsecond := hkeys.second horder
  rw [hran.isSome_inserted, ← hseq] at hsecond
  have hbeside' : Beside (committed s item report) s₁ e'.reportId := by
    rw [h.sameReport]
    exact Beside.other (hstored.beside hread) hbeside (report_of_read hread)
  have hdecided := (decided_of_read hread').1
  rw [← h.sameReport]
  refine completes_same hbeside' hread' (hran'.run hsecond) (fun _ => rfl) (fun k _ => hget k) ?_
    fun m => (Table.get_overlay_congr hget item' m).symm
  intro row hitem k it x hk hreport hx
  generalize (req !i).call = call at hdecided
  cases hdecided with
  | add inReport nonneg unused =>
    obtain rfl := RowWrite.insert.inj hitem
    rw [hget] at hk
    exact unused k it x hk hreport hx
  | update | delete => cases hitem

/-- Two new items whose keys have gone to them in the other order. -/
theorem Finished.serializable_crossed {v v' : Version ExpenseItem}
    (h : Finished s req i e e' (some v) (some v') report report' sight)
    (hread' : (req !i).read s = .ok e') (hran' : Ran s (req !i) e' (some v'))
    (hinserts : inserts e.item = true) (hinserts' : inserts e'.item = true) (hle : v'.1 ≤ v.1) :
    Serializable s req e.reportId
      (committed (committed s (some v) report) (some v') report') := by
  obtain ⟨hread, hran, -⟩ := h.known
  have hread : (req i).read s = .ok e := hread
  obtain ⟨q, hkeys⟩ := h.keys
  have hunshared := h.unshared.symm
  have hblind : Disjoint (some v) (some v') := by
    have := hkeys.apart
    rwa [if_pos hinserts, if_pos hinserts'] at this
  have hlt : ∀ a a', (if inserts e'.item then some v' else none) = some a →
      (if inserts e.item then some v else none) = some a' → a.1 < a'.1 := by
    rw [if_pos hinserts, if_pos hinserts']
    rintro a a' ⟨⟩ ⟨⟩
    have := hblind v v' rfl rfl
    omega
  have hsecond := hkeys.symm.second hlt
  rw [if_pos hinserts', Option.isSome_some, if_pos rfl] at hsecond
  -- the sum with the one new item is between zero and the final one
  obtain ⟨y, -, hsum⟩ := total_of_both h.exact h.known h.known' h.blind h.sameReport h.counted
  have hkey : ∀ a, some v = some a → s.items.next ≤ a.1 := fun a ha =>
    (hkeys.left a (by rw [if_pos hinserts, ha])).1
  have hkey' : ∀ a, some v' = some a → s.items.next ≤ a.1 := fun a ha =>
    (hkeys.right a (by rw [if_pos hinserts', ha])).1
  have hadds :=
    le_laid_of_inserts hread hinserts hran (fun a ha => free_of_le (hkey a ha)) e.reportId
  have hadds' :=
    le_laid_of_inserts hread' hinserts' hran' (fun a ha => free_of_le (hkey' a ha)) e.reportId
  have hboth := includedTotal_laid (s := s) hblind e.reportId
  have hnonneg := includedTotal_nonneg (fun k it hk => (h.exact.item k it hk).nonneg) e.reportId
  obtain ⟨x, hx⟩ : ∃ x : Krw, includedTotal (laid s (some v')) e.reportId = x.units :=
    exists_krw (y := y) (by omega) (by omega)
  refine h.reversed hread' (hran'.run (hkeys.symm.first hlt)) hx fun s₁ hbeside hget hseq => ?_
  rw [if_pos hinserts'] at hseq
  refine completes_same hbeside hread (hran.run hsecond) (fun _ => hseq.symm) ?_ ?_ fun m => ?_
  · intro k hk
    cases hitem : e.item <;> simp [hitem, inserts, Touches] at hinserts hk
  · intro row hitem
    obtain ⟨key, hv⟩ := hran.inserted hitem
    rw [hitem, hv] at hunshared
    exact unused_after hread hitem hread' hran' hunshared hget
  · rw [Table.get_overlay_congr hget]
    exact Table.get_overlay_comm (hblind v v' rfl rfl) m

/-- Neither request has written over a row of the other. -/
theorem Finished.serializable_apart (h : Finished s req i e e' item item' report report' sight)
    (hread' : (req !i).read s = .ok e')
    (hapart : ∀ v, item = some v → ¬ Touches e'.item v.1) :
    Serializable s req e.reportId (committed (committed s item report) item' report') := by
  obtain ⟨hread, hran, a, ⟨-, hsums⟩, hstored⟩ := h.known
  obtain ⟨-, hranAfter, -⟩ := h.known'
  have hread : (req i).read s = .ok e := hread
  obtain ⟨q, hkeys⟩ := h.keys
  have huntouched : ∀ k, Touches e'.item k →
      (s.items.overlay item).get k = s.items.get k := by
    intro k hk
    cases item with
    | none => rfl
    | some v =>
      rw [Table.get_overlay_some, if_neg]
      rintro rfl
      exact hapart v rfl hk
  have hran' : Ran s (req !i) e' item' := hranAfter.congr fun k hk => (huntouched k hk).symm
  clear hranAfter
  by_cases horder : ∀ v v', (if inserts e.item then item else none) = some v →
      (if inserts e'.item then item' else none) = some v' → v.1 < v'.1
  · refine h.in_order (hkeys.first horder) fun s₁ hbeside hget hseq => ?_
    have hsecond := hkeys.second horder
    rw [hran.isSome_inserted, ← hseq] at hsecond
    rw [← h.sameReport] at hbeside ⊢
    refine completes_same hbeside hread' (hran'.run hsecond) (fun _ => rfl)
      (fun k hk => (hget k).trans (huntouched k hk)) ?_
      fun m => (Table.get_overlay_congr hget item' m).symm
    intro row hitem
    have hunshared := h.unshared
    obtain ⟨key, rfl⟩ := hran'.inserted hitem
    rw [hitem] at hunshared
    exact unused_after hread' hitem hread hran hunshared hget
  · push Not at horder
    obtain ⟨v, v', hv, hv', hle⟩ := horder
    have hinserts : inserts e.item = true := inserts_of_ite hv
    have hinserts' : inserts e'.item = true := inserts_of_ite hv'
    rw [if_pos hinserts] at hv
    rw [if_pos hinserts'] at hv'
    subst hv hv'
    exact h.serializable_crossed hread' hran' hinserts hinserts' hle

/-- The other request has found nothing to change in the row it has read. -/
theorem Finished.serializable_noop (h : Finished s req i e e' item none report report' sight)
    (hread' : (req !i).read s = .ok e')
    (hrun : e'.item.run s.items.next (req !i).env.txnNow Fault.staleData s.items = .ok none)
    (hno : inserts e.item = false) :
    Serializable s req e.reportId (committed (committed s item report) none report') := by
  obtain ⟨hread, hran, -⟩ := h.known
  have hread : (req i).read s = .ok e := hread
  have hstart : includedTotal (laid s none) e.reportId = e.report.totalAmountKrw.units :=
    (h.exact.total _ _ (report_of_read hread)).symm
  refine h.reversed hread' hrun hstart fun s₁ hbeside hget hseq => ?_
  obtain ⟨key, hrun₁⟩ := hran
  refine completes_same hbeside hread hrun₁ ?_ (fun k _ => hget k) ?_ fun m => ?_
  · rw [hno]
    exact fun hfalse => absurd hfalse Bool.false_ne_true
  · intro row hitem
    rw [hitem] at hno
    cases hno
  · exact (Table.get_overlay_congr hget item m).symm

/-- Both have written over one row. -/
theorem Finished.serializable_updates {k : Int} {it new new' : ExpenseItem}
    {payload payload' : ExpenseItemUpdate}
    (h : Finished s req i e e' (some (k, some new)) (some (k, some (merge it new' new))) report
      report' sight)
    (hread' : (req !i).read s = .ok e') (hget : s.items.get k = some it)
    (hj : it.reportId = e.reportId) (hne : new' ≠ it)
    (hcall : (req i).call = .update k payload) (hitem : e.item = .update k it new)
    (hassigned : assignItem it payload = .ok new)
    (hcall' : (req !i).call = .update k payload') (hitem' : e'.item = .update k it new')
    (hassigned' : assignItem it payload' = .ok new')
    (hcompatible : Compatible s (req i).call (req !i).call) :
    Serializable s req e.reportId (committed (committed s (some (k, some new)) report)
      (some (k, some (merge it new' new))) report') := by
  obtain ⟨hread, hran, -⟩ := h.known
  have hread : (req i).read s = .ok e := hread
  have hnew : new.reportId = e.reportId := (assignItem_eq_ok hassigned).1.trans hj
  have hnew' : new'.reportId = e.reportId := (assignItem_eq_ok hassigned').1.trans hj
  obtain ⟨hover, hassign⟩ := assignItem_over hassigned
  obtain ⟨hover', hassign'⟩ := assignItem_over hassigned'
  rw [hcall, hcall'] at hcompatible
  rcases hcompatible rfl it hget with hkept | ⟨hyields, hle⟩
  · have hmerged : assignItem new payload' = .ok (merge it new' new) := by
      rw [hover, hover', merge_of_kept hkept]
      exact hassign' _
    have hkey : ∀ v, (if inserts e.item then some (k, some new) else none) = some v →
        v.1 = s.items.next := by
      rw [hitem]
      intro v hv
      cases hv
    refine h.in_order hkey fun s₁ hbeside hget₁ hseq => ?_
    rw [← h.sameReport] at hbeside hnew ⊢
    refine completes_update hbeside hread' hitem' hcall' ?_ hnew hmerged fun m => ?_
    · rw [hget₁, Table.get_overlay_some, if_pos rfl]
    · rw [committed_items, Table.get_overlay_some, committed_items, hget₁]
  · have hrun : e'.item.run s.items.next (req !i).env.txnNow Fault.staleData s.items =
        .ok (some (k, some new')) := by
      rw [hitem', RowWrite.run_update_eq_ok hne]
      refine ⟨it, hget, ?_⟩
      rw [merge_loaded]
      rfl
    have hmerged : assignItem new' payload = .ok (merge it new' new) := by
      rw [hover, hover', merge_of_yields hyields]
      exact hassign _
    have hsum := includedTotal_ran hread' ⟨_, hrun⟩ fun hinserts => by
      rw [hitem'] at hinserts
      cases hinserts
    rw [h.sameReport, hcall'] at hsum
    rw [hj, ← hsum] at hle
    obtain ⟨x, hx⟩ := exists_krw_laid h.exact hget e.reportId hle
    refine h.reversed hread' hrun hx fun s₁ hbeside hget₁ hseq => ?_
    refine completes_update hbeside hread hitem hcall ?_ hnew' hmerged fun m => ?_
    · rw [hget₁, Table.get_overlay_some, if_pos rfl]
    · rw [committed_items, Table.get_overlay_some, committed_items, Table.get_overlay_some, hget₁,
        Table.get_overlay_some]
      split <;> rfl

/-- The other request writes over the row that `i` has left, or deletes it. -/
theorem Finished.serializable_touched {v : Version ExpenseItem}
    (h : Finished s req i e e' (some v) item' report report' sight)
    (hread' : (req !i).read s = .ok e') (htouches : Touches e'.item v.1)
    (hsight : sight ≠ .atRead) :
    Serializable s req e.reportId (committed (committed s (some v) report) item' report') := by
  obtain ⟨hread, hran, -⟩ := h.known
  obtain ⟨-, hran', -⟩ := h.known'
  have hread : (req i).read s = .ok e := hread
  obtain ⟨q, hkeys⟩ := h.keys
  obtain ⟨it, hget, hj, hno, hon, hon'⟩ := onRow_of_touches hread hread' hran
    (fun hinserts => (hkeys.left v (if_pos hinserts)).1) htouches
  obtain ⟨k, w⟩ := v
  have hnokey : ∀ a, (if inserts e.item then some (k, w) else none) = some a →
      a.1 = s.items.next := by
    rw [hno]
    intro v hv
    cases hv
  obtain ⟨key', hrun'⟩ := hran'
  have hleft : (committed s (some (k, w)) report).items.get k = w := by
    rw [committed_items, Table.get_overlay_some, if_pos rfl]
  cases hon' with
  | @update payload' new' hcall' hitem' hassigned' =>
    by_cases hne : new' = it
    · subst hne
      rw [hitem', RowWrite.run_update_same, Except.ok.injEq] at hrun'
      subst hrun'
      refine h.serializable_noop hread' ?_ hno
      rw [hitem', RowWrite.run_update_same]
    · rw [hitem'] at hrun'
      obtain ⟨cur, hcur, rfl⟩ := (RowWrite.run_update_eq_ok hne).mp hrun'
      rw [hleft] at hcur
      subst hcur
      obtain ⟨payload, hcall, hitem, hassigned⟩ := hon.updated hget hran
      have hcompatible : Compatible s (req i).call (req !i).call := by
        have hunhurt := h.unhurt
        cases sight with
        | nothing => exact absurd rfl (h.blind (k, some cur) (k, some (merge it new' cur)) rfl rfl)
        | atSum => exact hunhurt.2
        | atRead => exact absurd rfl hsight
      exact h.serializable_updates hread' hget hj hne hcall hitem hassigned hcall' hitem'
        hassigned' hcompatible
  | delete hcall' hitem' =>
    rw [hitem', RowWrite.run_delete, hleft, Except.ok.injEq] at hrun'
    refine h.in_order hnokey fun s₁ hbeside hget₁ hseq => ?_
    have hrow : s₁.items.get k = w := (hget₁ k).trans hleft
    cases w with
    | some cur =>
      obtain ⟨payload, -, -, hassigned⟩ := hon.updated hget hran
      have hcur : cur.reportId = e.reportId := (assignItem_eq_ok hassigned).1.trans hj
      rw [Option.map_some] at hrun'
      rw [← h.sameReport] at hbeside hcur ⊢
      refine completes_delete hbeside hread' hitem' hrow hcur fun m => ?_
      rw [committed_items, ← hrun', Table.get_overlay_some, hget₁]
      rfl
    | none =>
      rw [Option.map_none] at hrun'
      refine .inr ⟨read_gone hrow (.inr hcall'), fun m => ?_⟩
      rw [committed_items, ← hrun', Table.overlay_none, hget₁]
      rfl

end

/-- Both requests have edited report `j` and committed. -/
def BothCommitted (c : Config) (j : Int) : Prop :=
  ∀ i, ∃ e item sight, c.phase i = .committed e item sight ∧ e.reportId = j

/-- The report that a committed request has edited. -/
def Phase.edited? : Phase → Option Int
  | .committed e _ _ => some e.reportId
  | _ => none

theorem bothCommitted_iff {c : Config} : BothCommitted c j ↔ ∀ i, (c.phase i).edited? = some j := by
  refine forall_congr' fun i => ?_
  cases c.phase i <;> simp [Phase.edited?]

instance {c : Config} : Decidable (BothCommitted c j) := decidable_of_iff' _ bothCommitted_iff

theorem Finished.serializable {i : Bool}
    (h : Finished s req i e e' item item' report report' sight) :
    Serializable s req e.reportId (committed (committed s item report) item' report') := by
  by_cases hsight : sight = .atRead
  · subst hsight
    exact h.serializable_atRead
  have hread' : (req !i).read s = .ok e' := by
    have hsaw := h.known'.1
    cases sight with
    | nothing | atSum => exact hsaw
    | atRead => exact absurd rfl hsight
  by_cases hapart : ∀ v, item = some v → ¬ Touches e'.item v.1
  · exact h.serializable_apart hread' hapart
  · push Not at hapart
    obtain ⟨v, rfl, htouches⟩ := hapart
    exact h.serializable_touched hread' htouches hsight

/-- Kim's report with its one item. -/
def openReport : List DeskRequest := Office.tripDone 1 ++ (Office.reportSubmitted 1).take 3

/-- Kim corrects the amount of the item, and notes down what it was. -/
def corrections (i : Bool) : EditRequest where
  env := Office.env
  userId := 1
  call := .update 1 <|
    if i then { amountKrw := .value ⟨5000, 0⟩ } else { memo := .value ⟨"Lunch", by decide⟩ }

/-- The note has read the item before its amount is corrected, and waits for the row. -/
def notedLater : List Bool :=
  [true, false, true, false, true, true, true, false, false, false, false]

/-- Kim adds a meal that was paid in cash, twice. -/
def cashMeal (i : Bool) : EditRequest where
  env := Office.env
  userId := 1
  call := .add 1
    { Office.meal with
      cardTransactionId := none, amountKrw := some ⟨if i then 5000 else 7000, 0⟩ }

/-- Both meals are summed before either is committed. -/
def summedApart : List Bool := [true, false, true, false, true, false, true, true, false, false]

end Biztrip.Edits
