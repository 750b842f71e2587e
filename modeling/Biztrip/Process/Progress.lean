import Biztrip.Masters.Deed
import Biztrip.Process.Acceptance
import Biztrip.References

/-!
# No trip is stuck

From every state that the system leads to, every trip can still be brought to its settlement by
requests of its parties, as long as the masters, the numbers and the clock provide for it
(`Provided`). The process names the act that goes forward; what has been shown of acceptance
turns it into a request, and before a claim the report is filled in by two edits.
-/

namespace Biztrip.Process

open Biztrip.Lib Biztrip.Desk Biztrip.Masters Trips Expenses

/-- The owner of trip `i`, the owner's manager, and the approver. -/
def Party (s : Store) (i u : Int) : Prop :=
  ∃ t, s.trips.get i = some t ∧ (t.userId = u ∨ t.approverId = some u ∨
    (s.users.get t.userId).bind User.managerId = some u)

/-- What the way to the settlement of trip `i` takes besides the acts themselves. -/
structure Provided (s : Store) (env : Env) (i : Int) : Prop where
  int4 : IsInt4 i
  ended : ∀ t, s.trips.get i = some t → t.endDate < env.today
  managed : ∀ t, s.trips.get i = some t → (s.users.get t.userId).bind User.managerId ≠ none
  reports : ∀ j r, s.reports.get j = some r → r.tripId = i → IsInt4 j
  room : reportOf s i = none → NumberLeft s env.utcToday ∧ IsInt4 s.reports.next
  fund : ∃ code : Str 1 20, blank (some code.val) = false ∧
    Centers.assertFundCenter s (some code.val) = .ok ()
  cost : ∃ code : Str 1 20, blank (some code.val) = false ∧
    Centers.assertCostCenter s (some code.val) = .ok ()
  category : ∃ code : Str 1 40, Codes.validateCodes s
    [⟨"EXPENSE_CATEGORY", "expense_category_code", some code.val⟩] = .ok ()

/-- What holds all along the way from `s₀`. -/
structure OnCourse (s₀ : Store) (env : Env) (i : Int) (s : Store) : Prop where
  sane : Sane s
  intact : Intact s
  provided : Provided s env i
  found : (s.trips.get i).isSome
  parties : ∀ u, Party s i u → Party s₀ i u

variable {s₀ s s' : Store} {env : Env} {user : CurrentUser} {i j : Int} {t t' : Trip}
  {r r' : ExpenseReport} {call : DeskCall} {ws : List Write} {now : Instant} {p q : Phase}

/-! ## What a request of the desk leaves as it is -/

theorem sameUsers_of_deed (deed : Deed s env user call ws)
    (hc : ws.foldlM (Store.flush now) s = .ok s') : s'.users = s.users := by
  refine sameUsers_of_flushes (fun w hw harea => ?_) hc
  have hmem := deed.areas w hw
  simp [harea] at hmem

theorem sameMasters_of_step {req : DeskRequest} (hstep : desk.step s req = .ok s') :
    SameMasters s s' := by
  obtain ⟨p, hp, hcommit⟩ := bind_eq_ok.mp hstep
  obtain ⟨user, -, deed⟩ := deed_of_plan hp
  exact sameMasters_of_deed deed (Plan.commit_eq_ok.mp hcommit)

theorem validateCodes_congr (h : SameMasters s s') (specs : List Codes.CodeSpec) :
    Codes.validateCodes s' specs = Codes.validateCodes s specs := by
  unfold Codes.validateCodes Codes.groupRows Codes.codeRows
  rw [h.codeGroups, h.codes]

theorem loadActiveCenterCodes_congr (h : SameMasters s s') (kind : CenterKind) :
    Centers.loadActiveCenterCodes s' kind = Centers.loadActiveCenterCodes s kind := by
  rw [Centers.loadActiveCenterCodes, h.centers, Centers.loadActiveCenterCodes]

theorem assertFundCenter_congr (h : SameMasters s s') (code : Option String) :
    Centers.assertFundCenter s' code = Centers.assertFundCenter s code := by
  rw [Centers.assertFundCenter, loadActiveCenterCodes_congr h, Centers.assertFundCenter]

theorem assertCostCenter_congr (h : SameMasters s s') (code : Option String) :
    Centers.assertCostCenter s' code = Centers.assertCostCenter s code := by
  rw [Centers.assertCostCenter, loadActiveCenterCodes_congr h, Centers.assertCostCenter]

/-- The calls that neither create a trip nor edit one. -/
def KeepsTrips : DeskCall → Prop
  | .trip (.create _) | .trip (.update _ _) => False
  | _ => True

theorem tripRows_kept (deed : Deed s env user call ws) (hcall : KeepsTrips call) :
    ∀ p ∈ tripRows s ws, ∃ t, s.trips.get p.1 = some t ∧ p.2.endDate = t.endDate ∧
      p.2.userId = t.userId := by
  cases deed with
  | trip deed =>
    cases deed with
    | create | update => exact hcall.elim
    | delete => simp
    | submit load owner status range approver moved | approve load approver status moved
    | reject load approver status given moved | reopen load owner status moved
    | complete load owner status ended moved =>
      have hget := (loadVisibleTrip_eq_ok.mp load).2.1
      subst moved
      simp [hget]
  | expense deed =>
    cases deed with
    | approve load approver status trip completed moved settled =>
      subst settled
      simp [trip]
    | _ => simp

theorem reportRows_kept (deed : Deed s env user call ws) :
    ∀ p ∈ reportRows s ws, (∃ r, s.reports.get p.1 = some r ∧ p.2.tripId = r.tripId) ∨
      p.1 = s.reports.next ∧ ∀ j r, s.reports.get j = some r → r.tripId ≠ p.2.tripId := by
  cases deed with
  | trip deed => cases deed <;> simp
  | expense deed =>
    cases deed with
    | create load owner reportable single new =>
      simp only [reportRows_report, RowWrite.keyed_insert, Option.toList_some, reportRows_history,
        List.append_nil, List.mem_singleton, forall_eq]
      exact .inr ⟨trivial, fun j r hj => new.tripId ▸ not_referenced single hj⟩
    | update load centers assigned =>
      have hget := (loadVisibleReport_eq_ok.mp (loadEditableReport_eq_ok.mp load).1).2.1
      subst assigned
      simp [hget]
    | addItem load | updateItem int4 get load | deleteItem int4 get load =>
      have hget := (loadVisibleReport_eq_ok.mp (loadEditableReport_eq_ok.mp load).1).2.1
      simp [hget]
    | submit load owner status trip completed present centers items recalc approver moved
    | approve load approver status trip completed moved settled
    | reject load approver status given moved | reopen load owner status moved =>
      have hget := (loadVisibleReport_eq_ok.mp load).2.1
      subst moved
      simp [hget]

theorem reportOf_eq_none :
    reportOf s i = none ↔ ∀ j r, s.reports.get j = some r → r.tripId ≠ i := by
  simp only [reportOf, Option.map_eq_none_iff, List.find?_eq_none, decide_eq_true_eq, Prod.forall,
    Table.mem_rows]

theorem numberLeft_congr (h : s'.reports = s.reports) {today : Date} :
    NumberLeft s' today ↔ NumberLeft s today := by
  simp only [NumberLeft, Numbering.nextReportNo, h]

/-- Once there is a report, no number is needed any more. -/
theorem Provided.next (h : Provided s env i) (deed : Deed s env user call ws)
    (hcall : KeepsTrips call) (hc : ws.foldlM (Store.flush now) s = .ok s')
    (hroom : reportOf s' i = none → s'.reports = s.reports) : Provided s' env i := by
  have hrows := deed.rows hc
  have husers := sameUsers_of_deed deed hc
  have hmasters := sameMasters_of_deed deed hc
  have htrips : ∀ k t, s'.trips.get k = some t → k = i → t.endDate < env.today ∧
      (s.users.get t.userId).bind User.managerId ≠ none := by
    refine hrows.trips.forall (fun _ _ _ => id) ?_ fun p hp hk => ?_
    · rintro k t ht rfl
      exact ⟨h.ended t ht, h.managed t ht⟩
    · obtain ⟨t, ht, hend, howner⟩ := tripRows_kept deed hcall p hp
      rw [hk] at ht
      exact ⟨hend ▸ h.ended t ht, howner ▸ h.managed t ht⟩
  refine ⟨h.int4, fun t ht => (htrips i t ht rfl).1, fun t ht => ?_, ?_, fun hnone => ?_, ?_, ?_,
    ?_⟩
  · rw [husers]
    exact (htrips i t ht rfl).2
  · refine hrows.reports.forall (fun _ _ _ => id) h.reports fun p hp hi => ?_
    rcases reportRows_kept deed p hp with ⟨r, hr, htrip⟩ | ⟨hnext, hfree⟩
    · exact h.reports _ r hr (htrip.symm.trans hi)
    · rw [hnext]
      exact (h.room (reportOf_eq_none.mpr fun j r hj => hi ▸ hfree j r hj)).2
  · have hsame := hroom hnone
    rw [reportOf_congr hsame] at hnone
    rw [numberLeft_congr hsame, hsame]
    exact h.room hnone
  · simpa only [assertFundCenter_congr hmasters] using h.fund
  · simpa only [assertCostCenter_congr hmasters] using h.cost
  · simpa only [validateCodes_congr hmasters] using h.category

variable {c c' : Case} {a : Act} {userId : Int}

theorem OnCourse.next (sec : Security) (h : OnCourse s₀ env i s)
    (hstep : (system sec).step s ⟨env, .desk userId call⟩ = .ok s') (hcall : KeepsTrips call)
    (hreport : (∃ call', call = .trip call') ∨ reportOf s' i ≠ none) (hc : caseOf s i = some c)
    (hc' : caseOf s' i = some c') (howner : c'.owner = c.owner)
    (happrover : ∀ m, c'.approver = some m → c.approver = some m ∨
      (s.users.get c.owner).bind User.managerId = some m) : OnCourse s₀ env i s' := by
  obtain ⟨p, hp, hcommit⟩ := bind_eq_ok.mp hstep
  obtain ⟨user, -, deed⟩ := deed_of_plan (r := ⟨env, userId, call⟩) hp
  have hflushes := Plan.commit_eq_ok.mp hcommit
  obtain ⟨t, ht, -, -, hcase⟩ := caseOf_eq_some.mp hc
  obtain ⟨t', ht', -, -, hcase'⟩ := caseOf_eq_some.mp hc'
  refine ⟨h.sane.step hstep, (h.intact.flushes (backed_of_plan h.intact hp) hflushes).1,
    h.provided.next deed hcall hflushes fun hnone => ?_, by rw [ht']; rfl, fun u hu => ?_⟩
  · rcases hreport with ⟨call', rfl⟩ | hsome
    · cases deed with
      | trip deed => exact (deed.tables hflushes).1
    · exact absurd hnone hsome
  · obtain ⟨t₁, ht₁, hu⟩ := hu
    obtain rfl : t₁ = t' := Option.some.inj (ht₁.symm.trans ht')
    have hsame : t₁.userId = t.userId := by
      rw [hcase, hcase'] at howner
      exact howner
    rw [hcase, hcase'] at happrover
    rw [sameUsers_of_deed deed hflushes, hsame] at hu
    refine h.parties u ⟨t, ht, ?_⟩
    rcases hu with hu | hu | hu
    · exact .inl hu
    · exact .inr (happrover u hu)
    · exact .inr (.inr hu)

/-! ## One act forward -/

/-- There is somebody to do the act. -/
theorem OnCourse.exists_actor (h : OnCourse s₀ env i s) (hc : caseOf s i = some c)
    (ha : c.phase.forward = some a) : ∃ user : CurrentUser,
      s.users.get user.id = some user.toUser ∧ c.On user.id a.side ∧
        (c.approverAfter user.managerId a).isSome ∧ Party s i user.id := by
  obtain ⟨t, ht, hstatus, -, hcase⟩ := caseOf_eq_some.mp hc
  have howner : c.owner = t.userId := by rw [hcase]
  have happrover : c.approver = t.approverId := by rw [hcase]
  cases hside : a.side with
  | owner =>
    obtain ⟨u, hu⟩ := Option.isSome_iff_exists.mp (h.intact.tripUser i t ht _ rfl)
    refine ⟨{ u with id := t.userId }, hu, howner, ?_, t, ht, .inl rfl⟩
    have hmanaged := h.provided.managed t ht
    rw [hu] at hmanaged
    obtain ⟨m, hm⟩ := Option.ne_none_iff_exists'.mp hmanaged
    cases a with
    | submit => exact Option.isSome_iff_exists.mpr ⟨some m, congrArg (Option.map some) hm⟩
    | _ => rfl
  | approver =>
    have hleft : t.status ≠ .draft := by
      rw [← hstatus]
      rintro hdraft
      cases hp : c.phase <;> rw [hp] at hdraft ha <;> cases hdraft
      cases ha
      cases hside
    obtain ⟨m, hm⟩ := Option.ne_none_iff_exists'.mp (h.sane.whole.coupled.approver i t ht hleft)
    obtain ⟨u, hu⟩ := Option.isSome_iff_exists.mp (h.intact.tripApprover i t ht m hm)
    refine ⟨{ u with id := m }, hu, happrover.trans hm, ?_, t, ht, .inr (.inl hm)⟩
    cases a <;> first | rfl | cases hside

/-- There is a request for the act. -/
theorem OnCourse.exists_call (h : OnCourse s₀ env i s) (hc : caseOf s i = some c)
    (ha : c.phase.forward = some a)
    (hclaim : a = .claim → ∀ j r, s.reports.get j = some r → r.tripId = i → Claimable s j r) :
    ∃ call, IsMove call = true ∧ KeepsTrips call ∧ moveOf s call = some (i, .act a) ∧
      Ready s env call ∧ ((∃ call', call = .trip call') ∨
        ∀ q, c.phase.next a = some q → q.report? ≠ none) := by
  obtain ⟨t, ht, -, hreport, -⟩ := caseOf_eq_some.mp hc
  have hi := h.provided.int4
  rcases c with ⟨owner, approver, p⟩
  change p.forward = some a at ha
  change p.report? = _ at hreport
  have found : ∀ status, p.report? = some status → ∃ j r, s.reports.get j = some r ∧
      r.tripId = i ∧ IsInt4 j ∧ ∀ a, onReport s j a = some (i, .act a) := by
    intro status hstatus
    rw [hstatus] at hreport
    obtain ⟨r, hr, -⟩ := Option.map_eq_some_iff.mp hreport.symm
    obtain ⟨j, hj, htrip⟩ := (reportOf_eq_some h.sane.whole.coupled).mp hr
    exact ⟨j, r, hj, htrip, h.provided.reports j r hj htrip,
      fun a => htrip ▸ onReport_of_get hj⟩
  have left : p.report? = none → NumberLeft s env.utcToday := by
    intro hnone
    rw [hnone] at hreport
    exact (h.provided.room (Option.map_eq_none_iff.mp hreport.symm)).1
  cases p with
  | drafted =>
    cases ha
    exact ⟨.trip (.submit i), rfl, trivial, rfl, hi, .inl ⟨_, rfl⟩⟩
  | submitted =>
    cases ha
    exact ⟨.trip (.approve i), rfl, trivial, rfl, hi, .inl ⟨_, rfl⟩⟩
  | rejected =>
    cases ha
    exact ⟨.trip (.reopen i), rfl, trivial, rfl, hi, .inl ⟨_, rfl⟩⟩
  | underway begun =>
    cases begun with
    | false =>
      cases ha
      exact ⟨.expense (.create ⟨i⟩), rfl, trivial, rfl, ⟨hi, left rfl⟩,
        .inr (by rintro _ ⟨⟩; nofun)⟩
    | true =>
      cases ha
      exact ⟨.trip (.complete i), rfl, trivial, rfl, ⟨hi, h.provided.ended⟩, .inl ⟨_, rfl⟩⟩
  | completed =>
    cases ha
    exact ⟨.expense (.create ⟨i⟩), rfl, trivial, rfl, ⟨hi, left rfl⟩, .inr (by rintro _ ⟨⟩; nofun)⟩
  | reporting =>
    cases ha
    obtain ⟨j, r, hj, htrip, hj4, hon⟩ := found _ rfl
    refine ⟨.expense (.submit j), rfl, trivial, hon _, ⟨hj4, fun r' hr' => ?_⟩,
      .inr (by rintro _ ⟨⟩; nofun)⟩
    obtain rfl := Option.some.inj (hj.symm.trans hr')
    exact hclaim rfl j r hj htrip
  | claimed =>
    cases ha
    obtain ⟨j, r, hj, htrip, hj4, hon⟩ := found _ rfl
    exact ⟨.expense (.approve j), rfl, trivial, hon _, hj4, .inr (by rintro _ ⟨⟩; nofun)⟩
  | disputed =>
    cases ha
    obtain ⟨j, r, hj, htrip, hj4, hon⟩ := found _ rfl
    exact ⟨.expense (.reopen j), rfl, trivial, hon _, hj4, .inr (by rintro _ ⟨⟩; nofun)⟩
  | settled => cases ha

/-- A request of one of the parties, at this time. -/
def ByParty (s : Store) (env : Env) (i : Int) (req : Request Call) : Prop :=
  req.env = env ∧ ∃ userId call, req.call = .desk userId call ∧ Party s i userId

theorem OnCourse.forward (sec : Security) (h : OnCourse s₀ env i s) (hc : caseOf s i = some c)
    (ha : c.phase.forward = some a) (hq : c.phase.next a = some q)
    (hclaim : a = .claim → ∀ j r, s.reports.get j = some r → r.tripId = i → Claimable s j r) :
    ∃ req s' c', ByParty s₀ env i req ∧ (system sec).step s req = .ok s' ∧
      OnCourse s₀ env i s' ∧ caseOf s' i = some c' ∧ c'.phase = q := by
  obtain ⟨user, huser, hon, happrover, hparty⟩ := h.exists_actor hc ha
  obtain ⟨call, hmove, hkeeps, hm, hready, hreport⟩ := h.exists_call hc ha hclaim
  obtain ⟨s', hstep⟩ := (accepts_move_iff h.sane huser hmove hm).mpr
    ⟨hready, (allows_act hc).mpr ⟨hon, by rw [hq]; rfl, happrover⟩⟩
  have hcomes := comes_of_desk _ h.sane.whole hstep
  have hl : labelOf s user.id call = some ⟨user.id, user.managerId, i, .act a⟩ := by
    rw [labelOf, labelFrom, hm, huser]
    rfl
  rw [hl] at hcomes
  obtain ⟨c₀, c', hc₀, hact, hcases⟩ := step_act_eq_some.mp hcomes.moved
  obtain rfl : c₀ = c := Option.some.inj (hc₀.symm.trans hc)
  obtain ⟨-, hnext, hafter, howner⟩ := act_eq_some.mp hact
  have hphase : c'.phase = q := Option.some.inj (hnext.symm.trans hq)
  have hc' : caseOf s' i = some c' := by rw [hcases, Function.update_self]
  refine ⟨⟨env, .desk user.id call⟩, s', c', ⟨rfl, _, _, rfl, h.parties _ hparty⟩, hstep,
    h.next sec hstep hkeeps ?_ hc hc' howner fun m hto => ?_, hc', hphase⟩
  · refine hreport.imp_right fun hsome hnone => hsome q hq ?_
    obtain ⟨-, -, -, hreport', -⟩ := caseOf_eq_some.mp hc'
    rw [← hphase, hreport', hnone]
    rfl
  · cases a with
    | submit =>
      obtain ⟨m', hm', hsome⟩ := Option.map_eq_some_iff.mp hafter
      obtain rfl := Option.some.inj (hsome.trans hto)
      have hsame : c₀.owner = user.id := hon
      rw [hsame, huser]
      exact .inr hm'
    | reopen =>
      rw [← Option.some.inj hafter] at hto
      cases hto
    | _ => exact .inl ((Option.some.inj hafter).trans hto)

/-! ## The report filled in -/

/-- The report on the way may be edited by the owner of the trip. -/
theorem OnCourse.exists_draft (h : OnCourse s₀ env i s) (hc : caseOf s i = some c)
    (hp : c.phase = .reporting) : ∃ (user : CurrentUser) (j : Int) (r : ExpenseReport),
      s.users.get user.id = some user.toUser ∧ Party s i user.id ∧ s.reports.get j = some r ∧
        r.tripId = i ∧ loadEditableReport s user j = .ok r := by
  obtain ⟨t, ht, -, hreport, -⟩ := caseOf_eq_some.mp hc
  rw [hp] at hreport
  obtain ⟨r, hr, hstatus⟩ := Option.map_eq_some_iff.mp hreport.symm
  obtain ⟨j, hj, htrip⟩ := (reportOf_eq_some h.sane.whole.coupled).mp hr
  obtain ⟨t₀, ht₀, hmatched⟩ := h.sane.whole.coupled.report j r hj
  obtain rfl : t₀ = t := Option.some.inj (ht₀.symm.trans (htrip ▸ ht))
  obtain ⟨u, hu⟩ := Option.isSome_iff_exists.mp (h.intact.tripUser i t₀ ht _ rfl)
  have howner : t₀.userId = r.userId := hmatched.userId.symm
  refine ⟨{ u with id := t₀.userId }, j, r, hu, ⟨t₀, ht, .inl rfl⟩, hj, htrip,
    loadEditableReport_eq_ok.mpr ⟨loadVisibleReport_eq_ok.mpr
      ⟨h.provided.reports j r hj htrip, hj, ?_⟩, howner,
      mem_expenseEditableStatuses.mpr (.inl hstatus)⟩⟩
  simp [canViewReport, howner]

theorem accepts_centers (env : Env) {fund cost : Str 1 20}
    (huser : s.users.get user.id = some user.toUser) (load : loadEditableReport s user j = .ok r)
    (hfund : Centers.assertFundCenter s (some fund.val) = .ok ())
    (hcost : Centers.assertCostCenter s (some cost.val) = .ok ()) :
    ∃ s', desk.step s ⟨env, user.id, .expense (.update j ⟨.value fund, .value cost⟩)⟩ = .ok s' := by
  have hget := (loadVisibleReport_eq_ok.mp (loadEditableReport_eq_ok.mp load).1).2.1
  have hvalid : validateCenters s (some fund.val) (some cost.val) = .ok () :=
    bind_eq_ok.mpr ⟨(), hfund, hcost⟩
  have hplan := updateReport.eq_1 s env user j ⟨.value fund, .value cost⟩
  rw [load, ok_bind] at hplan
  obtain ⟨s', hc, -⟩ := report_commits env hget
  exact accepts_of_commit (.expense (.update j ⟨.value fund, .value cost⟩)) huser
    (hplan.trans (bind_eq_ok.mpr ⟨(), hvalid, rfl⟩)) ⟨s', hc⟩

theorem centers_of_step {fund cost : Str 1 20} (hstep : desk.step s
    ⟨env, userId, .expense (.update j ⟨.value fund, .value cost⟩)⟩ = .ok s') :
    ∀ r, s.reports.get j = some r → ∃ r', s'.reports.get j = some r' ∧ r'.tripId = r.tripId ∧
      r'.fundCenterCode = some fund.val ∧ r'.costCenterCode = some cost.val := by
  obtain ⟨p, hp, hcommit⟩ := bind_eq_ok.mp hstep
  obtain ⟨user, -, deed⟩ := deed_of_plan hp
  have hc := Plan.commit_eq_ok.mp hcommit
  generalize p.writes = ws at deed hc
  rcases deed with _ | deed
  cases deed with
  | update load centers assigned =>
    obtain ⟨-, u, happly, rfl⟩ := commit_report hc
    have hget := (loadVisibleReport_eq_ok.mp (loadEditableReport_eq_ok.mp load).1).2.1
    obtain ⟨at₀, hself⟩ := (updated_of_apply hget happly).get_self
    subst assigned
    intro r hr
    obtain rfl := Option.some.inj (hget.symm.trans hr)
    exact ⟨_, hself, rfl, rfl, rfl⟩

/-- An item without a card payment and without an amount. -/
def nilItem (category : Str 1 40) : ExpenseItemCreate :=
  { expenseCategoryCode := category, amountKrw := some ⟨0, 0⟩ }

/-- An item of no amount leaves the sums as they are. -/
theorem includedTotal_insert {it : ExpenseItem} (hitems : s'.items = s.items.insert it)
    (h0 : it.amountKrw.units = 0) : includedTotal s' j = includedTotal s j := by
  simp only [includedTotal, itemsOf, sumIncluded, hitems, Table.insert, List.filter_append,
    List.map_append, List.sum_append]
  by_cases hj : it.reportId = j
  · cases hx : it.isExcluded <;> simp [hj, hx, h0]
  · simp [hj]

theorem accepts_item (env : Env) {category : Str 1 40} (h : Sane s)
    (huser : s.users.get user.id = some user.toUser) (load : loadEditableReport s user j = .ok r)
    (hcategory : Codes.validateCodes s
      [⟨"EXPENSE_CATEGORY", "expense_category_code", some category.val⟩] = .ok ()) :
    ∃ s', desk.step s ⟨env, user.id, .expense (.addItem j (nilItem category))⟩ = .ok s' := by
  have hget := (loadVisibleReport_eq_ok.mp (loadEditableReport_eq_ok.mp load).1).2.1
  let it : ExpenseItem :=
    { reportId := j, cardTransactionId := none, expenseCategoryCode := category.val
      amountKrw := Numeric.zero, memo := none, isExcluded := false, fundCenterCode := none
      costCenterCode := none }
  have hcheck : s.check (.item (.insert it)) = .ok () :=
    bind_eq_ok.mpr ⟨(), rfl, Store.foreignKey_eq_ok.mpr (by rw [hget]; rfl)⟩
  have hflush : ∀ now, s.flush now (.item (.insert it)) =
      .ok { s with items := s.items.insert it } :=
    fun now => bind_eq_ok.mpr ⟨(), hcheck, rfl⟩
  obtain ⟨total, htotal⟩ := h.recalcTotal hget
  have hrecalc : recalcTotal { s with items := s.items.insert it } j = .ok total := by
    rw [← htotal, recalcTotal, recalcTotal, includedTotal_insert (s := s) rfl rfl]
  have hplan : addItem s env user j (nilItem category) = .ok ⟨env.txnNow, [.item (.insert it),
      .report (.update j r { r with totalAmountKrw := total })], none⟩ := by
    have hcenters : validateCenters s ((nilItem category).fundCenterCode.map Str.val)
        ((nilItem category).costCenterCode.map Str.val) = .ok () := rfl
    have hamount : itemAmount s r j (nilItem category) = .ok ⟨0, 0⟩ := rfl
    have hchecked : assertItemAmount ⟨0, 0⟩ = .ok () := by decide +kernel
    have hmemo : checkSome (nilItem category).memo (fun v => text "memo" v.val) = .ok () := rfl
    have hstored : storeKrw "amount_krw" ⟨0, 0⟩ = .ok Numeric.zero := by decide +kernel
    have hcodes : Codes.validateCodes s [⟨"EXPENSE_CATEGORY", "expense_category_code",
        some (nilItem category).expenseCategoryCode.val⟩] = .ok () := hcategory
    rw [addItem, load, ok_bind, hcodes, ok_bind, hcenters, ok_bind, hamount, ok_bind, hchecked,
      ok_bind, hmemo, ok_bind, hstored, ok_bind]
    exact bind_eq_ok.mpr ⟨_, hflush _, bind_eq_ok.mpr ⟨total, hrecalc, rfl⟩⟩
  refine accepts_of_commit (.expense (.addItem j (nilItem category))) huser hplan ?_
  obtain ⟨u, hreport⟩ : ∃ u, Store.flush env.txnNow { s with items := s.items.insert it }
      (.report (.update j r { r with totalAmountKrw := total })) =
        .ok { s with items := s.items.insert it, reports := u } :=
    Store.flush_report_loaded hget
  refine ⟨{ s with items := s.items.insert it, reports := u }, ?_⟩
  rw [List.foldlM_cons, hflush, ok_bind, List.foldlM_cons, hreport, ok_bind]
  rfl

theorem item_of_step {category : Str 1 40} (hstep : desk.step s
    ⟨env, userId, .expense (.addItem j (nilItem category))⟩ = .ok s') :
    0 < includedCount s' j ∧ ∀ r, s.reports.get j = some r → ∃ r', s'.reports.get j = some r' ∧
      r'.tripId = r.tripId ∧ r'.fundCenterCode = r.fundCenterCode ∧
        r'.costCenterCode = r.costCenterCode := by
  obtain ⟨p, hp, hcommit⟩ := bind_eq_ok.mp hstep
  obtain ⟨user, -, deed⟩ := deed_of_plan hp
  have hc := Plan.commit_eq_ok.mp hcommit
  generalize p.writes = ws at deed hc
  rcases deed with _ | deed
  cases deed with
  | @addItem _ _ r₀ it flushed total load new =>
    obtain ⟨items, reports, -, happly, happly', rfl⟩ := commit_edit hc
    rw [RowWrite.apply_insert, Except.ok.injEq] at happly
    have hget := (loadVisibleReport_eq_ok.mp (loadEditableReport_eq_ok.mp load).1).2.1
    obtain ⟨at₀, hself⟩ := (updated_of_apply hget happly').get_self
    refine ⟨List.length_pos_of_mem (a := (s.items.next, it)) ?_, fun r hr => ?_⟩
    · have hmem : (s.items.next, it) ∈ items.rows := by
        rw [← happly, Table.mem_rows, Table.get_insert_next]
      refine List.mem_filter.mpr ⟨List.mem_filter.mpr ⟨hmem, ?_⟩, ?_⟩
      · exact decide_eq_true new.inReport
      · rw [new.included]
        rfl
    · obtain rfl := Option.some.inj (hget.symm.trans hr)
      exact ⟨_, hself, rfl, rfl, rfl⟩

/-- An edit of the report leaves the case where it is. -/
theorem OnCourse.edited (sec : Security) {call : ExpenseCall} (h : OnCourse s₀ env i s)
    (hstep : (system sec).step s ⟨env, .desk userId (.expense call)⟩ = .ok s')
    (hl : labelOf s userId (.expense call) = none) (hc : caseOf s i = some c)
    (hp : c.phase = .reporting) : OnCourse s₀ env i s' ∧ caseOf s' i = some c := by
  have hcomes := comes_of_desk ⟨env, userId, .expense call⟩ h.sane.whole hstep
  rw [hl] at hcomes
  have hc' : caseOf s' i = some c := by rw [hcomes.same, hc]
  refine ⟨h.next sec hstep trivial (.inr fun hnone => ?_) hc hc' rfl fun m => .inl, hc'⟩
  obtain ⟨-, -, -, hreport, -⟩ := caseOf_eq_some.mp hc'
  rw [hp, hnone] at hreport
  cases hreport

/-- Two edits by the owner make the report ready for its submission. -/
theorem OnCourse.fill (sec : Security) (h : OnCourse s₀ env i s) (hc : caseOf s i = some c)
    (hp : c.phase = .reporting) : ∃ req req' s₁ s₂, ByParty s₀ env i req ∧ ByParty s₀ env i req' ∧
      (system sec).step s req = .ok s₁ ∧ (system sec).step s₁ req' = .ok s₂ ∧
        OnCourse s₀ env i s₂ ∧ caseOf s₂ i = some c ∧
          ∀ j r, s₂.reports.get j = some r → r.tripId = i → Claimable s₂ j r := by
  obtain ⟨user, j, r, huser, hparty, hj, htrip, load⟩ := h.exists_draft hc hp
  obtain ⟨fund, hfundText, hfund⟩ := h.provided.fund
  obtain ⟨cost, hcostText, hcost⟩ := h.provided.cost
  obtain ⟨s₁, hstep⟩ := accepts_centers env huser load hfund hcost
  obtain ⟨h₁, hc₁⟩ := h.edited sec hstep rfl hc hp
  obtain ⟨r₁, hj₁, htrip₁, hfund₁, hcost₁⟩ := centers_of_step hstep r hj
  -- the owner loads the same report again
  obtain ⟨user', j', r', huser', hparty', hj', htrip', load'⟩ := h₁.exists_draft hc₁ hp
  obtain rfl : j = j' := h₁.sane.whole.coupled.single j j' r₁ r' hj₁ hj'
    (htrip₁.trans (htrip.trans htrip'.symm))
  obtain rfl : r₁ = r' := Option.some.inj (hj₁.symm.trans hj')
  obtain ⟨category, hcategory⟩ := h₁.provided.category
  obtain ⟨s₂, hstep'⟩ := accepts_item env h₁.sane huser' load' hcategory
  obtain ⟨h₂, hc₂⟩ := h₁.edited sec hstep' rfl hc₁ hp
  obtain ⟨hcount, hkept⟩ := item_of_step hstep'
  obtain ⟨r₂, hj₂, htrip₂, hfund₂, hcost₂⟩ := hkept r₁ hj₁
  have hmasters := (sameMasters_of_step hstep).trans (sameMasters_of_step hstep')
  refine ⟨⟨env, .desk user.id (.expense (.update j ⟨.value fund, .value cost⟩))⟩,
    ⟨env, .desk user'.id (.expense (.addItem j (nilItem category)))⟩, s₁, s₂,
    ⟨rfl, _, _, rfl, h.parties _ hparty⟩, ⟨rfl, _, _, rfl, h₁.parties _ hparty'⟩, hstep, hstep',
    h₂, hc₂, fun k x hk hx => ?_⟩
  obtain rfl : j = k := h₂.sane.whole.coupled.single j k r₂ x hj₂ hk
    (htrip₂.trans (htrip'.trans hx.symm))
  obtain rfl : r₂ = x := Option.some.inj (hj₂.symm.trans hk)
  rw [hfund₁] at hfund₂
  rw [hcost₁] at hcost₂
  refine ⟨?_, ?_, ?_, hcount⟩
  · rw [hfund₂, hcost₂]
    exact ⟨hfundText, hcostText⟩
  · rw [hfund₂, assertFundCenter_congr hmasters, hfund]
  · rw [hcost₂, assertCostCenter_congr hmasters, hcost]

/-! ## All the way -/

/-- How far it still is. -/
def toGo (s : Store) (i : Int) : Nat :=
  match caseOf s i with
  | some c => c.phase.toGo
  | none => 0

theorem OnCourse.progress (sec : Security) (h : OnCourse s₀ env i s) (hrank : toGo s i ≠ 0) :
    ∃ reqs, reqs ≠ [] ∧ (∀ req ∈ reqs, ByParty s₀ env i req) ∧
      OnCourse s₀ env i (Run.all (system sec).step s reqs) ∧
        toGo (Run.all (system sec).step s reqs) i + reqs.length ≤ toGo s i := by
  obtain ⟨t, ht⟩ := Option.isSome_iff_exists.mp h.found
  obtain ⟨p, hc, -⟩ := h.sane.whole.case ht
  have hgo : ∀ {s c}, caseOf s i = some c → toGo s i = c.phase.toGo := fun hc => by
    rw [toGo, hc]
  rw [hgo hc] at hrank ⊢
  obtain ⟨a, q, ha, hq, hcost⟩ := Phase.exists_forward hrank
  by_cases hclaim : a = .claim
  · have hp : p = .reporting := Phase.of_next (a := .claim) (by rw [← hclaim, hq]; rfl)
    obtain ⟨req, req', s₁, s₂, hby, hby', hstep, hstep', h₂, hc₂, hready⟩ := h.fill sec hc hp
    obtain ⟨req'', s₃, c', hby'', hstep'', h₃, hc₃, rfl⟩ :=
      h₂.forward sec hc₂ ha hq fun _ => hready
    have hrun : Run.all (system sec).step s [req, req', req''] = s₃ := by
      simp only [Run.all_cons, Run.all_nil, Run.settle_eq hstep, Run.settle_eq hstep',
        Run.settle_eq hstep'']
    refine ⟨[req, req', req''], by simp, by simp [hby, hby', hby''], hrun ▸ h₃, ?_⟩
    rw [hrun, hgo hc₃, ← hcost, hclaim]
    rfl
  · obtain ⟨req, s', c', hby, hstep, h', hc', rfl⟩ :=
      h.forward sec hc ha hq fun he => absurd he hclaim
    have hrun : Run.all (system sec).step s [req] = s' := by
      simp only [Run.all_cons, Run.all_nil, Run.settle_eq hstep]
    refine ⟨[req], by simp, by simp [hby], hrun ▸ h', ?_⟩
    rw [hrun, hgo hc', ← hcost]
    cases a <;> first | exact absurd rfl hclaim | rfl

/-- In every state that the system leads to, every trip can be settled within nine requests of its
parties, if the rest is provided for. -/
theorem can_be_settled (sec : Security) {s₀ : Store} (hintact : Intact s₀)
    (htrips : s₀.trips.rows = []) (h₀ : NoReports s₀) (reqs : List (Request Call)) :
    let s := Run.all (system sec).step s₀ reqs
    ∀ env i t, s.trips.get i = some t → Provided s env i → ∃ more : List (Request Call),
      more.length ≤ 9 ∧ (∀ req ∈ more, ByParty s env i req) ∧
        ∃ t', (Run.all (system sec).step s more).trips.get i = some t' ∧ t'.status = .settled := by
  intro s env i t ht hprovided
  have hs : Intact s := Run.invariant_of_step (fun s₁ req s₂ h hstep => by
    obtain ⟨p, hp, hc⟩ := bind_eq_ok.mp hstep
    exact (h.flushes (backed_of_plan h hp) (Plan.commit_eq_ok.mp hc)).1) hintact
  have hstart : OnCourse s env i s :=
    ⟨(Sane.of_empty htrips h₀).run sec, hs, hprovided, by rw [ht]; rfl, fun _ => id⟩
  have hprogress : ∀ x, OnCourse s env i x → toGo x i ≠ 0 → ∃ more, more ≠ [] ∧
      (∀ req ∈ more, ByParty s env i req) ∧ OnCourse s env i (Run.all (system sec).step x more) ∧
        toGo (Run.all (system sec).step x more) i + more.length ≤ toGo x i :=
    fun x h => h.progress sec
  obtain ⟨more, hlen, hby, hend, hzero⟩ := Run.exists_of_progress hprogress s hstart
  refine ⟨more, hlen.trans ?_, hby, ?_⟩
  · obtain ⟨p, hc, -⟩ := hstart.sane.whole.case ht
    rw [toGo, hc]
    exact p.toGo_le
  · obtain ⟨t', ht'⟩ := Option.isSome_iff_exists.mp hend.found
    obtain ⟨p, hc, hstatus, -⟩ := hend.sane.whole.case ht'
    rw [toGo, hc] at hzero
    obtain rfl := Phase.toGo_eq_zero.mp hzero
    exact ⟨t', ht', hstatus.symm⟩

/-- Kim's trip, once Lee has rejected it. -/
def rejectedTrip : List (Request Call) :=
  [⟨Office.env, .desk 1 (.trip (.create Office.trip))⟩,
    ⟨Office.env, .desk 1 (.trip (.submit 1))⟩,
    ⟨Office.env, .desk 2 (.trip (.reject 1 ⟨"Too long"⟩))⟩]

theorem provided_office :
    Provided (Run.all (system Office.sec).step Office.store rejectedTrip) Office.env 1 := by
  have htrip : ∀ t, (Run.all (system Office.sec).step Office.store rejectedTrip).trips.get 1 =
      some t → t.endDate = Office.trip.endDate ∧ t.userId = 1 := by
    have hget : ((Run.all (system Office.sec).step Office.store rejectedTrip).trips.get 1).map
        (fun t => (t.endDate, t.userId)) = some (Office.trip.endDate, 1) := by decide +kernel
    intro t ht
    rw [ht] at hget
    exact Prod.mk.inj (Option.some.inj hget)
  have hreports : (Run.all (system Office.sec).step Office.store rejectedTrip).reports.rows = [] :=
    by decide +kernel
  obtain ⟨no, hno⟩ : ∃ no, Numbering.nextReportNo (Run.all (system Office.sec).step Office.store
      rejectedTrip) Office.env.utcToday = .ok no := by
    rw [Numbering.nextReportNo, hreports]
    exact ⟨_, rfl⟩
  refine ⟨by decide, fun t ht => ?_, fun t ht => ?_, fun j r hj => ?_,
    fun _ => ⟨⟨no, hno, fun j r hj => ?_⟩, by decide +kernel⟩,
    ⟨⟨"F1", by decide⟩, by decide +kernel, by decide +kernel⟩,
    ⟨⟨"C1", by decide⟩, by decide +kernel, by decide +kernel⟩,
    ⟨⟨"MEAL", by decide⟩, by decide +kernel⟩⟩
  · rw [(htrip t ht).1]
    decide
  · rw [(htrip t ht).2]
    decide +kernel
  all_goals
    rw [Table.get_of_rows_nil hreports] at hj
    cases hj

theorem can_be_settled_office :
    let s := Run.all (system Office.sec).step Office.store rejectedTrip
    ∃ more : List (Request Call), more.length ≤ 9 ∧
      (∀ req ∈ more, ByParty s Office.env 1 req) ∧
        ∃ t', (Run.all (system Office.sec).step s more).trips.get 1 = some t' ∧
          t'.status = .settled := by
  intro s
  have hfound : (s.trips.get 1).isSome := by decide +kernel
  obtain ⟨t, ht⟩ := Option.isSome_iff_exists.mp hfound
  exact can_be_settled Office.sec intact_office rfl ⟨rfl, rfl⟩ rejectedTrip Office.env 1 t ht
    provided_office

end Biztrip.Process
