import Biztrip.Desk.Locked
import Biztrip.Desk.Rows
import Biztrip.Masters.Deed

/-!
# Center codes name centers

Trips, reports and items name a center by its code, and no foreign key holds the code
to its master row. What does: a code is looked up before it is written, a row of
a master never changes its code, and a deletion first looks through every column that
may hold one. `CentersNamed` is what these leave. An item of a submitted report has
both its centers because the submission looks at the header and the header then stays.
-/

namespace Biztrip.Masters

open Biztrip.Lib Admin.CenterMaster Centers Expenses Trips Desk

/-- The code is that of a row of the master. -/
def Named (s : Store) (kind : CenterKind) (code : String) : Prop :=
  ∃ i c, (s.centers kind).get i = some c ∧ c.code = code

/-- A column that holds a code holds that of a row. -/
def NamedIf (s : Store) (kind : CenterKind) (code : Option String) : Prop :=
  ∀ c, code = some c → Named s kind c

/-- The centers an item is charged to, its own or else those of its report, are rows. -/
def Charged (s : Store) (it : ExpenseItem) (r : ExpenseReport) : Prop :=
  (∃ c, effectiveCenter it.fundCenterCode r.fundCenterCode = some c ∧ Named s .fund c) ∧
    ∃ c, effectiveCenter it.costCenterCode r.costCenterCode = some c ∧ Named s .cost c

structure CentersNamed (s : Store) : Prop where
  trip : ∀ i t, s.trips.get i = some t → NamedIf s .cost t.costCenterCode
  report : ∀ j r, s.reports.get j = some r →
    NamedIf s .fund r.fundCenterCode ∧ NamedIf s .cost r.costCenterCode
  item : ∀ k it, s.items.get k = some it →
    NamedIf s .fund it.fundCenterCode ∧ NamedIf s .cost it.costCenterCode
  charged : ∀ k it r, s.items.get k = some it → s.reports.get it.reportId = some r →
    r.status = .submitted ∨ r.status = .approved → Charged s it r

variable {s s' : Store} {env : Env} {user : CurrentUser} {now : Instant} {ws : List Write}
  {kind : CenterKind} {code : String} {o : Option String} {it : ExpenseItem} {r : ExpenseReport}

theorem NamedIf.mono (h : NamedIf s kind o)
    (hstep : ∀ c, o = some c → Named s kind c → Named s' kind c) : NamedIf s' kind o :=
  fun c hc => hstep c hc (h c hc)

theorem namedIf_none : NamedIf s kind none := nofun

theorem Charged.mono (h : Charged s it r)
    (hfund : ∀ c, effectiveCenter it.fundCenterCode r.fundCenterCode = some c →
      Named s .fund c → Named s' .fund c)
    (hcost : ∀ c, effectiveCenter it.costCenterCode r.costCenterCode = some c →
      Named s .cost c → Named s' .cost c) : Charged s' it r := by
  obtain ⟨⟨f, hf, hfn⟩, c, hc, hcn⟩ := h
  exact ⟨⟨f, hf, hfund f hf hfn⟩, c, hc, hcost c hc hcn⟩

/-! ## Looking a code up -/

theorem named_of_active (h : code ∈ loadActiveCenterCodes s kind) : Named s kind code := by
  obtain ⟨p, hp, rfl⟩ := List.mem_map.mp h
  exact ⟨p.1, p.2, Table.mem_rows.mp (List.mem_filter.mp hp).1, rfl⟩

theorem named_of_assertFundCenter (h : assertFundCenter s o = .ok ()) :
    ∃ c, o = some c ∧ Named s .fund c := by
  obtain ⟨c, hc, rfl⟩ := guardE_eq_ok.mp h
  exact ⟨c, rfl, named_of_active hc⟩

theorem named_of_assertCostCenter (h : assertCostCenter s o = .ok ()) :
    ∃ c, o = some c ∧ Named s .cost c := by
  obtain ⟨c, hc, rfl⟩ := guardE_eq_ok.mp h
  exact ⟨c, rfl, named_of_active hc⟩

/-- The codes that are sent name rows. -/
theorem namedIf_of_validateCenters {o' : Option String} (h : validateCenters s o o' = .ok ()) :
    NamedIf s .fund o ∧ NamedIf s .cost o' := by
  simp only [validateCenters, bind_eq_ok, checkSome_eq_ok] at h
  obtain ⟨_, hfund, hcost⟩ := h
  constructor
  · intro c hc
    obtain ⟨c', hc', hnamed⟩ := named_of_assertFundCenter (hfund c hc)
    exact Option.some.inj hc' ▸ hnamed
  · intro c hc
    obtain ⟨c', hc', hnamed⟩ := named_of_assertCostCenter (hcost c hc)
    exact Option.some.inj hc' ▸ hnamed

/-- So does the column they are written over. -/
theorem NamedIf.setNullable {f : Sent String} (hsent : NamedIf s kind f.val?)
    (hcur : NamedIf s kind o) : NamedIf s kind (f.setNullable o) := by
  cases f with
  | absent => exact hcur
  | null => exact namedIf_none
  | value a => exact hsent

theorem effectiveCenter_cases {a b : Option String} (hb : b = some code) :
    effectiveCenter a b = a ∧ (∃ c, a = some c) ∨ effectiveCenter a b = some code := by
  cases a with
  | none => exact .inr hb
  | some c => exact .inl ⟨rfl, c, rfl⟩

/-- A header with both centers charges every item. -/
theorem charged_of_header
    (hit : NamedIf s .fund it.fundCenterCode ∧ NamedIf s .cost it.costCenterCode)
    (hfund : ∃ c, r.fundCenterCode = some c ∧ Named s .fund c)
    (hcost : ∃ c, r.costCenterCode = some c ∧ Named s .cost c) : Charged s it r := by
  obtain ⟨f, hf, hfn⟩ := hfund
  obtain ⟨c, hc, hcn⟩ := hcost
  constructor
  · rcases effectiveCenter_cases hf with ⟨heq, c', hc'⟩ | heq
    · exact ⟨c', heq.trans hc', hit.1 c' hc'⟩
    · exact ⟨f, heq, hfn⟩
  · rcases effectiveCenter_cases hc with ⟨heq, c', hc'⟩ | heq
    · exact ⟨c', heq.trans hc', hit.2 c' hc'⟩
    · exact ⟨c, heq, hcn⟩

/-! ## Desk requests -/

theorem TripDeed.named {call : TripCall} (h : CentersNamed s)
    (deed : TripDeed s env user call ws) :
    ∀ p ∈ tripRows s ws, NamedIf s .cost p.2.costCenterCode := by
  have old : ∀ {i : Int} {t : Trip}, loadVisibleTrip s i user = .ok t →
      NamedIf s .cost t.costCenterCode := fun load => h.trip _ _ (loadVisibleTrip_eq_ok.mp load).2.1
  cases deed with
  | create new records => simpa [new.costCenterCode] using namedIf_none
  | delete load owner status => simp
  | update load owner editable assigned range same records =>
    have hold := old load
    simpa [same.costCenterCode] using hold
  | submit load owner status range approver moved records =>
    have hold := old load
    simpa [moved] using hold
  | approve load approver status moved records =>
    have hold := old load
    simpa [moved] using hold
  | reject load approver status given moved records =>
    have hold := old load
    simpa [moved] using hold
  | reopen load owner status moved records =>
    have hold := old load
    simpa [moved] using hold
  | complete load owner status ended moved records =>
    have hold := old load
    simpa [moved] using hold

theorem ExpenseDeed.tripsNamed {call : ExpenseCall} (h : CentersNamed s)
    (deed : ExpenseDeed s env user call ws) :
    ∀ p ∈ tripRows s ws, NamedIf s .cost p.2.costCenterCode := by
  cases deed with
  | approve load approver status trip completed moved settled records records' =>
    have hold := h.trip _ _ trip
    simpa [settled] using hold
  | _ => simp

/-- A report inherits its cost center from its trip; later codes are looked up. -/
theorem ExpenseDeed.reportsNamed {call : ExpenseCall} (h : CentersNamed s)
    (deed : ExpenseDeed s env user call ws) :
    ∀ p ∈ reportRows s ws,
      NamedIf s .fund p.2.fundCenterCode ∧ NamedIf s .cost p.2.costCenterCode := by
  have old : ∀ {j : Int} {r : ExpenseReport}, loadVisibleReport s j user = .ok r →
      NamedIf s .fund r.fundCenterCode ∧ NamedIf s .cost r.costCenterCode :=
    fun load => h.report _ _ (loadVisibleReport_eq_ok.mp load).2.1
  cases deed with
  | create load owner reportable single new records =>
    have htrip := h.trip _ _ (loadVisibleTrip_eq_ok.mp load).2.1
    simpa [new.fundCenterCode, new.costCenterCode] using ⟨namedIf_none, htrip⟩
  | update load centers assigned records =>
    have hold := old (loadEditableReport_eq_ok.mp load).1
    obtain ⟨hfund, hcost⟩ := namedIf_of_validateCenters centers
    simpa [assigned] using ⟨hfund.setNullable hold.1, hcost.setNullable hold.2⟩
  | addItem load | updateItem int4 get load | deleteItem int4 get load =>
    have hold := old (loadEditableReport_eq_ok.mp load).1
    simpa using hold
  | submit load owner status trip completed present centers items recalc approver moved records =>
    have hold := old load
    simpa [moved] using hold
  | approve load approver status trip completed moved settled records records' =>
    have hold := old load
    simpa [moved] using hold
  | reject load approver status given moved records =>
    have hold := old load
    simpa [moved] using hold
  | reopen load owner status moved records =>
    have hold := old load
    simpa [moved] using hold

/-- What `update_item` writes over the centers of an item. -/
theorem assignItem_centers {it' : ExpenseItem} {payload : ExpenseItemUpdate}
    (h : assignItem it payload = .ok it') :
    it'.fundCenterCode = (payload.fundCenterCode.map Str.val).setNullable it.fundCenterCode ∧
      it'.costCenterCode = (payload.costCenterCode.map Str.val).setNullable it.costCenterCode := by
  simp only [assignItem, bind_eq_ok, pure_eq_ok, Except.ok.injEq] at h
  obtain ⟨_, -, _, -, _, -, _, -, rfl⟩ := h
  exact ⟨rfl, rfl⟩

theorem ExpenseDeed.itemsNamed {call : ExpenseCall} (h : CentersNamed s)
    (deed : ExpenseDeed s env user call ws) :
    ∀ p ∈ itemRows s ws,
      NamedIf s .fund p.2.fundCenterCode ∧ NamedIf s .cost p.2.costCenterCode := by
  cases deed with
  | addItem load new flush recalc =>
    have hnew := namedIf_of_validateCenters new.centers
    simpa using hnew
  | updateItem int4 get load checked assigned flush recalc =>
    have hold := h.item _ _ get
    simp only [validateItemChanges, bind_eq_ok] at checked
    obtain ⟨_, -, _, hcenters, -⟩ := checked
    obtain ⟨hfund, hcost⟩ := namedIf_of_validateCenters hcenters
    obtain ⟨hf, hc⟩ := assignItem_centers assigned
    simpa [hf, hc] using ⟨hfund.setNullable hold.1, hcost.setNullable hold.2⟩
  | _ => simp

/-- A report that is submitted or approved charges the items of `s'`. -/
def ChargesItems (s s' : Store) (j : Int) (r : ExpenseReport) : Prop :=
  r.status = .submitted ∨ r.status = .approved →
    ∀ k it, s'.items.get k = some it → it.reportId = j → Charged s it r

/-- While a report is submitted or approved, its items are the ones of before. -/
theorem item_of_untouched (huntouched : Untouched s s') {j k : Int}
    (hr : s.reports.get j = some r) (hlocked : r.status = .submitted ∨ r.status = .approved)
    (hit : s'.items.get k = some it) (hj : it.reportId = j) : s.items.get k = some it := by
  have hmem : (k, it) ∈ itemsOf s' j :=
    List.mem_filter.mpr ⟨Table.mem_rows.mpr hit, by simp [hj]⟩
  rw [(huntouched.report j r hr hlocked).1] at hmem
  exact Table.mem_rows.mp (List.mem_filter.mp hmem).1

theorem ExpenseDeed.charges {call : ExpenseCall} (h : CentersNamed s)
    (deed : ExpenseDeed s env user call ws) (huntouched : Untouched s s')
    (hitems : ∀ k it, s'.items.get k = some it →
      NamedIf s .fund it.fundCenterCode ∧ NamedIf s .cost it.costCenterCode) :
    ∀ p ∈ reportRows s ws, ChargesItems s s' p.1 p.2 := by
  cases deed with
  | create load owner reportable single new records => simp [ChargesItems, new.status]
  | update load centers assigned records =>
    have editable := (loadEditableReport_eq_ok.mp load).2.2
    rcases mem_expenseEditableStatuses.mp editable with hst | hst <;>
      simp [ChargesItems, assigned, hst]
  | addItem load | updateItem int4 get load | deleteItem int4 get load =>
    have editable := (loadEditableReport_eq_ok.mp load).2.2
    rcases mem_expenseEditableStatuses.mp editable with hst | hst <;> simp [ChargesItems, hst]
  | @submit j r r' _ _ _ _ load owner status trip completed present centers items recalc approver
      moved records =>
    have hnew : ChargesItems s s' j r' := by
      intro _ k it hit _
      subst moved
      exact charged_of_header (hitems k it hit) (named_of_assertFundCenter centers.1)
        (named_of_assertCostCenter centers.2)
    simpa using hnew
  | @approve j r r' _ _ _ _ load approver status trip completed moved settled records records' =>
    have hget := (loadVisibleReport_eq_ok.mp load).2.1
    have hnew : ChargesItems s s' j r' := by
      intro _ k it hit hj
      have hold := item_of_untouched huntouched hget (.inl status) hit hj
      have hcharged := h.charged k it r hold (hj ▸ hget) (.inl status)
      subst moved
      exact hcharged
    simpa using hnew
  | reject load approver status given moved records => simp [ChargesItems, moved]
  | reopen load owner status moved records => simp [ChargesItems, moved]

theorem CentersNamed.deskStep {req : DeskRequest} (h : CentersNamed s)
    (hstep : desk.step s req = .ok s') : CentersNamed s' := by
  obtain ⟨p, hplan, hcommit⟩ := bind_eq_ok.mp hstep
  obtain ⟨user, -, deed⟩ := deed_of_plan hplan
  have hc := Plan.commit_eq_ok.mp hcommit
  have hdrawn := deed.rows hc
  have huntouched := deed.untouched hc (.refl s) deed.stillOpen
  have hsame := sameMasters_of_deed deed hc
  have hnamed : ∀ {kind code}, Named s kind code → Named s' kind code := by
    intro kind code
    simp only [Named, hsame.centers]
    exact id
  -- with respect to the masters of `s`, which stay
  have hrows : (∀ i t, s'.trips.get i = some t → NamedIf s .cost t.costCenterCode) ∧
      (∀ j r, s'.reports.get j = some r →
        NamedIf s .fund r.fundCenterCode ∧ NamedIf s .cost r.costCenterCode) ∧
      (∀ k it, s'.items.get k = some it →
        NamedIf s .fund it.fundCenterCode ∧ NamedIf s .cost it.costCenterCode) ∧
      ∀ j r, s'.reports.get j = some r → ChargesItems s s' j r := by
    generalize req.call = call at deed
    cases deed with
    | trip deed =>
      obtain ⟨hreports, hitems⟩ := deed.tables hc
      refine ⟨hdrawn.trips.forall (K := fun _ t => NamedIf s .cost t.costCenterCode)
        (fun _ _ _ => id) h.trip (TripDeed.named h deed), hreports ▸ h.report, hitems ▸ h.item, ?_⟩
      rw [hreports]
      intro j r hr hlocked k it hit hj
      rw [hitems] at hit
      exact h.charged k it r hit (hj ▸ hr) hlocked
    | expense deed =>
      have hitems := hdrawn.items.forall
        (K := fun _ it => NamedIf s .fund it.fundCenterCode ∧ NamedIf s .cost it.costCenterCode)
        (fun _ _ _ => id) h.item (ExpenseDeed.itemsNamed h deed)
      refine ⟨hdrawn.trips.forall (K := fun _ t => NamedIf s .cost t.costCenterCode)
          (fun _ _ _ => id) h.trip (ExpenseDeed.tripsNamed h deed),
        hdrawn.reports.forall
          (K := fun _ r => NamedIf s .fund r.fundCenterCode ∧ NamedIf s .cost r.costCenterCode)
          (fun _ _ _ => id) h.report (ExpenseDeed.reportsNamed h deed), hitems,
        hdrawn.reports.forall (K := ChargesItems s s') (fun _ _ _ => id)
          (fun j r hr hlocked k it hit hj => ?_) (ExpenseDeed.charges h deed huntouched hitems)⟩
      have hold := item_of_untouched huntouched hr hlocked hit hj
      exact h.charged k it r hold (hj ▸ hr) hlocked
  obtain ⟨htrips, hreports, hitems, hcharges⟩ := hrows
  exact ⟨fun i t ht => (htrips i t ht).mono fun _ _ => hnamed,
    fun j r hr => ⟨(hreports j r hr).1.mono fun _ _ => hnamed,
      (hreports j r hr).2.mono fun _ _ => hnamed⟩,
    fun k it hit => ⟨(hitems k it hit).1.mono fun _ _ => hnamed,
      (hitems k it hit).2.mono fun _ _ => hnamed⟩,
    fun k it r hit hr hlocked => (hcharges _ r hr hlocked k it hit rfl).mono
      (fun _ _ => hnamed) (fun _ _ => hnamed)⟩

/-! ## The administration of centers -/

theorem referenced_of_get {ρ β : Type} [DecidableEq β] {t : Table ρ} {column : ρ → β} {i : Int}
    {row : ρ} (h : t.get i = some row) : Store.referenced t column (column row) = true := by
  unfold Store.referenced Store.taken
  rw [List.any_eq_true]
  exact ⟨_, Table.mem_rows.mpr h, by simp⟩

theorem used_of_trip {i : Int} {t : Trip} (h : s.trips.get i = some t)
    (hc : t.costCenterCode = some code) : Used s .cost code :=
  ⟨_, List.mem_cons_self, hc ▸ referenced_of_get h⟩

theorem used_of_report {j : Int} (h : s.reports.get j = some r) :
    (r.fundCenterCode = some code → Used s .fund code) ∧
      (r.costCenterCode = some code → Used s .cost code) :=
  ⟨fun hc => ⟨_, List.mem_cons_self, hc ▸ referenced_of_get h⟩,
    fun hc => ⟨_, List.mem_cons_of_mem _ List.mem_cons_self, hc ▸ referenced_of_get h⟩⟩

theorem used_of_item {k : Int} (h : s.items.get k = some it) :
    (it.fundCenterCode = some code → Used s .fund code) ∧
      (it.costCenterCode = some code → Used s .cost code) :=
  ⟨fun hc => ⟨_, List.mem_cons_of_mem _ List.mem_cons_self, hc ▸ referenced_of_get h⟩,
    fun hc => ⟨_, List.mem_cons_of_mem _ (List.mem_cons_of_mem _ List.mem_cons_self),
      hc ▸ referenced_of_get h⟩⟩

theorem eq_some_of_effectiveCenter {a b : Option String} (h : effectiveCenter a b = some code) :
    a = some code ∨ b = some code := by
  cases a with
  | none => exact .inr h
  | some c => exact .inl h

theorem follows_code : Follows Center.code where
  merge h cur := by simp [merge, h]
  stamp _ _ := rfl

/-- A code that some column holds keeps its row. -/
theorem CenterDeed.named {w : RowWrite Center} {u : Table Center} (deed : CenterDeed s kind w)
    (ha : w.apply now Fault.staleData (s.centers kind) = .ok u) (hused : Used s kind code)
    (h : Named s kind code) : ∃ i c, u.get i = some c ∧ c.code = code := by
  obtain ⟨i, c, hget, rfl⟩ := h
  cases deed with
  | create =>
    rw [RowWrite.apply_insert, Except.ok.injEq] at ha
    subst ha
    exact ⟨i, c, Table.get_insert_of_some hget, rfl⟩
  | update get hcode =>
    exact ⟨i, Retains.of_writtenBack follows_code hcode (writtenBack_of_apply ha) i c hget⟩
  | @delete i' c' get unused =>
    rw [RowWrite.apply_delete, Except.ok.injEq] at ha
    subst ha
    have hne : i ≠ i' := by
      rintro rfl
      rw [hget, Option.some.injEq] at get
      exact unused (get ▸ hused)
    exact ⟨i, c, by rw [Table.get_delete, if_neg hne, hget], rfl⟩

/-- A statement on the masters leaves a row for every code that is in use. -/
theorem MasterDeed.named {w : Write} (deed : MasterDeed s w) (h : s.flush now w = .ok s')
    (hused : Used s kind code) (hnamed : Named s kind code) : Named s' kind code := by
  obtain ⟨_, -, h⟩ := bind_eq_ok.mp h
  cases deed with
  | @center kind' w deed =>
    obtain ⟨u, happly, h⟩ := bind_eq_ok.mp h
    rw [pure_eq_ok, Except.ok.injEq] at h
    subst h
    cases kind <;> cases kind' <;>
      first
        | exact deed.named happly hused hnamed
        | exact hnamed
  | department w | codeGroup w | code w | card deed =>
    obtain ⟨u, -, h⟩ := bind_eq_ok.mp h
    rw [pure_eq_ok, Except.ok.injEq] at h
    subst h
    cases kind <;> exact hnamed

theorem CentersNamed.of_sameDesk (h : CentersNamed s) (hdesk : SameDesk s s')
    (hnamed : ∀ {kind code}, Used s kind code → Named s kind code → Named s' kind code) :
    CentersNamed s' where
  trip i t ht := by
    rw [hdesk.trips] at ht
    exact (h.trip i t ht).mono fun c hc => hnamed (used_of_trip ht hc)
  report j r hr := by
    rw [hdesk.reports] at hr
    obtain ⟨hfund, hcost⟩ := h.report j r hr
    exact ⟨hfund.mono fun c hc => hnamed ((used_of_report hr).1 hc),
      hcost.mono fun c hc => hnamed ((used_of_report hr).2 hc)⟩
  item k it hit := by
    rw [hdesk.items] at hit
    obtain ⟨hfund, hcost⟩ := h.item k it hit
    exact ⟨hfund.mono fun c hc => hnamed ((used_of_item hit).1 hc),
      hcost.mono fun c hc => hnamed ((used_of_item hit).2 hc)⟩
  charged k it r hit hr hlocked := by
    rw [hdesk.items] at hit
    rw [hdesk.reports] at hr
    refine (h.charged k it r hit hr hlocked).mono (fun c hc => ?_) (fun c hc => ?_)
    · rcases eq_some_of_effectiveCenter hc with hc | hc
      · exact hnamed ((used_of_item hit).1 hc)
      · exact hnamed ((used_of_report hr).1 hc)
    · rcases eq_some_of_effectiveCenter hc with hc | hc
      · exact hnamed ((used_of_item hit).2 hc)
      · exact hnamed ((used_of_report hr).2 hc)

/-! ## Runs -/

theorem CentersNamed.step {sec : Security} {req : Request Call} (h : CentersNamed s)
    (hstep : (system sec).step s req = .ok s') : CentersNamed s' := by
  rcases system_step_cases hstep with ⟨userId, call, -, hdesk⟩ | hdesk
  · exact h.deskStep hdesk
  obtain ⟨p, hplan, hcommit⟩ := bind_eq_ok.mp hstep
  have hc := Plan.commit_eq_ok.mp hcommit
  refine h.of_sameDesk hdesk fun {kind code} hused hnamed => ?_
  rcases systemDeed_of_plan hplan with ⟨w, hw, deed⟩ | hother
  · rw [hw, List.foldlM_cons] at hc
    obtain ⟨s₁, hflush, hc⟩ := bind_eq_ok.mp hc
    rw [List.foldlM_nil, pure_eq_ok, Except.ok.injEq] at hc
    subst hc
    exact deed.named hflush hused hnamed
  · have hsame := sameMasters_of_flushes hother hc
    simpa only [Named, hsame.centers] using hnamed

/-- From any store where the center codes name rows, they still do after any serial run of center
administration and of trip and report calls (and of whatever else the system does), and every item
of a submitted or approved report has both its centers. -/
theorem center_codes_never_dangle (sec : Security) {s₀ : Store} (h₀ : CentersNamed s₀)
    (reqs : List (Request Call)) : CentersNamed (Run.all (system sec).step s₀ reqs) :=
  Run.invariant_of_step (fun _ _ _ hs hstep => hs.step hstep) h₀

/-- In the office, also after an attempt to delete the fund center of a submitted report. -/
theorem center_codes_never_dangle_office :
    CentersNamed (Run.all (system Office.sec).step Office.store
      (((Office.tripDone 1 ++ Office.reportSubmitted 1).map fun r =>
          ⟨r.env, .desk r.userId r.call⟩) ++
        [⟨Office.env, .master (.deleteCenter .fund 1)⟩])) := by
  have hnone : Office.store.trips.rows = [] ∧ Office.store.reports.rows = [] ∧
      Office.store.items.rows = [] := ⟨rfl, rfl, rfl⟩
  refine center_codes_never_dangle Office.sec ⟨?_, ?_, ?_, ?_⟩ _
  · intro i t ht
    simp [Table.get_of_rows_nil hnone.1] at ht
  · intro j r hr
    simp [Table.get_of_rows_nil hnone.2.1] at hr
  · intro k it hit
    simp [Table.get_of_rows_nil hnone.2.2] at hit
  · intro k it r hit
    simp [Table.get_of_rows_nil hnone.2.2] at hit

end Biztrip.Masters
