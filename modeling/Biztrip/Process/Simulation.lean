import Biztrip.Desk.Coupling
import Biztrip.Lib.Refine
import Biztrip.Process.Course

/-!
# The desk runs the business process

`caseOf` reads the case of a trip off its row and that of its report, and `labelOf` tells which
move a call stands for. In a state where trips and reports are coupled and every trip is in some
phase (`Whole`), a request that succeeds makes that move and no other; edits, and everything that
is not of the desk, make none.
-/

namespace Biztrip.Process

open Biztrip.Lib Biztrip.Desk Trips Expenses

/-! ## Phases and statuses -/

/-- The status of the trip in a phase. -/
def Phase.trip : Phase → TripStatus
  | .drafted => .draft
  | .submitted => .submitted
  | .rejected => .rejected
  | .underway _ => .approved
  | .completed | .reporting | .claimed | .disputed => .completed
  | .settled => .settled

/-- The status of the report, if there is one. -/
def Phase.report? : Phase → Option ExpenseReportStatus
  | .underway true | .reporting => some .draft
  | .claimed => some .submitted
  | .disputed => some .rejected
  | .settled => some .approved
  | _ => none

def phaseOf : TripStatus → Option ExpenseReportStatus → Option Phase
  | .draft, none => some .drafted
  | .submitted, none => some .submitted
  | .rejected, none => some .rejected
  | .approved, none => some (.underway false)
  | .approved, some .draft => some (.underway true)
  | .completed, none => some .completed
  | .completed, some .draft => some .reporting
  | .completed, some .submitted => some .claimed
  | .completed, some .rejected => some .disputed
  | .settled, some .approved => some .settled
  | _, _ => none

theorem phaseOf_phase (p : Phase) : phaseOf p.trip p.report? = some p := by
  cases p with
  | underway begun => cases begun <;> rfl
  | _ => rfl

theorem phaseOf_eq_some {t : TripStatus} {r : Option ExpenseReportStatus} {p : Phase} :
    phaseOf t r = some p ↔ p.trip = t ∧ p.report? = r := by
  constructor
  · intro h
    unfold phaseOf at h
    split at h
    all_goals first | (obtain rfl := Option.some.inj h; exact ⟨rfl, rfl⟩) | cases h
  · rintro ⟨rfl, rfl⟩
    exact phaseOf_phase p

/-! ## The cases of a store -/

/-- `ExpenseReport.trip_id` is unique. -/
def reportOf (s : Store) (i : Int) : Option ExpenseReport :=
  (s.reports.rows.find? fun p => decide (p.2.tripId = i)).map Prod.snd

def caseOf (s : Store) : Cases := fun i => do
  let t ← s.trips.get i
  let phase ← phaseOf t.status ((reportOf s i).map ExpenseReport.status)
  return ⟨t.userId, t.approverId, phase⟩

/-- The trip that a call on a report is about. -/
def onReport (s : Store) (reportId : Int) (a : Act) : Option (Int × Move) :=
  (s.reports.get reportId).map fun r => (r.tripId, .act a)

def moveOf (s : Store) : DeskCall → Option (Int × Move)
  | .trip (.create _) => some (s.trips.next, .begin)
  | .trip (.update _ _) => none
  | .trip (.delete i) => some (i, .drop)
  | .trip (.submit i) => some (i, .act .submit)
  | .trip (.approve i) => some (i, .act .approve)
  | .trip (.reject i _) => some (i, .act .reject)
  | .trip (.reopen i) => some (i, .act .reopen)
  | .trip (.complete i) => some (i, .act .complete)
  | .expense (.create payload) => some (payload.tripId, .act .report)
  | .expense (.submit j) => onReport s j .claim
  | .expense (.approve j) => onReport s j .settle
  | .expense (.reject j _) => onReport s j .dispute
  | .expense (.reopen j) => onReport s j .revise
  | .expense (.update _ _) | .expense (.addItem _ _) | .expense (.updateItem _ _)
  | .expense (.deleteItem _) => none

/-- The label of a call whose user and whose rows have been read in `seen`. -/
def labelFrom (seen s : Store) (userId : Int) (call : DeskCall) : Option Label :=
  (moveOf s call).map fun m => ⟨userId, (seen.users.get userId).bind User.managerId, m.1, m.2⟩

def labelOf (s : Store) : Int → DeskCall → Option Label := labelFrom s s

/-- The trip that a call is about. -/
def subject (s : Store) : DeskCall → Option Int
  | .trip (.create _) => none
  | .trip (.update i _) | .trip (.delete i) | .trip (.submit i) | .trip (.approve i)
  | .trip (.reject i _) | .trip (.reopen i) | .trip (.complete i) => some i
  | .expense (.create payload) => some payload.tripId
  | .expense (.update j _) | .expense (.addItem j _) | .expense (.submit j)
  | .expense (.approve j) | .expense (.reject j _) | .expense (.reopen j) =>
    (s.reports.get j).map ExpenseReport.tripId
  | .expense (.updateItem k _) | .expense (.deleteItem k) => do
    let it ← s.items.get k
    (s.reports.get it.reportId).map ExpenseReport.tripId

/-- The rows of a case that have been read in `seen` are still what they were. -/
structure SameCase (i : Int) (seen s : Store) : Prop where
  trip : ∀ t, seen.trips.get i = some t → s.trips.get i = some t
  report : ∀ j r, seen.reports.get j = some r → r.tripId = i → s.reports.get j = some r

theorem SameCase.refl (i : Int) (s : Store) : SameCase i s s := ⟨fun _ => id, fun _ _ h _ => h⟩

theorem SameCase.trans {i : Int} {s₁ s₂ s₃ : Store} (h : SameCase i s₁ s₂)
    (h' : SameCase i s₂ s₃) : SameCase i s₁ s₃ where
  trip t ht := h'.trip t (h.trip t ht)
  report j r hj hi := h'.report j r (h.report j r hj hi) hi

structure Whole (s : Store) : Prop where
  coupled : Coupled s
  /-- Every trip is in some phase. -/
  placed : ∀ i, (caseOf s i).isSome = (s.trips.get i).isSome

variable {s s' : Store} {i j : Int} {t t' : Trip} {r r' : ExpenseReport} {c : Case} {p q : Phase}

theorem caseOf_eq_some : caseOf s i = some c ↔ ∃ t, s.trips.get i = some t ∧
    c.phase.trip = t.status ∧ c.phase.report? = (reportOf s i).map ExpenseReport.status ∧
      c = ⟨t.userId, t.approverId, c.phase⟩ := by
  simp only [caseOf, Option.bind_eq_bind, Option.bind_eq_some_iff, Option.pure_def,
    Option.some.injEq, phaseOf_eq_some]
  constructor
  · rintro ⟨t, ht, p, ⟨htrip, hreport⟩, rfl⟩
    exact ⟨t, ht, htrip, hreport, rfl⟩
  · rintro ⟨t, ht, htrip, hreport, hc⟩
    exact ⟨t, ht, c.phase, ⟨htrip, hreport⟩, hc.symm⟩

theorem caseOf_of_trip (ht : s.trips.get i = some t) (htrip : p.trip = t.status)
    (hreport : p.report? = (reportOf s i).map ExpenseReport.status) :
    caseOf s i = some ⟨t.userId, t.approverId, p⟩ :=
  caseOf_eq_some.mpr ⟨t, ht, htrip, hreport, rfl⟩

theorem caseOf_eq_none (h : s.trips.get i = none) : caseOf s i = none := by
  simp [caseOf, h]

theorem Whole.case (h : Whole s) (ht : s.trips.get i = some t) :
    ∃ p : Phase, caseOf s i = some ⟨t.userId, t.approverId, p⟩ ∧ p.trip = t.status ∧
      p.report? = (reportOf s i).map ExpenseReport.status := by
  have hsome : (caseOf s i).isSome := by rw [h.placed, ht]; rfl
  obtain ⟨c, hc⟩ := Option.isSome_iff_exists.mp hsome
  obtain ⟨t₀, ht₀, htrip, hreport, hcase⟩ := caseOf_eq_some.mp hc
  obtain rfl : t₀ = t := Option.some.inj (ht₀.symm.trans ht)
  exact ⟨c.phase, hc.trans (congrArg some hcase), htrip, hreport⟩

/-! ## The report of a trip -/

theorem reportOf_eq_some (h : Coupled s) :
    reportOf s i = some r ↔ ∃ j, s.reports.get j = some r ∧ r.tripId = i := by
  constructor
  · intro hr
    obtain ⟨⟨j, r₀⟩, hfind, rfl⟩ := Option.map_eq_some_iff.mp hr
    have htrip : r₀.tripId = i := of_decide_eq_true (List.find?_some hfind :)
    exact ⟨j, Table.mem_rows.mp (List.mem_of_find?_eq_some hfind), htrip⟩
  · rintro ⟨j, hj, rfl⟩
    have hsome : (s.reports.rows.find? fun p => decide (p.2.tripId = r.tripId)).isSome :=
      List.find?_isSome.mpr ⟨_, Table.mem_rows.mpr hj, decide_eq_true rfl⟩
    obtain ⟨⟨j₀, r₀⟩, hfind⟩ := Option.isSome_iff_exists.mp hsome
    have hj₀ := Table.mem_rows.mp (List.mem_of_find?_eq_some hfind)
    have htrip : r₀.tripId = r.tripId := of_decide_eq_true (List.find?_some hfind :)
    obtain rfl := h.single j₀ j r₀ r hj₀ hj htrip
    rw [reportOf, hfind, Option.map_some]
    exact hj₀.symm.trans hj

theorem reportOf_congr (h : s'.reports = s.reports) : reportOf s' i = reportOf s i := by
  rw [reportOf, reportOf, h]

/-- The report of one trip changes, and that of no other. -/
theorem reportOf_updated (h : Coupled s) (h' : Coupled s') (hj : s.reports.get j = some r)
    (hu : Updated s.reports s'.reports j r') (htrip : r'.tripId = r.tripId) :
    (reportOf s' r.tripId).map ExpenseReport.status = some r'.status ∧
      ∀ i, i ≠ r.tripId → reportOf s' i = reportOf s i := by
  obtain ⟨at₀, hself⟩ := hu.get_self
  refine ⟨?_, fun i hi => Option.ext fun x => ?_⟩
  · rw [(reportOf_eq_some h').mpr ⟨j, hself, htrip⟩]
    rfl
  · rw [reportOf_eq_some h, reportOf_eq_some h']
    constructor
    · rintro ⟨k, hk, hx⟩
      rcases hu.cases hk with ⟨-, now, rfl⟩ | ⟨-, hk⟩
      · exact absurd (hx.symm.trans htrip) hi
      · exact ⟨k, hk, hx⟩
    · rintro ⟨k, hk, hx⟩
      have hkj : k ≠ j := by
        rintro rfl
        rw [hj, Option.some.injEq] at hk
        exact hi (hk ▸ hx.symm)
      exact ⟨k, (hu.get_of_ne hkj).trans hk, hx⟩

theorem reportOf_inserted (h : Coupled s) (h' : Coupled s')
    (hr : s'.reports = s.reports.insert r) :
    reportOf s' r.tripId = some r ∧ ∀ i, i ≠ r.tripId → reportOf s' i = reportOf s i := by
  refine ⟨(reportOf_eq_some h').mpr ⟨s.reports.next, ?_, rfl⟩, fun i hi => Option.ext fun x => ?_⟩
  · rw [hr, Table.get_insert_next]
  · rw [reportOf_eq_some h, reportOf_eq_some h', hr]
    constructor
    · rintro ⟨k, hk, hx⟩
      rcases Table.get_insert_eq_some hk with ⟨-, rfl⟩ | ⟨-, hk⟩
      · exact absurd hx.symm hi
      · exact ⟨k, hk, hx⟩
    · rintro ⟨k, hk, hx⟩
      exact ⟨k, Table.get_insert_of_some hk, hx⟩

/-! ## One case changes -/

theorem caseOf_congr (ht : s'.trips.get i = s.trips.get i) (hr : reportOf s' i = reportOf s i) :
    caseOf s' i = caseOf s i := by
  rw [caseOf, caseOf, ht, hr]

/-- The step of a request, as the process and the invariant see it. -/
structure Stepped (s s' : Store) (l : Label) : Prop where
  moved : step (caseOf s) l = some (caseOf s')
  whole : Whole s'

theorem stepped_of_case {l : Label} {o : Option Case} (h : Whole s) (h' : Coupled s')
    (hmove : l.move? (caseOf s l.trip) = some o) (ho : caseOf s' l.trip = o)
    (hplaced : o.isSome = (s'.trips.get l.trip).isSome)
    (hne : ∀ k, k ≠ l.trip → s'.trips.get k = s.trips.get k ∧ reportOf s' k = reportOf s k) :
    Stepped s s' l where
  moved := by
    refine step_eq_some.mpr ⟨o, hmove, funext fun k => ?_⟩
    by_cases hk : k = l.trip
    · rw [hk, Function.update_self, ho]
    · rw [Function.update_of_ne hk, caseOf_congr (hne k hk).1 (hne k hk).2]
  whole := by
    refine ⟨h', fun k => ?_⟩
    by_cases hk : k = l.trip
    · rw [hk, ho, hplaced]
    · rw [caseOf_congr (hne k hk).1 (hne k hk).2, (hne k hk).1, h.placed]

/-- An act on a case whose row has the old status leaves a case whose row has the new one. -/
theorem stepped_of_act {actor : Int} {manager : Option Int} {a : Act} (h : Whole s)
    (h' : Coupled s') (ht : s.trips.get i = some t) (hu : Updated s.trips s'.trips i t')
    (howner : t'.userId = t.userId) (hon : Case.On ⟨t.userId, t.approverId, .drafted⟩ actor a.side)
    (happrover : Case.approverAfter ⟨t.userId, t.approverId, .drafted⟩ manager a =
      some t'.approverId)
    (hnext : ∀ p : Phase, p.trip = t.status →
      p.report? = (reportOf s i).map ExpenseReport.status → ∃ q, p.next a = some q ∧
        q.trip = t'.status ∧ q.report? = (reportOf s' i).map ExpenseReport.status)
    (hne : ∀ k, k ≠ i → reportOf s' k = reportOf s k) :
    Stepped s s' ⟨actor, manager, i, .act a⟩ := by
  obtain ⟨p, hcase, htrip, hreport⟩ := h.case ht
  obtain ⟨q, hq, htrip', hreport'⟩ := hnext p htrip hreport
  obtain ⟨at₀, hself⟩ := hu.get_self
  have hcase' : caseOf s' i = some ⟨t'.userId, t'.approverId, q⟩ :=
    caseOf_of_trip (t := { t' with updatedAt := at₀ }) hself htrip' hreport'
  refine stepped_of_case h h' ?_ hcase' ?_ fun k hk => ⟨hu.get_of_ne hk, hne k hk⟩
  · have hact : Case.act ⟨t.userId, t.approverId, p⟩ actor manager a =
        some ⟨t'.userId, t'.approverId, q⟩ := by
      refine act_eq_some.mpr ⟨?_, hq, ?_, howner⟩
      · cases hside : a.side <;> rw [hside] at hon <;> exact hon
      · cases a <;> exact happrover
    rw [hcase]
    exact congrArg (Option.map some) hact
  · rw [hself]
    rfl

/-- A row that is not written counts as written back as it is. -/
theorem updated_self (ht : s.trips.get i = some t) (htrips : s'.trips = s.trips) :
    Updated s.trips s'.trips i t := by
  obtain ⟨at₀, hat⟩ := exists_stamp t
  refine ⟨at₀, fun k => ?_⟩
  rw [htrips, hat]
  split
  · next hk => rw [hk, ht]
  · rfl

/-! ## One request -/

variable {seen : Store} {env : Env} {user : CurrentUser} {ws : List Write} {now : Instant}

/-- A request that makes no move leaves every case as it is. -/
structure Idle (s s' : Store) : Prop where
  same : caseOf s' = caseOf s
  whole : Whole s'

/-- What a request comes to: the move that its label names, or none. -/
def Comes (s s' : Store) : Option Label → Prop
  | none => Idle s s'
  | some l => Stepped s s' l

theorem idle_of_same (h : Whole s) (h' : Coupled s')
    (hcases : ∀ k, caseOf s' k = caseOf s k)
    (htrips : ∀ k, (s'.trips.get k).isSome = (s.trips.get k).isSome) : Idle s s' where
  same := funext hcases
  whole := ⟨h', fun k => by rw [hcases, htrips, h.placed]⟩

/-- A report that keeps its status and its trip. -/
theorem idle_of_report (h : Whole s) (h' : Coupled s') (hj : s.reports.get j = some r)
    (hu : Updated s.reports s'.reports j r') (htrip : r'.tripId = r.tripId)
    (hstatus : r'.status = r.status) (htrips : s'.trips = s.trips) : Idle s s' := by
  obtain ⟨hself, hne⟩ := reportOf_updated h.coupled h' hj hu htrip
  refine idle_of_same h h' (fun k => ?_) fun k => by rw [htrips]
  by_cases hk : k = r.tripId
  · have hsame : (reportOf s' k).map ExpenseReport.status =
        (reportOf s k).map ExpenseReport.status := by
      rw [hk, hself, (reportOf_eq_some h.coupled).mpr ⟨j, hj, rfl⟩, hstatus]
      rfl
    rw [caseOf, caseOf, htrips, hsame]
  · exact caseOf_congr (by rw [htrips]) (hne k hk)

/-- A trip that is edited in place has no report. -/
theorem updates_stay (h : Whole s) (ht : s.trips.get i = some t)
    (hu : Updated s.trips s'.trips i t') (same : SameCourse t t')
    (hstatus : t.status = .draft ∨ t.status = .rejected) (hr : s'.reports = s.reports) :
    Idle s s' := by
  have h' : Coupled s' := by
    refine h.coupled.tripUpdated ht hu hr (fun hnd => ?_) ?_ fun r hm =>
      absurd hm (not_matches (hstatus.imp_right .inr))
    · rw [same.approverId]
      rw [same.status] at hnd
      exact h.coupled.approver _ _ ht hnd
    · rw [same.status]
      rcases hstatus with hst | hst <;> simp [hst]
  obtain ⟨at₀, hself⟩ := hu.get_self
  refine idle_of_same h h' (fun k => ?_) fun k => ?_
  · by_cases hk : k = i
    · subst hk
      obtain ⟨p, hcase, htrip, hreport⟩ := h.case ht
      rw [hcase, ← same.userId, ← same.approverId]
      refine caseOf_of_trip (t := { t' with updatedAt := at₀ }) hself ?_ ?_
      · exact htrip.trans same.status.symm
      · rw [hreport, reportOf_congr hr]
    · exact caseOf_congr (hu.get_of_ne hk) (reportOf_congr hr)
  · by_cases hk : k = i
    · rw [hk, hself, ht]
      rfl
    · rw [hu.get_of_ne hk]

/-- No report has the number of a trip that is yet to come. -/
theorem reportOf_next (h : Coupled s) : reportOf s s.trips.next = none := by
  rcases hr : reportOf s s.trips.next with _ | r
  · rfl
  · obtain ⟨j, hj, htrip⟩ := (reportOf_eq_some h).mp hr
    obtain ⟨t, ht, -⟩ := h.report j r hj
    rw [htrip, Table.get_next] at ht
    cases ht

theorem begins {actor : Int} {manager : Option Int} (h : Whole s)
    (htrips : s'.trips = s.trips.insert t) (hreports : s'.reports = s.reports)
    (howner : t.userId = actor) (happrover : t.approverId = none) (hstatus : t.status = .draft) :
    Stepped s s' ⟨actor, manager, s.trips.next, .begin⟩ := by
  have h' : Coupled s' := h.coupled.tripInserted hstatus htrips hreports
  have hself : s'.trips.get s.trips.next = some t := by rw [htrips, Table.get_insert_next]
  have hcase : caseOf s' s.trips.next = some ⟨t.userId, t.approverId, .drafted⟩ := by
    refine caseOf_of_trip hself hstatus.symm ?_
    rw [reportOf_congr hreports, reportOf_next h.coupled]
    rfl
  rw [howner, happrover] at hcase
  refine stepped_of_case h h' ?_ hcase (by rw [hself]; rfl)
    fun k hk => ⟨?_, reportOf_congr hreports⟩
  · rw [caseOf_eq_none (Table.get_next s.trips)]
    rfl
  · rw [htrips, Table.get_insert, if_neg hk]

theorem drops {actor : Int} {manager : Option Int} (h : Whole s)
    (ht : s.trips.get i = some t) (howner : t.userId = actor) (hstatus : t.status = .draft)
    (htrips : s'.trips = s.trips.delete i) (hreports : s'.reports = s.reports) :
    Stepped s s' ⟨actor, manager, i, .drop⟩ := by
  have h' : Coupled s' := h.coupled.tripDeleted ht hstatus htrips hreports
  have hself : s'.trips.get i = none := by rw [htrips, Table.get_delete, if_pos rfl]
  refine stepped_of_case h h' ?_ (caseOf_eq_none hself) (by rw [hself]; rfl)
    fun k hk => ⟨?_, reportOf_congr hreports⟩
  · obtain ⟨p, hcase, htrip, -⟩ := h.case ht
    rw [hstatus] at htrip
    have hp : p = .drafted := by cases p <;> first | rfl | cases htrip
    rw [hcase, hp]
    exact if_pos ⟨howner, rfl⟩
  · rw [htrips, Table.get_delete, if_neg hk]

/-- An act on a trip that does not touch its report. -/
theorem acts_on_trip {a : Act} {actor : Int} {manager : Option Int} (h : Whole s)
    (ht : s.trips.get i = some t) (hu : Updated s.trips s'.trips i t')
    (hr : s'.reports = s.reports) (howner : t'.userId = t.userId)
    (hon : Case.On ⟨t.userId, t.approverId, .drafted⟩ actor a.side)
    (happrover : Case.approverAfter ⟨t.userId, t.approverId, .drafted⟩ manager a =
      some t'.approverId)
    (hnone : t'.status ≠ .draft → t'.approverId ≠ none) (hns : t'.status ≠ .settled)
    (hm : ∀ r, Matches r t → Matches r t')
    (hnext : ∀ p : Phase, p.trip = t.status →
      ∃ q, p.next a = some q ∧ q.trip = t'.status ∧ q.report? = p.report?) :
    Stepped s s' ⟨actor, manager, i, .act a⟩ := by
  have h' := h.coupled.tripUpdated ht hu hr hnone hns hm
  refine stepped_of_act h h' ht hu howner hon happrover (fun p hp hrep => ?_)
    fun _ _ => reportOf_congr hr
  obtain ⟨q, hq, htrip, hreport⟩ := hnext p hp
  exact ⟨q, hq, htrip, by rw [hreport, hrep, reportOf_congr hr]⟩

/-- What a trip request comes to that finds its trip as it has read it. -/
theorem comes_of_trip {call : TripCall} (h : Whole s) (deed : TripDeed seen env user call ws)
    (hsame : ∀ i, subject seen (.trip call) = some i → SameCase i seen s)
    (hc : ws.foldlM (Store.flush now) s = .ok s')
    (huser : seen.users.get user.id = some user.toUser) :
    Comes s s' (labelFrom seen s user.id (.trip call)) := by
  have hmanager : (seen.users.get user.id).bind User.managerId = user.managerId := by
    rw [huser]
    rfl
  rw [labelFrom, hmanager]
  cases deed with
  | create new records =>
    obtain ⟨-, u, happly, rfl⟩ := commit_trip hc
    rw [RowWrite.apply_insert, Except.ok.injEq] at happly
    exact begins h happly.symm rfl new.userId new.approverId new.status
  | delete load owner status =>
    obtain ⟨-, rfl⟩ := commit_delete_trip hc
    have hget := (hsame _ rfl).trip _ (loadVisibleTrip_eq_ok.mp load).2.1
    exact drops h hget owner.symm status rfl rfl
  | update load owner editable assigned range same records =>
    obtain ⟨-, u, happly, rfl⟩ := commit_trip hc
    have hget := (hsame _ rfl).trip _ (loadVisibleTrip_eq_ok.mp load).2.1
    have hu := updated_of_apply hget happly
    exact updates_stay h hget hu same (mem_editableStatuses.mp editable) rfl
  | submit load owner status range approver moved records =>
    obtain ⟨-, u, happly, rfl⟩ := commit_trip hc
    have hget := (hsame _ rfl).trip _ (loadVisibleTrip_eq_ok.mp load).2.1
    subst moved
    refine acts_on_trip h hget (updated_of_apply hget happly) rfl rfl owner.symm ?_ (by simp)
      (by simp) (fun r hm => absurd hm (not_matches (.inl status))) fun p hp => ?_
    · rw [approver]
      rfl
    · rw [status] at hp
      cases p <;> cases hp
      exact ⟨_, rfl, rfl, rfl⟩
  | approve load approver status moved records =>
    obtain ⟨-, u, happly, rfl⟩ := commit_trip hc
    have hget := (hsame _ rfl).trip _ (loadVisibleTrip_eq_ok.mp load).2.1
    subst moved
    refine acts_on_trip h hget (updated_of_apply hget happly) rfl rfl approver rfl
      (by simp [approver]) (by simp) (fun r hm => absurd hm (not_matches (.inr (.inl status))))
      fun p hp => ?_
    rw [status] at hp
    cases p <;> cases hp
    exact ⟨_, rfl, rfl, rfl⟩
  | reject load approver status given moved records =>
    obtain ⟨-, u, happly, rfl⟩ := commit_trip hc
    have hget := (hsame _ rfl).trip _ (loadVisibleTrip_eq_ok.mp load).2.1
    subst moved
    refine acts_on_trip h hget (updated_of_apply hget happly) rfl rfl approver rfl
      (by simp [approver]) (by simp) (fun r hm => absurd hm (not_matches (.inr (.inl status))))
      fun p hp => ?_
    rw [status] at hp
    cases p <;> cases hp
    exact ⟨_, rfl, rfl, rfl⟩
  | reopen load owner status moved records =>
    obtain ⟨-, u, happly, rfl⟩ := commit_trip hc
    have hget := (hsame _ rfl).trip _ (loadVisibleTrip_eq_ok.mp load).2.1
    subst moved
    refine acts_on_trip h hget (updated_of_apply hget happly) rfl rfl owner.symm rfl (by simp)
      (by simp) (fun r hm => absurd hm (not_matches (.inr (.inr status)))) fun p hp => ?_
    rw [status] at hp
    cases p <;> cases hp
    exact ⟨_, rfl, rfl, rfl⟩
  | complete load owner status ended moved records =>
    obtain ⟨-, u, happly, rfl⟩ := commit_trip hc
    have hget := (hsame _ rfl).trip _ (loadVisibleTrip_eq_ok.mp load).2.1
    subst moved
    have hsome := h.coupled.approver _ _ hget (by simp [status])
    -- a report made before the trip was completed goes along
    refine acts_on_trip h hget (updated_of_apply hget happly) rfl rfl owner.symm rfl
      (fun _ => hsome) (by simp) (fun r hm => ?_) fun p hp => ?_
    · exact ⟨.inr (.inl rfl), fun _ => rfl, by simpa [status] using hm.settled, hm.userId,
        hm.approverId⟩
    · rw [status] at hp
      cases p with
      | underway begun => cases begun <;> exact ⟨_, rfl, rfl, rfl⟩
      | _ => cases hp

/-- An act on the report of a trip, with which the trip may change as well. -/
theorem acts_on_report {a : Act} (h : Whole s) (h' : Coupled s') (hj : s.reports.get j = some r)
    (hu : Updated s.reports s'.reports j r') (htrip : r'.tripId = r.tripId)
    (ht : s.trips.get r.tripId = some t) (hut : Updated s.trips s'.trips r.tripId t')
    (howner : t'.userId = t.userId) (happrover : t'.approverId = t.approverId)
    (ha : ∀ c manager, Case.approverAfter c manager a = some c.approver)
    (hon : Case.On ⟨t.userId, t.approverId, .drafted⟩ user.id a.side)
    (hnext : ∀ p : Phase, p.trip = t.status → p.report? = some r.status →
      ∃ q, p.next a = some q ∧ q.trip = t'.status ∧ q.report? = some r'.status) :
    Stepped s s' ⟨user.id, user.managerId, r.tripId, .act a⟩ := by
  obtain ⟨hself, hne⟩ := reportOf_updated h.coupled h' hj hu htrip
  have hold : reportOf s r.tripId = some r := (reportOf_eq_some h.coupled).mpr ⟨j, hj, rfl⟩
  refine stepped_of_act h h' ht hut howner hon ?_ (fun p hp hr => ?_) hne
  · rw [ha, happrover]
  · rw [hself]
    exact hnext p hp (by rw [hr, hold]; rfl)

/-- A trip in one of the statuses with a report to come, and none yet, can get one. -/
theorem reports_next {status : TripStatus} (hstatus : status = .approved ∨ status = .completed)
    (hp : p.trip = status) (hr : p.report? = none) :
    ∃ q, p.next .report = some q ∧ q.trip = status ∧ q.report? = some .draft := by
  cases p with
  | underway begun =>
    cases begun with
    | false => exact ⟨_, rfl, hp, rfl⟩
    | true => cases hr
  | completed => exact ⟨_, rfl, hp, rfl⟩
  | drafted | submitted | rejected => rcases hstatus with rfl | rfl <;> cases hp
  | reporting | claimed | disputed | settled => cases hr

theorem reports_begin {tripId : Int} (h : Whole s) (ht : s.trips.get tripId = some t)
    (owner : user.id = t.userId) (hstatus : t.status = .approved ∨ t.status = .completed)
    (new : NewReport seen env tripId t r)
    (hfree : ∀ k r₀, s.reports.get k = some r₀ → r₀.tripId ≠ r.tripId)
    (htrips : s'.trips = s.trips) (hreports : s'.reports = s.reports.insert r) :
    Stepped s s' ⟨user.id, user.managerId, tripId, .act .report⟩ := by
  have hmatches : Matches r t := ⟨hstatus.imp_right .inl, by simp [new.status],
    by rcases hstatus with hst | hst <;> simp [new.status, hst], new.userId, new.approverId⟩
  have h' : Coupled s' := h.coupled.reportInserted ⟨t, by rw [new.tripId]; exact ht, hmatches⟩ hfree
    hreports htrips
  have hnone : reportOf s tripId = none := by
    rcases hr : reportOf s tripId with _ | r₀
    · rfl
    · obtain ⟨k, hk, htrip⟩ := (reportOf_eq_some h.coupled).mp hr
      exact absurd (htrip.trans new.tripId.symm) (hfree k r₀ hk)
  obtain ⟨hself, hne⟩ := reportOf_inserted h.coupled h' hreports
  rw [new.tripId] at hself hne
  refine stepped_of_act h h' ht (updated_self ht htrips) rfl owner.symm rfl (fun p hp hr => ?_) hne
  rw [hself, Option.map_some, new.status]
  rw [hnone] at hr
  exact reports_next hstatus hp hr

theorem onReport_of_get {a : Act} (hj : s.reports.get j = some r) :
    onReport s j a = some (r.tripId, .act a) := by
  rw [onReport, hj, Option.map_some]

/-- The report that a call is about is the one that has been read. -/
theorem report_kept {call : DeskCall}
    (hsubject : subject seen call = (seen.reports.get j).map ExpenseReport.tripId)
    (hsame : ∀ i, subject seen call = some i → SameCase i seen s)
    (hj : seen.reports.get j = some r) : SameCase r.tripId seen s :=
  hsame _ (by rw [hsubject, hj]; rfl)

theorem subject_item {call : DeskCall} {k : Int} {it : ExpenseItem}
    (hk : seen.items.get k = some it) (hcall : subject seen call = (do
      let it ← seen.items.get k
      (seen.reports.get it.reportId).map ExpenseReport.tripId)) :
    subject seen call = (seen.reports.get it.reportId).map ExpenseReport.tripId := by
  rw [hcall, hk]
  rfl

/-- The edit of an item only changes the total of its report. -/
theorem edits_stay {items : Table ExpenseItem} {reports : Table ExpenseReport} {total : Krw}
    (h : Whole s) (hj : s.reports.get j = some r) (editable : r.status ∈ expenseEditableStatuses)
    (happly : (RowWrite.update j r { r with totalAmountKrw := total }).apply now Fault.staleData
      s.reports = .ok reports) : Idle s { s with items := items, reports := reports } := by
  have hu := updated_of_apply hj happly
  refine idle_of_report h (h.coupled.reportUpdated hj hu rfl rfl (not_approved editable) ?_) hj hu
    rfl rfl rfl
  exact fun t _ hm => ⟨hm.status, hm.submitted, hm.settled, hm.userId, hm.approverId⟩

/-- What an expense request comes to that finds its case as it has read it. -/
theorem comes_of_expense {call : ExpenseCall} (h : Whole s)
    (deed : ExpenseDeed seen env user call ws)
    (hsame : ∀ i, subject seen (.expense call) = some i → SameCase i seen s)
    (hc : ws.foldlM (Store.flush now) s = .ok s')
    (huser : seen.users.get user.id = some user.toUser) :
    Comes s s' (labelFrom seen s user.id (.expense call)) := by
  have hmanager : (seen.users.get user.id).bind User.managerId = user.managerId := by
    rw [huser]
    rfl
  rw [labelFrom, hmanager]
  cases deed with
  | @create payload t r _ load owner reportable single new records =>
    obtain ⟨hcheck, u, happly, rfl⟩ := commit_report hc
    rw [RowWrite.apply_insert, Except.ok.injEq] at happly
    have hget := (hsame _ rfl).trip _ (loadVisibleTrip_eq_ok.mp load).2.1
    exact reports_begin h hget owner (mem_reportableTripStatuses.mp reportable) new
      (fun k r₀ hk => single_of_check hcheck hk) rfl happly.symm
  | update load centers assigned records =>
    obtain ⟨-, u, happly, rfl⟩ := commit_report hc
    obtain ⟨hload, -, editable⟩ := loadEditableReport_eq_ok.mp load
    have hseen := (loadVisibleReport_eq_ok.mp hload).2.1
    have hget := (report_kept rfl hsame hseen).report _ _ hseen rfl
    have hu := updated_of_apply hget happly
    subst assigned
    refine idle_of_report h (h.coupled.reportUpdated hget hu rfl rfl (not_approved editable) ?_)
      hget hu rfl rfl rfl
    exact fun t _ hm => ⟨hm.status, hm.submitted, hm.settled, hm.userId, hm.approverId⟩
  | addItem load new flush recalc =>
    obtain ⟨_, _, -, -, happly, rfl⟩ := commit_edit hc
    obtain ⟨hload, -, editable⟩ := loadEditableReport_eq_ok.mp load
    have hseen := (loadVisibleReport_eq_ok.mp hload).2.1
    exact edits_stay h ((report_kept rfl hsame hseen).report _ _ hseen rfl) editable happly
  | updateItem int4 get load checked assigned flush recalc
  | deleteItem int4 get load flush recalc =>
    obtain ⟨_, _, -, -, happly, rfl⟩ := commit_edit hc
    obtain ⟨hload, -, editable⟩ := loadEditableReport_eq_ok.mp load
    have hseen := (loadVisibleReport_eq_ok.mp hload).2.1
    have hkept := report_kept (subject_item get rfl) hsame hseen
    exact edits_stay h (hkept.report _ _ hseen rfl) editable happly
  | submit load owner status trip completed present centers items recalc approver moved records =>
    obtain ⟨-, u, happly, rfl⟩ := commit_report hc
    have hseen := (loadVisibleReport_eq_ok.mp load).2.1
    have hkept := report_kept rfl hsame hseen
    have hget := hkept.report _ _ hseen rfl
    have trip := hkept.trip _ trip
    have hu := updated_of_apply hget happly
    subst moved
    obtain ⟨t₀, ht₀, hm⟩ := h.coupled.report _ _ hget
    obtain rfl := Option.some.inj (ht₀.symm.trans trip)
    rw [moveOf, onReport_of_get hget]
    refine acts_on_report h (h.coupled.reportUpdated hget hu rfl rfl (by simp [status])
      fun t' ht' hm' => ?_) hget hu rfl trip (updated_self trip rfl)
      rfl rfl (fun _ _ => rfl) (hm.userId.symm.trans owner.symm) fun p hp hr => ?_
    · obtain rfl := Option.some.inj (ht'.symm.trans trip)
      exact ⟨hm'.status, fun _ => completed, by simp [completed], hm'.userId, approver.symm⟩
    · rw [status] at hr
      rw [completed] at hp ⊢
      cases p with
      | underway begun => cases hp
      | reporting => exact ⟨_, rfl, rfl, rfl⟩
      | _ => cases hr
  | approve load approver status trip completed moved settled records records' =>
    obtain ⟨u, u', happly, happly', rfl⟩ := commit_approve hc
    have hseen := (loadVisibleReport_eq_ok.mp load).2.1
    have hkept := report_kept rfl hsame hseen
    have hget := hkept.report _ _ hseen rfl
    have trip := hkept.trip _ trip
    have hu := updated_of_apply hget happly
    have hut := updated_of_apply trip happly'
    subst moved settled
    obtain ⟨t₀, ht₀, hm⟩ := h.coupled.report _ _ hget
    obtain rfl := Option.some.inj (ht₀.symm.trans trip)
    rw [moveOf, onReport_of_get hget]
    refine acts_on_report h (h.coupled.approved hget trip status hu hut) hget hu rfl trip hut rfl
      rfl (fun _ _ => rfl) (hm.approverId.symm.trans approver) fun p hp hr => ?_
    rw [status] at hr
    cases p with
    | underway begun => cases begun <;> cases hr
    | claimed => exact ⟨_, rfl, rfl, rfl⟩
    | _ => cases hr
  | reject load approver status given moved records =>
    obtain ⟨-, u, happly, rfl⟩ := commit_report hc
    have hseen := (loadVisibleReport_eq_ok.mp load).2.1
    have hget := (report_kept rfl hsame hseen).report _ _ hseen rfl
    have hu := updated_of_apply hget happly
    subst moved
    obtain ⟨t, trip, hm⟩ := h.coupled.report _ _ hget
    rw [moveOf, onReport_of_get hget]
    refine acts_on_report h (h.coupled.reportUpdated hget hu rfl rfl (by simp [status])
      fun t _ hm => ⟨hm.status, by simp, by simpa [status] using hm.settled, hm.userId,
        hm.approverId⟩) hget hu rfl trip (updated_self trip rfl)
      rfl rfl (fun _ _ => rfl) (hm.approverId.symm.trans approver) fun p hp hr => ?_
    rw [status] at hr
    rw [← hp]
    cases p with
    | underway begun => cases begun <;> cases hr
    | claimed => exact ⟨_, rfl, rfl, rfl⟩
    | _ => cases hr
  | reopen load owner status moved records =>
    obtain ⟨-, u, happly, rfl⟩ := commit_report hc
    have hseen := (loadVisibleReport_eq_ok.mp load).2.1
    have hget := (report_kept rfl hsame hseen).report _ _ hseen rfl
    have hu := updated_of_apply hget happly
    subst moved
    obtain ⟨t, trip, hm⟩ := h.coupled.report _ _ hget
    rw [moveOf, onReport_of_get hget]
    refine acts_on_report h (h.coupled.reportUpdated hget hu rfl rfl (by simp [status])
      fun t _ hm => ⟨hm.status, by simp, by simpa [status] using hm.settled, hm.userId,
        hm.approverId⟩) hget hu rfl trip (updated_self trip rfl)
      rfl rfl (fun _ _ => rfl) (hm.userId.symm.trans owner.symm) fun p hp hr => ?_
    rw [status] at hr
    rw [← hp]
    cases p with
    | underway begun => cases begun <;> cases hr
    | disputed => exact ⟨_, rfl, rfl, rfl⟩
    | _ => cases hr

/-- What a request of the desk comes to that finds its case as it has read it. -/
theorem comes_of_plan (req : DeskRequest) {p : Plan} (h : Whole s) (hp : req.plan seen = .ok p)
    (hsame : ∀ i, subject seen req.call = some i → SameCase i seen s)
    (hc : p.commit s = .ok s') : Comes s s' (labelFrom seen s req.userId req.call) := by
  obtain ⟨user, huser, deed⟩ := deed_of_plan hp
  obtain ⟨huser, hid⟩ := currentUser_eq_ok.mp huser
  have hc := Plan.commit_eq_ok.mp hc
  rw [← hid] at huser ⊢
  generalize req.call = call at deed hsame
  cases deed with
  | trip deed => exact comes_of_trip h deed hsame hc huser
  | expense deed => exact comes_of_expense h deed hsame hc huser

theorem comes_of_desk (req : DeskRequest) (h : Whole s) (hstep : desk.step s req = .ok s') :
    Comes s s' (labelOf s req.userId req.call) := by
  obtain ⟨p, hp, hc⟩ := bind_eq_ok.mp hstep
  exact comes_of_plan req h hp (fun i _ => .refl i s) hc

/-! ## Runs of the system -/

/-- Only the desk makes moves. -/
def systemLabel (s : Store) (req : Request Call) : Option Label :=
  match req.call with
  | .desk userId call => labelOf s userId call
  | _ => none

theorem idle_of_sameDesk (h : Whole s) (hsame : SameDesk s s') : Idle s s' :=
  idle_of_same h (h.coupled.of_sameDesk hsame)
    (fun k => caseOf_congr (by rw [hsame.trips]) (reportOf_congr hsame.reports))
    fun k => by rw [hsame.trips]

theorem comes_of_system {sec : Security} {req : Request Call} (h : Whole s)
    (hstep : (system sec).step s req = .ok s') : Comes s s' (systemLabel s req) := by
  rcases req with ⟨env, call⟩
  obtain ⟨p, hp, hcommit⟩ := bind_eq_ok.mp hstep
  have hareas := call.plan_areas p hp
  cases call with
  | desk userId call => exact comes_of_desk ⟨env, userId, call⟩ h hstep
  | account call | code call | master call | personal userId call =>
    refine idle_of_sameDesk h (sameDesk_of_flushes (fun w hw harea => ?_)
      (Plan.commit_eq_ok.mp hcommit))
    have hmem := hareas w hw
    simp [harea, Call.areas] at hmem

theorem refines_process (sec : Security) :
    Refines (system sec).step step caseOf systemLabel Whole where
  inv s req s' h hstep := by
    have hcomes := comes_of_system h hstep
    rcases hl : systemLabel s req with _ | l <;> rw [hl] at hcomes
    · exact hcomes.whole
    · exact hcomes.whole
  stays s req s' h hstep hl := by
    have hcomes := comes_of_system h hstep
    rw [hl] at hcomes
    exact hcomes.same
  moves s req s' l h hstep hl := by
    have hcomes := comes_of_system h hstep
    rw [hl] at hcomes
    exact hcomes.moved

theorem caseOf_of_no_trips (htrips : s.trips.rows = []) : caseOf s = fun _ => none :=
  funext fun i => caseOf_eq_none (Table.get_of_rows_nil htrips i)

theorem Whole.of_no_trips (htrips : s.trips.rows = []) (hreports : s.reports.rows = []) :
    Whole s where
  coupled := .of_no_trips htrips hreports
  placed i := by
    rw [caseOf_of_no_trips htrips, Table.get_of_rows_nil htrips]
    rfl

theorem Whole.phase (h : Whole s) (ht : s.trips.get i = some t) : ∃ p : Phase,
    caseOf s i = some ⟨t.userId, t.approverId, p⟩ ∧ p.trip = t.status ∧
      ∀ j r, s.reports.get j = some r → r.tripId = i → p.report? = some r.status := by
  obtain ⟨p, hcase, htrip, hreport⟩ := h.case ht
  refine ⟨p, hcase, htrip, fun j r hj hr => ?_⟩
  rw [hreport, (reportOf_eq_some h.coupled).mpr ⟨j, hj, hr⟩]
  rfl

/-- Whatever the system does, its trips and reports go through the business process: the moves of
the requests that succeed are a run of it, from no cases at all to the cases that the tables show
at the end, where every trip is in some phase. -/
theorem system_refines_process (sec : Security) {s₀ : Store} (htrips : s₀.trips.rows = [])
    (hreports : s₀.reports.rows = []) (reqs : List (Request Call)) :
    let s := Run.all (system sec).step s₀ reqs
    (Run.trace (system sec).step systemLabel s₀ reqs).foldlM step (fun _ => none) =
        some (caseOf s) ∧
      ∀ i t, s.trips.get i = some t → ∃ p : Phase,
        caseOf s i = some ⟨t.userId, t.approverId, p⟩ ∧ p.trip = t.status ∧
          ∀ j r, s.reports.get j = some r → r.tripId = i → p.report? = some r.status := by
  intro s
  have h₀ : Whole s₀ := .of_no_trips htrips hreports
  have hs : Whole s := Run.invariant_of_step (refines_process sec).inv h₀
  have htrace := (refines_process sec).trace_foldlM reqs h₀
  rw [caseOf_of_no_trips htrips] at htrace
  exact ⟨htrace, fun i t => hs.phase⟩

/-- Kim's trip and its report, up to the submission of the report. -/
theorem system_refines_process_office :
    (Run.trace (system Office.sec).step systemLabel Office.store
      ((Office.tripDone 1 ++ Office.reportSubmitted 1).map fun r =>
        ⟨r.env, .desk r.userId r.call⟩)).foldlM step (fun _ => none) =
      some (caseOf (Run.all (system Office.sec).step Office.store
        ((Office.tripDone 1 ++ Office.reportSubmitted 1).map fun r =>
          ⟨r.env, .desk r.userId r.call⟩))) :=
  (system_refines_process Office.sec rfl rfl _).1

end Biztrip.Process
