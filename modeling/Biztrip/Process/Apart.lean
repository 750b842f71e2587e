import Biztrip.Lib.Apart
import Biztrip.Process.Simulation

/-!
# Overlapping requests of different trips

The service code takes no lock. As long as no two requests about one trip are in flight at the
same time, none is needed: every commit finds the rows of its trip as its request has read
them, and the business process is run as if the requests came one after another, in the order
of their commits. Creations of trips and all that is not of the desk may overlap with anything.
-/

namespace Biztrip.Process

open Biztrip.Lib Biztrip.Desk Trips Expenses

/-! ## What a request leaves alone -/

section
variable {seen s s' : Store} {env : Env} {user : CurrentUser} {ws : List Write} {now : Instant}
  {i j : Int} {r r' : ExpenseReport}

theorem sameCase_of_trip {call : TripCall} (deed : TripDeed seen env user call ws)
    (hc : ws.foldlM (Store.flush now) s = .ok s') (hi : subject seen (.trip call) ≠ some i) :
    SameCase i s s' := by
  refine ⟨fun t ht => ?_, fun j r hj _ => (deed.tables hc).1 ▸ hj⟩
  cases deed with
  | create new records =>
    obtain ⟨-, u, happly, rfl⟩ := commit_trip hc
    exact RowWrite.get_of_not_target happly nofun ht
  | delete load owner status =>
    obtain ⟨-, rfl⟩ := commit_delete_trip hc
    exact (Table.get_delete ..).trans (if_neg fun he => hi (congrArg some he.symm)) |>.trans ht
  | _ =>
    obtain ⟨-, u, happly, rfl⟩ := commit_trip hc
    exact RowWrite.get_of_not_target happly hi ht

/-- Writing a report back leaves the reports of the other trips alone. -/
theorem report_stays {u : Table ExpenseReport} {old : ExpenseReport}
    (hj : s.reports.get j = some r) (hi : r.tripId ≠ i)
    (happly : (RowWrite.update j old r').apply now Fault.staleData s.reports = .ok u) {k : Int}
    {r₁ : ExpenseReport} (hk : s.reports.get k = some r₁) (hr₁ : r₁.tripId = i) :
    u.get k = some r₁ := by
  refine RowWrite.get_of_not_target happly (fun he => hi ?_) hk
  obtain rfl := Option.some.inj he
  rw [Option.some.inj (hj.symm.trans hk), hr₁]

theorem sameCase_of_report {u : Table ExpenseReport} {old : ExpenseReport}
    (hj : s.reports.get j = some r) (hi : r.tripId ≠ i)
    (happly : (RowWrite.update j old r').apply now Fault.staleData s.reports = .ok u)
    (htrips : s'.trips = s.trips) (hreports : s'.reports = u) : SameCase i s s' where
  trip _ ht := htrips ▸ ht
  report _ _ hk hr₁ := hreports ▸ report_stays hj hi happly hk hr₁

theorem sameCase_of_expense {call : ExpenseCall} (deed : ExpenseDeed seen env user call ws)
    (hsame : ∀ i, subject seen (.expense call) = some i → SameCase i seen s)
    (hc : ws.foldlM (Store.flush now) s = .ok s') (hi : subject seen (.expense call) ≠ some i) :
    SameCase i s s' := by
  -- the report of the request, as it is when the request commits
  have kept : ∀ {j r}, subject seen (.expense call) =
      (seen.reports.get j).map ExpenseReport.tripId → loadVisibleReport seen j user = .ok r →
        s.reports.get j = some r ∧ r.tripId ≠ i := by
    intro j r hsubject load
    have hseen := (loadVisibleReport_eq_ok.mp load).2.1
    refine ⟨(report_kept hsubject hsame hseen).report _ _ hseen rfl, fun he => hi ?_⟩
    rw [hsubject, hseen, Option.map_some, he]
  cases deed with
  | create load owner reportable single new records =>
    obtain ⟨-, u, happly, rfl⟩ := commit_report hc
    exact ⟨fun t ht => ht, fun k _ hk _ => RowWrite.get_of_not_target happly nofun hk⟩
  | update load centers assigned records =>
    obtain ⟨-, u, happly, rfl⟩ := commit_report hc
    obtain ⟨hget, hne⟩ := kept rfl (loadEditableReport_eq_ok.mp load).1
    exact sameCase_of_report hget hne happly rfl rfl
  | addItem load new flush recalc =>
    obtain ⟨_, _, -, -, happly, rfl⟩ := commit_edit hc
    obtain ⟨hget, hne⟩ := kept rfl (loadEditableReport_eq_ok.mp load).1
    exact sameCase_of_report hget hne happly rfl rfl
  | updateItem int4 get load checked assigned flush recalc
  | deleteItem int4 get load flush recalc =>
    obtain ⟨_, _, -, -, happly, rfl⟩ := commit_edit hc
    obtain ⟨hget, hne⟩ := kept (subject_item get rfl) (loadEditableReport_eq_ok.mp load).1
    exact sameCase_of_report hget hne happly rfl rfl
  | submit load owner status trip completed present centers items recalc approver moved records =>
    obtain ⟨-, u, happly, rfl⟩ := commit_report hc
    obtain ⟨hget, hne⟩ := kept rfl load
    exact sameCase_of_report hget hne happly rfl rfl
  | approve load approver status trip completed moved settled records records' =>
    obtain ⟨u, u', happly, happly', rfl⟩ := commit_approve hc
    obtain ⟨hget, hne⟩ := kept rfl load
    refine ⟨fun t ht => ?_, fun k r₁ hk hr₁ => report_stays hget hne happly hk hr₁⟩
    exact RowWrite.get_of_not_target happly' (fun he => hne (Option.some.inj he)) ht
  | reject load approver status given moved records | reopen load owner status moved records =>
    obtain ⟨-, u, happly, rfl⟩ := commit_report hc
    obtain ⟨hget, hne⟩ := kept rfl load
    exact sameCase_of_report hget hne happly rfl rfl

theorem sameCase_of_plan (req : DeskRequest) {p : Plan} (hp : req.plan seen = .ok p)
    (hsame : ∀ i, subject seen req.call = some i → SameCase i seen s)
    (hc : p.commit s = .ok s') (hi : subject seen req.call ≠ some i) : SameCase i s s' := by
  obtain ⟨user, -, deed⟩ := deed_of_plan hp
  have hc := Plan.commit_eq_ok.mp hc
  generalize req.call = call at deed hsame hi
  cases deed with
  | trip deed => exact sameCase_of_trip deed hc hi
  | expense deed => exact sameCase_of_expense deed hsame hc hi

end

/-! ## Requests of the system -/

/-- The trip that a request is about. -/
def tripOfRequest (s : Store) (req : Request Call) : Option Int :=
  match req.call with
  | .desk _ call => subject s call
  | _ => none

/-- The move that a request in flight makes when it commits. -/
def flightLabel {sec : Security} (s : Store) (f : (system sec).InFlight) : Option Label :=
  match f.req.call with
  | .desk userId call => labelFrom f.seen s userId call
  | _ => none

variable {sec : Security} {s s' : Store}

theorem comes_of_commit {f : (system sec).InFlight} (h : Whole s)
    (hfresh : Machine.Fresh tripOfRequest SameCase s f)
    (hc : (system sec).commit s f.writes = .ok s') : Comes s s' (flightLabel s f) := by
  rcases f with ⟨⟨env, call⟩, seen, p, hp⟩
  have hareas := call.plan_areas p hp
  cases call with
  | desk userId call =>
    exact comes_of_plan ⟨env, userId, call⟩ h hp hfresh hc
  | account call | code call | master call | personal userId call =>
    refine idle_of_sameDesk h (sameDesk_of_flushes (fun w hw harea => ?_)
      (Plan.commit_eq_ok.mp hc))
    have hmem := hareas w hw
    simp [harea, Call.areas] at hmem

theorem sameCase_of_commit {f : (system sec).InFlight} {i : Int}
    (hfresh : Machine.Fresh tripOfRequest SameCase s f)
    (hc : (system sec).commit s f.writes = .ok s') (hi : tripOfRequest f.seen f.req ≠ some i) :
    SameCase i s s' := by
  rcases f with ⟨⟨env, call⟩, seen, p, hp⟩
  have hareas := call.plan_areas p hp
  cases call with
  | desk userId call =>
    exact sameCase_of_plan ⟨env, userId, call⟩ hp hfresh hc hi
  | account call | code call | master call | personal userId call =>
    have hsame : SameDesk s s' := by
      refine sameDesk_of_flushes (fun w hw harea => ?_) (Plan.commit_eq_ok.mp hc)
      have hmem := hareas w hw
      simp [harea, Call.areas] at hmem
    exact ⟨fun t ht => hsame.trips ▸ ht, fun j r hj _ => hsame.reports ▸ hj⟩

theorem framed (sec : Security) : Machine.Framed (system sec) Whole tripOfRequest SameCase where
  refl := SameCase.refl
  trans _ _ _ _ := SameCase.trans
  keeps s f s' h hfresh hc := by
    have hcomes := comes_of_commit h hfresh hc
    rcases hl : flightLabel s f with _ | l <;> rw [hl] at hcomes
    · exact hcomes.whole
    · exact hcomes.whole
  frame s f s' i _ hfresh hc hi := sameCase_of_commit hfresh hc hi

theorem commits_refine (sec : Security) : Machine.Refines (system sec) step caseOf flightLabel Whole
    (Machine.Fresh tripOfRequest SameCase) where
  inv := (framed sec).keeps
  moves s f s' h hfresh hc := by
    have hcomes := comes_of_commit h hfresh hc
    rcases hl : flightLabel s f with _ | l <;> rw [hl] at hcomes
    · exact congrArg some hcomes.same.symm
    · rw [Option.toList_some, List.foldlM_cons, hcomes.moved]
      rfl

/-- In every interleaving in which no two requests about one trip are in flight at the same time:
the moves of the commits that succeed are a run of the business process, and every trip is in some
phase in the end. -/
theorem apart_refines_process (sec : Security) {s₀ : Store} (htrips : s₀.trips.rows = [])
    (hreports : s₀.reports.rows = []) {evs : List (Machine.Event (Request Call))}
    (hapart : Machine.Config.Apart tripOfRequest (.quiet (system sec) s₀) evs) :
    let c₀ := Machine.Config.quiet (system sec) s₀
    let s := (c₀.exec evs).db
    (c₀.trace flightLabel evs).foldlM step (fun _ => none) = some (caseOf s) ∧
      ∀ i t, s.trips.get i = some t → ∃ p : Phase,
        caseOf s i = some ⟨t.userId, t.approverId, p⟩ ∧ p.trip = t.status ∧
          ∀ j r, s.reports.get j = some r → r.tripId = i → p.report? = some r.status := by
  intro c₀ s
  have h₀ : Whole s₀ := .of_no_trips htrips hreports
  have heach := (Machine.Config.parted_quiet h₀).each (framed sec) hapart
  have htrace := (commits_refine sec).trace_foldlM (c := c₀) h₀ heach
  have hs : Whole s := (commits_refine sec).exec h₀ heach
  rw [show c₀.db = s₀ from rfl, caseOf_of_no_trips htrips] at htrace
  exact ⟨htrace, fun i t => hs.phase⟩

/-- Two trips are submitted and approved at the same time. -/
theorem apart_refines_process_office :
    let evs : List (Machine.Event (Request Call)) :=
      [.begin ⟨Office.env, .desk 1 (.trip (.create Office.trip))⟩, .commit 0,
        .begin ⟨Office.env, .desk 1 (.trip (.create Office.trip))⟩, .commit 0,
        .begin ⟨Office.env, .desk 1 (.trip (.submit 1))⟩,
        .begin ⟨Office.env, .desk 1 (.trip (.submit 2))⟩, .commit 1, .commit 0,
        .begin ⟨Office.env, .desk 2 (.trip (.approve 1))⟩,
        .begin ⟨Office.env, .desk 2 (.trip (.approve 2))⟩, .commit 1, .commit 0]
    let c₀ := Machine.Config.quiet (system Office.sec) Office.store
    (c₀.trace flightLabel evs).foldlM step (fun _ => none) = some (caseOf (c₀.exec evs).db) :=
  (apart_refines_process Office.sec rfl rfl (by decide +kernel)).1

/-- A trip is deleted by a request that has read it before its submission. -/
example : ((Machine.Config.quiet (system Office.sec) Office.store).trace flightLabel
    [.begin ⟨Office.env, .desk 1 (.trip (.create Office.trip))⟩, .commit 0,
      .begin ⟨Office.env, .desk 1 (.trip (.submit 1))⟩,
      .begin ⟨Office.env, .desk 1 (.trip (.delete 1))⟩, .commit 0, .commit 0]).foldlM step
        (fun _ => none) |>.isNone := by decide +kernel

end Biztrip.Process
