import Biztrip.Desk.Rows
import Biztrip.Lib.Numerals
import Biztrip.Service.Faults

/-!
# Document numbers

The number of a trip or a report is a heading for the year and a numeral. The next number
is counted on from the greatest text under the heading. As long as all numerals of a year
have four digits that is the greatest number; afterwards `next_trip_no` and `next_report_no`
give a number that is taken just when ten thousand, or a higher power of ten, and the number
before it are both there (`numbers_fresh_iff`).
-/

namespace Biztrip.Desk

open Biztrip.Lib Biztrip.Numbering Trips Expenses

/-! ## Numbers under a heading -/

def heading (kind : String) (y : Nat) : String := kind ++ toString y ++ "-"

def number (kind : String) (y n : Nat) : String := heading kind y ++ pad4 n

def Taken (kind : String) (nos : List String) (y n : Nat) : Prop := number kind y n ∈ nos

variable {kind no : String} {nos nos' : List String} {y y' n m : Nat}

theorem toList_heading : (heading kind y).toList = kind.toList ++ (Nat.toDigits 10 y ++ ['-']) := by
  simp [heading]

theorem toList_number :
    (number kind y n).toList = (heading kind y).toList ++ numeral 4 n := by
  simp only [number, String.toList_append, pad4, String.toList_ofList]
  rfl

theorem number_inj (h : number kind y n = number kind y m) : n = m := by
  have hlist := congrArg String.toList h
  rw [toList_number, toList_number] at hlist
  exact numeral_inj (List.append_cancel_left hlist)

theorem takeWhile_digits {ds rest : List Char} (h : ∀ c ∈ ds, c.isDigit = true) :
    (ds ++ '-' :: rest).takeWhile Char.isDigit = ds := by
  rw [List.takeWhile_append_of_pos h, List.takeWhile_cons_of_neg (by decide), List.append_nil]

/-- The headings of different years do not begin one another's numbers. -/
theorem heading_isPrefix_iff : (heading kind y).toList <+: (number kind y' n).toList ↔ y = y' := by
  rw [toList_number, toList_heading, toList_heading, List.append_assoc,
    List.prefix_append_right_inj]
  constructor
  · rintro ⟨rest, h⟩
    have hdigits : ∀ y, ∀ c ∈ Nat.toDigits 10 y, c.isDigit = true := fun y _ hc =>
      Nat.isDigit_of_mem_toDigits (by decide) (by decide) hc
    have h := congrArg (List.takeWhile Char.isDigit) h
    simp only [List.append_assoc, List.cons_append, List.nil_append] at h
    rw [takeWhile_digits (hdigits y), takeWhile_digits (hdigits y')] at h
    rw [← @Nat.ofDigitChars_ten_toDigits y, h, Nat.ofDigitChars_ten_toDigits]
  · rintro rfl
    exact List.prefix_append _ _

/-! ## The greatest text -/

theorem maxText_eq_none : maxText nos = none ↔ nos = [] := by
  cases nos with
  | nil => exact iff_of_true rfl rfl
  | cons t ts =>
    rw [maxText]
    split <;> simp

theorem maxText_eq_some {t : String} (h : maxText nos = some t) :
    t ∈ nos ∧ ∀ u ∈ nos, ¬ t.toList < u.toList := by
  induction nos generalizing t with
  | nil => cases h
  | cons u ts ih =>
    rw [maxText] at h
    split at h
    · next hnone =>
      obtain rfl := maxText_eq_none.mp hnone
      obtain rfl := Option.some.inj h
      refine ⟨List.mem_singleton.mpr rfl, fun v hv => ?_⟩
      rw [List.mem_singleton.mp hv]
      exact List.lt_irrefl _
    · next v hsome =>
      obtain ⟨hmem, hmax⟩ := ih hsome
      obtain rfl := Option.some.inj h
      split
      · next hlt =>
        refine ⟨List.mem_cons_self, fun x hx hux => ?_⟩
        rcases List.mem_cons.mp hx with rfl | hx
        · exact List.lt_irrefl _ hux
        · exact hmax x hx (List.lt_trans (String.lt_iff.mp hlt) hux)
      · next hlt =>
        refine ⟨List.mem_cons_of_mem _ hmem, fun x hx => ?_⟩
        rcases List.mem_cons.mp hx with rfl | hx
        · exact fun hvx => hlt (String.lt_iff.mpr hvx)
        · exact hmax x hx

theorem readInt_numeral : readInt (numeral 4 n) = some n := by
  have hall : (numeral 4 n).all Char.isDigit = true := by
    rw [List.all_eq_true]
    exact fun c hc => isDigit_of_mem_numeral hc
  rw [readInt, if_pos ⟨numeral_ne_nil, hall⟩]
  have hvalue := ofDigitChars_numeral 4 n
  rw [Nat.ofDigitChars_eq_foldl] at hvalue
  simp only [Nat.mul_comm _ 10, hvalue]

/-! ## Issued numbers -/

/-- The texts are numbers under headings, counted on as `nextNo` does. -/
structure Issued (kind : String) (nos : List String) : Prop where
  shaped : ∀ no ∈ nos, ∃ y n, no = number kind y n
  capped : ∀ y, Capped 4 (Taken kind nos y)

theorem Issued.nil (kind : String) : Issued kind [] where
  shaped _ h := absurd h List.not_mem_nil
  capped _ _ _ h := absurd h List.not_mem_nil

theorem Issued.of_subset (h : Issued kind nos) (hsub : ∀ no ∈ nos', no ∈ nos) :
    Issued kind nos' where
  shaped no hno := h.shaped no (hsub no hno)
  capped y := (h.capped y).mono fun _ hn => hsub _ hn

theorem mem_under (h : Issued kind nos) : no ∈ nos.filter (fun no =>
      no.toList.take (heading kind y).toList.length = (heading kind y).toList) ↔
    ∃ n, no = number kind y n ∧ Taken kind nos y n := by
  rw [List.mem_filter, decide_eq_true_eq, eq_comm, ← List.prefix_iff_eq_take]
  constructor
  · rintro ⟨hno, hprefix⟩
    obtain ⟨y', n, rfl⟩ := h.shaped no hno
    obtain rfl := heading_isPrefix_iff.mp hprefix
    exact ⟨n, rfl, hno⟩
  · rintro ⟨n, rfl, hn⟩
    exact ⟨hn, heading_isPrefix_iff.mpr rfl⟩

theorem nextNo_cases (h : Issued kind nos) (y : Nat) :
    ((∀ n, ¬ Taken kind nos y n) ∧ nextNo (heading kind y) nos = .ok (number kind y 1)) ∨
      ∃ m, Tops 4 (Taken kind nos y) m ∧
        nextNo (heading kind y) nos = .ok (number kind y (m + 1)) := by
  unfold nextNo
  rcases hmax : maxText (nos.filter fun no =>
      no.toList.take (heading kind y).toList.length = (heading kind y).toList) with _ | last
  · refine .inl ⟨fun n hn => ?_, rfl⟩
    have hmem := (mem_under h).mpr ⟨n, rfl, hn⟩
    rw [maxText_eq_none.mp hmax] at hmem
    cases hmem
  · obtain ⟨hmem, hgreatest⟩ := maxText_eq_some hmax
    obtain ⟨m, rfl, hm⟩ := (mem_under h).mp hmem
    refine .inr ⟨m, ⟨hm, fun n hn => not_lt.mp fun hlt => ?_⟩, ?_⟩
    · have hgreater := hgreatest _ ((mem_under h).mpr ⟨n, rfl, hn⟩)
      rw [toList_number, toList_number] at hgreater
      exact hgreater (List.append_left_lt hlt)
    · have hread : readInt ((number kind y m).toList.drop (heading kind y).toList.length) =
          some m := by
        rw [toList_number, List.drop_left, readInt_numeral]
      simp only [hread]
      rfl

/-- Counting on keeps the numbers issued. -/
theorem Issued.next (h : Issued kind nos) (hno : nextNo (heading kind y) nos = .ok no)
    (hsub : ∀ a ∈ nos', a = no ∨ a ∈ nos) : Issued kind nos' := by
  obtain ⟨n, rfl, hcapped⟩ : ∃ n, no = number kind y n ∧
      Capped 4 fun i => i = n ∨ Taken kind nos y i := by
    rcases nextNo_cases h y with ⟨hnone, hnext⟩ | ⟨m, htops, hnext⟩
    · refine ⟨1, Except.ok.inj (hno.symm.trans hnext), (Capped.one (by decide)).mono ?_⟩
      rintro i (hi | hi)
      · exact hi
      · exact absurd hi (hnone i)
    · exact ⟨m + 1, Except.ok.inj (hno.symm.trans hnext), (h.capped y).succ (by decide) htops⟩
  refine ⟨fun a ha => ?_, fun y' => ?_⟩
  · rcases hsub a ha with rfl | ha
    · exact ⟨y, n, rfl⟩
    · exact h.shaped a ha
  · by_cases hy : y' = y
    · subst hy
      refine hcapped.mono fun i hi => ?_
      exact (hsub _ hi).imp_left number_inj
    · refine (h.capped y').mono fun i hi => (hsub _ hi).resolve_left fun heq => ?_
      -- a number of one year is none of another
      have hprefix : (heading kind y').toList <+: (number kind y n).toList := by
        rw [← heq]
        exact heading_isPrefix_iff.mpr rfl
      exact hy (heading_isPrefix_iff.mp hprefix)

/-- The next number is free just when no power of ten has been overrun. -/
theorem nextNo_fresh_iff (h : Issued kind nos) (y : Nat) :
    (∃ n, nextNo (heading kind y) nos = .ok (number kind y n) ∧ number kind y n ∉ nos) ↔
      ¬ Overrun 4 (Taken kind nos y) := by
  rcases nextNo_cases h y with ⟨hnone, hnext⟩ | ⟨m, htops, hnext⟩
  · refine iff_of_true ⟨1, hnext, hnone 1⟩ ?_
    rintro ⟨k, -, -, hk⟩
    exact hnone _ hk
  · rw [← htops.taken_succ_iff (h.capped y)]
    constructor
    · rintro ⟨n, hn, hfree⟩ hm
      obtain rfl := number_inj (Except.ok.inj (hn.symm.trans hnext))
      exact hfree hm
    · intro hfree
      exact ⟨m + 1, hnext, hfree⟩

/-! ## One request -/

/-- The values of a column. -/
def listed {ρ : Type} (t : Table ρ) (column : ρ → String) : List String :=
  t.rows.map fun p => column p.2

theorem mem_listed {ρ : Type} {t : Table ρ} {column : ρ → String} :
    no ∈ listed t column ↔ ∃ i r, t.get i = some r ∧ column r = no := by
  simp [listed, Table.mem_rows]

variable {s s' : Store} {env : Env} {user : CurrentUser} {now : Instant} {ws : List Write}

def tripNos (s : Store) : List String := listed s.trips Trip.tripNo

def reportNos (s : Store) : List String := listed s.reports ExpenseReport.reportNo

theorem nextTripNo_eq {today : Date} :
    nextTripNo s today = nextNo (heading "BT-" today.year) (tripNos s) := rfl

theorem nextReportNo_eq {today : Date} :
    nextReportNo s today = nextNo (heading "EX-" today.year) (reportNos s) := rfl

/-- What a step leaves of a list of numbers: no others, or the next one besides. -/
def Continues (kind : String) (nos nos' : List String) : Prop :=
  ∃ y, ∀ no ∈ nos', no ∈ nos ∨ nextNo (heading kind y) nos = .ok no

theorem Issued.continue (h : Issued kind nos) (hc : Continues kind nos nos') :
    Issued kind nos' := by
  obtain ⟨y, hc⟩ := hc
  rcases hnext : nextNo (heading kind y) nos with e | no
  · refine h.of_subset fun a ha => (hc a ha).resolve_right ?_
    rw [hnext]
    exact nofun
  · refine h.next hnext fun a ha => ?_
    rcases hc a ha with ha | ha
    · exact .inr ha
    · exact .inl (Except.ok.inj (ha.symm.trans hnext))

/-- A row that is computed has the number of the row it was computed from, or the next one. -/
theorem TripDeed.numbers {call : TripCall} (deed : TripDeed s env user call ws) :
    (∀ p ∈ tripRows s ws, p.2.tripNo ∈ tripNos s ∨ nextTripNo s env.today = .ok p.2.tripNo) ∧
      reportRows s ws = [] := by
  have hold : ∀ {i} {t t' : Trip}, loadVisibleTrip s i user = .ok t → t'.tripNo = t.tripNo →
      t'.tripNo ∈ tripNos s := fun hload hsame =>
    mem_listed.mpr ⟨_, _, (loadVisibleTrip_eq_ok.mp hload).2.1, hsame.symm⟩
  cases deed with
  | create new => simpa using .inr new.tripNo
  | delete => exact ⟨fun _ hp => absurd hp List.not_mem_nil, rfl⟩
  | update load owner editable assigned range same => simpa using .inl (hold load same.tripNo)
  | submit load owner status range approver moved => simpa using .inl (hold load (by rw [moved]))
  | approve load approver status moved => simpa using .inl (hold load (by rw [moved]))
  | reject load approver status given moved => simpa using .inl (hold load (by rw [moved]))
  | reopen load owner status moved => simpa using .inl (hold load (by rw [moved]))
  | complete load owner status ended moved => simpa using .inl (hold load (by rw [moved]))

theorem ExpenseDeed.numbers {call : ExpenseCall} (deed : ExpenseDeed s env user call ws) :
    (∀ p ∈ tripRows s ws, p.2.tripNo ∈ tripNos s) ∧
      ∀ p ∈ reportRows s ws,
        p.2.reportNo ∈ reportNos s ∨ nextReportNo s env.utcToday = .ok p.2.reportNo := by
  have hold : ∀ {j} {r r' : ExpenseReport}, loadVisibleReport s j user = .ok r →
      r'.reportNo = r.reportNo → r'.reportNo ∈ reportNos s := fun hload hsame =>
    mem_listed.mpr ⟨_, _, (loadVisibleReport_eq_ok.mp hload).2.1, hsame.symm⟩
  cases deed with
  | create load owner reportable single new => simpa using .inr new.reportNo
  | update load centers assigned =>
    simpa using .inl (hold (loadEditableReport_eq_ok.mp load).1 (by rw [assigned]))
  | addItem load | updateItem int4 get load | deleteItem int4 get load =>
    simpa using .inl (hold (loadEditableReport_eq_ok.mp load).1 rfl)
  | submit load owner status trip completed present centers items recalc approver moved =>
    simpa using .inl (hold load (by rw [moved]))
  | approve load approver status trip completed moved settled =>
    have htrip : Trip.tripNo _ ∈ tripNos s := mem_listed.mpr ⟨_, _, trip, rfl⟩
    subst moved settled
    simpa using ⟨htrip, .inl (hold load rfl)⟩
  | reject load approver status given moved => simpa using .inl (hold load (by rw [moved]))
  | reopen load owner status moved => simpa using .inl (hold load (by rw [moved]))

/-- The numbers of both kinds of documents are issued ones. -/
structure AllIssued (s : Store) : Prop where
  trips : Issued "BT-" (tripNos s)
  reports : Issued "EX-" (reportNos s)

theorem AllIssued.step {req : DeskRequest} (h : AllIssued s) (hstep : desk.step s req = .ok s') :
    AllIssued s' := by
  obtain ⟨p, hplan, hcommit⟩ := bind_eq_ok.mp hstep
  obtain ⟨user, -, deed⟩ := deed_of_plan hplan
  have hdrawn := deed.rows (Plan.commit_eq_ok.mp hcommit)
  have hrows : (∀ q ∈ tripRows s p.writes,
      q.2.tripNo ∈ tripNos s ∨ nextTripNo s req.env.today = .ok q.2.tripNo) ∧
      ∀ q ∈ reportRows s p.writes,
        q.2.reportNo ∈ reportNos s ∨ nextReportNo s req.env.utcToday = .ok q.2.reportNo := by
    generalize req.call = call at deed
    cases deed with
    | trip deed =>
      refine ⟨deed.numbers.1, fun q hq => ?_⟩
      rw [deed.numbers.2] at hq
      cases hq
    | expense deed => exact ⟨fun q hq => .inl (deed.numbers.1 q hq), deed.numbers.2⟩
  constructor
  · refine h.trips.continue ⟨req.env.today.year, fun no hno => ?_⟩
    obtain ⟨i, t, ht, rfl⟩ := mem_listed.mp hno
    rcases hdrawn.trips i t ht with hold | ⟨new, at₀, hnew, rfl⟩
    · exact .inl (mem_listed.mpr ⟨i, t, hold, rfl⟩)
    · rw [← nextTripNo_eq]
      exact hrows.1 _ hnew
  · refine h.reports.continue ⟨req.env.utcToday.year, fun no hno => ?_⟩
    obtain ⟨j, r, hr, rfl⟩ := mem_listed.mp hno
    rcases hdrawn.reports j r hr with hold | ⟨new, at₀, hnew, rfl⟩
    · exact .inl (mem_listed.mpr ⟨j, r, hold, rfl⟩)
    · rw [← nextReportNo_eq]
      exact hrows.2 _ hnew

theorem allIssued_run (htrips : s.trips.rows = []) (hreports : s.reports.rows = [])
    (reqs : List DeskRequest) : AllIssued (Run.all desk.step s reqs) := by
  refine Run.invariant_of_step (fun _ _ _ hi hstep => hi.step hstep) ⟨?_, ?_⟩
  · rw [tripNos, listed, htrips]
    exact .nil _
  · rw [reportNos, listed, hreports]
    exact .nil _

/-! ## Creation -/

theorem taken_eq_true {ρ : Type} {t : Table ρ} {column : ρ → String} :
    Store.taken t none column no = true ↔ no ∈ listed t column := by
  simp [Store.taken, mem_listed, Table.mem_rows]

/-- A unique column refuses only what is listed. -/
theorem listed_of_unique {ρ : Type} {t : Table ρ} {column : ρ → String} {columns : String}
    {e : Fault} (h : Store.unique columns (Store.taken t none column no) = .error e) :
    no ∈ listed t column := by
  have htaken := (guardE_eq_error.mp h).1
  rwa [Bool.not_eq_false, taken_eq_true] at htaken

theorem flush_of_commit_eq_error {w : Write} {entityType : EntityType} {entity : EntityRef}
    {tr : Transition} {p : Plan} {v : Violation}
    (hwrites : p.writes = w :: recordTransition env entityType entity tr)
    (h : p.commit s = .error (.integrity v)) : s.flush p.now w = .error (.integrity v) := by
  unfold Plan.commit at h
  split at h
  · cases h
  · next e he =>
    have he' : e = .integrity v := by
      have h := Except.error.inj h
      unfold Plan.translate at h
      split at h
      · split at h
        · cases h
        · exact h
      · exact h
    subst he'
    rw [hwrites, List.foldlM_cons] at he
    rcases bind_eq_error.mp he with hflush | ⟨s₁, -, hhistory⟩
    · exact hflush
    · rw [Store.flush_history] at hhistory
      cases hhistory

/-- A violation of a constraint comes from the statement that inserts the row. -/
abbrev Unconstrained (e : Fault) : Prop := ∀ v, e ≠ .integrity v

theorem unconstrained_currentUser {userId : Int} : Raises (currentUser s userId) Unconstrained :=
  raises_bind (raises_getE nofun) fun _ _ => raises_ok

theorem planned_of_integrity {req : DeskRequest} {v : Violation}
    (h : desk.step s req = .error (.integrity v))
    (hplan : ∀ user, Raises (req.call.plan s req.env user) Unconstrained) :
    ∃ (p : Plan) (user : CurrentUser), Deed s req.env user req.call p.writes ∧
      p.commit s = .error (.integrity v) := by
  rcases bind_eq_error.mp h with h | ⟨p, hp, hcommit⟩
  · have hraises : Raises (req.plan s) Unconstrained :=
      raises_bind unconstrained_currentUser fun user _ => hplan user
    exact absurd rfl (hraises _ h v)
  · obtain ⟨user, -, deed⟩ := deed_of_plan hp
    exact ⟨p, user, deed, hcommit⟩

/-- A creation clashes only if the next number is taken. -/
theorem taken_of_create_trip {userId : Int} {payload : TripCreate}
    (h : desk.step s ⟨env, userId, .trip (.create payload)⟩ =
      .error (.integrity (.unique "trip_no"))) :
    ∃ no ∈ tripNos s, nextTripNo s env.today = .ok no := by
  obtain ⟨p, user, deed, hcommit⟩ := planned_of_integrity h fun user =>
    raises_createTrip (fun _ => nofun) nofun fun _ => nofun
  generalize hws : p.writes = ws at deed
  cases deed with
  | trip deed =>
    cases deed with
    | create new records =>
      rcases bind_eq_error.mp (flush_of_commit_eq_error hws hcommit) with hcheck | ⟨_, -, happly⟩
      · exact ⟨_, listed_of_unique hcheck, new.tripNo⟩
      · cases happly

theorem taken_of_create_report {userId : Int} {payload : ExpenseReportCreate}
    (h : desk.step s ⟨env, userId, .expense (.create payload)⟩ =
      .error (.integrity (.unique "report_no"))) :
    ∃ no ∈ reportNos s, nextReportNo s env.utcToday = .ok no := by
  obtain ⟨p, user, deed, hcommit⟩ := planned_of_integrity h fun user =>
    raises_createReport (fun _ => nofun) nofun nofun
  generalize hws : p.writes = ws at deed
  cases deed with
  | expense deed =>
    cases deed with
    | create load owner reportable single new records =>
      rcases bind_eq_error.mp (flush_of_commit_eq_error hws hcommit) with hcheck | ⟨_, -, happly⟩
      -- the other constraints of the statement have other names
      · rcases bind_eq_error.mp hcheck with hcheck | ⟨_, -, hcheck⟩
        · exact ⟨_, listed_of_unique hcheck, new.reportNo⟩
        · rcases bind_eq_error.mp hcheck with hcheck | ⟨_, -, hcheck⟩
          · exact absurd (guardE_eq_error.mp hcheck).2 (by decide)
          · exact absurd (guardE_eq_error.mp hcheck).2 nofun
      · cases happly

/-! ## Reachable states -/

/-- `next_trip_no` on a day gives a number that no trip has, and no `create_trip` of the day meets
the unique constraint. -/
structure FreshTripNo (s : Store) (today : Date) : Prop where
  next : ∃ n, nextTripNo s today = .ok (number "BT-" today.year n) ∧
    number "BT-" today.year n ∉ tripNos s
  create : ∀ env userId payload, env.today = today →
    desk.step s ⟨env, userId, .trip (.create payload)⟩ ≠ .error (.integrity (.unique "trip_no"))

structure FreshReportNo (s : Store) (today : Date) : Prop where
  next : ∃ n, nextReportNo s today = .ok (number "EX-" today.year n) ∧
    number "EX-" today.year n ∉ reportNos s
  create : ∀ env userId payload, env.utcToday = today →
    desk.step s ⟨env, userId, .expense (.create payload)⟩ ≠
      .error (.integrity (.unique "report_no"))

theorem AllIssued.freshTripNo_iff (h : AllIssued s) (today : Date) :
    FreshTripNo s today ↔ ¬ Overrun 4 (Taken "BT-" (tripNos s) today.year) := by
  rw [← nextNo_fresh_iff h.trips]
  constructor
  · exact FreshTripNo.next
  · rintro ⟨n, hnext, hfree⟩
    refine ⟨⟨n, hnext, hfree⟩, ?_⟩
    rintro env userId payload rfl hclash
    obtain ⟨no, hmem, hno⟩ := taken_of_create_trip hclash
    rw [Except.ok.inj (hno.symm.trans hnext)] at hmem
    exact hfree hmem

theorem AllIssued.freshReportNo_iff (h : AllIssued s) (today : Date) :
    FreshReportNo s today ↔ ¬ Overrun 4 (Taken "EX-" (reportNos s) today.year) := by
  rw [← nextNo_fresh_iff h.reports]
  constructor
  · exact FreshReportNo.next
  · rintro ⟨n, hnext, hfree⟩
    refine ⟨⟨n, hnext, hfree⟩, ?_⟩
    rintro env userId payload rfl hclash
    obtain ⟨no, hmem, hno⟩ := taken_of_create_report hclash
    rw [Except.ok.inj (hno.symm.trans hnext)] at hmem
    exact hfree hmem

/-- In every state that requests of the desk lead to from a store without trips and reports, the
next number of a year is fresh if and only if there is no power of ten, from ten thousand on, that
is taken in the year beside the number before it. -/
theorem numbers_fresh_iff (htrips : s.trips.rows = []) (hreports : s.reports.rows = [])
    (reqs : List DeskRequest) (today : Date) :
    let s' := Run.all desk.step s reqs
    (FreshTripNo s' today ↔ ¬ Overrun 4 (Taken "BT-" (tripNos s') today.year)) ∧
      (FreshReportNo s' today ↔ ¬ Overrun 4 (Taken "EX-" (reportNos s') today.year)) := by
  have h := allIssued_run htrips hreports reqs
  exact ⟨h.freshTripNo_iff today, h.freshReportNo_iff today⟩

/-- In the office, after the first application. -/
theorem numbers_fresh_iff_office :
    let s' := Run.all desk.step Office.store [Office.ask 1 (.trip (.create Office.trip))]
    (FreshTripNo s' (Office.day 739900) ↔
      ¬ Overrun 4 (Taken "BT-" (tripNos s') (Office.day 739900).year)) ∧
      (FreshReportNo s' (Office.day 739900) ↔
        ¬ Overrun 4 (Taken "EX-" (reportNos s') (Office.day 739900).year)) :=
  numbers_fresh_iff rfl rfl _ _

/-! ## Ten thousand trips -/

/-- Kim applies for another trip. -/
def another : DeskRequest := Office.ask 1 (.trip (.create Office.trip))

/-- The office with other trips and another log. -/
def officeWith (trips : Table Trip) (log : Table ActivityLog) : Store :=
  { Office.store with trips, activityLog := log }

section
variable {trips : Table Trip} {log : Table ActivityLog}

theorem validate_another : validateWritableFields (officeWith trips log) (some "MEETING")
    (some "DOMESTIC") (some "KR") (some (Office.day 739800)) (some (Office.day 739801)) =
      .ok () := by
  have hcodes : Codes.validateCodes Office.store
      (codeFields (some "MEETING") (some "DOMESTIC") (some "KR")) = .ok () := by decide +kernel
  exact bind_eq_ok.mpr ⟨(), hcodes, rfl⟩

theorem step_another
    (hnext : nextTripNo (officeWith trips log) Office.env.today = .ok no)
    (hfree : no ∉ tripNos (officeWith trips log)) :
    ∃ t log', t.tripNo = no ∧
      desk.step (officeWith trips log) another = .ok (officeWith (trips.insert t) log') := by
  obtain ⟨p, t, tr, hplan, hwrites, hno, htell⟩ : ∃ (p : Plan) (t : Trip) (tr : Transition),
      desk.plan (officeWith trips log) another = .ok p ∧
        p.writes = .trip (.insert t) :: recordTransition Office.env .trip .inserted tr ∧
          t.tripNo = no ∧ tr.notify = none := by
    have htitle : text "title" "Visit" = .ok () := by decide +kernel
    have hdetail : text "purpose_detail" "Talks" = .ok () := by decide +kernel
    have hcity : text "city" "Seoul" = .ok () := by decide +kernel
    refine ⟨_, _, _, bind_eq_ok.mpr ⟨_, rfl, bind_eq_ok.mpr ⟨(), validate_another,
      bind_eq_ok.mpr ⟨no, hnext, bind_eq_ok.mpr ⟨(), htitle, bind_eq_ok.mpr ⟨(), hdetail,
        bind_eq_ok.mpr ⟨(), hcity, rfl⟩⟩⟩⟩⟩⟩, rfl, rfl, rfl⟩
  have hcheck : (officeWith trips log).check (.trip (.insert t)) = .ok () := by
    refine guardE_eq_ok.mpr (Bool.eq_false_iff.mpr fun htaken => hfree ?_)
    rw [← hno]
    exact taken_eq_true.mp htaken
  obtain ⟨log', hrecord⟩ : ∃ log', ({ officeWith trips log with trips := trips.insert t } :
      Store).record Office.env .trip .inserted tr = officeWith (trips.insert t) log' := by
    rw [Store.record, htell]
    exact ⟨_, rfl⟩
  refine ⟨t, log', hno, bind_eq_ok.mpr ⟨p, hplan, Plan.commit_eq_ok.mpr ?_⟩⟩
  rw [hwrites, List.foldlM_cons, ← hrecord]
  exact bind_eq_ok.mpr ⟨_, bind_eq_ok.mpr ⟨(), hcheck, rfl⟩, Store.flush_history⟩

theorem mem_tripNos_insert {t : Trip} {log' : Table ActivityLog} :
    no ∈ tripNos (officeWith (trips.insert t) log') ↔
      no = t.tripNo ∨ no ∈ tripNos (officeWith trips log) := by
  rw [tripNos, tripNos, mem_listed, mem_listed]
  constructor
  · rintro ⟨i, u, hu, rfl⟩
    rcases Table.get_insert_eq_some hu with ⟨-, rfl⟩ | ⟨-, hu⟩
    · exact .inl rfl
    · exact .inr ⟨i, u, hu, rfl⟩
  · rintro (rfl | ⟨i, u, hu, rfl⟩)
    · exact ⟨_, t, Table.get_insert_next _ _, rfl⟩
    · exact ⟨i, u, Table.get_insert_of_some hu, rfl⟩

end

/-- After `n` applications in a row the numbers up to `n` are taken, as long as they have four
digits. -/
theorem taken_another {n : Nat} (hn : n ≤ 10000) : ∃ trips log,
    Run.all desk.step Office.store (List.replicate n another) = officeWith trips log ∧
      ∀ m, Taken "BT-" (tripNos (officeWith trips log)) Office.env.today.year m ↔
        1 ≤ m ∧ m ≤ n := by
  induction n with
  | zero =>
    refine ⟨Office.store.trips, Office.store.activityLog, rfl, fun m => ?_⟩
    exact iff_of_false List.not_mem_nil (by omega)
  | succ n ih =>
    obtain ⟨trips, log, hrun, htaken⟩ := ih (by omega)
    have hissued : AllIssued (officeWith trips log) := hrun ▸ allIssued_run rfl rfl _
    have hnot : ¬ Overrun 4 (Taken "BT-" (tripNos (officeWith trips log))
        Office.env.today.year) := by
      rintro ⟨k, hk, -, hpow⟩
      have hle := ((htaken _).mp hpow).2
      have : 10 ^ 4 ≤ 10 ^ k := Nat.pow_le_pow_right (by decide) hk
      omega
    have hnext : nextTripNo (officeWith trips log) Office.env.today =
        .ok (number "BT-" Office.env.today.year (n + 1)) := by
      rcases nextNo_cases hissued.trips Office.env.today.year with
        ⟨hnone, hnext⟩ | ⟨m, htops, hnext⟩
      · have hzero : n = 0 := by
          by_contra hne
          exact hnone 1 ((htaken 1).mpr (by omega))
        rw [nextTripNo_eq, hnext, hzero]
      · have hm := (htaken m).mp htops.last
        have hfree : ¬ (1 ≤ m + 1 ∧ m + 1 ≤ n) := fun h =>
          hnot ((htops.taken_succ_iff (hissued.trips.capped _)).mp ((htaken _).mpr h))
        have hlast : m = n := by omega
        rw [nextTripNo_eq, hnext, hlast]
    have hfree : number "BT-" Office.env.today.year (n + 1) ∉ tripNos (officeWith trips log) :=
      fun hmem => absurd ((htaken _).mp hmem).2 (by omega)
    obtain ⟨t, log', hno, hstep⟩ := step_another hnext hfree
    refine ⟨trips.insert t, log', ?_, fun m => ?_⟩
    · rw [List.replicate_succ', Run.all_append, hrun, Run.all_cons, Run.all_nil,
        Run.settle_eq hstep]
    · rw [Taken, mem_tripNos_insert, hno]
      constructor
      · rintro (hm | hm)
        · have := number_inj hm
          omega
        · have := (htaken m).mp hm
          omega
      · intro hm
        by_cases hlast : m = n + 1
        · exact .inl (by rw [hlast])
        · exact .inr ((htaken m).mpr (by omega))

/-- In a year with ten thousand trips no number is fresh. -/
theorem number_taken_twice :
    ¬ ∀ (s₀ : Store) (reqs : List DeskRequest) (today : Date), s₀.trips.rows = [] →
      s₀.reports.rows = [] → FreshTripNo (Run.all desk.step s₀ reqs) today := by
  intro hall
  obtain ⟨trips, log, hrun, htaken⟩ := taken_another (le_refl 10000)
  have hissued : AllIssued (officeWith trips log) := hrun ▸ allIssued_run rfl rfl _
  have hfresh : FreshTripNo (officeWith trips log) Office.env.today := hrun ▸ hall _ _ _ rfl rfl
  refine (hissued.freshTripNo_iff _).mp hfresh ⟨4, le_rfl, ?_, ?_⟩
  · exact (htaken _).mpr (by decide)
  · exact (htaken _).mpr (by decide)

end Biztrip.Desk
