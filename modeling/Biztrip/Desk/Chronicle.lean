import Biztrip.Desk.AuditTrail

/-!
# The log and the notifications of a run

`chronicle` is the log of a run with, beside each row, the store that its request left.
There the approver that a submission has recorded can be read, and the owner of what was
approved or rejected; `notice` is what the row has to announce to them. The notifications
are these announcements, in order. A row that names the status of the request before it
makes the log a trail (`Trails`), and with a clock that does not go back the
timeline shows it in that order.
-/

namespace Biztrip.Desk

open Biztrip.Lib Trips Expenses

/-- What is compared of a notification: whom it tells what, about which page, and when. -/
structure Notice where
  userId : Int
  type : NotificationType
  linkUrl : Option String
  createdAt : Instant
  deriving DecidableEq

def told (n : Notification) : Notice := ⟨n.userId, n.type, n.linkUrl, n.createdAt⟩

def entityLink : EntityType → Int → String
  | .trip, i => Trips.link i
  | .expenseReport, j => Expenses.link j

def noticeType : EntityType → ActivityAction → Option NotificationType
  | .trip, .submitted => some .tripSubmitted
  | .trip, .approved => some .tripApproved
  | .trip, .rejected => some .tripRejected
  | .expenseReport, .submitted => some .expenseSubmitted
  | .expenseReport, .approved => some .expenseApproved
  | .expenseReport, .rejected => some .expenseRejected
  | _, _ => none

def approverOf (s : Store) : EntityType → Int → Option Int
  | .trip, i => (s.trips.get i).bind Trip.approverId
  | .expenseReport, j => (s.reports.get j).bind ExpenseReport.approverId

def ownerOf (s : Store) : EntityType → Int → Option Int
  | .trip, i => (s.trips.get i).map Trip.userId
  | .expenseReport, j => (s.reports.get j).map ExpenseReport.userId

/-- A submission concerns the approver it has recorded, a decision the owner. -/
def recipient (s : Store) (e : ActivityLog) : Option Int :=
  match e.action with
  | .submitted => approverOf s e.entityType e.entityId
  | .approved | .rejected => ownerOf s e.entityType e.entityId
  | _ => none

/-- What a log row announces in the store that its request left; nobody is told of what they did
themselves. -/
def notice (s : Store) (e : ActivityLog) : Option Notice := do
  let userId ← recipient s e
  let type ← noticeType e.entityType e.action
  if userId = e.actorId then none
  else some ⟨userId, type, some (entityLink e.entityType e.entityId), e.createdAt⟩

/-- The log rows of a run from `s`, oldest first, each with the store its request left. -/
def chronicle (s : Store) : List DeskRequest → List (Store × ActivityLog)
  | [] => []
  | req :: reqs =>
    let s' := Run.settle s (desk.step s req)
    ((s'.activityLog.rows.drop s.activityLog.rows.length).map fun p => (s', p.2)) ++
      chronicle s' reqs

variable {s s' : Store} {env : Env} {user : CurrentUser} {now : Instant} {ws : List Write}
  {entityType : EntityType} {ref : EntityRef} {tr : Transition} {e : ActivityLog} {i : Int}

theorem recipient_of_submitted (h : e.action = .submitted) :
    recipient s e = approverOf s e.entityType e.entityId := by
  rw [recipient, h]

theorem recipient_of_decided (h : e.action = .approved ∨ e.action = .rejected) :
    recipient s e = ownerOf s e.entityType e.entityId := by
  unfold recipient
  rcases h with h | h <;> rw [h]

theorem recipient_of_other {action : ActivityAction} (h : e.action = action)
    (ha : action ≠ .submitted ∧ action ≠ .approved ∧ action ≠ .rejected) :
    recipient s e = none := by
  unfold recipient
  rw [h]
  cases action <;> simp_all

/-! ## One history -/

/-- The log row a history writes into `s`. -/
def entry (s : Store) (env : Env) (entityType : EntityType) (ref : EntityRef) (tr : Transition) :
    ActivityLog :=
  { tr.logRow env entityType with entityId := s.resolve entityType ref }

/-- The announcement a history makes. -/
def announcement (env : Env) (tr : Transition) : Option Notice :=
  tr.notify.bind fun n =>
    if n.userId = tr.actorId then none else some ⟨n.userId, n.type, n.linkUrl, env.txnNow⟩

theorem told_record :
    (s.record env entityType ref tr).notifications.rows.map (fun p => told p.2) =
      s.notifications.rows.map (fun p => told p.2) ++ (announcement env tr).toList := by
  unfold Store.record announcement
  rcases tr.notify with _ | n
  · simp
  · by_cases hn : n.userId = tr.actorId
    · simp [hn]
    · simp [hn, Table.insert, told]

/-- The statement that carries the announcement. -/
theorem mem_history {n : NotifySpec} (hn : tr.notify = some n) (hne : n.userId ≠ tr.actorId) :
    Write.notification (.insert
      { userId := n.userId, type := n.type, title := n.title, body := n.body, linkUrl := n.linkUrl
        isRead := false, createdAt := env.txnNow }) ∈ recordTransition env entityType ref tr := by
  refine List.mem_cons_of_mem _ ?_
  unfold Transition.notificationWrites
  rw [hn]
  simp [hne]

theorem notify_of_mem_history {n : Notification}
    (h : Write.notification (.insert n) ∈ recordTransition env entityType ref tr) :
    ∃ spec, tr.notify = some spec ∧ n.type = spec.type ∧ n.linkUrl = spec.linkUrl := by
  rcases List.mem_cons.mp h with h | h
  · cases h
  unfold Transition.notificationWrites at h
  rcases hspec : tr.notify with _ | spec
  · rw [hspec] at h
    cases h
  · rw [hspec] at h
    by_cases hself : spec.userId = tr.actorId
    · simp only [hself, if_true] at h
      cases h
    · simp only [hself, if_false, List.mem_singleton, Write.notification.injEq,
        RowWrite.insert.injEq] at h
      exact ⟨spec, rfl, by rw [h], by rw [h]⟩

/-- Every announcement among the statements is of this type and page. -/
def Announces (ws : List Write) (type : Option NotificationType) (linkUrl : Option String) : Prop :=
  ∀ n, Write.notification (.insert n) ∈ ws → type = some n.type ∧ n.linkUrl = linkUrl

theorem Announces.mono {ws' : List Write} {type : Option NotificationType} {linkUrl : Option String}
    (h : Announces ws type linkUrl) (hws : ∀ w ∈ ws', w ∈ ws) : Announces ws' type linkUrl :=
  fun n hn => h n (hws _ hn)

theorem notice_entry {action : ActivityAction} {src dst : Option String} {recip : Option Int}
    (records : Records tr user action src dst recip)
    (hann : recip = none ∨ Announces (recordTransition env entityType ref tr)
      (noticeType entityType action) (some (entityLink entityType (s.resolve entityType ref))))
    (hrecip : recipient s' (entry s env entityType ref tr) = recip) :
    notice s' (entry s env entityType ref tr) = announcement env tr := by
  have haction : (entry s env entityType ref tr).action = action := records.action
  unfold notice announcement
  rw [hrecip, haction, ← records.recipient]
  rcases hn : tr.notify with _ | n
  · rfl
  by_cases hne : n.userId = tr.actorId
  · -- the one who acted is told nothing, whatever the type
    simp only [Option.map_some, Option.bind_eq_bind, Option.bind_some, hne, if_true]
    rcases noticeType entityType action with _ | type
    · simp [entry, Transition.logRow]
    · simp [entry, Transition.logRow]
  · rcases hann with hnone | hann
    · have hrecipient := records.recipient
      rw [hn, hnone] at hrecipient
      cases hrecipient
    · obtain ⟨htype, hlink⟩ := hann _ (mem_history hn hne)
      simp only [entry, Transition.logRow] at htype hlink ⊢
      simp [htype, hne, hlink]

/-! ## One request -/

/-- What a request has added to the log and to the notifications. -/
structure Logged (s s' : Store) (now : Instant) (es : List ActivityLog) : Prop where
  log : s'.activityLog = es.foldl Table.insert s.activityLog
  dated : ∀ e ∈ es, e.createdAt = now
  notices : s'.notifications.rows.map (fun p => told p.2) =
    s.notifications.rows.map (fun p => told p.2) ++ es.filterMap (notice s')

theorem Logged.nil (hlog : s'.activityLog = s.activityLog)
    (hnotices : s'.notifications = s.notifications) : Logged s s' now [] :=
  ⟨hlog, fun _ he => absurd he List.not_mem_nil, by simp [hnotices]⟩

theorem Logged.record {s₁ : Store} (hlog : s₁.activityLog = s.activityLog)
    (hnotices : s₁.notifications = s.notifications)
    (hnotice : notice (s₁.record env entityType ref tr) (entry s₁ env entityType ref tr) =
      announcement env tr) :
    Logged s (s₁.record env entityType ref tr) env.txnNow [entry s₁ env entityType ref tr] := by
  refine ⟨?_, ?_, ?_⟩
  · rw [← hlog]
    rfl
  · intro e he
    rw [List.mem_singleton.mp he]
    rfl
  · rw [told_record, hnotices]
    rcases h : announcement env tr with _ | n <;> simp [hnotice, h]

theorem logged_trip {w : RowWrite Trip} {action : ActivityAction} {src dst : Option String}
    {recip : Option Int} (records : Records tr user action src dst recip)
    (hann : recip = none ∨ Announces (recordTransition env .trip (.stored i) tr)
      (noticeType .trip action) (some (Trips.link i)))
    (hc : (Write.trip w :: recordTransition env .trip (.stored i) tr).foldlM (Store.flush now) s =
      .ok s')
    (hrecip : ∀ e : ActivityLog, e.entityType = .trip → e.entityId = i → e.action = action →
      recipient s' e = recip) : ∃ es, Logged s s' env.txnNow es := by
  obtain ⟨-, u, -, rfl⟩ := commit_trip hc
  exact ⟨_, .record rfl rfl (notice_entry records hann (hrecip _ rfl rfl records.action))⟩

theorem logged_report {w : RowWrite ExpenseReport} {action : ActivityAction}
    {src dst : Option String} {recip : Option Int} (records : Records tr user action src dst recip)
    (hann : recip = none ∨ Announces (recordTransition env .expenseReport (.stored i) tr)
      (noticeType .expenseReport action) (some (Expenses.link i)))
    (hc : (Write.report w :: recordTransition env .expenseReport (.stored i) tr).foldlM
      (Store.flush now) s = .ok s')
    (hrecip : ∀ e : ActivityLog, e.entityType = .expenseReport → e.entityId = i →
      e.action = action → recipient s' e = recip) : ∃ es, Logged s s' env.txnNow es := by
  obtain ⟨-, u, -, rfl⟩ := commit_report hc
  exact ⟨_, .record rfl rfl (notice_entry records hann (hrecip _ rfl rfl records.action))⟩

/-! ## What the calls announce -/

/-- A trip transition announces what its change says. -/
theorem announces_transition {tripId : Int} {target : TripStatus}
    {change : Trip → Result Trips.Change} {p : Plan} {type : Option NotificationType}
    (h : Trips.transition s env user tripId target change = .ok p)
    (hchange : ∀ t c, change t = .ok c → ∀ n, c.notify = some n →
      type = some n.type ∧ n.linkUrl = some (Trips.link tripId)) :
    Announces p.writes type (some (Trips.link tripId)) := by
  obtain ⟨t, c, -, -, hc, rfl⟩ := transition_eq_ok h
  intro n hn
  rcases List.mem_cons.mp hn with hn | hn
  · cases hn
  · obtain ⟨spec, hspec, htype, hlink⟩ := notify_of_mem_history hn
    rw [htype, hlink]
    exact hchange t c hc spec hspec

/-- So does a report transition, as long as what follows it announces nothing. -/
theorem announces_reportTransition {reportId : Int} {target : ExpenseReportStatus}
    {change : ExpenseReport → Result Expenses.Change} {p : Plan} {type : Option NotificationType}
    (h : Expenses.transition s env user reportId target change = .ok p)
    (hchange : ∀ r c, change r = .ok c →
      (∀ n, c.notify = some n → type = some n.type ∧ n.linkUrl = some (Expenses.link reportId)) ∧
        ∀ n, Write.notification (.insert n) ∉ c.after) :
    Announces p.writes type (some (Expenses.link reportId)) := by
  obtain ⟨r, c, -, -, hc, rfl⟩ := reportTransition_eq_ok h
  obtain ⟨hnotify, hafter⟩ := hchange r c hc
  intro n hn
  rcases List.mem_append.mp hn with hn | hn
  · rcases List.mem_cons.mp hn with hn | hn
    · cases hn
    · obtain ⟨spec, hspec, htype, hlink⟩ := notify_of_mem_history hn
      rw [htype, hlink]
      exact hnotify spec hspec
  · exact absurd hn (hafter n)

theorem announces_submitTrip {p : Plan} (h : submitTrip s env user i = .ok p) :
    Announces p.writes (some .tripSubmitted) (some (Trips.link i)) := by
  refine announces_transition h fun t c hc n hn => ?_
  obtain ⟨_, -, hc⟩ := bind_eq_ok.mp hc
  obtain ⟨_, -, hc⟩ := bind_eq_ok.mp hc
  rw [pure_eq_ok, Except.ok.injEq] at hc
  subst hc
  cases hn
  exact ⟨rfl, rfl⟩

theorem announces_approveTrip {p : Plan} (h : approveTrip s env user i = .ok p) :
    Announces p.writes (some .tripApproved) (some (Trips.link i)) := by
  refine announces_transition h fun t c hc n hn => ?_
  rw [pure_eq_ok, Except.ok.injEq] at hc
  subst hc
  cases hn
  exact ⟨rfl, rfl⟩

theorem announces_rejectTrip {p : Plan} {payload : RejectRequest}
    (h : rejectTrip s env user i payload = .ok p) :
    Announces p.writes (some .tripRejected) (some (Trips.link i)) := by
  refine announces_transition h fun t c hc n hn => ?_
  obtain ⟨_, -, hc⟩ := bind_eq_ok.mp hc
  obtain ⟨_, -, hc⟩ := bind_eq_ok.mp hc
  rw [pure_eq_ok, Except.ok.injEq] at hc
  subst hc
  cases hn
  exact ⟨rfl, rfl⟩

theorem announces_submitReport {p : Plan} (h : submitReport s env user i = .ok p) :
    Announces p.writes (some .expenseSubmitted) (some (Expenses.link i)) := by
  refine announces_reportTransition h fun r c hc => ?_
  simp only [bind_eq_ok, pure_eq_ok, Except.ok.injEq] at hc
  obtain ⟨t, -, _, -, _, -, _, -, _, -, _, -, total, -, approverId, -, rfl⟩ := hc
  exact ⟨fun n hn => Option.some.inj hn ▸ ⟨rfl, rfl⟩, fun _ => List.not_mem_nil⟩

/-- The settlement of the trip announces nothing. -/
theorem announces_approveReport {p : Plan} (h : approveReport s env user i = .ok p) :
    Announces p.writes (some .expenseApproved) (some (Expenses.link i)) := by
  refine announces_reportTransition h fun r c hc => ?_
  obtain ⟨t, -, hc⟩ := bind_eq_ok.mp hc
  obtain ⟨settle, hsettle, hc⟩ := bind_eq_ok.mp hc
  obtain ⟨_, -, hsettle⟩ := bind_eq_ok.mp hsettle
  rw [pure_eq_ok, Except.ok.injEq] at hc hsettle
  subst hc hsettle
  refine ⟨fun n hn => Option.some.inj hn ▸ ⟨rfl, rfl⟩, fun n hn => ?_⟩
  rcases List.mem_cons.mp hn with hn | hn
  · cases hn
  · obtain ⟨spec, hspec, -⟩ := notify_of_mem_history hn
    cases hspec

theorem announces_rejectReport {p : Plan} {payload : RejectRequest}
    (h : rejectReport s env user i payload = .ok p) :
    Announces p.writes (some .expenseRejected) (some (Expenses.link i)) := by
  refine announces_reportTransition h fun r c hc => ?_
  obtain ⟨reason, -, hc⟩ := bind_eq_ok.mp hc
  obtain ⟨t, -, hc⟩ := bind_eq_ok.mp hc
  obtain ⟨_, -, hc⟩ := bind_eq_ok.mp hc
  rw [pure_eq_ok, Except.ok.injEq] at hc
  subst hc
  exact ⟨fun n hn => Option.some.inj hn ▸ ⟨rfl, rfl⟩, fun _ => List.not_mem_nil⟩

/-! ## What a deed adds -/

theorem TripDeed.logged {call : TripCall} {p : Plan} (hplan : call.plan s env user = .ok p)
    (hws : p.writes = ws) (deed : TripDeed s env user call ws)
    (hc : ws.foldlM (Store.flush now) s = .ok s') : ∃ es, Logged s s' env.txnNow es := by
  have history : ∀ {i : Int} {t t' : Trip} {tr : Transition},
      ∀ w ∈ recordTransition env .trip (.stored i) tr,
        w ∈ Write.trip (.update i t t') :: recordTransition env .trip (.stored i) tr :=
    fun w hw => List.mem_cons_of_mem _ hw
  cases deed with
  | delete load owner status =>
    obtain ⟨-, rfl⟩ := commit_delete_trip hc
    exact ⟨[], .nil rfl rfl⟩
  | create new records =>
    obtain ⟨-, u, -, rfl⟩ := commit_trip hc
    exact ⟨_, .record rfl rfl <|
      notice_entry records (.inl rfl) (recipient_of_other records.action (by decide))⟩
  | update load owner editable assigned range same records =>
    exact logged_trip records (.inl rfl) hc fun e _ _ ha => recipient_of_other ha (by decide)
  | reopen load owner status moved records =>
    exact logged_trip records (.inl rfl) hc fun e _ _ ha => recipient_of_other ha (by decide)
  | complete load owner status ended moved records =>
    exact logged_trip records (.inl rfl) hc fun e _ _ ha => recipient_of_other ha (by decide)
  | @submit i t t' approverId _ load owner status range approver moved records =>
    have hann : Announces p.writes (some .tripSubmitted) (some (Trips.link i)) :=
      announces_submitTrip hplan
    rw [hws] at hann
    obtain ⟨-, u, happly, hs'⟩ := commit_trip hc
    obtain ⟨at₀, hget⟩ := (updated_of_apply (loadVisibleTrip_eq_ok.mp load).2.1 happly).get_self
    refine logged_trip records (.inr (hann.mono history)) hc fun e hty hid ha => ?_
    rw [recipient_of_submitted ha, hty, hid, approverOf, hs', Store.record_trips, hget, moved]
    rfl
  | @approve i t t' _ load approver status moved records =>
    have hann : Announces p.writes (some .tripApproved) (some (Trips.link i)) :=
      announces_approveTrip hplan
    rw [hws] at hann
    obtain ⟨-, u, happly, hs'⟩ := commit_trip hc
    obtain ⟨at₀, hget⟩ := (updated_of_apply (loadVisibleTrip_eq_ok.mp load).2.1 happly).get_self
    refine logged_trip records (.inr (hann.mono history)) hc fun e hty hid ha => ?_
    rw [recipient_of_decided (.inl ha), hty, hid, ownerOf, hs', Store.record_trips, hget, moved]
    rfl
  | @reject i _ t t' _ _ load approver status given moved records =>
    have hann : Announces p.writes (some .tripRejected) (some (Trips.link i)) :=
      announces_rejectTrip hplan
    rw [hws] at hann
    obtain ⟨-, u, happly, hs'⟩ := commit_trip hc
    obtain ⟨at₀, hget⟩ := (updated_of_apply (loadVisibleTrip_eq_ok.mp load).2.1 happly).get_self
    refine logged_trip records (.inr (hann.mono history)) hc fun e hty hid ha => ?_
    rw [recipient_of_decided (.inr ha), hty, hid, ownerOf, hs', Store.record_trips, hget, moved]
    rfl

theorem ExpenseDeed.logged {call : ExpenseCall} {p : Plan} (hplan : call.plan s env user = .ok p)
    (hws : p.writes = ws) (deed : ExpenseDeed s env user call ws)
    (hc : ws.foldlM (Store.flush now) s = .ok s') : ∃ es, Logged s s' env.txnNow es := by
  have history : ∀ {j : Int} {r r' : ExpenseReport} {tr : Transition},
      ∀ w ∈ recordTransition env .expenseReport (.stored j) tr,
        w ∈ Write.report (.update j r r') :: recordTransition env .expenseReport (.stored j) tr :=
    fun w hw => List.mem_cons_of_mem _ hw
  cases deed with
  | create load owner reportable single new records =>
    obtain ⟨-, u, -, rfl⟩ := commit_report hc
    exact ⟨_, .record rfl rfl <|
      notice_entry records (.inl rfl) (recipient_of_other records.action (by decide))⟩
  | update load centers assigned records =>
    exact logged_report records (.inl rfl) hc fun e _ _ ha => recipient_of_other ha (by decide)
  | reopen load owner status moved records =>
    exact logged_report records (.inl rfl) hc fun e _ _ ha => recipient_of_other ha (by decide)
  | addItem | updateItem | deleteItem =>
    obtain ⟨u, u', -, -, -, rfl⟩ := commit_edit hc
    exact ⟨[], .nil rfl rfl⟩
  | @submit j r r' t _ _ _ load owner status trip completed present centers items recalc approver
      moved records =>
    have hann : Announces p.writes (some .expenseSubmitted) (some (Expenses.link j)) :=
      announces_submitReport hplan
    rw [hws] at hann
    obtain ⟨-, u, happly, hs'⟩ := commit_report hc
    obtain ⟨at₀, hget⟩ := (updated_of_apply (loadVisibleReport_eq_ok.mp load).2.1 happly).get_self
    refine logged_report records (.inr (hann.mono history)) hc fun e hty hid ha => ?_
    rw [recipient_of_submitted ha, hty, hid, approverOf, hs', Store.record_reports, hget, moved]
    rfl
  | @reject j _ r r' _ _ load approver status given moved records =>
    have hann : Announces p.writes (some .expenseRejected) (some (Expenses.link j)) :=
      announces_rejectReport hplan
    rw [hws] at hann
    obtain ⟨-, u, happly, hs'⟩ := commit_report hc
    obtain ⟨at₀, hget⟩ := (updated_of_apply (loadVisibleReport_eq_ok.mp load).2.1 happly).get_self
    refine logged_report records (.inr (hann.mono history)) hc fun e hty hid ha => ?_
    rw [recipient_of_decided (.inr ha), hty, hid, ownerOf, hs', Store.record_reports, hget, moved]
    rfl
  | @approve j r r' t t' tr tr' load approver status trip completed moved settled records
      records' =>
    have hann : Announces p.writes (some .expenseApproved) (some (Expenses.link j)) :=
      announces_approveReport hplan
    rw [hws] at hann
    obtain ⟨u, u', hreport, -, hs'⟩ := commit_approve hc
    obtain ⟨at₀, hget⟩ := (updated_of_apply (loadVisibleReport_eq_ok.mp load).2.1 hreport).get_self
    have hfirst : Announces (recordTransition env .expenseReport (.stored j) tr)
        (noticeType .expenseReport .approved) (some (Expenses.link j)) :=
      hann.mono fun w hw => List.mem_append_left _ (history w hw)
    have happroved : notice s' (entry { s with reports := u } env .expenseReport (.stored j) tr) =
        announcement env tr := by
      refine notice_entry records (.inr hfirst) ?_
      have howner : ownerOf s' .expenseReport j = some r.userId := by
        rw [ownerOf, hs', Store.record_reports]
        exact (congrArg (Option.map ExpenseReport.userId) hget).trans (by rw [moved]; rfl)
      exact (recipient_of_decided (.inl records.action)).trans howner
    have hsettled : announcement env tr' = none := by
      unfold announcement
      rw [Option.map_eq_none_iff.mp records'.recipient]
      rfl
    have hquiet : ∀ e, e.action = .settled → notice s' e = none := by
      intro e he
      rw [notice, recipient_of_other he (by decide)]
      rfl
    refine ⟨[entry { s with reports := u } env .expenseReport (.stored j) tr,
      { tr'.logRow env .trip with entityId := r.tripId }], ?_, ?_, ?_⟩
    · rw [hs']
      rfl
    · simp [entry, Transition.logRow]
    · rw [List.filterMap_cons, happroved, List.filterMap_cons, hquiet _ records'.action, hs',
        told_record, hsettled, told_record]
      rcases announcement env tr with _ | n <;> simp

theorem logged_of_step {req : DeskRequest} (hstep : desk.step s req = .ok s') :
    ∃ es, Logged s s' req.env.txnNow es := by
  obtain ⟨p, hplan, hcommit⟩ := bind_eq_ok.mp hstep
  obtain ⟨user, huser, deed⟩ := deed_of_plan hplan
  have hc := Plan.commit_eq_ok.mp hcommit
  have hplan : req.call.plan s req.env user = .ok p := by
    obtain ⟨user', huser', hplan⟩ := bind_eq_ok.mp hplan
    rw [huser, Except.ok.injEq] at huser'
    exact huser' ▸ hplan
  generalize req.call = call at deed hplan
  generalize hws : p.writes = ws at deed hc
  cases deed with
  | trip deed => exact deed.logged hplan hws hc
  | expense deed => exact deed.logged hplan hws hc

/-! ## The order of the log -/

/-- The rows up to the time `now`, in the order of their keys and of their times. -/
structure InOrder (log : Table ActivityLog) (now : Instant) : Prop where
  sorted : log.rows.Pairwise fun a b => a.1 < b.1 ∧ a.2.createdAt ≤ b.2.createdAt
  past : ∀ p ∈ log.rows, p.2.createdAt ≤ now

variable {log : Table ActivityLog}

theorem InOrder.mono {now' : Instant} (h : InOrder log now) (hnow : now ≤ now') :
    InOrder log now' := ⟨h.sorted, fun p hp => Int.le_trans (h.past p hp) hnow⟩

theorem InOrder.insert (h : InOrder log now) (he : e.createdAt = now) :
    InOrder (log.insert e) now := by
  refine ⟨List.pairwise_append.mpr ⟨h.sorted, List.pairwise_singleton _ _, ?_⟩, fun p hp => ?_⟩
  · intro p hp q hq
    rw [List.mem_singleton.mp hq, he]
    exact ⟨log.fresh p hp, h.past p hp⟩
  · rcases List.mem_append.mp hp with hp | hp
    · exact h.past p hp
    · rw [List.mem_singleton.mp hp, he]

theorem InOrder.foldl {es : List ActivityLog} (h : InOrder log now)
    (hes : ∀ e ∈ es, e.createdAt = now) : InOrder (es.foldl Table.insert log) now := by
  induction es generalizing log with
  | nil => exact h
  | cons e es ih =>
    exact ih (h.insert (hes e List.mem_cons_self)) fun e' he' => hes e' (List.mem_cons_of_mem _ he')

theorem rows_foldl {es : List ActivityLog} :
    ((es.foldl Table.insert log).rows.map Prod.snd) = log.rows.map Prod.snd ++ es := by
  induction es generalizing log with
  | nil => simp
  | cons e es ih => simp [ih, Table.insert]

/-- With a clock that does not go back, the log of a run is in order. -/
theorem inOrder_of_clock {s₀ : Store} (hlog : s₀.activityLog.rows = []) (reqs : List DeskRequest) :
    reqs.Pairwise (fun a b => a.env.txnNow ≤ b.env.txnNow) →
      ∀ now, (∀ req ∈ reqs, req.env.txnNow ≤ now) →
        InOrder (Run.all desk.step s₀ reqs).activityLog now := by
  let I : List DeskRequest → Store → Prop := fun past s =>
    past.Pairwise (fun a b => a.env.txnNow ≤ b.env.txnNow) →
      ∀ now, (∀ req ∈ past, req.env.txnNow ≤ now) → InOrder s.activityLog now
  suffices hrun : I reqs (Run.all desk.step s₀ reqs) from hrun
  refine Run.invariant_of_past ?_ ?_ reqs
  · intro _ now _
    exact ⟨by simp [hlog], by simp [hlog]⟩
  · intro past req ih hclock now hnow
    obtain ⟨hpast, -, hlast⟩ := List.pairwise_append.mp hclock
    have hold := ih hpast req.env.txnNow fun r hr => hlast r hr req (List.mem_singleton_self _)
    have hle : req.env.txnNow ≤ now := hnow req (by simp)
    rcases hstep : desk.step (Run.all desk.step s₀ past) req with err | s'
    · exact hold.mono hle
    · obtain ⟨es, hlogged⟩ := logged_of_step hstep
      have hnew := hold.foldl hlogged.dated
      rw [← hlogged.log] at hnew
      exact hnew.mono hle

theorem exists_last_time (reqs : List DeskRequest) : ∃ now, ∀ req ∈ reqs, req.env.txnNow ≤ now := by
  induction reqs with
  | nil => exact ⟨0, fun _ h => absurd h List.not_mem_nil⟩
  | cons req reqs ih =>
    obtain ⟨now, hnow⟩ := ih
    refine ⟨max req.env.txnNow now, List.forall_mem_cons.mpr ⟨Int.le_max_left _ _, fun r hr => ?_⟩⟩
    exact Int.le_trans (hnow r hr) (Int.le_max_right _ _)

/-- The timeline of a log in order is the log. -/
theorem InOrder.timeline (h : InOrder s.activityLog now) (entityType : EntityType) (i : Int) :
    (timelineRows s entityType i).map Prod.snd = entriesOf s entityType i := by
  unfold timelineRows entriesOf
  rw [orderBy_of_sorted, List.filter_map]
  · rfl
  · refine (h.sorted.imp fun {a b} hab => ?_).filter _
    rw [Prod.Lex.toLex_le_toLex]
    rcases Int.lt_or_eq_of_le hab.2 with hlt | heq
    · exact .inl hlt
    · exact .inr ⟨heq, hab.1.le⟩

/-! ## Runs -/

/-- What a run has added to the log is its chronicle, and what it has added to the notifications is
what the chronicle announces. -/
theorem chronicle_added (reqs : List DeskRequest) :
    (Run.all desk.step s reqs).activityLog.rows.map Prod.snd =
        s.activityLog.rows.map Prod.snd ++ (chronicle s reqs).map Prod.snd ∧
      (Run.all desk.step s reqs).notifications.rows.map (fun p => told p.2) =
        s.notifications.rows.map (fun p => told p.2) ++
          (chronicle s reqs).filterMap fun p => notice p.1 p.2 := by
  induction reqs generalizing s with
  | nil => simp [chronicle]
  | cons req reqs ih =>
    obtain ⟨hlog, hnotices⟩ := ih (s := Run.settle s (desk.step s req))
    rw [Run.all_cons, hlog, hnotices]
    rcases hstep : desk.step s req with err | s'
    · simp [chronicle, hstep, Run.settle]
    · obtain ⟨es, hlogged⟩ := logged_of_step hstep
      have hrows : s'.activityLog.rows.map Prod.snd = s.activityLog.rows.map Prod.snd ++ es := by
        rw [hlogged.log, rows_foldl]
      have hdrop : (s'.activityLog.rows.drop s.activityLog.rows.length).map Prod.snd = es := by
        have hlength : s.activityLog.rows.length = (s.activityLog.rows.map Prod.snd).length :=
          (List.length_map Prod.snd).symm
        rw [List.map_drop, hrows, hlength, List.drop_left]
      have hfirst : (s'.activityLog.rows.drop s.activityLog.rows.length).map (fun p => (s', p.2)) =
          es.map fun e => (s', e) := by
        rw [← hdrop, List.map_map]
        rfl
      simp only [chronicle, hstep, Run.settle, hfirst, hlogged.notices, hrows]
      constructor
      · simp [Function.comp_def]
      · simp [List.filterMap_map]

/-- After every serial run of the desk, from a store without trips, reports, log and notifications,
the timeline of each trip and report replays to its status, and the notifications are exactly what
the log announces. -/
theorem audit_trail_replays {s₀ : Store} (htrips : s₀.trips.rows = [])
    (hreports : s₀.reports.rows = []) (hlog : s₀.activityLog.rows = [])
    (hnotifications : s₀.notifications.rows = []) (reqs : List DeskRequest)
    (hclock : reqs.Pairwise fun a b => a.env.txnNow ≤ b.env.txnNow) :
    let s := Run.all desk.step s₀ reqs
    (∀ i t, s.trips.get i = some t →
      Replays TripStep ((timelineRows s .trip i).map Prod.snd) t.status.value) ∧
    (∀ j r, s.reports.get j = some r →
      Replays ReportStep ((timelineRows s .expenseReport j).map Prod.snd) r.status.value) ∧
    s.activityLog.rows.map Prod.snd = (chronicle s₀ reqs).map Prod.snd ∧
    s.notifications.rows.map (fun p => told p.2) =
      (chronicle s₀ reqs).filterMap fun p => notice p.1 p.2 := by
  intro s
  have hnone : ∀ ty i, entriesOf s₀ ty i = [] := fun ty i => by simp [entriesOf, hlog]
  have h₀ : Trails s₀ := ⟨.of_nil htrips (hnone .trip), .of_nil hreports (hnone .expenseReport)⟩
  have h : Trails s := Run.invariant_of_step (fun _ _ _ hs hstep => hs.step hstep) h₀
  obtain ⟨now, hnow⟩ := exists_last_time reqs
  have horder : InOrder s.activityLog now := inOrder_of_clock hlog reqs hclock now hnow
  obtain ⟨hchronicle, hnotices⟩ := chronicle_added (s := s₀) reqs
  refine ⟨fun i t ht => ?_, fun j r hr => ?_, ?_, ?_⟩
  · rw [horder.timeline]
    exact h.trips.replays i t ht
  · rw [horder.timeline]
    exact h.reports.replays j r hr
  · rw [hchronicle, hlog]
    rfl
  · rw [hnotices, hnotifications]
    rfl

/-- In the office, whose clock stands still, the timeline of Kim's completed trip. -/
theorem audit_trail_replays_office :
    let reqs := Office.tripDone 1 ++ Office.reportSubmitted 1
    ∃ t, (Run.all desk.step Office.store reqs).trips.get 1 = some t ∧ t.status = .completed ∧
      Replays TripStep
        ((timelineRows (Run.all desk.step Office.store reqs) .trip 1).map Prod.snd)
          "COMPLETED" := by
  intro reqs
  have hrow : ((Run.all desk.step Office.store reqs).trips.get 1).map Trip.status =
      some .completed := by
    decide +kernel
  have hclock : reqs.Pairwise fun a b => a.env.txnNow ≤ b.env.txnNow := by
    decide
  obtain ⟨t, ht, hst⟩ := Option.map_eq_some_iff.mp hrow
  have h := (audit_trail_replays rfl rfl rfl rfl reqs hclock).1 1 t ht
  rw [hst] at h
  exact ⟨t, ht, hst, h⟩

end Biztrip.Desk
