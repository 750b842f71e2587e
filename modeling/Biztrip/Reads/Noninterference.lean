import Biztrip.Lib.View
import Biztrip.Reads.Calls
import Biztrip.Reads.Linked

/-!
# What a user can tell two stores apart by

`SameView u` holds of two stores that agree on what is `u`'s to see. To a user who is not
an administrator all read calls answer alike on two such stores, if both are reachable
(`reads_noninterference`).
-/

namespace Biztrip.Reads

open Biztrip.Lib Desk

abbrev tripOnDesk (u : Int) (t : Trip) : Bool := onDesk u t.userId t.approverId

abbrev reportOnDesk (u : Int) (r : ExpenseReport) : Bool := onDesk u r.userId r.approverId

/-- The stores agree on the row of `u`, on all names and masters, on what is on the desk of `u`
with its items, logs and linked transactions, and on the cards, transactions, notifications and keys
of `u`. -/
structure SameView (u : Int) (s s' : Store) : Prop where
  user : s.users.get u = s'.users.get u
  names : ∀ i, userName s i = userName s' i
  codeGroups : Table.Agree (fun _ => true) s.codeGroups s'.codeGroups
  codes : Table.Agree (fun _ => true) s.codes s'.codes
  fundCenters : Table.Agree (fun _ => true) s.fundCenters s'.fundCenters
  costCenters : Table.Agree (fun _ => true) s.costCenters s'.costCenters
  trips : Table.Agree (tripOnDesk u) s.trips s'.trips
  reports : Table.Agree (reportOnDesk u) s.reports s'.reports
  tripLogs : ∀ i t, s.trips.get i = some t → tripOnDesk u t = true →
    Table.Agree (fun e => e.entityType = .trip ∧ e.entityId = i) s.activityLog s'.activityLog
  reportLogs : ∀ j r, s.reports.get j = some r → reportOnDesk u r = true →
    Table.Agree (fun e => e.entityType = .expenseReport ∧ e.entityId = j) s.activityLog
      s'.activityLog
  items : ∀ j r, s.reports.get j = some r → reportOnDesk u r = true →
    Table.Agree (fun it => it.reportId = j) s.items s'.items
  linked : ∀ k it r x, s.items.get k = some it → s.reports.get it.reportId = some r →
    reportOnDesk u r = true → it.cardTransactionId = some x →
      s.transactions.get x = s'.transactions.get x
  cards : Table.Agree (fun c => c.userId = u) s.cards s'.cards
  transactions : ∀ i c, s.cards.get i = some c → c.userId = u →
    Table.Agree (fun t => t.cardId = i) s.transactions s'.transactions
  notifications : Table.Agree (fun n => n.userId = u) s.notifications s'.notifications
  apiKeys : Table.Agree (fun k => k.userId = u) s.apiKeys s'.apiKeys

variable {s s' : Store} {P : Platform} {env : Env} {user : CurrentUser} {u : Int}

theorem SameView.refl (s : Store) : SameView u s s where
  user := rfl
  names _ := rfl
  codeGroups _ := rfl
  codes _ := rfl
  fundCenters _ := rfl
  costCenters _ := rfl
  trips _ := rfl
  reports _ := rfl
  tripLogs _ _ _ _ _ := rfl
  reportLogs _ _ _ _ _ := rfl
  items _ _ _ _ _ := rfl
  linked _ _ _ _ _ _ _ _ := rfl
  cards _ := rfl
  transactions _ _ _ _ _ := rfl
  notifications _ := rfl
  apiKeys _ := rfl

/-! ## Pages -/

theorem selectPage_congr {α β κ : Type} [LinearOrder κ] {paging : Paging} {key : α → κ}
    {out out' : α → Result β} {rows rows' : List α} (h : orderBy key rows = orderBy key rows')
    (hperm : rows.Perm rows') (hout : ∀ a ∈ rows, out a = out' a) :
    selectPage paging key out rows = selectPage paging key out' rows' := by
  unfold selectPage
  rw [← h, hperm.length_eq]
  rcases hcut : paging.cut (orderBy key rows) with e | page
  · rfl
  · have hmem : ∀ a ∈ page, a ∈ rows := by
      obtain ⟨_, -, hpage⟩ := bind_eq_ok.mp hcut
      obtain rfl := Except.ok.inj hpage
      exact fun a ha => mem_orderBy.mp (List.mem_of_mem_drop (List.mem_of_mem_take ha))
    rw [ok_bind, ok_bind, mapE_congr fun a ha => hout a (hmem a ha)]

/-- A page of the rows that a user may see. -/
theorem page_congr {ρ β κ : Type} [LinearOrder κ] {p : ρ → Bool} {t t' : Table ρ}
    {q q' : Int × ρ → Bool} {paging : Paging} {key : Int × ρ → κ} {out out' : Int × ρ → Result β}
    (h : Table.Agree p t t') (hq : Table.Selects p t t' q q')
    (hkey : ∀ a b, key a = key b → a.1 = b.1)
    (hout : ∀ i r, t.get i = some r → p r = true → out (i, r) = out' (i, r)) :
    selectPage paging key out (t.rows.filter q) =
      selectPage paging key out' (t'.rows.filter q') := by
  refine selectPage_congr (h.orderBy_eq hq hkey) (h.rows_perm hq) ?_
  rintro ⟨i, r⟩ hmem
  obtain ⟨hrow, hsel⟩ := List.mem_filter.mp hmem
  have hget := Table.mem_rows.mp hrow
  exact hout i r hget (hq.left i r hget hsel)

/-- Keys that end in the key of the row. -/
theorem key_of_lex {ρ : Type} (f : ρ → Int) (a b : Int × ρ)
    (h : toLex (f a.2, -a.1) = toLex (f b.2, -b.1)) : a.1 = b.1 := by
  have h := congrArg Prod.snd (toLex.injective h)
  simpa using h

/-! ## Names -/

theorem SameView.approverName (h : SameView u s s') (approverId : Option Int) :
    approverName s approverId = approverName s' approverId := by
  unfold Biztrip.approverName
  rw [funext h.names]

theorem SameView.currentUser (h : SameView u s s') :
    currentUser s u = Biztrip.currentUser s' u := by
  unfold Biztrip.currentUser
  rw [h.user]

/-! ## Trips -/

theorem onDesk_of_view {userId : Int} {approverId : Option Int} (hrole : user.role ≠ .admin)
    (h : canViewTrip user.id user.role userId approverId = true) :
    onDesk user.id userId approverId = true := by
  unfold canViewTrip at h
  unfold onDesk
  rw [Bool.or_eq_true, Bool.or_eq_true, decide_eq_true_eq, decide_eq_true_eq] at h
  rw [Bool.or_eq_true, decide_eq_true_eq]
  rcases h with (hadmin | howner) | happrover
  · exact absurd hadmin hrole
  · exact .inl howner.symm
  · exact .inr happrover

theorem onDesk_of_viewReport {userId : Int} {approverId : Option Int} (hrole : user.role ≠ .admin)
    (h : canViewReport user.id user.role userId approverId = true) :
    onDesk user.id userId approverId = true := onDesk_of_view hrole h

/-- What is in a scope is on the desk, except for administrators. -/
theorem onDesk_of_scope {ρ : Type} {userId : ρ → Int} {approverId : ρ → Option Int}
    {forbidden : AppError} {scope : Scope} {inScope : ρ → Bool} (hrole : user.role ≠ .admin)
    (h : scopeConditions userId approverId forbidden user scope = .ok inScope) (r : ρ)
    (hr : inScope r = true) : onDesk user.id (userId r) (approverId r) = true := by
  unfold onDesk
  rw [Bool.or_eq_true, decide_eq_true_eq, decide_eq_true_eq]
  cases scope with
  | mine =>
    obtain rfl := Except.ok.inj h
    exact .inl (of_decide_eq_true hr)
  | approvals =>
    obtain rfl := Except.ok.inj h
    exact .inr (of_decide_eq_true hr)
  | all =>
    obtain ⟨_, hadmin, -⟩ := bind_eq_ok.mp h
    exact absurd (guardE_eq_ok.mp hadmin) hrole

section
variable (h : SameView user.id s s') (hrole : user.role ≠ .admin)
include h

include hrole in
theorem SameView.loadVisibleTrip (tripId : Int) :
    Trips.loadVisibleTrip s tripId user = Trips.loadVisibleTrip s' tripId user := by
  unfold Trips.loadVisibleTrip sessionGet
  rw [bind_assoc, bind_assoc]
  refine bind_congr fun _ => ?_
  rw [pure_bind, pure_bind, h.trips.filter_eq fun t ht => onDesk_of_view hrole ht]

theorem SameView.tripItem (tripId : Int) (trip : Trip) :
    Trips.listItem s tripId trip = Trips.listItem s' tripId trip := by
  unfold Trips.listItem
  rw [h.names, h.approverName]

theorem SameView.costCenterName (hcodes : DistinctCodes s.costCenters) (code : String) :
    Trips.costCenterName s code = Trips.costCenterName s' code := by
  unfold Trips.costCenterName
  rw [h.costCenters.find?_eq (.of_le fun _ _ _ => rfl)]
  rintro ⟨i, c⟩ hi ⟨j, c'⟩ hj hc hc'
  have hcode : c.code = c'.code := (of_decide_eq_true hc).trans (of_decide_eq_true hc').symm
  obtain rfl := hcodes i j c c' (Table.mem_rows.mp hi) (Table.mem_rows.mp hj) hcode
  exact List.inj_on_of_nodup_map s.costCenters.nodup hi hj rfl

include hrole in
theorem SameView.listTrips (filters : Trips.TripFilters) :
    Trips.listTrips P s user filters = Trips.listTrips P s' user filters := by
  unfold Trips.listTrips
  rcases hscope : scopeConditions Trip.userId Trip.approverId Trips.forbiddenScope user
    filters.scope with e | inScope
  · rfl
  · rw [ok_bind, ok_bind]
    refine bind_congr fun _ => bind_congr fun _ => bind_congr fun _ => ?_
    have hkey := key_of_lex fun t : Trip => -(t.startDate.ordinal : Int)
    refine page_congr h.trips (.of_le fun i r hr => ?_) hkey fun i r _ _ => ?_
    · exact onDesk_of_scope hrole hscope r ((Bool.and_eq_true _ _).mp hr).1
    · rw [h.tripItem]

include hrole in
theorem SameView.getTrip (hcodes : DistinctCodes s.costCenters) (tripId : Int) :
    Trips.getTrip s user tripId = Trips.getTrip s' user tripId := by
  unfold Trips.getTrip
  rw [h.loadVisibleTrip hrole]
  refine bind_congr fun trip => ?_
  unfold Trips.buildDetail
  rw [h.tripItem, funext (h.costCenterName hcodes)]

/-- The entries of an entity and the names of those who acted. -/
theorem SameView.timeline {entityType : EntityType} {i : Int}
    (hlogs : Table.Agree (fun e => e.entityType = entityType ∧ e.entityId = i) s.activityLog
      s'.activityLog) : timeline s entityType i = Biztrip.timeline s' entityType i := by
  unfold Biztrip.timeline timelineRows
  rw [hlogs.orderBy_eq (.of_le fun _ _ hr => hr), funext h.names]
  intro a b hkey
  exact congrArg Prod.snd (toLex.injective hkey)

include hrole in
theorem SameView.listTimeline (tripId : Int) :
    Trips.listTimeline s user tripId = Trips.listTimeline s' user tripId := by
  unfold Trips.listTimeline
  rw [← h.loadVisibleTrip hrole]
  rcases hload : Trips.loadVisibleTrip s tripId user with e | trip
  · rfl
  · obtain ⟨-, hget, hview⟩ := Trips.loadVisibleTrip_eq_ok.mp hload
    rw [ok_bind, ok_bind, h.timeline (h.tripLogs tripId trip hget (onDesk_of_view hrole hview))]

/-! ## Reports -/

include hrole in
theorem SameView.loadVisibleReport (reportId : Int) :
    Expenses.loadVisibleReport s reportId user = Expenses.loadVisibleReport s' reportId user := by
  unfold Expenses.loadVisibleReport sessionGet
  rw [bind_assoc, bind_assoc]
  refine bind_congr fun _ => ?_
  rw [pure_bind, pure_bind, h.reports.filter_eq fun r hr => onDesk_of_viewReport hrole hr]

/-- Who has a report on the desk has its trip there. -/
theorem SameView.tripOf (hs : Sound s) {j : Int} {r : ExpenseReport}
    (hr : s.reports.get j = some r) (hdesk : reportOnDesk user.id r = true) :
    s.trips.get r.tripId = s'.trips.get r.tripId := by
  obtain ⟨t, ht, hmatches⟩ := hs.coupled.report j r hr
  have htrip : tripOnDesk user.id t = true := by
    unfold tripOnDesk
    rw [← hmatches.userId, ← hmatches.approverId]
    exact hdesk
  rw [ht, h.trips.get ht htrip]

theorem SameView.reportItem (hs : Sound s) {j : Int} {r : ExpenseReport}
    (hr : s.reports.get j = some r) (hdesk : reportOnDesk user.id r = true) :
    Expenses.listItem s j r = Expenses.listItem s' j r := by
  unfold Expenses.listItem
  rw [h.tripOf hs hr hdesk, h.names, h.approverName]

include hrole in
theorem SameView.listReports (hs : Sound s) (filters : Expenses.ExpenseFilters) :
    Expenses.listReports P s user filters = Expenses.listReports P s' user filters := by
  unfold Expenses.listReports
  rcases hscope : scopeConditions ExpenseReport.userId ExpenseReport.approverId
    Expenses.forbiddenScope user filters.scope with e | inScope
  · rfl
  · rw [ok_bind, ok_bind]
    refine bind_congr fun _ => ?_
    have hdesk : ∀ r, inScope r = true → reportOnDesk user.id r = true :=
      onDesk_of_scope hrole hscope
    refine page_congr h.reports ⟨fun i r _ hr => ?_, fun i r _ hr => ?_, fun i r hr _ hd => ?_⟩
      (fun a b hkey => by simpa using hkey) fun i r hr hd => h.reportItem hs hr hd
    · exact hdesk r ((Bool.and_eq_true _ _).mp hr).1
    · exact hdesk r ((Bool.and_eq_true _ _).mp hr).1
    · unfold Expenses.ExpenseFilters.selects
      rw [h.tripOf hs hr hd]

theorem SameView.itemOut {j : Int} {r r' : ExpenseReport} (hr : s.reports.get j = some r)
    (hdesk : reportOnDesk user.id r = true) {k : Int} {it : ExpenseItem}
    (hit : s.items.get k = some it) (hj : it.reportId = j) :
    Expenses.itemOut s r' k it = Expenses.itemOut s' r' k it := by
  have hlinked : Expenses.linkedTransaction s it = Expenses.linkedTransaction s' it := by
    unfold Expenses.linkedTransaction
    cases hx : it.cardTransactionId with
    | none => rfl
    | some x =>
      by_cases hzero : x = 0
      · rw [hzero]
        rfl
      · have hsome : (some x).filter (fun x => decide (x ≠ 0)) = some x := by
          rw [Option.filter_some, if_pos (decide_eq_true hzero)]
        rw [hsome]
        exact h.linked k it r x hit (hj ▸ hr) hdesk hx
  unfold Expenses.itemOut
  rw [hlinked]

include hrole in
theorem SameView.getReport (hs : Sound s) (reportId : Int) :
    Expenses.getReport s user reportId = Expenses.getReport s' user reportId := by
  unfold Expenses.getReport
  rw [← h.loadVisibleReport hrole]
  rcases hload : Expenses.loadVisibleReport s reportId user with e | r
  · rfl
  · obtain ⟨-, hget, hview⟩ := Expenses.loadVisibleReport_eq_ok.mp hload
    have hdesk := onDesk_of_viewReport hrole hview
    rw [ok_bind, ok_bind]
    unfold Expenses.buildDetail
    rw [h.reportItem hs hget hdesk]
    have hitems : Expenses.loadItems s reportId r = Expenses.loadItems s' reportId r := by
      unfold Expenses.loadItems Expenses.itemsOf
      rw [← (h.items reportId r hget hdesk).orderBy_eq (.of_le fun _ _ hr => hr) fun _ _ => id]
      refine List.map_congr_left ?_
      rintro ⟨k, it⟩ hmem
      obtain ⟨hrow, hj⟩ := List.mem_filter.mp (mem_orderBy.mp hmem)
      exact h.itemOut hget hdesk (Table.mem_rows.mp hrow) (of_decide_eq_true hj)
    rw [hitems]

include hrole in
theorem SameView.listReportTimeline (reportId : Int) :
    Expenses.listReportTimeline s user reportId = Expenses.listReportTimeline s' user reportId := by
  unfold Expenses.listReportTimeline
  rw [← h.loadVisibleReport hrole]
  rcases hload : Expenses.loadVisibleReport s reportId user with e | r
  · rfl
  · obtain ⟨-, hget, hview⟩ := Expenses.loadVisibleReport_eq_ok.mp hload
    have hlogs := h.reportLogs reportId r hget (onDesk_of_viewReport hrole hview)
    rw [ok_bind, ok_bind, h.timeline hlogs]

/-! ## Cards -/

theorem SameView.cardIds : (Cards.loadMyCardIds s user).Perm (Cards.loadMyCardIds s' user) :=
  (h.cards.rows_perm (.of_le fun _ _ hr => hr)).map Prod.fst

/-- The transactions on the cards of the user. -/
theorem SameView.myTransactions :
    Table.Agree (fun t => (Cards.loadMyCardIds s user).contains t.cardId) s.transactions
      s'.transactions := by
  have hcard : ∀ {t : CardTransaction}, (Cards.loadMyCardIds s user).contains t.cardId = true →
      Table.Agree (fun t' => t'.cardId = t.cardId) s.transactions s'.transactions := by
    intro t ht
    obtain ⟨⟨i, c⟩, hmem, hi⟩ := List.mem_map.mp (List.contains_iff_mem.mp ht)
    obtain ⟨hrow, howner⟩ := List.mem_filter.mp hmem
    have hagree := h.transactions i c (Table.mem_rows.mp hrow) (of_decide_eq_true howner)
    rwa [show i = t.cardId from hi] at hagree
  intro x
  refine Option.ext fun t => ?_
  rw [Option.filter_eq_some_iff, Option.filter_eq_some_iff]
  constructor
  · rintro ⟨hget, ht⟩
    exact ⟨(hcard ht).get hget (decide_eq_true rfl), ht⟩
  · rintro ⟨hget, ht⟩
    exact ⟨(hcard ht).symm.get hget (decide_eq_true rfl), ht⟩

/-- A transaction of the user is linked by items of the user's reports only. -/
theorem SameView.settled_mono (hs : Sound s) {x : Int} {t : CardTransaction}
    (ht : s.transactions.get x = some t)
    (hmine : (Cards.loadMyCardIds s user).contains t.cardId = true)
    (hsettled : Cards.settled s x = true) : Cards.settled s' x = true := by
  obtain ⟨⟨k, it⟩, hrow, hx⟩ := List.any_eq_true.mp hsettled
  have hit := Table.mem_rows.mp hrow
  have hx : it.cardTransactionId = some x := of_decide_eq_true hx
  obtain ⟨r, t', card, hr, ht', hcard, howner⟩ := hs.linked k it hit x hx
  rw [ht, Option.some.injEq] at ht'
  subst ht'
  have huser : card.userId = user.id := by
    obtain ⟨⟨i, c⟩, hmem, hi⟩ := List.mem_map.mp (List.contains_iff_mem.mp hmine)
    obtain ⟨hrow', hc⟩ := List.mem_filter.mp hmem
    obtain rfl : i = t.cardId := hi
    rw [Table.mem_rows.mp hrow', Option.some.injEq] at hcard
    rw [← hcard]
    exact of_decide_eq_true hc
  have hdesk : reportOnDesk user.id r = true := by
    unfold reportOnDesk onDesk
    rw [← howner, huser, Bool.or_eq_true]
    exact .inl (decide_eq_true rfl)
  have hit' := (h.items it.reportId r hr hdesk).get hit (decide_eq_true rfl)
  exact List.any_eq_true.mpr ⟨(k, it), Table.mem_rows.mpr hit', decide_eq_true hx⟩

theorem SameView.symm : SameView user.id s' s where
  user := h.user.symm
  names i := (h.names i).symm
  codeGroups := h.codeGroups.symm
  codes := h.codes.symm
  fundCenters := h.fundCenters.symm
  costCenters := h.costCenters.symm
  trips := h.trips.symm
  reports := h.reports.symm
  tripLogs i t ht hdesk := (h.tripLogs i t (h.trips.symm.get ht hdesk) hdesk).symm
  reportLogs j r hr hdesk := (h.reportLogs j r (h.reports.symm.get hr hdesk) hdesk).symm
  items j r hr hdesk := (h.items j r (h.reports.symm.get hr hdesk) hdesk).symm
  linked k it r x hit hr hdesk hx := by
    have hr' := h.reports.symm.get hr hdesk
    have hit' := (h.items it.reportId r hr' hdesk).symm.get hit (decide_eq_true rfl)
    exact (h.linked k it r x hit' hr' hdesk hx).symm
  cards := h.cards.symm
  transactions i c hc howner :=
    (h.transactions i c (h.cards.symm.get hc (decide_eq_true howner)) howner).symm
  notifications := h.notifications.symm
  apiKeys := h.apiKeys.symm

theorem SameView.settled (hs : Sound s) (hs' : Sound s') {x : Int} {t : CardTransaction}
    (ht : s.transactions.get x = some t) (ht' : s'.transactions.get x = some t)
    (hmine : (Cards.loadMyCardIds s user).contains t.cardId = true) :
    Cards.settled s x = Cards.settled s' x := by
  rw [Bool.eq_iff_iff]
  refine ⟨h.settled_mono hs ht hmine, h.symm.settled_mono hs' ht' ?_⟩
  rwa [← h.cardIds.contains_eq]

omit h in
/-- Whatever else is asked of a transaction, its card is one of the cards. -/
theorem contains_of_selected {l : List Int} {wanted : Int → Bool} {x : Int} {b c : Bool}
    (hsel : ((l.filter wanted).contains x && b && c) = true) : l.contains x = true := by
  rw [Bool.and_eq_true, Bool.and_eq_true, List.contains_iff_mem] at hsel
  exact List.contains_iff_mem.mpr (List.mem_of_mem_filter hsel.1.1)

theorem SameView.listCardTransactions (hs : Sound s) (hs' : Sound s')
    (filters : Cards.CardTxnFilters) :
    Cards.listCardTransactions P s user filters = Cards.listCardTransactions P s' user filters := by
  have hids : ((Cards.loadMyCardIds s user).filter fun i => filters.cardId.all fun w => i = w).Perm
      ((Cards.loadMyCardIds s' user).filter fun i => filters.cardId.all fun w => i = w) :=
    h.cardIds.filter _
  unfold Cards.listCardTransactions
  dsimp only
  rw [hids.isEmpty_eq]
  split
  · rfl
  refine bind_congr fun approvedFrom => bind_congr fun approvedTo => bind_congr fun _ =>
    bind_congr fun _ => bind_congr fun _ => bind_congr fun _ => ?_
  have hkey := key_of_lex fun t : CardTransaction => -t.approvedAt
  refine page_congr h.myTransactions ⟨fun x t _ hsel => ?_, fun x t _ hsel => ?_,
    fun x t ht ht' hmine => ?_⟩ hkey fun _ _ _ _ => rfl
  · exact contains_of_selected hsel
  · rw [h.cardIds.contains_eq]
    exact contains_of_selected hsel
  · rw [hids.contains_eq, h.settled hs hs' ht ht' hmine]

/-! ## Notifications and keys -/

theorem SameView.listNotifications (unreadOnly : Bool) (paging : Paging) :
    Notifications.listNotifications s user unreadOnly paging =
      Notifications.listNotifications s' user unreadOnly paging := by
  unfold Notifications.listNotifications
  have hkey := key_of_lex fun n : Notification => -n.createdAt
  have hunread := h.notifications.rows_perm
    (q := fun p => decide (p.2.userId = user.id) && !p.2.isRead)
    (.of_le fun _ _ hn => ((Bool.and_eq_true _ _).mp hn).1)
  rw [page_congr h.notifications (.of_le fun _ _ hn => ((Bool.and_eq_true _ _).mp hn).1) hkey
    fun _ _ _ _ => rfl]
  refine bind_congr fun page => ?_
  dsimp only
  rw [hunread.length_eq]

theorem SameView.listKeys : ApiKeys.listKeys s env user = ApiKeys.listKeys s' env user := by
  unfold ApiKeys.listKeys
  have hkey := key_of_lex fun k : ApiKey => -k.createdAt
  rw [h.apiKeys.orderBy_eq (.of_le fun _ _ hr => hr) hkey]

/-! ## All calls -/

include hrole in
theorem SameView.reply (hs : Sound s) (hs' : Sound s') (call : ReadCall) :
    call.reply P s env user = call.reply P s' env user := by
  cases call with
  | listTrips filters => simp only [ReadCall.reply, h.listTrips hrole]
  | getTrip tripId => simp only [ReadCall.reply, h.getTrip hrole hs.codes]
  | listTimeline tripId => simp only [ReadCall.reply, h.listTimeline hrole]
  | listReports filters => simp only [ReadCall.reply, h.listReports hrole hs]
  | getReport reportId => simp only [ReadCall.reply, h.getReport hrole hs]
  | listReportTimeline reportId => simp only [ReadCall.reply, h.listReportTimeline hrole]
  | listCardTransactions filters => simp only [ReadCall.reply, h.listCardTransactions hs hs']
  | listNotifications unreadOnly paging => simp only [ReadCall.reply, h.listNotifications]
  | listKeys => simp only [ReadCall.reply, h.listKeys]

end

/-- What a user without the role of an administrator reads does not depend on what is not
theirs to see. -/
theorem reads_noninterference (P : Platform) (h : Reachable s) (h' : Reachable s')
    (hrole : ∀ row, s.users.get u = some row → row.role ≠ .admin) (hview : SameView u s s')
    (env : Env) (call : ReadCall) :
    ReadRequest.reply P s ⟨env, u, call⟩ = ReadRequest.reply P s' ⟨env, u, call⟩ := by
  unfold ReadRequest.reply
  dsimp only
  rw [← hview.currentUser]
  rcases hcur : currentUser s u with e | user
  · rfl
  · obtain ⟨hrow, rfl⟩ := currentUser_eq_ok.mp hcur
    rw [ok_bind, ok_bind]
    exact hview.reply (hrole _ hrow) h.sound h'.sound call

/-! ## Another's trip -/

/-- A trip that is not on the desk of `u`, and the entry of its creation, change nothing there. -/
theorem SameView.insertTrip {t : Trip} {e : ActivityLog} (ht : tripOnDesk u t = false)
    (hentity : e.entityType = .trip) (hid : e.entityId = s.trips.next) :
    SameView u s
      { s with trips := s.trips.insert t, activityLog := s.activityLog.insert e } where
  user := rfl
  names _ := rfl
  codeGroups _ := rfl
  codes _ := rfl
  fundCenters _ := rfl
  costCenters _ := rfl
  trips := .insert ht
  reports _ := rfl
  tripLogs i t ht _ := .insert <| by
    have hlt := Table.get_lt_next ht
    rw [decide_eq_false_iff_not, hid]
    omega
  reportLogs j r _ _ := .insert <| by
    rw [decide_eq_false_iff_not, hentity]
    exact fun h => nomatch h.1
  items _ _ _ _ _ := rfl
  linked _ _ _ _ _ _ _ _ := rfl
  cards _ := rfl
  transactions _ _ _ _ _ := rfl
  notifications _ := rfl
  apiKeys _ := rfl

/-- What another user plans to do is not on the desk of `u`. -/
theorem SameView.of_create {w : Int} {payload : TripCreate} (hw : w ≠ u)
    (hstep : desk.step s ⟨env, w, .trip (.create payload)⟩ = .ok s') : SameView u s s' := by
  obtain ⟨p, hplan, hcommit⟩ := bind_eq_ok.mp hstep
  obtain ⟨user, huser, deed⟩ := deed_of_plan hplan
  obtain ⟨-, rfl⟩ := currentUser_eq_ok.mp huser
  have hc := Plan.commit_eq_ok.mp hcommit
  generalize p.writes = ws at deed hc
  rcases deed with @⟨_, _, @⟨_, t, tr, new, records⟩⟩
  obtain ⟨-, trips, happly, rfl⟩ := commit_trip hc
  rw [RowWrite.apply_insert, Except.ok.injEq] at happly
  subst happly
  have hnobody : tr.notify = none := Option.map_eq_none_iff.mp records.recipient
  unfold Store.record
  rw [hnobody]
  refine SameView.insertTrip ?_ rfl (add_sub_cancel_right s.trips.next 1)
  unfold tripOnDesk onDesk
  rw [new.userId, new.approverId, decide_eq_false hw]
  rfl

/-- `ILIKE` for a text between two wildcards, and nine hours. -/
def officePlatform : Platform where
  ilike pattern column :=
    column.toLower.toList.tails.any fun rest =>
      (pattern.toLower.toList.filter (· != '%')).isPrefixOf rest
  midnight day := Matching.utcMidnight day - 32400000000
  localDay t := (t + 32400000000) / 86400000000 + 719163

/-- To Kim the trip that Lee adds to Kim's does not show, whatever Kim searches for. -/
theorem reads_noninterference_office :
    let kims : Request Call := ⟨Office.env, .desk 1 (.trip (.create Office.trip))⟩
    let lees : Request Call := ⟨Office.env, .desk 2 (.trip (.create Office.trip))⟩
    let read : ReadRequest := ⟨Office.env, 1, .listTrips { q := some "visit" }⟩
    read.reply officePlatform (Run.all (system Office.sec).step Office.store [kims]) =
      read.reply officePlatform (Run.all (system Office.sec).step Office.store [kims, lees]) := by
  intro kims lees read
  refine reads_noninterference officePlatform ⟨Office.sec, _, [kims], office_blank, rfl⟩
    ⟨Office.sec, _, [kims, lees], office_blank, rfl⟩ (fun row hrow => ?_) ?_ _ _
  · obtain rfl := Option.some.inj hrow
    exact nofun
  · have hall : Run.all (system Office.sec).step Office.store [kims, lees] =
        Run.all (system Office.sec).step
          (Run.all (system Office.sec).step Office.store [kims]) [lees] := Run.all_append _ [kims] _
    rw [hall]
    generalize Run.all (system Office.sec).step Office.store [kims] = s
    rw [Run.all_cons, Run.all_nil]
    rcases hstep : (system Office.sec).step s lees with e | s'
    · exact .refl s
    · exact .of_create (by decide : (2 : Int) ≠ 1) hstep

end Biztrip.Reads
