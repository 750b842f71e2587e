import Biztrip.Reads.Days

/-!
# The rule of automatic matching

`list_match_candidates` reads the transactions between two midnights in UTC, with days to
spare, and leaves the rest to the matcher. What it answers is the rule (`Matches`), which
knows neither the query nor the order in which the database answers it: the transactions of
the owner that are approved within a day of the trip and free to be taken
(`candidates_answer_rule`).
-/

namespace Biztrip.Reads

open Biztrip.Lib Matching Expenses

/-! ## The rule -/

/-- An item of another report that is submitted or approved links the transaction. -/
def TakenElsewhere (s : Store) (reportId transactionId : Int) : Prop :=
  ∃ k it r, s.items.get k = some it ∧ it.cardTransactionId = some transactionId ∧
    it.reportId ≠ reportId ∧ s.reports.get it.reportId = some r ∧
      (r.status = .submitted ∨ r.status = .approved)

/-- An item of the report links the transaction. -/
def LinkedHere (s : Store) (reportId transactionId : Int) : Prop :=
  ∃ k it, s.items.get k = some it ∧ it.reportId = reportId ∧
    it.cardTransactionId = some transactionId

structure Matches (P : Platform) (s : Store) (reportId : Int) (report : ExpenseReport)
    (trip : Trip) (i : Int) (t : CardTransaction) : Prop where
  row : s.transactions.get i = some t
  owner : ∃ card, s.cards.get t.cardId = some card ∧ card.userId = report.userId
  cancelled : t.isCancelled = false
  free : ¬ TakenElsewhere s reportId i
  window : (trip.startDate.ordinal : Int) - 1 ≤ P.localDay t.approvedAt ∧
    P.localDay t.approvedAt ≤ trip.endDate.ordinal + 1

/-- Where a day in the window of a trip lies. -/
inductive Phase where
  | before
  | within
  | after

def Phase.Holds (trip : Trip) (day : Int) : Phase → Prop
  | .before => day = trip.startDate.ordinal - 1
  | .within => trip.startDate.ordinal ≤ day ∧ day ≤ trip.endDate.ordinal
  | .after => day = trip.endDate.ordinal + 1

/-- The reasons that say so. -/
def Phase.texts : Phase → List String
  | .before => ["출발 전일 교통비", "출발 전일 승인"]
  | .within => ["출장기간 내 승인", "출장기간 내 숙박"]
  | .after => ["종료 익일 교통비", "종료 익일 승인"]

/-- What is answered for the report is what the rule says. -/
structure Answers (P : Platform) (s : Store) (reportId : Int) (report : ExpenseReport)
    (trip : Trip) (out : List MatchCandidateOut) : Prop where
  exact : ∀ i, (∃ c ∈ out, c.transactionId = i) ↔ ∃ t, Matches P s reportId report trip i t
  sorted : out.Pairwise fun a b =>
    toLex (a.approvedAt, a.transactionId) < toLex (b.approvedAt, b.transactionId)
  fields : ∀ c ∈ out, ∃ t, s.transactions.get c.transactionId = some t ∧
    c.approvedAt = t.approvedAt ∧ c.merchantName = t.merchantName ∧
    c.merchantCategoryCode = t.merchantCategoryCode ∧ c.amountKrw = t.amountKrw ∧
    c.suggestedCategoryCode = suggestExpenseCategory t.merchantCategoryCode
  added : ∀ c ∈ out, c.alreadyAdded = true ↔ LinkedHere s reportId c.transactionId
  reasons : ∀ c ∈ out, c.reasons ≠ [] ∧ ∀ text ∈ c.reasons, ∀ phase : Phase,
    text ∈ phase.texts ↔ phase.Holds trip (P.localDay c.approvedAt)

/-! ## The three queries -/

section
variable {P : Platform} {s : Store} {reportId i : Int} {report : ExpenseReport} {trip : Trip}

theorem mem_locked : i ∈ locked s reportId ↔ TakenElsewhere s reportId i := by
  unfold locked TakenElsewhere
  rw [List.mem_filterMap]
  constructor
  · rintro ⟨⟨k, it⟩, hmem, hp⟩
    split at hp
    · next h =>
      obtain ⟨hstatus, hother⟩ := (Bool.and_eq_true _ _).mp h
      obtain ⟨r, hr, hstatus⟩ := (Option.any_eq_true _ _).mp hstatus
      exact ⟨k, it, r, Table.mem_rows.mp hmem, hp, of_decide_eq_true hother, hr,
        by simpa using hstatus⟩
    · cases hp
  · rintro ⟨k, it, r, hk, hlink, hother, hr, hstatus⟩
    refine ⟨(k, it), Table.mem_rows.mpr hk, ?_⟩
    have hstatus : (s.reports.get it.reportId).any (fun r =>
        r.status = .submitted || r.status = .approved) = true :=
      (Option.any_eq_true _ _).mpr ⟨r, hr, by simpa using hstatus⟩
    rw [if_pos ((Bool.and_eq_true _ _).mpr ⟨hstatus, decide_eq_true hother⟩), hlink]

theorem mem_added : i ∈ added s reportId ↔ LinkedHere s reportId i := by
  unfold added LinkedHere itemsOf
  simp only [List.mem_filterMap, List.mem_filter, decide_eq_true_eq]
  constructor
  · rintro ⟨⟨k, it⟩, ⟨hmem, hreport⟩, hlink⟩
    exact ⟨k, it, Table.mem_rows.mp hmem, hreport, hlink⟩
  · rintro ⟨k, it, hk, hreport, hlink⟩
    exact ⟨(k, it), ⟨Table.mem_rows.mpr hk, hreport⟩, hlink⟩

/-- The rows that the query for the trip brings. -/
def fetchedFor (s : Store) (report : ExpenseReport) (trip : Trip) : List (Int × CardTransaction) :=
  fetched s report (utcMidnight (trip.startDate.ordinal + -fetchMarginDays))
    (utcMidnight (trip.endDate.ordinal + (fetchMarginDays + 1)))

/-- A day of Seoul begins and ends within a day of its midnights in UTC, so the days to spare bring
every transaction that the window lets through. -/
theorem fetched_of_matches (hP : AheadOfUtc P) {t : CardTransaction}
    (h : Matches P s reportId report trip i t) : (i, t) ∈ fetchedFor s report trip := by
  obtain ⟨card, hcard, howner⟩ := h.owner
  have hwindow := h.window
  have hday := hP t.approvedAt
  refine List.mem_filter.mpr ⟨Table.mem_rows.mpr h.row, Bool.and_eq_true_iff.mpr ⟨?_, ?_⟩⟩
  · exact (Option.any_eq_true _ _).mpr ⟨card, hcard, by simpa using howner⟩
  · change decide (_ ≤ t.approvedAt ∧ t.approvedAt < _) = true
    refine decide_eq_true ⟨?_, ?_⟩
    · rw [utcMidnight_le_iff, fetchMarginDays]
      omega
    · rw [← not_le, utcMidnight_le_iff, fetchMarginDays]
      omega

theorem mem_fetched {t : CardTransaction} {start stop : Instant}
    (h : (i, t) ∈ fetched s report start stop) : s.transactions.get i = some t ∧
      ∃ card, s.cards.get t.cardId = some card ∧ card.userId = report.userId := by
  obtain ⟨hmem, hsel⟩ := List.mem_filter.mp h
  obtain ⟨hcard, -⟩ := (Bool.and_eq_true _ _).mp hsel
  obtain ⟨card, hcard, howner⟩ := (Option.any_eq_true _ _).mp hcard
  exact ⟨Table.mem_rows.mp hmem, card, hcard, by simpa using howner⟩

end

/-! ## From the rows to the answer -/

/-- What is answered about a row that matches. -/
def matchOut (P : Platform) (trip : Trip) (added : List Int) (p : Int × CardTransaction) :
    MatchCandidateOut :=
  { transactionId := p.1, approvedAt := p.2.approvedAt, merchantName := p.2.merchantName
    merchantCategoryCode := p.2.merchantCategoryCode, amountKrw := p.2.amountKrw
    suggestedCategoryCode := suggestExpenseCategory p.2.merchantCategoryCode
    reasons := Matching.reasons (P.localDay p.2.approvedAt) trip.startDate.ordinal
      trip.endDate.ordinal p.2.merchantCategoryCode
    alreadyAdded := added.contains p.1 }

/-- The conditions of the matcher on a row. -/
def selectsRow (P : Platform) (trip : Trip) (locked : List Int) (p : Int × CardTransaction) :
    Bool :=
  matchable locked (transactionView p) &&
    decide ((trip.startDate.ordinal : Int) - 1 ≤ P.localDay p.2.approvedAt ∧
      P.localDay p.2.approvedAt ≤ trip.endDate.ordinal + 1)

/-- The rows that match, by the time of approval. -/
def answer (P : Platform) (trip : Trip) (rows : List (Int × CardTransaction))
    (locked added : List Int) : List MatchCandidateOut :=
  (orderBy (fun p => toLex (p.2.approvedAt, p.1)) (rows.filter (selectsRow P trip locked))).map
    (matchOut P trip added)

section
variable {P : Platform} {trip : Trip} {rows : List (Int × CardTransaction)}
  {locked added : List Int}

theorem picked_rows : picked P trip.startDate trip.endDate (rows.map transactionView) locked =
    (orderBy (fun p => toLex (p.2.approvedAt, p.1)) (rows.filter (selectsRow P trip locked))).map
      fun p => dated P (transactionView p) := by
  have hrows : ((((rows.map transactionView).filter (matchable locked)).map (dated P)).filter
      fun p : TransactionView × Int =>
        (trip.startDate.ordinal : Int) - 1 ≤ p.2 ∧ p.2 ≤ trip.endDate.ordinal + 1) =
        (rows.filter (selectsRow P trip locked)).map fun p => dated P (transactionView p) := by
    simp only [List.filter_map, List.map_map, List.filter_filter]
    refine congrArg (List.map _) (List.filter_congr fun p _ => ?_)
    rw [selectsRow, Bool.and_comm]
    simp only [Function.comp_apply, dated, transactionView, Datetime.instant_utc]
  have hkey : ∀ p : Int × CardTransaction,
      toLex ((dated P (transactionView p)).1.approvedAt.instant,
        (dated P (transactionView p)).1.id) = toLex (p.2.approvedAt, p.1) := fun p => by
    simp only [dated, transactionView, Datetime.instant_utc]
  unfold picked
  rw [hrows, orderBy_map]
  simp only [hkey]

theorem find_row (hkeys : (rows.map Prod.fst).Nodup) {p : Int × CardTransaction} (hp : p ∈ rows) :
    rows.find? (fun q => q.1 = p.1) = some p := by
  have hsome : (rows.find? fun q => q.1 = p.1).isSome := List.find?_isSome.mpr ⟨p, hp, by simp⟩
  obtain ⟨q, hq⟩ := Option.isSome_iff_exists.mp hsome
  have hid : q.1 = p.1 := by simpa using List.find?_some hq
  rw [hq, List.inj_on_of_nodup_map hkeys (List.mem_of_find?_eq_some hq) hp hid]

theorem candidatesOf_eq {candidates : List MatchCandidate} (hkeys : (rows.map Prod.fst).Nodup)
    (hfind : findCandidates P trip.startDate trip.endDate (rows.map transactionView) locked =
      .ok candidates) :
    candidatesOf P trip rows locked added = .ok (answer P trip rows locked added) := by
  obtain ⟨-, -, rfl⟩ := findCandidates_eq_ok.mp hfind
  rw [picked_rows, List.map_map] at hfind
  unfold candidatesOf
  rw [hfind, ok_bind, mapE_map]
  refine mapE_eq_map fun p hp => ?_
  have hrow := find_row hkeys (List.mem_of_mem_filter (mem_orderBy.mp hp))
  have hid : (candidate trip.startDate trip.endDate (dated P (transactionView p))).transactionId =
      p.1 := rfl
  rw [Function.comp_apply, hid, hrow, Option.map_some, getE, ok_bind]
  simp only [matchOut, candidate, dated, transactionView, Datetime.instant_utc]
  rfl

/-- Rows in another order and the same sets have the same answer. -/
theorem answer_congr {rows' : List (Int × CardTransaction)} {locked' added' : List Int}
    (hkeys : (rows.map Prod.fst).Nodup) (hrows : rows'.Perm rows)
    (hlocked : ∀ i, i ∈ locked' ↔ i ∈ locked) (hadded : ∀ i, i ∈ added' ↔ i ∈ added) :
    answer P trip rows' locked' added' = answer P trip rows locked added := by
  have hcontains : ∀ {l l' : List Int}, (∀ i, i ∈ l' ↔ i ∈ l) → ∀ i, l'.contains i = l.contains i :=
    fun h i => by simp only [List.contains_eq_mem, h i]
  have hsel : selectsRow P trip locked' = selectsRow P trip locked := by
    funext p
    simp only [selectsRow, matchable, hcontains hlocked]
  have hout : matchOut P trip added' = matchOut P trip added := by
    funext p
    simp only [matchOut, hcontains hadded]
  rw [answer, answer, hsel, hout]
  refine congrArg (List.map _) (orderBy_congr (hrows.filter _) fun p hp q hq hkey => ?_)
  have hp := hrows.mem_iff.mp (List.mem_of_mem_filter hp)
  have hq := hrows.mem_iff.mp (List.mem_of_mem_filter hq)
  exact List.inj_on_of_nodup_map hkeys hp hq (congrArg Prod.snd (toLex.injective hkey))

end

/-! ## The reasons -/

section
variable {trip : Trip} {day : Int}

def Phase.of (trip : Trip) (day : Int) : Phase :=
  if day < trip.startDate.ordinal then .before
  else if trip.endDate.ordinal < day then .after
  else .within

/-- No two phases share a text. -/
theorem Phase.eq_of_mem_texts {phase phase' : Phase} {text : String} (h : text ∈ phase.texts)
    (h' : text ∈ phase'.texts) : phase = phase' := by
  simp only [Phase.texts] at h h'
  cases phase <;> cases phase' <;>
    first | rfl | (simp at h h'; rcases h with rfl | rfl <;> simp at h')

theorem Phase.holds_iff (hdates : trip.startDate ≤ trip.endDate)
    (hwindow : (trip.startDate.ordinal : Int) - 1 ≤ day ∧ day ≤ trip.endDate.ordinal + 1)
    (phase : Phase) : phase.Holds trip day ↔ phase = Phase.of trip day := by
  have hle : trip.startDate.ordinal ≤ trip.endDate.ordinal := hdates
  unfold Phase.of
  split
  · cases phase <;> simp [Phase.Holds] <;> omega
  · split
    · cases phase <;> simp [Phase.Holds] <;> omega
    · cases phase <;> simp [Phase.Holds] <;> omega

theorem reasons_in_phase (category : String) :
    let texts := Matching.reasons day trip.startDate.ordinal trip.endDate.ordinal category
    texts ≠ [] ∧ ∀ text ∈ texts, text ∈ (Phase.of trip day).texts := by
  unfold Matching.reasons Phase.of
  dsimp only
  split
  · split <;> simp [Phase.texts]
  · split
    · split <;> simp [Phase.texts]
    · split <;> simp [Phase.texts]

/-- The reasons tell where the day lies. -/
theorem reasons_tell {category text : String} (hdates : trip.startDate ≤ trip.endDate)
    (hwindow : (trip.startDate.ordinal : Int) - 1 ≤ day ∧ day ≤ trip.endDate.ordinal + 1)
    (h : text ∈ Matching.reasons day trip.startDate.ordinal trip.endDate.ordinal category)
    (phase : Phase) : text ∈ phase.texts ↔ phase.Holds trip day := by
  have hin := (reasons_in_phase category).2 text h
  rw [Phase.holds_iff hdates hwindow]
  constructor
  · intro hphase
    exact Phase.eq_of_mem_texts hphase hin
  · rintro rfl
    exact hin

end

/-! ## The answer -/

section
variable {P : Platform} {s : Store} {user : CurrentUser} {reportId : Int} {report : ExpenseReport}
  {trip : Trip}

/-- A row is fetched and selected if and only if the rule is met. -/
theorem selected_iff_matches (hP : AheadOfUtc P) {i : Int} {t : CardTransaction} :
    (i, t) ∈ (fetchedFor s report trip).filter (selectsRow P trip (locked s reportId)) ↔
      Matches P s reportId report trip i t := by
  rw [List.mem_filter, selectsRow, matchable, Bool.and_eq_true, Bool.and_eq_true, decide_eq_true_eq,
    Bool.not_eq_true', Bool.not_eq_true', List.contains_eq_mem, decide_eq_false_iff_not]
  constructor
  · rintro ⟨hfetched, ⟨hcancelled, hfree⟩, hwindow⟩
    obtain ⟨hrow, howner⟩ := mem_fetched hfetched
    exact ⟨hrow, howner, hcancelled, fun h => hfree (mem_locked.mpr h), hwindow⟩
  · intro h
    refine ⟨fetched_of_matches hP h, ⟨h.cancelled, ?_⟩, h.window⟩
    exact fun hlocked => h.free (mem_locked.mp hlocked)

theorem nodup_fetchedFor : ((fetchedFor s report trip).map Prod.fst).Nodup :=
  s.transactions.nodup.sublist (List.filter_sublist.map _)

theorem answers_of_fetched (hP : AheadOfUtc P) (hdates : trip.startDate ≤ trip.endDate) :
    Answers P s reportId report trip
      (answer P trip (fetchedFor s report trip) (locked s reportId) (added s reportId)) := by
  have hmem : ∀ {c}, c ∈ answer P trip (fetchedFor s report trip) (locked s reportId)
      (added s reportId) ↔ ∃ i t, Matches P s reportId report trip i t ∧
        matchOut P trip (added s reportId) (i, t) = c := by
    intro c
    rw [answer, List.mem_map, Prod.exists]
    simp only [mem_orderBy, selected_iff_matches hP]
  constructor
  case exact =>
    intro i
    constructor
    · rintro ⟨c, hc, rfl⟩
      obtain ⟨j, t, h, rfl⟩ := hmem.mp hc
      exact ⟨t, h⟩
    · rintro ⟨t, h⟩
      exact ⟨_, hmem.mpr ⟨i, t, h, rfl⟩, rfl⟩
  case sorted =>
    unfold answer
    rw [List.pairwise_map]
    have hnodup : (orderBy (fun p : Int × CardTransaction => toLex (p.2.approvedAt, p.1))
        ((fetchedFor s report trip).filter (selectsRow P trip (locked s reportId)))).Nodup :=
      (List.perm_insertionSort _ _).nodup_iff.mpr (nodup_fetchedFor.of_map.filter _)
    refine (hnodup.and (pairwise_orderBy _ _)).imp_of_mem fun ha hb h => ?_
    obtain ⟨hne, hle⟩ := h
    refine lt_of_le_of_ne hle fun he => hne ?_
    have ha := List.mem_of_mem_filter (mem_orderBy.mp ha)
    have hb := List.mem_of_mem_filter (mem_orderBy.mp hb)
    exact List.inj_on_of_nodup_map nodup_fetchedFor ha hb (congrArg Prod.snd (toLex.injective he))
  case fields =>
    intro c hc
    obtain ⟨j, t, h, rfl⟩ := hmem.mp hc
    exact ⟨t, h.row, rfl, rfl, rfl, rfl, rfl⟩
  case added =>
    intro c hc
    obtain ⟨j, t, h, rfl⟩ := hmem.mp hc
    exact List.contains_iff_mem.trans mem_added
  case reasons =>
    intro c hc
    obtain ⟨j, t, h, rfl⟩ := hmem.mp hc
    exact ⟨(reasons_in_phase _).1, fun text htext => reasons_tell hdates h.window htext⟩

/-- Whatever the orders in which the queries are answered, the answer is that of the rule. -/
theorem candidates_answer_rule (hP : SeoulTime P)
    (load : loadVisibleReport s reportId user = .ok report)
    (htrip : s.trips.get report.tripId = some trip) (hdates : trip.startDate ≤ trip.endDate)
    (hstart : 3 ≤ trip.startDate.ordinal) (hend : trip.endDate.ordinal ≤ 3652056) : ∃ out,
      listMatchCandidates P s user reportId = .ok out ∧ Answers P s reportId report trip out ∧
      ∀ rows lockedIds addedIds, rows.Perm (fetchedFor s report trip) →
        (∀ i, i ∈ lockedIds ↔ i ∈ locked s reportId) →
        (∀ i, i ∈ addedIds ↔ i ∈ added s reportId) →
          candidatesOf P trip rows lockedIds addedIds = .ok out := by
  have hvalid := trip.startDate.valid
  have hfind : ∀ {rows : List (Int × CardTransaction)} {lockedIds : List Int},
      (∀ p ∈ rows, p ∈ fetchedFor s report trip) → ∃ candidates,
        findCandidates P trip.startDate trip.endDate (rows.map transactionView) lockedIds =
          .ok candidates := by
    intro rows lockedIds hrows
    refine ⟨_, findCandidates_eq_ok.mpr ⟨⟨by omega, by omega⟩, fun t ht _ => ?_, rfl⟩⟩
    obtain ⟨p, hp, rfl⟩ := List.mem_map.mp ht
    have hp := hrows p hp
    unfold fetchedFor fetchMarginDays at hp
    exact ⟨_, localDate_of_fetched hP.ahead (by omega) (by omega) hp⟩
  refine ⟨answer P trip (fetchedFor s report trip) (locked s reportId) (added s reportId), ?_,
    answers_of_fetched hP.ahead hdates, fun rows lockedIds addedIds hrows hlocked hadded => ?_⟩
  · obtain ⟨candidates, hfind⟩ := hfind fun _ hp => hp
    unfold listMatchCandidates
    rw [load, ok_bind, htrip, getE, ok_bind,
      shift_eq_ok.mpr ⟨by unfold fetchMarginDays; omega, rfl⟩, ok_bind,
      shift_eq_ok.mpr ⟨by unfold fetchMarginDays; omega, rfl⟩, ok_bind]
    exact candidatesOf_eq nodup_fetchedFor hfind
  · obtain ⟨candidates, hfind⟩ := hfind fun _ hp => hrows.mem_iff.mp hp
    rw [candidatesOf_eq ((hrows.map Prod.fst).nodup_iff.mpr nodup_fetchedFor) hfind]
    exact congrArg Except.ok (answer_congr nodup_fetchedFor hrows hlocked hadded)

end

/-- What Kim is offered for the day of the payment. -/
theorem candidates_answer_rule_kim :
    ∃ report trip out,
      listMatchCandidates officePlatform (reportOn (Office.day 719163)) kim 1 = .ok out ∧
        Answers officePlatform (reportOn (Office.day 719163)) 1 report trip out := by
  obtain ⟨report, trip, hload, htrip, hstart, hend⟩ :=
    @reportOn_loads (Office.day 719163) (by decide +kernel)
  have hdates : trip.startDate.ordinal ≤ trip.endDate.ordinal := by rw [hstart, hend]
  obtain ⟨out, hout, hanswer, -⟩ := candidates_answer_rule officePlatform_seoul hload htrip hdates
    (by rw [hstart]; decide) (by rw [hend]; decide)
  exact ⟨report, trip, out, hout, hanswer⟩

end Biztrip.Reads
