import Biztrip.Reads.Paging

/-!
# Days in Seoul

The card list cuts the time line where the days of Seoul begin, the matcher folds an instant
to its day there: with Seoul nine hours ahead of UTC (`SeoulTime`) they agree on every
approval (`same_day`). Both, and the query before the matcher, count days off a date that
nobody has bounded: for which dates that stays on the calendar is `on_calendar_iff`.
-/

namespace Biztrip.Reads

open Biztrip.Lib Matching Expenses

/-- `Asia/Seoul` as the fixed offset of nine hours. -/
structure SeoulTime (P : Platform) : Prop where
  midnight : ∀ day, P.midnight day = utcMidnight day - 32400000000
  localDay : ∀ t, P.localDay t = (t + 32400000000) / 86400000000 + 719163

def utcDay (t : Instant) : Int := t / 86400000000 + 719163

/-- Seoul is ahead of UTC by less than a day, whatever its offset has been over the years. -/
def AheadOfUtc (P : Platform) : Prop :=
  ∀ t, utcDay t ≤ P.localDay t ∧ P.localDay t ≤ utcDay t + 1

variable {P : Platform} {s : Store} {user : CurrentUser}

theorem utcMidnight_le_iff {day : Int} {t : Instant} : utcMidnight day ≤ t ↔ day ≤ utcDay t := by
  unfold utcDay
  change (day - 719163) * 86400000000 ≤ t ↔ _
  omega

namespace SeoulTime

/-- The day begins at its midnight. -/
theorem midnight_le_iff (h : SeoulTime P) {day : Int} {t : Instant} :
    P.midnight day ≤ t ↔ day ≤ P.localDay t := by
  rw [h.midnight, h.localDay]
  change (day - 719163) * 86400000000 - 32400000000 ≤ t ↔ _
  omega

/-- The day ends before the next midnight. -/
theorem lt_midnight_iff (h : SeoulTime P) {day : Int} {t : Instant} :
    t < P.midnight day ↔ P.localDay t < day := by
  rw [← not_le, h.midnight_le_iff, not_le]

theorem ahead (h : SeoulTime P) : AheadOfUtc P := by
  intro t
  rw [h.localDay, utcDay]
  omega

end SeoulTime

theorem officePlatform_seoul : SeoulTime officePlatform := ⟨fun _ => rfl, fun _ => rfl⟩

/-! ## Arithmetic of dates -/

theorem shift_eq_ok {d : Date} {n x : Int} :
    shift d n = .ok x ↔ (1 ≤ d.ordinal + n ∧ d.ordinal + n ≤ 3652059) ∧ x = d.ordinal + n := by
  simp only [shift, bind_eq_ok, guardE_eq_ok, exists_const, pure_eq_ok, Except.ok.injEq]
  exact and_congr_right fun _ => eq_comm

theorem shift_of_off {d : Date} {n : Int} (h : ¬ (1 ≤ d.ordinal + n ∧ d.ordinal + n ≤ 3652059)) :
    shift d n = .error .overflowError :=
  bind_eq_error.mpr (.inl (guardE_eq_error.mpr ⟨h, rfl⟩))

/-- A shifted date fails only off the calendar. -/
theorem shift_ne_overflow {d : Date} {n : Int} :
    shift d n ≠ .error .overflowError ↔ 1 ≤ d.ordinal + n ∧ d.ordinal + n ≤ 3652059 := by
  constructor
  · intro h
    by_contra hoff
    exact h (shift_of_off hoff)
  · intro h he
    rw [shift_eq_ok.mpr ⟨h, rfl⟩] at he
    cases he

theorem localDate_eq_ok {m : Datetime} {day : Int} : localDate P m = .ok day ↔
    m.utcoffset ≠ none ∧ (1 ≤ day ∧ day ≤ 3652059) ∧ P.localDay m.instant = day := by
  simp only [localDate, bind_eq_ok, getE_eq_ok, guardE_eq_ok, exists_const, pure_eq_ok,
    Except.ok.injEq, ← exists_and_right, Option.ne_none_iff_exists']
  constructor
  · rintro ⟨o, ho, hday, rfl⟩
    exact ⟨o, ho, hday, rfl⟩
  · rintro ⟨o, ho, hday, rfl⟩
    exact ⟨o, ho, hday, rfl⟩

/-! ## The matcher -/

section
variable {startDate endDate : Date} {transactions : List TransactionView} {excluded : List Int}
  {candidates : List MatchCandidate}

/-- The matcher looks at the day: neither cancelled nor taken. -/
def matchable (excluded : List Int) (t : TransactionView) : Bool :=
  !t.isCancelled && !excluded.contains t.id

def dated (P : Platform) (t : TransactionView) : TransactionView × Int :=
  (t, P.localDay t.approvedAt.instant)

/-- The transactions that match, each with its day, by the time of approval. -/
def picked (P : Platform) (startDate endDate : Date) (transactions : List TransactionView)
    (excluded : List Int) : List (TransactionView × Int) :=
  orderBy (fun p => toLex (p.1.approvedAt.instant, p.1.id)) <|
    ((transactions.filter (matchable excluded)).map (dated P)).filter fun p =>
      (startDate.ordinal : Int) - 1 ≤ p.2 ∧ p.2 ≤ endDate.ordinal + 1

theorem mem_picked {p : TransactionView × Int} :
    p ∈ picked P startDate endDate transactions excluded ↔
      p.1 ∈ transactions ∧ matchable excluded p.1 = true ∧ p.2 = P.localDay p.1.approvedAt.instant ∧
        (startDate.ordinal : Int) - 1 ≤ p.2 ∧ p.2 ≤ endDate.ordinal + 1 := by
  simp only [picked, mem_orderBy, List.mem_filter, List.mem_map, decide_eq_true_eq]
  constructor
  · rintro ⟨⟨t, ⟨hmem, hmatch⟩, rfl⟩, hwindow⟩
    exact ⟨hmem, hmatch, rfl, hwindow⟩
  · rintro ⟨hmem, hmatch, hday, hwindow⟩
    exact ⟨⟨p.1, ⟨hmem, hmatch⟩, Prod.ext rfl hday.symm⟩, hwindow⟩

/-- The matcher answers if its window and the days it looks at are on the calendar. -/
theorem findCandidates_eq_ok :
    findCandidates P startDate endDate transactions excluded = .ok candidates ↔
      (2 ≤ startDate.ordinal ∧ endDate.ordinal ≤ 3652058) ∧
      (∀ t ∈ transactions, matchable excluded t = true →
        ∃ day, localDate P t.approvedAt = .ok day) ∧
      candidates =
        (picked P startDate endDate transactions excluded).map (candidate startDate endDate) := by
  have hstart := startDate.valid
  have hend := endDate.valid
  have hdated : ∀ l : List TransactionView, (∀ t ∈ l, ∃ day, localDate P t.approvedAt = .ok day) →
      mapE l (fun t => localDate P t.approvedAt >>= fun day => .ok (t, day)) =
        .ok (l.map (dated P)) := by
    intro l hl
    refine mapE_eq_map fun t ht => ?_
    obtain ⟨day, hday⟩ := hl t ht
    rw [hday, ok_bind, dated, (localDate_eq_ok.mp hday).2.2]
  have hmatch : (∀ t ∈ transactions.filter (matchable excluded), ∃ day,
      localDate P t.approvedAt = .ok day) ↔ ∀ t ∈ transactions, matchable excluded t = true → ∃ day,
        localDate P t.approvedAt = .ok day := by
    simp only [List.mem_filter, and_imp]
  unfold findCandidates windowDays
  rw [bind_eq_ok]
  constructor
  · rintro ⟨windowStart, hfrom, h⟩
    obtain ⟨windowEnd, hto, h⟩ := bind_eq_ok.mp h
    obtain ⟨ps, hps, h⟩ := bind_eq_ok.mp h
    obtain ⟨hfrom, rfl⟩ := shift_eq_ok.mp hfrom
    obtain ⟨hto, rfl⟩ := shift_eq_ok.mp hto
    have hall : ∀ t ∈ transactions.filter (matchable excluded), ∃ day,
        localDate P t.approvedAt = .ok day := by
      intro t ht
      obtain ⟨p, hp⟩ := mapE_isOk.mp ⟨ps, hps⟩ t ht
      obtain ⟨day, hday, -⟩ := bind_eq_ok.mp hp
      exact ⟨day, hday⟩
    have hps : Except.ok _ = Except.ok ps := (hdated _ hall).symm.trans hps
    obtain rfl := Except.ok.inj hps
    refine ⟨by omega, hmatch.mp hall, ?_⟩
    exact (Except.ok.inj h).symm
  · rintro ⟨hrange, hall, rfl⟩
    refine ⟨_, shift_eq_ok.mpr ⟨by omega, rfl⟩, ?_⟩
    refine bind_eq_ok.mpr ⟨_, shift_eq_ok.mpr ⟨by omega, rfl⟩, ?_⟩
    exact bind_eq_ok.mpr ⟨_, hdated _ (hmatch.mpr hall), rfl⟩

end

/-! ## The card list -/

/-- The list selects by the card, by the conditions on the transaction and by what is settled. -/
theorem mem_cardListing {filters : Cards.CardTxnFilters}
    {L : Listing (ℤ ×ₗ ℤ) CardTransaction Cards.CardTransactionOut}
    (hL : cardListing P s user filters = .ok L) {i : Int} {t : CardTransaction} :
    (i, t) ∈ L.rows ↔ s.transactions.get i = some t ∧
      (t.cardId ∈ Cards.loadMyCardIds s user ∧ ∀ wanted ∈ filters.cardId, t.cardId = wanted) ∧
      (∃ start stop, Cards.bound P 0 filters.approvedFrom = .ok start ∧
        Cards.bound P 1 filters.approvedTo = .ok stop ∧ filters.selects P start stop t = true) ∧
      (filters.unsettled = true → Cards.settled s i = false) := by
  have hcards : ∀ {l : List Int}, t.cardId ∈ (l.filter fun cardId =>
      filters.cardId.all fun wanted => cardId = wanted) ↔
        t.cardId ∈ l ∧ ∀ wanted ∈ filters.cardId, t.cardId = wanted := by
    intro l
    rw [List.mem_filter, Option.all_eq_true]
    simp only [decide_eq_true_eq, Option.mem_def]
  unfold cardListing at hL
  dsimp only at hL
  split at hL
  · next hnone =>
    obtain rfl := Except.ok.inj hL
    rw [← hcards, List.isEmpty_iff.mp hnone]
    simp
  · obtain ⟨start, hstart, hL⟩ := bind_eq_ok.mp hL
    obtain ⟨stop, hstop, hL⟩ := bind_eq_ok.mp hL
    obtain ⟨_, -, hL⟩ := bind_eq_ok.mp hL
    obtain ⟨_, -, hL⟩ := bind_eq_ok.mp hL
    obtain ⟨_, -, hL⟩ := bind_eq_ok.mp hL
    obtain ⟨_, -, hL⟩ := bind_eq_ok.mp hL
    obtain rfl := Except.ok.inj hL
    have hbounds : (∃ a b, Cards.bound P 0 filters.approvedFrom = .ok a ∧
        Cards.bound P 1 filters.approvedTo = .ok b ∧ filters.selects P a b t = true) ↔
          filters.selects P start stop t = true := by
      rw [hstart, hstop]
      constructor
      · rintro ⟨_, _, ⟨⟩, ⟨⟩, h⟩
        exact h
      · exact fun h => ⟨_, _, rfl, rfl, h⟩
    rw [hbounds, ← hcards, List.mem_filter, Table.mem_rows, Bool.and_eq_true, Bool.and_eq_true,
      List.contains_iff_mem, Bool.or_eq_true, Bool.not_eq_true', Bool.not_eq_true', and_assoc]
    cases filters.unsettled <;> simp

/-- From one day to another, with no other filter. -/
def between (fromDate toDate : Date) (includeCancelled : Bool) (paging : Paging) :
    Cards.CardTxnFilters :=
  { approvedFrom := some fromDate, approvedTo := some toDate, includeCancelled, paging }

section
variable {fromDate toDate : Date} {includeCancelled : Bool} {paging : Paging}

theorem bound_from (day : Date) : Cards.bound P 0 (some day) =
    .ok (some (P.midnight day.ordinal)) := by
  have := day.valid
  refine bind_eq_ok.mpr ⟨_, bind_eq_ok.mpr ⟨_, shift_eq_ok.mpr ⟨by omega, rfl⟩, rfl⟩, ?_⟩
  rw [add_zero]
  rfl

theorem bound_to {day : Date} (h : day.ordinal ≤ 3652058) : Cards.bound P 1 (some day) =
    .ok (some (P.midnight (day.ordinal + 1))) :=
  bind_eq_ok.mpr ⟨_, bind_eq_ok.mpr ⟨_, shift_eq_ok.mpr ⟨by omega, rfl⟩, rfl⟩, rfl⟩

/-- The driver takes every midnight of Seoul but that of the first day of the calendar. -/
theorem instant_midnight (hP : SeoulTime P) {column : String} {day : Int} (h : 2 ≤ day) :
    Cards.instant column (P.midnight day) = .ok () := by
  refine guardE_eq_ok.mpr ?_
  rw [hP.midnight]
  change (1 - 719163) * 86400000000 ≤ (day - 719163) * 86400000000 - 32400000000
  omega

theorem cardListing_between (hP : SeoulTime P) (hfrom : 2 ≤ fromDate.ordinal)
    (hto : toDate.ordinal ≤ 3652058) : ∃ L,
      cardListing P s user (between fromDate toDate includeCancelled paging) = .ok L := by
  have hfrom' : Cards.instant "approved_from" (P.midnight fromDate.ordinal) = .ok () :=
    instant_midnight hP (by omega)
  have hto' : Cards.instant "approved_to" (P.midnight (toDate.ordinal + 1)) = .ok () :=
    instant_midnight hP (by have := toDate.valid; omega)
  unfold cardListing between
  dsimp only
  split
  · exact ⟨_, rfl⟩
  · rw [bound_from, ok_bind, bound_to hto, ok_bind, checkSome, hfrom', ok_bind, checkSome, hto']
    exact ⟨_, rfl⟩

/-- Both bounds together let through what is approved on these days. -/
theorem selects_between (hP : SeoulTime P) {t : CardTransaction} :
    (between fromDate toDate includeCancelled paging).selects P
        (some (P.midnight fromDate.ordinal)) (some (P.midnight (toDate.ordinal + 1))) t = true ↔
      (includeCancelled = true ∨ t.isCancelled = false) ∧
        fromDate.ordinal ≤ P.localDay t.approvedAt ∧ P.localDay t.approvedAt ≤ toDate.ordinal := by
  unfold Cards.CardTxnFilters.selects between given
  simp only [Option.all_some, Option.filter_none, Option.all_none, Bool.and_true,
    Bool.and_eq_true, Bool.or_eq_true, Bool.not_eq_true', decide_eq_true_eq, hP.midnight_le_iff,
    hP.lt_midnight_iff, Int.lt_add_one_iff, and_assoc]

end

/-! ## One day -/

/-- From any day to any other of which both bounds can be sent, the card list shows the transaction
exactly if the day of the moment is among them. -/
def ListedByDay (P : Platform) (s : Store) (user : CurrentUser) (i : Int) (t : CardTransaction)
    (moment : Datetime) : Prop :=
  ∀ (fromDate toDate : Date) (includeCancelled : Bool) (paging : Paging),
    2 ≤ fromDate.ordinal → toDate.ordinal ≤ 3652058 →
    (includeCancelled = true ∨ t.isCancelled = false) → ∃ L,
      cardListing P s user (between fromDate toDate includeCancelled paging) = .ok L ∧
      ((paging.page - 1) * paging.size < 2 ^ 63 →
        Cards.listCardTransactions P s user (between fromDate toDate includeCancelled paging) =
          L.page paging.page paging.size (orderBy L.key L.rows)) ∧
      ((i, t) ∈ L.rows ↔
        ∃ day, localDate P moment = .ok day ∧ fromDate.ordinal ≤ day ∧ day ≤ toDate.ordinal)

/-- Among the transactions it is given, the matcher takes one of that moment exactly if the day is
in the window of the trip, and says of it what it says of the day. -/
def MatchedByDay (P : Platform) (moment : Datetime) : Prop :=
  ∀ (startDate endDate : Date) (transactions : List TransactionView) (excluded : List Int)
    (candidates : List MatchCandidate) (t : TransactionView) (c : MatchCandidate),
    findCandidates P startDate endDate transactions excluded = .ok candidates →
    (transactions.map TransactionView.id).Nodup → t ∈ transactions → t.approvedAt = moment →
    ((c ∈ candidates ∧ c.transactionId = t.id) ↔
      (t.isCancelled = false ∧ t.id ∉ excluded) ∧ ∃ day, localDate P moment = .ok day ∧
        ((startDate.ordinal : Int) - 1 ≤ day ∧ day ≤ endDate.ordinal + 1) ∧
        c = candidate startDate endDate (t, day))

theorem matchedByDay (P : Platform) (moment : Datetime) : MatchedByDay P moment := by
  intro startDate endDate transactions excluded candidates t c hfind hnodup ht hmoment
  obtain ⟨-, hdays, rfl⟩ := findCandidates_eq_ok.mp hfind
  have hmatch : matchable excluded t = true ↔ t.isCancelled = false ∧ t.id ∉ excluded := by
    simp [matchable]
  rw [← hmatch, List.mem_map]
  constructor
  · rintro ⟨⟨p, hp, rfl⟩, hid⟩
    obtain ⟨hmem, hopen, hday, hwindow⟩ := mem_picked.mp hp
    have hp1 : p.1 = t := List.inj_on_of_nodup_map hnodup hmem ht hid
    rw [hp1] at hopen hday
    obtain ⟨day, hlocal⟩ := hdays t ht hopen
    have hsame : p.2 = day := hday.trans (localDate_eq_ok.mp hlocal).2.2
    rw [hmoment] at hlocal
    refine ⟨hopen, day, hlocal, hsame ▸ hwindow, ?_⟩
    rw [← hsame, ← hp1]
  · rintro ⟨hopen, day, hlocal, hwindow, rfl⟩
    refine ⟨⟨(t, day), mem_picked.mpr ⟨ht, hopen, ?_, hwindow⟩, rfl⟩, rfl⟩
    rw [hmoment, (localDate_eq_ok.mp hlocal).2.2]

/-- A payment is of the same day in the card list and to the matcher, with whatever offset its
moment is written. -/
theorem same_day (hP : SeoulTime P) (s : Store) (user : CurrentUser) {i : Int} {t : CardTransaction}
    {card : CorporateCard} (hrow : s.transactions.get i = some t)
    (hcard : s.cards.get t.cardId = some card) (howner : card.userId = user.id)
    {moment : Datetime} (haware : moment.utcoffset ≠ none)
    (hmoment : moment.instant = t.approvedAt) :
    ListedByDay P s user i t moment ∧ MatchedByDay P moment := by
  refine ⟨fun fromDate toDate includeCancelled paging hfrom hto hshown => ?_, matchedByDay P moment⟩
  have hmine : t.cardId ∈ Cards.loadMyCardIds s user := List.mem_map.mpr
    ⟨(t.cardId, card), List.mem_filter.mpr ⟨Table.mem_rows.mpr hcard, by simpa using howner⟩, rfl⟩
  obtain ⟨L, hL⟩ : ∃ L, cardListing P s user (between fromDate toDate includeCancelled paging) =
      .ok L := cardListing_between hP hfrom hto
  have hfrom' := fromDate.valid
  refine ⟨L, hL, fun hoffset => ?_, ?_⟩
  · rw [listCardTransactions_eq _ hoffset, hL, ok_bind]
    rfl
  rw [mem_cardListing hL]
  constructor
  · rintro ⟨-, -, ⟨start, stop, hstart, hstop, hsel⟩, -⟩
    obtain rfl := Except.ok.inj ((bound_from fromDate).symm.trans hstart)
    obtain rfl := Except.ok.inj ((bound_to hto).symm.trans hstop)
    obtain ⟨-, hday⟩ := (selects_between hP).mp hsel
    refine ⟨_, localDate_eq_ok.mpr ⟨haware, ?_, rfl⟩, ?_⟩
    · rw [hmoment]
      omega
    · rwa [hmoment]
  · rintro ⟨day, hlocal, hday⟩
    obtain ⟨-, -, rfl⟩ := localDate_eq_ok.mp hlocal
    rw [hmoment] at hday
    refine ⟨hrow, ⟨hmine, fun _ h => nomatch h⟩, ⟨_, _, bound_from _, bound_to hto, ?_⟩, nofun⟩
    exact (selects_between hP).mpr ⟨hshown, hday⟩

def kim : CurrentUser := { Office.user "kim@sk.com" "Kim" "E1" (some 2) .employee with id := 1 }

/-- The day of Kim's payment, by the clock of Seoul. -/
theorem same_day_kim :
    ListedByDay officePlatform Office.store kim 1
        ⟨1, 0, "Diner", "MEAL", ⟨1000000, by decide⟩, "KRW", ⟨1000000, by decide⟩, false⟩
        ⟨32400000000, some 32400000000⟩ ∧
      MatchedByDay officePlatform ⟨32400000000, some 32400000000⟩ :=
  same_day officePlatform_seoul Office.store kim rfl
    (rfl : Office.store.cards.get 1 = some ⟨1, "1234-****", "VISA", true⟩) rfl nofun rfl

/-! ## The calendar -/

section
variable {reportId : Int} {report : ExpenseReport} {trip : Trip}

/-- What the pre-fetch lets through is approved on a day of Seoul that is on the calendar. -/
theorem localDate_of_fetched (hP : AheadOfUtc P) {start stop : Int} (hstart : 1 ≤ start)
    (hstop : stop ≤ 3652059) {p : Int × CardTransaction}
    (hp : p ∈ fetched s report (utcMidnight start) (utcMidnight stop)) :
    localDate P (.utc p.2.approvedAt) = .ok (P.localDay p.2.approvedAt) := by
  obtain ⟨-, hsel⟩ := List.mem_filter.mp hp
  obtain ⟨-, hbounds⟩ := (Bool.and_eq_true _ _).mp hsel
  obtain ⟨hfrom, hto⟩ := of_decide_eq_true hbounds
  rw [← not_le] at hto
  rw [utcMidnight_le_iff] at hfrom hto
  have hday := hP p.2.approvedAt
  refine localDate_eq_ok.mpr ⟨nofun, ?_, by rw [Datetime.instant_utc]⟩
  omega

theorem findCandidates_ne_overflow {startDate endDate : Date} {transactions : List TransactionView}
    {excluded : List Int} (hdays : ∀ t ∈ transactions, matchable excluded t = true →
      ∃ day, localDate P t.approvedAt = .ok day) :
    findCandidates P startDate endDate transactions excluded ≠ .error .overflowError ↔
      2 ≤ startDate.ordinal ∧ endDate.ordinal ≤ 3652058 := by
  have hstart := startDate.valid
  have hend := endDate.valid
  constructor
  · intro h
    by_contra hoff
    refine h (bind_eq_error.mpr ?_)
    by_cases hfrom : 2 ≤ startDate.ordinal
    · refine .inr ⟨_, shift_eq_ok.mpr ⟨?_, rfl⟩, bind_eq_error.mpr (.inl (shift_of_off ?_))⟩
      · unfold windowDays
        omega
      · unfold windowDays
        omega
    · refine .inl (shift_of_off ?_)
      unfold windowDays
      omega
  · intro hrange he
    rw [findCandidates_eq_ok.mpr ⟨hrange, hdays, rfl⟩] at he
    cases he

/-- The query goes further than the matcher, so it is the one that leaves the calendar first. -/
theorem listMatchCandidates_ne_overflow (hP : AheadOfUtc P)
    (load : loadVisibleReport s reportId user = .ok report)
    (htrip : s.trips.get report.tripId = some trip) :
    listMatchCandidates P s user reportId ≠ .error .overflowError ↔
      3 ≤ trip.startDate.ordinal ∧ trip.endDate.ordinal ≤ 3652056 := by
  have hstart := trip.startDate.valid
  have hend := trip.endDate.valid
  unfold listMatchCandidates
  rw [load, ok_bind, htrip, getE, ok_bind]
  constructor
  · intro h
    by_contra hoff
    refine h (bind_eq_error.mpr ?_)
    by_cases hfrom : 3 ≤ trip.startDate.ordinal
    · refine .inr ⟨_, shift_eq_ok.mpr ⟨?_, rfl⟩, bind_eq_error.mpr (.inl (shift_of_off ?_))⟩
      · unfold fetchMarginDays
        omega
      · unfold fetchMarginDays
        omega
    · refine .inl (shift_of_off ?_)
      unfold fetchMarginDays
      omega
  · rintro ⟨hfrom, hto⟩ he
    rw [shift_eq_ok.mpr ⟨by unfold fetchMarginDays; omega, rfl⟩, ok_bind,
      shift_eq_ok.mpr ⟨by unfold fetchMarginDays; omega, rfl⟩, ok_bind] at he
    rcases bind_eq_error.mp he with hfind | ⟨candidates, -, hout⟩
    · refine (findCandidates_ne_overflow fun t ht _ => ?_).mpr ⟨by omega, by omega⟩ hfind
      obtain ⟨p, hp, rfl⟩ := List.mem_map.mp ht
      unfold fetchMarginDays at hp
      exact ⟨_, localDate_of_fetched hP (by omega) (by omega) hp⟩
    · obtain ⟨candidate, -, hlook⟩ := mem_of_mapE_eq_error hout
      rcases bind_eq_error.mp hlook with hget | ⟨_, -, hnone⟩
      · cases (getE_eq_error.mp hget).2
      · cases hnone

theorem startOf_ne_overflow {day : Date} {days : Int} :
    Cards.startOf P day days ≠ .error .overflowError ↔
      1 ≤ day.ordinal + days ∧ day.ordinal + days ≤ 3652059 := by
  rw [← shift_ne_overflow, not_iff_not]
  unfold Cards.startOf
  rw [bind_eq_error]
  constructor
  · rintro (h | ⟨_, -, h⟩)
    · exact h
    · cases h
  · exact .inl

/-- No card is asked for, or none of the user's own. -/
def NoCards (s : Store) (user : CurrentUser) (filters : Cards.CardTxnFilters) : Prop :=
  ∀ cardId ∈ Cards.loadMyCardIds s user, ∃ wanted ∈ filters.cardId, cardId ≠ wanted

theorem bound_ne_overflow {o : Option Date} {days : Int} :
    Cards.bound P days o ≠ .error .overflowError ↔
      ∀ day ∈ o, 1 ≤ day.ordinal + days ∧ day.ordinal + days ≤ 3652059 := by
  cases o with
  | none => exact ⟨nofun, nofun⟩
  | some day =>
    simp only [Option.mem_def, Option.some.injEq, forall_eq']
    rw [← startOf_ne_overflow (P := P), not_iff_not]
    exact bind_eq_error.trans (or_iff_left fun ⟨_, _, h⟩ => nomatch h)

/-- The rows themselves are shown whatever their dates. -/
theorem raises_selectPage {α β κ : Type} [LinearOrder κ] (paging : Paging) (key : α → κ)
    {out : α → β} (rows : List α) :
    Raises (selectPage paging key (fun a => (pure (out a) : Result β)) rows)
      (· ≠ .overflowError) := by
  refine raises_bind (raises_bind (raises_guardE nofun) fun _ _ => raises_ok) fun l _ => ?_
  refine raises_bind ?_ fun _ _ => raises_ok
  have hmap : mapE l (fun a => (pure (out a) : Result β)) = .ok (l.map out) :=
    mapE_eq_map fun _ _ => rfl
  rw [hmap]
  exact raises_ok

theorem listCardTransactions_ne_overflow {filters : Cards.CardTxnFilters} :
    Cards.listCardTransactions P s user filters ≠ .error .overflowError ↔
      NoCards s user filters ∨ ∀ day ∈ filters.approvedTo, day.ordinal ≤ 3652058 := by
  have hnone : ((Cards.loadMyCardIds s user).filter fun cardId =>
      filters.cardId.all fun wanted => cardId = wanted).isEmpty = true ↔
        NoCards s user filters := by
    rw [List.isEmpty_iff, List.filter_eq_nil_iff, NoCards]
    refine forall₂_congr fun cardId _ => ?_
    rw [Option.all_eq_true]
    simp
  unfold Cards.listCardTransactions
  dsimp only
  split
  · next h => exact ⟨fun _ => .inl (hnone.mp h), fun _ he => nomatch he⟩
  · next h =>
    rw [or_iff_right fun hno => h (hnone.mpr hno)]
    obtain ⟨start, hstart⟩ : ∃ start, Cards.bound P 0 filters.approvedFrom = .ok start := by
      cases filters.approvedFrom with
      | none => exact ⟨_, rfl⟩
      | some day => exact ⟨_, bound_from day⟩
    have hto : (∀ day ∈ filters.approvedTo, day.ordinal ≤ 3652058) ↔
        Cards.bound P 1 filters.approvedTo ≠ .error .overflowError := by
      refine (forall₂_congr fun day _ => ?_).trans bound_ne_overflow.symm
      omega
    rw [hstart, ok_bind, hto, not_iff_not, bind_eq_error]
    refine or_iff_left ?_
    rintro ⟨stop, -, he⟩
    refine (?_ : Raises _ (· ≠ .overflowError)) _ he rfl
    refine raises_bind (raises_checkSome fun _ => raises_guardE nofun) fun _ _ => ?_
    refine raises_bind (raises_checkSome fun _ => raises_guardE nofun) fun _ _ => ?_
    refine raises_bind (raises_checkSome fun _ => raises_guardE nofun) fun _ _ => ?_
    refine raises_bind (raises_checkSome fun _ => raises_guardE nofun) fun _ _ => ?_
    exact raises_selectPage _ _ _

end

/-- How far from the ends of the calendar the dates have to be so that counting days off them does
not leave it: of a trip in the query and in the matcher, of a filter in the card list. -/
theorem on_calendar_iff (hP : AheadOfUtc P) :
    (∀ s user reportId report trip, loadVisibleReport s reportId user = .ok report →
      s.trips.get report.tripId = some trip →
        (listMatchCandidates P s user reportId ≠ .error .overflowError ↔
          3 ≤ trip.startDate.ordinal ∧ trip.endDate.ordinal ≤ 3652056)) ∧
    (∀ startDate endDate transactions excluded,
      (∀ t ∈ transactions, matchable excluded t = true →
        ∃ day, localDate P t.approvedAt = .ok day) →
          (findCandidates P startDate endDate transactions excluded ≠ .error .overflowError ↔
            2 ≤ startDate.ordinal ∧ endDate.ordinal ≤ 3652058)) ∧
    (∀ s user filters, Cards.listCardTransactions P s user filters ≠ .error .overflowError ↔
      NoCards s user filters ∨ ∀ day ∈ filters.approvedTo, day.ordinal ≤ 3652058) ∧
    ∀ day, Cards.startOf P day 0 ≠ .error .overflowError ∧
      (Cards.startOf P day 1 ≠ .error .overflowError ↔ day.ordinal ≤ 3652058) := by
  refine ⟨fun s user reportId report trip => listMatchCandidates_ne_overflow hP,
    fun startDate endDate transactions excluded => findCandidates_ne_overflow,
    fun s user filters => listCardTransactions_ne_overflow, fun day => ?_⟩
  have := day.valid
  rw [startOf_ne_overflow, startOf_ne_overflow]
  constructor
  · omega
  · omega

/-- Kim travels on one day and starts a report on it. -/
def reportOn (day : Date) : Store :=
  Run.all (system Office.sec).step Office.store <|
    [.trip (.create { Office.trip with startDate := day, endDate := day }), .trip (.submit 1)].map
      (fun call => ⟨Office.env, .desk 1 call⟩) ++
    [⟨Office.env, .desk 2 (.trip (.approve 1))⟩, ⟨Office.env, .desk 1 (.trip (.complete 1))⟩,
      ⟨Office.env, .desk 1 (.expense (.create ⟨1⟩))⟩]

theorem reportOn_loads {day : Date} (h : (loadVisibleReport (reportOn day) 1 kim).toOption.bind
    (fun report => ((reportOn day).trips.get report.tripId).map fun trip =>
      (trip.startDate.ordinal, trip.endDate.ordinal)) = some (day.ordinal, day.ordinal)) :
    ∃ report trip, loadVisibleReport (reportOn day) 1 kim = .ok report ∧
      (reportOn day).trips.get report.tripId = some trip ∧
        trip.startDate.ordinal = day.ordinal ∧ trip.endDate.ordinal = day.ordinal := by
  obtain ⟨report, hload, h⟩ := toOption_bind_eq_some.mp h
  obtain ⟨trip, htrip, h⟩ := Option.map_eq_some_iff.mp h
  exact ⟨report, trip, hload, htrip, congrArg Prod.fst h, congrArg Prod.snd h⟩

/-- The candidates for a trip on the third day of the calendar are still found. -/
theorem on_calendar_third_day :
    listMatchCandidates officePlatform (reportOn (Office.day 3)) kim 1 ≠
      .error .overflowError := by
  obtain ⟨report, trip, hload, htrip, hstart, hend⟩ :=
    @reportOn_loads (Office.day 3) (by decide +kernel)
  refine ((on_calendar_iff officePlatform_seoul.ahead).1 _ _ _ _ _ hload htrip).mpr ?_
  rw [hstart, hend]
  decide

/-- Those for a trip on the first day are not. -/
theorem off_calendar_first_day :
    ¬ ∀ (P : Platform) (s : Store) (user : CurrentUser) (reportId : Int), AheadOfUtc P →
      Reachable s → listMatchCandidates P s user reportId ≠ .error .overflowError := by
  intro hall
  obtain ⟨report, trip, hload, htrip, hstart, -⟩ :=
    @reportOn_loads (Office.day 1) (by decide +kernel)
  have hne := hall officePlatform (reportOn (Office.day 1)) kim 1 officePlatform_seoul.ahead
    ⟨Office.sec, _, _, office_blank, rfl⟩
  have hrange := (listMatchCandidates_ne_overflow officePlatform_seoul.ahead hload htrip).mp hne
  rw [hstart] at hrange
  exact absurd hrange.1 (by decide)

end Biztrip.Reads
