import Biztrip.Reads.Candidates

/-!
# What is offered is accepted

Three queries decide which card transactions a report can take: the candidates, the picker
that lists what is not settled, and the check when an item is added. An item that is there
has passed the check, so it links a payment of the report's owner, and a key keeps a payment
from being linked twice in a report (`WellLinked`), also where requests overlap. What the
first two offer, the third accepts (`offered_is_accepted`).
-/

namespace Biztrip.Reads

open Biztrip.Lib Desk Expenses Matching

/-- No two items of a report link the same transaction. -/
def DistinctLinks (t : Table ExpenseItem) : Prop :=
  ∀ j k a b x, t.get j = some a → t.get k = some b → a.reportId = b.reportId →
    a.cardTransactionId = some x → b.cardTransactionId = some x → j = k

structure WellLinked (s : Store) : Prop where
  own : ∀ k it, s.items.get k = some it → LinksOwn s it
  once : DistinctLinks s.items

/-- A store that requests of the system lead to from a blank one, however they overlap. -/
def Interleaved (s : Store) : Prop :=
  ∃ (sec : Security) (s₀ : Store) (evs : List (Machine.Event (Request Call))),
    Blank s₀ ∧ s = ((Machine.Config.quiet (system sec) s₀).exec evs).db

theorem Reachable.interleaved {s : Store} (h : Reachable s) : Interleaved s := by
  obtain ⟨sec, s₀, reqs, hblank, rfl⟩ := h
  exact ⟨sec, s₀, Machine.serial reqs, hblank, by rw [Machine.exec_serial]; rfl⟩

/-- The keys are of the type of their column. -/
def KeysFit {ρ : Type} (t : Table ρ) : Prop := ∀ i r, t.get i = some r → IsInt4 i

variable {P : Platform} {seen s s' : Store} {env : Env} {user : CurrentUser} {now : Instant}
  {ws : List Write} {report : ExpenseReport} {reportId : Int} {sec : Security}

/-! ## Links -/

/-- The report and the transaction of an item that links one. -/
def linkKey (it : ExpenseItem) : Option (Int × Int) :=
  it.cardTransactionId.map fun x => (it.reportId, x)

theorem linkKey_eq_some {it : ExpenseItem} {j x : Int} :
    linkKey it = some (j, x) ↔ it.reportId = j ∧ it.cardTransactionId = some x := by
  unfold linkKey
  rw [Option.map_eq_some_iff]
  constructor
  · rintro ⟨y, hy, ⟨⟩⟩
    exact ⟨rfl, hy⟩
  · rintro ⟨rfl, hx⟩
    exact ⟨x, hx, rfl⟩

theorem distinctLinks_iff {t : Table ExpenseItem} : DistinctLinks t ↔ UniqueOn linkKey t := by
  constructor
  · rintro h i j a b ⟨n, x⟩ hi hj ha hb
    obtain ⟨rfl, hx⟩ := linkKey_eq_some.mp ha
    obtain ⟨hreport, hx'⟩ := linkKey_eq_some.mp hb
    exact h i j a b x hi hj hreport.symm hx hx'
  · intro h i j a b x hi hj hreport hx hx'
    exact h i j a b (a.reportId, x) hi hj (linkKey_eq_some.mpr ⟨rfl, hx⟩)
      (linkKey_eq_some.mpr ⟨hreport.symm, hx'⟩)

def link (it : ExpenseItem) : Int × Option Int := (it.reportId, it.cardTransactionId)

theorem linkKey_of_link {a b : ExpenseItem} (h : link a = link b) : linkKey a = linkKey b := by
  obtain ⟨hreport, hlink⟩ := Prod.mk.inj h
  rw [linkKey, linkKey, hreport, hlink]

theorem LinksOwn.of_link {a b : ExpenseItem} (h : LinksOwn s b) (hab : link a = link b) :
    LinksOwn s a := by
  obtain ⟨hreport, hlink⟩ := Prod.mk.inj hab
  unfold LinksOwn
  rw [hreport, hlink]
  exact h

theorem follows_link : Follows link where
  merge h cur := by
    obtain ⟨hreport, hlink⟩ := Prod.mk.inj h
    simp [link, merge, hreport, hlink]
  stamp _ _ := rfl

/-! ## Commits -/

/-- A row that is there after a desk request links what it has linked before, or is new and has
passed the check when the request read. -/
theorem items_of_expense {call : ExpenseCall} (deed : ExpenseDeed seen env user call ws)
    (hc : ws.foldlM (Store.flush now) s = .ok s') {k : Int} {row : ExpenseItem}
    (hk : s'.items.get k = some row) :
    (∃ old, s.items.get k = some old ∧ link row = link old) ∨ LinksOwn seen row := by
  cases deed with
  | addItem load new flush recalc =>
    obtain ⟨u, u', -, happly, -, rfl⟩ := commit_edit hc
    rw [RowWrite.apply_insert, Except.ok.injEq] at happly
    subst happly
    rcases Table.get_insert_eq_some hk with ⟨-, rfl⟩ | ⟨-, hk⟩
    · exact .inr (linksOwn_of_new load new)
    · exact .inl ⟨row, hk, rfl⟩
  | updateItem int4 get load checked assigned flush recalc =>
    obtain ⟨u, u', -, happly, -, rfl⟩ := commit_edit hc
    obtain ⟨hreport, hlink, -, -⟩ := assignItem_eq_ok assigned
    rcases (writtenBack_of_apply happly).cases hk with ⟨rfl, cur, at₀, hcur, rfl⟩ | ⟨-, hk⟩
    · refine .inl ⟨cur, hcur, ?_⟩
      exact (follows_link.stamp _ _).trans (follows_link.merge (Prod.ext hreport hlink) cur)
    · exact .inl ⟨row, hk, rfl⟩
  | deleteItem int4 get load flush recalc =>
    obtain ⟨u, u', -, happly, -, rfl⟩ := commit_edit hc
    rw [RowWrite.apply_delete, Except.ok.injEq] at happly
    subst happly
    exact .inl ⟨row, (Table.get_delete_eq_some hk).2, rfl⟩
  | approve load approver status trip completed moved settled records records' =>
    obtain ⟨u, u', -, -, rfl⟩ := commit_approve hc
    exact .inl ⟨row, hk, rfl⟩
  | create | update | submit | reject | reopen =>
    obtain ⟨-, u, -, rfl⟩ := commit_report hc
    exact .inl ⟨row, hk, rfl⟩

/-- The key refuses a link that is there by now, also one that was not when the request read. -/
theorem distinctLinks_of_expense {call : ExpenseCall} (deed : ExpenseDeed seen env user call ws)
    (hc : ws.foldlM (Store.flush now) s = .ok s') (h : DistinctLinks s.items) :
    DistinctLinks s'.items := by
  have hedit : ∀ {w : RowWrite ExpenseItem} {u : Table ExpenseItem},
      s.check (.item w) = .ok () → w.apply now Fault.staleData s.items = .ok u →
        (∀ i old new, w = .update i old new → link new = link old) → DistinctLinks u := by
    intro w u hcheck happly hcol
    refine distinctLinks_iff.mpr ((distinctLinks_iff.mp h).of_apply (fun _ _ => linkKey_of_link)
      follows_link hcol ?_ happly)
    rintro it rfl ⟨n, x⟩ hkey k a hk hlink
    obtain ⟨rfl, hx⟩ := linkKey_eq_some.mp hkey
    obtain ⟨hreport, hlink⟩ := linkKey_eq_some.mp hlink
    obtain ⟨_, hunique, -⟩ := bind_eq_ok.mp hcheck
    have hfree := guardE_eq_ok.mp (whenE_eq_ok.mp hunique (by rw [hx]; exact nofun))
    exact not_referenced hfree hk (by rw [hreport, hlink, hx])
  cases deed with
  | addItem load new flush recalc =>
    obtain ⟨u, u', hcheck, happly, -, rfl⟩ := commit_edit hc
    exact hedit hcheck happly fun _ _ _ he => nomatch he
  | updateItem int4 get load checked assigned flush recalc =>
    obtain ⟨u, u', hcheck, happly, -, rfl⟩ := commit_edit hc
    obtain ⟨hreport, hlink, -, -⟩ := assignItem_eq_ok assigned
    refine hedit hcheck happly ?_
    rintro _ _ _ ⟨⟩
    exact Prod.ext hreport hlink
  | deleteItem int4 get load flush recalc =>
    obtain ⟨u, u', hcheck, happly, -, rfl⟩ := commit_edit hc
    exact hedit hcheck happly fun _ _ _ he => nomatch he
  | approve load approver status trip completed moved settled records records' =>
    obtain ⟨u, u', -, -, rfl⟩ := commit_approve hc
    exact h
  | create | update | submit | reject | reopen =>
    obtain ⟨-, u, -, rfl⟩ := commit_report hc
    exact h

theorem WellLinked.commit (f : (system sec).InFlight) (h : WellLinked s) (hsince : Kept f.seen s)
    (hcommit : (system sec).commit s f.writes = .ok s') : WellLinked s' := by
  have hkept := kept_of_plan f.planned (Plan.commit_eq_ok.mp hcommit)
  have hsame : s'.items = s.items → WellLinked s' := fun hitems =>
    ⟨fun k it hk => (h.own k it (hitems ▸ hk)).kept hkept, hitems ▸ h.once⟩
  rcases flight_cases f hcommit with ⟨userId, call, user, ws, -, deed, hc⟩ | hdesk
  · cases deed with
    | trip deed => exact hsame (deed.tables hc).2
    | expense deed =>
      refine ⟨fun k it hk => ?_, distinctLinks_of_expense deed hc h.once⟩
      rcases items_of_expense deed hc hk with ⟨old, hold, hlink⟩ | hnew
      · exact ((h.own k old hold).of_link hlink).kept hkept
      · exact (hnew.kept hsince).kept hkept
  · exact hsame hdesk.items

theorem keeps_links (sec : Security) :
    (system sec).Keeps WellLinked Kept (fun _ _ => True) where
  refl := .refl
  trans _ _ _ := .trans
  commit _ f _ hs _ hsince _ hcommit :=
    ⟨hs.commit f hsince hcommit, kept_of_plan f.planned (Plan.commit_eq_ok.mp hcommit)⟩

theorem Interleaved.wellLinked (h : Interleaved s) : WellLinked s := by
  obtain ⟨sec, s₀, evs, hblank, rfl⟩ := h
  have hnone : ∀ {k it}, s₀.items.get k ≠ some it := fun {k it} hk => by
    rw [Table.get_of_rows_nil hblank.items] at hk
    cases hk
  have hblank : WellLinked s₀ :=
    ⟨fun _ _ hk => absurd hk hnone, fun _ _ _ _ _ hj => absurd hj hnone⟩
  exact ((Machine.Config.sound_quiet hblank).exec (keeps_links sec)
    (Machine.Config.each_true _ _)).db

/-! ## Offers -/

theorem mem_of_selectPage {α β κ : Type} [LinearOrder κ] {paging : Paging} {key : α → κ}
    {out : α → Result β} {rows : List α} {page : Page β} {c : β}
    (h : selectPage paging key out rows = .ok page) (hc : c ∈ page.items) :
    ∃ a ∈ rows, out a = .ok c := by
  obtain ⟨rowsOfPage, hcut, h⟩ := bind_eq_ok.mp h
  obtain ⟨items, hitems, h⟩ := bind_eq_ok.mp h
  obtain rfl := Except.ok.inj h
  obtain ⟨_, -, hcut⟩ := bind_eq_ok.mp hcut
  obtain rfl := Except.ok.inj hcut
  obtain ⟨a, ha, hout⟩ := mem_of_mapE hitems hc
  exact ⟨a, mem_orderBy.mp (List.mem_of_mem_drop (List.mem_of_mem_take ha)), hout⟩

/-- What the card list shows is on a card of the user, and meets the filters. -/
theorem shown_of_listCardTransactions {filters : Cards.CardTxnFilters}
    {page : Page Cards.CardTransactionOut} {c : Cards.CardTransactionOut}
    (h : Cards.listCardTransactions P s user filters = .ok page) (hc : c ∈ page.items) :
    ∃ t, s.transactions.get c.id = some t ∧
      (∃ card, s.cards.get t.cardId = some card ∧ card.userId = user.id) ∧
      (filters.includeCancelled = false → t.isCancelled = false) ∧
      (filters.unsettled = true → Cards.settled s c.id = false) := by
  unfold Cards.listCardTransactions at h
  dsimp only at h
  split at h
  · obtain rfl := Except.ok.inj h
    cases hc
  obtain ⟨start, -, h⟩ := bind_eq_ok.mp h
  obtain ⟨stop, -, h⟩ := bind_eq_ok.mp h
  obtain ⟨_, -, h⟩ := bind_eq_ok.mp h
  obtain ⟨_, -, h⟩ := bind_eq_ok.mp h
  obtain ⟨_, -, h⟩ := bind_eq_ok.mp h
  obtain ⟨_, -, h⟩ := bind_eq_ok.mp h
  obtain ⟨⟨i, t⟩, hrow, hout⟩ := mem_of_selectPage h hc
  obtain rfl := Except.ok.inj hout
  obtain ⟨hmem, hsel⟩ := List.mem_filter.mp hrow
  rw [Bool.and_eq_true, Bool.and_eq_true, List.contains_iff_mem] at hsel
  obtain ⟨⟨hcard, hselects⟩, hfree⟩ := hsel
  obtain ⟨⟨cardId, card⟩, hcard, hid⟩ := List.mem_map.mp (List.mem_filter.mp hcard).1
  obtain ⟨hcard, howner⟩ := List.mem_filter.mp hcard
  obtain rfl : cardId = t.cardId := hid
  refine ⟨t, Table.mem_rows.mp hmem, ⟨card, Table.mem_rows.mp hcard, by simpa using howner⟩,
    fun hlive => ?_, fun hunsettled => ?_⟩
  · unfold Cards.CardTxnFilters.selects at hselects
    simp only [Bool.and_eq_true, Bool.or_eq_true, hlive] at hselects
    simpa using hselects.1.1.1.1
  · rw [hunsettled, Bool.not_true, Bool.false_or, Bool.not_eq_true'] at hfree
    exact hfree

/-- What is offered for a report is on a card of its owner, not cancelled, and marked if the report
links it. -/
theorem offered_of_listMatchCandidates {out : List MatchCandidateOut} {c : MatchCandidateOut}
    (hr : s.reports.get reportId = some report)
    (h : listMatchCandidates P s user reportId = .ok out) (hc : c ∈ out) :
    ∃ t, s.transactions.get c.transactionId = some t ∧
      (∃ card, s.cards.get t.cardId = some card ∧ card.userId = report.userId) ∧
      t.isCancelled = false ∧
      (c.alreadyAdded = true ↔ LinkedHere s reportId c.transactionId) := by
  obtain ⟨report', load, h⟩ := bind_eq_ok.mp h
  obtain ⟨trip, -, h⟩ := bind_eq_ok.mp h
  obtain ⟨start, -, h⟩ := bind_eq_ok.mp h
  obtain ⟨stop, -, h⟩ := bind_eq_ok.mp h
  obtain rfl : report' = report :=
    Option.some.inj ((loadVisibleReport_eq_ok.mp load).2.1.symm.trans hr)
  have hkeys : ((fetched s report' (utcMidnight start) (utcMidnight stop)).map Prod.fst).Nodup :=
    s.transactions.nodup.sublist (List.filter_sublist.map _)
  obtain ⟨candidates, hfind, -⟩ := bind_eq_ok.mp h
  rw [candidatesOf_eq hkeys hfind] at h
  obtain rfl := Except.ok.inj h
  obtain ⟨⟨i, t⟩, hp, rfl⟩ := List.mem_map.mp hc
  obtain ⟨hfetched, hsel⟩ := List.mem_filter.mp (mem_orderBy.mp hp)
  obtain ⟨hrow, howner⟩ := mem_fetched hfetched
  obtain ⟨hmatch, -⟩ := (Bool.and_eq_true _ _).mp hsel
  obtain ⟨hcancelled, -⟩ := (Bool.and_eq_true _ _).mp hmatch
  exact ⟨t, hrow, howner, (Bool.not_eq_true' _).mp hcancelled,
    List.contains_iff_mem.trans mem_added⟩

/-- Reports keep to payments of their owners, each at most once, and take whatever of these the
candidates or the picker offer. -/
theorem offered_is_accepted (hs : Interleaved s) (hkeys : KeysFit s.transactions) :
    (∀ k it, s.items.get k = some it → LinksOwn s it) ∧ DistinctLinks s.items ∧
    ∀ reportId report, s.reports.get reportId = some report →
      report.status ∈ expenseEditableStatuses →
      (∀ (P : Platform) (user : CurrentUser) out c,
        listMatchCandidates P s user reportId = .ok out → c ∈ out → c.alreadyAdded = false →
          ∃ t, assertUsableTransaction s report reportId c.transactionId = .ok t) ∧
      ∀ (P : Platform) (owner : CurrentUser) (filters : Cards.CardTxnFilters) page c,
        owner.id = report.userId → filters.unsettled = true → filters.includeCancelled = false →
        Cards.listCardTransactions P s owner filters = .ok page → c ∈ page.items →
          ∃ t, assertUsableTransaction s report reportId c.id = .ok t := by
  refine ⟨hs.wellLinked.own, hs.wellLinked.once, fun reportId report hr _ => ⟨?_, ?_⟩⟩
  · intro P user out c hlist hc hnew
    obtain ⟨t, hrow, howner, hcancelled, hadded⟩ := offered_of_listMatchCandidates hr hlist hc
    refine ⟨t, assertUsableTransaction_eq_ok.mpr
      ⟨hkeys _ _ hrow, hrow, howner, hcancelled, fun k it hk hreport hlink => ?_⟩⟩
    rw [hadded.mpr ⟨k, it, hk, hreport, hlink⟩] at hnew
    cases hnew
  · intro P owner filters page c howner hunsettled hlive hlist hc
    obtain ⟨t, hrow, hcard, hcancelled, hfree⟩ := shown_of_listCardTransactions hlist hc
    rw [howner] at hcard
    refine ⟨t, assertUsableTransaction_eq_ok.mpr
      ⟨hkeys _ _ hrow, hrow, hcard, hcancelled hlive, fun k it hk _ hlink => ?_⟩⟩
    have hnone := hfree hunsettled
    unfold Cards.settled at hnone
    rw [List.any_eq_false] at hnone
    exact hnone _ (Table.mem_rows.mpr hk) (by simpa using hlink)

/-- What the picker asks for. -/
def unsettledOnes : Cards.CardTxnFilters := { unsettled := true }

/-- Kim's one payment is a candidate for Kim's trip of that day, the picker shows it too, and Kim's
report takes it. -/
theorem offered_is_accepted_kim :
    let s := reportOn (Office.day 719163)
    ∃ report, s.reports.get 1 = some report ∧
      (∃ out c, listMatchCandidates officePlatform s kim 1 = .ok out ∧ c ∈ out ∧
        c.transactionId = 1 ∧
        ∃ t, assertUsableTransaction s report 1 c.transactionId = .ok t) ∧
      ∃ page c, Cards.listCardTransactions officePlatform s kim unsettledOnes = .ok page ∧
        c ∈ page.items ∧ c.id = 1 ∧ ∃ t, assertUsableTransaction s report 1 c.id = .ok t := by
  intro s
  have hall : ∀ p ∈ s.transactions.rows, IsInt4 p.1 := by decide +kernel
  have hkeys : KeysFit s.transactions := fun i t hi => hall _ (Table.mem_rows.mpr hi)
  have hs : Reachable s := ⟨Office.sec, _, _, office_blank, rfl⟩
  have hreport : (s.reports.get 1).any fun r =>
      r.userId = 1 ∧ r.status ∈ expenseEditableStatuses := by
    decide +kernel
  have hcandidate : ((listMatchCandidates officePlatform s kim 1).toOption.bind fun out =>
      out.find? fun c => c.transactionId = 1 ∧ c.alreadyAdded = false).isSome := by
    decide +kernel
  have hshown : ((Cards.listCardTransactions officePlatform s kim unsettledOnes).toOption.bind
      fun page => page.items.find? fun c => c.id = 1).isSome := by
    decide +kernel
  obtain ⟨report, hr, hreport⟩ := (Option.any_eq_true _ _).mp hreport
  obtain ⟨howner, hstatus⟩ := of_decide_eq_true hreport
  obtain ⟨hcandidates, hpicker⟩ :=
    (offered_is_accepted hs.interleaved hkeys).2.2 1 report hr hstatus
  refine ⟨report, hr, ?_, ?_⟩
  · obtain ⟨c, hc⟩ := Option.isSome_iff_exists.mp hcandidate
    obtain ⟨out, hout, hfind⟩ := toOption_bind_eq_some.mp hc
    have hsome := List.find?_some hfind
    obtain ⟨hid, hnew⟩ := of_decide_eq_true hsome
    have hmem := List.mem_of_find?_eq_some hfind
    exact ⟨out, c, hout, hmem, hid, hcandidates _ _ _ _ hout hmem hnew⟩
  · obtain ⟨c, hc⟩ := Option.isSome_iff_exists.mp hshown
    obtain ⟨page, hpage, hfind⟩ := toOption_bind_eq_some.mp hc
    have hid := List.find?_some hfind
    have hmem := List.mem_of_find?_eq_some hfind
    exact ⟨page, c, hpage, hmem, of_decide_eq_true hid,
      hpicker _ _ _ _ _ howner.symm rfl rfl hpage hmem⟩

end Biztrip.Reads
