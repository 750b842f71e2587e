import Biztrip.Lib.Paged
import Biztrip.Reads.Noninterference
import Biztrip.Service.Admin.UserReads

/-!
# Reading a list page by page

The five paged lists as what they select, by which key they order it and what they make
of a row (`Listing`). `Listing.page` is one page of any size, as a query that the database
answers in an order of its choice; the list calls are its pages. Every list but that of the
users ends its order with the key of the row.
-/

namespace Biztrip.Reads

open Biztrip.Lib

structure Listing (κ ρ β : Type) where
  rows : List (Int × ρ)
  key : Int × ρ → κ
  out : Int × ρ → Result β

namespace Listing

variable {κ ρ β : Type} [LinearOrder κ]

/-- PostgreSQL's `LIMIT` and `OFFSET` are of type `bigint`. -/
def page (L : Listing κ ρ β) (page size : Nat) (arranged : List (Int × ρ)) : Result (Page β) := do
  let offset := (page - 1) * size
  guardE (offset < 2 ^ 63 ∧ size < 2 ^ 63) (.dataError "offset")
  let items ← mapE ((arranged.drop offset).take size) L.out
  return ⟨items, L.rows.length, page, size⟩

/-- The pages of `n` rows, one after another, bring every row exactly once, and tell their number,
whatever order the database chooses for each. -/
def Sweeps (L : Listing κ ρ β) (n : Nat) : Prop :=
  ∀ choice : Nat → List (Int × ρ), (∀ k, Arranged L.key L.rows (choice k)) → ∃ all pages,
    mapE L.rows L.out = .ok all ∧
    mapE (List.range (pageCount L.rows.length n)) (fun k => L.page (k + 1) n (choice k)) =
      .ok pages ∧
    (pages.flatMap Page.items).Perm all ∧ ∀ p ∈ pages, p.total = L.rows.length

/-- The page size and the offsets of all pages are numbers that the database takes. -/
def Sendable (total n : Nat) : Prop :=
  ∀ k < pageCount total n, k * n < 2 ^ 63 ∧ n < 2 ^ 63

theorem sendable_of_lt {total n : Nat} (hn : 1 ≤ n) (htotal : total < 2 ^ 63) (hsize : n < 2 ^ 63) :
    Sendable total n := by
  intro k hk
  refine ⟨?_, hsize⟩
  have hle : (k + 1) * n ≤ total + n - 1 := (Nat.le_div_iff_mul_le hn).mp hk
  rw [Nat.succ_mul] at hle
  omega

/-- The rows are distinct and can all be shown, with their keys. -/
structure WellFormed (L : Listing κ ρ β) (id : β → Int) : Prop where
  nodup : (L.rows.map Prod.fst).Nodup
  out : ∀ p ∈ L.rows, ∃ b, L.out p = .ok b ∧ id b = p.1

end Listing

/-! ## Pages and rows -/

section
variable {α β ε : Type}

theorem map_some_of_mapE {l : List α} {f : α → Except ε β} :
    ∀ {bs : List β}, mapE l f = .ok bs → bs.map some = l.map fun a => (f a).toOption := by
  induction l with
  | nil =>
    intro bs h
    obtain rfl := Except.ok.inj h
    rfl
  | cons a l ih =>
    intro bs h
    obtain ⟨b, hb, h⟩ := bind_eq_ok.mp h
    obtain ⟨bs', hbs, h⟩ := bind_eq_ok.mp h
    obtain rfl := Except.ok.inj h
    rw [List.map_cons, List.map_cons, ih hbs, hb]
    rfl

theorem mem_of_mapE {l : List α} {f : α → Except ε β} {b : β} :
    ∀ {bs : List β}, mapE l f = .ok bs → b ∈ bs → ∃ a ∈ l, f a = .ok b := by
  induction l with
  | nil =>
    intro bs h hb
    obtain rfl := Except.ok.inj h
    cases hb
  | cons a l ih =>
    intro bs h hb
    obtain ⟨b', hb', h⟩ := bind_eq_ok.mp h
    obtain ⟨bs', hbs, h⟩ := bind_eq_ok.mp h
    obtain rfl := Except.ok.inj h
    rcases List.mem_cons.mp hb with rfl | hb
    · exact ⟨a, List.mem_cons_self, hb'⟩
    · obtain ⟨a', ha', hfa⟩ := ih hbs hb
      exact ⟨a', List.mem_cons_of_mem _ ha', hfa⟩

theorem flatMap_of_mapE {γ δ : Type} {l : List α} {f : α → Except ε β} {h : β → List γ}
    {g : α → List δ} {c : γ → δ} (hg : ∀ a b, f a = .ok b → (h b).map c = g a) :
    ∀ {bs : List β}, mapE l f = .ok bs → (bs.flatMap h).map c = l.flatMap g := by
  induction l with
  | nil =>
    intro bs hbs
    obtain rfl := Except.ok.inj hbs
    rfl
  | cons a l ih =>
    intro bs hbs
    obtain ⟨b, hb, hbs⟩ := bind_eq_ok.mp hbs
    obtain ⟨bs', hbs', hbs⟩ := bind_eq_ok.mp hbs
    obtain rfl := Except.ok.inj hbs
    rw [List.flatMap_cons, List.map_append, ih hbs', hg a b hb, List.flatMap_cons]

end

namespace Listing

variable {κ ρ β : Type} [LinearOrder κ] {L : Listing κ ρ β} {id : β → Int} {n k : Nat}
  {l : List (Int × ρ)}

omit [LinearOrder κ] in
theorem page_eq_ok {p : Page β} : L.page (k + 1) n l = .ok p ↔ (k * n < 2 ^ 63 ∧ n < 2 ^ 63) ∧
    ∃ items, mapE (pageOf n k l) L.out = .ok items ∧ p = ⟨items, L.rows.length, k + 1, n⟩ := by
  unfold page
  simp only [Nat.add_sub_cancel, bind_eq_ok, guardE_eq_ok, exists_const, pure_eq_ok,
    Except.ok.injEq]
  exact and_congr_right fun _ => exists_congr fun items => and_congr_right fun _ => eq_comm

theorem subset_of_sweep {choice : Nat → List (Int × ρ)} {total : Nat}
    (hchoice : ∀ k, Arranged L.key L.rows (choice k)) :
    ∀ p ∈ sweep n total choice, p ∈ L.rows := by
  intro p hp
  obtain ⟨k, -, hp⟩ := List.mem_flatMap.mp hp
  exact (hchoice k).1.mem_iff.mp (List.mem_of_mem_drop (List.mem_of_mem_take hp))

omit [LinearOrder κ] in
/-- What is shown of the rows tells which rows they are. -/
theorem perm_of_shown (hL : L.WellFormed id) (hl : ∀ p ∈ l, p ∈ L.rows)
    (h : (l.map fun p => (L.out p).toOption).Perm (L.rows.map fun p => (L.out p).toOption)) :
    l.Perm L.rows := by
  have hid : ∀ {l' : List (Int × ρ)}, (∀ p ∈ l', p ∈ L.rows) →
      (l'.map fun p => (L.out p).toOption).map (Option.map id) =
        (l'.map Prod.fst).map some := by
    intro l' hl'
    rw [List.map_map, List.map_map]
    refine List.map_congr_left fun p hp => ?_
    obtain ⟨b, hb, hidb⟩ := hL.out p (hl' p hp)
    rw [Function.comp_apply, hb]
    exact congrArg some hidb
  have hkeys := h.map (Option.map id)
  rw [hid hl, hid fun _ hp => hp, List.map_perm_map_iff (Option.some_injective _)] at hkeys
  have hnodup : l.Nodup := (hkeys.nodup_iff.mpr hL.nodup).of_map
  have hlen : l.length = L.rows.length := by simpa using hkeys.length_eq
  exact (List.subperm_of_subset hnodup hl).perm_of_length_le hlen.ge

/-- The law of the pages is that of the rows, as far as the queries can be sent. -/
theorem sweeps_iff_covers (hL : L.WellFormed id) :
    L.Sweeps n ↔ Sendable L.rows.length n ∧ Covers L.key L.rows n := by
  have hshown : ∀ {choice : Nat → List (Int × ρ)} {pages : List (Page β)},
      mapE (List.range (pageCount L.rows.length n)) (fun k => L.page (k + 1) n (choice k)) =
        .ok pages → (pages.flatMap Page.items).map some =
          (sweep n L.rows.length choice).map fun p => (L.out p).toOption := by
    intro choice pages hpages
    have hpage : ∀ k p, L.page (k + 1) n (choice k) = .ok p →
        p.items.map some = (pageOf n k (choice k)).map fun p => (L.out p).toOption := by
      intro k p hp
      obtain ⟨-, items, hitems, rfl⟩ := page_eq_ok.mp hp
      exact map_some_of_mapE hitems
    rw [flatMap_of_mapE hpage hpages, sweep, List.map_flatMap]
  constructor
  · intro h
    refine ⟨fun k hk => ?_, fun choice hchoice => ?_⟩
    · obtain ⟨all, pages, -, hpages, -⟩ := h _ fun _ => arranged_orderBy L.key L.rows
      obtain ⟨p, hp⟩ := mapE_isOk.mp ⟨pages, hpages⟩ k (List.mem_range.mpr hk)
      exact (page_eq_ok.mp hp).1
    · obtain ⟨all, pages, hall, hpages, hperm, -⟩ := h choice hchoice
      refine perm_of_shown hL (subset_of_sweep hchoice) ?_
      rw [← hshown hpages, ← map_some_of_mapE hall]
      exact hperm.map some
  · rintro ⟨hsend, hcovers⟩ choice hchoice
    have hout : ∀ p ∈ L.rows, ∃ b, L.out p = .ok b := fun p hp =>
      let ⟨b, hb, _⟩ := hL.out p hp
      ⟨b, hb⟩
    obtain ⟨all, hall⟩ := mapE_isOk.mpr hout
    have hpage : ∀ k ∈ List.range (pageCount L.rows.length n),
        ∃ p, L.page (k + 1) n (choice k) = .ok p := by
      intro k hk
      obtain ⟨items, hitems⟩ := mapE_isOk.mpr fun p (hp : p ∈ pageOf n k (choice k)) =>
        hout p ((hchoice k).1.mem_iff.mp (List.mem_of_mem_drop (List.mem_of_mem_take hp)))
      exact ⟨_, page_eq_ok.mpr ⟨hsend k (List.mem_range.mp hk), items, hitems, rfl⟩⟩
    obtain ⟨pages, hpages⟩ := mapE_isOk.mpr hpage
    refine ⟨all, pages, hall, hpages, ?_, fun p hp => ?_⟩
    · rw [← List.map_perm_map_iff (Option.some_injective _), hshown hpages, map_some_of_mapE hall]
      exact (hcovers choice hchoice).map _
    · obtain ⟨k, -, hk⟩ := mem_of_mapE hpages hp
      obtain ⟨-, items, -, rfl⟩ := page_eq_ok.mp hk
      rfl

end Listing

/-! ## The lists -/

section
variable (P : Platform) (s : Store) (user : CurrentUser)

def tripListing (filters : Trips.TripFilters) :
    Result (Listing (ℤ ×ₗ ℤ) Trip Trips.TripListItem) := do
  let inScope ← scopeConditions Trip.userId Trip.approverId Trips.forbiddenScope user filters.scope
  checkSome (given filters.destinationTypeCode) (text "destination_type_code")
  checkSome (given filters.countryCode) (text "country_code")
  checkSome (given filters.q) (text "q")
  return {
    rows := s.trips.rows.filter fun p => inScope p.2 && filters.selects P p.2
    key := fun p => toLex (-(p.2.startDate.ordinal : Int), -p.1)
    out := fun p => return Trips.listItem s p.1 p.2 }

def reportListing (filters : Expenses.ExpenseFilters) :
    Result (Listing ℤ ExpenseReport Expenses.ExpenseReportListItem) := do
  let inScope ← scopeConditions ExpenseReport.userId ExpenseReport.approverId
    Expenses.forbiddenScope user filters.scope
  checkSome (given filters.q) (text "q")
  return {
    rows := s.reports.rows.filter fun p => inScope p.2 && filters.selects P s p.2
    key := fun p => -p.1
    out := fun p => Expenses.listItem s p.1 p.2 }

def cardListing (filters : Cards.CardTxnFilters) :
    Result (Listing (ℤ ×ₗ ℤ) CardTransaction Cards.CardTransactionOut) := do
  let cardIds := (Cards.loadMyCardIds s user).filter fun cardId =>
    filters.cardId.all fun wanted => cardId = wanted
  let key (p : Int × CardTransaction) : ℤ ×ₗ ℤ := toLex (-p.2.approvedAt, -p.1)
  let out (p : Int × CardTransaction) : Result Cards.CardTransactionOut :=
    return Cards.toOut p.1 p.2
  if cardIds.isEmpty then
    return { rows := [], key, out }
  let approvedFrom ← Cards.bound P 0 filters.approvedFrom
  let approvedTo ← Cards.bound P 1 filters.approvedTo
  checkSome approvedFrom (Cards.instant "approved_from")
  checkSome approvedTo (Cards.instant "approved_to")
  checkSome (given filters.merchantCategoryCode) (text "merchant_category_code")
  checkSome (given filters.q) (text "q")
  return {
    rows := s.transactions.rows.filter fun p =>
      cardIds.contains p.2.cardId && filters.selects P approvedFrom approvedTo p.2 &&
        (!filters.unsettled || !Cards.settled s p.1)
    key, out }

def notificationListing (unreadOnly : Bool) :
    Listing (ℤ ×ₗ ℤ) Notification Notifications.NotificationOut where
  rows := s.notifications.rows.filter fun p =>
    decide (p.2.userId = user.id) && (!unreadOnly || !p.2.isRead)
  key p := toLex (-p.2.createdAt, -p.1)
  out p := return Notifications.toOut p.1 p.2

def userListing (filters : Admin.Users.UserFilters) :
    Result (Listing (WithTop String) User Admin.Users.AdminUserOut) := do
  let rows ← Admin.Users.selectUsers P s filters
  return {
    rows, key := Admin.Users.employeeKey
    out := fun p => return Admin.Users.toOut s p.1 p.2 }

end

section
variable {P : Platform} {s : Store} {user : CurrentUser}

/-- The sizes that the routes admit are far below the bound. -/
theorem Paging.cut_eq {α : Type} (paging : Paging) (l : List α) : paging.cut l =
    (guardE ((paging.page - 1) * paging.size < 2 ^ 63 ∧ paging.size < 2 ^ 63)
      (Fault.dataError "offset") >>= fun _ =>
        return (l.drop ((paging.page - 1) * paging.size)).take paging.size) := by
  obtain ⟨-, -, hsize⟩ := paging.bounded
  have hbound : ∀ offset : Nat, offset < 2 ^ 63 ↔ offset < 2 ^ 63 ∧ paging.size < 2 ^ 63 :=
    fun offset => ⟨fun h => ⟨h, by omega⟩, fun h => h.1⟩
  unfold Paging.cut guardE
  dsimp only
  rw [if_congr (hbound _) rfl rfl]

/-- The page of a list call is the page of its listing, in the one order there is. -/
theorem selectPage_eq {κ ρ β : Type} [LinearOrder κ] (L : Listing κ ρ β) (paging : Paging) :
    selectPage paging L.key L.out L.rows =
      L.page paging.page paging.size (orderBy L.key L.rows) := by
  unfold selectPage Listing.page
  rw [Paging.cut_eq, bind_assoc]
  simp only [pure_bind]

theorem listTrips_eq (filters : Trips.TripFilters) : Trips.listTrips P s user filters =
    (tripListing P s user filters >>= fun L =>
      L.page filters.paging.page filters.paging.size (orderBy L.key L.rows)) := by
  unfold Trips.listTrips tripListing
  simp only [bind_assoc, pure_bind, ← selectPage_eq]

theorem listReports_eq (filters : Expenses.ExpenseFilters) :
    Expenses.listReports P s user filters =
      (reportListing P s user filters >>= fun L =>
        L.page filters.paging.page filters.paging.size (orderBy L.key L.rows)) := by
  unfold Expenses.listReports reportListing
  simp only [bind_assoc, pure_bind, ← selectPage_eq]

/-- Who has no card is not asked for an offset. -/
theorem listCardTransactions_eq (filters : Cards.CardTxnFilters)
    (h : (filters.paging.page - 1) * filters.paging.size < 2 ^ 63) :
    Cards.listCardTransactions P s user filters =
      (cardListing P s user filters >>= fun L =>
        L.page filters.paging.page filters.paging.size (orderBy L.key L.rows)) := by
  unfold Cards.listCardTransactions cardListing
  dsimp only
  split
  · have hcut : ∀ l : List (Int × CardTransaction), filters.paging.cut l =
        .ok ((l.drop ((filters.paging.page - 1) * filters.paging.size)).take
          filters.paging.size) := fun l => bind_eq_ok.mpr ⟨(), guardE_eq_ok.mpr h, rfl⟩
    rw [pure_bind, ← selectPage_eq]
    unfold selectPage
    rw [hcut, ok_bind]
    simp [orderBy, mapE]
  · simp only [bind_assoc, pure_bind, ← selectPage_eq]

theorem listNotifications_eq (unreadOnly : Bool) (paging : Paging) :
    Notifications.listNotifications s user unreadOnly paging =
      ((notificationListing s user unreadOnly).page paging.page paging.size
        (orderBy (notificationListing s user unreadOnly).key
          (notificationListing s user unreadOnly).rows) >>= fun page =>
            return { page with
              unread := (s.notifications.rows.filter fun p =>
                decide (p.2.userId = user.id) && !p.2.isRead).length }) := by
  rw [← selectPage_eq]
  rfl

theorem listUsers_eq (filters : Admin.Users.UserFilters) (arranged : List (Int × User)) :
    Admin.Users.listUsers P s filters arranged =
      (userListing P s filters >>= fun L =>
        L.page filters.paging.page filters.paging.size arranged) := by
  have hshow : ∀ l : List (Int × User),
      mapE l (fun p => (pure (Admin.Users.toOut s p.1 p.2) : Result Admin.Users.AdminUserOut)) =
        .ok (l.map fun p => Admin.Users.toOut s p.1 p.2) := by
    intro l
    induction l with
    | nil => rfl
    | cons p l ih => rw [mapE, ih]; rfl
  unfold Admin.Users.listUsers userListing Listing.page
  simp only [Paging.cut_eq, bind_assoc, pure_bind, hshow]
  rfl

/-! ## Keys -/

/-- Whatever is shown of the rows of a table that are selected is shown with their keys. -/
theorem wellFormed_of_filter {κ ρ β : Type} {t : Table ρ} {q : Int × ρ → Bool}
    {L : Listing κ ρ β} {id : β → Int} (hrows : L.rows = t.rows.filter q)
    (hout : ∀ i r, t.get i = some r → q (i, r) = true → ∃ b, L.out (i, r) = .ok b ∧ id b = i) :
    L.WellFormed id where
  nodup := by
    rw [hrows]
    exact t.nodup.sublist (List.filter_sublist.map _)
  out := by
    rintro ⟨i, r⟩ hmem
    rw [hrows] at hmem
    obtain ⟨hrow, hsel⟩ := List.mem_filter.mp hmem
    exact hout i r (Table.mem_rows.mp hrow) hsel

/-- An order that ends with the key of the row is total on the rows of a table. -/
theorem sweeps_of_total {κ ρ β : Type} [LinearOrder κ] {L : Listing κ ρ β} {id : β → Int} {n : Nat}
    (hn : 1 ≤ n) (hL : L.WellFormed id) (hkey : ∀ a b, L.key a = L.key b → a.1 = b.1) :
    L.Sweeps n ↔ Listing.Sendable L.rows.length n := by
  rw [Listing.sweeps_iff_covers hL]
  refine and_iff_left (covers_of_total hn fun a ha b hb hab => ?_)
  exact List.inj_on_of_nodup_map hL.nodup ha hb (hkey a b hab)

variable {n : Nat}

theorem tripListing_sweeps (hn : 1 ≤ n) {filters : Trips.TripFilters}
    {L : Listing (ℤ ×ₗ ℤ) Trip Trips.TripListItem} (hL : tripListing P s user filters = .ok L) :
    L.Sweeps n ↔ Listing.Sendable L.rows.length n := by
  obtain ⟨inScope, -, hL⟩ := bind_eq_ok.mp hL
  obtain ⟨_, -, hL⟩ := bind_eq_ok.mp hL
  obtain ⟨_, -, hL⟩ := bind_eq_ok.mp hL
  obtain ⟨_, -, hL⟩ := bind_eq_ok.mp hL
  obtain rfl := Except.ok.inj hL
  refine sweeps_of_total hn (?_ : Listing.WellFormed _ Trips.TripListItem.id)
    (key_of_lex fun t : Trip => -(t.startDate.ordinal : Int))
  exact wellFormed_of_filter rfl fun _ _ _ _ => ⟨_, rfl, rfl⟩

theorem reportListing_sweeps (hn : 1 ≤ n) {filters : Expenses.ExpenseFilters}
    {L : Listing ℤ ExpenseReport Expenses.ExpenseReportListItem}
    (hL : reportListing P s user filters = .ok L) :
    L.Sweeps n ↔ Listing.Sendable L.rows.length n := by
  obtain ⟨inScope, -, hL⟩ := bind_eq_ok.mp hL
  obtain ⟨_, -, hL⟩ := bind_eq_ok.mp hL
  obtain rfl := Except.ok.inj hL
  refine sweeps_of_total hn (?_ : Listing.WellFormed _ Expenses.ExpenseReportListItem.id)
    fun a b hkey => neg_inj.mp hkey
  -- the query joins the trip, so a report without one is not selected
  refine wellFormed_of_filter rfl fun j r _ hsel => ?_
  obtain ⟨-, hselects⟩ := (Bool.and_eq_true _ _).mp hsel
  obtain ⟨-, htrip⟩ := (Bool.and_eq_true _ _).mp hselects
  obtain ⟨trip, htrip, -⟩ := (Option.any_eq_true _ _).mp htrip
  exact ⟨_, bind_eq_ok.mpr ⟨trip, getE_eq_ok.mpr htrip, rfl⟩, rfl⟩

theorem cardListing_sweeps (hn : 1 ≤ n) {filters : Cards.CardTxnFilters}
    {L : Listing (ℤ ×ₗ ℤ) CardTransaction Cards.CardTransactionOut}
    (hL : cardListing P s user filters = .ok L) :
    L.Sweeps n ↔ Listing.Sendable L.rows.length n := by
  have hkey := key_of_lex fun t : CardTransaction => -t.approvedAt
  unfold cardListing at hL
  dsimp only at hL
  split at hL
  · obtain rfl := Except.ok.inj hL
    refine sweeps_of_total hn (?_ : Listing.WellFormed _ Cards.CardTransactionOut.id) hkey
    exact ⟨List.nodup_nil, fun p hp => absurd hp List.not_mem_nil⟩
  · obtain ⟨approvedFrom, -, hL⟩ := bind_eq_ok.mp hL
    obtain ⟨approvedTo, -, hL⟩ := bind_eq_ok.mp hL
    obtain ⟨_, -, hL⟩ := bind_eq_ok.mp hL
    obtain ⟨_, -, hL⟩ := bind_eq_ok.mp hL
    obtain ⟨_, -, hL⟩ := bind_eq_ok.mp hL
    obtain ⟨_, -, hL⟩ := bind_eq_ok.mp hL
    obtain rfl := Except.ok.inj hL
    refine sweeps_of_total hn (?_ : Listing.WellFormed _ Cards.CardTransactionOut.id) hkey
    exact wellFormed_of_filter rfl fun _ _ _ _ => ⟨_, rfl, rfl⟩

theorem notificationListing_sweeps (hn : 1 ≤ n) {unreadOnly : Bool} :
    (notificationListing s user unreadOnly).Sweeps n ↔
      Listing.Sendable (notificationListing s user unreadOnly).rows.length n := by
  refine sweeps_of_total hn (?_ : Listing.WellFormed _ Notifications.NotificationOut.id)
    (key_of_lex fun t : Notification => -t.createdAt)
  exact wellFormed_of_filter rfl fun _ _ _ _ => ⟨_, rfl, rfl⟩

/-! ## Users -/

/-- No two users have the same employee number, as the column declares. -/
def UniqueNumbers (t : Table User) : Prop :=
  ∀ i j u v no, t.get i = some u → t.get j = some v → u.employeeNo = some no →
    v.employeeNo = some no → i = j

/-- The users without an employee number, who come last, are on one page. -/
def UnnumberedTogether (rows : List (Int × User)) (n : Nat) : Prop :=
  (∃ p ∈ rows, p.2.employeeNo = none) →
    (rows.length - rows.countP fun p => p.2.employeeNo = none) / n = (rows.length - 1) / n

theorem employeeKey_eq_top {p : Int × User} :
    Admin.Users.employeeKey p = ⊤ ↔ p.2.employeeNo = none := by
  unfold Admin.Users.employeeKey
  split
  · next h => simp [h]
  · next h => simp [h]

theorem userListing_sweeps (hn : 1 ≤ n) (hs : UniqueNumbers s.users)
    {filters : Admin.Users.UserFilters} {L : Listing (WithTop String) User Admin.Users.AdminUserOut}
    (hL : userListing P s filters = .ok L) :
    L.Sweeps n ↔ Listing.Sendable L.rows.length n ∧ UnnumberedTogether L.rows n := by
  obtain ⟨rows, hrows, hL⟩ := bind_eq_ok.mp hL
  obtain rfl := Except.ok.inj hL
  obtain ⟨_, -, hrows⟩ := bind_eq_ok.mp hrows
  obtain ⟨_, -, hrows⟩ := bind_eq_ok.mp hrows
  obtain rfl := Except.ok.inj hrows
  have hwf : Listing.WellFormed (Listing.mk (s.users.rows.filter fun p => filters.selects P p.2)
      Admin.Users.employeeKey fun p => .ok (Admin.Users.toOut s p.1 p.2))
        Admin.Users.AdminUserOut.id :=
    wellFormed_of_filter rfl fun _ _ _ _ => ⟨_, rfl, rfl⟩
  refine (Listing.sweeps_iff_covers hwf).trans (and_congr_right fun _ => ?_)
  rw [covers_iff hn hwf.nodup.of_map, tiesTogether_iff_of_top hwf.nodup.of_map]
  · unfold UnnumberedTogether
    simp only [employeeKey_eq_top]
  · rintro ⟨i, u⟩ hi ⟨j, v⟩ hj hkey hnumber
    have hu := Table.mem_rows.mp (List.mem_of_mem_filter hi)
    have hv := Table.mem_rows.mp (List.mem_of_mem_filter hj)
    rw [Ne, employeeKey_eq_top] at hnumber
    obtain ⟨no, hno⟩ := Option.ne_none_iff_exists'.mp hnumber
    have hno' : v.employeeNo = some no := by
      simp only at hno
      unfold Admin.Users.employeeKey at hkey
      simp only [hno] at hkey
      split at hkey
      · next h => exact absurd hkey (by simp)
      · next no' h => rw [h, WithTop.coe_inj.mp hkey]
    obtain rfl := hs i j u v no hu hv hno hno'
    exact List.inj_on_of_nodup_map s.users.nodup (List.mem_of_mem_filter hi)
      (List.mem_of_mem_filter hj) rfl

end

/-! ## All lists -/

/-- A paged list, without the page. -/
inductive ListCall where
  | trips (user : CurrentUser) (filters : Trips.TripFilters)
  | reports (user : CurrentUser) (filters : Expenses.ExpenseFilters)
  | cardTransactions (user : CurrentUser) (filters : Cards.CardTxnFilters)
  | notifications (user : CurrentUser) (unreadOnly : Bool)
  | users (filters : Admin.Users.UserFilters)

namespace ListCall

/-- The listing, if the call is not refused, meets `p`. -/
def Lists (P : Platform) (s : Store)
    (p : ∀ {κ ρ β : Type} [LinearOrder κ], Listing κ ρ β → Prop) : ListCall → Prop
  | .trips user filters => ∀ L, tripListing P s user filters = .ok L → p L
  | .reports user filters => ∀ L, reportListing P s user filters = .ok L → p L
  | .cardTransactions user filters => ∀ L, cardListing P s user filters = .ok L → p L
  | .notifications user unreadOnly => p (notificationListing s user unreadOnly)
  | .users filters => ∀ L, userListing P s filters = .ok L → p L

/-- Read in pages of `n` rows, the list brings every row that matches exactly once. -/
def Sweeps (P : Platform) (s : Store) (n : Nat) (call : ListCall) : Prop :=
  call.Lists P s fun L => L.Sweeps n

/-- The queries can be sent, and of the users, those without a number are on one page. -/
def Fits (P : Platform) (s : Store) (n : Nat) (call : ListCall) : Prop :=
  call.Lists P s (fun L => Listing.Sendable L.rows.length n) ∧
    ∀ filters rows, call = .users filters → Admin.Users.selectUsers P s filters = .ok rows →
      UnnumberedTogether rows n

/-- Paging neither loses nor repeats a row, exactly if the users without an employee number that
match are on one page; of the other lists there is nothing to ask but that the database takes the
numbers. -/
theorem sweeps_iff_fits (P : Platform) {s : Store} (hs : UniqueNumbers s.users) (call : ListCall)
    {n : Nat} (hn : 1 ≤ n) : call.Sweeps P s n ↔ call.Fits P s n := by
  unfold Sweeps Fits
  cases call with
  | trips user filters =>
    refine Iff.trans ?_ (and_iff_left fun _ _ he => nomatch he).symm
    exact forall₂_congr fun L hL => tripListing_sweeps hn hL
  | reports user filters =>
    refine Iff.trans ?_ (and_iff_left fun _ _ he => nomatch he).symm
    exact forall₂_congr fun L hL => reportListing_sweeps hn hL
  | cardTransactions user filters =>
    refine Iff.trans ?_ (and_iff_left fun _ _ he => nomatch he).symm
    exact forall₂_congr fun L hL => cardListing_sweeps hn hL
  | notifications user unreadOnly =>
    refine Iff.trans ?_ (and_iff_left fun _ _ he => nomatch he).symm
    exact notificationListing_sweeps hn
  | users filters =>
    constructor
    · intro h
      refine ⟨fun L hL => ((userListing_sweeps hn hs hL).mp (h L hL)).1, ?_⟩
      rintro _ rows ⟨⟩ hrows
      have hL : userListing P s filters = .ok _ := bind_eq_ok.mpr ⟨rows, hrows, rfl⟩
      exact ((userListing_sweeps hn hs hL).mp (h _ hL)).2
    · rintro ⟨hsend, htogether⟩ L hL
      refine (userListing_sweeps hn hs hL).mpr ⟨hsend L hL, ?_⟩
      obtain ⟨rows, hrows, hL⟩ := bind_eq_ok.mp hL
      obtain rfl := Except.ok.inj hL
      exact htogether filters rows rfl hrows

end ListCall

/-! ## Two applicants -/

/-- Choi and Jung have applied for accounts. -/
def twoApplicants : Store := Run.all (system Office.sec).step Office.store
  [⟨Office.env, .account (.signup Office.application)⟩,
    ⟨Office.env, .account (.signup { Office.application with
      email := ⟨"jung@sk.com", by decide⟩, name := ⟨"Jung", by decide⟩ })⟩]

def pending : Admin.Users.UserFilters := { status := some .pending }

def pendingRows : List (Int × User) :=
  twoApplicants.users.rows.filter fun p => pending.selects officePlatform p.2

theorem twoApplicants_unique : UniqueNumbers twoApplicants.users := by
  intro i j u v no hu hv hno hno'
  have hall : ∀ p ∈ twoApplicants.users.rows, ∀ q ∈ twoApplicants.users.rows,
      p.2.employeeNo = q.2.employeeNo → p.2.employeeNo ≠ none → p.1 = q.1 := by decide +kernel
  exact hall _ (Table.mem_rows.mpr hu) _ (Table.mem_rows.mpr hv) (hno.trans hno'.symm)
    fun hnone => nomatch hno.symm.trans hnone

/-- Read in pages of one, one of the applicants can be missing. -/
theorem applicants_not_swept :
    ¬ (ListCall.users pending).Sweeps officePlatform twoApplicants 1 := by
  intro h
  have hL : userListing officePlatform twoApplicants pending = .ok _ :=
    bind_eq_ok.mpr ⟨pendingRows, rfl, rfl⟩
  have htogether := ((userListing_sweeps le_rfl twoApplicants_unique hL).mp (h _ hL)).2
  have hsplit : ¬ UnnumberedTogether pendingRows 1 := by
    unfold UnnumberedTogether
    decide +kernel
  exact hsplit htogether

/-- On one page, both are there. -/
theorem applicants_swept : (ListCall.users pending).Sweeps officePlatform twoApplicants 20 := by
  refine (ListCall.sweeps_iff_fits officePlatform twoApplicants_unique _ (by decide)).mpr ?_
  have hlen : pendingRows.length = 2 := by decide +kernel
  constructor
  · intro L hL
    obtain ⟨rows, hrows, hL⟩ := bind_eq_ok.mp hL
    obtain rfl := Except.ok.inj hL
    have hrows : Except.ok pendingRows = Except.ok rows := hrows
    obtain rfl := Except.ok.inj hrows
    refine Listing.sendable_of_lt (by decide) ?_ (by decide)
    rw [hlen]
    decide
  · rintro _ rows ⟨⟩ hrows
    have hrows : Except.ok pendingRows = Except.ok rows := hrows
    obtain rfl := Except.ok.inj hrows
    unfold UnnumberedTogether
    rw [hlen]
    decide +kernel

end Biztrip.Reads
