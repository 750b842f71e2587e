import Biztrip.Seed.Growth
import Biztrip.System

/-!
# Seeding a store that is partly filled

`seed_all` on a store in which any of its tables were filled or emptied. What was made
has an approved report where it should, and a second run changes nothing, from every
such store. Who gets a card or a trip depends on the users: those that a block finds are
handed on whatever their status, so that the run is safe exactly on the stores of
`Reseedable`.
-/

namespace Biztrip.Seed

open Biztrip.Lib

variable {sec : Security} {sur : Surroundings} {s s' : Store}

/-! ## Stores -/

theorem items_ahead (h : Consistent s) {k : Int} {it : ExpenseItem}
    (hk : s.items.get k = some it) : it.reportId < s.reports.next := by
  obtain ⟨r, hr⟩ := Option.isSome_iff_exists.mp (h.itemReport k it hk it.reportId rfl)
  exact Table.get_lt_next hr

def IsActive (s : Store) (userId : Int) : Prop :=
  ∃ u, s.users.get userId = some u ∧ u.status = .active

/-- What a run should have come to, of the cards and trips that were not there before. -/
structure Safe (sec : Security) (s s' : Store) : Prop where
  card : ∀ i c, s'.cards.get i = some c → s.cards.get i = none → IsActive s' c.userId
  trip : ∀ i t, s'.trips.get i = some t → s.trips.get i = none → IsActive s' t.userId
  approver : ∀ i t, s'.trips.get i = some t → s.trips.get i = none →
    t.status ≠ .draft → t.approverId ≠ none
  report : ∀ i t, s'.trips.get i = some t → s.trips.get i = none →
    t.status = .settled → HasReport s' i
  again : ∀ sur, seedAll sec sur s' = .ok s'

/-- Fit to be the author of a trip of this status. -/
def MayTravel (status : TripStatus) (u : User) : Prop :=
  u.status = .active ∧ (status ≠ .draft → u.managerId ≠ none)

/-- There are no users yet; or those who would get cards are all active, and those who would get
trips are active and, for all but drafts, have a manager. -/
def Reseedable (s : Store) : Prop :=
  s.users.rows = [] ∨
    ((s.cards.rows = [] → ∀ i u, s.users.get i = some u → u.status = .active) ∧
      (s.trips.rows = [] → ∀ p ∈ statuses.zipIdx 1, ∀ author,
        cyclic (employees (byId s.users)) p.2 = .ok author → MayTravel p.1 author.2))

/-! ## A second run -/

/-- Nothing is left for any block to make. -/
structure Full (s : Store) : Prop where
  codeGroups : isSeeded s.codeGroups = true
  departments : isSeeded s.departments = true
  fundCenters : isSeeded s.fundCenters = true
  costCenters : isSeeded s.costCenters = true
  users : isSeeded s.users = true
  newcomer : ∃ i u, s.users.get i = some u ∧ u.email = newcomerEmail
  cards : isSeeded s.cards = true
  trips : isSeeded s.trips = true

theorem seedAll_of_full (h : Full s) : seedAll sec sur s = .ok s := by
  have hcodes : seedCodes sur s = .ok s := if_pos h.codeGroups
  have horg : seedOrg sur s = .ok (byCode (byId s.departments), s) :=
    if_pos (byId_ne_nil.mpr h.departments)
  have hfund {depts : Departments} : fillCenters sur depts .fund fundCenters s = .ok s :=
    if_pos h.fundCenters
  have hcost {depts : Departments} : fillCenters sur depts .cost costCenters s = .ok s :=
    if_pos h.costCenters
  have husers {depts : Departments} : seedUsers sec sur depts s = .ok (byId s.users, s) :=
    if_pos (byId_ne_nil.mpr h.users)
  have hnewcomer {depts : Departments} : seedPendingSignup sec sur depts s = .ok s := by
    obtain ⟨i, u, hu, hemail⟩ := h.newcomer
    exact if_pos (List.find?_isSome.mpr ⟨(i, u), Table.mem_rows.mpr hu, decide_eq_true hemail⟩)
  have hcards {users : List (Int × User)} : seedCards sur users s = .ok s := if_pos h.cards
  have htrips {users : List (Int × User)} : seedTrips sur users s = .ok s := if_pos h.trips
  simp only [seedAll, seedCenters, hcodes, horg, hfund, hcost, husers, hnewcomer, hcards, htrips,
    ok_bind]

/-! ## A first run -/

/-- What has come of a run on `s`, of whose blocks one handed on `users`. -/
structure Outcome (s s' : Store) (users : List (Int × User)) : Prop where
  full : Full s'
  handed : users = byId s.users ∨ (s.users.rows = [] ∧ ∀ q ∈ users, Fit q.2)
  kept : ∀ q ∈ users, s'.users.get q.1 = some q.2
  cards : s'.cards = s.cards ∨
    (s.cards.rows = [] ∧ s'.cards.rows.map (fun p => p.2.userId) = users.map Prod.fst)
  trips : s'.trips = s.trips ∨ (s.trips.rows = [] ∧
    List.Forall₂ (fun p q => Drafted (employees users) p q.2) (statuses.zipIdx 1) s'.trips.rows ∧
    ∀ q ∈ s'.trips.rows, q.2.status = .settled → HasReport s' q.1)

theorem seedAll_outcome (hs : Consistent s) :
    Ensures (seedAll sec sur s) fun s' => ∃ users, Outcome s s' users := by
  refine ensures_bind fun s₁ h₁ => ?_
  obtain ⟨groups, codes, rfl, hgroups⟩ := seedCodes_spec s₁ h₁
  refine ensures_bind fun org horg => ?_
  obtain ⟨depts, s₂⟩ := org
  obtain ⟨departments, rfl, hdepartments⟩ := seedOrg_spec _ horg
  refine ensures_bind fun s₃ h₃ => ?_
  obtain ⟨fund, cost, rfl, hfund, hcost⟩ := seedCenters_spec s₃ h₃
  refine ensures_bind fun handed hhanded => ?_
  obtain ⟨users, s₄⟩ := handed
  obtain ⟨t, rfl, hne, hget, husers⟩ := seedUsers_spec _ hhanded
  refine ensures_bind fun s₅ h₅ => ?_
  obtain ⟨t', rfl, hnewcomer, hkept⟩ := seedPendingSignup_spec s₅ h₅
  refine ensures_bind fun s₆ h₆ => ?_
  obtain ⟨cards, transactions, rfl, hcards, howners⟩ := seedCards_spec hne s₆ h₆
  intro s₇ h₇
  obtain ⟨trips, _, _, _, rfl, htrips, hdrafted⟩ :=
    seedTrips_spec (by exact fun _ _ hk => items_ahead hs hk) s₇ h₇
  obtain ⟨i, u, hu, hemail⟩ := hnewcomer
  refine ⟨users, ?_, husers.imp And.left id, fun q hq => hkept _ _ (hget q hq), howners, hdrafted⟩
  exact ⟨hgroups, hdepartments, hfund, hcost, isSeeded_of_get hu, ⟨i, u, hu, hemail⟩, hcards,
    htrips⟩

section
variable {users : List (Int × User)}

theorem Outcome.isActive_iff (h : Outcome s s' users) {q : Int × User} (hq : q ∈ users) :
    IsActive s' q.1 ↔ q.2.status = .active := by
  rw [IsActive, h.kept q hq]
  simp

/-- The cards that were made are safe if and only if the users who got them are active. -/
theorem Outcome.card_iff (h : Outcome s s' users) :
    (∀ i c, s'.cards.get i = some c → s.cards.get i = none → IsActive s' c.userId) ↔
      (s.cards.rows = [] → ∀ q ∈ users, q.2.status = .active) := by
  rcases h.cards with hsame | ⟨hempty, howners⟩
  · have hseeded := isSeeded_iff.mp h.full.cards
    rw [hsame] at hseeded ⊢
    constructor
    · exact fun _ hempty => absurd hempty hseeded
    · intro _ i c hc hnone
      rw [hc] at hnone
      cases hnone
  · constructor
    · intro hsafe _ q hq
      have hmem : q.1 ∈ s'.cards.rows.map fun p => p.2.userId := howners ▸ List.mem_map_of_mem hq
      obtain ⟨p, hp, huser⟩ := List.mem_map.mp hmem
      rw [← h.isActive_iff hq, ← huser]
      exact hsafe p.1 p.2 (Table.mem_rows.mp hp) (Table.get_of_rows_nil hempty _)
    · intro hactive i c hc _
      have hmem : c.userId ∈ users.map Prod.fst := by
        rw [← howners]
        exact List.mem_map_of_mem (Table.mem_rows.mpr hc)
      obtain ⟨q, hq, huser⟩ := List.mem_map.mp hmem
      rw [← huser, h.isActive_iff hq]
      exact hactive hempty q hq

theorem mem_of_cyclic {α : Type} {l : List α} {n : Nat} {a : α} (h : cyclic l n = .ok a) : a ∈ l :=
  List.mem_of_getElem? (getE_eq_ok.mp h)

theorem mem_users_of_author {n : Nat} {author : Int × User}
    (h : cyclic (employees users) n = .ok author) :
    author ∈ users ∧ author.2.role = .employee := by
  obtain ⟨hmem, hrole⟩ := List.mem_filter.mp (mem_of_cyclic h)
  exact ⟨hmem, of_decide_eq_true hrole⟩

/-- The trips that were made are safe if and only if their authors may travel. -/
theorem Outcome.trip_iff (h : Outcome s s' users) :
    (∀ i t, s'.trips.get i = some t → s.trips.get i = none →
      IsActive s' t.userId ∧ (t.status ≠ .draft → t.approverId ≠ none)) ↔
      (s.trips.rows = [] → ∀ p ∈ statuses.zipIdx 1, ∀ author,
        cyclic (employees users) p.2 = .ok author → MayTravel p.1 author.2) := by
  rcases h.trips with hsame | ⟨hempty, hdrafted, -⟩
  · have hseeded := isSeeded_iff.mp h.full.trips
    rw [hsame] at hseeded ⊢
    constructor
    · exact fun _ hempty => absurd hempty hseeded
    · intro _ i t ht hnone
      rw [ht] at hnone
      cases hnone
  · constructor
    · intro hsafe _ p hp author hauthor
      obtain ⟨q, hq, hstatus, author', hauthor', huser, happrover⟩ :=
        exists_of_forall₂_left hdrafted hp
      obtain rfl : author' = author := Except.ok.inj (hauthor'.symm.trans hauthor)
      have hq := hsafe q.1 q.2 (Table.mem_rows.mp hq) (Table.get_of_rows_nil hempty _)
      rw [huser, h.isActive_iff (mem_users_of_author hauthor).1] at hq
      refine ⟨hq.1, fun hdraft => ?_⟩
      rw [happrover, if_pos hdraft, ← hstatus] at hq
      exact hq.2 hdraft
    · intro hmay i t ht _
      obtain ⟨p, hp, hstatus, author, hauthor, huser, happrover⟩ :=
        exists_of_forall₂_right hdrafted (Table.mem_rows.mpr ht)
      obtain ⟨hactive, hmanager⟩ := hmay hempty p hp author hauthor
      rw [huser, h.isActive_iff (mem_users_of_author hauthor).1]
      refine ⟨hactive, fun hdraft => ?_⟩
      rw [← hstatus] at hdraft
      rw [happrover, if_pos hdraft]
      exact hmanager hdraft

/-- Every settled trip that was made has its report, whoever its author is. -/
theorem Outcome.report (h : Outcome s s' users) {i : Int} {t : Trip}
    (ht : s'.trips.get i = some t) (hnone : s.trips.get i = none) (hsettled : t.status = .settled) :
    HasReport s' i := by
  rcases h.trips with hsame | ⟨-, -, hreport⟩
  · rw [hsame, hnone] at ht
    cases ht
  · exact hreport (i, t) (Table.mem_rows.mpr ht) hsettled

theorem Outcome.fit (h : Outcome s s' users) (hempty : s.users.rows = []) :
    ∀ q ∈ users, Fit q.2 := by
  rcases h.handed with rfl | ⟨-, hfit⟩
  · intro q hq
    rw [mem_byId, Table.get_of_rows_nil hempty] at hq
    cases hq
  · exact hfit

/-- Whatever the status of the users, a second run finds nothing to do. -/
theorem Outcome.again (h : Outcome s s' users) : seedAll sec sur s' = .ok s' :=
  seedAll_of_full h.full

theorem Outcome.safe_iff (h : Outcome s s' users) : Safe sec s s' ↔ Reseedable s := by
  constructor
  · intro hsafe
    rcases h.handed with rfl | ⟨hempty, -⟩
    · refine .inr ⟨fun hcards i u hu => ?_, ?_⟩
      · exact h.card_iff.mp hsafe.card hcards (i, u) (mem_byId.mpr hu)
      · exact h.trip_iff.mp fun i t ht hnone =>
          ⟨hsafe.trip i t ht hnone, hsafe.approver i t ht hnone⟩
    · exact .inl hempty
  · intro hready
    have hcards : s.cards.rows = [] → ∀ q ∈ users, q.2.status = .active := by
      intro hcards q hq
      rcases hready with hempty | ⟨hactive, -⟩
      · exact (h.fit hempty q hq).1
      · rcases h.handed with rfl | ⟨-, hfit⟩
        · exact hactive hcards q.1 q.2 (mem_byId.mp hq)
        · exact (hfit q hq).1
    have htrips : s.trips.rows = [] → ∀ p ∈ statuses.zipIdx 1, ∀ author,
        cyclic (employees users) p.2 = .ok author → MayTravel p.1 author.2 := by
      intro htrips p hp author hauthor
      obtain ⟨hmem, hrole⟩ := mem_users_of_author hauthor
      rcases hready with hempty | ⟨-, hmay⟩
      · obtain ⟨hactive, hmanager⟩ := h.fit hempty author hmem
        exact ⟨hactive, fun _ => hmanager hrole⟩
      · rcases h.handed with rfl | ⟨-, hfit⟩
        · exact hmay htrips p hp author hauthor
        · exact ⟨(hfit author hmem).1, fun _ => (hfit author hmem).2 hrole⟩
    have htravel := h.trip_iff.mpr htrips
    exact
      { card := h.card_iff.mpr hcards
        trip := fun i t ht hnone => (htravel i t ht hnone).1
        approver := fun i t ht hnone => (htravel i t ht hnone).2
        report := fun i t ht hnone => h.report ht hnone
        again := fun _ => h.again }

end

/-- When the seed completes, it has come to what it should if and only if the store it found was fit
to be seeded again. -/
theorem reseeding_safe_iff (hs : Consistent s) (h : seedAll sec sur s = .ok s') :
    Safe sec s s' ↔ Reseedable s := by
  obtain ⟨users, hout⟩ := seedAll_outcome hs s' h
  exact hout.safe_iff

/-! ## After the trips were deleted -/

namespace Office

/-- Generators that draw the least there is. -/
def surroundings : Surroundings where
  txnNow := Office.env.txnNow
  salt := "s"
  newcomerSalt := "n"
  cardsToday := Office.env.today
  tripsToday := Office.env.today
  cardDraws _ := 0
  tripDraws _ := 0
  scan rows := rows
  scan_perm rows := .refl rows

/-- The office, which has no trips and reports, and one more user. -/
def joined (u : User) : Store := { Office.store with users := Office.store.users.insert u }

/-- The newcomer as the seed makes it, and after an administrator has approved it. -/
def newcomer : User :=
  { email := newcomerEmail, passwordHash := "", name := "신입가입", employeeNo := none
    departmentId := 1, positionCode := none, managerId := none, role := .employee
    status := .pending, isActive := false }

def approved : User :=
  { newcomer with
    employeeNo := some "E4", positionCode := some "STAFF", managerId := some 2, status := .active
    isActive := true }

end Office

theorem reseeding_safe_iff_office : ∃ s', seedAll Office.sec Office.surroundings
    (Office.joined Office.approved) = .ok s' ∧
      (Safe Office.sec (Office.joined Office.approved) s' ↔
        Reseedable (Office.joined Office.approved)) := by
  have hs : Consistent (Office.joined Office.approved) := by
    constructor <;> decide
  have hok : ((seedAll Office.sec Office.surroundings
      (Office.joined Office.approved)).toOption.bind fun _ => some ()) = some () := by
    decide +kernel
  obtain ⟨s', h, -⟩ := toOption_bind_eq_some.mp hok
  exact ⟨s', h, reseeding_safe_iff hs h⟩

/-- The newcomer waits for approval, and gets every other trip. -/
theorem reseeding_not_safe : ¬ ∀ (sec : Security) (sur : Surroundings) (s s' : Store),
    Consistent s → seedAll sec sur s = .ok s' → Safe sec s s' := by
  intro hall
  have hs : Consistent (Office.joined Office.newcomer) := by
    constructor <;> decide
  have hok : ((seedAll Office.sec Office.surroundings
      (Office.joined Office.newcomer)).toOption.bind fun s' =>
        (s'.trips.get 1).bind fun t =>
          (s'.users.get t.userId).map User.status) = some .pending := by
    decide +kernel
  obtain ⟨s', h, hpending⟩ := toOption_bind_eq_some.mp hok
  obtain ⟨t, ht, hpending⟩ := Option.bind_eq_some_iff.mp hpending
  obtain ⟨u, hu, hpending⟩ := Option.map_eq_some_iff.mp hpending
  obtain ⟨u', hu', hactive⟩ := (hall _ _ _ s' hs h).trip 1 t ht rfl
  rw [hu] at hu'
  cases hu'
  rw [hactive] at hpending
  cases hpending

end Biztrip.Seed
