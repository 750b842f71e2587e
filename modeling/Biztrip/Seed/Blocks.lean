import Biztrip.Seed.Data
import Biztrip.Service.Admin.Users
import Biztrip.Service.Expenses
import Biztrip.Service.Matching
import Biztrip.Service.Numbering

/-!
# The seed

`app/seed.py`: eight blocks, each of which leaves a table alone that has rows. The
blocks hand on what they made or found: the departments by their codes, and the users.
-/

namespace Biztrip.Seed

open Biztrip.Lib Biztrip.Numbering Drawing Matching

/-- `_is_seeded`. -/
def isSeeded {ρ : Type} (t : Table ρ) : Bool := 0 < t.rows.length

/-- All rows, `order_by` their keys. -/
def byId {ρ : Type} (t : Table ρ) : List (Int × ρ) := orderBy Prod.fst t.rows

/-- Execute the statements for the rows that were added to the session, and tell their keys. -/
def addAll {ρ : Type} (now : Instant) (table : Store → Table ρ) (write : RowWrite ρ → Write) :
    List ρ → Store → Result (List (Int × ρ) × Store)
  | [], s => return ([], s)
  | r :: rows, s => do
    let s' ← s.flush now (write (.insert r))
    let (added, s') ← addAll now table write rows s'
    return (((table s).next, r) :: added, s')

/-- `l[n % len(l)]`. -/
def cyclic {α : Type} (l : List α) (n : Nat) : Result α :=
  getE l[n % l.length]? .zeroDivisionError

/-- `day + timedelta(days=days)`. -/
def addDays (day : Date) (days : Int) : Result Date :=
  let target := day.ordinal + days
  if h : 1 ≤ target ∧ target ≤ 3652059 then .ok ⟨target.toNat, by omega⟩ else .error .overflowError

/-! ## Master data -/

/-- One group and its codes. -/
def addGroup (now : Instant) (s : Store) (group : String × String × List (String × String × Json)) :
    Result Store := do
  let groupId := s.codeGroups.next
  let s ← s.flush now <| .codeGroup <| .insert
    { groupCode := group.1, name := group.2.1, description := none, isActive := true }
  let codes := group.2.2.zipIdx.map fun item =>
    { groupId, code := item.1.1, name := item.1.2.1, sortOrder := item.2 + 1, isActive := true
      extra := item.1.2.2 }
  let (_, s) ← addAll now Store.codes .code codes s
  return s

/-- `_seed_codes`. -/
def seedCodes (sur : Surroundings) (s : Store) : Result Store :=
  if isSeeded s.codeGroups then .ok s else codeGroups.foldlM (addGroup sur.txnNow) s

/-- The departments by their codes: the keys of their rows. -/
abbrev Departments := List (String × Int)

def byCode (rows : List (Int × Department)) : Departments := rows.map fun p => (p.2.code, p.1)

/-- `depts[code].id`. -/
def Departments.key (depts : Departments) (code : String) : Result Int :=
  getE (depts.lookup code) .keyError

/-- `_seed_org`. -/
def seedOrg (sur : Surroundings) (s : Store) : Result (Departments × Store) :=
  if byId s.departments ≠ [] then .ok (byCode (byId s.departments), s)
  else do
    let rows := departments.map fun d => { code := d.1, name := d.2, parentId := none }
    let (added, s) ← addAll sur.txnNow Store.departments .department rows s
    return (byCode added, s)

/-- One of the two halves of `_seed_centers`. -/
def fillCenters (sur : Surroundings) (depts : Departments) (kind : CenterKind)
    (centers : List (String × String × Option String)) (s : Store) : Result Store :=
  if isSeeded (s.centers kind) then .ok s
  else do
    let rows ← mapE centers fun c => do
      let departmentId ←
        match c.2.2 with
        | some deptCode => some <$> depts.key deptCode
        | none => .ok none
      return { code := c.1, name := c.2.1, departmentId, isActive := true }
    let (_, s) ← addAll sur.txnNow (Store.centers · kind) (.center kind) rows s
    return s

/-- `_seed_centers`. Each table is looked at by itself. -/
def seedCenters (sur : Surroundings) (depts : Departments) (s : Store) : Result Store := do
  let s ← fillCenters sur depts .fund fundCenters s
  fillCenters sur depts .cost costCenters s

/-! ## Users -/

/-- `_seed_users`. -/
def seedUsers (sec : Security) (sur : Surroundings) (depts : Departments) (s : Store) :
    Result (List (Int × User) × Store) :=
  if byId s.users ≠ [] then .ok (byId s.users, s)
  else do
    let pw := sec.hashPassword sur.salt defaultPassword
    let admin : User :=
      { email := "admin@skon.example", passwordHash := pw, name := "관리자", employeeNo := "E0001"
        departmentId := ← depts.key "D400", positionCode := "DIRECTOR", managerId := none
        role := .admin, status := .active, isActive := true }
    let (admins, s) ← addAll sur.txnNow Store.users .user [admin] s
    let managers ← mapE managerSpecs fun spec => do
      let admin ← cyclic admins 0
      return {
        email := spec.1, passwordHash := pw, name := spec.2.1, employeeNo := spec.2.2.1
        departmentId := ← depts.key spec.2.2.2, positionCode := "TEAM_LEADER"
        managerId := admin.1, role := .manager, status := .active, isActive := true : User }
    let (managers, s) ← addAll sur.txnNow Store.users .user managers s
    let employees ← mapE (surnames.zip given).zipIdx fun p => do
      -- there are three managers
      let manager ← cyclic managers p.2
      return {
        email := s!"user{p.2 + 1}@skon.example", passwordHash := pw, name := p.1.1 ++ p.1.2
        employeeNo := "E" ++ pad4 (p.2 + 5), departmentId := manager.2.departmentId
        positionCode := some (if p.2 % 2 = 0 then "STAFF" else "SENIOR")
        managerId := manager.1, role := .employee, status := .active, isActive := true : User }
    let (employees, s) ← addAll sur.txnNow Store.users .user employees s
    return (admins ++ managers ++ employees, s)

/-- The address of `_seed_pending_signup`. -/
def newcomerEmail : String := "newbie@skon.example"

/-- `_seed_pending_signup`. -/
def seedPendingSignup (sec : Security) (sur : Surroundings) (depts : Departments) (s : Store) :
    Result Store :=
  if (s.users.rows.find? fun p => p.2.email = newcomerEmail).isSome then .ok s
  else do
    let newcomer : User :=
      { email := newcomerEmail, passwordHash := sec.hashPassword sur.newcomerSalt defaultPassword
        name := "신입가입", employeeNo := none, departmentId := ← depts.key "D100"
        positionCode := none, managerId := none, role := .employee, status := .pending
        isActive := false }
    s.flush sur.txnNow (.user (.insert newcomer))

/-! ## Cards -/

def addTransactions (s : Store) (rows : List CardTransaction) : Store :=
  { s with transactions := rows.foldl Table.insert s.transactions }

/-- `timedelta(hours=rng.randint(first, last), minutes=rng.choice([0, 15, 30, 45]))`. -/
def timeOfDay (first last : Int) : Drawing Fault Instant := do
  let hours ← randint .valueError first last
  let minutes ← choice [0, 15, 30, 45]
  return (hours * 60 + minutes) * 60000000

/-- `Decimal(base)` of a whole number, in its column. -/
def won (base : Nat) : Result Krw := storeKrw "amount_krw" ⟨base, 0⟩

/-- `_seed_cards`: a user's card. -/
def draftCard (userId : Int) (index : Nat) : Drawing Fault CorporateCard := do
  let brand ← choice ["BC", "신한", "하나"]
  return {
    userId, cardNoMasked := "5678-****-****-" ++ pad4 (1000 + index), brand, isActive := true }

/-- `_seed_cards`: a transaction of the last half year. All five amounts are drawn. -/
def draftTransaction (today : Date) (cardId : Int) : Drawing Fault CardTransaction := do
  let category ← choices (.meal, 45) [(.transport, 25), (.lodging, 15), (.entertain, 5), (.etc, 10)]
  let daysAgo ← randint .valueError 0 180
  let day ← addDays today (-daysAgo)
  let time ← timeOfDay 7 22
  let meal ← randrange .valueError 8000 60000 500
  let transport ← randrange .valueError 3000 180000 500
  let lodging ← randrange .valueError 80000 320000 1000
  let entertain ← randrange .valueError 90000 400000 1000
  let etc ← randrange .valueError 3000 50000 500
  let base :=
    match category with
    | .meal => meal
    | .transport => transport
    | .lodging => lodging
    | .entertain => entertain
    | .etc => etc
  let merchantName ← choice (merchants category) (merchants_ne_nil category)
  let isCancelled ← chance 2 100
  let amount ← won base
  return {
    cardId, approvedAt := utcMidnight day.ordinal + time, merchantName
    merchantCategoryCode := category.value, amount, currencyCode := "KRW", amountKrw := amount
    isCancelled }

/-- `_seed_cards`, once there is no card yet. -/
def makeCards (sur : Surroundings) (users : List (Int × User)) (s : Store) :
    Drawing Fault Store := do
  let rows ← users.zipIdx.mapM fun p => draftCard p.1.1 p.2
  let (cards, s) ← addAll sur.txnNow Store.cards .card rows s
  let transactions ← cards.mapM fun card => do
    let count ← randint .valueError 45 60
    times (draftTransaction sur.cardsToday card.1) count.toNat
  return addTransactions s transactions.flatten

/-- `_seed_cards`. -/
def seedCards (sur : Surroundings) (users : List (Int × User)) (s : Store) : Result Store :=
  if isSeeded s.cards then .ok s else (makeCards sur users s).result sur.cardDraws

/-! ## Trips -/

/-- Where a trip goes and for how long: country, city and days. -/
def draftDestination (abroad : Bool) : Drawing Fault (String × String × Int) := do
  if abroad then
    let place ← choice overseas
    let duration ← randint .valueError 3 7
    return (place.1, place.2, duration)
  else
    let city ← choice domesticCities
    let duration ← randint .valueError 1 3
    return ("KR", city, duration)

/-- How many days ago a trip began: surely in the past once it is completed. -/
def draftStart (status : TripStatus) (duration : Int) : Drawing Fault Int :=
  match status with
  | .completed | .settled => randint .valueError (duration + 1) 170
  | .approved => randint .valueError (-30) 60
  | _ => randint .valueError (-45) 30

/-- `submitted_at` and `approved_at`: some days before the start, and soon after that. -/
def draftStamps (status : TripStatus) (start : Date) :
    Drawing Fault (Option Instant × Option Instant) := do
  if status = .draft then return (none, none)
  let lead ← randint .valueError 3 10
  let day ← addDays start (-lead)
  let time ← timeOfDay 9 18
  let submittedAt := utcMidnight day.ordinal + time
  if status = .approved ∨ status = .completed ∨ status = .settled then
    let days ← randint .valueError 1 2
    let hours ← randint .valueError 0 8
    return (some submittedAt, some (submittedAt + (days * 24 + hours) * 3600000000))
  return (some submittedAt, none)

/-- `_seed_trips`: the trip of this index. -/
def draftTrip (sur : Surroundings) (employees : List (Int × User)) (status : TripStatus)
    (index : Nat) : Drawing Fault Trip := do
  let author ← cyclic employees index
  let abroad ← chance 3 10
  let destination ← draftDestination abroad
  let daysAgo ← draftStart status destination.2.2
  let start ← addDays sur.tripsToday (-daysAgo)
  let purpose ← choice ["CUSTOMER", "SUPPORT", "TRAINING", "CONFERENCE", "AUDIT"]
  let stamps ← draftStamps status start
  let label ← (getE (tripPurposeLabels.lookup purpose) .keyError : Result String)
  let finish ← addDays start destination.2.2
  let kind := if abroad then "해외" else "국내"
  let costCenter ← choice costCenters
  return {
    tripNo := "BT-2026-" ++ pad4 index, userId := author.1
    title := s!"{destination.2.1} {kind}출장", purposeCode := purpose
    purposeDetail := s!"{destination.2.1} 현장 {label} 목적 출장"
    destinationTypeCode := if abroad then "OVERSEAS" else "DOMESTIC"
    countryCode := destination.1, city := destination.2.1, startDate := start, endDate := finish
    costCenterCode := some costCenter.1, status
    approverId := if status ≠ .draft then author.2.managerId else none
    submittedAt := stamps.1, approvedAt := stamps.2
    rejectReason := if status = .rejected then some "사유 보완 필요" else none
    createdAt := sur.txnNow, updatedAt := sur.txnNow }

/-- `_seed_trips`: a transaction within the days of a trip. -/
def draftTripTransaction (trip : Trip) (cardId : Int) : Drawing Fault CardTransaction := do
  let duration : Int := trip.endDate.ordinal - trip.startDate.ordinal
  let category ←
    if 2 ≤ duration then choices (Category.meal, 55) [(.transport, 30), (.lodging, 15)]
    else choices (.meal, 65) [(.transport, 35)]
  let dayOffset ← randint .valueError 0 duration
  let day ← addDays trip.startDate dayOffset
  let time ← timeOfDay 7 22
  let meal ← randrange .valueError 8000 60000 500
  let transport ← randrange .valueError 3000 180000 500
  let lodging ← randrange .valueError 80000 320000 1000
  let base ←
    match category with
    | .meal => pure meal
    | .transport => pure transport
    | .lodging => pure lodging
    | _ => throw .keyError
  let merchantName ← choice (merchants category) (merchants_ne_nil category)
  let amount ← won base
  return {
    cardId, approvedAt := utcMidnight day.ordinal + time, merchantName
    merchantCategoryCode := category.value, amount, currencyCode := "KRW", amountKrw := amount
    isCancelled := false }

/-- `_seed_trips`: the transactions of a trip, on the last card of its author that the query
brings. -/
def draftTripTransactions (cards : List (Int × CorporateCard)) (trip : Trip) :
    Drawing Fault (List CardTransaction) := do
  if trip.status ≠ .completed ∧ trip.status ≠ .settled then return []
  match (cards.filter fun p => p.2.userId = trip.userId).getLast? with
  | none => return []
  | some card => do
    let count ← randint .valueError 2 5
    times (draftTripTransaction trip card.1) count.toNat

/-- `_seed_trips`: amount and category of an item. -/
def draftItem : Drawing Fault (Nat × String) := do
  let amount ← randrange .valueError 10000 250000 1000
  let category ← choice ["MEAL", "TRANSPORT", "LODGING", "ETC"]
  return (amount, category)

/-- `_seed_trips`: the report of a trip. The total is written once the items are there. -/
def settle (sur : Surroundings) (s : Store) (p : (Int × Trip) × Nat) : Drawing Fault Store := do
  let trip := p.1.2
  let fundCenter ← choice fundCenters
  let report : ExpenseReport :=
    { reportNo := "EX-2026-" ++ pad4 p.2, tripId := p.1.1, userId := trip.userId
      status := if trip.status = .settled then .approved else .draft
      fundCenterCode := some fundCenter.1, costCenterCode := trip.costCenterCode
      totalAmountKrw := .zero, approverId := none, submittedAt := none, approvedAt := none
      rejectReason := none, createdAt := sur.txnNow, updatedAt := sur.txnNow }
  let reportId := s.reports.next
  let s ← s.flush sur.txnNow (.report (.insert report))
  let count ← randint .valueError 2 5
  let drafts ← times draftItem count.toNat
  let items ← mapE drafts fun d => do
    return {
      reportId, cardTransactionId := none, expenseCategoryCode := d.2, amountKrw := ← won d.1
      memo := none, isExcluded := false, fundCenterCode := none, costCenterCode := none }
  let (_, s) ← addAll sur.txnNow Store.items .item items s
  let total ← won (drafts.map Prod.fst).sum
  s.flush sur.txnNow (.report (.update reportId report { report with totalAmountKrw := total }))

/-- Who has trips. -/
def employees (users : List (Int × User)) : List (Int × User) :=
  users.filter fun p => p.2.role = .employee

/-- The trips that get a report, the settled ones first: each of them must have one. -/
def settleable (trips : List (Int × Trip)) : List (Int × Trip) :=
  ((trips.filter fun p => p.2.status = .settled) ++
    trips.filter fun p => p.2.status = .completed).take 12

/-- `_seed_trips`, once there is no trip yet. -/
def makeTrips (sur : Surroundings) (users : List (Int × User)) (s : Store) :
    Drawing Fault Store := do
  let rows ← (statuses.zipIdx 1).mapM fun p => draftTrip sur (employees users) p.1 p.2
  let (trips, s) ← addAll sur.txnNow Store.trips .trip rows s
  let transactions ← trips.mapM fun p => draftTripTransactions (sur.scan s.cards.rows) p.2
  let s := addTransactions s transactions.flatten
  ((settleable trips).zipIdx 1).foldlM (settle sur) s

/-- `_seed_trips`. -/
def seedTrips (sur : Surroundings) (users : List (Int × User)) (s : Store) : Result Store :=
  if isSeeded s.trips then .ok s else (makeTrips sur users s).result sur.tripDraws

/-- `seed_all`. -/
def seedAll (sec : Security) (sur : Surroundings) (s : Store) : Result Store := do
  let s ← seedCodes sur s
  let (depts, s) ← seedOrg sur s
  let s ← seedCenters sur depts s
  let (users, s) ← seedUsers sec sur depts s
  let s ← seedPendingSignup sec sur depts s
  let s ← seedCards sur users s
  seedTrips sur users s

end Biztrip.Seed
