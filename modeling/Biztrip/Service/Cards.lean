import Biztrip.Service.Matching

/-!
# Card transactions

`app/services/cards.py`: the list of the card transactions of a user. Whose cards they
are is decided here, so that the id of another's card finds nothing.
-/

namespace Biztrip.Cards

open Biztrip.Lib Matching

structure CardTxnFilters where
  cardId : Option Int := none
  approvedFrom : Option Date := none
  approvedTo : Option Date := none
  merchantCategoryCode : Option String := none
  q : Option String := none
  includeCancelled : Bool := false
  unsettled : Bool := false
  paging : Paging := .first

structure CardTransactionOut where
  id : Int
  cardId : Int
  approvedAt : Instant
  merchantName : String
  merchantCategoryCode : String
  amount : Krw
  currencyCode : String
  amountKrw : Krw
  isCancelled : Bool
  suggestedExpenseCategoryCode : String
  deriving DecidableEq

def toOut (id : Int) (row : CardTransaction) : CardTransactionOut :=
  { id, cardId := row.cardId, approvedAt := row.approvedAt, merchantName := row.merchantName
    merchantCategoryCode := row.merchantCategoryCode, amount := row.amount
    currencyCode := row.currencyCode, amountKrw := row.amountKrw, isCancelled := row.isCancelled
    suggestedExpenseCategoryCode := suggestExpenseCategory row.merchantCategoryCode }

def loadMyCardIds (s : Store) (user : CurrentUser) : List Int :=
  (s.cards.rows.filter fun p => p.2.userId = user.id).map Prod.fst

/-- The start of the day in Seoul, or of a day after it. -/
def startOf (P : Platform) (day : Date) (days : Int) : Result Instant := do
  let target ← shift day days
  return P.midnight target

/-- The bound of a date filter, if it is given. -/
def bound (P : Platform) (days : Int) : Option Date → Result (Option Instant)
  | none => return none
  | some day => return some (← startOf P day days)

/-- The driver has no instant before the year one. -/
def instant (column : String) (t : Instant) : Result Unit :=
  guardE (utcMidnight 1 ≤ t) (.dataError column)

/-- Some item, of whatever report, links the transaction. -/
def settled (s : Store) (transactionId : Int) : Bool :=
  s.items.rows.any fun p => p.2.cardTransactionId = some transactionId

/-- The conditions on a transaction besides the card. -/
def CardTxnFilters.selects (P : Platform) (filters : CardTxnFilters)
    (approvedFrom approvedTo : Option Instant) (t : CardTransaction) : Bool :=
  (filters.includeCancelled || !t.isCancelled) &&
    approvedFrom.all (fun start => start ≤ t.approvedAt) &&
    approvedTo.all (fun stop => t.approvedAt < stop) &&
    (given filters.merchantCategoryCode).all (fun code => t.merchantCategoryCode = code) &&
    (given filters.q).all fun q => P.search q t.merchantName

/-- The newest transaction first. -/
def listCardTransactions (P : Platform) (s : Store) (user : CurrentUser)
    (filters : CardTxnFilters) : Result (Page CardTransactionOut) := do
  let cardIds := (loadMyCardIds s user).filter fun cardId =>
    filters.cardId.all fun wanted => cardId = wanted
  if cardIds.isEmpty then
    return ⟨[], 0, filters.paging.page, filters.paging.size⟩
  let approvedFrom ← bound P 0 filters.approvedFrom
  let approvedTo ← bound P 1 filters.approvedTo
  checkSome approvedFrom (instant "approved_from")
  checkSome approvedTo (instant "approved_to")
  checkSome (given filters.merchantCategoryCode) (text "merchant_category_code")
  checkSome (given filters.q) (text "q")
  selectPage filters.paging (fun p => toLex (-p.2.approvedAt, -p.1))
    (fun p => return toOut p.1 p.2)
    (s.transactions.rows.filter fun p =>
      cardIds.contains p.2.cardId && filters.selects P approvedFrom approvedTo p.2 &&
        (!filters.unsettled || !settled s p.1))

end Biztrip.Cards
