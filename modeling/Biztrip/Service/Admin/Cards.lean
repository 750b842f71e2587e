import Biztrip.Service.Admin.Common

/-!
# Corporate card master

`app/services/admin/cards.py`.
-/

namespace Biztrip.Admin.Cards

open Biztrip.Lib

def load (s : Store) (cardId : Int) : Result CorporateCard :=
  loadOr s.cards cardId <|
    notFoundError "CARD_NOT_FOUND" s!"존재하지 않는 카드입니다: {cardId}"

def createCard (s : Store) (env : Env) (payload : AdminCardCreate) : Result Plan := do
  let user ← sessionGet s.users payload.userId
  guardE user.isSome <| .app <|
    validationError "INVALID_USER" s!"존재하지 않는 사용자입니다: {payload.userId}" (some "user_id")
  text "card_no_masked" payload.cardNoMasked.val
  text "brand" payload.brand.val
  let card : CorporateCard :=
    { userId := payload.userId, cardNoMasked := payload.cardNoMasked.val
      brand := payload.brand.val, isActive := payload.isActive }
  return { now := env.txnNow, writes := [.card (.insert card)] }

/-- Write the sent fields over the row, as the flush finds them. -/
def assign (card : CorporateCard) (payload : AdminCardUpdate) : Result CorporateCard := do
  checkSome payload.cardNoMasked.val? fun v => text "card_no_masked" v.val
  checkSome payload.brand.val? fun v => text "brand" v.val
  let cardNoMasked ←
    (payload.cardNoMasked.map Str.val).setRequired card.cardNoMasked (notNull "card_no_masked")
  let brand ← (payload.brand.map Str.val).setRequired card.brand (notNull "brand")
  let isActive ← payload.isActive.setRequired card.isActive (notNull "is_active")
  return { card with cardNoMasked, brand, isActive }

def updateCard (s : Store) (env : Env) (cardId : Int) (payload : AdminCardUpdate) :
    Result Plan := do
  let card ← load s cardId
  let card' ← assign card payload
  return { now := env.txnNow, writes := [.card (.update cardId card card')] }

def deleteCard (s : Store) (env : Env) (cardId : Int) : Result Plan := do
  let _card ← load s cardId
  return deleteEntity env (.card (.delete cardId))
    "이 카드의 거래내역이 있어 삭제할 수 없습니다. 비활성화하세요"

end Biztrip.Admin.Cards
