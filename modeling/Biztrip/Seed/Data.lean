import Biztrip.Lib.Draws
import Biztrip.Model.Rows

/-!
# What the seed plants

The constants of `app/seed.py`. A dictionary is the list of its items in the order of
the source.
-/

namespace Biztrip.Seed

open Biztrip.Lib

/-- `DEFAULT_PASSWORD`. -/
def defaultPassword : String := "skon1234!"

/-! ## Codes -/

/-- `{}`. -/
def noExtra : Json := .object .nil

def countryExtra (currency region : String) : Json :=
  .object (.cons "currency" (.string currency) (.cons "region" (.string region) .nil))

def currencyExtra (rateToKrw : Nat) : Json :=
  .object (.cons "rate_to_krw" (.number rateToKrw) .nil)

/-- The items of the group `TRIP_PURPOSE`: code, label and extra. -/
def tripPurposes : List (String × String × Json) :=
  [("CUSTOMER", "고객미팅", noExtra), ("SUPPORT", "기술지원", noExtra), ("TRAINING", "교육", noExtra),
    ("CONFERENCE", "컨퍼런스", noExtra), ("AUDIT", "감사", noExtra), ("ETC", "기타", noExtra)]

/-- `CODE_GROUPS`. -/
def codeGroups : List (String × String × List (String × String × Json)) :=
  [ ("TRIP_PURPOSE", "출장목적", tripPurposes),
    ("DESTINATION_TYPE", "출장구분", [("DOMESTIC", "국내", noExtra), ("OVERSEAS", "해외", noExtra)]),
    ("TRANSPORT", "이동수단",
      [("AIR", "항공", noExtra), ("RAIL", "철도", noExtra), ("BUS", "버스", noExtra),
        ("CAR", "자가용", noExtra), ("RENTAL", "렌터카", noExtra)]),
    ("ACCOMMODATION", "숙박유형",
      [("HOTEL", "호텔", noExtra), ("RESIDENCE", "레지던스", noExtra), ("DORM", "사택", noExtra),
        ("ETC", "기타", noExtra)]),
    ("EXPENSE_CATEGORY", "정산 비목",
      [("MEAL", "식비", noExtra), ("TRANSPORT", "교통비", noExtra), ("LODGING", "숙박비", noExtra),
        ("ENTERTAIN", "접대비", noExtra), ("ETC", "기타", noExtra)]),
    ("MERCHANT_CATEGORY", "카드 가맹점 업종",
      [("MEAL", "음식점", noExtra), ("TRANSPORT", "교통", noExtra), ("LODGING", "숙박", noExtra),
        ("ENTERTAIN", "유흥/접대", noExtra), ("ETC", "기타", noExtra)]),
    ("POSITION", "직급",
      [("STAFF", "사원", noExtra), ("SENIOR", "선임", noExtra), ("TEAM_LEADER", "팀장", noExtra),
        ("DIRECTOR", "임원", noExtra)]),
    ("COUNTRY", "국가",
      [("KR", "대한민국", countryExtra "KRW" "ASIA"), ("US", "미국", countryExtra "USD" "AMERICA"),
        ("CN", "중국", countryExtra "CNY" "ASIA"), ("JP", "일본", countryExtra "JPY" "ASIA"),
        ("DE", "독일", countryExtra "EUR" "EUROPE"), ("HU", "헝가리", countryExtra "EUR" "EUROPE")]),
    ("CURRENCY", "통화",
      [("KRW", "원", currencyExtra 1), ("USD", "미국 달러", currencyExtra 1380),
        ("CNY", "위안", currencyExtra 190), ("JPY", "엔", currencyExtra 9),
        ("EUR", "유로", currencyExtra 1490)]) ]

/-- `TRIP_PURPOSE_LABELS`. -/
def tripPurposeLabels : List (String × String) := tripPurposes.map fun c => (c.1, c.2.1)

/-! ## Organisation -/

/-- `DEPARTMENTS`: code and name. -/
def departments : List (String × String) :=
  [("D100", "배터리연구소"), ("D200", "생산본부"), ("D300", "구매팀"), ("D400", "경영지원팀")]

/-- `FUND_CENTERS`: code, name and the department's code. -/
def fundCenters : List (String × String × Option String) :=
  [ ("FC1010", "배터리연구소 비용처리", some "D100"), ("FC1020", "생산본부 비용처리", some "D200"),
    ("FC1030", "구매팀 비용처리", some "D300"), ("FC1040", "경영지원팀 비용처리", some "D400"),
    ("FC1050", "전사 공통 비용처리", none), ("FC1060", "해외법인 비용처리", none) ]

/-- `COST_CENTERS`. -/
def costCenters : List (String × String × Option String) :=
  [ ("CC2010", "배터리연구소 R&D", some "D100"), ("CC2020", "배터리연구소 시험", some "D100"),
    ("CC2030", "생산본부 울산", some "D200"), ("CC2040", "생산본부 서산", some "D200"),
    ("CC2050", "생산본부 품질", some "D200"), ("CC2060", "구매 국내", some "D300"),
    ("CC2070", "구매 해외", some "D300"), ("CC2080", "경영지원 인사", some "D400"),
    ("CC2090", "경영지원 재무", some "D400"), ("CC2100", "전사 공통", none) ]

/-- The managers: address, name, number and the department's code. -/
def managerSpecs : List (String × String × String × String) :=
  [ ("manager1@skon.example", "김연구", "E0002", "D100"),
    ("manager2@skon.example", "박생산", "E0003", "D200"),
    ("manager3@skon.example", "정구매", "E0004", "D300") ]

def surnames : List String := ["이", "최", "강", "조", "윤", "장", "임", "한", "오", "서"]

def given : List String :=
  ["민수", "지훈", "서연", "예은", "도윤", "하준", "시우", "채원", "은우", "다은"]

/-! ## Trips and cards -/

/-- `DOMESTIC_CITIES`. -/
def domesticCities : List String := ["울산", "서산", "대전", "광주", "포항", "청주"]

/-- `OVERSEAS`: country and city. -/
def overseas : List (String × String) :=
  [("US", "Atlanta"), ("CN", "Yancheng"), ("HU", "Iváncsa"), ("DE", "München"), ("JP", "Osaka")]

/-- The codes of merchants, which are also codes of expenses. -/
inductive Category where
  | meal
  | transport
  | lodging
  | entertain
  | etc
  deriving DecidableEq, Repr

def Category.value : Category → String
  | .meal => "MEAL"
  | .transport => "TRANSPORT"
  | .lodging => "LODGING"
  | .entertain => "ENTERTAIN"
  | .etc => "ETC"

/-- `MERCHANTS`. -/
def merchants : Category → List String
  | .meal => ["한밭식당", "미가정식", "스타벅스 울산점", "본죽 서산점", "Panera Bread"]
  | .transport => ["코레일", "카카오T", "인천공항리무진", "Uber", "SK렌터카"]
  | .lodging => ["롯데시티호텔", "신라스테이", "Hampton Inn", "APA Hotel"]
  | .entertain => ["대가야한우", "명가정육식당"]
  | .etc => ["다이소 울산점", "GS25 서산점", "Walgreens"]

theorem merchants_ne_nil (category : Category) : merchants category ≠ [] := by
  cases category <;> decide

/-- The statuses of the trips, in the order in which the trips are made. -/
def statuses : List TripStatus :=
  List.replicate 5 .draft ++ List.replicate 7 .submitted ++ List.replicate 8 .approved ++
    List.replicate 3 .rejected ++ List.replicate 9 .completed ++ List.replicate 8 .settled

/-- What the generators of the cards and of the trips draw, and what else a run reads from its
surroundings. -/
structure Surroundings where
  /-- `now()` in the database. -/
  txnNow : Instant
  /-- `bcrypt.gensalt()`, for the password of the users and for that of the newcomer. -/
  salt : String
  newcomerSalt : String
  /-- `date.today()`, as the cards are made and as the trips are. -/
  cardsToday : Date
  tripsToday : Date
  /-- `random.Random(f"{RNG_SEED}-cards")` and `random.Random(f"{RNG_SEED}-trips")`. -/
  cardDraws : Draws
  tripDraws : Draws
  /-- The order in which a query that asks for none brings the cards. -/
  scan : List (Int × CorporateCard) → List (Int × CorporateCard)
  scan_perm : ∀ rows, (scan rows).Perm rows

end Biztrip.Seed
