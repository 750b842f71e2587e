import Biztrip.Model.Rows

/-!
# Center lookups

`app/services/centers.py`: the check of a center code against the active codes
of its master table.
-/

namespace Biztrip.Centers

open Biztrip.Lib

def loadActiveCenterCodes (s : Store) (kind : CenterKind) : List String :=
  ((s.centers kind).rows.filter fun p => p.2.isActive).map fun p => p.2.code

def assertCenterCode (code : Option String) (allowed : List String) (codeName field : String) :
    Result Unit :=
  guardE (∃ c ∈ allowed, code = some c) <| .app <|
    validationError codeName s!"사용할 수 없는 센터입니다: {optText code}" (some field)

def assertCostCenter (s : Store) (code : Option String) : Result Unit :=
  assertCenterCode code (loadActiveCenterCodes s .cost) "INVALID_COST_CENTER" "cost_center_code"

def assertFundCenter (s : Store) (code : Option String) : Result Unit :=
  assertCenterCode code (loadActiveCenterCodes s .fund) "INVALID_FUND_CENTER" "fund_center_code"

end Biztrip.Centers
