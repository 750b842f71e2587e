import Mathlib.Data.Rat.Floor
import Mathlib.Tactic.Linarith
import Mathlib.Tactic.FieldSimp
import Mathlib.Tactic.NormNum

/-!
# Decimals and fixed-point columns

`Decimal` is a finite decimal with any number of fraction digits. `Numeric p s`
is a database column of at most `p` digits, `s` of them after the point; the
digit bound is a field, so a value the column cannot hold cannot be built.
`Numeric.store` rounds to `s` digits, half away from zero, and refuses what does
not fit. Rounding is monotone against integer bounds (`roundHalfAway_nonneg`,
`roundHalfAway_le`), so a bound checked before rounding still holds after it.
-/

namespace Biztrip.Lib

/-- The number `coeff * 10 ^ exp`. -/
structure Decimal where
  coeff : Int
  exp : Int
  deriving DecidableEq, Repr

namespace Decimal

def toRat (d : Decimal) : ℚ :=
  match d.exp with
  | .ofNat n => ((d.coeff * 10 ^ n : Int) : ℚ)
  | .negSucc n => (d.coeff : ℚ) / ((10 ^ (n + 1) : Nat) : ℚ)

end Decimal

/-- The integer nearest to `q`, halves away from zero. -/
def roundHalfAway (q : ℚ) : Int := if 0 ≤ q then ⌊q + 1 / 2⌋ else -⌊-q + 1 / 2⌋

theorem roundHalfAway_nonneg {q : ℚ} (h : 0 ≤ q) : 0 ≤ roundHalfAway q := by
  rw [roundHalfAway, if_pos h]
  exact Int.floor_nonneg.mpr (by linarith)

theorem roundHalfAway_le {q : ℚ} {n : Int} (h0 : 0 ≤ q) (h : q ≤ n) : roundHalfAway q ≤ n := by
  rw [roundHalfAway, if_pos h0]
  have : ⌊q + 1 / 2⌋ < n + 1 := by
    rw [Int.floor_lt]
    push_cast
    linarith
  omega

theorem roundHalfAway_intCast (n : Int) : roundHalfAway n = n := by
  have h (m : Int) : ⌊(m : ℚ) + 1 / 2⌋ = m := by
    rw [Int.floor_eq_iff]
    constructor <;> linarith
  unfold roundHalfAway
  split
  · exact h n
  · rw [← Int.cast_neg, h, neg_neg]

/-- A column of `p` digits, `s` of them after the point. -/
@[ext]
structure Numeric (p s : Nat) where
  /-- The value in units of the last digit. -/
  units : Int
  bound : units.natAbs < 10 ^ p
  deriving DecidableEq, Repr

namespace Numeric

variable {p s : Nat}

def toRat (x : Numeric p s) : ℚ := (x.units : ℚ) / ((10 ^ s : Nat) : ℚ)

/-- The value as a decimal with exactly `s` fraction digits. -/
def toDecimal (x : Numeric p s) : Decimal := ⟨x.units, -s⟩

def zero : Numeric p s := ⟨0, by simp⟩

/-- The column value with the given units, if it fits. -/
def ofUnits? (u : Int) : Option (Numeric p s) :=
  if h : u.natAbs < 10 ^ p then some ⟨u, h⟩ else none

/-- Round to `s` digits, half away from zero, if the result fits. -/
def store? (q : ℚ) : Option (Numeric p s) := ofUnits? (roundHalfAway (q * ((10 ^ s : Nat) : ℚ)))

theorem ofUnits?_eq_some {u : Int} {x : Numeric p s} : ofUnits? u = some x ↔ x.units = u := by
  obtain ⟨v, hv⟩ := x
  unfold ofUnits?
  split
  · simp [eq_comm]
  · simp only [reduceCtorEq, false_iff]
    rintro rfl
    contradiction

theorem ofUnits?_eq_none {u : Int} :
    (ofUnits? u : Option (Numeric p s)) = none ↔ 10 ^ p ≤ u.natAbs := by
  unfold ofUnits?
  split <;> simp_all

/-- A bound checked before rounding holds of the stored value, which fits. -/
theorem store?_of_bounds {q : ℚ} {n : Int} (h0 : 0 ≤ q) (h : q * ((10 ^ s : Nat) : ℚ) ≤ n)
    (hn : n.natAbs < 10 ^ p) :
    ∃ x : Numeric p s, store? q = some x ∧ 0 ≤ x.units ∧ x.units ≤ n := by
  have hq : 0 ≤ q * ((10 ^ s : Nat) : ℚ) := mul_nonneg h0 (by positivity)
  have hlo := roundHalfAway_nonneg hq
  have hhi := roundHalfAway_le hq h
  have hb : (roundHalfAway (q * ((10 ^ s : Nat) : ℚ))).natAbs < 10 ^ p := by omega
  exact ⟨⟨_, hb⟩, dif_pos hb, hlo, hhi⟩

/-- What is stored is what was given if that has no more than `s` digits after the point. -/
theorem toRat_eq_iff_of_store? {q : ℚ} {x : Numeric p s} (h : store? q = some x) :
    x.toRat = q ↔ ∃ n : Int, q * ((10 ^ s : Nat) : ℚ) = n := by
  have hpos : ((10 ^ s : Nat) : ℚ) ≠ 0 := by positivity
  have hunits : x.units = roundHalfAway (q * ((10 ^ s : Nat) : ℚ)) := ofUnits?_eq_some.mp h
  rw [toRat, div_eq_iff hpos]
  constructor
  · intro hx
    exact ⟨x.units, hx.symm⟩
  · rintro ⟨n, hn⟩
    rw [hunits, hn, roundHalfAway_intCast]

theorem toRat_toDecimal (x : Numeric p s) : x.toDecimal.toRat = x.toRat := by
  cases s with
  | zero =>
    change ((x.units * 10 ^ 0 : Int) : ℚ) = (x.units : ℚ) / ((10 ^ 0 : Nat) : ℚ)
    simp
  | succ n => rfl

theorem toRat_nonneg {x : Numeric p s} (h : 0 ≤ x.units) : 0 ≤ x.toRat :=
  div_nonneg (by exact_mod_cast h) (Nat.cast_nonneg _)

theorem toRat_le {x : Numeric p s} {n : Int} (h : x.units ≤ n) :
    x.toRat ≤ (n : ℚ) / ((10 ^ s : Nat) : ℚ) :=
  div_le_div_of_nonneg_right (by exact_mod_cast h) (Nat.cast_nonneg _)

/-- Values of one column are added exactly. -/
theorem sum_toRat (l : List (Numeric p s)) :
    (l.map toRat).sum = (((l.map units).sum : Int) : ℚ) / ((10 ^ s : Nat) : ℚ) := by
  induction l with
  | nil => simp
  | cons x l ih =>
    rw [List.map_cons, List.sum_cons, List.map_cons, List.sum_cons, ih, Int.cast_add, add_div]
    rfl

end Numeric

end Biztrip.Lib
