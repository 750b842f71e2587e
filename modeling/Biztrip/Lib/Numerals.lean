import Mathlib.Algebra.Group.Nat.Defs
import Mathlib.Data.Char
import Mathlib.Data.List.Lex

/-!
# Numerals as texts

`numeral w n` is the decimal numeral of `n`, filled up with zeros to at least `w` digits.
Texts compare letter by letter, so numerals of one length compare as their numbers do, and
a numeral is below the next one unless that is a power of ten with more than `w` digits
(`numeral_lt_succ`).

A counter that takes the greatest text for the last number (`Tops`) therefore gives out a
number again only where it passes such a power of ten (`Tops.taken_succ_iff`).
-/

namespace Biztrip.Lib

def numeral (w n : Nat) : List Char :=
  List.replicate (w - (Nat.toDigits 10 n).length) '0' ++ Nat.toDigits 10 n

variable {w n m k : Nat}

theorem numeral_of_lt (hn : n < 10) (hw : w ≤ 1) : numeral w n = [n.digitChar] := by
  rw [numeral, Nat.toDigits_of_lt_base hn, List.length_singleton, Nat.sub_eq_zero_of_le hw]
  rfl

/-- The last digit of a numeral with more than one. -/
theorem numeral_step (h : 1 < w ∨ 10 ≤ n) :
    numeral w n = numeral (w - 1) (n / 10) ++ [(n % 10).digitChar] := by
  by_cases hn : 10 ≤ n
  · rw [numeral, numeral, Nat.toDigits_of_base_le (by decide) hn, List.length_append,
      List.append_assoc, List.length_singleton, Nat.sub_sub, Nat.add_comm 1]
  · have hw : 1 < w := h.resolve_right hn
    have hlt : n < 10 := by omega
    rw [numeral, numeral, Nat.toDigits_of_lt_base hlt, Nat.div_eq_of_lt hlt, Nat.mod_eq_of_lt hlt,
      Nat.toDigits_zero, List.length_singleton, List.length_singleton, ← List.replicate_succ']
    congr 2
    omega

/-- A numeral can be read back. -/
theorem ofDigitChars_numeral (w n : Nat) : Nat.ofDigitChars 10 (numeral w n) 0 = n := by
  rw [numeral, Nat.ofDigitChars_append, Nat.ofDigitChars_replicate_zero, Nat.mul_zero,
    Nat.ofDigitChars_ten_toDigits]

theorem numeral_inj (h : numeral w n = numeral w m) : n = m := by
  rw [← ofDigitChars_numeral w n, h, ofDigitChars_numeral]

theorem isDigit_of_mem_numeral {c : Char} (h : c ∈ numeral w n) : c.isDigit = true := by
  rcases List.mem_append.mp h with h | h
  · rw [List.eq_of_mem_replicate h]
    rfl
  · exact Nat.isDigit_of_mem_toDigits (by decide) (by decide) h

theorem numeral_ne_nil : numeral w n ≠ [] := by
  simp [numeral]

/-! ## Order -/

theorem append_lt_append {a b x y : List Char} (hlen : a.length = b.length) (h : a < b) :
    a ++ x < b ++ y := by
  induction a generalizing b with
  | nil =>
    obtain rfl := List.length_eq_zero_iff.mp hlen.symm
    exact absurd h (List.lt_irrefl _)
  | cons c a ih =>
    cases b with
    | nil => cases hlen
    | cons d b =>
      rw [List.cons_append, List.cons_append, List.cons_lt_cons_iff]
      rw [List.cons_lt_cons_iff] at h
      exact h.imp_right fun ⟨hcd, hab⟩ => ⟨hcd, ih (Nat.succ.inj hlen) hab⟩

theorem digitChar_lt (h : n < 9) : n.digitChar < (n + 1).digitChar := by
  have hall : ∀ d < 9, d.digitChar < (d + 1).digitChar := by decide
  exact hall n h

/-- Consecutive numerals of one length; the induction is on the digits. -/
theorem numeral_lt_succ (w n : Nat) :
    (numeral w n).length = (numeral w (n + 1)).length ∧ numeral w n < numeral w (n + 1) ∨
      ∃ k, w ≤ k ∧ 0 < k ∧ n + 1 = 10 ^ k := by
  induction hsize : w + n using Nat.strong_induction_on generalizing w n with
  | _ size ih =>
    subst hsize
    by_cases hstep : 1 < w ∨ 10 ≤ n
    · have hstep' : 1 < w ∨ 10 ≤ n + 1 := hstep.imp_right Nat.le_succ_of_le
      rw [numeral_step hstep, numeral_step hstep']
      by_cases hd : n % 10 < 9
      -- only the last digit changes
      · have hdiv : (n + 1) / 10 = n / 10 := by omega
        have hmod : (n + 1) % 10 = n % 10 + 1 := by omega
        rw [hdiv, hmod]
        refine .inl ⟨by simp, List.append_left_lt ?_⟩
        exact List.cons_lt_cons_iff.mpr (.inl (digitChar_lt hd))
      · have hdiv : (n + 1) / 10 = n / 10 + 1 := by omega
        rw [hdiv]
        rcases ih ((w - 1) + n / 10) (by omega) (w - 1) (n / 10) rfl with ⟨hlen, hlt⟩ | ⟨k, hk⟩
        · exact .inl ⟨by simp [hlen], append_lt_append hlen hlt⟩
        · refine .inr ⟨k + 1, by omega, by omega, ?_⟩
          rw [Nat.pow_succ, ← hk.2.2]
          omega
    · have hw : w ≤ 1 := by omega
      by_cases hn : n < 9
      · rw [numeral_of_lt (by omega) hw, numeral_of_lt (by omega) hw]
        exact .inl ⟨rfl, List.cons_lt_cons_iff.mpr (.inl (digitChar_lt hn))⟩
      · exact .inr ⟨1, hw, Nat.one_pos, by omega⟩

theorem numeral_pow (hw : w ≤ k + 1) : numeral w (10 ^ k) = '1' :: List.replicate k '0' := by
  induction k generalizing w with
  | zero => exact numeral_of_lt (by decide) hw
  | succ k ih =>
    have hge : 10 ≤ 10 ^ (k + 1) := Nat.le_self_pow (Nat.succ_ne_zero k) 10
    have hdiv : 10 ^ (k + 1) / 10 = 10 ^ k := by omega
    have hmod : 10 ^ (k + 1) % 10 = 0 := by omega
    rw [numeral_step (.inr hge), hdiv, hmod, ih (by omega), List.replicate_succ']
    rfl

theorem numeral_nines (hk : 0 < k) (hw : w ≤ k) :
    numeral w (10 ^ k - 1) = List.replicate k '9' := by
  induction k generalizing w with
  | zero => exact absurd hk (Nat.lt_irrefl 0)
  | succ k ih =>
    rcases Nat.eq_zero_or_pos k with rfl | hpos
    · exact numeral_of_lt (by decide) hw
    · have hge : 10 ≤ 10 ^ k := Nat.le_self_pow hpos.ne' 10
      have hdiv : (10 ^ (k + 1) - 1) / 10 = 10 ^ k - 1 := by omega
      have hmod : (10 ^ (k + 1) - 1) % 10 = 9 := by omega
      rw [numeral_step (.inr (by omega)), hdiv, hmod, ih hpos (by omega), List.replicate_succ']
      rfl

/-- Where the width is used up, the numeral of a power of ten is below the one before. -/
theorem numeral_pow_lt (hk : 0 < k) (hw : w ≤ k) :
    numeral w (10 ^ k) < numeral w (10 ^ k - 1) := by
  obtain ⟨j, rfl⟩ := Nat.exists_eq_succ_of_ne_zero hk.ne'
  rw [numeral_pow (Nat.le_succ_of_le hw), numeral_nines hk hw]
  exact List.cons_lt_cons_iff.mpr (.inl (by decide))

/-! ## Counting on from the greatest text -/

/-- Among the numbers taken, `m` has the greatest numeral. -/
structure Tops (w : Nat) (taken : Nat → Prop) (m : Nat) : Prop where
  last : taken m
  max : ∀ n, taken n → numeral w n ≤ numeral w m

/-- A power of ten that has outgrown the width is taken beside the number before it. -/
def Overrun (w : Nat) (taken : Nat → Prop) : Prop :=
  ∃ k, w ≤ k ∧ taken (10 ^ k - 1) ∧ taken (10 ^ k)

/-- Of more than `w` digits, no numeral is above one of nines that is taken. -/
def Capped (w : Nat) (taken : Nat → Prop) : Prop :=
  ∀ k, w ≤ k → taken (10 ^ k - 1) → ∀ n, taken n → numeral w n ≤ numeral w (10 ^ k - 1)

section
variable {taken taken' : Nat → Prop}

theorem Tops.eq_nines (h : Tops w taken m) (hc : Capped w taken) (hk : w ≤ k)
    (hnines : taken (10 ^ k - 1)) : m = 10 ^ k - 1 :=
  numeral_inj (le_antisymm (hc k hk hnines m h.last) (h.max _ hnines))

/-- The next number is taken only after an overrun. -/
theorem Tops.taken_succ_iff (h : Tops w taken m) (hc : Capped w taken) :
    taken (m + 1) ↔ Overrun w taken := by
  constructor
  · intro hnext
    rcases numeral_lt_succ w m with ⟨-, hlt⟩ | ⟨k, hk, hpos, hpow⟩
    · exact absurd hlt (not_lt.mpr (h.max _ hnext))
    · have hm : m = 10 ^ k - 1 := by omega
      exact ⟨k, hk, hm ▸ h.last, hpow ▸ hnext⟩
  · rintro ⟨k, hk, hnines, hpow⟩
    have hm := h.eq_nines hc hk hnines
    have hpos : 0 < 10 ^ k := Nat.pow_pos (by decide)
    have hnext : m + 1 = 10 ^ k := by omega
    rw [hnext]
    exact hpow

theorem Capped.mono (h : ∀ n, taken' n → taken n) (hc : Capped w taken) : Capped w taken' :=
  fun k hk hnines n hn => hc k hk (h _ hnines) n (h n hn)

theorem ten_dvd_pow (hk : 0 < k) : ∃ x, 10 ^ k = 10 * x := by
  obtain ⟨j, rfl⟩ := Nat.exists_eq_succ_of_ne_zero hk.ne'
  exact ⟨10 ^ j, Nat.pow_succ'⟩

/-- The first number. -/
theorem Capped.one (hw : 0 < w) : Capped w (fun n => n = 1) := by
  intro k hk hnines
  obtain ⟨x, hx⟩ := ten_dvd_pow (by omega : 0 < k)
  omega

/-- The next number keeps the cap. -/
theorem Capped.succ (hw : 0 < w) (hc : Capped w taken) (h : Tops w taken m) :
    Capped w (fun n => n = m + 1 ∨ taken n) := by
  intro k hk hnines n hn
  have hpos : 0 < k := by omega
  rcases hnines with hnew | hnines
  -- the new number is nines: it is above the last one, which was the greatest
  · have hlt : numeral w m < numeral w (m + 1) := by
      rcases numeral_lt_succ w m with ⟨-, hlt⟩ | ⟨j, -, hj, hpow⟩
      · exact hlt
      · obtain ⟨x, hx⟩ := ten_dvd_pow hpos
        obtain ⟨y, hy⟩ := ten_dvd_pow hj
        omega
    rw [hnew]
    rcases hn with rfl | hn
    · exact le_rfl
    · exact (lt_of_le_of_lt (h.max n hn) hlt).le
  · have hm := h.eq_nines hc hk hnines
    rcases hn with rfl | hn
    · have hnext : m + 1 = 10 ^ k := by
        have : 0 < 10 ^ k := Nat.pow_pos (by decide)
        omega
      rw [hnext]
      exact (numeral_pow_lt hpos hk).le
    · exact hc k hk hnines n hn

end

end Biztrip.Lib
