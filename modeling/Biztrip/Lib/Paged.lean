import Mathlib.Data.List.Perm.Basic
import Mathlib.Order.BoundedOrder.Basic
import Biztrip.Lib.Query

/-!
# Reading page by page

Each page is a query of its own, and of the orders that its `ORDER BY` allows the database
may choose a different one each time (`Arranged`). Reading all pages brings every row
exactly once if the order is total, and in general exactly if rows that tie never stand on
two pages (`covers_iff`).
-/

namespace Biztrip.Lib

variable {α κ : Type} [LinearOrder κ]

/-- An order of the rows that `ORDER BY` allows: rows that tie may stand either way. -/
def Arranged (key : α → κ) (rows l : List α) : Prop :=
  l.Perm rows ∧ l.Pairwise fun a b => key a ≤ key b

/-- The page of `n` rows with the number `k`, from zero. -/
def pageOf (n k : Nat) (l : List α) : List α := (l.drop (k * n)).take n

/-- `ceil(total / n)`. -/
def pageCount (total n : Nat) : Nat := (total + n - 1) / n

/-- All pages one after another; the query of page `k` is answered in the order `choice k`. -/
def sweep (n total : Nat) (choice : Nat → List α) : List α :=
  (List.range (pageCount total n)).flatMap fun k => pageOf n k (choice k)

/-- Whatever orders the queries are answered in, every row is read exactly once. -/
def Covers (key : α → κ) (rows : List α) (n : Nat) : Prop :=
  ∀ choice : Nat → List α, (∀ k, Arranged key rows (choice k)) →
    (sweep n rows.length choice).Perm rows

/-- How many rows come before `a` in every order. -/
def countBefore (key : α → κ) (rows : List α) (a : α) : Nat := rows.countP fun b => key b < key a

/-- How many rows come no later than the last one that ties with `a`. -/
def countThrough (key : α → κ) (rows : List α) (a : α) : Nat := rows.countP fun b => key b ≤ key a

/-- The first and the last place among the ties of a row are on one page. -/
def TiesTogether (key : α → κ) (rows : List α) (n : Nat) : Prop :=
  ∀ a ∈ rows, countBefore key rows a / n = (countThrough key rows a - 1) / n

variable {key : α → κ} {rows l : List α} {n k : Nat}

theorem arranged_orderBy (key : α → κ) (rows : List α) : Arranged key rows (orderBy key rows) :=
  ⟨List.perm_insertionSort _ rows, pairwise_orderBy key rows⟩

/-! ## Places in a sorted list -/

/-- What holds of all rows up to one that it holds of, holds exactly of as many rows from the
start on. -/
theorem getElem_iff_lt_countP {p : α → Bool} {l : List α}
    (hp : l.Pairwise fun a b => p b = true → p a = true) :
    ∀ {i : Nat} (hi : i < l.length), p l[i] = true ↔ i < l.countP p := by
  induction l with
  | nil => exact fun hi => absurd hi (Nat.not_lt_zero _)
  | cons a l ih =>
    obtain ⟨hhead, htail⟩ := List.pairwise_cons.mp hp
    have hnone : ¬ p a = true → l.countP p = 0 := fun ha =>
      List.countP_eq_zero.mpr fun b hb hpb => ha (hhead b hb hpb)
    intro i hi
    by_cases ha : p a = true
    · rw [List.countP_cons_of_pos ha]
      cases i with
      | zero => simpa using ha
      | succ i => simpa using ih htail (by simpa using hi)
    · rw [List.countP_cons_of_neg ha, hnone ha]
      cases i with
      | zero => simpa using ha
      | succ i =>
        have hi' : i < l.length := by simpa using hi
        have hnot : ¬ p l[i] = true := fun hpi => ha (hhead _ (List.getElem_mem hi') hpi)
        simpa using hnot

/-- A row stands among its ties. -/
theorem Arranged.place (h : Arranged key rows l) {i : Nat} (hi : i < l.length) (a : α) :
    (key l[i] < key a ↔ i < countBefore key rows a) ∧
      (key l[i] ≤ key a ↔ i < countThrough key rows a) := by
  obtain ⟨hperm, hsorted⟩ := h
  have hbefore : countBefore key rows a = l.countP fun b => key b < key a :=
    (hperm.countP_eq _).symm
  have hthrough : countThrough key rows a = l.countP fun b => key b ≤ key a :=
    (hperm.countP_eq _).symm
  rw [hbefore, hthrough]
  constructor
  · rw [← getElem_iff_lt_countP (hsorted.imp fun hab hb => ?_) hi, decide_eq_true_eq]
    rw [decide_eq_true_eq] at hb ⊢
    exact lt_of_le_of_lt hab hb
  · rw [← getElem_iff_lt_countP (hsorted.imp fun hab hb => ?_) hi, decide_eq_true_eq]
    rw [decide_eq_true_eq] at hb ⊢
    exact le_trans hab hb

/-! ## Pages of one order -/

/-- The pages from `k` on, of one order, are what is left of it. -/
theorem flatMap_pageOf (n : Nat) (l : List α) (c : Nat) : ∀ k,
    ((List.range' k c).flatMap fun j => pageOf n j l) = (l.drop (k * n)).take (c * n) := by
  induction c with
  | zero => simp
  | succ c ih =>
    intro k
    rw [List.range'_succ, List.flatMap_cons, ih, Nat.succ_mul, Nat.succ_mul, Nat.add_comm (c * n),
      List.take_add, List.drop_drop]
    rfl

theorem le_pageCount_mul (hn : 1 ≤ n) (total : Nat) : total ≤ pageCount total n * n := by
  unfold pageCount
  have := Nat.div_add_mod (total + n - 1) n
  have := Nat.mod_lt (total + n - 1) hn
  rw [Nat.mul_comm]
  omega

theorem div_lt_pageCount (hn : 1 ≤ n) {i total : Nat} (hi : i < total) :
    i / n < pageCount total n := by
  have := le_pageCount_mul hn total
  exact Nat.div_lt_of_lt_mul (by rw [Nat.mul_comm]; omega)

/-- A page holds the rows that a condition tells by their place. -/
theorem pageOf_eq_filter (hn : 1 ≤ n) {p : α → Bool}
    (hp : ∀ i (hi : i < l.length), p l[i] = true ↔ i / n = k) : pageOf n k l = l.filter p := by
  have hsplit : l = l.take (k * n) ++ (pageOf n k l ++ l.drop (k * n + n)) := by
    unfold pageOf
    rw [← List.drop_drop, List.take_append_drop, List.take_append_drop]
  have hpage : ∀ i, i / n = k ↔ k * n ≤ i ∧ i < k * n + n := by
    intro i
    rw [Nat.div_eq_iff hn]
    omega
  have hfront : (l.take (k * n)).filter p = [] := by
    refine List.filter_eq_nil_iff.mpr fun a ha hpa => ?_
    obtain ⟨i, hi, rfl⟩ := List.mem_take_iff_getElem.mp ha
    have := (hpage i).mp ((hp i (by omega)).mp hpa)
    omega
  have hback : (l.drop (k * n + n)).filter p = [] := by
    refine List.filter_eq_nil_iff.mpr fun a ha hpa => ?_
    obtain ⟨i, hi, rfl⟩ := List.mem_drop_iff_getElem.mp ha
    have := (hpage _).mp ((hp (k * n + n + i) (by omega)).mp hpa)
    omega
  have hmiddle : (pageOf n k l).filter p = pageOf n k l := by
    refine List.filter_eq_self.mpr fun a ha => ?_
    obtain ⟨i, hi, rfl⟩ := List.mem_take_iff_getElem.mp ha
    rw [List.length_drop] at hi
    rw [List.getElem_drop]
    exact (hp _ (by omega)).mpr ((hpage _).mpr (by omega))
  conv_rhs => rw [hsplit]
  rw [List.filter_append, List.filter_append, hfront, hback, hmiddle, List.nil_append,
    List.append_nil]

/-! ## All pages -/

/-- A total order leaves no choice. -/
theorem covers_of_total (hn : 1 ≤ n) (hkey : ∀ a ∈ rows, ∀ b ∈ rows, key a = key b → a = b) :
    Covers key rows n := by
  intro choice hchoice
  have hsame : ∀ k, choice k = orderBy key rows := by
    intro k
    obtain ⟨hperm, hsorted⟩ := hchoice k
    rw [← orderBy_of_sorted hsorted]
    refine orderBy_congr hperm fun a ha b hb => ?_
    exact hkey a (hperm.mem_iff.mp ha) b (hperm.mem_iff.mp hb)
  have hlen : (orderBy key rows).length = rows.length := (arranged_orderBy key rows).1.length_eq
  have hall : sweep n rows.length choice = orderBy key rows := by
    unfold sweep
    simp only [hsame]
    rw [List.range_eq_range', flatMap_pageOf, Nat.zero_mul, List.drop_zero]
    refine List.take_of_length_le ?_
    rw [hlen]
    exact le_pageCount_mul hn rows.length
  rw [hall]
  exact (arranged_orderBy key rows).1

/-- The rows sorted into compartments. -/
theorem flatMap_filter_perm (f : α → Nat) (rows : List α) (c : Nat) :
    ((List.range c).flatMap fun k => rows.filter fun a => f a = k).Perm
      (rows.filter fun a => f a < c) := by
  induction c with
  | zero => simp
  | succ c ih =>
    rw [List.range_succ, List.flatMap_append, List.flatMap_singleton]
    have hlow : (rows.filter fun a => f a < c) =
        (rows.filter fun a => f a < c + 1).filter fun a => f a < c := by
      rw [List.filter_filter]
      refine List.filter_congr fun a _ => ?_
      rw [Bool.eq_iff_iff, Bool.and_eq_true, decide_eq_true_eq, decide_eq_true_eq]
      omega
    have hhigh : (rows.filter fun a => f a = c) =
        (rows.filter fun a => f a < c + 1).filter fun a => !decide (f a < c) := by
      rw [List.filter_filter]
      refine List.filter_congr fun a _ => ?_
      rw [Bool.eq_iff_iff, Bool.and_eq_true, decide_eq_true_eq, decide_eq_true_eq,
        Bool.not_eq_true', decide_eq_false_iff_not]
      omega
    refine (ih.append_right _).trans ?_
    rw [hlow, hhigh]
    exact List.filter_append_perm _ _

theorem countBefore_lt {a : α} (ha : a ∈ rows) : countBefore key rows a < rows.length := by
  unfold countBefore
  refine lt_of_le_of_ne List.countP_le_length fun heq => ?_
  have := List.countP_eq_length.mp heq a ha
  simp at this

theorem covers_of_tiesTogether (hn : 1 ≤ n) (h : TiesTogether key rows n) :
    Covers key rows n := by
  intro choice hchoice
  -- in whatever order, a page holds the rows whose first place is on it
  have hpage : ∀ k, (pageOf n k (choice k)).Perm
      (rows.filter fun a => countBefore key rows a / n = k) := by
    intro k
    have harranged := hchoice k
    have hp : ∀ i (hi : i < (choice k).length),
        decide (countBefore key rows (choice k)[i] / n = k) = true ↔ i / n = k := by
      intro i hi
      obtain ⟨hbefore, hthrough⟩ := harranged.place hi (choice k)[i]
      have hlo : countBefore key rows (choice k)[i] ≤ i :=
        Nat.not_lt.mp fun hlt => lt_irrefl _ (hbefore.mpr hlt)
      have hhi : i < countThrough key rows (choice k)[i] := hthrough.mp le_rfl
      have hone := h _ (harranged.1.mem_iff.mp (List.getElem_mem hi))
      have hfirst : countBefore key rows (choice k)[i] / n ≤ i / n := Nat.div_le_div_right hlo
      have hlast : i / n ≤ (countThrough key rows (choice k)[i] - 1) / n :=
        Nat.div_le_div_right (by omega)
      rw [decide_eq_true_eq]
      omega
    rw [pageOf_eq_filter (p := fun a => decide (countBefore key rows a / n = k)) hn hp]
    exact harranged.1.filter _
  refine (List.Perm.flatMap_left _ fun k _ => hpage k).trans ?_
  refine (flatMap_filter_perm _ rows _).trans ?_
  rw [List.filter_eq_self.mpr fun a ha => ?_]
  exact decide_eq_true (div_lt_pageCount hn (countBefore_lt ha))

/-- Two rows that tie, next to each other, on either side of the start of page `k`: read up to there
in one order and from there on in the other, one of them is read twice. -/
theorem not_covers_of_split {u v : List α} {x y : α} (hl : Arranged key rows (u ++ x :: y :: v))
    (htie : key x = key y) (hne : x ≠ y) (hu : u.length + 1 = k * n)
    (hk : k ≤ pageCount rows.length n) (hn : 1 ≤ n) : ¬ Covers key rows n := by
  intro hcovers
  have hswap : (u ++ y :: x :: v).Perm (u ++ x :: y :: v) :=
    (List.Perm.swap x y v).append_left u
  have hl' : Arranged key rows (u ++ y :: x :: v) := by
    refine ⟨hswap.trans hl.1, ?_⟩
    have hsorted := hl.2
    simp only [List.pairwise_append, List.pairwise_cons, List.forall_mem_cons, htie, le_refl,
      true_and] at hsorted ⊢
    obtain ⟨hfront, ⟨hx, hy, hback⟩, hcross⟩ := hsorted
    refine ⟨hfront, ⟨hy, hx, hback⟩, fun a ha => ?_⟩
    obtain ⟨hax, -, hav⟩ := hcross a ha
    exact ⟨hax, hax, hav⟩
  have hread := hcovers (fun j => if j < k then u ++ x :: y :: v else u ++ y :: x :: v) fun j => by
    split
    · exact hl
    · exact hl'
  unfold sweep at hread
  have hrange : List.range (pageCount rows.length n) =
      List.range' 0 k ++ List.range' k (pageCount rows.length n - k) := by
    rw [List.range_eq_range', ← Nat.add_sub_cancel' hk, ← List.range'_append_1, Nat.zero_add,
      Nat.add_sub_cancel_left]
  have hfirst : ((List.range' 0 k).flatMap fun j => pageOf n j
      (if j < k then u ++ x :: y :: v else u ++ y :: x :: v)) = u ++ [x] := by
    rw [List.flatMap_congr (g := fun j => pageOf n j (u ++ x :: y :: v)) fun j hj => ?_,
      flatMap_pageOf, Nat.zero_mul, List.drop_zero, ← hu, List.take_length_add_append]
    · rfl
    · rw [List.mem_range'_1] at hj
      rw [if_pos (by omega)]
  have hrest : ((List.range' k (pageCount rows.length n - k)).flatMap fun j => pageOf n j
      (if j < k then u ++ x :: y :: v else u ++ y :: x :: v)) = x :: v := by
    rw [List.flatMap_congr (g := fun j => pageOf n j (u ++ y :: x :: v)) fun j hj => ?_,
      flatMap_pageOf, ← hu, List.drop_length_add_append]
    · refine List.take_of_length_le ?_
      have hlen := hl'.1.length_eq
      have hcount := le_pageCount_mul hn rows.length
      have hsub : (pageCount rows.length n - k) * n = pageCount rows.length n * n - k * n :=
        Nat.sub_mul ..
      simp only [List.length_append, List.length_cons, List.drop_succ_cons, List.drop_zero]
        at hlen ⊢
      omega
    · rw [List.mem_range'_1] at hj
      rw [if_neg (by omega)]
  rw [hrange, List.flatMap_append, hfirst, hrest] at hread
  have htwice : (u ++ x :: x :: v).Perm (u ++ x :: y :: v) := by
    refine List.Perm.trans ?_ (hread.trans hl.1.symm)
    rw [List.append_assoc, List.singleton_append]
  have hxy : (x :: v).Perm (y :: v) :=
    (List.perm_cons x).mp ((List.perm_append_left_iff u).mp htwice)
  have hmem : [x].Perm [y] := (List.perm_append_right_iff v).mp hxy
  exact hne (List.singleton_perm_singleton.mp hmem)

theorem tiesTogether_of_covers (hn : 1 ≤ n) (hnodup : rows.Nodup) (h : Covers key rows n) :
    TiesTogether key rows n := by
  intro a ha
  by_contra hsplit
  -- the ties of `a` stand on both sides of the start of a page
  have hl := arranged_orderBy key rows
  have hlen : (orderBy key rows).length = rows.length := hl.1.length_eq
  have hle : countThrough key rows a ≤ rows.length := List.countP_le_length
  have hlt : countBefore key rows a < countThrough key rows a := by
    obtain ⟨i, hi, hia⟩ := List.getElem_of_mem (hl.1.mem_iff.mpr ha)
    obtain ⟨hbefore, hthrough⟩ := hl.place hi a
    rw [hia] at hbefore hthrough
    have := hthrough.mp le_rfl
    have : ¬ i < countBefore key rows a := fun hlt => lt_irrefl _ (hbefore.mpr hlt)
    omega
  have hmono : countBefore key rows a / n ≤ (countThrough key rows a - 1) / n :=
    Nat.div_le_div_right (by omega)
  have hstart : countBefore key rows a < (countBefore key rows a / n + 1) * n := by
    rw [Nat.mul_comm]
    exact Nat.lt_mul_div_succ _ hn
  have hstop : (countBefore key rows a / n + 1) * n ≤ countThrough key rows a - 1 :=
    (Nat.le_div_iff_mul_le hn).mp (by omega)
  generalize hk : countBefore key rows a / n + 1 = k at hstart hstop
  have hi : k * n - 1 < (orderBy key rows).length := by omega
  have hj : k * n - 1 + 1 < (orderBy key rows).length := by omega
  have hparts : (orderBy key rows).take (k * n - 1) ++ (orderBy key rows)[k * n - 1] ::
      (orderBy key rows)[k * n - 1 + 1] :: (orderBy key rows).drop (k * n - 1 + 1 + 1) =
        orderBy key rows := by
    rw [← List.drop_eq_getElem_cons hj, ← List.drop_eq_getElem_cons hi, List.take_append_drop]
  have htie : ∀ i (hi : i < (orderBy key rows).length), countBefore key rows a ≤ i →
      i < countThrough key rows a → key (orderBy key rows)[i] = key a := by
    intro i hi hlo hhi
    obtain ⟨hbefore, hthrough⟩ := hl.place hi a
    refine le_antisymm (hthrough.mpr hhi) (not_lt.mp fun hlt => ?_)
    have := hbefore.mp hlt
    omega
  have hfront : ((orderBy key rows).take (k * n - 1)).length + 1 = k * n := by
    rw [List.length_take]
    omega
  have hcount : k ≤ pageCount rows.length n := by
    have := le_pageCount_mul hn rows.length
    exact Nat.le_of_mul_le_mul_right (by omega : k * n ≤ pageCount rows.length n * n) hn
  have hdistinct : (orderBy key rows)[k * n - 1] ≠ (orderBy key rows)[k * n - 1 + 1] := by
    intro heq
    have := (hl.1.nodup_iff.mpr hnodup).getElem_inj_iff.mp heq
    omega
  rw [← hparts] at hl
  refine not_covers_of_split hl ?_ hdistinct hfront hcount hn h
  rw [htie _ hi (by omega) (by omega), htie _ hj (by omega) (by omega)]

/-- Reading all pages brings every row exactly once, whatever the database chooses, exactly if the
ties of every row are on one page. -/
theorem covers_iff (hn : 1 ≤ n) (hnodup : rows.Nodup) :
    Covers key rows n ↔ TiesTogether key rows n :=
  ⟨tiesTogether_of_covers hn hnodup, covers_of_tiesTogether hn⟩

/-! ## Nulls last -/

theorem countThrough_eq (key : α → κ) (rows : List α) (a : α) : countThrough key rows a =
    countBefore key rows a + rows.countP fun b => key b = key a := by
  unfold countThrough countBefore
  induction rows with
  | nil => rfl
  | cons b rows ih =>
    rw [List.countP_cons, List.countP_cons, List.countP_cons, ih]
    rcases lt_trichotomy (key b) (key a) with h | h | h
    · simp [h, h.le, h.ne]
      omega
    · simp [h]
      omega
    · simp [h.not_ge, h.not_gt, h.ne']

/-- A row that ties with no other has a place of its own. -/
theorem countThrough_of_unique (hnodup : rows.Nodup) {a : α} (ha : a ∈ rows)
    (hkey : ∀ b ∈ rows, key b = key a → b = a) :
    countThrough key rows a = countBefore key rows a + 1 := by
  rw [countThrough_eq, List.countP_eq_length_filter]
  have hties : (rows.filter fun b => key b = key a) = [a] := by
    refine List.perm_singleton.mp ?_
    refine (List.perm_ext_iff_of_nodup (hnodup.filter _) (List.nodup_singleton a)).mpr fun b => ?_
    rw [List.mem_filter, List.mem_singleton, decide_eq_true_eq]
    exact ⟨fun h => hkey b h.1 h.2, fun h => by rw [h]; exact ⟨ha, rfl⟩⟩
  rw [hties, List.length_singleton]

/-- Where only rows whose key is the greatest tie, these rows, at the end, must be on one page. -/
theorem tiesTogether_iff_of_top [OrderTop κ] (hnodup : rows.Nodup)
    (hkey : ∀ a ∈ rows, ∀ b ∈ rows, key a = key b → key a ≠ ⊤ → a = b) :
    TiesTogether key rows n ↔ (∃ a ∈ rows, key a = ⊤) →
      (rows.length - rows.countP fun a => key a = ⊤) / n = (rows.length - 1) / n := by
  have htop : ∀ {a}, key a = ⊤ → countThrough key rows a = rows.length ∧
      countBefore key rows a = rows.length - rows.countP fun a => key a = ⊤ := by
    intro a ha
    have hall : countThrough key rows a = rows.length :=
      List.countP_eq_length.mpr fun b _ => decide_eq_true (ha ▸ le_top)
    have hsum := countThrough_eq key rows a
    rw [ha] at hsum
    exact ⟨hall, by omega⟩
  constructor
  · rintro h ⟨a, ha, hatop⟩
    have hone := h a ha
    rwa [(htop hatop).1, (htop hatop).2] at hone
  · intro h a ha
    by_cases hatop : key a = ⊤
    · rw [(htop hatop).1, (htop hatop).2]
      exact h ⟨a, ha, hatop⟩
    · rw [countThrough_of_unique hnodup ha fun b hb hab => (hkey a ha b hb hab.symm hatop).symm,
        Nat.add_sub_cancel]

end Biztrip.Lib
