import Mathlib.Data.List.Sort
import Mathlib.Data.Prod.Lex
import Biztrip.Lib.Table

/-!
# Queries with an order

`ORDER BY` over the rows a query selects. Where the keys to order by tell the rows
apart, the result depends on which rows there are and not on where they lie in the table
(`orderBy_congr`).
-/

namespace Biztrip.Lib

variable {α κ : Type} [LinearOrder κ]

def orderBy (key : α → κ) (l : List α) : List α := l.insertionSort fun a b => key a ≤ key b

@[simp] theorem mem_orderBy {key : α → κ} {l : List α} {a : α} : a ∈ orderBy key l ↔ a ∈ l :=
  List.mem_insertionSort _

theorem pairwise_orderBy (key : α → κ) (l : List α) :
    (orderBy key l).Pairwise fun a b => key a ≤ key b := by
  have : Std.Total fun a b => key a ≤ key b := ⟨fun a b => le_total (key a) (key b)⟩
  have : IsTrans α fun a b => key a ≤ key b := ⟨fun _ _ _ => le_trans⟩
  exact List.pairwise_insertionSort _ l

theorem orderBy_of_sorted {key : α → κ} {l : List α} (h : l.Pairwise fun a b => key a ≤ key b) :
    orderBy key l = l := h.insertionSort_eq

theorem orderBy_map {β : Type} (key : β → κ) (f : α → β) (l : List α) :
    orderBy key (l.map f) = (orderBy (fun a => key (f a)) l).map f :=
  (List.map_insertionSort _ _ f l fun _ _ _ _ => Iff.rfl).symm

theorem orderBy_congr {key : α → κ} {l l' : List α} (h : l.Perm l')
    (hkey : ∀ a ∈ l, ∀ b ∈ l, key a = key b → a = b) : orderBy key l = orderBy key l' := by
  have hl := List.perm_insertionSort (fun a b => key a ≤ key b) l
  have hl' := List.perm_insertionSort (fun a b => key a ≤ key b) l'
  refine List.Perm.eq_of_pairwise (fun a b ha hb hab hba => ?_) (pairwise_orderBy key l)
    (pairwise_orderBy key l') (hl.trans (h.trans hl'.symm))
  exact hkey a (mem_orderBy.mp ha) b (h.mem_iff.mpr (mem_orderBy.mp hb)) (le_antisymm hab hba)

end Biztrip.Lib
