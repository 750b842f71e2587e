import Biztrip.Lib.Query

/-!
# Partial views of a table

Two tables can agree on part of their rows only (`Table.Agree`). A query that selects
rows of that part (`Table.Selects`) selects the same rows on both, wherever they lie, and
so counts as many and lists them in the same order.
-/

namespace Biztrip.Lib.Table

variable {ρ : Type} {t t' : Table ρ} {p : ρ → Bool} {q q' : Int × ρ → Bool} {i : Int} {r : ρ}

/-- The tables hold the same rows that meet `p`, under the same keys. -/
def Agree (p : ρ → Bool) (t t' : Table ρ) : Prop :=
  ∀ i, (t.get i).filter p = (t'.get i).filter p

theorem Agree.symm (h : Agree p t t') : Agree p t' t := fun i => (h i).symm

theorem Agree.get (h : Agree p t t') (hget : t.get i = some r) (hp : p r = true) :
    t'.get i = some r := by
  have hleft : (t.get i).filter p = some r := Option.filter_eq_some_iff.mpr ⟨hget, hp⟩
  rw [h i] at hleft
  exact (Option.filter_eq_some_iff.mp hleft).1

/-- What a finer condition lets through is the same as well. -/
theorem Agree.filter_eq {p' : ρ → Bool} (h : Agree p t t') (hp : ∀ r, p' r = true → p r = true)
    (i : Int) : (t.get i).filter p' = (t'.get i).filter p' := by
  refine Option.ext fun r => ?_
  rw [Option.filter_eq_some_iff, Option.filter_eq_some_iff]
  constructor
  · rintro ⟨hget, hr⟩
    exact ⟨h.get hget (hp r hr), hr⟩
  · rintro ⟨hget, hr⟩
    exact ⟨h.symm.get hget (hp r hr), hr⟩

/-- A new row that does not meet `p` changes nothing. -/
theorem Agree.insert (hp : p r = false) : Agree p t (t.insert r) := by
  intro i
  rw [get_insert]
  split
  · next hi =>
    rw [hi, get_next, Option.filter_none, Option.filter_some, hp]
    rfl
  · rfl

/-- The conditions `q` on `t` and `q'` on `t'` select from the part `p`, and alike there. -/
structure Selects (p : ρ → Bool) (t t' : Table ρ) (q q' : Int × ρ → Bool) : Prop where
  left : ∀ i r, t.get i = some r → q (i, r) = true → p r = true
  right : ∀ i r, t'.get i = some r → q' (i, r) = true → p r = true
  same : ∀ i r, t.get i = some r → t'.get i = some r → p r = true → q (i, r) = q' (i, r)

theorem Selects.of_le (h : ∀ i r, q (i, r) = true → p r = true) : Selects p t t' q q where
  left i r _ := h i r
  right i r _ := h i r
  same _ _ _ _ _ := rfl

theorem Agree.rows_perm (h : Agree p t t') (hq : Selects p t t' q q') :
    (t.rows.filter q).Perm (t'.rows.filter q') := by
  refine (List.perm_ext_iff_of_nodup (t.nodup.of_map.filter _) (t'.nodup.of_map.filter _)).mpr ?_
  rintro ⟨i, r⟩
  rw [List.mem_filter, List.mem_filter, mem_rows, mem_rows]
  constructor
  · rintro ⟨hget, hsel⟩
    have hp := hq.left i r hget hsel
    have hget' := h.get hget hp
    exact ⟨hget', by rw [← hq.same i r hget hget' hp, hsel]⟩
  · rintro ⟨hget', hsel⟩
    have hp := hq.right i r hget' hsel
    have hget := h.symm.get hget' hp
    exact ⟨hget, by rw [hq.same i r hget hget' hp, hsel]⟩

/-- Keys to order by that include the key of the row put every row in its place. -/
theorem Agree.orderBy_eq {κ : Type} [LinearOrder κ] {key : Int × ρ → κ} (h : Agree p t t')
    (hq : Selects p t t' q q') (hkey : ∀ a b, key a = key b → a.1 = b.1) :
    orderBy key (t.rows.filter q) = orderBy key (t'.rows.filter q') := by
  refine orderBy_congr (h.rows_perm hq) fun a ha b hb heq => ?_
  have hrow := List.mem_of_mem_filter ha
  have hrow' := List.mem_of_mem_filter hb
  exact List.inj_on_of_nodup_map t.nodup hrow hrow' (hkey a b heq)

/-- If at most one row meets the condition, it is found in either table. -/
theorem Agree.find?_eq (h : Agree p t t') (hq : Selects p t t' q q)
    (hone : ∀ a ∈ t.rows, ∀ b ∈ t.rows, q a = true → q b = true → a = b) :
    t.rows.find? q = t'.rows.find? q := by
  have hperm := h.rows_perm hq
  have hall : ∀ a ∈ t.rows.filter q, ∀ b ∈ t.rows.filter q, a = b := by
    intro a ha b hb
    have ha := List.mem_filter.mp ha
    have hb := List.mem_filter.mp hb
    exact hone a ha.1 b hb.1 ha.2 hb.2
  rw [← List.head?_filter, ← List.head?_filter]
  generalize t.rows.filter q = l at hperm hall
  generalize t'.rows.filter q = l' at hperm
  cases l' with
  | nil => rw [List.perm_nil.mp hperm]
  | cons b l' =>
    cases l with
    | nil => cases List.nil_perm.mp hperm
    | cons a l =>
      have hb : b ∈ a :: l := hperm.mem_iff.mpr List.mem_cons_self
      rw [List.head?_cons, List.head?_cons, hall a List.mem_cons_self b hb]

end Biztrip.Lib.Table
