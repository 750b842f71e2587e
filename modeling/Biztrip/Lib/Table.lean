import Mathlib.Data.List.Nodup

/-!
# Keyed tables

A `Table` is a finite set of rows under integer keys, with the sequence that
hands out the next key. Keys are distinct and lie below the sequence; both
facts are fields, so every table that can be built is well formed. `get` reads
a row, and `insert`, `update` and `delete` are described by what `get` returns
afterwards. `filter_update`, `filter_insert` and `filter_delete` are the frame
facts for queries over several rows: a query does not see a write to a row
outside it.
-/

namespace Biztrip.Lib

structure Table (ρ : Type) where
  rows : List (Int × ρ)
  /-- The next key of the sequence. -/
  next : Int
  nodup : (rows.map Prod.fst).Nodup
  fresh : ∀ p ∈ rows, p.1 < next

namespace Table

variable {ρ : Type}

def empty : Table ρ := ⟨[], 1, by simp, by simp⟩

def get (t : Table ρ) (i : Int) : Option ρ := (t.rows.find? fun p => p.1 = i).map Prod.snd

/-- Append a row under the next key of the sequence. -/
def insert (t : Table ρ) (r : ρ) : Table ρ where
  rows := t.rows ++ [(t.next, r)]
  next := t.next + 1
  nodup := by
    rw [List.map_append, List.nodup_append]
    refine ⟨t.nodup, by simp, ?_⟩
    intro a ha b hb
    obtain ⟨p, hp, rfl⟩ := List.mem_map.mp ha
    simp only [List.map_cons, List.map_nil, List.mem_singleton] at hb
    have := t.fresh p hp
    omega
  fresh := by
    intro p hp
    rcases List.mem_append.mp hp with hp | hp
    · have := t.fresh p hp
      omega
    · simp only [List.mem_singleton] at hp
      subst hp
      simp only
      omega

/-- Rewrite the row under `i`. -/
def update (t : Table ρ) (i : Int) (f : ρ → ρ) : Table ρ where
  rows := t.rows.map fun p => if p.1 = i then (p.1, f p.2) else p
  next := t.next
  nodup := by
    have h : (t.rows.map fun p => if p.1 = i then (p.1, f p.2) else p).map Prod.fst =
        t.rows.map Prod.fst := by
      rw [List.map_map]
      refine List.map_congr_left fun p _ => ?_
      simp only [Function.comp_apply]
      split <;> rfl
    rw [h]
    exact t.nodup
  fresh := by
    intro p hp
    obtain ⟨q, hq, rfl⟩ := List.mem_map.mp hp
    have := t.fresh q hq
    split <;> exact this

def delete (t : Table ρ) (i : Int) : Table ρ where
  rows := t.rows.filter fun p => p.1 ≠ i
  next := t.next
  nodup := t.nodup.sublist (List.filter_sublist.map _)
  fresh := fun p hp => t.fresh p (List.mem_filter.mp hp).1

/-- The table that a sequence of insertions fills. -/
def ofRows (rs : List ρ) : Table ρ := rs.foldl insert empty

/-! ## Reading a row -/

theorem mem_rows {t : Table ρ} {i : Int} {r : ρ} : (i, r) ∈ t.rows ↔ t.get i = some r := by
  unfold get
  rw [Option.map_eq_some_iff]
  constructor
  · intro h
    refine ⟨(i, r), ?_, rfl⟩
    have hs : (t.rows.find? fun p => p.1 = i).isSome := by
      rw [List.find?_isSome]
      exact ⟨_, h, by simp⟩
    obtain ⟨q, hq⟩ := Option.isSome_iff_exists.mp hs
    have hqi : q.1 = i := by simpa using List.find?_some hq
    have : q = (i, r) := List.inj_on_of_nodup_map t.nodup (List.mem_of_find?_eq_some hq) h hqi
    rw [hq, this]
  · rintro ⟨⟨j, r'⟩, h, rfl⟩
    have hji : j = i := by simpa using List.find?_some h
    have := List.mem_of_find?_eq_some h
    rwa [hji] at this

theorem get_lt_next {t : Table ρ} {i : Int} {r : ρ} (h : t.get i = some r) : i < t.next :=
  t.fresh _ (mem_rows.mpr h)

@[simp] theorem get_next (t : Table ρ) : t.get t.next = none := by
  rcases h : t.get t.next with _ | r
  · rfl
  · have := get_lt_next h
    omega

/-- Tables agree on a key when they hold the same rows under it. -/
theorem get_eq_of_mem_iff {t t' : Table ρ} {i j : Int}
    (h : ∀ r, (i, r) ∈ t.rows ↔ (j, r) ∈ t'.rows) : t.get i = t'.get j := by
  refine Option.ext fun r => ?_
  rw [← mem_rows, ← mem_rows]
  exact h r

theorem get_of_rows_nil {t : Table ρ} (h : t.rows = []) (i : Int) : t.get i = none := by
  simp [get, h]

@[simp] theorem next_insert (t : Table ρ) (r : ρ) : (t.insert r).next = t.next + 1 := rfl

@[simp] theorem next_update (t : Table ρ) (i : Int) (f : ρ → ρ) :
    (t.update i f).next = t.next := rfl

@[simp] theorem next_delete (t : Table ρ) (i : Int) : (t.delete i).next = t.next := rfl

theorem get_insert (t : Table ρ) (r : ρ) (i : Int) :
    (t.insert r).get i = if i = t.next then some r else t.get i := by
  split
  · next h =>
    subst h
    exact mem_rows.mp (by simp [insert])
  · next h =>
    refine get_eq_of_mem_iff fun r' => ?_
    simp [insert, h]

@[simp] theorem get_insert_next (t : Table ρ) (r : ρ) : (t.insert r).get t.next = some r := by
  rw [get_insert, if_pos rfl]

theorem get_insert_of_some {t : Table ρ} {i : Int} {r r' : ρ} (h : t.get i = some r) :
    (t.insert r').get i = some r := by
  have := get_lt_next h
  rw [get_insert, if_neg (by omega), h]

theorem get_update (t : Table ρ) (i : Int) (f : ρ → ρ) (j : Int) :
    (t.update i f).get j = if j = i then (t.get j).map f else t.get j := by
  refine Option.ext fun r => ?_
  rw [← mem_rows]
  simp only [update, List.mem_map]
  constructor
  · rintro ⟨⟨k, r'⟩, hm, he⟩
    have hk := mem_rows.mp hm
    split at he
    · next hki =>
      simp only [Prod.mk.injEq] at he
      obtain ⟨rfl, rfl⟩ := he
      rw [if_pos hki, hk]
      rfl
    · next hki =>
      simp only [Prod.mk.injEq] at he
      obtain ⟨rfl, rfl⟩ := he
      rw [if_neg hki, hk]
  · intro h
    split at h
    · next hji =>
      obtain ⟨r', hr', rfl⟩ := Option.map_eq_some_iff.mp h
      exact ⟨(j, r'), mem_rows.mpr hr', by simp [hji]⟩
    · next hji =>
      exact ⟨(j, r), mem_rows.mpr h, by simp [hji]⟩

theorem update_eq_self {t : Table ρ} {i : Int} {f : ρ → ρ}
    (h : ∀ r, t.get i = some r → f r = r) : t.update i f = t := by
  have hrows : (t.update i f).rows = t.rows := by
    refine (List.map_congr_left fun p hp => ?_).trans (List.map_id _)
    split
    · next hpi => exact Prod.ext rfl (h p.2 (mem_rows.mp (hpi ▸ hp)))
    · rfl
  cases t
  simp only [update, mk.injEq, and_true] at hrows ⊢
  exact hrows

theorem get_delete (t : Table ρ) (i j : Int) :
    (t.delete i).get j = if j = i then none else t.get j := by
  refine Option.ext fun r => ?_
  rw [← mem_rows]
  by_cases hji : j = i
  · simp [delete, hji]
  · simp [delete, hji, mem_rows]

/-- A row read after an insertion is the new row or an old one. -/
theorem get_insert_eq_some {t : Table ρ} {j : Int} {r₀ r : ρ} (h : (t.insert r₀).get j = some r) :
    (j = t.next ∧ r = r₀) ∨ (j < t.next ∧ t.get j = some r) := by
  rw [get_insert] at h
  split at h
  · next hj =>
    simp only [Option.some.injEq] at h
    exact .inl ⟨hj, h.symm⟩
  · exact .inr ⟨get_lt_next h, h⟩

/-- A row read after a deletion was there before. -/
theorem get_delete_eq_some {t : Table ρ} {i j : Int} {r : ρ} (h : (t.delete i).get j = some r) :
    j ≠ i ∧ t.get j = some r := by
  rw [get_delete] at h
  split at h
  · cases h
  · next hji => exact ⟨hji, h⟩

/-! ## Queries over several rows -/

section Query
variable {t : Table ρ} {q : Int × ρ → Bool}

theorem filter_insert {r : ρ} (h : q (t.next, r) = false) :
    (t.insert r).rows.filter q = t.rows.filter q := by
  simp [insert, List.filter_append, h]

theorem filter_update {i : Int} {f : ρ → ρ}
    (h : ∀ r, t.get i = some r → q (i, r) = false ∧ q (i, f r) = false) :
    (t.update i f).rows.filter q = t.rows.filter q := by
  have key : ∀ l : List (Int × ρ), (∀ p ∈ l, t.get p.1 = some p.2) →
      (l.map fun p => if p.1 = i then (p.1, f p.2) else p).filter q = l.filter q := by
    intro l hl
    induction l with
    | nil => rfl
    | cons p l ih =>
      have hp := hl p List.mem_cons_self
      have ih := ih fun p' hp' => hl p' (List.mem_cons_of_mem _ hp')
      simp only [List.map_cons, List.filter_cons, ih]
      by_cases hpi : p.1 = i
      · obtain ⟨k, r⟩ := p
        simp only at hpi hp
        subst hpi
        simp [h r hp]
      · simp [hpi]
  exact key t.rows fun p hp => mem_rows.mp hp

theorem filter_delete {i : Int} (h : ∀ r, t.get i = some r → q (i, r) = false) :
    (t.delete i).rows.filter q = t.rows.filter q := by
  simp only [delete, List.filter_filter]
  refine List.filter_congr fun p hp => ?_
  by_cases hpi : p.1 = i
  · obtain ⟨k, r⟩ := p
    simp only at hpi
    subst hpi
    simp [h r (mem_rows.mp hp)]
  · simp [hpi]

theorem length_filter_insert (r : ρ) : ((t.insert r).rows.filter q).length =
    (t.rows.filter q).length + if q (t.next, r) = true then 1 else 0 := by
  by_cases h : q (t.next, r) = true <;> simp [insert, List.filter_append, h]

/-- If no row comes to be selected by being rewritten, no more rows are selected than before. -/
theorem length_filter_update_le {i : Int} {f : ρ → ρ}
    (h : ∀ r, t.get i = some r → q (i, f r) = true → q (i, r) = true) :
    ((t.update i f).rows.filter q).length ≤ (t.rows.filter q).length := by
  rw [← List.countP_eq_length_filter, ← List.countP_eq_length_filter]
  unfold update
  rw [List.countP_map]
  refine List.countP_mono_left ?_
  rintro ⟨k, r⟩ hp
  simp only [Function.comp_apply]
  split
  · next hk =>
    subst hk
    exact h r (mem_rows.mp hp)
  · exact id

end Query

end Table

end Biztrip.Lib
