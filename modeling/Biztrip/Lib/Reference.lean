import Biztrip.Lib.RowWrite

/-!
# References between tables

A column *points* at a table if whatever key it holds is the key of a row there. A statement on
the table of the column keeps that up if the keys that it introduces are there
(`Points.write`), a statement on the other table if it deletes no row that is pointed at
(`Points.of_keeps`, `Points.delete`). Where a row is written back late, over a row that has
changed since, the column of the result is that of one of the two (`Column`), so that
either way the key was introduced by somebody.
-/

namespace Biztrip.Lib

variable {ρ τ ε : Type}

/-- A nullable column that is written back only if it was changed, and then by itself. -/
structure Column [Merge ρ] (column : ρ → Option Int) : Prop where
  merge : ∀ old new cur,
    column (Merge.merge old new cur) = mergeCol (column old) (column new) (column cur)
  stamp : ∀ at₀ r, column (Merge.stamp at₀ r) = column r

theorem mergeCol_some (old new cur : Int) :
    some (mergeCol old new cur) = mergeCol (some old) (some new) (some cur) := by
  unfold mergeCol
  by_cases h : new = old
  · rw [if_pos h, if_pos (congrArg some h)]
  · rw [if_neg h, if_neg fun hs => h (Option.some.inj hs)]

/-- Every key in the column is the key of a row. -/
def Points (t : Table ρ) (column : ρ → Option Int) (target : Table τ) : Prop :=
  ∀ i r, t.get i = some r → ∀ k, column r = some k → (target.get k).isSome

theorem points_iff {t : Table ρ} {column : ρ → Option Int} {target : Table τ} :
    Points t column target ↔ ∀ p ∈ t.rows, ∀ k ∈ column p.2, (target.get k).isSome :=
  ⟨fun h p hp k hk => h p.1 p.2 (Table.mem_rows.mp hp) k hk,
    fun h i r hr k hk => h (i, r) (Table.mem_rows.mpr hr) k hk⟩

instance (t : Table ρ) (column : ρ → Option Int) (target : Table τ) :
    Decidable (Points t column target) := decidable_of_iff _ points_iff.symm

/-- The keys of `t` are keys of `t'`. -/
def KeepsKeys (t t' : Table τ) : Prop := ∀ k, (t.get k).isSome → (t'.get k).isSome

theorem KeepsKeys.refl (t : Table τ) : KeepsKeys t t := fun _ => id

theorem KeepsKeys.trans {a b c : Table τ} (h : KeepsKeys a b) (h' : KeepsKeys b c) :
    KeepsKeys a c := fun k hk => h' k (h k hk)

namespace RowWrite

/-- The statement puts the key into the column. -/
def Introduces (column : ρ → Option Int) (k : Int) : RowWrite ρ → Prop
  | .insert r => column r = some k
  | .update _ old new => column new ≠ column old ∧ column new = some k
  | .delete _ => False

/-- Only a deletion takes a key away, and that one only. -/
theorem isSome_get [Merge ρ] [DecidableEq ρ] {now : Int} {stale : ε} {w : RowWrite ρ}
    {t t' : Table ρ} (h : w.apply now stale t = .ok t') {k : Int} (hw : w ≠ .delete k)
    (hk : (t.get k).isSome) : (t'.get k).isSome := by
  cases w with
  | insert r =>
    rw [apply_insert, Except.ok.injEq] at h
    obtain ⟨row, hrow⟩ := Option.isSome_iff_exists.mp hk
    rw [← h, Table.get_insert_of_some hrow]
    rfl
  | update i old new =>
    obtain ⟨at₀, hget⟩ := writtenBack_of_apply h
    rw [hget]
    split
    · rw [Option.isSome_map]
      exact hk
    · exact hk
  | delete i =>
    rw [apply_delete, Except.ok.injEq] at h
    rw [← h, Table.get_delete, if_neg fun hki => hw (by rw [hki])]
    exact hk

theorem keepsKeys [Merge ρ] [DecidableEq ρ] {now : Int} {stale : ε} {w : RowWrite ρ}
    {t t' : Table ρ} (h : w.apply now stale t = .ok t') (hw : ∀ i, w ≠ .delete i) :
    KeepsKeys t t' := fun k => isSome_get h (hw k)

end RowWrite

namespace Points

variable {t t' : Table ρ} {column : ρ → Option Int} {target target' : Table τ}

theorem of_keeps (h : Points t column target) (hkeys : KeepsKeys target target') :
    Points t column target' := fun i r hr k hk => hkeys k (h i r hr k hk)

/-- A row that nothing points at can go. -/
theorem delete {i : Int} (h : Points t column target)
    (hfree : ∀ j r, t.get j = some r → column r ≠ some i) : Points t column (target.delete i) := by
  intro j r hr k hk
  have hne : k ≠ i := fun hki => hfree j r hr (hki ▸ hk)
  rw [Table.get_delete, if_neg hne]
  exact h j r hr k hk

theorem write [Merge ρ] [DecidableEq ρ] {now : Int} {stale : ε} {w : RowWrite ρ}
    (h : Points t column target) (hcolumn : Column column)
    (hnew : ∀ k, w.Introduces column k → (target.get k).isSome)
    (ha : w.apply now stale t = .ok t') : Points t' column target := by
  intro i r hr k hk
  cases w with
  | insert row =>
    rw [RowWrite.apply_insert, Except.ok.injEq] at ha
    subst ha
    rcases Table.get_insert_eq_some hr with ⟨-, rfl⟩ | ⟨-, hr⟩
    · exact hnew k hk
    · exact h i r hr k hk
  | update j old new =>
    rcases (writtenBack_of_apply ha).cases hr with ⟨-, cur, at₀, hcur, rfl⟩ | ⟨-, hr⟩
    · rw [hcolumn.stamp, hcolumn.merge] at hk
      by_cases hsame : column new = column old
      · rw [mergeCol, if_pos hsame] at hk
        exact h j cur hcur k hk
      · rw [mergeCol_of_ne _ hsame] at hk
        exact hnew k ⟨hsame, hk⟩
    · exact h i r hr k hk
  | delete j =>
    rw [RowWrite.apply_delete, Except.ok.injEq] at ha
    subst ha
    exact h i r (Table.get_delete_eq_some hr).2 k hk

/-- A statement on a table that points at itself, as long as it deletes no row that another one
points at. -/
theorem write_self [Merge ρ] [DecidableEq ρ] {now : Int} {stale : ε} {w : RowWrite ρ}
    (h : Points t column t) (hcolumn : Column column)
    (hnew : ∀ k, w.Introduces column k → (t.get k).isSome)
    (hfree : ∀ i, w = .delete i → ∀ j r, t.get j = some r → j ≠ i → column r ≠ some i)
    (ha : w.apply now stale t = .ok t') : Points t' column t' := by
  intro i r hr k hk
  have hthere := h.write hcolumn hnew ha i r hr k hk
  refine RowWrite.isSome_get ha ?_ hthere
  rintro rfl
  rw [RowWrite.apply_delete, Except.ok.injEq] at ha
  subst ha
  obtain ⟨hne, hr⟩ := Table.get_delete_eq_some hr
  exact hfree k rfl i r hr hne hk

end Points

end Biztrip.Lib
