import Mathlib.Algebra.BigOperators.Group.List.Basic
import Mathlib.Algebra.Ring.Int.Defs
import Biztrip.Lib.RowWrite

/-!
# Row versions

What a transaction has written to a table before it commits: at most one row, under its
key, or that the row is gone (`Version`). Others read the committed table; the
transaction itself reads it with its version laid over (`Table.overlay`), and its commit
makes that the committed table. `RowWrite.run` is the version a statement leaves, and
`run_apply` says that a statement whose version is laid over at once has been applied.
-/

namespace Biztrip.Lib

/-- A row as a transaction has left it, under its key. -/
abbrev Version (ρ : Type) := Int × Option ρ

namespace Table

variable {ρ : Type} {t t' : Table ρ} {i j : Int} {v : Option ρ}

/-- The table with `v` for the row under `i`, whether there is one or not. -/
def write (t : Table ρ) (i : Int) (v : Option ρ) : Table ρ where
  rows := t.rows.filter (fun p => p.1 ≠ i) ++ (v.map (Prod.mk i)).toList
  next := max t.next (i + 1)
  nodup := by
    rw [List.map_append, List.nodup_append]
    refine ⟨t.nodup.sublist (List.filter_sublist.map _), ?_, ?_⟩
    · cases v <;> simp
    · intro a ha b hb
      obtain ⟨p, hp, rfl⟩ := List.mem_map.mp ha
      have hne := (List.mem_filter.mp hp).2
      cases v <;> simp_all
  fresh := by
    intro p hp
    rcases List.mem_append.mp hp with hp | hp
    · have := t.fresh p (List.mem_filter.mp hp).1
      omega
    · cases v with
      | none => cases hp
      | some r =>
        rw [List.mem_singleton.mp hp]
        omega

theorem mem_write {r : ρ} :
    (j, r) ∈ (t.write i v).rows ↔ if j = i then v = some r else (j, r) ∈ t.rows := by
  unfold write
  simp only [List.mem_append, List.mem_filter, decide_eq_true_eq]
  by_cases hj : j = i
  · rw [if_pos hj, hj]
    cases v <;> simp [eq_comm]
  · rw [if_neg hj]
    cases v <;> simp [hj]

@[simp] theorem get_write : (t.write i v).get j = if j = i then v else t.get j := by
  refine Option.ext fun r => ?_
  rw [← mem_rows, mem_write]
  by_cases hj : j = i
  · rw [if_pos hj, if_pos hj]
  · rw [if_neg hj, if_neg hj, mem_rows]

/-- Tables with the same rows under the same keys hold them in some order. -/
theorem rows_perm (h : ∀ j, t'.get j = t.get j) : t'.rows.Perm t.rows := by
  refine (List.perm_ext_iff_of_nodup t'.nodup.of_map t.nodup.of_map).mpr ?_
  rintro ⟨j, r⟩
  rw [mem_rows, mem_rows, h]

/-- The rows of a table, with the one under `i` first. -/
theorem rows_perm_get (t : Table ρ) (i : Int) :
    t.rows.Perm (((t.get i).map (Prod.mk i)).toList ++ t.rows.filter fun p => p.1 ≠ i) := by
  have hself : t.rows.Perm (t.write i (t.get i)).rows := by
    refine (rows_perm fun j => ?_).symm
    rw [get_write]
    split
    · next hj => rw [hj]
    · rfl
  exact hself.trans List.perm_append_comm

/-- Sum over a table after one row was written. -/
theorem sum_write (weight : ρ → Int) (t : Table ρ) (i : Int) (v : Option ρ) :
    ((t.write i v).rows.map fun p => weight p.2).sum =
      (t.rows.map fun p => weight p.2).sum - ((t.get i).map weight).getD 0 +
        (v.map weight).getD 0 := by
  have hold := ((t.rows_perm_get i).map fun p => weight p.2).sum_eq
  rw [List.map_append, List.sum_append] at hold
  have hnew : ((t.write i v).rows.map fun p => weight p.2).sum =
      ((t.rows.filter fun p => p.1 ≠ i).map fun p => weight p.2).sum + (v.map weight).getD 0 := by
    unfold write
    rw [List.map_append, List.sum_append]
    cases v <;> simp
  have hget : ((((t.get i).map (Prod.mk i)).toList).map fun p => weight p.2).sum =
      ((t.get i).map weight).getD 0 := by
    cases t.get i <;> simp
  rw [hnew, hold, hget]
  omega

/-! ## A version laid over -/

def overlay (t : Table ρ) : Option (Version ρ) → Table ρ
  | none => t
  | some v => t.write v.1 v.2

@[simp] theorem overlay_none : t.overlay none = t := rfl

theorem get_overlay_some (t : Table ρ) (v : Version ρ) (j : Int) :
    (t.overlay (some v)).get j = if j = v.1 then v.2 else t.get j := get_write

theorem get_overlay_congr (h : ∀ j, t'.get j = t.get j) (o : Option (Version ρ)) (j : Int) :
    (t'.overlay o).get j = (t.overlay o).get j := by
  cases o with
  | none => exact h j
  | some v => rw [get_overlay_some, get_overlay_some, h]

/-- Versions of different rows can be laid over in either order. -/
theorem get_overlay_comm {a b : Version ρ} (h : a.1 ≠ b.1) (j : Int) :
    ((t.overlay (some a)).overlay (some b)).get j =
      ((t.overlay (some b)).overlay (some a)).get j := by
  rw [get_overlay_some, get_overlay_some, get_overlay_some, get_overlay_some]
  by_cases ha : j = a.1
  · rw [if_pos ha, if_pos ha, if_neg fun hb => h (ha.symm.trans hb)]
  · rw [if_neg ha, if_neg ha]

end Table

/-! ## Statements -/

namespace RowWrite

variable {ρ ε : Type} [Merge ρ] [DecidableEq ρ] {key now : Int} {stale : ε} {t t' : Table ρ}
  {w : RowWrite ρ} {o : Option (Version ρ)}

/-- The version a statement leaves, if it matches a row; a new row gets the key `key`. -/
def run (key now : Int) (stale : ε) (t : Table ρ) : RowWrite ρ → Except ε (Option (Version ρ))
  | .insert row => .ok (some (key, some row))
  | .update i old new =>
    if new = old then .ok none
    else
      match t.get i with
      | some cur => .ok (some (i, some (stamp now (merge old new cur))))
      | none => .error stale
  | .delete i => .ok ((t.get i).map fun _ => (i, none))

section
variable {i : Int} {old new row : ρ}

@[simp] theorem run_insert : (insert row).run key now stale t = .ok (some (key, some row)) := rfl

@[simp] theorem run_delete :
    (delete i : RowWrite ρ).run key now stale t = .ok ((t.get i).map fun _ => (i, none)) := rfl

theorem run_update_same : (update i old old).run key now stale t = .ok none := if_pos rfl

theorem run_update_eq_ok (hno : new ≠ old) : (update i old new).run key now stale t = .ok o ↔
    ∃ cur, t.get i = some cur ∧ o = some (i, some (stamp now (merge old new cur))) := by
  rw [run, if_neg hno]
  rcases t.get i with _ | cur
  · simp
  · simp [eq_comm]

/-- What leaves a version has found a row and changes it. -/
theorem run_update_eq_some {v : Version ρ} :
    (update i old new).run key now stale t = .ok (some v) ↔
      new ≠ old ∧ ∃ cur, t.get i = some cur ∧ v = (i, some (stamp now (merge old new cur))) := by
  by_cases hno : new = old
  · subst hno
    rw [run_update_same]
    simp
  · rw [run_update_eq_ok hno]
    simp [hno]

theorem run_delete_eq_some {v : Version ρ} :
    (delete i : RowWrite ρ).run key now stale t = .ok (some v) ↔
      (t.get i).isSome ∧ v = (i, none) := by
  rw [run_delete]
  rcases t.get i with _ | cur
  · simp
  · simp [eq_comm]

theorem exists_run_update (hget : t.get i = some old) :
    ∃ o, (update i old new).run key now stale t = .ok o := by
  by_cases hno : new = old
  · exact ⟨none, hno ▸ run_update_same⟩
  · exact ⟨_, (run_update_eq_ok hno).mpr ⟨old, hget, rfl⟩⟩

/-- Over the row that was loaded, an `UPDATE` leaves what it was told to. -/
theorem get_overlay_run_update (h : (update i old new).run key now stale t = .ok o)
    (hget : t.get i = some old) (hstamp : stamp now new = new) (j : Int) :
    (t.overlay o).get j = if j = i then some new else t.get j := by
  by_cases hno : new = old
  · subst hno
    rw [run_update_same, Except.ok.injEq] at h
    rw [← h, Table.overlay_none]
    split
    · next hj => rw [hj, hget]
    · rfl
  · obtain ⟨cur, hcur, rfl⟩ := (run_update_eq_ok hno).mp h
    rw [hget, Option.some.injEq] at hcur
    rw [Table.get_overlay_some, ← hcur, merge_loaded, hstamp]

end

/-- A statement that is run and laid over is a statement that is applied. -/
theorem run_apply (h : w.run t.next now stale t = .ok o) :
    ∃ t', w.apply now stale t = .ok t' ∧ ∀ j, t'.get j = (t.overlay o).get j := by
  cases w with
  | insert row =>
    rw [run_insert, Except.ok.injEq] at h
    subst h
    refine ⟨t.insert row, rfl, fun j => ?_⟩
    rw [Table.get_insert, Table.get_overlay_some]
  | update i old new =>
    by_cases hno : new = old
    · subst hno
      rw [run_update_same, Except.ok.injEq] at h
      subst h
      exact ⟨t, if_pos rfl, fun _ => rfl⟩
    · obtain ⟨cur, hcur, rfl⟩ := (run_update_eq_ok hno).mp h
      refine ⟨t.update i fun cur => stamp now (merge old new cur), ?_, fun j => ?_⟩
      · rw [apply, if_neg hno, if_pos (by rw [hcur]; rfl)]
      · rw [Table.get_update, Table.get_overlay_some]
        split
        · next hj => rw [hj, hcur, Option.map_some]
        · rfl
  | delete i =>
    rw [run_delete, Except.ok.injEq] at h
    subst h
    refine ⟨t.delete i, rfl, fun j => ?_⟩
    rw [Table.get_delete]
    rcases hi : t.get i with _ | row
    · rw [Option.map_none, Table.overlay_none]
      split
      · next hj => rw [hj, hi]
      · rfl
    · rw [Option.map_some, Table.get_overlay_some]

end RowWrite

end Biztrip.Lib
