import Biztrip.Lib.Guard
import Biztrip.Lib.Patch
import Biztrip.Lib.Table

/-!
# Writing rows back

A request that has loaded some rows leaves three kinds of statements behind:
`INSERT` of a new row, `UPDATE` of a loaded row by its primary key and `DELETE`
by primary key. An `UPDATE` names only the columns that changed; if none did,
no statement is sent, and if the row is gone by then the request fails. A
`DELETE` that matches no row does nothing.

`WrittenBack` says what an `UPDATE` leaves of any table, and `Updated` what it
leaves of one that still holds the row that was loaded. `Descends` and `Retains`
relate a table to one that statements have made of it, and `UniqueOn` is what a check
before each `INSERT` keeps up.
-/

namespace Biztrip.Lib

inductive RowWrite (ρ : Type) where
  | insert (row : ρ)
  | update (id : Int) (old new : ρ)
  | delete (id : Int)

namespace RowWrite

/-- The row a statement computes. -/
def row? {ρ : Type} : RowWrite ρ → Option ρ
  | .insert row => some row
  | .update _ _ new => some new
  | .delete _ => none

variable {ρ ε : Type} [Merge ρ] [DecidableEq ρ]

def apply (now : Int) (stale : ε) (t : Table ρ) : RowWrite ρ → Except ε (Table ρ)
  | .insert row => .ok (t.insert row)
  | .update i old new =>
    if new = old then .ok t
    else if (t.get i).isSome then .ok (t.update i fun cur => stamp now (merge old new cur))
    else .error stale
  | .delete i => .ok (t.delete i)

variable {now : Int} {stale : ε} {t t' : Table ρ} {i : Int} {old new row : ρ}

@[simp] theorem apply_insert : (insert row).apply now stale t = .ok (t.insert row) := rfl

@[simp] theorem apply_delete : (delete i : RowWrite ρ).apply now stale t = .ok (t.delete i) := rfl

theorem apply_update_eq_ok : (update i old new).apply now stale t = .ok t' ↔
    (new = old ∧ t' = t) ∨ (new ≠ old ∧ (t.get i).isSome ∧
      t' = t.update i fun cur => stamp now (merge old new cur)) := by
  by_cases hno : new = old
  · rw [apply, if_pos hno, Except.ok.injEq, eq_comm (a := t)]
    simp [hno]
  · rw [apply, if_neg hno]
    split
    · next hi =>
      rw [Except.ok.injEq, eq_comm]
      simp [hno, hi]
    · next hi => simp [hno, hi]

/-- The only failure: the row of an `UPDATE` is gone. -/
theorem eq_of_apply_eq_error {w : RowWrite ρ} {e : ε} (h : w.apply now stale t = .error e) :
    e = stale := by
  cases w with
  | insert row => cases h
  | delete i => cases h
  | update i old new =>
    rw [apply] at h
    split at h
    · cases h
    · split at h
      · cases h
      · exact (Except.error.inj h).symm

/-- The key of the row a statement is about. -/
def key (t : Table ρ) : RowWrite ρ → Int
  | .insert _ => t.next
  | .update i _ _ => i
  | .delete i => i

theorem get_of_ne {w : RowWrite ρ} (h : w.apply now stale t = .ok t') {j : Int}
    (hj : j ≠ w.key t) : t'.get j = t.get j := by
  cases w with
  | insert row =>
    rw [apply_insert, Except.ok.injEq] at h
    rw [← h, Table.get_insert]
    exact if_neg hj
  | update i old new =>
    rcases apply_update_eq_ok.mp h with ⟨-, rfl⟩ | ⟨-, -, rfl⟩
    · rfl
    · rw [Table.get_update]
      exact if_neg hj
  | delete i =>
    rw [apply_delete, Except.ok.injEq] at h
    rw [← h, Table.get_delete]
    exact if_neg hj

/-- The key that a statement names. -/
def target : RowWrite ρ → Option Int
  | .insert _ => none
  | .update i _ _ => some i
  | .delete i => some i

/-- A row that a statement does not name is still there. -/
theorem get_of_not_target {w : RowWrite ρ} (h : w.apply now stale t = .ok t') {j : Int}
    (hj : w.target ≠ some j) (hrow : t.get j = some row) : t'.get j = some row := by
  cases w with
  | insert new =>
    rw [apply_insert, Except.ok.injEq] at h
    rw [← h, Table.get_insert_of_some hrow]
  | update i old new | delete i =>
    rw [get_of_ne h fun he => hj (congrArg some he.symm), hrow]

/-- No statement takes a key back. -/
theorem next_le {w : RowWrite ρ} (h : w.apply now stale t = .ok t') : t.next ≤ t'.next := by
  cases w with
  | insert row =>
    rw [apply_insert, Except.ok.injEq] at h
    rw [← h, Table.next_insert]
    omega
  | update i old new => rcases apply_update_eq_ok.mp h with ⟨-, rfl⟩ | ⟨-, -, rfl⟩ <;> simp
  | delete i =>
    rw [apply_delete, Except.ok.injEq] at h
    have hnext : t'.next = t.next := by rw [← h, Table.next_delete]
    omega

/-- Writing back over the loaded row leaves the computed row, up to its stamp. -/
theorem apply_update_loaded (h : t.get i = some old) :
    ∃ f at₀, (update i old new).apply now stale t = .ok (t.update i f) ∧
      f old = stamp at₀ new := by
  by_cases hno : new = old
  · obtain ⟨at₀, hat⟩ := exists_stamp old
    refine ⟨id, at₀, ?_, ?_⟩
    · rw [apply, if_pos hno, Table.update_eq_self (f := id) fun _ _ => rfl]
    · rw [hno, hat]
      rfl
  · refine ⟨fun cur => stamp now (merge old new cur), now, ?_, ?_⟩
    · rw [apply, if_neg hno, if_pos (by simp [h])]
    · simp

/-- The row it leaves is stamped if a statement was sent. -/
theorem get_of_apply_update (h : t.get i = some old)
    (ha : (update i old new).apply now stale t = .ok t') :
    t'.get i = some (if new = old then new else stamp now new) := by
  rcases apply_update_eq_ok.mp ha with ⟨hno, rfl⟩ | ⟨hno, -, rfl⟩
  · rw [if_pos hno, h, hno]
  · rw [if_neg hno, Table.get_update, if_pos rfl, h, Option.map_some, merge_loaded]

end RowWrite

/-! ## Serial write-backs -/

/-- `t'` is `t` with `new`, up to its stamp, under `i`. -/
def Updated {ρ : Type} [Merge ρ] (t t' : Table ρ) (i : Int) (new : ρ) : Prop :=
  ∃ at₀, ∀ j, t'.get j = if j = i then some (stamp at₀ new) else t.get j

section
variable {ρ ε : Type} [Merge ρ] {t t' : Table ρ} {i j : Int} {old new row : ρ}

/-- `t'` is `t` with what changed from `old` to `new` written over whatever row is under `i`. -/
def WrittenBack {ρ : Type} [Merge ρ] (t t' : Table ρ) (i : Int) (old new : ρ) : Prop :=
  ∃ at₀, ∀ j, t'.get j =
    if j = i then (t.get j).map fun cur => stamp at₀ (merge old new cur) else t.get j

theorem writtenBack_of_apply [DecidableEq ρ] {now : Int} {stale : ε}
    (h : (RowWrite.update i old new).apply now stale t = .ok t') : WrittenBack t t' i old new := by
  rcases RowWrite.apply_update_eq_ok.mp h with ⟨rfl, rfl⟩ | ⟨-, -, rfl⟩
  · rcases hi : t'.get i with _ | cur
    · refine ⟨0, fun j => ?_⟩
      split
      · next hj => rw [hj, hi, Option.map_none]
      · rfl
    · obtain ⟨at₀, hat⟩ := exists_stamp cur
      refine ⟨at₀, fun j => ?_⟩
      split
      · next hj => rw [hj, hi, Option.map_some, merge_same, hat]
      · rfl
  · exact ⟨now, fun j => Table.get_update ..⟩

theorem WrittenBack.get_of_ne (h : WrittenBack t t' i old new) (hj : j ≠ i) :
    t'.get j = t.get j := by
  obtain ⟨at₀, hget⟩ := h
  rw [hget, if_neg hj]

theorem WrittenBack.get_self (h : WrittenBack t t' i old new) (hi : t.get i = some row) :
    ∃ at₀, t'.get i = some (stamp at₀ (merge old new row)) := by
  obtain ⟨at₀, hget⟩ := h
  exact ⟨at₀, by rw [hget, if_pos rfl, hi, Option.map_some]⟩

/-- A row read afterwards is the one written over or an untouched one. -/
theorem WrittenBack.cases (h : WrittenBack t t' i old new) (hj : t'.get j = some row) :
    (j = i ∧ ∃ cur at₀, t.get i = some cur ∧ row = stamp at₀ (merge old new cur)) ∨
      (j ≠ i ∧ t.get j = some row) := by
  obtain ⟨at₀, hget⟩ := h
  rw [hget] at hj
  split at hj
  · next hji =>
    obtain ⟨cur, hcur, rfl⟩ := Option.map_eq_some_iff.mp hj
    exact .inl ⟨hji, cur, at₀, hji ▸ hcur, rfl⟩
  · next hji => exact .inr ⟨hji, hj⟩

theorem updated_of_apply [DecidableEq ρ] {now : Int} {stale : ε} (h : t.get i = some old)
    (ha : (RowWrite.update i old new).apply now stale t = .ok t') : Updated t t' i new := by
  obtain ⟨at₀, hget⟩ := writtenBack_of_apply ha
  refine ⟨at₀, fun j => ?_⟩
  rw [hget]
  split
  · next hj => rw [hj, h, Option.map_some, merge_loaded]
  · rfl

/-- An `UPDATE` of a statement finds the row it loaded. -/
def RowWrite.Loaded (t : Table ρ) : RowWrite ρ → Prop
  | .update i old _ => t.get i = some old
  | _ => True

theorem Updated.get_self (h : Updated t t' i new) : ∃ at₀, t'.get i = some (stamp at₀ new) := by
  obtain ⟨at₀, hget⟩ := h
  exact ⟨at₀, by rw [hget, if_pos rfl]⟩

theorem Updated.get_of_ne (h : Updated t t' i new) (hj : j ≠ i) : t'.get j = t.get j := by
  obtain ⟨at₀, hget⟩ := h
  rw [hget, if_neg hj]

/-- A row read afterwards is the one written or an untouched one. -/
theorem Updated.cases (h : Updated t t' i new) (hj : t'.get j = some row) :
    (j = i ∧ ∃ at₀, row = stamp at₀ new) ∨ (j ≠ i ∧ t.get j = some row) := by
  obtain ⟨at₀, hget⟩ := h
  rw [hget] at hj
  split at hj
  · next hji =>
    rw [Option.some.injEq] at hj
    exact .inl ⟨hji, at₀, hj.symm⟩
  · next hji => exact .inr ⟨hji, hj⟩

section
variable [DecidableEq ρ] {now : Int} {stale : ε} {w : RowWrite ρ}

/-- A row read after a statement was there before or is the one computed. -/
theorem RowWrite.Loaded.cases (hw : w.Loaded t) (ha : w.apply now stale t = .ok t')
    (hj : t'.get j = some row) :
    t.get j = some row ∨ ∃ new at₀, w.row? = some new ∧ row = stamp at₀ new := by
  cases w with
  | insert new =>
    rw [apply_insert, Except.ok.injEq] at ha
    subst ha
    rcases Table.get_insert_eq_some hj with ⟨-, rfl⟩ | ⟨-, hj⟩
    · obtain ⟨at₀, hat⟩ := exists_stamp row
      exact .inr ⟨row, at₀, rfl, hat.symm⟩
    · exact .inl hj
  | update i old new =>
    rcases (updated_of_apply hw ha).cases hj with ⟨-, at₀, rfl⟩ | ⟨-, hj⟩
    · exact .inr ⟨new, at₀, rfl, rfl⟩
    · exact .inl hj
  | delete i =>
    rw [apply_delete, Except.ok.injEq] at ha
    subst ha
    exact .inl (Table.get_delete_eq_some hj).2

/-- The row a statement computes, with its key. -/
def RowWrite.keyed (t : Table ρ) (w : RowWrite ρ) : Option (Int × ρ) :=
  w.row?.map fun row => (w.key t, row)

section
omit [DecidableEq ρ]

omit [Merge ρ] in
@[simp] theorem RowWrite.keyed_insert : (insert row).keyed t = some (t.next, row) := rfl

omit [Merge ρ] in
@[simp] theorem RowWrite.keyed_update : (update i old new).keyed t = some (i, new) := rfl

omit [Merge ρ] in
@[simp] theorem RowWrite.keyed_delete : (delete i).keyed t = none := rfl

end

/-- Every row of `t'` was in `t` under its key or is one of `news`, up to its stamp. -/
def Drawn {ρ : Type} [Merge ρ] (t t' : Table ρ) (news : List (Int × ρ)) : Prop :=
  ∀ j row, t'.get j = some row →
    t.get j = some row ∨ ∃ new at₀, (j, new) ∈ news ∧ row = stamp at₀ new

omit [DecidableEq ρ] in
theorem Drawn.refl (t : Table ρ) : Drawn t t [] := fun _ _ hj => .inl hj

omit [DecidableEq ρ] in
/-- A condition on single rows holds afterwards if it held before and of the new rows. -/
theorem Drawn.forall {K : Int → ρ → Prop} {news : List (Int × ρ)}
    (hK : ∀ at₀ j r, K j r → K j (stamp at₀ r)) (h : Drawn t t' news)
    (hold : ∀ j r, t.get j = some r → K j r) (hnew : ∀ p ∈ news, K p.1 p.2) :
    ∀ j r, t'.get j = some r → K j r := by
  intro j r hj
  rcases h j r hj with hj | ⟨new, at₀, hmem, rfl⟩
  · exact hold j r hj
  · exact hK at₀ j new (hnew _ hmem)

theorem RowWrite.Loaded.drawn (hw : w.Loaded t) (ha : w.apply now stale t = .ok t') :
    Drawn t t' (w.keyed t).toList := by
  intro j row hj
  cases w with
  | insert new =>
    rw [apply_insert, Except.ok.injEq] at ha
    subst ha
    rcases Table.get_insert_eq_some hj with ⟨rfl, rfl⟩ | ⟨-, hj⟩
    · obtain ⟨at₀, hat⟩ := exists_stamp row
      exact .inr ⟨row, at₀, List.mem_singleton.mpr rfl, hat.symm⟩
    · exact .inl hj
  | update i old new =>
    rcases (updated_of_apply hw ha).cases hj with ⟨rfl, at₀, rfl⟩ | ⟨-, hj⟩
    · exact .inr ⟨new, at₀, List.mem_singleton.mpr rfl, rfl⟩
    · exact .inl hj
  | delete i =>
    rw [apply_delete, Except.ok.injEq] at ha
    subst ha
    exact .inl (Table.get_delete_eq_some hj).2

/-- The row computed is there afterwards. -/
theorem RowWrite.Loaded.exists_get (hw : w.Loaded t) (ha : w.apply now stale t = .ok t')
    (hnew : w.row? = some new) : ∃ j at₀, t'.get j = some (stamp at₀ new) := by
  cases w with
  | insert row =>
    rw [apply_insert, Except.ok.injEq] at ha
    cases hnew
    subst ha
    obtain ⟨at₀, hat⟩ := exists_stamp new
    exact ⟨t.next, at₀, by rw [Table.get_insert_next, hat]⟩
  | update i old row =>
    cases hnew
    obtain ⟨at₀, hget⟩ := (updated_of_apply hw ha).get_self
    exact ⟨i, at₀, hget⟩
  | delete i => cases hnew

/-- A condition on single rows is kept exactly by the statements that compute such a row. -/
theorem RowWrite.Loaded.forall_iff {K : ρ → Prop} (hK : ∀ at₀ r, K (stamp at₀ r) ↔ K r)
    (hw : w.Loaded t) (ha : w.apply now stale t = .ok t') (h : ∀ j r, t.get j = some r → K r) :
    (∀ j r, t'.get j = some r → K r) ↔ ∀ new, w.row? = some new → K new := by
  constructor
  · intro hall new hnew
    obtain ⟨j, at₀, hj⟩ := hw.exists_get ha hnew
    exact (hK at₀ new).mp (hall j _ hj)
  · intro hnew j r hj
    rcases hw.cases ha hj with hj | ⟨new, at₀, hrow, rfl⟩
    · exact h j r hj
    · exact (hK at₀ new).mpr (hnew new hrow)

end

end

/-! ## Lineage -/

/-- A column that is written back only if it was changed. -/
structure Follows {ρ β : Type} [Merge ρ] (column : ρ → β) : Prop where
  merge : ∀ {old new : ρ}, column new = column old → ∀ cur, column (merge old new cur) = column cur
  stamp : ∀ at₀ r, column (stamp at₀ r) = column r

/-- Under the keys of `t`, the rows of `t'` come from the rows of `t`: they have kept `column`, and
no key has been given out again. -/
structure Descends {ρ β : Type} (column : ρ → β) (t t' : Table ρ) : Prop where
  next : t.next ≤ t'.next
  row : ∀ {k r'}, k < t.next → t'.get k = some r' → ∃ r, t.get k = some r ∧ column r' = column r

/-- Every row of `t` is still there in `t'` and has kept `column`. -/
def Retains {ρ β : Type} (column : ρ → β) (t t' : Table ρ) : Prop :=
  ∀ k r, t.get k = some r → ∃ r', t'.get k = some r' ∧ column r' = column r

section
variable {ρ β ε : Type} {column : ρ → β} {a b c t t' : Table ρ}

theorem Descends.refl (t : Table ρ) : Descends column t t :=
  ⟨Int.le_refl _, fun _ hk => ⟨_, hk, rfl⟩⟩

theorem Descends.trans (h : Descends column a b) (h' : Descends column b c) :
    Descends column a c := by
  refine ⟨Int.le_trans h.next h'.next, fun hk hr => ?_⟩
  obtain ⟨r, hr, hcol⟩ := h'.row (Int.lt_of_lt_of_le hk h.next) hr
  obtain ⟨r₀, hr₀, hcol₀⟩ := h.row hk hr
  exact ⟨r₀, hr₀, hcol.trans hcol₀⟩

theorem Descends.column_eq {k : Int} {r r' : ρ} (h : Descends column t t') (hr : t.get k = some r)
    (hr' : t'.get k = some r') : column r' = column r := by
  obtain ⟨r₀, hr₀, hcol⟩ := h.row (Table.get_lt_next hr) hr'
  rw [hr, Option.some.injEq] at hr₀
  rw [hcol, hr₀]

theorem Retains.refl (t : Table ρ) : Retains column t t := fun _ _ hk => ⟨_, hk, rfl⟩

theorem Retains.trans (h : Retains column a b) (h' : Retains column b c) : Retains column a c := by
  intro k r hr
  obtain ⟨r', hr', hcol⟩ := h k r hr
  obtain ⟨r'', hr'', hcol'⟩ := h' k r' hr'
  exact ⟨r'', hr'', hcol'.trans hcol⟩

theorem Retains.insert (t : Table ρ) (r : ρ) : Retains column t (t.insert r) :=
  fun _ _ hk => ⟨_, Table.get_insert_of_some hk, rfl⟩

variable [Merge ρ] {i : Int} {old new : ρ}

theorem Retains.of_writtenBack (hf : Follows column) (hcol : column new = column old)
    (h : WrittenBack t t' i old new) : Retains column t t' := by
  intro k r hr
  by_cases hk : k = i
  · subst hk
    obtain ⟨at₀, hget⟩ := h.get_self hr
    exact ⟨_, hget, (hf.stamp _ _).trans (hf.merge hcol _)⟩
  · exact ⟨r, (h.get_of_ne hk).trans hr, rfl⟩

/-- Every statement leaves descendants, as long as an `UPDATE` has not changed the column. -/
theorem Descends.of_apply [DecidableEq ρ] {now : Int} {stale : ε} {w : RowWrite ρ}
    (hf : Follows column) (hcol : ∀ i old new, w = .update i old new → column new = column old)
    (h : w.apply now stale t = .ok t') : Descends column t t' := by
  refine ⟨RowWrite.next_le h, fun hk hr => ?_⟩
  cases w with
  | insert row =>
    rw [RowWrite.apply_insert, Except.ok.injEq] at h
    subst h
    rcases Table.get_insert_eq_some hr with ⟨rfl, -⟩ | ⟨-, hr⟩
    · exact absurd hk (Int.lt_irrefl _)
    · exact ⟨_, hr, rfl⟩
  | update i old new =>
    rcases (writtenBack_of_apply h).cases hr with ⟨rfl, cur, at₀, hcur, rfl⟩ | ⟨-, hr⟩
    · exact ⟨cur, hcur, (hf.stamp _ _).trans (hf.merge (hcol _ old new rfl) _)⟩
    · exact ⟨_, hr, rfl⟩
  | delete i =>
    rw [RowWrite.apply_delete, Except.ok.injEq] at h
    subst h
    exact ⟨_, (Table.get_delete_eq_some hr).2, rfl⟩

end

/-! ## Unique keys -/

/-- No two rows have the same key, where it is not null. -/
def UniqueOn {ρ κ : Type} (key : ρ → Option κ) (t : Table ρ) : Prop :=
  ∀ i j a b v, t.get i = some a → t.get j = some b → key a = some v → key b = some v → i = j

section
variable {ρ κ β ε : Type} {key : ρ → Option κ} {column : ρ → β} {t t' : Table ρ}

/-- Rows that come from rows with unique keys, and keep them, have unique keys. -/
theorem UniqueOn.of_descends (h : UniqueOn key t)
    (hkey : ∀ a b, column a = column b → key a = key b) (hd : Descends column t t')
    (hnext : t'.next = t.next) : UniqueOn key t' := by
  have hold : ∀ {k r'}, t'.get k = some r' → ∃ r, t.get k = some r ∧ key r' = key r := by
    intro k r' hk
    obtain ⟨r, hr, hcol⟩ := hd.row (hnext ▸ Table.get_lt_next hk) hk
    exact ⟨r, hr, hkey _ _ hcol⟩
  intro i j a b v hi hj ha hb
  obtain ⟨a₀, ha₀, hkeya⟩ := hold hi
  obtain ⟨b₀, hb₀, hkeyb⟩ := hold hj
  exact h i j a₀ b₀ v ha₀ hb₀ (hkeya ▸ ha) (hkeyb ▸ hb)

/-- A statement keeps the keys unique if it inserts no key that is there and changes none. -/
theorem UniqueOn.of_apply [Merge ρ] [DecidableEq ρ] {now : Int} {stale : ε} {w : RowWrite ρ}
    (h : UniqueOn key t) (hkey : ∀ a b, column a = column b → key a = key b)
    (hf : Follows column) (hcol : ∀ i old new, w = .update i old new → column new = column old)
    (hfree : ∀ r, w = .insert r → ∀ v, key r = some v → ∀ i a, t.get i = some a → key a ≠ some v)
    (happly : w.apply now stale t = .ok t') : UniqueOn key t' := by
  have hd := Descends.of_apply hf hcol happly
  cases w with
  | insert r =>
    rw [RowWrite.apply_insert, Except.ok.injEq] at happly
    subst happly
    intro i j a b v hi hj ha hb
    rcases Table.get_insert_eq_some hi with ⟨rfl, rfl⟩ | ⟨-, hi'⟩
    · rcases Table.get_insert_eq_some hj with ⟨rfl, -⟩ | ⟨-, hj'⟩
      · rfl
      · exact absurd hb (hfree _ rfl v ha j b hj')
    · rcases Table.get_insert_eq_some hj with ⟨rfl, rfl⟩ | ⟨-, hj'⟩
      · exact absurd ha (hfree _ rfl v hb i a hi')
      · exact h i j a b v hi' hj' ha hb
  | update i old new =>
    refine h.of_descends hkey hd ?_
    rcases RowWrite.apply_update_eq_ok.mp happly with ⟨-, rfl⟩ | ⟨-, -, rfl⟩ <;> rfl
  | delete i =>
    refine h.of_descends hkey hd ?_
    rw [RowWrite.apply_delete, Except.ok.injEq] at happly
    rw [← happly, Table.next_delete]

end

end Biztrip.Lib
