/-!
# Partial updates

Two notions of changing some columns of a row.

`Sent` is one field of a partial update as it arrives: left out, explicitly
null, or a value. `setNullable` and `setRequired` write it over a stored column;
a column that admits no null refuses an explicit one.

`mergeCol old new cur` is one column of a row written back by primary key by a
request that loaded `old` and computed `new`: the column is in the statement
only if the request changed it, so whatever is committed by then (`cur`) stays
otherwise. `Merge` lifts this to a row type, with the laws that a request that
meets the row it loaded writes exactly the row it computed, and that one that
changed nothing writes nothing.
-/

namespace Biztrip.Lib

variable {α ε : Type}

inductive Sent (α : Type) where
  | absent
  | null
  | value (a : α)
  deriving DecidableEq, Repr

namespace Sent

/-- The value sent, if one was. -/
def val? : Sent α → Option α
  | .value a => some a
  | _ => none

def map {β : Type} (g : α → β) : Sent α → Sent β
  | .absent => .absent
  | .null => .null
  | .value a => .value (g a)

/-- The column after the update, where null is a legal value of it. -/
def setNullable (f : Sent α) (cur : Option α) : Option α :=
  match f with
  | .absent => cur
  | .null => none
  | .value a => some a

/-- The column after the update, where null is refused with `e`. -/
def setRequired (f : Sent α) (cur : α) (e : ε) : Except ε α :=
  match f with
  | .absent => .ok cur
  | .null => .error e
  | .value a => .ok a

/-- The column after the update, read where null stands for itself. -/
def onto (f : Sent α) (cur : α) : α :=
  match f with
  | .value a => a
  | _ => cur

/-- What is sent for a column that admits null, if anything. -/
def column? : Sent α → Option (Option α)
  | .absent => none
  | .null => some none
  | .value a => some (some a)

theorem setNullable_eq (f : Sent α) (cur : Option α) :
    f.setNullable cur = f.column?.getD cur := by
  cases f <;> rfl

theorem onto_eq (f : Sent α) (cur : α) : f.onto cur = f.val?.getD cur := by
  cases f <;> rfl

@[simp] theorem setRequired_eq_ok {f : Sent α} {cur a : α} {e : ε} :
    f.setRequired cur e = .ok a ↔ f ≠ .null ∧ f.onto cur = a := by
  cases f <;> simp [setRequired, onto]

@[simp] theorem setRequired_eq_error {f : Sent α} {cur : α} {e e' : ε} :
    f.setRequired cur e = .error e' ↔ f = .null ∧ e' = e := by
  cases f <;> simp [setRequired, eq_comm]

@[simp] theorem map_eq_null {β : Type} {g : α → β} {f : Sent α} : f.map g = .null ↔ f = .null := by
  cases f <;> simp [map]

@[simp] theorem val?_eq_some {f : Sent α} {a : α} : f.val? = some a ↔ f = .value a := by
  cases f <;> simp [val?]

end Sent

/-- The committed value of a column after a request that loaded `old` wrote back `new`. -/
def mergeCol [DecidableEq α] (old new cur : α) : α := if new = old then cur else new

section
variable [DecidableEq α] (old new cur : α)

@[simp] theorem mergeCol_same : mergeCol old old cur = cur := if_pos rfl

@[simp] theorem mergeCol_loaded : mergeCol old new old = new := by
  unfold mergeCol
  split <;> simp_all

theorem mergeCol_of_ne {old new : α} (h : new ≠ old) : mergeCol old new cur = new := if_neg h

theorem mergeCol_eq_or : mergeCol old new cur = cur ∨ mergeCol old new cur = new := by
  unfold mergeCol
  split
  · exact .inl rfl
  · exact .inr rfl

end

/-! ## Two requests on one column

Both have loaded `old`, and send `g` and `g'` for it, if anything. The one that sends `g` is the
first to write. -/

/-- What the other sends as it has loaded it, the first has not changed. -/
def Kept (old : α) (g g' : Option α) : Prop := ∀ v ∈ g', v = old → g.getD old = old

/-- Where both send something, the other has sent what it has loaded, or the same as the first. -/
def Yields (old : α) (g g' : Option α) : Prop := ∀ v ∈ g, ∀ v' ∈ g', v' = old ∨ v' = v

section
variable [DecidableEq α] {old : α} {g g' : Option α}

instance : Decidable (Kept old g g') := inferInstanceAs (Decidable (∀ v ∈ g', _))

instance : Decidable (Yields old g g') := inferInstanceAs (Decidable (∀ v ∈ g, _))

/-- The column is left as if the other had come second. -/
theorem Kept.mergeCol_eq (h : Kept old g g') :
    mergeCol old (g'.getD old) (g.getD old) = g'.getD (g.getD old) := by
  rcases g' with _ | v
  · exact mergeCol_same old _
  · by_cases hv : v = old
    · have hkept := h v rfl hv
      subst hv
      show mergeCol v v (g.getD v) = v
      rw [mergeCol_same, hkept]
    · exact mergeCol_of_ne _ hv

/-- The column is left as if the other had come first. -/
theorem Yields.mergeCol_eq (h : Yields old g g') :
    mergeCol old (g'.getD old) (g.getD old) = g.getD (g'.getD old) := by
  rcases g' with _ | v'
  · exact mergeCol_same old _
  · by_cases hv : v' = old
    · subst hv
      exact mergeCol_same v' _
    · rcases g with _ | v
      · exact mergeCol_of_ne _ hv
      · rw [Option.getD_some, Option.getD_some, Option.getD_some, mergeCol_of_ne _ hv]
        exact (h v rfl v' rfl).resolve_left hv

end

/-- Row types whose rows are written back column by column. `stamp` sets the columns the database
itself maintains on every `UPDATE`. -/
class Merge (ρ : Type) where
  merge : ρ → ρ → ρ → ρ
  merge_loaded : ∀ old new, merge old new old = new
  merge_same : ∀ old cur, merge old old cur = cur
  stamp : Int → ρ → ρ := fun _ r => r
  exists_stamp : ∀ r, ∃ at₀, stamp at₀ r = r := by exact fun _ => ⟨0, rfl⟩

export Merge (merge merge_loaded merge_same stamp exists_stamp)

attribute [simp] merge_loaded merge_same

end Biztrip.Lib
