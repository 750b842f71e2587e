import Biztrip.Desk.Totals

/-!
# Partial updates and how they end

The nine operations behind a PATCH route, each with the checks it makes before
it writes a field (`Patch.guards …`) and the fields it then finds writable. All
nine copy the fields that were sent onto the row; a null for a column that is
not null, or a value the column cannot carry, is met by the flush and not by a
check, and ends in an internal error.

`Answered` is the law, a success or an application error, and `RefusedOr` the
shape of its proof: checks that refuse with an application error, or that pass
and leave a condition on what they loaded.
-/

namespace Biztrip.Patches

open Biztrip.Lib Codes Admin

/-! ## Outcomes -/

/-- A success or an application error. -/
def Answered {α : Type} (x : Result α) : Prop := (∃ v, x = .ok v) ∨ ∃ a, x = .error (.app a)

/-- The checks refuse with an application error, or they pass and `P` holds of what they loaded. -/
def RefusedOr {α : Type} (x : Result α) (P : α → Prop) : Prop :=
  (∃ a, x = .error (.app a)) ∨ ∃ v, x = .ok v ∧ P v

section
variable {α β : Type} {x : Result α} {f : α → Result β} {P Q : α → Prop}

theorem answered_bind : Answered (x >>= f) ↔ RefusedOr x fun v => Answered (f v) := by
  unfold Answered RefusedOr
  cases x <;> simp

theorem refusedOr_bind {P : β → Prop} :
    RefusedOr (x >>= f) P ↔ RefusedOr x fun v => RefusedOr (f v) P := by
  unfold RefusedOr
  cases x <;> simp

@[simp] theorem refusedOr_ok {v : α} : RefusedOr (.ok v) P ↔ P v := by simp [RefusedOr]

@[simp] theorem refusedOr_error {e : Fault} :
    RefusedOr (.error e : Result α) P ↔ ∃ a, e = .app a := by
  simp [RefusedOr]

@[simp] theorem answered_ok {v : α} : Answered (.ok v) := .inl ⟨v, rfl⟩

theorem refusedOr_congr (h : ∀ v, x = .ok v → (P v ↔ Q v)) : RefusedOr x P ↔ RefusedOr x Q := by
  unfold RefusedOr
  refine or_congr Iff.rfl (exists_congr fun v => and_congr_right fun hv => h v hv)

/-- A guard that can only refuse. -/
theorem refusedOr_guardE {p : Prop} [Decidable p] {a : AppError} {P : Unit → Prop} :
    RefusedOr (guardE p (.app a)) P ↔ (p → P ()) := by
  unfold guardE
  split <;> simp_all

/-- Not an application error. -/
abbrev Internal (e : Fault) : Prop := ∀ a, e ≠ .app a

/-- A computation that cannot refuse has to succeed. -/
theorem refusedOr_of_raises (h : Raises x Internal) : RefusedOr x P ↔ ∃ v, x = .ok v ∧ P v := by
  refine or_iff_right ?_
  rintro ⟨a, ha⟩
  exact h _ ha a rfl

theorem answered_bind_ok {v : β} (h : Raises x Internal) :
    Answered (x >>= fun _ => (.ok v : Result β)) ↔ ∃ out, x = .ok out := by
  rw [answered_bind, refusedOr_of_raises h]
  simp

end

/-! ## The nine operations -/

inductive Patch where
  | trip (userId tripId : Int) (payload : TripUpdate)
  | report (userId reportId : Int) (payload : ExpenseReportUpdate)
  | item (userId itemId : Int) (payload : ExpenseItemUpdate)
  | user (actorId userId : Int) (payload : AdminUserUpdate)
  | department (departmentId : Int) (payload : DepartmentUpdate)
  | codeGroup (groupId : Int) (payload : CodeGroupUpdate)
  | code (codeId : Int) (payload : CodeUpdate)
  | center (kind : CenterKind) (centerId : Int) (payload : CenterUpdate)
  | card (cardId : Int) (payload : AdminCardUpdate)

namespace Patch

def call : Patch → Call
  | .trip userId tripId payload => .desk userId (.trip (.update tripId payload))
  | .report userId reportId payload => .desk userId (.expense (.update reportId payload))
  | .item userId itemId payload => .desk userId (.expense (.updateItem itemId payload))
  | .user actorId userId payload => .account (.update actorId userId payload)
  | .department departmentId payload => .master (.updateDepartment departmentId payload)
  | .codeGroup groupId payload => .code (.updateGroup groupId payload)
  | .code codeId payload => .code (.update codeId payload)
  | .center kind centerId payload => .master (.updateCenter kind centerId payload)
  | .card cardId payload => .master (.updateCard cardId payload)

/-- The reply, built from the committed rows. Only a code's `extra` can fail its schema. -/
def reply (s : Store) : Patch → Result Unit
  | .codeGroup groupId _ => do
    let group ← getE (s.codeGroups.get groupId) .staleData
    let _ ← CodeMaster.toOut s groupId group
    return ()
  | .code codeId _ => do
    let code ← getE (s.codes.get codeId) .staleData
    let _ ← CodeMaster.toCodeOut codeId code
    return ()
  | _ => .ok ()

/-- What the caller is answered, and the committed store afterwards. -/
def run (sec : Security) (s : Store) (env : Env) (patch : Patch) : Result Unit × Store :=
  match (system sec).step s ⟨env, patch.call⟩ with
  | .error e => (.error e, s)
  | .ok s' => (patch.reply s', s')

/-- The operation succeeds, or it is refused with a status in the 400s and nothing has changed. -/
def EndsWell (sec : Security) (s : Store) (env : Env) (patch : Patch) : Prop :=
  (patch.run sec s env).1 = .ok () ∨
    ∃ a, patch.run sec s env = (.error (.app a), s) ∧ 400 ≤ a.statusCode ∧ a.statusCode < 500

end Patch

theorem raises_toCodeOut (id : Int) (code : Code) :
    Raises (CodeMaster.toCodeOut id code) Internal := by
  refine raises_bind ?_ fun _ _ => raises_ok
  unfold asObject
  split
  · exact raises_ok
  · exact raises_error nofun

theorem raises_toOut (s : Store) (groupId : Int) (group : CodeGroup) :
    Raises (CodeMaster.toOut s groupId group) Internal := by
  refine raises_bind (fun e he => ?_) fun _ _ => raises_ok
  obtain ⟨p, -, hp⟩ := mem_of_mapE_eq_error he
  exact raises_toCodeOut _ _ e hp

namespace Patch

/-- A reply fails in its schema or not at all. -/
theorem raises_reply (s : Store) (patch : Patch) : Raises (patch.reply s) Internal := by
  cases patch with
  | codeGroup groupId payload =>
    refine raises_bind (raises_getE nofun) fun group _ => ?_
    exact raises_bind (raises_toOut _ _ _) fun _ _ => raises_ok
  | code codeId payload =>
    refine raises_bind (raises_getE nofun) fun code _ => ?_
    exact raises_bind (raises_toCodeOut _ _) fun _ _ => raises_ok
  | _ => exact raises_ok

theorem endsWell_iff {sec : Security} {s : Store} {env : Env} {patch : Patch} :
    patch.EndsWell sec s env ↔
      Answered ((system sec).step s ⟨env, patch.call⟩ >>= patch.reply) := by
  unfold EndsWell run
  rcases hstep : (system sec).step s ⟨env, patch.call⟩ with e | s'
  · simp [Answered, AppError.statusCode_bounds]
  · have := raises_reply s' patch
    rcases hreply : patch.reply s' with e | u
    · simp only [ok_bind, Answered, hreply, reduceCtorEq, exists_false, false_or, Prod.mk.injEq,
        Except.error.injEq]
      constructor
      · rintro ⟨a, ⟨rfl, -⟩, -⟩
        exact ⟨a, rfl⟩
      · rintro ⟨a, rfl⟩
        exact absurd rfl (this _ hreply a)
    · simp [Answered, hreply]

end Patch

end Biztrip.Patches
