import Mathlib.Data.List.Induction
import Mathlib.Tactic.ByContra

/-!
# Separation in an append-only log

`Separated P Q l`: between any two `P` entries of the log `l` stands a `Q`
entry. Appending keeps it unless the new entry is a `P` entry while the log is
`Pending` (it has a `P` entry after its last `Q` entry), which is what a state
machine writing such a log has to rule out.
-/

namespace Biztrip.Lib

variable {α : Type}

/-- Between any two `P` entries stands a `Q` entry. -/
def Separated (P Q : α → Prop) (l : List α) : Prop :=
  ∀ pre a mid b post, l = pre ++ a :: mid ++ b :: post → P a → P b → ∃ c ∈ mid, Q c

/-- There is a `P` entry after the last `Q` entry. -/
def Pending (P Q : α → Prop) (l : List α) : Prop :=
  ∃ pre a post, l = pre ++ a :: post ∧ P a ∧ ∀ c ∈ post, ¬ Q c

/-- An entry of an extended log is the new one or lies in the old log. -/
theorem snoc_eq_append_cons {l pre post : List α} {x a : α} (h : l ++ [x] = pre ++ a :: post) :
    (l = pre ∧ x = a ∧ post = []) ∨ ∃ post', post = post' ++ [x] ∧ l = pre ++ a :: post' := by
  induction post using List.reverseRecOn with
  | nil =>
    obtain ⟨h1, h2⟩ := List.append_inj' h rfl
    exact .inl ⟨h1, List.singleton_inj.mp h2, rfl⟩
  | append_singleton post' y _ =>
    have h' : l ++ [x] = (pre ++ a :: post') ++ [y] := by simpa using h
    obtain ⟨h1, h2⟩ := List.append_inj' h' rfl
    exact .inr ⟨post', by rw [List.singleton_inj.mp h2], h1⟩

variable {P Q : α → Prop} {l : List α} {x : α}

theorem separated_nil : Separated P Q [] := by
  intro pre a mid b post h
  simp at h

/-- Appending an entry keeps a log separated, unless it is a `P` entry of a pending log. -/
theorem Separated.snoc (h : Separated P Q l) (hx : P x → ¬ Pending P Q l) :
    Separated P Q (l ++ [x]) := by
  intro pre a mid b post he ha hb
  rcases snoc_eq_append_cons he with ⟨hl, rfl, -⟩ | ⟨post', -, hl⟩
  · by_contra hno
    exact hx hb ⟨pre, a, mid, hl, ha, fun c hc hq => hno ⟨c, hc, hq⟩⟩
  · exact h pre a mid b post' hl ha hb

/-- A `Q` entry settles the log. -/
theorem not_pending_snoc_of_mark (hq : Q x) (hp : ¬ P x) : ¬ Pending P Q (l ++ [x]) := by
  rintro ⟨pre, a, post, he, ha, hpost⟩
  rcases snoc_eq_append_cons he with ⟨-, rfl, -⟩ | ⟨post', rfl, -⟩
  · exact hp ha
  · exact hpost x (by simp) hq

/-- An entry that is no `P` entry leaves a settled log settled. -/
theorem not_pending_snoc_of_other (h : ¬ Pending P Q l) (hp : ¬ P x) :
    ¬ Pending P Q (l ++ [x]) := by
  rintro ⟨pre, a, post, he, ha, hpost⟩
  rcases snoc_eq_append_cons he with ⟨-, rfl, -⟩ | ⟨post', rfl, hl⟩
  · exact hp ha
  · exact h ⟨pre, a, post', hl, ha, fun c hc => hpost c (by simp [hc])⟩

end Biztrip.Lib
