import Mathlib.Data.List.Basic

/-!
# Worklists over trees

`drain` walks the trees on a stack: it takes the one on top, feeds its value to an
accumulator and pushes its children. `drain_iff` is what it brings about: a property
that only certain values add to the accumulator holds in the end if such a value occurs
somewhere in the trees.
-/

namespace Biztrip.Lib

inductive Rose (α : Type) where
  | node (value : α) (children : List (Rose α))

namespace Rose

variable {α σ : Type}

def children : Rose α → List (Rose α)
  | .node _ children => children

mutual

def size : Rose α → Nat
  | .node _ children => sizes children + 1

def sizes : List (Rose α) → Nat
  | [] => 0
  | t :: l => t.size + sizes l

end

theorem sizes_append (l m : List (Rose α)) : sizes (l ++ m) = sizes l + sizes m := by
  induction l with
  | nil => simp [sizes]
  | cons t l ih =>
    simp only [List.cons_append, sizes, ih]
    omega

theorem sizes_reverse (l : List (Rose α)) : sizes l.reverse = sizes l := by
  induction l with
  | nil => rfl
  | cons t l ih =>
    simp only [List.reverse_cons, sizes_append, sizes, ih]
    omega

/-- The value stands somewhere in the tree, at whatever depth. -/
inductive Occurs (a : α) : Rose α → Prop where
  | root {children : List (Rose α)} : Occurs a (.node a children)
  | inner {b : α} {children : List (Rose α)} {t : Rose α} (mem : t ∈ children)
    (occurs : Occurs a t) : Occurs a (.node b children)

/-- The head of the list is the top of the stack; the last child pushed comes to lie on top. -/
def drain (f : σ → α → σ) (acc : σ) : List (Rose α) → σ
  | [] => acc
  | .node a children :: stack => drain f (f acc a) (children.reverse ++ stack)
termination_by stack => sizes stack
decreasing_by
  simp only [List.unattach_reverse, List.unattach_attach, sizes_append, sizes_reverse, sizes, size]
  omega

@[simp] theorem drain_nil {f : σ → α → σ} {acc : σ} : drain f acc [] = acc := by
  rw [drain]

theorem drain_cons {f : σ → α → σ} {acc : σ} {a : α} {children stack : List (Rose α)} :
    drain f acc (.node a children :: stack) = drain f (f acc a) (children.reverse ++ stack) := by
  rw [drain]

theorem occurs_node_iff {a b : α} {children : List (Rose α)} :
    Occurs a (.node b children) ↔ a = b ∨ ∃ t ∈ children, Occurs a t := by
  constructor
  · intro h
    cases h with
    | root => exact .inl rfl
    | inner mem occurs => exact .inr ⟨_, mem, occurs⟩
  · rintro (rfl | ⟨t, hmem, h⟩)
    · exact .root
    · exact .inner hmem h

/-- If visiting a value brings `P` about exactly when `Q` holds of it, `drain` does exactly when
some value of the trees meets `Q`. -/
theorem drain_iff {f : σ → α → σ} {P : σ → Prop} {Q : α → Prop}
    (hf : ∀ acc a, P (f acc a) ↔ P acc ∨ Q a) (acc : σ) (stack : List (Rose α)) :
    P (drain f acc stack) ↔ P acc ∨ ∃ t ∈ stack, ∃ a, Q a ∧ Occurs a t := by
  induction acc, stack using drain.induct f with
  | case1 acc => simp
  | case2 acc a children stack ih =>
    rw [List.unattach_reverse, List.unattach_attach] at ih
    rw [drain_cons, ih, hf, or_assoc]
    refine or_congr_right ?_
    constructor
    · rintro (ha | ⟨t, ht, b, hb, hoccurs⟩)
      · exact ⟨_, List.mem_cons_self, a, ha, .root⟩
      · rcases List.mem_append.mp ht with ht | ht
        · exact ⟨_, List.mem_cons_self, b, hb, .inner (List.mem_reverse.mp ht) hoccurs⟩
        · exact ⟨t, List.mem_cons_of_mem _ ht, b, hb, hoccurs⟩
    · rintro ⟨t, ht, b, hb, hoccurs⟩
      rcases List.mem_cons.mp ht with rfl | ht
      · rcases occurs_node_iff.mp hoccurs with rfl | ⟨u, hu, hoccurs⟩
        · exact .inl hb
        · exact .inr ⟨u, List.mem_append_left _ (List.mem_reverse.mpr hu), b, hb, hoccurs⟩
      · exact .inr ⟨t, List.mem_append_right _ ht, b, hb, hoccurs⟩

end Rose

end Biztrip.Lib
