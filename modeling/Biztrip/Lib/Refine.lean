import Biztrip.Lib.Run

/-!
# Refinement of serial runs

A concrete machine refines an abstract one under an abstraction `abs` if each of its successful
steps is a move of the abstract machine, or none at all; `label` tells which. The
moves of a run (`Run.trace`) are then a run of the abstract machine, from the abstraction of the
first state to that of the last.
-/

namespace Biztrip.Lib

namespace Run

variable {σ α β ε : Type}

/-- The moves of the requests that succeed, in their order. -/
def trace (step : σ → α → Except ε σ) (label : σ → α → Option β) : σ → List α → List β
  | _, [] => []
  | s, a :: as =>
    match step s a with
    | .ok s' => (label s a).toList ++ trace step label s' as
    | .error _ => trace step label s as

end Run

/-- A step of the concrete machine is a move of the abstract one, or none. -/
structure Refines {σ α β τ ε : Type} (step : σ → α → Except ε σ) (move : τ → β → Option τ)
    (abs : σ → τ) (label : σ → α → Option β) (I : σ → Prop) : Prop where
  inv : ∀ s a s', I s → step s a = .ok s' → I s'
  stays : ∀ s a s', I s → step s a = .ok s' → label s a = none → abs s' = abs s
  moves : ∀ s a s' b, I s → step s a = .ok s' → label s a = some b →
    move (abs s) b = some (abs s')

namespace Refines

variable {σ α β τ ε : Type} {step : σ → α → Except ε σ} {move : τ → β → Option τ} {abs : σ → τ}
  {label : σ → α → Option β} {I : σ → Prop}

theorem step_foldlM (h : Refines step move abs label I) {s s' : σ} {a : α} (hs : I s)
    (hstep : step s a = .ok s') : (label s a).toList.foldlM move (abs s) = some (abs s') := by
  rcases hl : label s a with _ | b
  · rw [Option.toList_none, List.foldlM_nil, h.stays s a s' hs hstep hl]
    rfl
  · rw [Option.toList_some, List.foldlM_cons, h.moves s a s' b hs hstep hl]
    rfl

/-- The moves of a run lead from the abstraction of its first state to that of its last. -/
theorem trace_foldlM (h : Refines step move abs label I) : ∀ (as : List α) {s : σ}, I s →
    (Run.trace step label s as).foldlM move (abs s) = some (abs (Run.all step s as)) := by
  intro as
  induction as with
  | nil => intro s _; rfl
  | cons a as ih =>
    intro s hs
    rw [Run.trace, Run.all_cons]
    rcases hstep : step s a with e | s'
    · exact ih hs
    · rw [List.foldlM_append, h.step_foldlM hs hstep, Option.bind_eq_bind, Option.bind_some]
      exact ih (h.inv s a s' hs hstep)

end Refines

end Biztrip.Lib
