import Biztrip.Lib.Guard

/-!
# Random draws

A generator of random numbers is the stream of what it is going to draw, and a
`Drawing` hands on what is left of it. A statement about every stream is one about
every outcome of the generator. `Yields` says what holds of every result; its rules
follow the shape of a computation, and `yields_foldlM` is the rule for a loop, with
an invariant that may speak of the part of the list that is done.
-/

namespace Biztrip.Lib

abbrev Draws := Nat → Nat

/-- A computation that draws and may fail. -/
abbrev Drawing (ε : Type) := StateT Draws (Except ε)

namespace Drawing

variable {ε α β σ : Type}

/-! ## Drawing -/

def draw : Drawing ε Nat := fun draws => .ok (draws 0, fun n => draws (n + 1))

/-- An element of a list that has some. -/
def choice (l : List α) (h : l ≠ [] := by decide) : Drawing ε α := do
  let n ← draw
  return l.get ⟨n % l.length, Nat.mod_lt _ (List.length_pos_iff.mpr h)⟩

/-- The element on which the `n`-th of the weights falls; past all weights, the last one. -/
def weighted : α × Nat → List (α × Nat) → Nat → α
  | a, [], _ => a.1
  | a, b :: l, n => if n < a.2 then a.1 else weighted b l (n - a.2)

def choices (first : α × Nat) (rest : List (α × Nat)) : Drawing ε α := do
  let n ← draw
  return weighted first rest (n % rest.foldl (fun total a => total + a.2) first.2)

/-- Of `start`, `start + step`, … the numbers below `stop`, if there are any. -/
def randrange (none : ε) (start stop step : Nat) : Drawing ε Nat := do
  let width := (stop - start + (step - 1)) / step
  guardE (width ≠ 0) none
  let n ← draw
  return start + step * (n % width)

/-- From `lo` to `hi`, both included, if there are any. -/
def randint (none : ε) (lo hi : Int) : Drawing ε Int := do
  guardE (lo ≤ hi) none
  let n ← draw
  return lo + n % (hi - lo + 1)

/-- What has the probability `part / whole` came about. -/
def chance (part whole : Nat) : Drawing ε Bool := do
  let n ← draw
  return n % whole < part

def times (x : Drawing ε α) : Nat → Drawing ε (List α)
  | 0 => pure []
  | n + 1 => do
    let a ← x
    let l ← times x n
    return a :: l

/-- What comes of it when the generator draws these numbers. -/
def result (x : Drawing ε α) (draws : Draws) : Except ε α := do
  let p ← x draws
  return p.1

/-! ## What is yielded -/

/-- Whatever is drawn, a result has the property. -/
def Yields (x : Drawing ε α) (P : α → Prop) : Prop :=
  ∀ draws a left, x draws = .ok (a, left) → P a

variable {x : Drawing ε α} {P : α → Prop}

theorem yields_any : Yields x fun _ => True := fun _ _ _ _ => trivial

theorem Yields.mono {Q : α → Prop} (h : Yields x P) (hPQ : ∀ a, P a → Q a) : Yields x Q :=
  fun draws a left ha => hPQ a (h draws a left ha)

theorem yields_pure {a : α} (h : P a) : Yields (pure a : Drawing ε α) P := by
  intro draws b left hb
  cases hb
  exact h

theorem yields_bind {f : α → Drawing ε β} {Q : β → Prop} (hx : Yields x P)
    (hf : ∀ a, P a → Yields (f a) Q) : Yields (x >>= f) Q := by
  intro draws b left hb
  obtain ⟨⟨a, rest⟩, ha, hb⟩ := bind_eq_ok.mp hb
  exact hf a (hx draws a rest ha) rest b left hb

/-- When nothing need be known of what comes first. -/
theorem yields_bind_any {f : α → Drawing ε β} {Q : β → Prop} (hf : ∀ a, Yields (f a) Q) :
    Yields (x >>= f) Q :=
  yields_bind yields_any fun a _ => hf a

/-- A step that does not draw. -/
theorem yields_lift {y : Except ε α} (h : Ensures y P) : Yields (liftM y : Drawing ε α) P := by
  intro draws a left ha
  obtain ⟨b, hb, ha⟩ := bind_eq_ok.mp ha
  cases ha
  exact h a hb

theorem Yields.result (h : Yields x P) (draws : Draws) : Ensures (x.result draws) P := by
  intro a ha
  obtain ⟨p, hp, ha⟩ := bind_eq_ok.mp ha
  cases ha
  exact h draws p.1 p.2 hp

/-- A list is made element by element. -/
theorem yields_mapM {f : α → Drawing ε β} {R : α → β → Prop} :
    ∀ l : List α, (∀ a ∈ l, Yields (f a) (R a)) → Yields (l.mapM f) (List.Forall₂ R l) := by
  intro l
  induction l with
  | nil =>
    intro _
    rw [List.mapM_nil]
    exact yields_pure .nil
  | cons a l ih =>
    intro hf
    rw [List.mapM_cons]
    refine yields_bind (hf a List.mem_cons_self) fun b hb => ?_
    refine yields_bind (ih fun a' ha' => hf a' (List.mem_cons_of_mem _ ha')) fun bs hbs => ?_
    exact yields_pure (.cons hb hbs)

/-- A loop keeps an invariant of the state and the elements that are done. -/
theorem yields_foldlM {f : σ → α → Drawing ε σ} (Inv : List α → σ → Prop)
    (hstep : ∀ past a s, Inv past s → Yields (f s a) (Inv (past ++ [a]))) :
    ∀ (l past : List α) (s : σ), Inv past s → Yields (l.foldlM f s) (Inv (past ++ l)) := by
  intro l
  induction l with
  | nil =>
    intro past s hs
    rw [List.foldlM_nil, List.append_nil]
    exact yields_pure hs
  | cons a l ih =>
    intro past s hs
    rw [List.foldlM_cons]
    refine yields_bind (hstep past a s hs) fun s' hs' => ?_
    rw [List.append_cons]
    exact ih _ s' hs'

end Drawing

end Biztrip.Lib
