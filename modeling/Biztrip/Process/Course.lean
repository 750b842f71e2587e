import Mathlib.Logic.Function.Basic

/-!
# The business process

What the trips and their settlement are for, without any store: a case is a trip together with
its expense report, which goes from phase to phase by acts of its owner and of the approver
whom the submission names. `Label.move` is one act on the cases of everybody.
-/

namespace Biztrip.Process

/-- Where a trip and its settlement stand together. -/
inductive Phase where
  | drafted
  | submitted
  | rejected
  /-- Approved and not yet completed; a report may have been begun. -/
  | underway (begun : Bool)
  /-- Completed, without a report. -/
  | completed
  | reporting
  | claimed
  | disputed
  | settled
  deriving DecidableEq, Repr

inductive Act where
  | submit
  | approve
  | reject
  | reopen
  | complete
  /-- Begin the report. -/
  | report
  /-- Submit the report. -/
  | claim
  /-- Approve the report, which settles the trip. -/
  | settle
  /-- Reject the report. -/
  | dispute
  /-- Reopen the report. -/
  | revise
  deriving DecidableEq, Repr

def Phase.next : Phase → Act → Option Phase
  | .drafted, .submit => some .submitted
  | .submitted, .approve => some (.underway false)
  | .submitted, .reject => some .rejected
  | .rejected, .reopen => some .drafted
  | .underway false, .report => some (.underway true)
  | .underway false, .complete => some .completed
  | .underway true, .complete => some .reporting
  | .completed, .report => some .reporting
  | .reporting, .claim => some .claimed
  | .claimed, .settle => some .settled
  | .claimed, .dispute => some .disputed
  | .disputed, .revise => some .reporting
  | _, _ => none

inductive Side where
  | owner
  | approver
  deriving DecidableEq, Repr

def Act.side : Act → Side
  | .approve | .reject | .settle | .dispute => .approver
  | _ => .owner

structure Case where
  owner : Int
  approver : Option Int
  phase : Phase
  deriving DecidableEq, Repr

/-- Whether the actor is the one on this side of the case. -/
def Case.On (c : Case) (actor : Int) : Side → Prop
  | .owner => c.owner = actor
  | .approver => c.approver = some actor

instance (c : Case) (actor : Int) : ∀ side, Decidable (c.On actor side)
  | .owner => inferInstanceAs (Decidable (c.owner = actor))
  | .approver => inferInstanceAs (Decidable (c.approver = some actor))

/-- Who is the approver after an act: a submission goes to the manager, and needs one. -/
def Case.approverAfter (c : Case) (manager : Option Int) : Act → Option (Option Int)
  | .submit => manager.map some
  | .reopen => some none
  | _ => some c.approver

def Case.act (c : Case) (actor : Int) (manager : Option Int) (a : Act) : Option Case :=
  if c.On actor a.side then do
    let phase ← c.phase.next a
    let approver ← c.approverAfter manager a
    return { c with approver, phase }
  else none

/-- The cases, by the numbers of the trips. -/
abbrev Cases := Int → Option Case

inductive Move where
  | begin
  | drop
  | act (a : Act)
  deriving DecidableEq, Repr

/-- Who does what with which case; `manager` is the actor's. -/
structure Label where
  actor : Int
  manager : Option Int
  trip : Int
  move : Move
  deriving DecidableEq, Repr

/-- A case comes about as a draft, and a draft can be dropped. -/
def Label.move? (l : Label) : Option Case → Option (Option Case)
  | none => if l.move = .begin then some (some ⟨l.actor, none, .drafted⟩) else none
  | some c =>
    match l.move with
    | .begin => none
    | .drop => if c.owner = l.actor ∧ c.phase = .drafted then some none else none
    | .act a => (c.act l.actor l.manager a).map some

def step (w : Cases) (l : Label) : Option Cases :=
  (l.move? (w l.trip)).map fun c => Function.update w l.trip c

/-! ## Rules -/

/-- The phases that an act starts from. -/
theorem Phase.of_next {p : Phase} {a : Act} (h : (p.next a).isSome) :
    match a with
    | .submit => p = .drafted
    | .approve | .reject => p = .submitted
    | .reopen => p = .rejected
    | .complete => ∃ begun, p = .underway begun
    | .report => p = .underway false ∨ p = .completed
    | .claim => p = .reporting
    | .settle | .dispute => p = .claimed
    | .revise => p = .disputed := by
  obtain ⟨q, hq⟩ := Option.isSome_iff_exists.mp h
  unfold Phase.next at hq
  split at hq
  all_goals first | rfl | exact ⟨_, rfl⟩ | exact .inl rfl | exact .inr rfl | cases hq

variable {c c' : Case} {actor : Int} {manager : Option Int} {a : Act} {w w' : Cases} {l : Label}

theorem act_eq_some : c.act actor manager a = some c' ↔ c.On actor a.side ∧
    c.phase.next a = some c'.phase ∧ c.approverAfter manager a = some c'.approver ∧
      c'.owner = c.owner := by
  unfold Case.act
  split
  · next hon =>
    rcases hp : c.phase.next a with _ | phase
    · simp
    · rcases ha : c.approverAfter manager a with _ | approver
      · simp
      · rcases c' with ⟨owner', approver', phase'⟩
        simp only [Option.bind_eq_bind, Option.bind_some, Option.pure_def, Option.some.injEq,
          Case.mk.injEq, hon, true_and]
        exact ⟨fun ⟨h₁, h₂, h₃⟩ => ⟨h₃, h₂, h₁.symm⟩, fun ⟨h₁, h₂, h₃⟩ => ⟨h₃.symm, h₂, h₁⟩⟩
  · next hon => simp [hon]

theorem step_eq_some : step w l = some w' ↔
    ∃ c, l.move? (w l.trip) = some c ∧ w' = Function.update w l.trip c := by
  rw [step, Option.map_eq_some_iff]
  exact ⟨fun ⟨c, hc, h⟩ => ⟨c, hc, h.symm⟩, fun ⟨c, hc, h⟩ => ⟨c, hc, h.symm⟩⟩

theorem step_act_eq_some {i : Int} : step w ⟨actor, manager, i, .act a⟩ = some w' ↔
    ∃ c c', w i = some c ∧ c.act actor manager a = some c' ∧
      w' = Function.update w i (some c') := by
  rw [step_eq_some]
  rcases hi : w i with _ | c
  · simp [Label.move?]
  · simp only [Label.move?, Option.map_eq_some_iff, Option.some.injEq]
    constructor
    · rintro ⟨_, ⟨c', hc', rfl⟩, hw⟩
      exact ⟨c, c', rfl, hc', hw⟩
    · rintro ⟨_, c', rfl, hc', hw⟩
      exact ⟨_, ⟨c', hc', rfl⟩, hw⟩

theorem step_drop_eq_some {i : Int} : step w ⟨actor, manager, i, .drop⟩ = some w' ↔
    ∃ c, w i = some c ∧ c.owner = actor ∧ c.phase = .drafted ∧ w' = Function.update w i none := by
  rw [step_eq_some]
  rcases hi : w i with _ | c
  · simp [Label.move?]
  · by_cases hc : c.owner = actor ∧ c.phase = .drafted
    · simp [Label.move?, hc]
    · simp only [Label.move?, if_neg hc, Option.some.injEq, reduceCtorEq, false_and, exists_false,
        false_iff]
      rintro ⟨_, rfl, howner, hphase, -⟩
      exact hc ⟨howner, hphase⟩

theorem allows_act {i : Int} (hc : w i = some c) :
    (∃ w', step w ⟨actor, manager, i, .act a⟩ = some w') ↔ c.On actor a.side ∧
      (c.phase.next a).isSome ∧ (c.approverAfter manager a).isSome := by
  constructor
  · rintro ⟨w', h⟩
    obtain ⟨c₀, c', hc₀, hact, -⟩ := step_act_eq_some.mp h
    obtain rfl : c₀ = c := Option.some.inj (hc₀.symm.trans hc)
    obtain ⟨hon, hnext, happrover, -⟩ := act_eq_some.mp hact
    exact ⟨hon, by rw [hnext]; rfl, by rw [happrover]; rfl⟩
  · rintro ⟨hon, hnext, happrover⟩
    obtain ⟨phase, hphase⟩ := Option.isSome_iff_exists.mp hnext
    obtain ⟨approver, happrover⟩ := Option.isSome_iff_exists.mp happrover
    exact ⟨_, step_act_eq_some.mpr ⟨c, ⟨c.owner, approver, phase⟩, hc,
      act_eq_some.mpr ⟨hon, hphase, happrover, rfl⟩, rfl⟩⟩

theorem allows_drop {i : Int} (hc : w i = some c) :
    (∃ w', step w ⟨actor, manager, i, .drop⟩ = some w') ↔ c.owner = actor ∧ c.phase = .drafted := by
  constructor
  · rintro ⟨w', h⟩
    obtain ⟨c₀, hc₀, howner, hphase, -⟩ := step_drop_eq_some.mp h
    obtain rfl : c₀ = c := Option.some.inj (hc₀.symm.trans hc)
    exact ⟨howner, hphase⟩
  · rintro ⟨howner, hphase⟩
    exact ⟨_, step_drop_eq_some.mpr ⟨c, hc, howner, hphase, rfl⟩⟩

/-! ## The way to the settlement -/

/-- The act that brings a case forward. A report is begun before the trip is completed. -/
def Phase.forward : Phase → Option Act
  | .drafted => some .submit
  | .submitted => some .approve
  | .rejected => some .reopen
  | .underway false => some .report
  | .underway true => some .complete
  | .completed => some .report
  | .reporting => some .claim
  | .claimed => some .settle
  | .disputed => some .revise
  | .settled => none

/-- What an act costs in requests: the report is filled in by two before its submission. -/
def Act.cost : Act → Nat
  | .claim => 3
  | _ => 1

/-- The cost of the way that is left. -/
def Phase.toGo : Phase → Nat
  | .rejected => 9
  | .drafted => 8
  | .submitted => 7
  | .underway false => 6
  | .underway true | .completed | .disputed => 5
  | .reporting => 4
  | .claimed => 1
  | .settled => 0

theorem Phase.toGo_le (p : Phase) : p.toGo ≤ 9 := by
  cases p with
  | underway begun => cases begun <;> decide
  | _ => decide

theorem Phase.toGo_eq_zero {p : Phase} : p.toGo = 0 ↔ p = .settled := by
  cases p with
  | underway begun => cases begun <;> decide
  | _ => decide

/-- No phase is a dead end. -/
theorem Phase.exists_forward {p : Phase} (h : p.toGo ≠ 0) :
    ∃ a q, p.forward = some a ∧ p.next a = some q ∧ q.toGo + a.cost = p.toGo := by
  cases p with
  | underway begun => cases begun <;> exact ⟨_, _, rfl, rfl, rfl⟩
  | settled => exact absurd rfl h
  | _ => exact ⟨_, _, rfl, rfl, rfl⟩

end Biztrip.Process
