import Biztrip.Edits.Change

/-!
# Commits in time

What is asked of two overlapping edits of a report (`NothingLost`): that the first of them to
commit finds the other one so far that it loses nothing by it. It is a condition on the requests
as they arrive, the store that they start from and whose turn it is; how far the other one is by
then is what it will have found in the end (`Clear`).
-/

namespace Biztrip.Edits

open Biztrip.Lib Expenses Desk

/-! ## The condition -/

/-- Two requests of which the first to commit is `call`. If the other sums before that commit, one
of them leaves the sum alone. If it sums after it but has read before, `call` leaves the sum alone
or both together change it, and if they write over one item, their columns go together. -/
def Unhurt (s : Store) (call call' : EditCall) : Sight → Prop
  | .nothing => call.change s = 0 ∨ call'.change s = 0
  | .atSum => (call.change s = 0 ∨ together s call call' ≠ 0) ∧ Compatible s call call'
  | .atRead => True

namespace Phase

def isWritten : Phase → Bool
  | .written _ _ _ _ => true
  | _ => false

/-- What a request will have found of the other one that commits now. -/
def due : Phase → Sight
  | .idle => .atRead
  | .read _ _ | .flushed _ _ _ => .atSum
  | _ => .nothing

end Phase

/-- If request `i` is about to commit, and the other one has not, both stay unhurt. -/
def InTime (s : Store) (req : Bool → EditRequest) (c : Config) (i : Bool) : Prop :=
  (c.phase i).isWritten = true → (c.phase !i).isCommitted = false →
    Unhurt s (req i).call (req !i).call (c.phase !i).due

/-- Every turn of a run meets `P` in the configuration that it finds. -/
def Config.Each (req : Bool → EditRequest) (P : Config → Bool → Prop) : Config → List Bool → Prop
  | _, [] => True
  | c, i :: turns => P c i ∧ Config.Each req P (c.step req i) turns

def NothingLost (s : Store) (req : Bool → EditRequest) (turns : List Bool) : Prop :=
  (Config.start s).Each req (InTime s req) turns

instance {s : Store} {call call' : EditCall} : ∀ {sight : Sight},
    Decidable (Unhurt s call call' sight)
  | .nothing => inferInstanceAs (Decidable (_ ∨ _))
  | .atSum => inferInstanceAs (Decidable (_ ∧ _))
  | .atRead => inferInstanceAs (Decidable True)

instance {s : Store} {req : Bool → EditRequest} {c : Config} {i : Bool} :
    Decidable (InTime s req c i) := inferInstanceAs (Decidable (_ → _ → _))

instance Config.decidableEach {req : Bool → EditRequest} {P : Config → Bool → Prop}
    [∀ c i, Decidable (P c i)] : ∀ (c : Config) (turns : List Bool), Decidable (c.Each req P turns)
  | _, [] => inferInstanceAs (Decidable True)
  | c, i :: turns =>
    have : Decidable ((c.step req i).Each req P turns) := decidableEach _ turns
    inferInstanceAs (Decidable (P c i ∧ (c.step req i).Each req P turns))

instance {s : Store} {req : Bool → EditRequest} {turns : List Bool} :
    Decidable (NothingLost s req turns) := inferInstanceAs (Decidable (Config.Each ..))

variable {s : Store} {req : Bool → EditRequest} {e : Edit} {item : Option (Version ExpenseItem)}
  {report : Option (Version ExpenseReport)} {sight : Sight}

/-! ## What the other request finds -/

/-- What a request finds of the other one, which has committed, unless it fails. -/
def Phase.finds? : Phase → Option Sight
  | .idle => some .atRead
  | .read _ sight | .flushed _ _ sight => some (if sight = .nothing then .atSum else sight)
  | .summed _ _ _ sight | .written _ _ _ sight | .committed _ _ sight => some sight
  | .failed _ => none

/-- Both are unhurt, as far as one has committed. -/
def Clear (s : Store) (req : Bool → EditRequest) (c : Config) : Prop :=
  ∀ i, (c.phase i).isCommitted = true → (c.phase i).sight? = some .nothing →
    ∀ x, (c.phase !i).finds? = some x → Unhurt s (req i).call (req !i).call x

theorem Unhurt.symm {call call' : EditCall} (h : Unhurt s call call' .nothing) :
    Unhurt s call' call .nothing := Or.symm h

theorem due_of_finds {p : Phase} (hnothing : ∀ x, p.sight? = some x → x = .nothing) {x : Sight}
    (hx : p.finds? = some x) : p.due = x := by
  cases p with
  | idle => exact Option.some.inj hx
  | read _ sight | flushed _ _ sight =>
    obtain rfl := hnothing sight rfl
    exact Option.some.inj hx
  | summed _ _ _ sight | written _ _ _ sight | committed _ _ sight =>
    obtain rfl := hnothing sight rfl
    exact Option.some.inj hx
  | failed => cases hx

section
variable {c : Config} {i : Bool}

/-- What a request finds of a commit does not change by its steps. -/
theorem finds_step (hoc : c.otherCommitted i = true) :
    ((c.step req i).phase i).finds? = none ∨
      ((c.step req i).phase i).finds? = (c.phase i).finds? := by
  unfold Config.step
  split
  · next hp =>
    unfold Config.read
    split
    · exact .inl (by rw [enter_self]; rfl)
    · exact .inr (by rw [enter_self, hp, hoc]; rfl)
  · next e sight hp =>
    unfold Config.flush
    split
    · exact .inr rfl
    · split
      · exact .inl (by rw [enter_self]; rfl)
      · exact .inr (by rw [enter_self, hp]; rfl)
  · next e item sight hp =>
    unfold Config.sum
    split
    · exact .inl (by rw [enter_self]; rfl)
    · refine .inr ?_
      rw [enter_self, hp, hoc]
      cases sight <;> rfl
  · next e item total sight hp =>
    unfold Config.write
    dsimp only
    split
    · exact .inr rfl
    · split
      · exact .inl (by rw [enter_self]; rfl)
      · exact .inr (by rw [enter_self, hp]; rfl)
  · next e item report sight hp => exact .inr (by rw [Config.commit, enter_self, hp]; rfl)
  · exact .inr rfl
  · exact .inr rfl

theorem Clear.of_pending (h : ∀ i, (c.phase i).isCommitted = false) : Clear s req c := by
  intro i hcommitted
  rw [h i] at hcommitted
  cases hcommitted

theorem Clear.of_failed {fault : Fault} (h : c.phase i = .failed fault) : Clear s req c := by
  intro k hcommitted _ x hx
  rcases eq_or_eq_not i k with rfl | rfl
  · rw [h] at hcommitted
    cases hcommitted
  · rw [h] at hx
    cases hx

/-- The first commit, in time. -/
theorem Clear.commit_first (h : ∀ i, Turn s req c i)
    (hp : c.phase i = .written e item report sight) (htime : InTime s req c i) :
    Clear s req (c.commit i e item report sight) := by
  have hself : (c.commit i e item report sight).phase i = .committed e item sight := enter_self
  have hother : (c.commit i e item report sight).phase (!i) = c.phase !i := enter_other
  intro k hcommitted _ x hx
  rcases eq_or_eq_not k i with rfl | rfl
  · rw [hother] at hx
    have hnothing : ∀ x, (c.phase !k).sight? = some x → x = .nothing := by
      refine (h !k).nothing ?_
      unfold Config.otherCommitted
      rw [Bool.not_not]
      exact (h k).pending
    rw [← due_of_finds hnothing hx]
    exact htime (by rw [hp]; rfl) (h !k).pending
  · rw [hother, (h !i).pending] at hcommitted
    cases hcommitted

/-- After the first commit, the other request finds what it was to find. -/
theorem Clear.later (h : Clear s req c) (hp : c.phase i = .committed e item .nothing) :
    Clear s req (c.step req !i) := by
  have hself : (c.step req !i).phase i = c.phase i := by
    have hother : (c.step req !i).phase (!!i) = c.phase (!!i) := step_other
    rwa [Bool.not_not] at hother
  have hoc : c.otherCommitted (!i) = true := by
    unfold Config.otherCommitted
    rw [Bool.not_not, hp]
    rfl
  have hfinds : ∀ x, ((c.step req !i).phase !i).finds? = some x →
      Unhurt s (req i).call (req !i).call x := by
    intro x hx
    rcases @finds_step req c (!i) hoc with hnone | hsame
    · rw [hnone] at hx
      cases hx
    · rw [hsame] at hx
      exact h i (by rw [hp]; rfl) (by rw [hp]; rfl) x hx
  intro k hcommitted hsight x hx
  rcases eq_or_eq_not k i with rfl | rfl
  · exact hfinds x hx
  · rw [Bool.not_not] at hx ⊢
    rw [hself, hp] at hx
    obtain rfl := Option.some.inj hx
    refine (hfinds .nothing ?_).symm
    -- it has committed, and has found nothing
    generalize (c.step req !i).phase (!i) = p at hcommitted hsight
    cases p with
    | committed => exact hsight
    | _ => cases hcommitted

theorem Clear.step (hgood : Good s req c) (h : Clear s req c) (htime : InTime s req c i) :
    Clear s req (c.step req i) := by
  cases hgood with
  | failed j fault phase =>
    have hfailed : (c.step req i).phase j = .failed fault := by
      rcases eq_or_eq_not j i with rfl | rfl
      · unfold Config.step
        rw [phase]
        exact phase
      · rw [step_other, phase]
    exact .of_failed hfailed
  | neither db turns =>
    have htaken := (turns i).step
    have hother : (c.step req i).phase (!i) = c.phase !i := step_other
    generalize c.step req i = c' at htaken hother
    cases htaken with
    | waits => exact h
    | fails fault phase => exact .of_failed phase
    | enters turn db' other blind =>
      exact .of_pending (forall_of_turns i turn.pending (by rw [hother]; exact (turns !i).pending))
    | commits phase => exact .commit_first turns phase htime
  | @first j e item report known phase db turn blind =>
    rcases eq_or_eq_not i j with rfl | rfl
    · rw [step_of_committed phase]
      exact h
    · exact h.later phase
  | @both j e e' item item' report report' sight known phase known' phase' =>
    have hsame : c.step req i = c := by
      rcases eq_or_eq_not i j with rfl | rfl
      · exact step_of_committed phase
      · exact step_of_committed phase'
    rw [hsame]
    exact h

theorem Clear.exec {turns : List Bool} : ∀ {c : Config}, Good s req c → Clear s req c →
    c.Each req (InTime s req) turns → Clear s req (c.exec req turns) := by
  induction turns with
  | nil => exact fun _ h _ => h
  | cons i turns ih => exact fun hgood h htime => ih (hgood.step i) (.step hgood h htime.1) htime.2

end

end Biztrip.Edits
