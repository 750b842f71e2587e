import Mathlib.Data.List.Induction

/-!
# Serial runs

`Run.all step s as` runs the requests `as` one after another from `s`. A
request that raises leaves the committed state as it was (`Run.settle`).
`Run.Each P` says that every request of a run meets `P` in the state it starts
from, and `Run.invariant` is the induction every safety result uses: an
invariant that each successful step meeting `P` keeps holds wherever such a run
ends.
-/

namespace Biztrip.Lib.Run

variable {σ α ε : Type}

/-- The committed state after a request: the new one, or the old one if it raised. -/
def settle (s : σ) : Except ε σ → σ
  | .ok s' => s'
  | .error _ => s

theorem settle_eq {s s' : σ} {r : Except ε σ} (h : r = .ok s') : settle s r = s' := by
  rw [h]
  rfl

def all (step : σ → α → Except ε σ) (s : σ) (as : List α) : σ :=
  as.foldl (fun s a => settle s (step s a)) s

section
variable {step : σ → α → Except ε σ}

@[simp] theorem all_nil (s : σ) : all step s [] = s := rfl

@[simp] theorem all_cons (s : σ) (a : α) (as : List α) :
    all step s (a :: as) = all step (settle s (step s a)) as := rfl

theorem all_append (s : σ) (as bs : List α) :
    all step s (as ++ bs) = all step (all step s as) bs := by
  simp [all]

/-- Every request of the run meets `P` in the state it starts from. -/
def Each (step : σ → α → Except ε σ) (P : σ → α → Prop) : σ → List α → Prop
  | _, [] => True
  | s, a :: as => P s a ∧ Each step P (settle s (step s a)) as

instance decidableEach {P : σ → α → Prop} [∀ s a, Decidable (P s a)] :
    ∀ (s : σ) (as : List α), Decidable (Each step P s as)
  | _, [] => inferInstanceAs (Decidable True)
  | s, a :: as =>
    have := decidableEach (P := P) (settle s (step s a)) as
    inferInstanceAs (Decidable (P s a ∧ Each step P (settle s (step s a)) as))

theorem Each.imp {P Q : σ → α → Prop} (h : ∀ s a, P s a → Q s a) {as : List α} {s : σ}
    (hp : Each step P s as) : Each step Q s as := by
  induction as generalizing s with
  | nil => trivial
  | cons a as ih => exact ⟨h s a hp.1, ih hp.2⟩

theorem each_of_forall {P : σ → α → Prop} {as : List α} (h : ∀ a ∈ as, ∀ s, P s a) (s : σ) :
    Each step P s as := by
  induction as generalizing s with
  | nil => trivial
  | cons a as ih =>
    exact ⟨h a List.mem_cons_self s, ih (fun b hb => h b (List.mem_cons_of_mem a hb)) _⟩

theorem each_true (s : σ) (as : List α) : Each step (fun _ _ => True) s as :=
  each_of_forall (fun _ _ _ => trivial) s

/-- An invariant kept by every successful step meeting `P` holds after every such run. -/
theorem invariant {I : σ → Prop} {P : σ → α → Prop}
    (hstep : ∀ s a s', I s → P s a → step s a = .ok s' → I s') :
    ∀ {as : List α} {s : σ}, I s → Each step P s as → I (all step s as) := by
  intro as
  induction as with
  | nil => intro s hs _; exact hs
  | cons a as ih =>
    intro s hs ⟨hp, hrest⟩
    refine ih (s := settle s (step s a)) ?_ hrest
    rcases h : step s a with e | s'
    · exact hs
    · exact hstep s a s' hs hp h

/-- An invariant kept by every successful step holds after every run. -/
theorem invariant_of_step {I : σ → Prop}
    (hstep : ∀ s a s', I s → step s a = .ok s' → I s') {as : List α} {s : σ} (hs : I s) :
    I (all step s as) :=
  invariant (P := fun _ _ => True) (fun s a s' hi _ h => hstep s a s' hi h) hs (each_true s as)

/-- The induction for what a state owes to the requests that led to it. -/
theorem invariant_of_past {I : List α → σ → Prop} {s₀ : σ} (h₀ : I [] s₀)
    (hstep : ∀ past a, I past (all step s₀ past) →
      I (past ++ [a]) (settle (all step s₀ past) (step (all step s₀ past) a))) (as : List α) :
    I as (all step s₀ as) := by
  induction as using List.reverseRecOn with
  | nil => exact h₀
  | append_singleton past a ih =>
    rw [all_append]
    exact hstep past a ih

/-- Where a successful step keeps the invariant `I` exactly when it meets `C`, a run stays within
`I` exactly when all its successful steps meet `C`. `J` is what holds of every state anyway. -/
theorem throughout_iff {I J : σ → Prop} {C : σ → α → Prop}
    (hJ : ∀ s a s', J s → step s a = .ok s' → J s')
    (hI : ∀ s a s', J s → I s → step s a = .ok s' → (I s' ↔ C s a)) :
    ∀ {as : List α} {s : σ}, J s → I s → ((∀ n, I (all step s (as.take n))) ↔
      Each step (fun s a => ∀ s', step s a = .ok s' → C s a) s as) := by
  intro as
  induction as with
  | nil =>
    intro s _ hs
    simp [Each, hs]
  | cons a as ih =>
    intro s hj hs
    -- the state after the first request, and what it takes for the invariant to hold there
    have hnext : J (settle s (step s a)) ∧
        (I (settle s (step s a)) ↔ ∀ s', step s a = .ok s' → C s a) := by
      rcases h : step s a with e | s'
      · exact ⟨hj, fun _ _ => nofun, fun _ => hs⟩
      · refine ⟨hJ s a s' hj h, ?_⟩
        rw [settle_eq rfl, hI s a s' hj hs h]
        exact ⟨fun hc _ _ => hc, fun hc => hc s' rfl⟩
    constructor
    · intro hall
      have h1 : I (settle s (step s a)) := by simpa using hall 1
      refine ⟨hnext.2.mp h1, (ih hnext.1 h1).mp fun n => ?_⟩
      simpa using hall (n + 1)
    · rintro ⟨hc, hrest⟩ n
      have h1 := hnext.2.mpr hc
      cases n with
      | zero => exact hs
      | succ n => simpa using (ih hnext.1 h1).mpr hrest n

/-- Where some requests always bring a state nearer to `rank` 0 and keep to `I`, no more requests
than the rank lead there. -/
theorem exists_of_progress {I : σ → Prop} {Q : α → Prop} {rank : σ → Nat}
    (hprogress : ∀ s, I s → rank s ≠ 0 → ∃ as, as ≠ [] ∧ (∀ a ∈ as, Q a) ∧ I (all step s as) ∧
      rank (all step s as) + as.length ≤ rank s) (s : σ) (hs : I s) :
    ∃ as, as.length ≤ rank s ∧ (∀ a ∈ as, Q a) ∧ I (all step s as) ∧
      rank (all step s as) = 0 := by
  by_cases h0 : rank s = 0
  · exact ⟨[], Nat.zero_le _, nofun, hs, h0⟩
  · obtain ⟨as, hne, hq, hi, hle⟩ := hprogress s hs h0
    have hpos := List.length_pos_iff.mpr hne
    obtain ⟨bs, hlen, hq', hi', h0'⟩ := exists_of_progress hprogress (all step s as) hi
    refine ⟨as ++ bs, ?_, fun a ha => ?_, ?_, ?_⟩
    · rw [List.length_append]
      omega
    · exact (List.mem_append.mp ha).elim (hq a) (hq' a)
    · rwa [all_append]
    · rwa [all_append]
termination_by rank s

end

end Biztrip.Lib.Run
