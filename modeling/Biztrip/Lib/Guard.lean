import Mathlib.Data.List.Forall2

/-!
# Guarded computations

A service call is a chain of guards in `Except`: it raises at the first guard
that fails and otherwise computes its result. The lemmas here invert such a
chain: `bind_eq_ok` peels one statement off a `do` block, and each guard
combinator has a lemma saying when it passes (`_eq_ok`) and what it raises
(`_eq_error`).
-/

namespace Biztrip.Lib

section
variable {ε α β : Type}

theorem bind_eq_ok {x : Except ε α} {f : α → Except ε β} {b : β} :
    (x >>= f) = .ok b ↔ ∃ a, x = .ok a ∧ f a = .ok b := by
  cases x with
  | ok a => simp [bind, Except.bind]
  | error e => simp [bind, Except.bind]

theorem bind_eq_error {x : Except ε α} {f : α → Except ε β} {e : ε} :
    (x >>= f) = .error e ↔ x = .error e ∨ ∃ a, x = .ok a ∧ f a = .error e := by
  cases x with
  | ok a => simp [bind, Except.bind]
  | error e => simp [bind, Except.bind]

@[simp] theorem pure_eq_ok (a : α) : (pure a : Except ε α) = .ok a := rfl

@[simp] theorem ok_bind (a : α) (f : α → Except ε β) :
    ((Except.ok a : Except ε α) >>= f) = f a := rfl

@[simp] theorem error_bind (e : ε) (f : α → Except ε β) :
    ((Except.error e : Except ε α) >>= f) = .error e := rfl

/-- A computation that is known to return, by what is read off its result. -/
theorem toOption_bind_eq_some {x : Except ε α} {f : α → Option β} {b : β} :
    x.toOption.bind f = some b ↔ ∃ a, x = .ok a ∧ f a = some b := by
  cases x with
  | ok a => simp [Except.toOption]
  | error e => simp [Except.toOption]

end

/-! ## What a computation can return -/

section
variable {ε α β : Type}

/-- Whatever the computation returns meets `P`. -/
def Ensures (x : Except ε α) (P : α → Prop) : Prop := ∀ a, x = .ok a → P a

theorem ensures_ok {P : α → Prop} {a : α} (h : P a) : Ensures (.ok a : Except ε α) P := by
  intro b hb
  rw [Except.ok.injEq] at hb
  exact hb ▸ h

theorem ensures_bind {x : Except ε α} {f : α → Except ε β} {P : β → Prop}
    (h : ∀ a, x = .ok a → Ensures (f a) P) : Ensures (x >>= f) P := by
  intro b hb
  obtain ⟨a, ha, hfa⟩ := bind_eq_ok.mp hb
  exact h a ha b hfa

theorem ensures_foldlM {f : α → β → Except ε α} {P : α → Prop}
    (hstep : ∀ a b, P a → Ensures (f a b) P) :
    ∀ (l : List β) (a : α), P a → Ensures (l.foldlM f a) P := by
  intro l
  induction l with
  | nil => exact fun a ha => ensures_ok ha
  | cons b l ih => exact fun a ha => ensures_bind fun a' ha' => ih a' (hstep a b ha a' ha')

end

/-! ## What a computation can raise -/

section
variable {ε α β : Type}

/-- Whatever the computation raises meets `Q`. -/
def Raises (x : Except ε α) (Q : ε → Prop) : Prop := ∀ e, x = .error e → Q e

variable {Q : ε → Prop}

theorem raises_ok {a : α} : Raises (.ok a : Except ε α) Q := by
  intro e he
  cases he

theorem raises_error {e : ε} (h : Q e) : Raises (.error e : Except ε α) Q := by
  intro e' he
  rw [Except.error.injEq] at he
  exact he ▸ h

theorem raises_bind {x : Except ε α} {f : α → Except ε β} (hx : Raises x Q)
    (hf : ∀ a, x = .ok a → Raises (f a) Q) : Raises (x >>= f) Q := by
  intro e he
  rcases bind_eq_error.mp he with he | ⟨a, ha, he⟩
  · exact hx e he
  · exact hf a ha e he

theorem raises_foldlM {σ : Type} {f : σ → α → Except ε σ} (hf : ∀ s a, Raises (f s a) Q) :
    ∀ (l : List α) (s : σ), Raises (l.foldlM f s) Q := by
  intro l
  induction l with
  | nil => intro s; exact raises_ok
  | cons a l ih => intro s; exact raises_bind (hf s a) fun s' _ => ih s'

end

/-! ## Guards -/

section
variable {ε α : Type}

/-- Raise `e` unless `p` holds. -/
def guardE (p : Prop) [Decidable p] (e : ε) : Except ε Unit :=
  if p then .ok () else .error e

@[simp] theorem guardE_eq_ok {p : Prop} [Decidable p] {e : ε} {a : Unit} :
    guardE p e = .ok a ↔ p := by
  unfold guardE
  split <;> simp_all

@[simp] theorem guardE_eq_error {p : Prop} [Decidable p] {e e' : ε} :
    (guardE p e : Except ε Unit) = .error e' ↔ ¬ p ∧ e' = e := by
  unfold guardE
  split <;> simp_all [eq_comm]

theorem raises_guardE {Q : ε → Prop} {p : Prop} [Decidable p] {e : ε} (h : Q e) :
    Raises (guardE p e) Q := by
  intro e' he
  rw [(guardE_eq_error.mp he).2]
  exact h

/-- Run a check only when `c` holds. -/
def whenE (c : Prop) [Decidable c] (check : Except ε Unit) : Except ε Unit :=
  if c then check else .ok ()

@[simp] theorem whenE_eq_ok {c : Prop} [Decidable c] {check : Except ε Unit}
    {a : Unit} : whenE c check = .ok a ↔ (c → check = .ok ()) := by
  unfold whenE
  split <;> simp_all

@[simp] theorem whenE_eq_error {c : Prop} [Decidable c] {check : Except ε Unit} {e : ε} :
    whenE c check = .error e ↔ c ∧ check = .error e := by
  unfold whenE
  split <;> simp_all

theorem raises_whenE {Q : ε → Prop} {c : Prop} [Decidable c] {check : Except ε Unit}
    (h : Raises check Q) : Raises (whenE c check) Q := by
  intro e he
  exact h e (whenE_eq_error.mp he).2

/-- Check a value only when there is one. -/
def checkSome (o : Option α) (check : α → Except ε Unit) : Except ε Unit :=
  match o with
  | none => .ok ()
  | some a => check a

@[simp] theorem checkSome_eq_ok {o : Option α} {check : α → Except ε Unit}
    {u : Unit} : checkSome o check = .ok u ↔ ∀ a, o = some a → check a = .ok () := by
  cases o <;> simp [checkSome]

@[simp] theorem checkSome_eq_error {o : Option α} {check : α → Except ε Unit} {e : ε} :
    checkSome o check = .error e ↔ ∃ a, o = some a ∧ check a = .error e := by
  cases o <;> simp [checkSome]

theorem raises_checkSome {Q : ε → Prop} {o : Option α} {check : α → Except ε Unit}
    (h : ∀ a, Raises (check a) Q) : Raises (checkSome o check) Q := by
  intro e he
  obtain ⟨a, -, ha⟩ := checkSome_eq_error.mp he
  exact h a e ha

/-- The value, or the exception raised in its absence. -/
def getE (o : Option α) (e : ε) : Except ε α :=
  match o with
  | none => .error e
  | some a => .ok a

@[simp] theorem getE_eq_ok {o : Option α} {e : ε} {a : α} : getE o e = .ok a ↔ o = some a := by
  cases o <;> simp [getE]

@[simp] theorem getE_eq_error {o : Option α} {e e' : ε} :
    getE o e = .error e' ↔ o = none ∧ e' = e := by
  cases o <;> simp [getE, eq_comm]

theorem raises_getE {Q : ε → Prop} {o : Option α} {e : ε} (h : Q e) : Raises (getE o e) Q := by
  intro e' he
  rw [(getE_eq_error.mp he).2]
  exact h

/-- Check every element in turn; the first failure is raised. -/
def forE (l : List α) (check : α → Except ε Unit) : Except ε Unit :=
  match l with
  | [] => .ok ()
  | a :: l => check a >>= fun _ => forE l check

@[simp] theorem forE_eq_ok {l : List α} {check : α → Except ε Unit} {u : Unit} :
    forE l check = .ok u ↔ ∀ a ∈ l, check a = .ok () := by
  induction l with
  | nil => simp [forE]
  | cons a l ih =>
    simp only [forE, bind_eq_ok, ih, List.forall_mem_cons]
    exact ⟨fun ⟨_, ha, hl⟩ => ⟨ha, hl⟩, fun ⟨ha, hl⟩ => ⟨_, ha, hl⟩⟩

theorem mem_of_forE_eq_error {l : List α} {check : α → Except ε Unit} {e : ε}
    (h : forE l check = .error e) : ∃ a ∈ l, check a = .error e := by
  induction l with
  | nil => simp [forE] at h
  | cons a l ih =>
    rcases bind_eq_error.mp h with ha | ⟨_, -, hl⟩
    · exact ⟨a, List.mem_cons_self, ha⟩
    · obtain ⟨b, hb, hbe⟩ := ih hl
      exact ⟨b, List.mem_cons_of_mem _ hb, hbe⟩

/-- `a` is the first element of `l` that meets `P`. -/
def First (P : α → Prop) (l : List α) (a : α) : Prop :=
  ∃ pre post, l = pre ++ a :: post ∧ P a ∧ ∀ b ∈ pre, ¬ P b

theorem First.mem {P : α → Prop} {l : List α} {a : α} (h : First P l a) : a ∈ l := by
  obtain ⟨pre, post, rfl, -, -⟩ := h
  exact List.mem_append_right _ List.mem_cons_self

theorem First.holds {P : α → Prop} {l : List α} {a : α} (h : First P l a) : P a := by
  obtain ⟨-, -, -, ha, -⟩ := h
  exact ha

theorem First.congr {P Q : α → Prop} {l : List α} {a : α} (h : First P l a)
    (hPQ : ∀ b ∈ l, P b ↔ Q b) : First Q l a := by
  obtain ⟨pre, post, rfl, ha, hpre⟩ := h
  refine ⟨pre, post, rfl, (hPQ a (by simp)).mp ha, fun b hb hq => ?_⟩
  exact hpre b hb ((hPQ b (by simp [hb])).mpr hq)

theorem First.unique {P : α → Prop} {l : List α} {a b : α} (ha : First P l a) (hb : First P l b) :
    a = b := by
  obtain ⟨pre, post, hl, hpa, hpre⟩ := ha
  obtain ⟨pre', post', hl', hpb, hpre'⟩ := hb
  rcases List.append_eq_append_iff.mp (hl.symm.trans hl') with ⟨as, hpre'', h⟩ | ⟨as, hpre'', h⟩
  · cases as with
    | nil => exact (List.cons.inj h).1
    | cons c as =>
      have hc : a = c := (List.cons.inj h).1
      exact absurd hpa (hpre' a (by simp [hpre'', hc]))
  · cases as with
    | nil => exact (List.cons.inj h).1.symm
    | cons c as =>
      have hc : b = c := (List.cons.inj h).1
      exact absurd hpb (hpre b (by simp [hpre'', hc]))

/-- The failure that is raised is that of the first element that fails. -/
theorem first_of_forE_eq_error {l : List α} {check : α → Except ε Unit} {e : ε}
    (h : forE l check = .error e) :
    ∃ a, First (fun a => check a ≠ .ok ()) l a ∧ check a = .error e := by
  induction l with
  | nil => simp [forE] at h
  | cons a l ih =>
    rcases bind_eq_error.mp h with ha | ⟨⟨⟩, ha, hl⟩
    · exact ⟨a, ⟨[], l, rfl, by simp [ha], nofun⟩, ha⟩
    · obtain ⟨b, ⟨pre, post, rfl, hb, hpre⟩, he⟩ := ih hl
      refine ⟨b, ⟨a :: pre, post, rfl, hb, ?_⟩, he⟩
      rw [List.forall_mem_cons]
      exact ⟨not_not_intro ha, hpre⟩

/-- The elements computed in turn; the first failure is raised. -/
def mapE {β : Type} (l : List α) (f : α → Except ε β) : Except ε (List β) :=
  match l with
  | [] => .ok []
  | a :: l => f a >>= fun b => mapE l f >>= fun bs => .ok (b :: bs)

/-- A list is made element by element. -/
theorem ensures_mapE {β : Type} {f : α → Except ε β} {R : α → β → Prop} :
    ∀ l : List α, (∀ a ∈ l, Ensures (f a) (R a)) → Ensures (mapE l f) (List.Forall₂ R l) := by
  intro l
  induction l with
  | nil => exact fun _ => ensures_ok .nil
  | cons a l ih =>
    intro hf
    refine ensures_bind fun b hb => ensures_bind fun bs hbs => ensures_ok ?_
    exact .cons (hf a List.mem_cons_self b hb)
      (ih (fun a' ha' => hf a' (List.mem_cons_of_mem _ ha')) bs hbs)

theorem exists_of_forall₂_right {β : Type} {R : α → β → Prop} {l : List α} {bs : List β}
    (h : List.Forall₂ R l bs) {b : β} (hb : b ∈ bs) : ∃ a ∈ l, R a b := by
  induction h with
  | nil => cases hb
  | @cons a b' l bs hab _ ih =>
    rcases List.mem_cons.mp hb with rfl | hb
    · exact ⟨a, List.mem_cons_self, hab⟩
    · obtain ⟨a', ha', hR⟩ := ih hb
      exact ⟨a', List.mem_cons_of_mem _ ha', hR⟩

theorem exists_of_forall₂_left {β : Type} {R : α → β → Prop} {l : List α} {bs : List β}
    (h : List.Forall₂ R l bs) {a : α} (ha : a ∈ l) : ∃ b ∈ bs, R a b :=
  exists_of_forall₂_right (List.Forall₂.flip h) ha

theorem map_eq_map_of_forall₂ {β γ : Type} {R : α → β → Prop} {f : α → γ} {g : β → γ}
    (hR : ∀ a b, R a b → f a = g b) {l : List α} {bs : List β} (h : List.Forall₂ R l bs) :
    l.map f = bs.map g := by
  rw [← List.forall₂_eq_eq_eq, List.forall₂_map_left_iff, List.forall₂_map_right_iff]
  exact h.imp hR

theorem forall_of_mapE {β : Type} {f : α → Except ε β} {P : β → Prop} {l : List α} {bs : List β}
    (hf : ∀ a ∈ l, Ensures (f a) P) (h : mapE l f = .ok bs) : ∀ b ∈ bs, P b := by
  intro b hb
  obtain ⟨_, -, hP⟩ := exists_of_forall₂_right (ensures_mapE l hf bs h) hb
  exact hP

theorem mem_of_mapE_eq_error {β : Type} {l : List α} {f : α → Except ε β} {e : ε}
    (h : mapE l f = .error e) : ∃ a ∈ l, f a = .error e := by
  induction l with
  | nil => simp [mapE] at h
  | cons a l ih =>
    rcases bind_eq_error.mp h with ha | ⟨b, -, h⟩
    · exact ⟨a, List.mem_cons_self, ha⟩
    · rcases bind_eq_error.mp h with hl | ⟨bs, -, h⟩
      · obtain ⟨c, hc, hce⟩ := ih hl
        exact ⟨c, List.mem_cons_of_mem _ hc, hce⟩
      · cases h

theorem mapE_congr {β : Type} {l : List α} {f g : α → Except ε β} (h : ∀ a ∈ l, f a = g a) :
    mapE l f = mapE l g := by
  induction l with
  | nil => rfl
  | cons a l ih =>
    obtain ⟨ha, hl⟩ := List.forall_mem_cons.mp h
    rw [mapE, mapE, ha, ih hl]

theorem mapE_map {β γ : Type} {l : List α} {g : α → β} {f : β → Except ε γ} :
    mapE (l.map g) f = mapE l fun a => f (g a) := by
  induction l with
  | nil => rfl
  | cons a l ih => rw [List.map_cons, mapE, mapE, ih]

theorem mapE_eq_map {β : Type} {l : List α} {f : α → Except ε β} {g : α → β}
    (h : ∀ a ∈ l, f a = .ok (g a)) : mapE l f = .ok (l.map g) := by
  induction l with
  | nil => rfl
  | cons a l ih =>
    obtain ⟨ha, hl⟩ := List.forall_mem_cons.mp h
    rw [mapE, ha, ok_bind, ih hl, ok_bind, List.map_cons]

theorem mapE_isOk {β : Type} {l : List α} {f : α → Except ε β} :
    (∃ bs, mapE l f = .ok bs) ↔ ∀ a ∈ l, ∃ b, f a = .ok b := by
  induction l with
  | nil => simp [mapE]
  | cons a l ih =>
    simp only [mapE, bind_eq_ok, List.forall_mem_cons, ← ih]
    constructor
    · rintro ⟨_, b, hb, bs, hbs, -⟩
      exact ⟨⟨b, hb⟩, bs, hbs⟩
    · rintro ⟨⟨b, hb⟩, bs, hbs⟩
      exact ⟨_, b, hb, bs, hbs, rfl⟩

end

end Biztrip.Lib
