import Biztrip.Lib.Overlap

/-!
# Requests kept apart

Each request has the key of what it works on, if anything. `Framed` says that a commit leaves
alone what any other key stands for. In an interleaving where no two requests in flight have the
same key (`Config.Apart`), every commit then finds what its request has read of its key as it
was (`Config.Parted.each`). `Config.trace` are the moves of an abstract machine that the commits
of an interleaving make.
-/

namespace Biztrip.Lib.Machine

variable {σ α ω ε κ β τ : Type} {M : Machine σ α ω ε} {I : σ → Prop} {key : σ → α → Option κ}
  {Same : κ → σ → σ → Prop}

/-- A request begins only if none with its key is in flight. -/
def Config.Apart (key : σ → α → Option κ) : M.Config → List (Event α) → Prop
  | _, [] => True
  | c, e :: evs => (∀ a k f, e = .begin a → key c.db a = some k → f ∈ c.flying →
      key f.seen f.req ≠ some k) ∧ Config.Apart key (c.next e) evs

instance Config.decidableApart {key : σ → α → Option κ} [DecidableEq κ] :
    ∀ (c : M.Config) (evs : List (Event α)), Decidable (Config.Apart key c evs)
  | _, [] => inferInstanceAs (Decidable True)
  | c, .begin a :: evs =>
    have : Decidable (Config.Apart key (c.begin a) evs) := decidableApart (c.begin a) evs
    decidable_of_iff ((∀ k ∈ key c.db a, ∀ f ∈ c.flying, key f.seen f.req ≠ some k) ∧
        Config.Apart key (c.begin a) evs)
      ⟨fun h => ⟨fun _ k f he hk hf => h.1 k (Event.begin.inj he ▸ hk) f hf, h.2⟩,
        fun h => ⟨fun k hk f hf => h.1 a k f rfl hk hf, h.2⟩⟩
  | c, .commit n :: evs =>
    have : Decidable (Config.Apart key (c.commit n) evs) := decidableApart (c.commit n) evs
    decidable_of_iff (Config.Apart key (c.commit n) evs) ⟨fun h => ⟨nofun, h⟩, And.right⟩

/-- What the request has read of its key is still so. -/
def Fresh (key : σ → α → Option κ) (Same : κ → σ → σ → Prop) (s : σ) (f : M.InFlight) : Prop :=
  ∀ k, key f.seen f.req = some k → Same k f.seen s

/-- Under `I`, a commit that finds its key as it was keeps `I` and leaves the other keys alone. -/
structure Framed (M : Machine σ α ω ε) (I : σ → Prop) (key : σ → α → Option κ)
    (Same : κ → σ → σ → Prop) : Prop where
  refl : ∀ k s, Same k s s
  trans : ∀ k a b c, Same k a b → Same k b c → Same k a c
  keeps : ∀ s (f : M.InFlight) s', I s → Fresh key Same s f → M.commit s f.writes = .ok s' → I s'
  frame : ∀ s (f : M.InFlight) s' k, I s → Fresh key Same s f → M.commit s f.writes = .ok s' →
    key f.seen f.req ≠ some k → Same k s s'

def OtherKey (key : σ → α → Option κ) (f g : M.InFlight) : Prop :=
  ∀ k, key f.seen f.req = some k → key g.seen g.req ≠ some k

theorem OtherKey.symm {f g : M.InFlight} (h : OtherKey key f g) : OtherKey key g f :=
  fun k hg hf => h k hf hg

structure Config.Parted (I : σ → Prop) (key : σ → α → Option κ) (Same : κ → σ → σ → Prop)
    (c : M.Config) : Prop where
  db : I c.db
  fresh : ∀ f ∈ c.flying, Fresh key Same c.db f
  apart : c.flying.Pairwise (OtherKey key)

theorem Config.parted_quiet {s : σ} (h : I s) : (Config.quiet M s).Parted I key Same :=
  ⟨h, nofun, .nil⟩

theorem Config.Parted.begin (hf : Framed M I key Same) {c : M.Config} (h : c.Parted I key Same)
    {a : α} (ha : ∀ k f, key c.db a = some k → f ∈ c.flying → key f.seen f.req ≠ some k) :
    (c.begin a).Parted I key Same := by
  unfold Config.begin
  split
  · exact h
  · refine ⟨h.db, fun f hmem => ?_, ?_⟩
    · rcases List.mem_append.mp hmem with hmem | hmem
      · exact h.fresh f hmem
      · rw [List.mem_singleton.mp hmem]
        exact fun k _ => hf.refl k _
    · refine List.pairwise_append.mpr ⟨h.apart, List.pairwise_singleton _ _, fun f hmem g hg => ?_⟩
      rw [List.mem_singleton.mp hg]
      exact fun k hk hnew => ha k f hnew hmem hk

/-- Every other request in flight has another key. -/
theorem otherKey_of_eraseIdx {fs : List M.InFlight} {n : Nat} {f g : M.InFlight}
    (h : fs.Pairwise (OtherKey key)) (hf : fs[n]? = some f) (hg : g ∈ fs.eraseIdx n) :
    OtherKey key f g := by
  obtain ⟨i, hi, hg⟩ := List.mem_eraseIdx_iff_getElem?.mp hg
  obtain ⟨hn, rfl⟩ := List.getElem?_eq_some_iff.mp hf
  obtain ⟨hlt, rfl⟩ := List.getElem?_eq_some_iff.mp hg
  rcases Nat.lt_or_gt_of_ne hi with hi | hi
  · exact (List.pairwise_iff_getElem.mp h i n hlt hn hi).symm
  · exact List.pairwise_iff_getElem.mp h n i hn hlt hi

theorem Config.Parted.commit (hf : Framed M I key Same) {c : M.Config} (n : Nat)
    (h : c.Parted I key Same) : (c.commit n).Parted I key Same := by
  unfold Config.commit
  split
  · exact h
  · rename_i f hn
    have hmem : f ∈ c.flying := List.mem_of_getElem? hn
    have hapart := h.apart.sublist (List.eraseIdx_sublist c.flying n)
    rcases hc : M.commit c.db f.writes with e | s'
    · exact ⟨h.db, fun g hg => h.fresh g (List.mem_of_mem_eraseIdx hg), hapart⟩
    · refine ⟨hf.keeps _ f s' h.db (h.fresh f hmem) hc, fun g hg k hk => ?_, hapart⟩
      have hother := otherKey_of_eraseIdx h.apart hn hg
      refine hf.trans k _ _ _ (h.fresh g (List.mem_of_mem_eraseIdx hg) k hk) ?_
      exact hf.frame _ f s' k h.db (h.fresh f hmem) hc fun he => hother k he hk

/-- Requests kept apart commit over what they have read of their keys. -/
theorem Config.Parted.each (hf : Framed M I key Same) : ∀ {evs : List (Event α)} {c : M.Config},
    c.Parted I key Same → Config.Apart key c evs → Config.Each (Fresh key Same) c evs := by
  intro evs
  induction evs with
  | nil => intro c _ _; trivial
  | cons e evs ih =>
    intro c h ⟨ha, hrest⟩
    refine ⟨fun n f _ hn => h.fresh f (List.mem_of_getElem? hn), ih ?_ hrest⟩
    cases e with
    | begin a => exact h.begin hf fun k f => ha a k f rfl
    | commit n => exact h.commit hf n

/-! ## The moves of an interleaving -/

def Config.moves (label : σ → M.InFlight → Option β) (c : M.Config) : Event α → List β
  | .begin _ => []
  | .commit n =>
    match c.flying[n]? with
    | none => []
    | some f =>
      match M.commit c.db f.writes with
      | .ok _ => (label c.db f).toList
      | .error _ => []

/-- The moves of the commits that succeed, in their order. -/
def Config.trace (label : σ → M.InFlight → Option β) : M.Config → List (Event α) → List β
  | _, [] => []
  | c, e :: evs => c.moves label e ++ Config.trace label (c.next e) evs

/-- What the commits meeting `P` do is what their labels say of the abstract machine. -/
structure Refines (M : Machine σ α ω ε) (move : τ → β → Option τ) (abs : σ → τ)
    (label : σ → M.InFlight → Option β) (I : σ → Prop) (P : σ → M.InFlight → Prop) : Prop where
  inv : ∀ s (f : M.InFlight) s', I s → P s f → M.commit s f.writes = .ok s' → I s'
  moves : ∀ s (f : M.InFlight) s', I s → P s f → M.commit s f.writes = .ok s' →
    (label s f).toList.foldlM move (abs s) = some (abs s')

section
variable {move : τ → β → Option τ} {abs : σ → τ} {label : σ → M.InFlight → Option β}
  {P : σ → M.InFlight → Prop}

theorem Refines.next (h : Refines M move abs label I P) {c : M.Config} {e : Event α} (hc : I c.db)
    (hp : ∀ n f, e = .commit n → c.flying[n]? = some f → P c.db f) :
    I (c.next e).db ∧ (c.moves label e).foldlM move (abs c.db) = some (abs (c.next e).db) := by
  cases e with
  | begin a =>
    rw [Config.next_begin, Config.begin_db]
    exact ⟨hc, rfl⟩
  | commit n =>
    rw [Config.next_commit, Config.commit, Config.moves]
    rcases hn : c.flying[n]? with _ | f
    · exact ⟨hc, rfl⟩
    · have hpf := hp n f rfl hn
      rcases hcommit : M.commit c.db f.writes with e | s' <;> simp only [hcommit, Run.settle]
      · exact ⟨hc, rfl⟩
      · exact ⟨h.inv _ f s' hc hpf hcommit, h.moves _ f s' hc hpf hcommit⟩

theorem Refines.exec (h : Refines M move abs label I P) :
    ∀ {evs : List (Event α)} {c : M.Config}, I c.db → Config.Each P c evs → I (c.exec evs).db := by
  intro evs
  induction evs with
  | nil => intro c hc _; exact hc
  | cons e evs ih =>
    intro c hc ⟨hp, hrest⟩
    exact ih (h.next hc hp).1 hrest

/-- The moves of an interleaving lead from the abstraction of its first state to that of its
last. -/
theorem Refines.trace_foldlM (h : Refines M move abs label I P) :
    ∀ {evs : List (Event α)} {c : M.Config}, I c.db → Config.Each P c evs →
      (c.trace label evs).foldlM move (abs c.db) = some (abs (c.exec evs).db) := by
  intro evs
  induction evs with
  | nil => intro c _ _; rfl
  | cons e evs ih =>
    intro c hc ⟨hp, hrest⟩
    obtain ⟨hnext, hmoves⟩ := h.next hc hp
    rw [Config.trace, List.foldlM_append, hmoves, Option.bind_eq_bind, Option.bind_some]
    exact ih hnext hrest

end

end Biztrip.Lib.Machine
