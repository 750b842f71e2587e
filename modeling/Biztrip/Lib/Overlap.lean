import Biztrip.Lib.Guard
import Biztrip.Lib.Run

/-!
# Overlapping requests

A request over a database has two steps. It first *reads*: it loads the
committed state, runs its guards and computes what it will write. Later it
*commits*: the writes are applied, in one step, to whatever is committed by
then. Between the two any number of other requests may commit. `Machine` gives
the two steps; an `InFlight` request carries the state it read and the proof
that its writes were computed there; `exec` runs an arbitrary interleaving of
`begin` and `commit` events.

`Keeps` is what an induction over interleavings needs of one commit: it keeps an
invariant `I` of the committed state, and it is a step of a relation `O` between
what a request has read, possibly long ago, and what is committed by now.
`Config.Sound.exec` and `Config.Sound.across` are that induction. `exec_serial`
relates the two notions of a run: a request that commits with nothing in between
is one step of the serial machine.
-/

namespace Biztrip.Lib

/-- Requests `α` over states `σ`: the read step computes writes `ω`, the commit applies them. -/
structure Machine (σ α ω ε : Type) where
  plan : σ → α → Except ε ω
  commit : σ → ω → Except ε σ

namespace Machine

variable {σ α ω ε : Type}

/-- The serial step: read and commit with nothing in between. -/
def step (M : Machine σ α ω ε) (s : σ) (a : α) : Except ε σ := M.plan s a >>= M.commit s

/-- A request between its read step and its commit step. -/
structure InFlight (M : Machine σ α ω ε) where
  req : α
  /-- The committed state the request read. -/
  seen : σ
  writes : ω
  planned : M.plan seen req = .ok writes

/-- The committed state and the requests that have read but not committed. -/
structure Config (M : Machine σ α ω ε) where
  db : σ
  flying : List M.InFlight

inductive Event (α : Type) where
  /-- A request reads and runs its guards; if they raise, it is over. -/
  | begin (a : α)
  /-- The `k`-th request in flight commits; if the database refuses, nothing changes. -/
  | commit (k : Nat)
  deriving DecidableEq, Repr

variable {M : Machine σ α ω ε}

def Config.begin (c : M.Config) (a : α) : M.Config :=
  match h : M.plan c.db a with
  | .error _ => c
  | .ok w => { c with flying := c.flying ++ [⟨a, c.db, w, h⟩] }

def Config.commit (c : M.Config) (k : Nat) : M.Config :=
  match c.flying[k]? with
  | none => c
  | some f => ⟨Run.settle c.db (M.commit c.db f.writes), c.flying.eraseIdx k⟩

def Config.next (c : M.Config) : Event α → M.Config
  | .begin a => c.begin a
  | .commit k => c.commit k

/-- An interleaving, from a configuration. -/
def Config.exec (c : M.Config) (evs : List (Event α)) : M.Config := evs.foldl Config.next c

/-- A committed state with nothing in flight. -/
def Config.quiet (M : Machine σ α ω ε) (s : σ) : M.Config := ⟨s, []⟩

@[simp] theorem Config.exec_cons (c : M.Config) (e : Event α) (evs : List (Event α)) :
    c.exec (e :: evs) = (c.next e).exec evs := rfl

@[simp] theorem Config.next_begin (c : M.Config) (a : α) : c.next (.begin a) = c.begin a := rfl

@[simp] theorem Config.next_commit (c : M.Config) (k : Nat) : c.next (.commit k) = c.commit k := rfl

@[simp] theorem Config.begin_db (c : M.Config) (a : α) : (c.begin a).db = c.db := by
  unfold Config.begin
  split <;> rfl

/-- Every commit of the interleaving meets `P` in the committed state it finds. -/
def Config.Each (P : σ → M.InFlight → Prop) : M.Config → List (Event α) → Prop
  | _, [] => True
  | c, e :: evs => (∀ k f, e = .commit k → c.flying[k]? = some f → P c.db f) ∧
      Config.Each P (c.next e) evs

theorem Config.each_true (c : M.Config) (evs : List (Event α)) :
    Config.Each (fun _ _ => True) c evs := by
  induction evs generalizing c with
  | nil => trivial
  | cons e evs ih => exact ⟨fun _ _ _ _ => trivial, ih _⟩

theorem Config.Each.and {P Q : σ → M.InFlight → Prop} {evs : List (Event α)} :
    ∀ {c : M.Config}, Config.Each P c evs → Config.Each Q c evs →
      Config.Each (fun s f => P s f ∧ Q s f) c evs := by
  induction evs with
  | nil => intro c _ _; trivial
  | cons e evs ih =>
    intro c ⟨hp, hps⟩ ⟨hq, hqs⟩
    exact ⟨fun k f he hf => ⟨hp k f he hf, hq k f he hf⟩, ih hps hqs⟩

instance Config.decidableEach {P : σ → M.InFlight → Prop} [∀ s f, Decidable (P s f)] :
    ∀ (c : M.Config) (evs : List (Event α)), Decidable (Config.Each P c evs)
  | _, [] => inferInstanceAs (Decidable True)
  | c, .begin a :: evs =>
    have := decidableEach (P := P) (c.begin a) evs
    decidable_of_iff (Config.Each P (c.begin a) evs) ⟨fun h => ⟨nofun, h⟩, And.right⟩
  | c, .commit k :: evs =>
    have := decidableEach (P := P) (c.commit k) evs
    decidable_of_iff ((∀ f ∈ c.flying[k]?, P c.db f) ∧ Config.Each P (c.commit k) evs)
      ⟨fun h => ⟨fun _ f he hf => h.1 f (Event.commit.inj he ▸ hf), h.2⟩,
        fun h => ⟨fun f hf => h.1 k f rfl hf, h.2⟩⟩

/-- One event either leaves the committed state or is a commit of a request in flight. -/
theorem Config.next_db (c : M.Config) (e : Event α) :
    (c.next e).db = c.db ∨
      ∃ k f, e = .commit k ∧ c.flying[k]? = some f ∧
        M.commit c.db f.writes = .ok (c.next e).db := by
  cases e with
  | begin a => exact .inl (c.begin_db a)
  | commit k =>
    rw [Config.next_commit, Config.commit]
    split
    · exact .inl rfl
    · rename_i f hf
      rcases h : M.commit c.db f.writes with e | s'
      · exact .inl rfl
      · exact .inr ⟨k, f, rfl, hf, h⟩

/-- The committed states before and after each event of an interleaving are related by `R`. -/
def Config.Across (R : σ → σ → Prop) : M.Config → List (Event α) → Prop
  | _, [] => True
  | c, e :: evs => R c.db (c.next e).db ∧ Config.Across R (c.next e) evs

/-! ## Requests in flight -/

/-- The committed state satisfies `I`. So did the states that the requests in flight have read, and
the committed state has come about from each of them by `O`. -/
structure Config.Sound (I : σ → Prop) (O : σ → σ → Prop) (c : M.Config) : Prop where
  db : I c.db
  flying : ∀ f ∈ c.flying, I f.seen ∧ O f.seen c.db

theorem Config.sound_quiet {I : σ → Prop} {O : σ → σ → Prop} {s : σ} (h : I s) :
    (Config.quiet M s).Sound I O := ⟨h, nofun⟩

/-- What a commit meeting `P` does to the state it finds, given that this state came about by `O`
from the one the request has read: it keeps `I`, and it is a step of `O`. -/
structure Keeps (M : Machine σ α ω ε) (I : σ → Prop) (O : σ → σ → Prop)
    (P : σ → M.InFlight → Prop) : Prop where
  refl : ∀ s, O s s
  trans : ∀ a b c, O a b → O b c → O a c
  commit : ∀ s (f : M.InFlight) s', I s → I f.seen → O f.seen s → P s f →
    M.commit s f.writes = .ok s' → I s' ∧ O s s'

section
variable {I : σ → Prop} {O : σ → σ → Prop} {P : σ → M.InFlight → Prop}

/-- What has come about from the first state by `O` is kept along with `I`. -/
theorem Keeps.since (hk : M.Keeps I O P) (s₀ : σ) : M.Keeps (fun s => I s ∧ O s₀ s) O P where
  refl := hk.refl
  trans := hk.trans
  commit s f s' hs hseen hsince hp hc := by
    obtain ⟨hs', hstep⟩ := hk.commit s f s' hs.1 hseen.1 hsince hp hc
    exact ⟨⟨hs', hk.trans _ _ _ hs.2 hstep⟩, hstep⟩

theorem Config.Sound.begin (hk : M.Keeps I O P) {c : M.Config} (h : c.Sound I O) (a : α) :
    (c.begin a).Sound I O := by
  unfold Config.begin
  split
  · exact h
  · refine ⟨h.db, fun f hf => ?_⟩
    rcases List.mem_append.mp hf with hf | hf
    · exact h.flying f hf
    · rw [List.mem_singleton.mp hf]
      exact ⟨h.db, hk.refl _⟩

theorem Config.Sound.commit (hk : M.Keeps I O P) {c : M.Config} {k : Nat} (h : c.Sound I O)
    (hp : ∀ f, c.flying[k]? = some f → P c.db f) : (c.commit k).Sound I O := by
  unfold Config.commit
  split
  · exact h
  · rename_i f hf
    have hflying : ∀ g ∈ c.flying.eraseIdx k, I g.seen ∧ O g.seen c.db :=
      fun g hg => h.flying g (List.mem_of_mem_eraseIdx hg)
    rcases hc : M.commit c.db f.writes with e | s'
    · exact ⟨h.db, hflying⟩
    · obtain ⟨hseen, hsince⟩ := h.flying f (List.mem_of_getElem? hf)
      obtain ⟨hs', hstep⟩ := hk.commit _ f s' h.db hseen hsince (hp f hf) hc
      exact ⟨hs', fun g hg => ⟨(hflying g hg).1, hk.trans _ _ _ (hflying g hg).2 hstep⟩⟩

theorem Config.Sound.next (hk : M.Keeps I O P) {c : M.Config} {e : Event α} (h : c.Sound I O)
    (hp : ∀ k f, e = .commit k → c.flying[k]? = some f → P c.db f) : (c.next e).Sound I O := by
  cases e with
  | begin a => exact h.begin hk a
  | commit k => exact h.commit hk fun f => hp k f rfl

/-- An interleaving whose commits meet `P` stays sound. -/
theorem Config.Sound.exec (hk : M.Keeps I O P) :
    ∀ {evs : List (Event α)} {c : M.Config}, c.Sound I O → Config.Each P c evs →
      (c.exec evs).Sound I O := by
  intro evs
  induction evs with
  | nil => intro c h _; exact h
  | cons e evs ih =>
    intro c h ⟨hp, hrest⟩
    exact ih (h.next hk hp) hrest

/-- A relation that holds of doing nothing and of every such commit holds across every event. -/
theorem Config.Sound.across {R : σ → σ → Prop} (hk : M.Keeps I O P) (hrefl : ∀ s, R s s)
    (hcommit : ∀ s (f : M.InFlight) s', I s → I f.seen → O f.seen s → P s f →
      M.commit s f.writes = .ok s' → R s s') :
    ∀ {evs : List (Event α)} {c : M.Config}, c.Sound I O → Config.Each P c evs →
      Config.Across R c evs := by
  intro evs
  induction evs with
  | nil => intro c _ _; trivial
  | cons e evs ih =>
    intro c h ⟨hp, hrest⟩
    refine ⟨?_, ih (h.next hk hp) hrest⟩
    rcases c.next_db e with hdb | ⟨k, f, he, hf, hc⟩
    · rw [hdb]
      exact hrefl _
    · obtain ⟨hseen, hsince⟩ := h.flying f (List.mem_of_getElem? hf)
      exact hcommit c.db f _ h.db hseen hsince (hp k f he hf) hc

end

/-- What every commit keeps, whatever the request has read, every interleaving keeps. -/
theorem Config.exec_db {I : σ → Prop}
    (h : ∀ s (f : M.InFlight) s', I s → M.commit s f.writes = .ok s' → I s') :
    ∀ {evs : List (Event α)} {c : M.Config}, I c.db → I (c.exec evs).db := by
  intro evs
  induction evs with
  | nil => exact id
  | cons e evs ih =>
    intro c hc
    refine ih (c := c.next e) ?_
    rcases c.next_db e with hdb | ⟨k, f, -, -, hcommit⟩
    · rw [hdb]
      exact hc
    · exact h c.db f _ hc hcommit

theorem Config.exec_append (c : M.Config) (evs more : List (Event α)) :
    c.exec (evs ++ more) = (c.exec evs).exec more := List.foldl_append

/-! ## Requests one after another -/

/-- The interleaving in which each request commits before the next one reads. -/
def serial : List α → List (Event α)
  | [] => []
  | a :: as => .begin a :: .commit 0 :: serial as

/-- A request that commits with nothing in between is a step of the serial machine. -/
theorem commit_begin_quiet (s : σ) (a : α) :
    ((Config.quiet M s).begin a).commit 0 = Config.quiet M (Run.settle s (M.step s a)) := by
  unfold Config.begin Config.quiet step
  split
  · rename_i h
    simp only at h
    simp [Config.commit, h, Run.settle]
  · rename_i w h
    simp only at h
    simp [Config.commit, h]

/-- Requests that never overlap run the serial machine. -/
theorem exec_serial (s : σ) (as : List α) :
    (Config.quiet M s).exec (serial as) = Config.quiet M (Run.all M.step s as) := by
  induction as generalizing s with
  | nil => rfl
  | cons a as ih =>
    rw [serial, Config.exec_cons, Config.exec_cons, Run.all_cons, ← ih, Config.next_begin,
      Config.next_commit, commit_begin_quiet]

/-- Requests that never overlap commit over the state they have read. -/
theorem each_serial {P : σ → M.InFlight → Prop} (h : ∀ f : M.InFlight, P f.seen f) (s : σ)
    (as : List α) : Config.Each P (Config.quiet M s) (serial as) := by
  induction as generalizing s with
  | nil => trivial
  | cons a as ih =>
    refine ⟨nofun, fun k f _ hf => ?_, ?_⟩
    · rw [Config.next_begin, Config.begin_db]
      rw [Config.next_begin, Config.begin] at hf
      split at hf
      · cases hf
      · have : f.seen = s := by
          rw [List.mem_singleton.mp (List.mem_of_getElem? hf)]
          rfl
        exact this ▸ h f
    · rw [Config.next_begin, Config.next_commit, commit_begin_quiet]
      exact ih _

/-- What commits keep, serial runs keep. -/
theorem Keeps.run {I : σ → Prop} {O : σ → σ → Prop} {P : σ → M.InFlight → Prop}
    (hk : M.Keeps I O P) (hp : ∀ f : M.InFlight, P f.seen f) {s : σ} (h : I s) (as : List α) :
    I (Run.all M.step s as) := by
  have := ((Config.sound_quiet h).exec hk (each_serial hp s as)).db
  rwa [exec_serial] at this

end Machine

end Biztrip.Lib
