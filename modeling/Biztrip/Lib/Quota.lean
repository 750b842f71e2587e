import Mathlib.Data.List.Perm.Basic
import Biztrip.Lib.Overlap

/-!
# Counting before adding

A request that adds to something that is capped looks first whether there is room. Requests
that look before any of them has committed all find room, and the cap is overrun.
`Quota.count_le` says by how much: by no more than the other requests that were in flight at a
time. `exec_together` is how the bound is met: requests that all read before the first commit.
What is counted may fade as time goes by, so everything is counted at a moment.
-/

namespace Biztrip.Lib.Machine

variable {σ α ω ε τ : Type} {M : Machine σ α ω ε}

/-- Some of the requests add to what is counted, by one, once they have found room for it at their
own moment. No request adds more than that. -/
structure Quota (M : Machine σ α ω ε) (τ : Type) [LE τ] where
  adds : α → Bool
  moment : α → τ
  count : τ → σ → Nat
  cap : Nat
  fades : ∀ {t t' : τ} (s : σ), t ≤ t' → count t' s ≤ count t s
  room : ∀ {s : σ} {a : α} {w : ω}, M.plan s a = .ok w → adds a = true → count (moment a) s < cap
  commit : ∀ {s s' : σ} (f : M.InFlight) (t : τ), M.commit s f.writes = .ok s' →
    count t s' ≤ count t s + (adds f.req).toNat

namespace Quota

variable [LE τ] (q : M.Quota τ) {c : M.Config} {k : Nat} {t : τ}

/-- How many of the requests in flight are going to add. -/
def waiting (c : M.Config) : Nat := c.flying.countP fun f => q.adds f.req

/-- No request has read after the moment. -/
def Past (evs : List (Event α)) (t : τ) : Prop := ∀ a, Event.begin a ∈ evs → q.moment a ≤ t

theorem countP_eraseIdx {β : Type} {p : β → Bool} {l : List β} {k : Nat} {b : β}
    (h : l[k]? = some b) : (l.eraseIdx k).countP p + (p b).toNat = l.countP p := by
  obtain ⟨hk, rfl⟩ := List.getElem?_eq_some_iff.mp h
  rw [← (List.getElem_cons_eraseIdx_perm hk).countP_eq p, List.countP_cons]
  cases p l[k] <;> rfl

theorem begin_le {a : α} (h : q.count t c.db + q.waiting c ≤ q.cap + k)
    (hk : q.waiting (c.begin a) ≤ k + 1) (ha : q.moment a ≤ t) :
    q.count t (c.begin a).db + q.waiting (c.begin a) ≤ q.cap + k := by
  unfold Config.begin at hk ⊢
  split at hk
  · exact h
  · next w hplan =>
    rw [waiting] at hk ⊢
    cases hadds : q.adds a with
    | false =>
      rw [List.countP_append, List.countP_singleton, hadds]
      exact h
    | true =>
      -- there was room at its moment, and what is counted has only faded since
      have hroom := q.room hplan hadds
      have hfades := q.fades c.db ha
      simp only at hk ⊢
      omega

theorem commit_le {j : Nat} (h : q.count t c.db + q.waiting c ≤ q.cap + k) :
    q.count t (c.commit j).db + q.waiting (c.commit j) ≤ q.cap + k := by
  unfold Config.commit
  split
  · exact h
  · next f hf =>
    have hwaiting : (c.flying.eraseIdx j).countP (fun f => q.adds f.req) + (q.adds f.req).toNat =
        q.waiting c := countP_eraseIdx hf
    have hdb : q.count t (Run.settle c.db (M.commit c.db f.writes)) ≤
        q.count t c.db + (q.adds f.req).toNat := by
      rcases hcommit : M.commit c.db f.writes with e | s'
      · exact Nat.le_add_right ..
      · exact q.commit f t hcommit
    rw [waiting]
    simp only
    omega

/-- With at most `k + 1` of them in flight at a time, the requests overrun the cap by at most `k`,
those that have not committed included. -/
theorem count_le : ∀ {evs : List (Event α)} {c : M.Config},
    q.count t c.db + q.waiting c ≤ q.cap + k →
    (∀ n, q.waiting (c.exec (evs.take n)) ≤ k + 1) → q.Past evs t →
    q.count t (c.exec evs).db + q.waiting (c.exec evs) ≤ q.cap + k := by
  intro evs
  induction evs with
  | nil => exact fun h _ _ => h
  | cons e evs ih =>
    intro c h hk hpast
    refine ih (c := c.next e) ?_ (fun n => hk (n + 1)) fun a ha =>
      hpast a (List.mem_cons_of_mem _ ha)
    cases e with
    | begin a => exact q.begin_le h (hk 1) (hpast a List.mem_cons_self)
    | commit j => exact q.commit_le h

end Quota

/-! ## Requests that read together -/

/-- All the requests read before the first of them commits. -/
def together (as : List α) : List (Event α) :=
  as.map .begin ++ List.replicate as.length (.commit 0)

/-- The request in flight that a read leaves, unless its guards raise. -/
def InFlight.read (M : Machine σ α ω ε) (s : σ) (a : α) : Option M.InFlight :=
  match h : M.plan s a with
  | .error _ => none
  | .ok w => some ⟨a, s, w, h⟩

theorem InFlight.read_of_error {s : σ} {a : α} {e : ε} (h : M.plan s a = .error e) :
    InFlight.read M s a = none := by
  unfold InFlight.read
  split
  · rfl
  · next w hw =>
    rw [h] at hw
    cases hw

theorem InFlight.read_of_ok {s : σ} {a : α} {w : ω} (h : M.plan s a = .ok w) :
    InFlight.read M s a = some ⟨a, s, w, h⟩ := by
  unfold InFlight.read
  split
  · next e he =>
    rw [h] at he
    cases he
  · next w' hw' =>
    cases h.symm.trans hw'
    rfl

theorem Config.begin_of_error {c : M.Config} {a : α} {e : ε} (h : M.plan c.db a = .error e) :
    c.begin a = c := by
  unfold Config.begin
  split
  · rfl
  · next w hw =>
    rw [h] at hw
    cases hw

theorem Config.begin_of_ok {c : M.Config} {a : α} {w : ω} (h : M.plan c.db a = .ok w) :
    c.begin a = { c with flying := c.flying ++ [⟨a, c.db, w, h⟩] } := by
  unfold Config.begin
  split
  · next e he =>
    rw [h] at he
    cases he
  · next w' hw' =>
    cases h.symm.trans hw'
    rfl

theorem Config.begin_eq (c : M.Config) (a : α) :
    c.begin a = ⟨c.db, c.flying ++ (InFlight.read M c.db a).toList⟩ := by
  cases h : M.plan c.db a with
  | error e =>
    rw [begin_of_error h, InFlight.read_of_error h, Option.toList_none, List.append_nil]
  | ok w =>
    rw [begin_of_ok h, InFlight.read_of_ok h]
    rfl

theorem exec_begins (as : List α) : ∀ c : M.Config,
    c.exec (as.map .begin) = ⟨c.db, c.flying ++ as.filterMap (InFlight.read M c.db)⟩ := by
  induction as with
  | nil => exact fun c => congrArg (Config.mk c.db) (List.append_nil c.flying).symm
  | cons a as ih =>
    intro c
    rw [List.map_cons, Config.exec_cons, Config.next_begin, ih, c.begin_eq, List.append_assoc]
    cases h : InFlight.read M c.db a with
    | none => rw [List.filterMap_cons_none h]; rfl
    | some f => rw [List.filterMap_cons_some h]; rfl

theorem exec_commits : ∀ (flying : List M.InFlight) (s : σ),
    Config.exec ⟨s, flying⟩ (List.replicate flying.length (.commit 0)) =
      Config.quiet M (flying.foldl (fun s f => Run.settle s (M.commit s f.writes)) s) := by
  intro flying
  induction flying with
  | nil => exact fun _ => rfl
  | cons f flying ih => exact fun s => ih (Run.settle s (M.commit s f.writes))

/-- Requests that read together and are not refused then commit one after the other. -/
theorem exec_together {as : List α} {s : σ} (h : ∀ a ∈ as, ∃ w, M.plan s a = .ok w) :
    (Config.quiet M s).exec (together as) = Config.quiet M ((as.filterMap
      (InFlight.read M s)).foldl (fun s f => Run.settle s (M.commit s f.writes)) s) := by
  have hlength : (as.filterMap (InFlight.read M s)).length = as.length := by
    rw [List.length_filterMap_eq_countP, List.countP_eq_length]
    intro a ha
    obtain ⟨w, hw⟩ := h a ha
    rw [InFlight.read_of_ok hw]
    rfl
  rw [together, Config.exec_append, exec_begins, ← hlength]
  exact exec_commits _ s

end Biztrip.Lib.Machine
