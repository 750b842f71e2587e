import Mathlib.Data.List.Basic

/-!
# Regular expressions with anchors

The part of Python's `re` that needs no alternatives: anchors, character classes,
repeated classes and sequences, without flags. A match runs over a `Cursor`, a text cut
in two; `run` lists where it can end, in the order a backtracking matcher tries them.
`$` is the end of the text or the place before a newline that ends it.
-/

namespace Biztrip.Lib

/-- The characters of some ranges, as `[A-Za-z_]` names them. -/
def inRanges (ranges : List (Char × Char)) (c : Char) : Bool :=
  ranges.any fun r => r.1 ≤ c && c ≤ r.2

@[simp] theorem inRanges_nil {c : Char} : inRanges [] c = false := rfl

@[simp] theorem inRanges_cons {lo hi c : Char} {ranges : List (Char × Char)} :
    inRanges ((lo, hi) :: ranges) c ↔ (lo ≤ c ∧ c ≤ hi) ∨ inRanges ranges c := by
  simp [inRanges]

inductive Regex where
  /-- `^` -/
  | bos
  /-- `$` -/
  | eos
  /-- `[...]` -/
  | cls (ranges : List (Char × Char))
  /-- `[...]*` -/
  | star (ranges : List (Char × Char))
  | seq (r q : Regex)
  deriving DecidableEq, Repr

/-- A place in a text. What is before it is kept in reverse. -/
structure Cursor where
  before : List Char
  after : List Char
  deriving DecidableEq, Repr

namespace Regex

def runStar (p : Char → Bool) (before : List Char) : List Char → List Cursor
  | [] => [⟨before, []⟩]
  | a :: l => if p a then runStar p (a :: before) l ++ [⟨before, a :: l⟩] else [⟨before, a :: l⟩]

/-- The ends of the matches from a place on. -/
def run : Regex → Cursor → List Cursor
  | .bos, c => if c.before = [] then [c] else []
  | .eos, c => if c.after = [] ∨ c.after = ['\n'] then [c] else []
  | .cls ranges, c =>
    match c.after with
    | [] => []
    | a :: l => if inRanges ranges a then [⟨a :: c.before, l⟩] else []
  | .star ranges, c => runStar (inRanges ranges) c.before c.after
  | .seq r q, c => (r.run c).flatMap q.run

/-- `pattern.match(s)`: a match that begins with the text, if there is one. -/
def match? (r : Regex) (s : String) : Option Cursor := (r.run ⟨[], s.toList⟩).head?

/-! ## Where a match can end -/

variable {r q : Regex} {ranges : List (Char × Char)} {before after : List Char} {c c' : Cursor}

theorem mem_run_bos : c' ∈ bos.run c ↔ c.before = [] ∧ c' = c := by
  unfold run
  split <;> simp_all

theorem mem_run_eos : c' ∈ eos.run c ↔ (c.after = [] ∨ c.after = ['\n']) ∧ c' = c := by
  unfold run
  split <;> simp_all

theorem mem_run_cls : c' ∈ (cls ranges).run c ↔
    ∃ a l, c.after = a :: l ∧ inRanges ranges a = true ∧ c' = ⟨a :: c.before, l⟩ := by
  unfold run
  split
  · next h => simp [h]
  · next a l h =>
    rw [h]
    split
    · next ha => simp [ha]
    · next ha => simp [ha]

theorem mem_runStar {p : Char → Bool} : c' ∈ runStar p before after ↔
    ∃ l m, after = l ++ m ∧ (∀ a ∈ l, p a = true) ∧ c' = ⟨l.reverse ++ before, m⟩ := by
  induction after generalizing before with
  | nil =>
    simp only [runStar, List.mem_singleton, List.nil_eq, List.append_eq_nil_iff]
    constructor
    · rintro rfl
      exact ⟨[], [], ⟨rfl, rfl⟩, nofun, rfl⟩
    · rintro ⟨_, _, ⟨rfl, rfl⟩, -, rfl⟩
      rfl
  | cons a after ih =>
    have hstop : c' = ⟨before, a :: after⟩ →
        ∃ l m, a :: after = l ++ m ∧ (∀ a ∈ l, p a = true) ∧ c' = ⟨l.reverse ++ before, m⟩ :=
      fun h => ⟨[], a :: after, rfl, nofun, h⟩
    rw [runStar]
    split
    · next ha =>
      rw [List.mem_append, ih, List.mem_singleton]
      constructor
      · rintro (⟨l, m, rfl, hl, rfl⟩ | h)
        · exact ⟨a :: l, m, rfl, List.forall_mem_cons.mpr ⟨ha, hl⟩, by simp⟩
        · exact hstop h
      · rintro ⟨l, m, h, hl, rfl⟩
        cases l with
        | nil => exact .inr (by simp [h])
        | cons b l =>
          obtain ⟨rfl, rfl⟩ := List.cons.inj h
          exact .inl ⟨l, m, rfl, fun b hb => hl b (List.mem_cons_of_mem _ hb), by simp⟩
    · next ha =>
      rw [List.mem_singleton]
      refine ⟨hstop, ?_⟩
      rintro ⟨l, m, h, hl, rfl⟩
      cases l with
      | nil => simp [h]
      | cons b l =>
        obtain ⟨rfl, rfl⟩ := List.cons.inj h
        exact absurd (hl a List.mem_cons_self) ha

theorem mem_run_star : c' ∈ (star ranges).run c ↔ ∃ l m, c.after = l ++ m ∧
    (∀ a ∈ l, inRanges ranges a = true) ∧ c' = ⟨l.reverse ++ c.before, m⟩ :=
  mem_runStar

theorem mem_run_seq : c' ∈ (seq r q).run c ↔ ∃ d ∈ r.run c, c' ∈ q.run d := by
  simp only [run, List.mem_flatMap]

theorem match?_isSome {s : String} :
    (r.match? s).isSome ↔ ∃ c, c ∈ r.run ⟨[], s.toList⟩ := by
  rw [match?, List.isSome_head?]
  exact ⟨List.exists_mem_of_ne_nil _, fun ⟨_, hc⟩ => List.ne_nil_of_mem hc⟩

end Regex

end Biztrip.Lib
