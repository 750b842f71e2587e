import Biztrip.Lib.Guard
import Biztrip.Lib.Regex

/-!
# Schema names

The check of schema names in `app/config.py`, and its uses in `get_settings` and in
`build_engine` of `app/db.py`. A schema name is written into DDL as a text, so it must
be a plain identifier. The pattern that is to see to this ends in `$`, which also lets
a name through that ends in a newline.
-/

namespace Biztrip.Config

open Biztrip.Lib

/-- `_IDENTIFIER`: `^[A-Za-z_][A-Za-z0-9_]*$`. -/
def identifier : Regex :=
  .seq .bos <| .seq (.cls [('A', 'Z'), ('a', 'z'), ('_', '_')]) <|
    .seq (.star [('A', 'Z'), ('a', 'z'), ('0', '9'), ('_', '_')]) .eos

/-- The `ValueError` of `assert_safe_identifier`; its text shows the field and the name. -/
structure UnsafeIdentifier where
  field : String
  name : String
  deriving DecidableEq, Repr

def assertSafeIdentifier (name field : String) : Except UnsafeIdentifier String :=
  if (identifier.match? name).isSome then .ok name else .error ⟨field, name⟩

/-- The schema names among the settings. -/
structure Settings where
  dbSchema : String := "skon"
  userDbSchema : String := "public"
  deriving DecidableEq, Repr

def getSettings (settings : Settings) : Except UnsafeIdentifier Settings := do
  let _ ← assertSafeIdentifier settings.dbSchema "DB_SCHEMA"
  let _ ← assertSafeIdentifier settings.userDbSchema "USER_DB_SCHEMA"
  return settings

structure Engine where
  url : String
  searchPath : String
  deriving DecidableEq, Repr

def buildEngine (url schema : String) : Except UnsafeIdentifier Engine := do
  let _ ← assertSafeIdentifier schema "schema"
  return { url, searchPath := schema }

/-! ## What the pattern lets through -/

/-- One ASCII letter or underscore, then ASCII letters, digits and underscores, and nothing else. -/
def Plain (s : String) : Prop :=
  ∃ a l, s.toList = a :: l ∧ (a.isAlpha ∨ a = '_') ∧ ∀ c ∈ l, c.isAlphanum ∨ c = '_'

variable {c : Char} {name s url field : String}

theorem between_self {a : Char} : (a ≤ c ∧ c ≤ a) ↔ c = a :=
  ⟨fun h => Char.le_antisymm h.2 h.1, fun h => h ▸ ⟨Char.le_refl _, Char.le_refl _⟩⟩

theorem isAlpha_iff : c.isAlpha ↔ ('A' ≤ c ∧ c ≤ 'Z') ∨ 'a' ≤ c ∧ c ≤ 'z' := by
  change (decide ('A'.val ≤ c.val ∧ c.val ≤ 'Z'.val) ||
    ('a'.val ≤ c.val && c.val ≤ 'z'.val)) = true ↔ _
  simp [Char.le_def]

theorem isAlphanum_iff : c.isAlphanum ↔ c.isAlpha ∨ '0' ≤ c ∧ c ≤ '9' := by
  simp [Char.isAlphanum, Char.isDigit, Char.le_def]

theorem inRanges_head : inRanges [('A', 'Z'), ('a', 'z'), ('_', '_')] c ↔ c.isAlpha ∨ c = '_' := by
  simp [between_self, isAlpha_iff, or_assoc]

theorem inRanges_tail : inRanges [('A', 'Z'), ('a', 'z'), ('0', '9'), ('_', '_')] c ↔
    c.isAlphanum ∨ c = '_' := by
  simp [between_self, isAlphanum_iff, isAlpha_iff, or_assoc]

theorem mem_run_identifier {l : List Char} : (∃ c, c ∈ identifier.run ⟨[], l⟩) ↔
    ∃ a m n, l = a :: (m ++ n) ∧ (a.isAlpha ∨ a = '_') ∧
      (∀ c ∈ m, c.isAlphanum ∨ c = '_') ∧ (n = [] ∨ n = ['\n']) := by
  constructor
  · rintro ⟨c, hc⟩
    obtain ⟨_, hbos, hc⟩ := Regex.mem_run_seq.mp hc
    obtain ⟨-, rfl⟩ := Regex.mem_run_bos.mp hbos
    obtain ⟨_, hhead, hc⟩ := Regex.mem_run_seq.mp hc
    obtain ⟨a, _, hl, ha, rfl⟩ := Regex.mem_run_cls.mp hhead
    obtain ⟨_, htail, heos⟩ := Regex.mem_run_seq.mp hc
    obtain ⟨m, n, rfl, hm, rfl⟩ := Regex.mem_run_star.mp htail
    exact ⟨a, m, n, hl, inRanges_head.mp ha, fun c hc => inRanges_tail.mp (hm c hc),
      (Regex.mem_run_eos.mp heos).1⟩
  · rintro ⟨a, m, n, rfl, ha, hm, hn⟩
    refine ⟨⟨m.reverse ++ [a], n⟩, ?_⟩
    refine Regex.mem_run_seq.mpr ⟨_, Regex.mem_run_bos.mpr ⟨rfl, rfl⟩, ?_⟩
    refine Regex.mem_run_seq.mpr ⟨_, Regex.mem_run_cls.mpr ⟨a, m ++ n, rfl, ?_, rfl⟩, ?_⟩
    · exact inRanges_head.mpr ha
    · refine Regex.mem_run_seq.mpr ⟨_, Regex.mem_run_star.mpr ⟨m, n, rfl, ?_, rfl⟩, ?_⟩
      · exact fun c hc => inRanges_tail.mpr (hm c hc)
      · exact Regex.mem_run_eos.mpr ⟨hn, rfl⟩

/-- A plain name, or one with a newline after it. -/
theorem identifier_match_iff : (identifier.match? name).isSome ↔
    Plain name ∨ ∃ t, Plain t ∧ name = t ++ "\n" := by
  rw [Regex.match?_isSome, mem_run_identifier]
  constructor
  · rintro ⟨a, m, n, hname, ha, hm, rfl | rfl⟩
    · exact .inl ⟨a, m, by simpa using hname, ha, hm⟩
    · refine .inr ⟨.ofList (a :: m), ⟨a, m, String.toList_ofList, ha, hm⟩, ?_⟩
      rw [← String.toList_inj, hname]
      simp
  · rintro (⟨a, l, hname, ha, hl⟩ | ⟨t, ⟨a, l, ht, ha, hl⟩, rfl⟩)
    · exact ⟨a, l, [], by simpa using hname, ha, hl, .inl rfl⟩
    · exact ⟨a, l, ['\n'], by simp [ht], ha, hl, .inr rfl⟩

/-- A newline is no part of a plain name. -/
theorem not_plain_newline {t : String} : ¬ Plain (t ++ "\n") := by
  rintro ⟨a, l, hl, ha, hall⟩
  have hmem : '\n' ∈ a :: l := hl ▸ by simp
  have hall' : ∀ c ∈ a :: l, c.isAlphanum ∨ c = '_' :=
    List.forall_mem_cons.mpr ⟨ha.imp_left fun h => isAlphanum_iff.mpr (.inl h), hall⟩
  exact absurd (hall' _ hmem) (by decide)

/-! ## What becomes of a name -/

theorem assertSafeIdentifier_eq_ok {s : String} : assertSafeIdentifier name field = .ok s ↔
    s = name ∧ (identifier.match? name).isSome := by
  unfold assertSafeIdentifier
  split
  · next h => simp [h, eq_comm (a := s)]
  · next h => simp [h]

theorem assertSafeIdentifier_eq_error {e : UnsafeIdentifier} :
    assertSafeIdentifier name field = .error e ↔
      e = ⟨field, name⟩ ∧ ¬ (identifier.match? name).isSome := by
  unfold assertSafeIdentifier
  split
  · next h => simp [h]
  · next h => simp [h, eq_comm (a := e)]

/-- What the check is to be for a text: it accepts exactly a plain name, and a name that
`build_engine` or `get_settings` lets through is plain. -/
structure Exact (name : String) : Prop where
  accepts_iff : ∀ field, assertSafeIdentifier name field = .ok name ↔ Plain name
  raises : ∀ field, ¬ Plain name → assertSafeIdentifier name field = .error ⟨field, name⟩
  engine : ∀ url e, buildEngine url name = .ok e → e.searchPath = name ∧ Plain name
  settings : ∀ set set', getSettings set = .ok set' →
    name = set'.dbSchema ∨ name = set'.userDbSchema → Plain name

theorem match_of_buildEngine {e : Engine} (h : buildEngine url name = .ok e) :
    e.searchPath = name ∧ (identifier.match? name).isSome := by
  obtain ⟨_, hsafe, h⟩ := bind_eq_ok.mp h
  rw [pure_eq_ok, Except.ok.injEq] at h
  exact ⟨h ▸ rfl, (assertSafeIdentifier_eq_ok.mp hsafe).2⟩

theorem match_of_getSettings {set set' : Settings} (h : getSettings set = .ok set')
    (hname : name = set'.dbSchema ∨ name = set'.userDbSchema) :
    (identifier.match? name).isSome := by
  obtain ⟨_, hdb, h⟩ := bind_eq_ok.mp h
  obtain ⟨_, huser, h⟩ := bind_eq_ok.mp h
  rw [pure_eq_ok, Except.ok.injEq] at h
  subst h
  rcases hname with rfl | rfl
  · exact (assertSafeIdentifier_eq_ok.mp hdb).2
  · exact (assertSafeIdentifier_eq_ok.mp huser).2

/-- The check is right about every text but a plain name with a newline after it. -/
theorem identifier_check_exact_iff (name : String) :
    Exact name ↔ ¬ ∃ t, Plain t ∧ name = t ++ "\n" := by
  constructor
  · rintro h ⟨t, ht, rfl⟩
    have hmatch := identifier_match_iff.mpr (.inr ⟨t, ht, rfl⟩)
    have hok : assertSafeIdentifier (t ++ "\n") "schema" = .ok (t ++ "\n") :=
      assertSafeIdentifier_eq_ok.mpr ⟨rfl, hmatch⟩
    exact not_plain_newline ((h.accepts_iff "schema").mp hok)
  · intro h
    have hplain : (identifier.match? name).isSome ↔ Plain name := by
      rw [identifier_match_iff, or_iff_left h]
    constructor
    · intro field
      rw [assertSafeIdentifier_eq_ok, hplain, and_iff_right rfl]
    · intro field hno
      exact assertSafeIdentifier_eq_error.mpr ⟨rfl, hplain.not.mpr hno⟩
    · intro url e he
      exact (match_of_buildEngine he).imp_right hplain.mp
    · intro set set' hset hname
      exact hplain.mp (match_of_getSettings hset hname)

/-- `skon` with a newline after it is accepted. -/
theorem identifier_check_not_exact :
    ¬ ∀ name field, assertSafeIdentifier name field = .ok name ↔ Plain name := by
  intro h
  exact not_plain_newline (t := "skon") ((h "skon\n" "DB_SCHEMA").mp (by decide))

end Biztrip.Config
