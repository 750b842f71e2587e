import Biztrip.System

/-!
# Batch validation of codes

`validate_codes` asks for all groups and all their codes in two queries. What it answers
is what a look at one spec after the other would (`Verdict`): the groups first, each part
in the order of the specs, whatever order the queries return their rows in.
-/

namespace Biztrip.Masters

open Biztrip.Lib Codes

/-! ## One spec -/

def ActiveGroup (s : Store) (groupCode : String) (i : Int) : Prop :=
  ∃ g, s.codeGroups.get i = some g ∧ g.groupCode = groupCode ∧ g.isActive = true

def GroupKnown (s : Store) (spec : CodeSpec) : Prop := ∃ i, ActiveGroup s spec.groupCode i

/-- The value is an active code of the very group. -/
def ValueKnown (s : Store) (spec : CodeSpec) : Prop :=
  ∃ i, ActiveGroup s spec.groupCode i ∧
    ∃ j c, s.codes.get j = some c ∧ c.groupId = i ∧ c.isActive = true ∧ spec.value = some c.code

/-! ## All specs -/

inductive Verdict (s : Store) (specs : List CodeSpec) : Result Unit → Prop where
  | accepted (known : ∀ spec ∈ specs, GroupKnown s spec ∧ ValueKnown s spec) :
    Verdict s specs (.ok ())
  | unknownGroup {spec : CodeSpec} (first : First (fun spec => ¬ GroupKnown s spec) specs spec) :
    Verdict s specs <| .error <| .app <|
      validationError "UNKNOWN_CODE_GROUP" s!"존재하지 않는 코드그룹입니다: {spec.groupCode}"
        (some spec.field)
  | invalidCode {spec : CodeSpec} (groups : ∀ spec ∈ specs, GroupKnown s spec)
    (first : First (fun spec => ¬ ValueKnown s spec) specs spec) :
    Verdict s specs <| .error <| .app <|
      validationError "INVALID_CODE"
        s!"{spec.groupCode} 그룹에 없는 코드값입니다: {optText spec.value}" (some spec.field)

/-- What `validate_codes` may return: each query returns its rows in some order. -/
inductive Returns (s : Store) (specs : List CodeSpec) : Result Unit → Prop where
  | empty (nil : specs = []) : Returns s specs (.ok ())
  | queried {groups : List (String × Int)} {codes : List (Int × String)} (some : specs ≠ [])
    (groupOrder : groups.Perm (groupRows s (specs.map CodeSpec.groupCode)))
    (codeOrder : codes.Perm (codeRows s (groups.map Prod.snd))) :
    Returns s specs (validateRows specs groups codes)

variable {s : Store} {specs : List CodeSpec} {r r' : Result Unit}

theorem returns_validateCodes (s : Store) (specs : List CodeSpec) :
    Returns s specs (validateCodes s specs) := by
  unfold validateCodes
  split
  · next h => exact .empty h
  · next h => exact .queried h (.refl _) (.refl _)

theorem Verdict.eq_ok_iff (h : Verdict s specs r) :
    r = .ok () ↔ ∀ spec ∈ specs, GroupKnown s spec ∧ ValueKnown s spec := by
  cases h with
  | accepted known => simpa using known
  | @unknownGroup spec first =>
    refine ⟨nofun, fun hall => ?_⟩
    exact absurd (hall spec first.mem).1 first.holds
  | @invalidCode spec groups first =>
    refine ⟨nofun, fun hall => ?_⟩
    exact absurd (hall spec first.mem).2 first.holds

/-- The specs and the store leave one verdict. -/
theorem Verdict.unique (h : Verdict s specs r) (h' : Verdict s specs r') : r = r' := by
  cases h with
  | accepted known => exact (h'.eq_ok_iff.mpr known).symm
  | @unknownGroup spec first =>
    cases h' with
    | accepted known => exact absurd (known spec first.mem).1 first.holds
    | unknownGroup first' => rw [first.unique first']
    | invalidCode groups first' => exact absurd (groups spec first.mem) first.holds
  | @invalidCode spec groups first =>
    cases h' with
    | accepted known => exact absurd (known spec first.mem).2 first.holds
    | @unknownGroup spec' first' => exact absurd (groups spec' first'.mem) first'.holds
    | invalidCode groups' first' => rw [first.unique first']

/-! ## The two queries -/

theorem mem_groupRows {wanted : List String} {p : String × Int} :
    p ∈ groupRows s wanted ↔ p.1 ∈ wanted ∧ ActiveGroup s p.1 p.2 := by
  obtain ⟨k, i⟩ := p
  simp only [groupRows, List.mem_map, List.mem_filter, Bool.and_eq_true, decide_eq_true_eq,
    Prod.exists, Table.mem_rows, Prod.mk.injEq, ActiveGroup]
  constructor
  · rintro ⟨_, g, ⟨hg, hwanted, hactive⟩, rfl, rfl⟩
    exact ⟨hwanted, g, hg, rfl, hactive⟩
  · rintro ⟨hwanted, g, hg, rfl, hactive⟩
    exact ⟨i, g, ⟨hg, hwanted, hactive⟩, rfl, rfl⟩

theorem mem_codeRows {groupIds : List Int} {p : Int × String} :
    p ∈ codeRows s groupIds ↔ p.1 ∈ groupIds ∧
      ∃ j c, s.codes.get j = some c ∧ c.groupId = p.1 ∧ c.isActive = true ∧ c.code = p.2 := by
  obtain ⟨i, v⟩ := p
  simp only [codeRows, List.mem_map, List.mem_filter, Bool.and_eq_true, decide_eq_true_eq,
    Prod.exists, Table.mem_rows, Prod.mk.injEq]
  constructor
  · rintro ⟨j, c, ⟨hc, hgroup, hactive⟩, rfl, rfl⟩
    exact ⟨hgroup, j, c, hc, rfl, hactive, rfl⟩
  · rintro ⟨hgroup, j, c, hc, rfl, hactive, rfl⟩
    exact ⟨j, c, ⟨hc, hgroup, hactive⟩, rfl, rfl⟩

theorem mem_of_lookup {rows : List (String × Int)} {key : String} {i : Int}
    (h : lookup rows key = some i) : (key, i) ∈ rows := by
  obtain ⟨⟨k, j⟩, hfind, rfl⟩ := Option.map_eq_some_iff.mp h
  have hk : k = key := by simpa using List.find?_some hfind
  exact hk ▸ List.mem_reverse.mp (List.mem_of_find?_eq_some hfind)

theorem exists_lookup {rows : List (String × Int)} {key : String} {i : Int}
    (h : (key, i) ∈ rows) : ∃ j, lookup rows key = some j := by
  refine Option.isSome_iff_exists.mp ?_
  rw [lookup, Option.isSome_map, List.find?_isSome]
  exact ⟨(key, i), List.mem_reverse.mpr h, by simp⟩

section
variable (hunique : UniqueOn (fun g => some g.groupCode) s.codeGroups)
include hunique

theorem ActiveGroup.unique {groupCode : String} {i j : Int} (hi : ActiveGroup s groupCode i)
    (hj : ActiveGroup s groupCode j) : i = j := by
  obtain ⟨g, hg, hcode, -⟩ := hi
  obtain ⟨g', hg', hcode', -⟩ := hj
  exact hunique i j g g' groupCode hg hg' (congrArg some hcode) (congrArg some hcode')

variable {groups : List (String × Int)} {codes : List (Int × String)}
  (groupOrder : groups.Perm (groupRows s (specs.map CodeSpec.groupCode)))
  (codeOrder : codes.Perm (codeRows s (groups.map Prod.snd)))
include groupOrder

/-- The dictionary of the first query knows the active groups of the specs. -/
theorem lookup_groups {spec : CodeSpec} {i : Int} (hspec : spec ∈ specs) :
    lookup groups spec.groupCode = some i ↔ ActiveGroup s spec.groupCode i := by
  have hmem : ∀ j, (spec.groupCode, j) ∈ groups ↔ ActiveGroup s spec.groupCode j := by
    intro j
    rw [groupOrder.mem_iff, mem_groupRows]
    exact and_iff_right (List.mem_map_of_mem hspec)
  constructor
  · intro h
    exact (hmem i).mp (mem_of_lookup h)
  · intro h
    obtain ⟨j, hj⟩ := exists_lookup ((hmem i).mpr h)
    rw [hj, ActiveGroup.unique hunique ((hmem j).mp (mem_of_lookup hj)) h]

theorem lookup_isSome_iff {spec : CodeSpec} (hspec : spec ∈ specs) :
    (lookup groups spec.groupCode).isSome ↔ GroupKnown s spec := by
  rw [Option.isSome_iff_exists]
  exact exists_congr fun i => lookup_groups hunique groupOrder hspec

include codeOrder

/-- What the second pass allows a spec are the active codes of its group. -/
theorem mem_allowed_iff {spec : CodeSpec} {i : Int} (hspec : spec ∈ specs)
    (hi : lookup groups spec.groupCode = some i) :
    (∃ v ∈ (codes.filter fun p => p.1 = i).map Prod.snd, spec.value = some v) ↔
      ValueKnown s spec := by
  have hgroup := (lookup_groups hunique groupOrder hspec).mp hi
  have hid : i ∈ groups.map Prod.snd := by
    refine List.mem_map.mpr ⟨(spec.groupCode, i), ?_, rfl⟩
    rw [groupOrder.mem_iff, mem_groupRows]
    exact ⟨List.mem_map_of_mem hspec, hgroup⟩
  have hmem : ∀ v, v ∈ (codes.filter fun p => p.1 = i).map Prod.snd ↔
      ∃ j c, s.codes.get j = some c ∧ c.groupId = i ∧ c.isActive = true ∧ c.code = v := by
    intro v
    rw [List.mem_map]
    constructor
    · rintro ⟨p, hp, rfl⟩
      obtain ⟨hcode, hpi⟩ := List.mem_filter.mp hp
      obtain rfl : p.1 = i := by simpa using hpi
      exact (mem_codeRows.mp (codeOrder.mem_iff.mp hcode)).2
    · intro h
      have hv : (i, v) ∈ codes := codeOrder.mem_iff.mpr (mem_codeRows.mpr ⟨hid, h⟩)
      exact ⟨(i, v), List.mem_filter.mpr ⟨hv, by simp⟩, rfl⟩
  constructor
  · rintro ⟨v, hv, hvalue⟩
    obtain ⟨j, c, hc, hgroupId, hactive, rfl⟩ := (hmem v).mp hv
    exact ⟨i, hgroup, j, c, hc, hgroupId, hactive, hvalue⟩
  · rintro ⟨i', hi', j, c, hc, hgroupId, hactive, hvalue⟩
    obtain rfl := ActiveGroup.unique hunique hi' hgroup
    exact ⟨c.code, (hmem _).mpr ⟨j, c, hc, hgroupId, hactive, rfl⟩, hvalue⟩

/-- The second pass, at a spec whose group the first pass has found. -/
theorem checkValue_eq_ok {spec : CodeSpec} (hspec : spec ∈ specs) (hknown : GroupKnown s spec) :
    (getE (lookup groups spec.groupCode) Fault.keyError >>= fun groupId =>
      assertValidCode spec.groupCode spec.value
        ((codes.filter fun p => p.1 = groupId).map Prod.snd) spec.field) = .ok () ↔
      ValueKnown s spec := by
  obtain ⟨i, hi⟩ := hknown
  have hlookup := (lookup_groups hunique groupOrder hspec).mpr hi
  rw [← mem_allowed_iff hunique groupOrder codeOrder hspec hlookup, hlookup]
  exact guardE_eq_ok

theorem verdict_validateRows : Verdict s specs (validateRows specs groups codes) := by
  have hfound : ∀ spec ∈ specs, (lookup groups spec.groupCode).isSome ↔ GroupKnown s spec :=
    fun spec hspec => lookup_isSome_iff hunique groupOrder hspec
  rcases h : validateRows specs groups codes with e | u
  · rcases bind_eq_error.mp h with h | ⟨_, hgroups, h⟩
    · obtain ⟨spec, hfirst, he⟩ := first_of_forE_eq_error h
      obtain ⟨-, rfl⟩ := guardE_eq_error.mp he
      refine .unknownGroup (hfirst.congr fun spec hspec => ?_)
      rw [ne_eq, guardE_eq_ok, hfound spec hspec]
    · have hknown : ∀ spec ∈ specs, GroupKnown s spec := fun spec hspec =>
        (hfound spec hspec).mp (guardE_eq_ok.mp (forE_eq_ok.mp hgroups spec hspec))
      obtain ⟨spec, hfirst, he⟩ := first_of_forE_eq_error h
      have hunknown := hfirst.congr fun spec hspec =>
        not_congr (checkValue_eq_ok hunique groupOrder codeOrder hspec (hknown spec hspec))
      rcases bind_eq_error.mp he with he | ⟨i, -, he⟩
      · have hsome := (hfound spec hfirst.mem).mpr (hknown spec hfirst.mem)
        rw [(getE_eq_error.mp he).1] at hsome
        cases hsome
      · obtain ⟨-, rfl⟩ := guardE_eq_error.mp he
        exact .invalidCode hknown hunknown
  · obtain ⟨_, hgroups, hvalues⟩ := bind_eq_ok.mp h
    refine .accepted fun spec hspec => ?_
    have hknown := (hfound spec hspec).mp (guardE_eq_ok.mp (forE_eq_ok.mp hgroups spec hspec))
    exact ⟨hknown, (checkValue_eq_ok hunique groupOrder codeOrder hspec hknown).mp
      (forE_eq_ok.mp hvalues spec hspec)⟩

end

/-! ## Every order of the rows -/

/-- Where group codes are unique, whatever order the queries return their rows in, the batch is
accepted exactly if every spec has an active group and an active code of that very group; and
otherwise what it raises names the first spec without a group, or else the first without a code. -/
theorem validate_codes_one_by_one (hunique : UniqueOn (fun g => some g.groupCode) s.codeGroups)
    (hr : Returns s specs r) :
    (r = .ok () ↔ ∀ spec ∈ specs, GroupKnown s spec ∧ ValueKnown s spec) ∧ Verdict s specs r := by
  have hverdict : Verdict s specs r := by
    cases hr with
    | empty nil => exact .accepted (by simp [nil])
    | queried some groupOrder codeOrder => exact verdict_validateRows hunique groupOrder codeOrder
  exact ⟨hverdict.eq_ok_iff, hverdict⟩

/-- The code of one group, sent as that of another. -/
def mixedUp : List CodeSpec :=
  [⟨"COUNTRY", "country_code", some "KR"⟩, ⟨"COUNTRY", "purpose_code", some "MEETING"⟩]

theorem validate_codes_one_by_one_office :
    (validateCodes Office.store mixedUp = .ok () ↔
        ∀ spec ∈ mixedUp, GroupKnown Office.store spec ∧ ValueKnown Office.store spec) ∧
      Verdict Office.store mixedUp (validateCodes Office.store mixedUp) := by
  refine validate_codes_one_by_one (fun i j a b v hi hj ha hb => ?_) (returns_validateCodes _ _)
  have hall : ∀ p ∈ Office.store.codeGroups.rows, ∀ q ∈ Office.store.codeGroups.rows,
      p.2.groupCode = q.2.groupCode → p.1 = q.1 := by
    decide
  exact hall _ (Table.mem_rows.mpr hi) _ (Table.mem_rows.mpr hj)
    (Option.some.inj (ha.trans hb.symm))

end Biztrip.Masters
