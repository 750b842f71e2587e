import Biztrip.Lib.Percent
import Biztrip.Lib.Url

/-!
# Query strings

`application/x-www-form-urlencoded`: `serialize` is the serializer of the WHATWG standard,
which `URLSearchParams` uses, and `parse decode` cuts a query into pairs of texts and
decodes each with `decode`. `parse_serialize` is the round trip, for every decoder that
undoes percent-encoding.
-/

namespace Biztrip.Lib.Form

open Percent

abbrev Pair := List Char × List Char

def isAlphanum (c : Char) : Bool :=
  (0x30 ≤ c.toNat && c.toNat ≤ 0x39) || (0x41 ≤ c.toNat && c.toNat ≤ 0x5A) ||
    (0x61 ≤ c.toNat && c.toNat ≤ 0x7A)

/-- What is written as it is. -/
def isFormChar (c : Char) : Bool := isAlphanum c || c = '*' || c = '-' || c = '.' || c = '_'

def formEncode (l : List Char) : List Char :=
  l.flatMap fun c => if c = ' ' then ['+'] else percentEncodeChar isFormChar c

def serialize (pairs : List Pair) : List Char :=
  ['&'].intercalate (pairs.map fun p => formEncode p.1 ++ '=' :: formEncode p.2)

def plusToSpace (l : List Char) : List Char := l.map fun c => if c = '+' then ' ' else c

/-- What is before the first `=` and what is after it. -/
def cut (nameValue : List Char) : Pair :=
  (nameValue.takeWhile (· ≠ '='), (nameValue.dropWhile (· ≠ '=')).drop 1)

def parse (decode : List Char → List Char) (query : List Char) : List Pair :=
  ((query.splitOn '&').filter (· ≠ [])).map fun nameValue =>
    (cut nameValue).map (decode ∘ plusToSpace) (decode ∘ plusToSpace)

/-! ## The round trip of a component -/

theorem isAscii_of_isAlphanum {c : Char} (h : isAlphanum c = true) : isAscii c = true := by
  simp only [isAlphanum, Bool.or_eq_true, Bool.and_eq_true, decide_eq_true_eq] at h
  exact decide_eq_true (by omega)

/-- The characters of a percent-encoded text that stands for the same text with spaces. -/
def isSpacedChar (c : Char) : Bool := c = ' ' || isFormChar c

theorem plain_isSpacedChar : Plain isSpacedChar where
  ascii c h := by
    simp only [isSpacedChar, isFormChar, Bool.or_eq_true, decide_eq_true_eq] at h
    rcases h with rfl | (((h | rfl) | rfl) | rfl) | rfl
    · decide
    · exact isAscii_of_isAlphanum h
    all_goals decide
  percent := by decide

theorem isAlphanum_of_isHexDigit {c : Char} (h : isHexDigit c = true) : isAlphanum c = true := by
  simp only [isHexDigit, isAlphanum, Bool.or_eq_true, Bool.and_eq_true, decide_eq_true_eq] at *
  omega

/-- The characters of an encoded component. -/
def isEncodedChar (c : Char) : Bool := isFormChar c || c = '+' || c = '%'

theorem isEncodedChar_of_isHexDigit {c : Char} (h : isHexDigit c = true) :
    isEncodedChar c = true := by
  simp [isEncodedChar, isFormChar, isAlphanum_of_isHexDigit h]

theorem isEncodedChar_formEncode {c : Char} {l : List Char} (h : c ∈ formEncode l) :
    isEncodedChar c = true := by
  obtain ⟨d, -, hc⟩ := List.mem_flatMap.mp h
  split at hc
  · rw [List.mem_singleton.mp hc]
    decide
  · have hmem : c ∈ percentEncode isFormChar [d] := by
      rwa [percentEncode, List.flatMap_singleton]
    rcases mem_percentEncode hmem with hkeep | rfl | hhex
    · simp [isEncodedChar, hkeep]
    · decide
    · exact isEncodedChar_of_isHexDigit hhex

/-- No cut is made inside a component. -/
theorem not_mem_formEncode {c : Char} (h : isEncodedChar c = false) (l : List Char) :
    c ∉ formEncode l := fun hc => by
  rw [isEncodedChar_formEncode hc] at h
  cases h

theorem plusToSpace_eq_self {l : List Char} (h : '+' ∉ l) : plusToSpace l = l := by
  refine (List.map_congr_left fun c hc => ?_).trans (List.map_id l)
  rw [if_neg (by rintro rfl; exact h hc), id_eq]

/-- A component without its plus signs is percent-encoded. -/
theorem plusToSpace_formEncode (l : List Char) :
    plusToSpace (formEncode l) = percentEncode isSpacedChar l := by
  unfold plusToSpace formEncode percentEncode
  rw [List.map_flatMap]
  refine congrArg (fun f => l.flatMap f) (funext fun c => ?_)
  split
  · next hc =>
    subst hc
    rfl
  · next hc =>
    have hsame : percentEncodeChar isSpacedChar c = percentEncodeChar isFormChar c := by
      simp [percentEncodeChar, isSpacedChar, hc]
    have hplus : '+' ∉ percentEncodeChar isFormChar c := by
      intro hmem
      have hmem : '+' ∈ percentEncode isFormChar [c] := by
        rwa [percentEncode, List.flatMap_singleton]
      rcases mem_percentEncode hmem with h | h | h <;> revert h <;> decide
    rw [hsame]
    exact plusToSpace_eq_self hplus

/-! ## The round trip of a query -/

theorem cut_formEncode (p : Pair) :
    cut (formEncode p.1 ++ '=' :: formEncode p.2) = (formEncode p.1, formEncode p.2) := by
  have hname : ∀ c ∈ formEncode p.1, decide (c ≠ '=') = true := by
    intro c hc
    refine decide_eq_true ?_
    rintro rfl
    exact not_mem_formEncode (by decide) _ hc
  rw [cut, List.takeWhile_append_of_pos hname, List.dropWhile_append_of_pos hname,
    List.takeWhile_cons_of_neg (by decide), List.dropWhile_cons_of_neg (by decide), List.append_nil,
    List.drop_one, List.tail_cons]

theorem splitOn_serialize {pairs : List Pair} (h : pairs ≠ []) :
    (serialize pairs).splitOn '&' =
      pairs.map fun p => formEncode p.1 ++ '=' :: formEncode p.2 := by
  refine List.splitOn_intercalate '&' ?_ (by simpa using h)
  intro nameValue hmem
  obtain ⟨p, -, rfl⟩ := List.mem_map.mp hmem
  simp only [List.mem_append, List.mem_cons, not_or]
  exact ⟨not_mem_formEncode (by decide) _, by decide, not_mem_formEncode (by decide) _⟩

/-- Every list of pairs comes back as it was. -/
theorem parse_serialize {decode : List Char → List Char}
    (hdecode : ∀ {keep}, Plain keep → ∀ l, decode (percentEncode keep l) = l)
    (pairs : List Pair) : parse decode (serialize pairs) = pairs := by
  rcases eq_or_ne pairs [] with rfl | hne
  · rfl
  have hkept : ((serialize pairs).splitOn '&').filter (· ≠ []) =
      pairs.map fun p => formEncode p.1 ++ '=' :: formEncode p.2 := by
    rw [splitOn_serialize hne]
    refine List.filter_eq_self.mpr fun nameValue hmem => ?_
    obtain ⟨p, -, rfl⟩ := List.mem_map.mp hmem
    simp
  rw [parse, hkept, List.map_map]
  refine (List.map_congr_left fun p _ => ?_).trans (List.map_id pairs)
  simp only [Function.comp_apply, cut_formEncode, Prod.map, plusToSpace_formEncode,
    hdecode plain_isSpacedChar, id_eq]

/-- The characters of a query. -/
theorem mem_serialize {c : Char} {pairs : List Pair} (h : c ∈ serialize pairs) :
    isEncodedChar c = true ∨ c = '&' ∨ c = '=' := by
  have hpair : ∀ p : Pair, c ∈ formEncode p.1 ++ '=' :: formEncode p.2 →
      isEncodedChar c = true ∨ c = '&' ∨ c = '=' := by
    intro p hc
    rcases List.mem_append.mp hc with hc | hc
    · exact .inl (isEncodedChar_formEncode hc)
    · rcases List.mem_cons.mp hc with rfl | hc
      · exact .inr (.inr rfl)
      · exact .inl (isEncodedChar_formEncode hc)
  induction pairs with
  | nil => cases h
  | cons p pairs ih =>
    rcases eq_or_ne pairs [] with rfl | hne
    · rw [serialize, List.map_singleton, List.intercalate_singleton] at h
      exact hpair p h
    · rw [serialize, List.map_cons, List.intercalate_cons_of_ne_nil (by simpa using hne)] at h
      rcases List.mem_append.mp h with h | h
      · rcases List.mem_append.mp h with h | h
        · exact hpair p h
        · exact .inr (.inl (List.mem_singleton.mp h))
      · exact ih h

/-! ## The query of a URL -/

/-- What the query state leaves as it is: a `%` among others. -/
def isQueryChar (c : Char) : Bool :=
  0x20 < c.toNat && c.toNat ≤ 0x7E && c ≠ '"' && c ≠ '#' && c ≠ '<' && c ≠ '>' && c ≠ '\''

/-- The query of the URL that a reference with a path stands for. -/
def queryOf (reference : List Char) : List Char :=
  percentEncode isQueryChar
    ((((Url.clean reference).takeWhile (· ≠ '#')).dropWhile (· ≠ '?')).drop 1)

/-- What the parser neither takes out nor ends a path at. -/
def isPathChar (c : Char) : Bool := 0x20 < c.toNat && c ≠ '?' && c ≠ '#'

theorem clean_eq_self {l : List Char} (h : ∀ c ∈ l, 0x20 < c.toNat) : Url.clean l = l := by
  have hnot : ∀ c ∈ l, Url.isC0OrSpace c = false := by
    intro c hc
    exact decide_eq_false (Nat.not_le.mpr (h c hc))
  have hno : ∀ m : List Char, (∀ c ∈ m, Url.isC0OrSpace c = false) →
      m.dropWhile Url.isC0OrSpace = m := by
    intro m hm
    cases m with
    | nil => rfl
    | cons c m => exact List.dropWhile_cons_of_neg (by simp [hm c List.mem_cons_self])
  have hends : (l.dropWhile Url.isC0OrSpace).rdropWhile Url.isC0OrSpace = l := by
    rw [hno l hnot, List.rdropWhile, hno _ fun c hc => hnot c (List.mem_reverse.mp hc),
      List.reverse_reverse]
  rw [Url.clean, hends]
  refine List.filter_eq_self.mpr fun c hc => ?_
  have hlt := h c hc
  simp only [Url.isTabOrNewline, Bool.not_eq_true', Bool.or_eq_false_iff, decide_eq_false_iff_not]
  refine ⟨⟨?_, ?_⟩, ?_⟩ <;> · rintro rfl; exact absurd hlt (by decide)

theorem queryOf_path {path query : List Char} (hpath : ∀ c ∈ path, isPathChar c = true)
    (hquery : ∀ c ∈ query, 0x20 < c.toNat ∧ c ≠ '#') :
    queryOf (path ++ '?' :: query) = percentEncode isQueryChar query := by
  simp only [isPathChar, Bool.and_eq_true, decide_eq_true_eq] at hpath
  have hclean : Url.clean (path ++ '?' :: query) = path ++ '?' :: query := by
    refine clean_eq_self fun c hc => ?_
    rcases List.mem_append.mp hc with hc | hc
    · exact (hpath c hc).1.1
    · rcases List.mem_cons.mp hc with rfl | hc
      · decide
      · exact (hquery c hc).1
  have hfragment : (path ++ '?' :: query).takeWhile (· ≠ '#') = path ++ '?' :: query := by
    refine List.takeWhile_eq_self_iff.mpr fun c hc => ?_
    rcases List.mem_append.mp hc with hc | hc
    · exact decide_eq_true (hpath c hc).2
    · rcases List.mem_cons.mp hc with rfl | hc
      · decide
      · exact decide_eq_true (hquery c hc).2
  rw [queryOf, hclean, hfragment,
    List.dropWhile_append_of_pos fun c hc => decide_eq_true (hpath c hc).1.2,
    List.dropWhile_cons_of_neg (by decide), List.drop_one, List.tail_cons]

theorem queryOf_of_path {path : List Char} (hpath : ∀ c ∈ path, isPathChar c = true) :
    queryOf path = [] := by
  simp only [isPathChar, Bool.and_eq_true, decide_eq_true_eq] at hpath
  have hfragment : path.takeWhile (· ≠ '#') = path :=
    List.takeWhile_eq_self_iff.mpr fun c hc => decide_eq_true (hpath c hc).2
  have hnone : path.dropWhile (· ≠ '?') = [] :=
    List.dropWhile_eq_nil_iff.mpr fun c hc => decide_eq_true (hpath c hc).1.2
  rw [queryOf, clean_eq_self fun c hc => (hpath c hc).1.1, hfragment, hnone]
  rfl

theorem percentEncode_eq_self {keep : Char → Bool} {l : List Char}
    (h : ∀ c ∈ l, keep c = true) : percentEncode keep l = l := by
  induction l with
  | nil => rfl
  | cons c l ih =>
    rw [percentEncode, List.flatMap_cons, percentEncodeChar, if_pos (h c List.mem_cons_self)]
    exact congrArg (c :: ·) (ih fun d hd => h d (List.mem_cons_of_mem _ hd))

theorem isQueryChar_of_isHexDigit {c : Char} (h : isHexDigit c = true) : isQueryChar c = true := by
  simp only [isHexDigit, isQueryChar, Bool.or_eq_true, Bool.and_eq_true, decide_eq_true_eq] at *
  refine ⟨⟨⟨⟨⟨⟨?_, ?_⟩, ?_⟩, ?_⟩, ?_⟩, ?_⟩, ?_⟩ <;> first | omega | (rintro rfl; revert h; decide)

/-- Encoding what is encoded already encodes what was kept and is kept no longer. -/
theorem percentEncode_percentEncode {keep keep' : Char → Bool} (hpercent : keep' '%' = true)
    (hhex : ∀ c, isHexDigit c = true → keep' c = true) (l : List Char) :
    percentEncode keep' (percentEncode keep l) = percentEncode (fun c => keep c && keep' c) l := by
  induction l with
  | nil => rfl
  | cons c l ih =>
    have hsplit : ∀ m : List Char, percentEncode keep' (m ++ percentEncode keep l) =
        percentEncode keep' m ++ percentEncode (fun c => keep c && keep' c) l := by
      intro m
      rw [← ih, percentEncode, List.flatMap_append]
      rfl
    refine (hsplit _).trans ?_
    rw [percentEncode.eq_1 _ (c :: l), List.flatMap_cons, ← percentEncode]
    refine congrArg (· ++ _) ?_
    unfold percentEncodeChar
    by_cases hkeep : keep c = true
    · by_cases hkeep' : keep' c = true
      · simp [percentEncode, percentEncodeChar, hkeep, hkeep']
      · simp [percentEncode, percentEncodeChar, hkeep, hkeep']
    · have hencoded : ∀ d ∈ (String.utf8EncodeChar c).flatMap escape, keep' d = true := by
        intro d hd
        have hd : d ∈ percentEncode (fun _ => false) [c] := by
          simpa [percentEncode, percentEncodeChar] using hd
        rcases mem_percentEncode hd with h | rfl | h
        · cases h
        · exact hpercent
        · exact hhex d h
      simp only [hkeep, Bool.false_and, if_false, Bool.false_eq_true]
      exact percentEncode_eq_self hencoded

end Biztrip.Lib.Form
