import Mathlib.Data.List.SplitBy

/-!
# Percent-encoding

`percentEncode keep` writes a text for a URL: the characters that `keep` lets through as they
are, and every byte of the UTF-8 encoding of another one as `%` and two digits.
`percentDecode` reads the bytes back, `decodeLossy` their text; `unquote` is the same on a
text that is cut into runs first, as Python's `urllib` does it. All of them undo
`percentEncode` (`decodeText_percentEncode`, `unquote_percentEncode`).
-/

namespace Biztrip.Lib.Percent

/-! ## UTF-8 -/

def utf8 (l : List Char) : List UInt8 := l.flatMap String.utf8EncodeChar

@[simp] theorem utf8_nil : utf8 [] = [] := rfl

@[simp] theorem utf8_cons (c : Char) (l : List Char) :
    utf8 (c :: l) = String.utf8EncodeChar c ++ utf8 l := rfl

@[simp] theorem utf8_append (l m : List Char) : utf8 (l ++ m) = utf8 l ++ utf8 m :=
  List.flatMap_append

def isAscii (c : Char) : Bool := c.toNat < 128

theorem utf8EncodeChar_ascii {c : Char} (h : isAscii c = true) :
    String.utf8EncodeChar c = [UInt8.ofNat c.toNat] := by
  have hlt : c.toNat < 128 := of_decide_eq_true h
  have hle : c.val ≤ 0x7f := UInt32.le_iff_toNat_le.mpr (Nat.le_of_lt_succ hlt)
  rw [String.utf8EncodeChar_eq_utf8EncodeCharFast, String.utf8EncodeCharFast, if_pos hle]
  congr 1

def isTail (b : UInt8) : Bool := 0x80 ≤ b && b ≤ 0xBF

/-- The second bytes of the characters of three and four bytes. -/
def mayFollow (first second : UInt8) : Bool :=
  if first = 0xE0 then 0xA0 ≤ second && second ≤ 0xBF
  else if first = 0xED then 0x80 ≤ second && second ≤ 0x9F
  else if first = 0xF0 then 0x90 ≤ second && second ≤ 0xBF
  else if first = 0xF4 then 0x80 ≤ second && second ≤ 0x8F
  else 0xE1 ≤ first && first ≤ 0xF3 && isTail second

/-- How many bytes one replacement character stands for, where no character begins: as much of one
as there is. -/
def illFormed : List UInt8 → Nat
  | first :: second :: rest =>
    if mayFollow first second then
      if 0xF0 ≤ first && rest.head?.any isTail then 3 else 2
    else 1
  | _ => 1

theorem illFormed_pos (l : List UInt8) : 0 < illFormed l := by
  unfold illFormed
  repeat' split
  all_goals decide

/-- UTF-8 with replacement characters for what is not well formed. -/
def decodeLossy (l : List UInt8) : List Char :=
  if l = [] then []
  else
    match (ByteArray.mk l.toArray).utf8DecodeChar? 0 with
    | some c => c :: decodeLossy (l.drop c.utf8Size)
    | none => '\uFFFD' :: decodeLossy (l.drop (illFormed l))
termination_by l.length
decreasing_by
  · have := List.length_pos_iff.mpr ‹_›
    have := c.utf8Size_pos
    simp only [List.length_drop]
    omega
  · have := List.length_pos_iff.mpr ‹_›
    have := illFormed_pos l
    simp only [List.length_drop]
    omega

theorem decodeLossy_utf8EncodeChar (c : Char) (rest : List UInt8) :
    decodeLossy (String.utf8EncodeChar c ++ rest) = c :: decodeLossy rest := by
  have hlength : (String.utf8EncodeChar c).length = c.utf8Size := String.length_utf8EncodeChar c
  have hne : String.utf8EncodeChar c ++ rest ≠ [] := by
    have := c.utf8Size_pos
    intro h
    have := congrArg List.length h
    simp only [List.length_append, hlength, List.length_nil] at this
    omega
  have hbytes : ByteArray.mk (String.utf8EncodeChar c ++ rest).toArray =
      (String.utf8EncodeChar c).toByteArray ++ rest.toByteArray := by
    ext1
    simp
  rw [decodeLossy, if_neg hne, hbytes, ByteArray.utf8DecodeChar?_utf8EncodeChar_append]
  simp only [← hlength, List.drop_left]

/-- Decoding undoes encoding. -/
theorem decodeLossy_utf8 (l : List Char) : decodeLossy (utf8 l) = l := by
  induction l with
  | nil =>
    rw [utf8_nil, decodeLossy, if_pos rfl]
  | cons c l ih => rw [utf8_cons, decodeLossy_utf8EncodeChar, ih]

/-! ## Bytes as text -/

def hexDigit (n : Nat) : Char := if n < 10 then .ofNat (0x30 + n) else .ofNat (0x37 + n)

def isHexDigit (c : Char) : Bool :=
  (0x30 ≤ c.toNat && c.toNat ≤ 0x39) || (0x41 ≤ c.toNat && c.toNat ≤ 0x46)

def hexValue (b : UInt8) : Option Nat :=
  if 0x30 ≤ b && b ≤ 0x39 then some (b.toNat - 0x30)
  else if 0x41 ≤ b && b ≤ 0x46 then some (b.toNat - 0x37)
  else if 0x61 ≤ b && b ≤ 0x66 then some (b.toNat - 0x57)
  else none

theorem hexDigit_spec {n : Nat} (h : n < 16) :
    isAscii (hexDigit n) = true ∧ isHexDigit (hexDigit n) = true ∧
      hexValue (UInt8.ofNat (hexDigit n).toNat) = some n := by
  have hall : ∀ n : Fin 16, isAscii (hexDigit n) = true ∧ isHexDigit (hexDigit n) = true ∧
      hexValue (UInt8.ofNat (hexDigit n).toNat) = some n.val := by
    decide
  exact hall ⟨n, h⟩

def escape (b : UInt8) : List Char := ['%', hexDigit (b.toNat / 16), hexDigit (b.toNat % 16)]

/-- A `%` with two digits is a byte; any other stays. -/
def percentDecode : List UInt8 → List UInt8
  | 0x25 :: high :: low :: rest =>
    match hexValue high, hexValue low with
    | some h, some l => UInt8.ofNat (16 * h + l) :: percentDecode rest
    | _, _ => 0x25 :: percentDecode (high :: low :: rest)
  | b :: rest => b :: percentDecode rest
  | [] => []

@[simp] theorem percentDecode_nil : percentDecode [] = [] := by rw [percentDecode]

theorem percentDecode_cons {b : UInt8} (h : b ≠ 0x25) (rest : List UInt8) :
    percentDecode (b :: rest) = b :: percentDecode rest := by
  rw [percentDecode]
  rintro _ _ _ rfl
  exact absurd rfl h

theorem percentDecode_escape (b : UInt8) (rest : List UInt8) :
    percentDecode (utf8 (escape b) ++ rest) = b :: percentDecode rest := by
  have hb : b.toNat < 256 := b.toNat_lt
  obtain ⟨hascii, -, hvalue⟩ := hexDigit_spec (n := b.toNat / 16) (by omega)
  obtain ⟨hascii', -, hvalue'⟩ := hexDigit_spec (n := b.toNat % 16) (by omega)
  have hbytes : utf8 (escape b) =
      [0x25, UInt8.ofNat (hexDigit (b.toNat / 16)).toNat,
        UInt8.ofNat (hexDigit (b.toNat % 16)).toNat] := by
    rw [escape, utf8_cons, utf8_cons, utf8_cons, utf8_nil, utf8EncodeChar_ascii hascii,
      utf8EncodeChar_ascii hascii', utf8EncodeChar_ascii (by decide)]
    rfl
  rw [hbytes, List.cons_append, List.cons_append, List.cons_append, percentDecode]
  simp only [hvalue, hvalue', List.nil_append]
  rw [Nat.div_add_mod, UInt8.ofNat_toNat]

theorem percentDecode_escapes (bytes rest : List UInt8) :
    percentDecode (utf8 (bytes.flatMap escape) ++ rest) = bytes ++ percentDecode rest := by
  induction bytes with
  | nil => rfl
  | cons b bytes ih =>
    rw [List.flatMap_cons, utf8_append, List.append_assoc, percentDecode_escape, ih,
      List.cons_append]

/-! ## Texts -/

/-- What `keep` may let through: ASCII, and no `%`. -/
structure Plain (keep : Char → Bool) : Prop where
  ascii : ∀ c, keep c = true → isAscii c = true
  percent : keep '%' = false

section
variable {keep : Char → Bool}

def percentEncodeChar (keep : Char → Bool) (c : Char) : List Char :=
  if keep c then [c] else (String.utf8EncodeChar c).flatMap escape

def percentEncode (keep : Char → Bool) (l : List Char) : List Char :=
  l.flatMap (percentEncodeChar keep)

theorem percentDecode_percentEncodeChar (h : Plain keep) (c : Char) (rest : List UInt8) :
    percentDecode (utf8 (percentEncodeChar keep c) ++ rest) =
      String.utf8EncodeChar c ++ percentDecode rest := by
  unfold percentEncodeChar
  split
  · next hkeep =>
    have hascii := h.ascii c hkeep
    have hne : UInt8.ofNat c.toNat ≠ 0x25 := by
      intro he
      have hc : c = '%' := by
        have hlt : c.toNat < 128 := of_decide_eq_true hascii
        have := congrArg UInt8.toNat he
        simp only [UInt8.toNat_ofNat', UInt8.reduceToNat] at this
        exact Char.toNat_inj.mp (by rw [show ('%' : Char).toNat = 37 from rfl]; omega)
      rw [hc, h.percent] at hkeep
      cases hkeep
    rw [utf8_cons, utf8_nil, List.append_nil, utf8EncodeChar_ascii hascii, List.singleton_append,
      percentDecode_cons hne, List.singleton_append]
  · exact percentDecode_escapes _ _

theorem percentDecode_percentEncode (h : Plain keep) (l : List Char) :
    percentDecode (utf8 (percentEncode keep l)) = utf8 l := by
  induction l with
  | nil => exact percentDecode_nil
  | cons c l ih =>
    rw [percentEncode, List.flatMap_cons, utf8_append, percentDecode_percentEncodeChar h, utf8_cons]
    exact congrArg _ ih

theorem mem_percentEncode {c : Char} {l : List Char} (h : c ∈ percentEncode keep l) :
    keep c = true ∨ c = '%' ∨ isHexDigit c = true := by
  obtain ⟨d, -, hc⟩ := List.mem_flatMap.mp h
  unfold percentEncodeChar at hc
  split at hc
  · next hkeep =>
    rw [List.mem_singleton.mp hc]
    exact .inl hkeep
  · obtain ⟨b, -, hc⟩ := List.mem_flatMap.mp hc
    have hb : b.toNat < 256 := b.toNat_lt
    simp only [escape, List.mem_cons, List.not_mem_nil, or_false] at hc
    rcases hc with rfl | rfl | rfl
    · exact .inr (.inl rfl)
    · exact .inr (.inr (hexDigit_spec (by omega)).2.1)
    · exact .inr (.inr (hexDigit_spec (by omega)).2.1)

/-- The decoder of the WHATWG standard, from text to text. -/
def decodeText (l : List Char) : List Char := decodeLossy (percentDecode (utf8 l))

theorem decodeText_percentEncode (h : Plain keep) (l : List Char) :
    decodeText (percentEncode keep l) = l := by
  rw [decodeText, percentDecode_percentEncode h, decodeLossy_utf8]

/-- Python's `unquote`: runs of ASCII are decoded each for itself, and what is between stays. -/
def unquote (l : List Char) : List Char :=
  (l.splitBy fun a b => isAscii a = isAscii b).flatMap fun run =>
    if run.all isAscii then decodeText run else run

theorem unquote_ascii {l : List Char} (h : l.all isAscii = true) : unquote l = decodeText l := by
  rcases eq_or_ne l [] with rfl | hne
  · rw [unquote, List.splitBy_nil, List.flatMap_nil, decodeText, utf8_nil, percentDecode_nil,
      decodeLossy, if_pos rfl]
  · have hrun : l.IsChain fun a b => decide (isAscii a = isAscii b) = true :=
      List.Pairwise.isChain (List.pairwise_of_forall_mem_list fun a ha b hb =>
        decide_eq_true ((List.all_eq_true.mp h a ha).trans (List.all_eq_true.mp h b hb).symm))
    rw [unquote, List.splitBy_of_isChain hne hrun, List.flatMap_singleton, if_pos h]

theorem isAscii_percentEncode (h : Plain keep) (l : List Char) :
    (percentEncode keep l).all isAscii = true := by
  refine List.all_eq_true.mpr fun c hc => ?_
  rcases mem_percentEncode hc with hkeep | rfl | hhex
  · exact h.ascii c hkeep
  · decide
  · simp only [isHexDigit, Bool.or_eq_true, Bool.and_eq_true, decide_eq_true_eq] at hhex
    exact decide_eq_true (by omega)

theorem unquote_percentEncode (h : Plain keep) (l : List Char) :
    unquote (percentEncode keep l) = l := by
  rw [unquote_ascii (isAscii_percentEncode h l), decodeText_percentEncode h]

end

end Biztrip.Lib.Percent
