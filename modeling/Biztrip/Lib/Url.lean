import Mathlib.Data.List.DropRight

/-!
# Resolving a reference against an origin

The basic URL parser of the WHATWG standard, run on a reference with an `http` or
`https` origin as its base, as far as it decides the origin of the URL. Its states are
functions that keep the standard's names; what comes after the port (path, query,
fragment) neither fails nor changes the origin. The host parser is a parameter, and so is
what becomes of a reference that begins with a letter, which may name a scheme.
-/

namespace Biztrip.Lib.Url

inductive Scheme where
  | http
  | https
  deriving DecidableEq, Repr

def Scheme.defaultPort : Scheme → Nat
  | .http => 80
  | .https => 443

/-- A tuple origin over hosts `η`. A port that is the scheme's own is null. -/
structure Origin (η : Type) where
  scheme : Scheme
  host : η
  port : Option Nat
  deriving DecidableEq, Repr

structure Rules (η : Type) where
  parseHost : List Char → Option η
  /-- From the scheme start state, at a letter. -/
  parseScheme : Origin η → List Char → Option (Origin η)

/-- `U+0000` to `U+001F`, and the space. -/
def isC0OrSpace (c : Char) : Bool := c.toNat ≤ 0x20

def isTabOrNewline (c : Char) : Bool := c = '\t' || c = '\n' || c = '\r'

/-- In a special URL a backslash counts as a slash. -/
def isSlash (c : Char) : Bool := c = '/' || c = '\\'

/-- What ends an authority. -/
def isEnd (c : Char) : Bool := isSlash c || c = '?' || c = '#'

/-- What the parser takes out of its input before it begins. -/
def clean (input : List Char) : List Char :=
  ((input.dropWhile isC0OrSpace).rdropWhile isC0OrSpace).filter fun c => !isTabOrNewline c

section
variable {η : Type} (rules : Rules η) (base : Origin η)

/-- The end of the port state. -/
def setPort (host : η) (buffer : List Char) : Option (Origin η) :=
  if buffer = [] then some ⟨base.scheme, host, none⟩
  else
    let port := Nat.ofDigitChars 10 buffer 0
    if 65535 < port then none
    else some ⟨base.scheme, host, if port = base.scheme.defaultPort then none else some port⟩

def portState (host : η) (buffer : List Char) : List Char → Option (Origin η)
  | [] => setPort base host buffer
  | c :: rest =>
    if c.isDigit then portState host (buffer ++ [c]) rest
    else if isEnd c then setPort base host buffer
    else none

/-- The end of the host, where there is no port. -/
def setHost (buffer : List Char) : Option (Origin η) :=
  if buffer = [] then none
  else (rules.parseHost buffer).map fun host => ⟨base.scheme, host, none⟩

def hostState (insideBrackets : Bool) (buffer : List Char) : List Char → Option (Origin η)
  | [] => setHost rules base buffer
  | c :: rest =>
    if c = ':' && !insideBrackets then
      if buffer = [] then none
      else (rules.parseHost buffer).bind fun host => portState base host [] rest
    else if isEnd c then setHost rules base buffer
    else
      let insideBrackets := if c = '[' then true else if c = ']' then false else insideBrackets
      hostState insideBrackets (buffer ++ [c]) rest

/-- The end of the authority: what has been read since the last `@` is read again as a host. -/
def setCredentials (atSignSeen : Bool) (buffer rest : List Char) : Option (Origin η) :=
  if atSignSeen && buffer.isEmpty then none else hostState rules base false [] (buffer ++ rest)

def authorityState (atSignSeen : Bool) (buffer : List Char) : List Char → Option (Origin η)
  | [] => setCredentials rules base atSignSeen buffer []
  | c :: rest =>
    if c = '@' then authorityState true [] rest
    else if isEnd c then setCredentials rules base atSignSeen buffer (c :: rest)
    else authorityState atSignSeen (buffer ++ [c]) rest

def specialAuthorityIgnoreSlashesState (input : List Char) : Option (Origin η) :=
  authorityState rules base false [] (input.dropWhile isSlash)

def relativeSlashState : List Char → Option (Origin η)
  | [] => some base
  | c :: rest =>
    if isSlash c then specialAuthorityIgnoreSlashesState rules base rest else some base

def relativeState : List Char → Option (Origin η)
  | [] => some base
  | c :: rest => if isSlash c then relativeSlashState rules base rest else some base

def schemeStartState : List Char → Option (Origin η)
  | [] => relativeState rules base []
  | c :: rest =>
    if c.isAlpha then rules.parseScheme base (c :: rest) else relativeState rules base (c :: rest)

/-- The origin of the URL that a text resolves to, if it is one. -/
def resolve (input : String) : Option (Origin η) := schemeStartState rules base (clean input.toList)

end

/-! ## References that begin with a slash -/

theorem rdropWhile_cons_of_neg {α : Type} {p : α → Bool} {a : α} {l : List α} (ha : p a = false) :
    (a :: l).rdropWhile p = a :: l.rdropWhile p := by
  simp only [List.rdropWhile, List.reverse_cons, List.dropWhile_append]
  split
  · next h => simp [List.isEmpty_iff.mp h, ha]
  · simp

/-- The slash stays. -/
theorem clean_slash (l : List Char) :
    clean ('/' :: l) = '/' :: (l.rdropWhile isC0OrSpace).filter fun c => !isTabOrNewline c := by
  have hslash : isC0OrSpace '/' = false := by decide
  rw [clean, List.dropWhile_cons_of_neg (by simp [hslash]), rdropWhile_cons_of_neg hslash]
  exact List.filter_cons_of_pos (by decide)

variable {η : Type} {rules : Rules η} {base : Origin η} {input : String} {rest : List Char}

theorem resolve_slash (h : clean input.toList = '/' :: rest) :
    resolve rules base input = relativeSlashState rules base rest := by
  rw [resolve, h, schemeStartState, if_neg (by decide), relativeState, if_pos (by decide)]

/-- A second slash makes what follows an authority; without one, the origin is that of the base. -/
theorem relativeSlashState_cases (rest : List Char) :
    (∃ c after, rest = c :: after ∧ isSlash c = true ∧ relativeSlashState rules base rest =
        specialAuthorityIgnoreSlashesState rules base after) ∨
      ((∀ c after, rest = c :: after → isSlash c = false) ∧
        relativeSlashState rules base rest = some base) := by
  cases rest with
  | nil => exact .inr ⟨nofun, rfl⟩
  | cons c after =>
    rw [relativeSlashState]
    split
    · next h => exact .inl ⟨c, after, rfl, h, rfl⟩
    · next h =>
      refine .inr ⟨?_, rfl⟩
      rintro _ _ ⟨⟩
      exact Bool.eq_false_iff.mpr h

end Biztrip.Lib.Url
