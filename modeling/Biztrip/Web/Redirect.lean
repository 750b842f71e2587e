import Biztrip.Lib.Url

/-!
# Where a login leads

`safeRedirect` of `src/lib/nav.ts`: the target that the login page goes to, as the
`redirect` query names it. The check is on the text as it stands; the browser resolves
the text without its tabs and newlines, and with backslashes for slashes.
-/

namespace Biztrip.Web

open Biztrip.Lib.Url

/-- `target.startsWith(head)`. -/
def startsWith (target head : String) : Bool := head.toList.isPrefixOf target.toList

def safeRedirect (target : Option String) : String :=
  match target with
  | none => "/"
  | some target =>
    if target = "" || !startsWith target "/" || startsWith target "//" then "/" else target

variable {η : Type} {rules : Rules η} {app : Origin η} {target : Option String}

/-- The URL that the redirect resolves to, if it is one, is of the application's origin. -/
def StaysOnSite (rules : Rules η) (app : Origin η) (target : Option String) : Prop :=
  ∀ origin, resolve rules app (safeRedirect target) = some origin → origin = app

/-- The target begins with one slash, but without tabs and newlines with two slashes or backslashes,
and after these it names a host and port that are not the application's. -/
def NamesAnotherSite (rules : Rules η) (app : Origin η) (target : Option String) : Prop :=
  ∃ text c rest origin, target = some text ∧ startsWith text "/" = true ∧
    startsWith text "//" = false ∧ clean text.toList = '/' :: c :: rest ∧ isSlash c = true ∧
    authorityState rules app false [] (rest.dropWhile isSlash) = some origin ∧ origin ≠ app

/-- A target is kept if it begins with a slash and not with two. -/
theorem safeRedirect_cases (target : Option String) :
    (safeRedirect target = "/" ∧ ∀ text, target = some text →
      startsWith text "/" = true → startsWith text "//" = true) ∨
    ∃ text, target = some text ∧ startsWith text "/" = true ∧ startsWith text "//" = false ∧
      safeRedirect target = text := by
  cases target with
  | none => exact .inl ⟨rfl, nofun⟩
  | some text =>
    rw [safeRedirect]
    split
    · next h =>
      refine .inl ⟨rfl, ?_⟩
      rintro _ ⟨⟩ hslash
      simp only [Bool.or_eq_true, decide_eq_true_eq, Bool.not_eq_true', hslash, reduceCtorEq,
        or_false] at h
      rcases h with rfl | hdouble
      · cases hslash
      · exact hdouble
    · next h =>
      simp only [Bool.or_eq_true, decide_eq_true_eq, Bool.not_eq_true', not_or,
        Bool.not_eq_false, Bool.not_eq_true] at h
      exact .inr ⟨text, rfl, h.1.2, h.2, rfl⟩

theorem exists_clean_of_startsWith {text : String} (h : startsWith text "/" = true) :
    ∃ rest, clean text.toList = '/' :: rest := by
  obtain ⟨l, hl⟩ := List.isPrefixOf_iff_prefix.mp h
  exact ⟨_, by rw [← hl]; exact clean_slash l⟩

theorem staysOnSite_root (h : safeRedirect target = "/") : StaysOnSite rules app target := by
  intro origin hresolve
  have hclean : clean ("/" : String).toList = ['/'] := by decide
  rw [h, resolve_slash hclean, relativeSlashState] at hresolve
  exact (Option.some.inj hresolve).symm

/-- The redirect stays on the site if and only if the text that the browser reads does not name
another one after two slashes. -/
theorem redirect_stays_on_site_iff (rules : Rules η) (app : Origin η) (target : Option String) :
    StaysOnSite rules app target ↔ ¬ NamesAnotherSite rules app target := by
  rcases safeRedirect_cases target with ⟨hroot, hno⟩ | ⟨text, rfl, hslash, hdouble, hkept⟩
  · refine iff_of_true (staysOnSite_root hroot) ?_
    rintro ⟨text, -, -, -, htext, hslash, hdouble, -⟩
    rw [hno text htext hslash] at hdouble
    cases hdouble
  · obtain ⟨rest, hclean⟩ := exists_clean_of_startsWith hslash
    rw [StaysOnSite, hkept, resolve_slash hclean]
    rcases relativeSlashState_cases rest with ⟨c, after, rfl, hc, hstate⟩ | ⟨hno, hstate⟩
    · rw [hstate]
      constructor
      · rintro hstays ⟨_, c', after', origin, ⟨⟩, -, -, hclean', -, hauthority, hother⟩
        rw [hclean] at hclean'
        cases hclean'
        exact hother (hstays origin hauthority)
      · intro hnone origin hauthority
        by_contra hother
        exact hnone ⟨text, c, after, origin, rfl, hslash, hdouble, hclean, hc, hauthority, hother⟩
    · rw [hstate]
      refine iff_of_true (fun origin h => (Option.some.inj h).symm) ?_
      rintro ⟨_, c, after, -, ⟨⟩, -, -, hclean', hc, -⟩
      rw [hclean] at hclean'
      rw [hno c after (List.cons.inj hclean').2] at hc
      cases hc

/-! ## A redirect that leaves -/

/-- Host names as they stand, which is what the host parser makes of plain lower-case names. -/
def plainHosts : Rules String where
  parseHost host := some (.ofList host)
  parseScheme _ _ := none

def biztrip : Origin String := ⟨.https, "biztrip.example", none⟩

/-- A slash and a backslash lead to another site. -/
theorem redirect_leaves_site :
    ¬ ∀ target, StaysOnSite plainHosts biztrip target := by
  intro h
  have hresolve : resolve plainHosts biztrip (safeRedirect (some "/\\evil.example")) =
      some ⟨.https, "evil.example", none⟩ := by
    decide
  exact absurd (h _ _ hresolve) (by decide)

example : resolve plainHosts biztrip (safeRedirect (some "/\t/evil.example:8443/phish")) =
    some ⟨.https, "evil.example", some 8443⟩ := by
  decide

end Biztrip.Web
