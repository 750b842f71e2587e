import Biztrip.Lib.Form
import Biztrip.Web.Redirect

/-!
# The way through the login

The rest of `src/lib/nav.ts`: a visitor without a session is sent to the login page, with
the page that was wanted in the `redirect` query; the login page reads it from its own URL
and goes there. `login_returns` says where that is.
-/

namespace Biztrip.Web

open Biztrip.Lib Form Percent Url

def publicPrefixes : List String := ["/login", "/signup"]

def isPublicPath (pathname : String) : Bool :=
  publicPrefixes.any fun head => pathname = head || startsWith pathname (head ++ "/")

/-- What `encodeURIComponent` leaves as it is. -/
def isComponentChar (c : Char) : Bool :=
  isAlphanum c || c = '-' || c = '_' || c = '.' || c = '!' || c = '~' || c = '*' || c = '\'' ||
    c = '(' || c = ')'

def encodeURIComponent (s : String) : String := .ofList (percentEncode isComponentChar s.toList)

def loginPathFor (pathname search : String) : String :=
  let target := pathname ++ search
  if target = "/" then "/login" else "/login?redirect=" ++ encodeURIComponent target

/-- `url.searchParams.get(name)` -/
def searchParam (url name : String) : Option String :=
  ((parse decodeText (queryOf url.toList)).find? fun p => p.1 = name.toList).map fun p =>
    .ofList p.2

/-- The page that is shown, as a URL has it: the path has no backslashes, and neither part has
controls or spaces. -/
structure Location where
  pathname : String
  search : String
  absolute : startsWith pathname "/" = true
  path : ∀ c ∈ pathname.toList, 0x20 < c.toNat ∧ c ≠ '\\'
  query : search = "" ∨ startsWith search "?" = true
  plain : ∀ c ∈ search.toList, 0x20 < c.toNat

/-- Where the guard of the layout goes, once the session is restored. -/
def guard (loggedIn : Bool) (page : Location) : Option String :=
  if !loggedIn && !isPublicPath page.pathname then some (loginPathFor page.pathname page.search)
  else none

/-- The path of a reference, where it begins with a slash and needs no normalising. -/
def pathOf (reference : String) : String :=
  .ofList (reference.toList.takeWhile fun c => c ≠ '?' && c ≠ '#')

/-- Where the login page of a URL goes. -/
def afterLogin (url : String) : String := safeRedirect (searchParam url "redirect")

/-! ## The query of the login page -/

/-- The characters of a component once the URL has been parsed. -/
def isParsedChar (c : Char) : Bool := isComponentChar c && isQueryChar c

theorem plain_isParsedChar : Plain isParsedChar where
  ascii c h := by
    simp only [isParsedChar, isQueryChar, Bool.and_eq_true, decide_eq_true_eq] at h
    exact decide_eq_true (by omega)
  percent := by decide

/-- What ends a component, or a space, is not in one. -/
theorem not_mem_component {c : Char} (h : isComponentChar c = false) (hpercent : c ≠ '%')
    (hhex : isHexDigit c = false) (l : List Char) : c ∉ percentEncode isParsedChar l := by
  intro hc
  rcases mem_percentEncode hc with hkeep | rfl | hhex'
  · rw [isParsedChar, h] at hkeep
    cases hkeep
  · exact hpercent rfl
  · rw [hhex] at hhex'
    cases hhex'

theorem isComponentChar_bounds {c : Char} (h : isComponentChar c = true) :
    0x20 < c.toNat ∧ c ≠ '#' := by
  simp only [isComponentChar, isAlphanum, Bool.or_eq_true, Bool.and_eq_true,
    decide_eq_true_eq] at h
  rcases h with ((((((((h | rfl) | rfl) | rfl) | rfl) | rfl) | rfl) | rfl) | rfl) | rfl
  · refine ⟨by omega, ?_⟩
    rintro rfl
    revert h
    decide
  all_goals decide

theorem mem_component {c : Char} {l : List Char} (h : c ∈ percentEncode isComponentChar l) :
    0x20 < c.toNat ∧ c ≠ '#' := by
  rcases mem_percentEncode h with hkeep | rfl | hhex
  · exact isComponentChar_bounds hkeep
  · decide
  · have hquery := isQueryChar_of_isHexDigit hhex
    simp only [isQueryChar, Bool.and_eq_true, decide_eq_true_eq] at hquery
    exact ⟨hquery.1.1.1.1.1.1, hquery.1.1.1.2⟩

theorem queryOf_login (target : String) :
    queryOf ("/login?redirect=" ++ encodeURIComponent target).toList =
      "redirect=".toList ++ percentEncode isParsedChar target.toList := by
  have hsplit : ("/login?redirect=" ++ encodeURIComponent target).toList =
      "/login".toList ++ '?' :: ("redirect=".toList ++
        percentEncode isComponentChar target.toList) := by
    rw [String.toList_append]
    exact congrArg ("/login?redirect=".toList ++ ·) String.toList_ofList
  have hpath : ∀ c ∈ "/login".toList, isPathChar c = true := List.all_eq_true.mp (by decide)
  have hname : ∀ c ∈ "redirect=".toList, decide (0x20 < c.toNat ∧ c ≠ '#') = true :=
    List.all_eq_true.mp (by decide)
  rw [hsplit, queryOf_path hpath]
  · rw [percentEncode, List.flatMap_append]
    refine congrArg₂ (· ++ ·) (percentEncode_eq_self (List.all_eq_true.mp (by decide))) ?_
    exact percentEncode_percentEncode (by decide) (fun c => isQueryChar_of_isHexDigit) _
  · intro c hc
    rcases List.mem_append.mp hc with hc | hc
    · exact of_decide_eq_true (hname c hc)
    · exact mem_component hc

theorem parse_redirect (target : List Char) :
    parse decodeText ("redirect=".toList ++ percentEncode isParsedChar target) =
      [("redirect".toList, target)] := by
  have hcut : '&' ∉ "redirect=".toList ++ percentEncode isParsedChar target := by
    rw [List.mem_append, not_or]
    exact ⟨by decide, not_mem_component (by decide) (by decide) (by decide) _⟩
  have hplus : plusToSpace (percentEncode isParsedChar target) =
      percentEncode isParsedChar target :=
    plusToSpace_eq_self (not_mem_component (by decide) (by decide) (by decide) _)
  have hname : (decodeText ∘ plusToSpace) "redirect".toList = "redirect".toList := by
    have hkept : percentEncode isParsedChar "redirect".toList = "redirect".toList :=
      percentEncode_eq_self (List.all_eq_true.mp (by decide))
    exact (congrArg decodeText hkept.symm).trans (decodeText_percentEncode plain_isParsedChar _)
  have hvalue : (decodeText ∘ plusToSpace) (percentEncode isParsedChar target) = target := by
    rw [Function.comp_apply, hplus, decodeText_percentEncode plain_isParsedChar]
  have hpair : cut ("redirect=".toList ++ percentEncode isParsedChar target) =
      ("redirect".toList, percentEncode isParsedChar target) := rfl
  have hkept : ["redirect=".toList ++ percentEncode isParsedChar target].filter (· ≠ []) =
      ["redirect=".toList ++ percentEncode isParsedChar target] := rfl
  rw [parse, List.splitOn_eq_singleton hcut, hkept, List.map_singleton, hpair]
  exact congrArg (fun p => [p]) (Prod.ext hname hvalue)

/-- The login page reads from its URL what the guard has put there. -/
theorem searchParam_loginPathFor (pathname search : String) :
    searchParam (loginPathFor pathname search) "redirect" =
      if pathname ++ search = "/" then none else some (pathname ++ search) := by
  rw [loginPathFor]
  split
  · decide
  · rw [searchParam, queryOf_login, parse_redirect]
    simp only [List.find?_cons, decide_true, Option.map_some, String.ofList_toList]

theorem pathOf_loginPathFor (pathname search : String) :
    pathOf (loginPathFor pathname search) = "/login" := by
  rw [loginPathFor]
  split
  · decide
  · rw [pathOf, String.toList_append]
    rfl

/-! ## Where the login leads -/

theorem startsWith_two {s : String} {c : Char} {rest : List Char}
    (h : s.toList = '/' :: c :: rest) : startsWith s "//" = true ↔ c = '/' := by
  have htwo : "//".toList = ['/', '/'] := rfl
  rw [startsWith, List.isPrefixOf_iff_prefix, h, htwo, List.cons_prefix_cons,
    List.cons_prefix_cons]
  exact ⟨fun hprefix => hprefix.2.1.symm, fun hc => ⟨rfl, hc.symm, List.nil_prefix⟩⟩

section
variable (page : Location)

theorem Location.exists_toList : ∃ rest, page.pathname.toList = '/' :: rest := by
  obtain ⟨rest, hrest⟩ := List.isPrefixOf_iff_prefix.mp page.absolute
  exact ⟨rest, hrest.symm⟩

/-- What comes after the first slash begins with a slash only if the path itself does. -/
theorem Location.second {c : Char} {rest : List Char}
    (h : (page.pathname ++ page.search).toList = '/' :: c :: rest) :
    c ≠ '\\' ∧ (startsWith page.pathname "//" = true ↔ c = '/') := by
  obtain ⟨after, hafter⟩ := page.exists_toList
  have hpath := page.path
  rw [String.toList_append, hafter, List.cons_append, List.cons.injEq] at h
  cases after with
  | nil =>
    -- the path is one slash, so the next character is the question mark
    rcases page.query with hempty | hquery
    · rw [hempty] at h
      cases h.2
    · obtain ⟨query, hquery⟩ := List.isPrefixOf_iff_prefix.mp hquery
      rw [← hquery] at h
      obtain ⟨rfl, -⟩ := List.cons.inj h.2
      rw [startsWith, hafter]
      decide
  | cons d after =>
    obtain ⟨rfl, -⟩ := List.cons.inj h.2
    rw [hafter] at hpath
    exact ⟨(hpath d (List.mem_cons_of_mem _ List.mem_cons_self)).2, startsWith_two hafter⟩

theorem Location.startsWith_slashes :
    startsWith (page.pathname ++ page.search) "//" = startsWith page.pathname "//" := by
  obtain ⟨after, hafter⟩ := page.exists_toList
  rcases h : (page.pathname ++ page.search).toList with _ | ⟨c, _ | ⟨d, rest⟩⟩
  · rw [String.toList_append, hafter] at h
    cases h
  · rw [String.toList_append, hafter, List.cons_append, List.cons.injEq,
      List.append_eq_nil_iff] at h
    rw [startsWith, startsWith, String.toList_append, hafter, h.2.1, h.2.2]
    rfl
  · have hc : c = '/' := by
      rw [String.toList_append, hafter, List.cons_append] at h
      exact (List.cons.inj h).1.symm
    subst hc
    rw [Bool.eq_iff_iff, startsWith_two h, (page.second h).2]

theorem Location.safeRedirect_eq :
    safeRedirect (some (page.pathname ++ page.search)) =
      if startsWith page.pathname "//" then "/" else page.pathname ++ page.search := by
  obtain ⟨after, hafter⟩ := page.exists_toList
  have hslash : startsWith (page.pathname ++ page.search) "/" = true := by
    rw [startsWith, String.toList_append, hafter]
    rfl
  have hne : page.pathname ++ page.search ≠ "" := by
    intro hempty
    rw [hempty] at hslash
    cases hslash
  simp [safeRedirect, hslash, hne, page.startsWith_slashes]

/-- A page of the site whose path does not begin with two slashes stays one. -/
theorem Location.staysOnSite {η : Type} (rules : Rules η) (app : Origin η)
    (h : startsWith page.pathname "//" = false) :
    StaysOnSite rules app (some (page.pathname ++ page.search)) := by
  obtain ⟨after, hafter⟩ := page.exists_toList
  have hclean : clean (page.pathname ++ page.search).toList =
      '/' :: (after ++ page.search.toList) := by
    rw [clean_eq_self, String.toList_append, hafter, List.cons_append]
    intro c hc
    rw [String.toList_append] at hc
    rcases List.mem_append.mp hc with hc | hc
    · exact (page.path c hc).1
    · exact page.plain c hc
  intro origin hresolve
  rw [page.safeRedirect_eq, h, if_neg (by decide), resolve_slash hclean] at hresolve
  rcases @relativeSlashState_cases η rules app (after ++ page.search.toList) with
    ⟨c, rest, hrest, hslash, -⟩ | ⟨-, hbase⟩
  · have htwo : (page.pathname ++ page.search).toList = '/' :: c :: rest := by
      rw [String.toList_append, hafter, List.cons_append, hrest]
    obtain ⟨hback, htwo⟩ := page.second htwo
    simp only [isSlash, Bool.or_eq_true, decide_eq_true_eq] at hslash
    rw [htwo.mpr (hslash.resolve_right hback)] at h
    cases h
  · rw [hbase] at hresolve
    exact (Option.some.inj hresolve).symm

/-- The guard sends no one on from the page it leads to. A login there ends on the very page that
was wanted, unless its path begins with two slashes, and never on another site. -/
theorem login_returns {η : Type} (rules : Rules η) (app : Origin η) :
    (∀ loggedIn (login : Location),
        login.pathname = pathOf (loginPathFor page.pathname page.search) →
          guard loggedIn login = none) ∧
      afterLogin (loginPathFor page.pathname page.search) =
        (if startsWith page.pathname "//" then "/" else page.pathname ++ page.search) ∧
      StaysOnSite rules app (searchParam (loginPathFor page.pathname page.search) "redirect") := by
  have hstays : ∀ loggedIn (login : Location),
      login.pathname = pathOf (loginPathFor page.pathname page.search) →
        guard loggedIn login = none := by
    intro loggedIn login hlogin
    have hpublic : isPublicPath "/login" = true := by decide
    rw [guard, hlogin, pathOf_loginPathFor, hpublic, Bool.not_true, Bool.and_false]
    rfl
  refine ⟨hstays, ?_⟩
  rw [afterLogin, searchParam_loginPathFor]
  split
  · next hroot =>
    refine ⟨?_, staysOnSite_root rfl⟩
    rw [← page.startsWith_slashes, hroot]
    rfl
  · next hroot =>
    refine ⟨page.safeRedirect_eq, ?_⟩
    cases h : startsWith page.pathname "//" with
    | false => exact page.staysOnSite rules app h
    | true =>
      refine staysOnSite_root ?_
      rw [page.safeRedirect_eq, if_pos h]

end

/-- The list of completed trips, as a page that is wanted. -/
def completedTrips : Location where
  pathname := "/trips"
  search := "?status=COMPLETED&q=%EC%84%9C%EC%9A%B8"
  absolute := by decide
  path := by
    have hall : "/trips".toList.all (fun c => 0x20 < c.toNat ∧ c ≠ '\\') = true := by decide
    exact fun c hc => of_decide_eq_true (List.all_eq_true.mp hall c hc)
  query := .inr (by decide)
  plain := by
    have hall : "?status=COMPLETED&q=%EC%84%9C%EC%9A%B8".toList.all (fun c => 0x20 < c.toNat) =
      true := by decide
    exact fun c hc => of_decide_eq_true (List.all_eq_true.mp hall c hc)

theorem login_returns_completed :
    afterLogin (loginPathFor "/trips" "?status=COMPLETED&q=%EC%84%9C%EC%9A%B8") =
      "/trips?status=COMPLETED&q=%EC%84%9C%EC%9A%B8" :=
  (login_returns completedTrips plainHosts biztrip).2.1.trans (if_neg (by decide))

end Biztrip.Web
