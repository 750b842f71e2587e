import Biztrip.Lib.Form

/-!
# From the filters of a screen to the parameters of a handler

`toQueryString` of `src/lib/api/query.ts`, the list calls of `src/lib/api` that build their
URLs with it, and what a handler reads from such a URL. `handler_reads_query` says that
nothing is lost or changed on the way, whatever text a filter holds.
-/

namespace Biztrip.Web

open Biztrip.Lib Form Percent

/-! ## What a screen sends -/

inductive Scalar where
  | text (s : String)
  | number (n : Int)
  | boolean (b : Bool)
  deriving DecidableEq

/-- `String(value)`. -/
def Scalar.toText : Scalar → String
  | .text s => s
  | .number n => toString n
  | .boolean b => if b then "true" else "false"

inductive QueryValue where
  | undefined
  | null
  | scalar (value : Scalar)
  | array (items : List Scalar)
  deriving DecidableEq

/-- An object: no key occurs twice. -/
structure Query where
  entries : List (String × QueryValue)
  nodup : (entries.map Prod.fst).Nodup

/-- A key that is not there is undefined. -/
def Query.value (query : Query) (key : String) : QueryValue :=
  (query.entries.lookup key).getD .undefined

namespace URLSearchParams

def append (params : List Pair) (name value : String) : List Pair :=
  params ++ [(name.toList, value.toList)]

/-- The first pair of the name gets the value and all others go. -/
def set (params : List Pair) (name value : String) : List Pair :=
  if params.any fun p => p.1 = name.toList then
    params.takeWhile (fun p => p.1 ≠ name.toList) ++ (name.toList, value.toList) ::
      ((params.dropWhile fun p => p.1 ≠ name.toList).drop 1).filter fun p => p.1 ≠ name.toList
  else append params name value

end URLSearchParams

open URLSearchParams

def addEntry (params : List Pair) (entry : String × QueryValue) : List Pair :=
  match entry.2 with
  | .undefined | .null => params
  | .array items => items.foldl (fun params item => append params entry.1 item.toText) params
  | .scalar value => if value = .text "" then params else set params entry.1 value.toText

/-- `?` and the parameters, or nothing where there are none. -/
def search (params : List Pair) : String :=
  if params.isEmpty then "" else "?" ++ .ofList (serialize params)

def toQueryString (query : Query) : String := search (query.entries.foldl addEntry [])

/-- The calls that take their filters from a screen. -/
inductive ListCall where
  | trips
  | expenses
  | cardTransactions
  | users
  deriving DecidableEq, Repr

def ListCall.path : ListCall → String
  | .trips => "/api/v1/trips"
  | .expenses => "/api/v1/expenses"
  | .cardTransactions => "/api/v1/card-transactions"
  | .users => "/api/v1/admin/users"

def ListCall.url (call : ListCall) (query : Query) : String := call.path ++ toQueryString query

/-- A number that is left out or zero is not sent. -/
def setGiven (params : List Pair) (name : String) (n : Option Nat) : List Pair :=
  match n.filter (· ≠ 0) with
  | some n => set params name (toString n)
  | none => params

/-- `listNotifications` builds its query itself. -/
def notificationParams (unreadOnly : Bool) (page size : Option Nat) : List Pair :=
  let params := if unreadOnly then set [] "unread_only" "true" else []
  setGiven (setGiven params "page" page) "size" size

def notificationsPath : String := "/api/v1/notifications"

def listNotificationsUrl (unreadOnly : Bool) (page size : Option Nat) : String :=
  notificationsPath ++ search (notificationParams unreadOnly page size)

/-! ## What a handler reads -/

/-- `Request.query_params`: what `parse_qsl` makes of the query of the URL, blank values kept. -/
def queryParams (url : String) : List (String × String) :=
  (parse unquote (queryOf url.toList)).map (Prod.map .ofList .ofList)

/-- All values of a parameter. -/
def getList (params : List (String × String)) (name : String) : List String :=
  (params.filter fun p => p.1 = name).map Prod.snd

/-! ## The way between -/

theorem isQueryChar_of_mem_serialize {c : Char} {params : List Pair} (h : c ∈ serialize params) :
    isQueryChar c = true := by
  rcases mem_serialize h with h | rfl | rfl
  · simp only [isEncodedChar, isFormChar, isAlphanum, Bool.or_eq_true, Bool.and_eq_true,
      decide_eq_true_eq] at h
    rcases h with (((((h | rfl) | rfl) | rfl) | rfl) | rfl) | rfl
    · simp only [isQueryChar, Bool.and_eq_true, decide_eq_true_eq]
      refine ⟨⟨⟨⟨⟨⟨?_, ?_⟩, ?_⟩, ?_⟩, ?_⟩, ?_⟩, ?_⟩ <;>
        first
        | omega
        | (rintro rfl; revert h; decide)
    all_goals decide
  all_goals decide

/-- The parameters put behind a path are those read from the URL. -/
theorem queryParams_search {path : String} (hpath : ∀ c ∈ path.toList, isPathChar c = true)
    (params : List Pair) :
    queryParams (path ++ search params) = params.map (Prod.map .ofList .ofList) := by
  have hquery : parse unquote (queryOf (path ++ search params).toList) = params := by
    unfold search
    split
    · next hnone =>
      rw [String.append_empty, queryOf_of_path hpath, List.isEmpty_iff.mp hnone]
      rfl
    · next hsome =>
      have hchars : ∀ c ∈ serialize params, isQueryChar c = true :=
        fun c hc => isQueryChar_of_mem_serialize hc
      have hlt : ∀ c ∈ serialize params, 0x20 < c.toNat ∧ c ≠ '#' := by
        intro c hc
        have := hchars c hc
        simp only [isQueryChar, Bool.and_eq_true, decide_eq_true_eq] at this
        exact ⟨this.1.1.1.1.1.1, this.1.1.1.2⟩
      have htext : (path ++ ("?" ++ String.ofList (serialize params))).toList =
          path.toList ++ '?' :: serialize params := by
        simp
      rw [htext, queryOf_path hpath hlt, percentEncode_eq_self hchars]
      exact parse_serialize (fun h l => unquote_percentEncode h l) params
  rw [queryParams, hquery]

/-- What a value is sent as: a text of its own for each item of an array, and nothing for one that
is missing or empty. -/
def QueryValue.texts : QueryValue → List String
  | .undefined | .null => []
  | .scalar value => if value = .text "" then [] else [value.toText]
  | .array items => items.map Scalar.toText

/-- A name as the parameters hold it. -/
def pairsOf (name : String) (texts : List String) : List Pair :=
  texts.map fun text => (name.toList, text.toList)

theorem map_pairsOf (name : String) (texts : List String) :
    (pairsOf name texts).map (Prod.map .ofList .ofList) = texts.map fun text => (name, text) := by
  simp [pairsOf, Function.comp_def]

theorem set_of_not_mem {params : List Pair} {name value : String}
    (h : name.toList ∉ params.map Prod.fst) : set params name value = append params name value := by
  refine if_neg fun hany => h ?_
  obtain ⟨p, hp, hname⟩ := List.any_eq_true.mp hany
  exact List.mem_map.mpr ⟨p, hp, of_decide_eq_true hname⟩

theorem foldl_append (params : List Pair) (name : String) (items : List Scalar) :
    items.foldl (fun params item => append params name item.toText) params =
      params ++ pairsOf name (items.map Scalar.toText) := by
  induction items generalizing params with
  | nil => simp [pairsOf]
  | cons item items ih =>
    rw [List.foldl_cons, ih]
    simp [pairsOf, append]

theorem addEntry_eq {params : List Pair} {entry : String × QueryValue}
    (h : entry.1.toList ∉ params.map Prod.fst) :
    addEntry params entry = params ++ pairsOf entry.1 entry.2.texts := by
  obtain ⟨name, value⟩ := entry
  cases value with
  | undefined | null => simp [addEntry, QueryValue.texts, pairsOf]
  | array items => exact foldl_append params name items
  | scalar value =>
    by_cases hempty : value = .text ""
    · simp [addEntry, QueryValue.texts, pairsOf, hempty]
    · simp only [addEntry, QueryValue.texts, if_neg hempty, set_of_not_mem h]
      rfl

/-- The entries of a query, one after another. -/
theorem foldl_addEntry {entries : List (String × QueryValue)}
    (hnodup : (entries.map Prod.fst).Nodup) (params : List Pair)
    (hfresh : ∀ entry ∈ entries, entry.1.toList ∉ params.map Prod.fst) :
    entries.foldl addEntry params =
      params ++ entries.flatMap fun entry => pairsOf entry.1 entry.2.texts := by
  induction entries generalizing params with
  | nil => simp
  | cons entry entries ih =>
    obtain ⟨hentry, hrest⟩ := List.nodup_cons.mp hnodup
    rw [List.foldl_cons, addEntry_eq (hfresh entry List.mem_cons_self), ih hrest _ ?_,
      List.flatMap_cons, List.append_assoc]
    intro other hother hmem
    rw [List.map_append, List.mem_append] at hmem
    rcases hmem with hmem | hmem
    · exact hfresh other (List.mem_cons_of_mem _ hother) hmem
    · obtain ⟨_, hpair, hname⟩ := List.mem_map.mp hmem
      obtain ⟨text, -, rfl⟩ := List.mem_map.mp hpair
      have hsame : entry.1 = other.1 := String.toList_inj.mp hname
      exact hentry (hsame ▸ List.mem_map_of_mem hother)

theorem getList_pairsOf (name key : String) (texts : List String) :
    getList ((pairsOf name texts).map (Prod.map .ofList .ofList)) key =
      if name = key then texts else [] := by
  rw [map_pairsOf, getList, List.filter_map, List.map_map]
  by_cases h : name = key <;> simp [h, Function.comp_def]

theorem getList_append (l m : List (String × String)) (key : String) :
    getList (l ++ m) key = getList l key ++ getList m key := by
  rw [getList, List.filter_append, List.map_append]
  rfl

/-- Of the entries only the one under a key has to do with it. -/
theorem getList_entries {entries : List (String × QueryValue)}
    (hnodup : (entries.map Prod.fst).Nodup) (key : String) :
    getList ((entries.flatMap fun entry => pairsOf entry.1 entry.2.texts).map
      (Prod.map .ofList .ofList)) key =
        ((entries.lookup key).getD .undefined).texts := by
  induction entries with
  | nil => rfl
  | cons entry entries ih =>
    obtain ⟨hentry, hrest⟩ := List.nodup_cons.mp hnodup
    obtain ⟨name, value⟩ := entry
    rw [List.flatMap_cons, List.map_append, getList_append, getList_pairsOf, ih hrest]
    by_cases h : name = key
    · subst h
      have hnone : entries.lookup name = none := by
        refine List.lookup_eq_none_iff.mpr fun p hp => ?_
        have hother : p.1 ∈ entries.map Prod.fst := List.mem_map_of_mem hp
        have : name ≠ p.1 := fun hsame => hentry (by exact hsame ▸ hother)
        simpa using this
      simp [hnone, QueryValue.texts]
    · have hne : (key == name) = false := beq_false_of_ne (Ne.symm h)
      simp [List.lookup_cons, hne, h]

theorem ListCall.isPathChar (call : ListCall) : ∀ c ∈ call.path.toList, isPathChar c = true := by
  cases call <;> exact List.all_eq_true.mp (by decide)

theorem getList_listUrl (call : ListCall) (query : Query) (key : String) :
    getList (queryParams (call.url query)) key = (query.value key).texts := by
  rw [ListCall.url, toQueryString, queryParams_search call.isPathChar,
    foldl_addEntry query.nodup [] fun _ _ => List.not_mem_nil, List.nil_append,
    getList_entries query.nodup, Query.value]

theorem setGiven_eq {params : List Pair} {name : String} (h : name.toList ∉ params.map Prod.fst)
    (n : Option Nat) :
    setGiven params name n = params ++ pairsOf name ((n.filter (· ≠ 0)).toList.map toString) := by
  unfold setGiven
  cases hn : n.filter (· ≠ 0) with
  | none => exact (List.append_nil params).symm
  | some n => exact set_of_not_mem h

/-- The notifications are asked for with what is given, and with nothing else. -/
theorem queryParams_listNotificationsUrl (unreadOnly : Bool) (page size : Option Nat) :
    queryParams (listNotificationsUrl unreadOnly page size) =
      (if unreadOnly then [("unread_only", "true")] else []) ++
        ((page.filter (· ≠ 0)).toList.map fun n => ("page", toString n)) ++
        (size.filter (· ≠ 0)).toList.map fun n => ("size", toString n) := by
  have hunread : (if unreadOnly then set [] "unread_only" "true" else []) =
      pairsOf "unread_only" (if unreadOnly then ["true"] else []) := by
    cases unreadOnly
    · rfl
    · have hnew : "unread_only".toList ∉ ([] : List Pair).map Prod.fst := List.not_mem_nil
      exact set_of_not_mem hnew
  have hpage : "page".toList ∉ (pairsOf "unread_only" (if unreadOnly then ["true"] else [])).map
      Prod.fst := by
    cases unreadOnly <;> simp [pairsOf]
  have hpath : ∀ c ∈ notificationsPath.toList, isPathChar c = true :=
    List.all_eq_true.mp (by decide)
  rw [listNotificationsUrl, queryParams_search hpath, notificationParams, hunread,
    setGiven_eq hpage, setGiven_eq ?_]
  · simp only [List.map_append, map_pairsOf, List.map_map, Function.comp_def]
    cases unreadOnly <;> rfl
  · rw [List.map_append, List.mem_append, not_or]
    refine ⟨by cases unreadOnly <;> simp [pairsOf], ?_⟩
    simp [pairsOf]

/-- A handler reads of every parameter what the screen has given for it, in order: one text for a
value, one for each item of an array, and none where the value is missing or empty. The handler of
the notifications reads what is given for them, and nothing else. -/
theorem handler_reads_query :
    (∀ (call : ListCall) (query : Query) (key : String),
      getList (queryParams (call.url query)) key = (query.value key).texts) ∧
    ∀ (unreadOnly : Bool) (page size : Option Nat),
      queryParams (listNotificationsUrl unreadOnly page size) =
        (if unreadOnly then [("unread_only", "true")] else []) ++
          ((page.filter (· ≠ 0)).toList.map fun n => ("page", toString n)) ++
          (size.filter (· ≠ 0)).toList.map fun n => ("size", toString n) :=
  ⟨getList_listUrl, queryParams_listNotificationsUrl⟩

/-- What the dashboard asks for to count the trips that are under way. -/
def ongoing : Query where
  entries :=
    [("status", .array [.text "SUBMITTED", .text "APPROVED"]), ("size", .scalar (.number 1))]
  nodup := by decide

theorem handler_reads_query_ongoing :
    getList (queryParams (ListCall.trips.url ongoing)) "status" = ["SUBMITTED", "APPROVED"] ∧
      queryParams (listNotificationsUrl false none (some 5)) = [("size", "5")] :=
  ⟨handler_reads_query.1 .trips ongoing "status", handler_reads_query.2 false none (some 5)⟩

end Biztrip.Web
