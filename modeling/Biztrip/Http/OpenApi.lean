import Mathlib.Logic.Function.Basic
import Biztrip.Http.Escalation
import Biztrip.Http.Startup
import Biztrip.Http.Widening

/-!
# What the documentation promises

`app/openapi.py` and `scope_catalog` of `app/services/api_scopes.py`. What FastAPI generates by
itself is a parameter (`base`); `customOpenapi` writes the security and the scope into each
operation of the scope table. For an agent with a key, the documented operations are those that
let it pass, as far as its owner's login session passes.
-/

namespace Biztrip.Http

open Biztrip.Lib Accounts

/-! ## The schema -/

inductive SecurityScheme where
  | bearerAuth
  | apiKeyAuth
  deriving DecidableEq, Repr

/-- An operation of the schema, as far as `build_openapi` reads and writes it. -/
structure DocOperation where
  description : Option String := none
  /-- The alternatives, of one scheme each. -/
  security : Option (List SecurityScheme) := none
  deriving DecidableEq

/-- `schema["paths"]`, by path and method in lower case. -/
abbrev Paths := String × String → Option DocOperation

/-- `_JWT_ONLY_PREFIX`. -/
def jwtOnlyPrefix : String := "/api/v1/api-keys"

/-- `_JWT_ONLY_PATHS`. -/
def jwtOnlyPaths : List String := ["/api/v1/admin/users/{user_id}/password"]

def isJwtOnly (path : String) : Bool :=
  jwtOnlyPrefix.toList.isPrefixOf path.toList || path ∈ jwtOnlyPaths

def jwtOnlyNote : String := "**로그인 세션 전용** — API Key로는 호출할 수 없습니다."

def scopelessNote : String := "**스코프 불필요** — 인증만 하면 호출할 수 있습니다."

def scopeNote (scope : ApiKeyScope) : String := s!"**필요 스코프**: `{scope.value}`"

def noteFor (path : String) (scope : Option ApiKeyScope) : String :=
  if isJwtOnly path then jwtOnlyNote
  else
    match scope with
    | none => scopelessNote
    | some scope => scopeNote scope

def securityFor (path : String) : List SecurityScheme :=
  if isJwtOnly path then [.bearerAuth] else [.bearerAuth, .apiKeyAuth]

/-- What is written into an operation. -/
def DocOperation.annotate (op : DocOperation) (path : String) (scope : Option ApiKeyScope) :
    DocOperation :=
  { security := some (securityFor path)
    description := some (strip (op.description.getD "" ++ "\n\n" ++ noteFor path scope)) }

def docKey (method path : String) : String × String := (path, method.toLower)

/-- The loop of `custom_openapi`. -/
def customOpenapi (requirements : ScopeTable) (base : Paths) : Paths :=
  requirements.foldl (fun paths entry =>
    let key := docKey entry.1.1 entry.1.2
    match paths key with
    | none => paths
    | some op => Function.update paths key (some (op.annotate entry.1.2 entry.2))) base

def Endpoint.docKey (e : Endpoint) : String × String := Http.docKey e.route.method e.route.path

/-- The description ends with the note. -/
def DocOperation.Says (op : DocOperation) (note : String) : Prop :=
  note.toList <:+ (op.description.getD "").toList

/-- The operation may be called with a key. -/
def DocOperation.TakesKeys (op : DocOperation) : Prop := .apiKeyAuth ∈ op.security.getD []

/-! ## The catalogue -/

/-- `SCOPE_DESCRIPTIONS`. -/
def scopeDescription : ApiKeyScope → String
  | .tripsRead => "출장 조회 — 목록·상세·타임라인"
  | .tripsWrite => "출장 쓰기 — 신청·수정·삭제·상신·결재·완료"
  | .expensesRead => "정산 조회 — 목록·상세·매칭후보·타임라인"
  | .expensesWrite => "정산 쓰기 — 생성·항목 편집·제출·결재"
  | .cardsRead => "법인카드 조회 — 카드 목록·카드거래"
  | .admin => "관리자 API — 공통코드·센터·부서·사용자·법인카드 마스터 CRUD"

structure ScopeCatalogEntry where
  scope : ApiKeyScope
  description : String
  endpoints : List String

def label (method path : String) : String := s!"{method} {path}"

def scopeCatalog : List ScopeCatalogEntry :=
  ApiKeyScope.all.map fun scope =>
    let grouped := (scopeRequirements.filter fun entry => entry.2 = some scope).map fun entry =>
      label entry.1.1 entry.1.2
    { scope, description := scopeDescription scope
      endpoints := grouped.insertionSort fun a b => a ≤ b }

variable {sec : Security} {s : Store} {env : Env} {headers : Headers} {raw : String}
  {user : CurrentUser} {scopes : List String} {exp : Instant} {base : Paths} {op : DocOperation}
  {path : String} {scope : ApiKeyScope} {required : Option ApiKeyScope} {e : Endpoint}

/-! ## The loop -/

/-- Every operation of the table is annotated once, and no other. -/
theorem customOpenapi_eq {requirements : ScopeTable}
    (hnodup : (requirements.map fun entry => docKey entry.1.1 entry.1.2).Nodup) :
    ∀ {base : Paths} (k : String × String), customOpenapi requirements base k =
      match requirements.find? fun entry => docKey entry.1.1 entry.1.2 = k with
      | none => base k
      | some entry => (base k).map fun op => op.annotate entry.1.2 entry.2 := by
  induction requirements with
  | nil => exact fun k => rfl
  | cons entry requirements ih =>
    intro base k
    obtain ⟨hnot, hnodup⟩ := List.nodup_cons.mp hnodup
    rw [customOpenapi, List.foldl_cons, ← customOpenapi, ih hnodup, List.find?_cons]
    by_cases hk : docKey entry.1.1 entry.1.2 = k
    · subst hk
      have hnone : (requirements.find? fun entry' =>
          docKey entry'.1.1 entry'.1.2 = docKey entry.1.1 entry.1.2) = none := by
        rw [List.find?_eq_none]
        intro entry' hmem he
        exact hnot (List.mem_map.mpr ⟨entry', hmem, of_decide_eq_true he⟩)
      simp only [hnone, decide_true]
      rcases hb : base (docKey entry.1.1 entry.1.2) with _ | op
      · exact hb
      · exact Function.update_self _ _ _
    · have hsame : (match base (docKey entry.1.1 entry.1.2) with
          | none => base
          | some op => Function.update base (docKey entry.1.1 entry.1.2)
              (some (op.annotate entry.1.2 entry.2))) k = base k := by
        rcases base (docKey entry.1.1 entry.1.2) with _ | op
        · rfl
        · exact Function.update_of_ne (Ne.symm hk) _ _
      simp only [hk, decide_false, hsame]

/-- The methods of the table. -/
def methods : List String := ["GET", "POST", "PATCH", "DELETE"]

/-- An entry of the table is that of a route. -/
theorem exists_route {entry : (String × String) × Option ApiKeyScope}
    (h : entry ∈ scopeRequirements) : ∃ e : Endpoint, (e.route.method, e.route.path) = entry.1 := by
  have hkeys : entry.1 ∈ Endpoint.all.map fun e => (e.route.method, e.route.path) :=
    Endpoint.all_routes ▸ List.mem_map_of_mem h
  obtain ⟨e, -, hroute⟩ := List.mem_map.mp hkeys
  exact ⟨e, hroute⟩

theorem method_declared {entry : (String × String) × Option ApiKeyScope}
    (h : entry ∈ scopeRequirements) : entry.1.1 ∈ methods := by
  obtain ⟨e, hroute⟩ := exists_route h
  rw [← hroute]
  exact e.method_mem

theorem keys_nodup : (scopeRequirements.map Prod.fst).Nodup := by decide +kernel

/-- Names that tell methods and paths apart tell the operations of the table apart. -/
theorem names_nodup {β : Type} {name : String → String → β}
    (hname : ∀ {m m' p p' : String}, m ∈ methods → m' ∈ methods → name m p = name m' p' →
      (m, p) = (m', p')) :
    (scopeRequirements.map fun entry => name entry.1.1 entry.1.2).Nodup := by
  refine List.Nodup.map_on (fun x hx y hy h => ?_) keys_nodup.of_map
  exact List.inj_on_of_nodup_map keys_nodup hx hy
    (hname (method_declared hx) (method_declared hy) h)

theorem docKey_inj {m m' p p' : String} (hm : m ∈ methods) (hm' : m' ∈ methods)
    (h : docKey m p = docKey m' p') : (m, p) = (m', p') := by
  have hlower : ∀ m ∈ methods, ∀ m' ∈ methods, m.toLower = m'.toLower → m = m' := by
    decide +kernel
  obtain ⟨hpath, hmethod⟩ := Prod.mk.inj h
  rw [hpath, hlower m hm m' hm' hmethod]

theorem docKeys_nodup :
    (scopeRequirements.map fun entry => docKey entry.1.1 entry.1.2).Nodup :=
  names_nodup docKey_inj

theorem Endpoint.entry_mem (h : requiredScopeFor e.route.method e.route.path = .ok required) :
    ((e.route.method, e.route.path), required) ∈ scopeRequirements := by
  have hlookup := getE_eq_ok.mp h
  rw [e.method_upper, List.lookup_eq_some_iff] at hlookup
  obtain ⟨l₁, l₂, hl, -⟩ := hlookup
  rw [hl]
  exact List.mem_append_right _ List.mem_cons_self

/-- What becomes of the operation of an endpoint. -/
theorem customOpenapi_endpoint (h : requiredScopeFor e.route.method e.route.path = .ok required)
    (hop : base e.docKey = some op) :
    customOpenapi scopeRequirements base e.docKey = some (op.annotate e.route.path required) := by
  have hmem := Endpoint.entry_mem h
  have hsome : (scopeRequirements.find? fun entry =>
      docKey entry.1.1 entry.1.2 = e.docKey).isSome :=
    List.find?_isSome.mpr ⟨_, hmem, decide_eq_true rfl⟩
  obtain ⟨entry, hfind⟩ := Option.isSome_iff_exists.mp hsome
  have hkey : docKey entry.1.1 entry.1.2 = e.docKey := of_decide_eq_true (List.find?_some hfind :)
  obtain rfl : entry = ((e.route.method, e.route.path), required) :=
    List.inj_on_of_nodup_map docKeys_nodup (List.mem_of_find?_eq_some hfind) hmem hkey
  rw [customOpenapi_eq docKeys_nodup, hfind]
  simp only [hop, Option.map_some]

/-- The rest of the schema stays as FastAPI generates it. -/
theorem customOpenapi_other {k : String × String} (h : ∀ e : Endpoint, e.docKey ≠ k) :
    customOpenapi scopeRequirements base k = base k := by
  have hnone : (scopeRequirements.find? fun entry => docKey entry.1.1 entry.1.2 = k) = none := by
    rw [List.find?_eq_none]
    intro entry hmem he
    obtain ⟨e, hroute⟩ := exists_route hmem
    exact h e (by rw [Endpoint.docKey, ← of_decide_eq_true he, ← hroute])
  rw [customOpenapi_eq docKeys_nodup, hnone]

/-! ## Reading a note -/

/-- `strip` leaves the text as it is. -/
def Trimmed (note : String) : Prop :=
  note.toList.dropWhile isSpace = note.toList ∧
    note.toList.reverse.dropWhile isSpace = note.toList.reverse

instance (note : String) : Decidable (Trimmed note) := inferInstanceAs (Decidable (_ ∧ _))

theorem suffix_strip {a note : String} (h : Trimmed note) :
    note.toList <:+ (strip (a ++ note)).toList := by
  obtain ⟨front, hfront⟩ : ∃ front, (a ++ note).toList.dropWhile isSpace =
      front ++ note.toList := by
    rw [String.toList_append, List.dropWhile_append, h.1]
    split
    · exact ⟨[], rfl⟩
    · exact ⟨_, rfl⟩
  rw [strip, String.toList_ofList, hfront, List.reverse_append, List.dropWhile_append, h.2]
  split
  · next hnil =>
    rw [List.reverse_eq_nil_iff.mp (List.isEmpty_iff.mp hnil)]
    exact List.nil_suffix
  · rw [← List.reverse_append, List.reverse_reverse]
    exact List.suffix_append _ _

def notes : List String := jwtOnlyNote :: scopelessNote :: ApiKeyScope.all.map scopeNote

theorem noteFor_mem (path : String) (required : Option ApiKeyScope) :
    noteFor path required ∈ notes := by
  unfold noteFor
  split
  · exact List.mem_cons_self
  · rcases required with _ | scope
    · exact List.mem_cons_of_mem _ List.mem_cons_self
    · cases scope <;> simp [notes, ApiKeyScope.all]

theorem says_note (op : DocOperation) (path : String) (required : Option ApiKeyScope) :
    (op.annotate path required).Says (noteFor path required) := by
  have htrimmed : ∀ note ∈ notes, Trimmed note := by decide +kernel
  exact suffix_strip (htrimmed _ (noteFor_mem path required))

/-- The note that an operation ends with is the one that was written. -/
theorem noteFor_of_says (h : (op.annotate path required).Says (scopeNote scope)) :
    noteFor path required = scopeNote scope := by
  have hapart : ∀ note ∈ notes, ∀ scope ∈ ApiKeyScope.all,
      note.toList <:+ (scopeNote scope).toList ∨ (scopeNote scope).toList <:+ note.toList →
        note = scopeNote scope := by decide +kernel
  exact hapart _ (noteFor_mem path required) scope (by cases scope <;> decide)
    (List.suffix_or_suffix_of_suffix (says_note op path required) h)

theorem scopeNote_inj {scope' : ApiKeyScope} (h : scopeNote scope = scopeNote scope') :
    scope = scope' := by
  cases scope <;> cases scope' <;> first | rfl | exact absurd h (by decide)

/-- The operation names a scope exactly if the table requires it and keys are taken at all. -/
theorem says_scopeNote : (op.annotate path required).Says (scopeNote scope) ↔
    isJwtOnly path = false ∧ required = some scope := by
  constructor
  · intro h
    have hnote := noteFor_of_says h
    unfold noteFor at hnote
    split at hnote
    · exact absurd hnote (by cases scope <;> decide)
    · next hjwt =>
      refine ⟨Bool.eq_false_iff.mpr hjwt, ?_⟩
      rcases required with _ | required
      · exact absurd hnote (by cases scope <;> decide)
      · rw [scopeNote_inj hnote]
  · rintro ⟨hjwt, rfl⟩
    have hsays := says_note op path (some scope)
    rwa [noteFor, hjwt] at hsays

theorem takesKeys_annotate :
    (op.annotate path required).TakesKeys ↔ isJwtOnly path = false := by
  unfold DocOperation.TakesKeys DocOperation.annotate securityFor
  cases isJwtOnly path <;> simp

/-! ## What is enforced -/

/-- A text that begins with another one begins with its bytes. -/
theorem bytes_prefix {a b : String} (h : a.toList <+: b.toList) :
    a.toByteArray.data.toList <+: b.toByteArray.data.toList := by
  obtain ⟨rest, hrest⟩ := h
  have hb : b = a ++ String.ofList rest := by
    rw [← String.toList_inj, String.toList_append, String.toList_ofList, hrest]
  rw [hb, String.toByteArray_append, ByteArray.data_append, Array.toList_append]
  exact List.prefix_append _ _

/-- The paths that the documentation reserves for sessions are those of the routes that do. -/
theorem isJwtOnly_iff (e : Endpoint) : isJwtOnly e.route.path = true ↔
    e.route.access = .jwtOnlyUser ∨ e.route.access = .jwtOnlyAdmin := by
  have hreserved : ∀ e ∈ Endpoint.all,
      jwtOnlyPrefix.toByteArray.data.toList <+: e.route.path.toByteArray.data.toList ∨
          e.route.path ∈ jwtOnlyPaths →
        e.route.access = .jwtOnlyUser ∨ e.route.access = .jwtOnlyAdmin := by
    decide +kernel
  have hclosed : ∀ e ∈ Endpoint.all, e.route.access = .jwtOnlyUser ∨
      e.route.access = .jwtOnlyAdmin → isJwtOnly e.route.path = true := by
    decide +kernel
  refine ⟨fun h => hreserved e e.mem_all ?_, hclosed e e.mem_all⟩
  rw [isJwtOnly, Bool.or_eq_true, decide_eq_true_eq, List.isPrefixOf_iff_prefix] at h
  exact h.imp_left bytes_prefix

theorem enforceScope_only_iff {method : String}
    (h : requiredScopeFor method path = .ok required) :
    enforceScope method path (.only scopes) = .ok () ↔
      ∀ scope, required = some scope → scope.value ∈ scopes := by
  rw [enforceScope, h, ok_bind]
  rcases required with _ | required
  · simp
  · simp [guardE_eq_ok]

theorem check_apiKey_iff {access : Access} {principal : Principal}
    (huser : principal.user = user) (hcheck : access.check principal = .ok ()) :
    access.check ⟨user, .only scopes, .apiKey⟩ = .ok () ↔
      ¬ (access = .jwtOnlyUser ∨ access = .jwtOnlyAdmin) := by
  have hrole : requireRole [.admin] principal =
      requireRole [.admin] ⟨user, .only scopes, .apiKey⟩ := by
    rw [requireRole, huser]
    rfl
  cases access with
  | currentUser => simp [Access.check]
  | jwtOnlyUser => simp [Access.check, requireJwt]
  | adminUser =>
    rw [Access.check, hrole] at hcheck
    simp [Access.check, hcheck]
  | jwtOnlyAdmin => simp [Access.check, requireJwt, bind_eq_ok]

theorem not_check_jwtOnly {access : Access}
    (hcheck : access.check ⟨user, .only scopes, .apiKey⟩ = .ok ()) :
    ¬ (access = .jwtOnlyUser ∨ access = .jwtOnlyAdmin) := by
  have huser : (⟨user, .only scopes, .apiKey⟩ : Principal).user = user := rfl
  exact (check_apiKey_iff huser hcheck).mp hcheck

/-- What a route asks of an accepted key. -/
theorem passes_key_iff {method : String} {access : Access} (hraw : headers.xApiKey = some raw)
    (hne : raw ≠ "") (haccepts : Accepts sec s env (strip raw) user scopes) :
    Passes sec s env headers method path access user ↔
      enforceScope method path (.only scopes) = .ok () ∧
        access.check ⟨user, .only scopes, .apiKey⟩ = .ok () := by
  obtain ⟨s₁, hauth⟩ := (exists_authenticate_iff hraw hne).mpr ⟨user, scopes, haccepts, rfl⟩
  constructor
  · rintro ⟨principal, s₂, hdeps, -⟩
    obtain ⟨hauth', hscope, hcheck⟩ := dependencies_eq_ok.mp hdeps
    obtain ⟨rfl, -⟩ := Prod.mk.inj (Except.ok.inj (hauth'.symm.trans hauth))
    exact ⟨hscope, hcheck⟩
  · rintro ⟨hscope, hcheck⟩
    exact ⟨_, s₁, dependencies_eq_ok.mpr ⟨hauth, hscope, hcheck⟩, rfl⟩

/-- An accepted key passes as far as the documentation says and its owner's session passes. -/
theorem passes_documented (h : requiredScopeFor e.route.method e.route.path = .ok required)
    (hraw : headers.xApiKey = some raw) (hne : raw ≠ "")
    (haccepts : Accepts sec s env (strip raw) user scopes) (hexp : env.now < exp) :
    Passes sec s env headers e.route.method e.route.path e.route.access user ↔
      (op.annotate e.route.path required).TakesKeys ∧
        (∀ scope, (op.annotate e.route.path required).Says (scopeNote scope) →
          scope.value ∈ scopes) ∧
        Passes sec s env { authorization := some (.bearer (.signed ⟨user.id, exp⟩)) }
          e.route.method e.route.path e.route.access user := by
  simp only [takesKeys_annotate, says_scopeNote]
  constructor
  · intro hpasses
    obtain ⟨hscope, hcheck⟩ := (passes_key_iff hraw hne haccepts).mp hpasses
    have hopen := not_check_jwtOnly hcheck
    refine ⟨Bool.eq_false_iff.mpr fun hjwt => hopen ((isJwtOnly_iff e).mp hjwt), ?_,
      (passes_with_session hraw hne hexp hpasses).2⟩
    exact fun scope hsays => (enforceScope_only_iff h).mp hscope scope hsays.2
  · rintro ⟨hjwt, hscopes, principal, s₁, hdeps, huser⟩
    obtain ⟨-, -, hcheck⟩ := dependencies_eq_ok.mp hdeps
    refine (passes_key_iff hraw hne haccepts).mpr
      ⟨(enforceScope_only_iff h).mpr fun scope hsome => hscopes scope ⟨hjwt, hsome⟩,
        (check_apiKey_iff huser hcheck).mpr fun haccess => ?_⟩
    rw [(isJwtOnly_iff e).mpr haccess] at hjwt
    cases hjwt

/-! ## The catalogue and the schema -/

/-- The method ends at the blank. -/
theorem label_inj {m m' p p' : String} (hm : m ∈ methods) (hm' : m' ∈ methods)
    (h : label m p = label m' p') : (m, p) = (m', p') := by
  have hwords : (methods.all fun m => m.toList.all fun c => decide (c ≠ ' ')) = true := by
    decide +kernel
  have hword (m : String) (hm : m ∈ methods) : ∀ c ∈ m.toList, decide (c ≠ ' ') = true :=
    List.all_eq_true.mp (List.all_eq_true.mp hwords m hm)
  have hlist (m p : String) : (label m p).toList = m.toList ++ ' ' :: p.toList := by
    show (m ++ " " ++ p).toList = _
    simp
  have heq := congrArg String.toList h
  rw [hlist, hlist] at heq
  have hmethod := congrArg (List.takeWhile fun c => decide (c ≠ ' ')) heq
  rw [List.takeWhile_append_of_pos (hword m hm), List.takeWhile_append_of_pos (hword m' hm'),
    List.takeWhile_cons_of_neg (by decide), List.takeWhile_cons_of_neg (by decide),
    List.append_nil, List.append_nil] at hmethod
  rw [hmethod] at heq
  obtain ⟨-, hpath⟩ := List.cons.inj (List.append_cancel_left heq)
  rw [String.toList_inj.mp hmethod, String.toList_inj.mp hpath]

theorem mem_catalogue (h : requiredScopeFor e.route.method e.route.path = .ok required)
    {entry : ScopeCatalogEntry} (hentry : entry ∈ scopeCatalog) :
    label e.route.method e.route.path ∈ entry.endpoints ↔ required = some entry.scope := by
  obtain ⟨scope, -, rfl⟩ := List.mem_map.mp hentry
  have hmem := Endpoint.entry_mem h
  simp only [List.mem_insertionSort, List.mem_map, List.mem_filter, decide_eq_true_eq]
  constructor
  · rintro ⟨entry, ⟨hin, hscope⟩, hlabel⟩
    obtain rfl : entry = ((e.route.method, e.route.path), required) :=
      List.inj_on_of_nodup_map (names_nodup label_inj) hin hmem hlabel
    exact hscope
  · rintro rfl
    exact ⟨_, ⟨hmem, rfl⟩, rfl⟩

theorem admin_scope : ∀ e ∈ [Endpoint.approveUser, .setPassword],
    requiredScopeFor e.route.method e.route.path = .ok (some .admin) := by decide +kernel

/-- One endpoint is reserved for sessions and has a scope in the table all the same. -/
theorem setPassword_iff (h : requiredScopeFor e.route.method e.route.path = .ok (some scope)) :
    isJwtOnly e.route.path = true ↔ e = .setPassword ∧ scope = .admin := by
  have hscopeless : ∀ e ∈ Endpoint.all, e.route.access = .jwtOnlyUser ∨
      e.route.access = .jwtOnlyAdmin → e ≠ .setPassword →
        requiredScopeFor e.route.method e.route.path = .ok none := by
    decide +kernel
  rw [isJwtOnly_iff]
  constructor
  · intro haccess
    by_cases he : e = .setPassword
    · subst he
      have hadmin := admin_scope .setPassword (by decide)
      exact ⟨rfl, Option.some.inj (Except.ok.inj (h.symm.trans hadmin))⟩
    · have hnone := hscopeless e e.mem_all haccess he
      cases Except.ok.inj (h.symm.trans hnone)
  · rintro ⟨rfl, -⟩
    exact .inr rfl

/-- The documentation is exact. On every endpoint, an accepted key passes if and only if the schema
offers keys there, the key has the scope that its note names, and the owner's login session passes;
what is no endpoint is left as FastAPI generates it. The catalogue of scopes lists an endpoint where
the schema names the scope, with one exception: it lists the setting of a password, which no key
can do. -/
theorem documentation_exact (sec : Security) (s : Store) (env : Env) (base : Paths)
    (hbase : ∀ e : Endpoint, (base e.docKey).isSome) :
    (∀ k, (∀ e : Endpoint, e.docKey ≠ k) → customOpenapi scopeRequirements base k = base k) ∧
    ∀ e : Endpoint, ∃ op, customOpenapi scopeRequirements base e.docKey = some op ∧
      (∀ headers raw user scopes exp, headers.xApiKey = some raw → raw ≠ "" →
        Accepts sec s env (strip raw) user scopes → env.now < exp →
          (Passes sec s env headers e.route.method e.route.path e.route.access user ↔
            op.TakesKeys ∧ (∀ scope, op.Says (scopeNote scope) → scope.value ∈ scopes) ∧
              Passes sec s env { authorization := some (.bearer (.signed ⟨user.id, exp⟩)) }
                e.route.method e.route.path e.route.access user)) ∧
      ∀ entry ∈ scopeCatalog, label e.route.method e.route.path ∈ entry.endpoints ↔
        op.Says (scopeNote entry.scope) ∨ e = .setPassword ∧ entry.scope = .admin := by
  refine ⟨fun k => customOpenapi_other, fun e => ?_⟩
  obtain ⟨op, hop⟩ := Option.isSome_iff_exists.mp (hbase e)
  obtain ⟨required, h⟩ := e.scope_declared
  refine ⟨_, customOpenapi_endpoint h hop, fun headers raw user scopes exp hraw hne haccepts hexp =>
    passes_documented h hraw hne haccepts hexp, fun entry hentry => ?_⟩
  rw [mem_catalogue h hentry, says_scopeNote]
  constructor
  · rintro rfl
    cases hjwt : isJwtOnly e.route.path with
    | false => exact .inl ⟨rfl, rfl⟩
    | true => exact .inr ((setPassword_iff h).mp hjwt)
  · rintro (⟨-, hsome⟩ | ⟨rfl, hadmin⟩)
    · exact hsome
    · rw [hadmin]
      exact Except.ok.inj (h.symm.trans (admin_scope .setPassword (by decide)))

/-! ## In the office -/

/-- The docstring of the function behind the route. -/
def Endpoint.docstring? : Endpoint → Option String
  | .createApiKey => some "평문 키는 이 응답에만 담긴다. 다시 조회할 방법이 없다 (spec 5.7)."
  | .read .listScopes => some <| "스코프별 설명과 해당 엔드포인트. `/developers` 가이드와 Agent가 같은 것을 본다.\n\n" ++
      "`user`를 쓰지 않지만 의존성은 유지한다 — 인증 없이 열면 라우트 목록이 그대로 노출되고,\n" ++
      "무엇보다 스코프 표 소진 가드가 이 라우트를 검사 대상에서 빼버린다."
  | .deleteItem => some <| "204가 아니라 갱신된 정산서를 돌려준다 — 합계와 항목 목록이 함께 바뀌므로\n" ++
      "호출자가 곧바로 다시 GET 해야 하는 왕복을 없앤다."
  | .setPassword => some <| "**로그인 세션 전용.** API Key로는 호출할 수 없다 — " ++
      "키가 JWT로 승격되는 경로를 막는다."
  | .approveUser => some "가입 승인. 관리자가 사번·직급·결재자·역할을 채우면 계정이 열린다."
  | .rejectUser => some "가입 거절. 행은 남으므로 같은 이메일로 재신청할 수 있다."
  | _ => none

/-- What FastAPI generates for the endpoints: their docstrings, and nothing on security, since the
dependencies read the headers by hand. -/
def generated : Paths := fun k =>
  (Endpoint.all.find? fun e => e.docKey = k).map fun e => { description := e.docstring? }

theorem isSome_generated (e : Endpoint) : (generated e.docKey).isSome := by
  rw [generated, Option.isSome_map, List.find?_isSome]
  exact ⟨e, e.mem_all, decide_eq_true rfl⟩

def park : CurrentUser := { Office.user "park@sk.com" "Park" "E3" none .admin with id := 3 }

def byKey : Headers := { xApiKey := some parkKey }

def bySession : Headers :=
  { authorization := some (.bearer (.signed (Auth.createAccessToken Office.env 3))) }

/-- The route lets Park in. -/
def Lets (headers : Headers) (e : Endpoint) : Prop :=
  Passes Office.sec officeWithKey Office.env headers e.route.method e.route.path e.route.access park

theorem parksKey_accepted :
    Accepts Office.sec officeWithKey Office.env (strip parkKey) park ["admin"] := by
  have hkey : ((ApiKeys.authenticateKey Office.sec officeWithKey Office.env
      (strip parkKey)).toOption.bind fun found =>
        (found.2.2.commit officeWithKey).toOption.bind fun _ =>
        some (found.1.toUser, found.1.id, found.2.1)) = some (park.toUser, 3, ["admin"]) := by
    decide +kernel
  obtain ⟨⟨⟨user, id⟩, scopes, plan⟩, hauth, hkey⟩ := toOption_bind_eq_some.mp hkey
  obtain ⟨s', hcommit, heq⟩ := toOption_bind_eq_some.mp hkey
  simp only [Option.some.injEq, Prod.mk.injEq] at heq
  obtain ⟨rfl, rfl, rfl⟩ := heq
  exact ⟨plan, s', hauth, hcommit⟩

theorem lets_bySession {e : Endpoint} (h : e ∈ [Endpoint.approveUser, .setPassword]) :
    Lets bySession e := by
  have hall : ∀ e ∈ [Endpoint.approveUser, .setPassword],
      ((dependencies Office.sec officeWithKey Office.env bySession e.route.method e.route.path
        e.route.access).toOption.bind fun p => some (p.1.user.toUser, p.1.user.id)) =
          some (park.toUser, 3) := by
    decide +kernel
  obtain ⟨⟨⟨⟨user, id⟩, scopes, authMethod⟩, s₁⟩, hdeps, heq⟩ := toOption_bind_eq_some.mp (hall e h)
  simp only [Option.some.injEq, Prod.mk.injEq] at heq
  obtain ⟨rfl, rfl⟩ := heq
  exact ⟨_, s₁, hdeps, rfl⟩

theorem generated_eq {e : Endpoint} (h : e ∈ [Endpoint.approveUser, .setPassword]) :
    generated e.docKey = some { description := e.docstring? } := by
  have hall : ∀ e ∈ [Endpoint.approveUser, .setPassword],
      (Endpoint.all.find? fun e' => e'.docKey = e.docKey) = some e := by decide +kernel
  rw [generated, hall e h]
  rfl

/-- The operation of an endpoint of administrators. -/
def forAdmins (e : Endpoint) : DocOperation :=
  DocOperation.annotate { description := e.docstring? } e.route.path (some .admin)

/-- With the key, Park may approve of an account, as its note says, and not set a password, for
which the schema takes no keys; the catalogue lists both under the scope of administrators. -/
theorem documentation_exact_password :
    customOpenapi scopeRequirements generated Endpoint.approveUser.docKey =
      some (forAdmins .approveUser) ∧
    customOpenapi scopeRequirements generated Endpoint.setPassword.docKey =
      some (forAdmins .setPassword) ∧
    (forAdmins .approveUser).TakesKeys ∧ (forAdmins .approveUser).Says (scopeNote .admin) ∧
    Lets byKey .approveUser ∧ Lets bySession .setPassword ∧ ¬ Lets byKey .setPassword ∧
    ∀ e ∈ [Endpoint.approveUser, .setPassword], ∀ entry ∈ scopeCatalog,
      label e.route.method e.route.path ∈ entry.endpoints ↔ entry.scope = .admin := by
  have hmem : Endpoint.approveUser ∈ [Endpoint.approveUser, .setPassword] := by decide
  have hmem' : Endpoint.setPassword ∈ [Endpoint.approveUser, .setPassword] := by decide
  have happrove := customOpenapi_endpoint (admin_scope _ hmem) (generated_eq hmem)
  have hpassword := customOpenapi_endpoint (admin_scope _ hmem') (generated_eq hmem')
  have hopen : isJwtOnly Endpoint.approveUser.route.path = false :=
    Bool.eq_false_iff.mpr (mt (isJwtOnly_iff .approveUser).mp (by decide))
  have hclosed : isJwtOnly Endpoint.setPassword.route.path = true :=
    (isJwtOnly_iff .setPassword).mpr (.inr rfl)
  obtain ⟨-, hdoc⟩ :=
    documentation_exact Office.sec officeWithKey Office.env generated isSome_generated
  obtain ⟨op, hop, hkey, hlisted⟩ := hdoc .approveUser
  obtain rfl := Option.some.inj (hop.symm.trans happrove)
  obtain ⟨op', hop', hkey', hlisted'⟩ := hdoc .setPassword
  obtain rfl := Option.some.inj (hop'.symm.trans hpassword)
  have htakes : (forAdmins .approveUser).TakesKeys := takesKeys_annotate.mpr hopen
  have hsays : (forAdmins .approveUser).Says (scopeNote .admin) :=
    says_scopeNote.mpr ⟨hopen, rfl⟩
  refine ⟨hop, hop', htakes, hsays, ?_, lets_bySession hmem', fun hlets => ?_, ?_⟩
  · refine (hkey byKey _ park _ _ rfl (by decide) parksKey_accepted (by decide)).mpr
      ⟨htakes, fun scope hnote => ?_, lets_bySession hmem⟩
    obtain rfl := Option.some.inj (says_scopeNote.mp hnote).2
    decide
  · have hnever := hkey' byKey _ park _ 1 rfl (by decide) parksKey_accepted (by decide)
    have hfalse := takesKeys_annotate.mp (hnever.mp hlets).1
    rw [hclosed] at hfalse
    cases hfalse
  · simp only [List.forall_mem_cons]
    refine ⟨fun entry hentry => ?_, fun entry hentry => ?_, List.forall_mem_nil _⟩
    · rw [hlisted entry hentry, says_scopeNote]
      simp [hopen, eq_comm]
    · rw [hlisted' entry hentry, says_scopeNote]
      simp [hclosed]

end Biztrip.Http
