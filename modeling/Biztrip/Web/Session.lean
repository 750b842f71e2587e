import Biztrip.Http.App

/-!
# The session of a tab

`src/lib/stores/auth.svelte.ts` and the gate of `routes/+layout.svelte`: who a tab shows, and
what its calls carry. Every `await` lets anything else happen: other calls, other tabs, which
share the stored token, and the back end, which serves whomever it likes. `InStep` is what
holds through all of it, and `session_in_step` what the back end may rely on: a call is taken
for one of the person whom the tab has shown.
-/

namespace Biztrip.Web.Session

open Biztrip.Lib Http Auth

/-! ## The tab -/

/-- What a `fetch` is waiting for. -/
structure Pending (ρ α : Type) where
  request : ρ
  answer : Option α := none

/-- A call of `authRequest`, with the token it carries and whom the tab showed as it was made. -/
structure Sent where
  op : Operation
  token : Option Token
  shown : Option UserOut

/-- `request` sends no header without a token. -/
def headersOf (token : Option Token) : Headers where
  authorization := token.map .bearer

structure AuthStore where
  token : Option Token := none
  user : Option UserOut := none
  loading : Bool := true

/-- A page as it is loaded: the store, the flag of the layout, and what is awaited. -/
structure Tab where
  auth : AuthStore := {}
  mounted : Bool := false
  restored : Bool := false
  restoring : Option (Pending Token (Result UserOut)) := none
  logins : List (Pending LoginRequest (Result LoginResponse)) := []
  calls : List (Pending Sent Answer) := []

/-- The store of the back end, `localStorage`, which knows no empty token, and one of the tabs. -/
structure World where
  db : Store
  stored : Option Token
  tab : Tab

/-- The user in whose name the layout shows a page that is not public. -/
def Tab.shown (tab : Tab) : Option UserOut := if tab.restored then tab.auth.user else none

def World.clear (w : World) : World where
  db := w.db
  stored := none
  tab := { w.tab with auth := { w.tab.auth with token := none, user := none } }

/-- `onMount`: `restore` up to its `await`, or to its end where nothing is stored. -/
def World.mount (w : World) : World :=
  match w.stored with
  | none => { w with tab := { w.tab with
      mounted := true, restored := true, auth := { w.tab.auth with loading := false } } }
  | some stored => { w with tab := { w.tab with
      mounted := true, restoring := some ⟨stored, none⟩
      auth := { w.tab.auth with token := some stored, loading := true } } }

/-- The rest of `restore` and of `onMount`. -/
def World.restore (w : World) (answer : Option (Result UserOut)) : World :=
  let w := match answer with
    | some (.ok user) => { w with tab := { w.tab with auth := { w.tab.auth with user } } }
    | _ => w.clear
  { w with tab := { w.tab with
      restoring := none, restored := true, auth := { w.tab.auth with loading := false } } }

/-- The rest of `login`. -/
def World.login (w : World) (answer : Option (Result LoginResponse)) : World :=
  let w := match answer with
    | some (.ok result) => { w with
        stored := some (.signed result.accessToken)
        tab := { w.tab with auth := { w.tab.auth with
          token := some (.signed result.accessToken), user := some result.user } } }
    | _ => w
  { w with tab := { w.tab with auth := { w.tab.auth with loading := false } } }

/-- `error instanceof ApiError && error.status === 401` -/
def unauthorized : Option Answer → Bool
  | some (.error (.app e)) => e.statusCode = 401
  | _ => false

/-- The rest of `authRequest`. -/
def World.answered (w : World) (answer : Option Answer) : World :=
  if unauthorized answer then w.clear else w

/-! ## What can happen -/

inductive Event where
  | load
  | mount
  | submit (payload : LoginRequest)
  | call (op : Operation)
  | signOut
  | serveMe (env : Env)
  | serveLogin (k : Nat) (env : Env)
  | serveCall (k : Nat) (env : Env)
  /-- An answer arrives, or gets `lost`, as it is where it has not been given yet. -/
  | restored (lost : Bool)
  | loggedIn (k : Nat) (lost : Bool)
  | answered (k : Nat) (lost : Bool)
  /-- Whatever else the back end does. -/
  | meanwhile (db : Store)
  /-- Whatever other tabs do to the stored token. -/
  | elsewhere (stored : Option Token)

/-- `GET /auth/me` -/
def serveMe (sec : Security) (s : Store) (env : Env) (token : Token) : Result UserOut := do
  let (principal, s') ← authenticate sec s env (headersOf (some token))
  me s' principal.user

def Pending.arrived {ρ α : Type} (p : Pending ρ α) (lost : Bool) : Option α :=
  if lost then none else p.answer

/-- Before the session is restored nothing is rendered. Only who is shown can sign out. -/
def World.next (sec : Security) (w : World) : Event → World
  | .load => { w with tab := {} }
  | .mount => if w.tab.mounted then w else w.mount
  | .submit payload =>
    if w.tab.restored then { w with tab := { w.tab with
      logins := w.tab.logins ++ [⟨payload, none⟩], auth := { w.tab.auth with loading := true } } }
    else w
  | .call op =>
    if w.tab.restored then { w with tab := { w.tab with
      calls := w.tab.calls ++ [⟨⟨op, w.tab.auth.token, w.tab.shown⟩, none⟩] } }
    else w
  | .signOut => if w.tab.shown.isSome then w.clear else w
  | .serveMe env =>
    match w.tab.restoring with
    | some ⟨token, none⟩ =>
      { w with tab := { w.tab with restoring := some ⟨token, serveMe sec w.db env token⟩ } }
    | _ => w
  | .serveLogin k env =>
    match w.tab.logins[k]? with
    | some ⟨payload, none⟩ => { w with tab := { w.tab with
        logins := w.tab.logins.set k ⟨payload, Auth.login sec w.db env payload⟩ } }
    | _ => w
  | .serveCall k env =>
    match w.tab.calls[k]? with
    | some ⟨sent, none⟩ =>
      let (answer, db) := sent.op.serve sec w.db env (headersOf sent.token)
      { w with db, tab := { w.tab with calls := w.tab.calls.set k ⟨sent, some answer⟩ } }
    | _ => w
  | .restored lost =>
    match w.tab.restoring with
    | some p => w.restore (p.arrived lost)
    | none => w
  | .loggedIn k lost =>
    match w.tab.logins[k]? with
    | some p => World.login
        { w with tab := { w.tab with logins := w.tab.logins.eraseIdx k } } (p.arrived lost)
    | none => w
  | .answered k lost =>
    match w.tab.calls[k]? with
    | some p => World.answered
        { w with tab := { w.tab with calls := w.tab.calls.eraseIdx k } } (p.arrived lost)
    | none => w
  | .meanwhile db => { w with db }
  | .elsewhere stored => { w with stored }

def World.exec (sec : Security) (w : World) (evs : List Event) : World :=
  evs.foldl (World.next sec) w

/-- A tab that is opened, whatever is stored. -/
def World.opened (db : Store) (stored : Option Token) : World := ⟨db, stored, {}⟩

/-! ## What the back end answers -/

/-- Nobody without a token, or the user whom the token names. -/
inductive Names : Option Token → Option UserOut → Prop
  | nobody : Names none none
  | user {token : AccessToken} {user : UserOut} (h : token.sub = user.id) :
      Names (some (.signed token)) (some user)

theorem toUserOut_id {s : Store} {id : Int} {user : User} {out : UserOut}
    (h : toUserOut s id user = .ok out) : out.id = id := by
  obtain ⟨employeeNo, -, h⟩ := bind_eq_ok.mp h
  obtain ⟨positionCode, -, h⟩ := bind_eq_ok.mp h
  rw [pure_eq_ok, Except.ok.injEq] at h
  rw [← h]

/-- Whom a token is taken for, whenever it is. -/
theorem sub_of_authenticate {sec : Security} {s s' : Store} {env : Env} {token : Option Token}
    {principal : Principal}
    (h : authenticate sec s env (headersOf token) = .ok (principal, s')) :
    ∃ payload, token = some (.signed payload) ∧ payload.sub = principal.user.id := by
  obtain ⟨user, huser, h⟩ := bind_eq_ok.mp h
  rw [pure_eq_ok, Except.ok.injEq, Prod.mk.injEq] at h
  obtain ⟨rfl, -⟩ := h
  cases token with
  | none => cases huser
  | some token =>
    obtain ⟨userId, hdecode, huser⟩ := bind_eq_ok.mp huser
    obtain ⟨found, -, huser⟩ := bind_eq_ok.mp huser
    rw [pure_eq_ok, Except.ok.injEq] at huser
    subst huser
    cases token with
    | foreign => cases hdecode
    | signed payload =>
      obtain ⟨-, -, hdecode⟩ := bind_eq_ok.mp hdecode
      rw [pure_eq_ok, Except.ok.injEq] at hdecode
      exact ⟨payload, rfl, hdecode⟩

theorem names_of_serveMe {sec : Security} {s : Store} {env : Env} {token : Token} {user : UserOut}
    (h : serveMe sec s env token = .ok user) : Names (some token) (some user) := by
  obtain ⟨⟨principal, s'⟩, hauth, h⟩ := bind_eq_ok.mp h
  obtain ⟨payload, htoken, hsub⟩ := sub_of_authenticate hauth
  rw [htoken]
  exact .user (hsub.trans (toUserOut_id h).symm)

theorem names_of_login {sec : Security} {s : Store} {env : Env} {payload : LoginRequest}
    {result : LoginResponse} (h : Auth.login sec s env payload = .ok result) :
    Names (some (.signed result.accessToken)) (some result.user) := by
  obtain ⟨found, -, h⟩ := bind_eq_ok.mp h
  obtain ⟨-, -, h⟩ := bind_eq_ok.mp h
  obtain ⟨-, -, h⟩ := bind_eq_ok.mp h
  obtain ⟨user, huser, h⟩ := bind_eq_ok.mp h
  rw [pure_eq_ok, Except.ok.injEq] at h
  rw [← h]
  exact .user (toUserOut_id huser).symm

/-! ## The invariant -/

/-- The tab shows whom its token names, and so did it when it made its calls. What it waits for
will keep it so. -/
structure InStep (tab : Tab) : Prop where
  fresh : tab.mounted = false →
    tab.auth.token = none ∧ tab.restored = false ∧ tab.restoring = none
  hidden : tab.restored = false → tab.auth.user = none ∧ tab.logins = [] ∧ tab.calls = []
  names : tab.restored = true → Names tab.auth.token tab.auth.user
  restoring : ∀ p ∈ tab.restoring, tab.restored = false ∧ tab.auth.token = some p.request ∧
    ∀ user, p.answer = some (.ok user) → Names (some p.request) (some user)
  logins : ∀ p ∈ tab.logins, ∀ result, p.answer = some (.ok result) →
    Names (some (.signed result.accessToken)) (some result.user)
  calls : ∀ p ∈ tab.calls, Names p.request.token p.request.shown

theorem inStep_new : InStep {} where
  fresh _ := ⟨rfl, rfl, rfl⟩
  hidden _ := ⟨rfl, rfl, rfl⟩
  names h := by cases h
  restoring p h := by cases h
  logins p h := by cases h
  calls p h := by cases h

theorem arrived_eq_some {ρ α : Type} {p : Pending ρ α} {lost : Bool} {a : α}
    (h : p.arrived lost = some a) : p.answer = some a := by
  unfold Pending.arrived at h
  split at h
  · cases h
  · exact h

section
variable {w : World}

theorem InStep.shown (h : InStep w.tab) : w.tab.shown = w.tab.auth.user := by
  unfold Tab.shown
  split
  · rfl
  · next hrestored => exact (h.hidden (Bool.eq_false_iff.mpr hrestored)).1.symm

theorem InStep.mounted (h : InStep w.tab) (hrestored : w.tab.restored = true) :
    w.tab.mounted = true := by
  by_contra hnot
  have hfalse := (h.fresh (Bool.eq_false_iff.mpr hnot)).2.1
  exact absurd (hrestored.symm.trans hfalse) (by decide)

theorem InStep.clear (h : InStep w.tab) (hrestored : w.tab.restored = true) :
    InStep w.clear.tab where
  fresh hfalse := absurd ((h.mounted hrestored).symm.trans hfalse) (by decide)
  hidden hfalse := absurd (hrestored.symm.trans hfalse) (by decide)
  names _ := .nobody
  restoring p hp := absurd (hrestored.symm.trans (h.restoring p hp).1) (by decide)
  logins := h.logins
  calls := h.calls

theorem InStep.mount (h : InStep w.tab) (hmounted : w.tab.mounted = false) :
    InStep w.mount.tab := by
  obtain ⟨htoken, hrestored, hrestoring⟩ := h.fresh hmounted
  obtain ⟨huser, hlogins, hcalls⟩ := h.hidden hrestored
  unfold World.mount
  split
  · exact {
      fresh := nofun
      hidden := nofun
      names := fun _ => by
        show Names w.tab.auth.token w.tab.auth.user
        rw [htoken, huser]
        exact .nobody
      restoring := fun p hp => by
        rw [show p ∈ w.tab.restoring ↔ _ from Iff.rfl, hrestoring] at hp
        cases hp
      logins := h.logins
      calls := h.calls }
  · next stored _ =>
    exact {
      fresh := nofun
      hidden := fun _ => ⟨huser, hlogins, hcalls⟩
      names := fun hr => absurd (hrestored.symm.trans hr) (by decide)
      restoring := fun p hp => by
        cases hp
        exact ⟨hrestored, rfl, nofun⟩
      logins := h.logins
      calls := h.calls }

theorem InStep.restore (h : InStep w.tab) {p : Pending Token (Result UserOut)}
    (hp : w.tab.restoring = some p) {answer : Option (Result UserOut)}
    (hanswer : ∀ user, answer = some (.ok user) → p.answer = some (.ok user)) :
    InStep (w.restore answer).tab := by
  obtain ⟨hrestored, htoken, hnames⟩ := h.restoring p hp
  obtain ⟨-, hlogins, hcalls⟩ := h.hidden hrestored
  have hmounted : w.tab.mounted = true := by
    by_contra hnot
    rw [(h.fresh (Bool.eq_false_iff.mpr hnot)).2.2] at hp
    cases hp
  unfold World.restore
  split
  · next user =>
    exact {
      fresh := fun hfalse => absurd (hmounted.symm.trans hfalse) (by decide)
      hidden := nofun
      names := fun _ => by
        show Names w.tab.auth.token (some user)
        rw [htoken]
        exact hnames user (hanswer user rfl)
      restoring := fun p hp => by cases hp
      logins := h.logins
      calls := h.calls }
  · exact {
      fresh := fun hfalse => absurd (hmounted.symm.trans hfalse) (by decide)
      hidden := nofun
      names := fun _ => .nobody
      restoring := fun p hp => by cases hp
      logins := h.logins
      calls := h.calls }

theorem InStep.login (h : InStep w.tab) (hrestored : w.tab.restored = true)
    {answer : Option (Result LoginResponse)}
    (hanswer : ∀ result, answer = some (.ok result) →
      Names (some (.signed result.accessToken)) (some result.user)) :
    InStep (w.login answer).tab := by
  have hmounted := h.mounted hrestored
  unfold World.login
  split
  · next result =>
    exact {
      fresh := fun hfalse => absurd (hmounted.symm.trans hfalse) (by decide)
      hidden := fun hfalse => absurd (hrestored.symm.trans hfalse) (by decide)
      names := fun _ => hanswer result rfl
      restoring := fun p hp => absurd (hrestored.symm.trans (h.restoring p hp).1) (by decide)
      logins := h.logins
      calls := h.calls }
  · exact { h with }

theorem InStep.answered (h : InStep w.tab) (hrestored : w.tab.restored = true)
    (answer : Option Answer) : InStep (w.answered answer).tab := by
  unfold World.answered
  split
  · exact h.clear hrestored
  · exact h

/-- What is awaited comes off the list as it is gone on with. -/
theorem InStep.eraseLogin (h : InStep w.tab) (k : Nat) :
    InStep { w.tab with logins := w.tab.logins.eraseIdx k } := by
  refine { h with hidden := fun hr => ?_, logins := fun p hp => ?_ }
  · obtain ⟨huser, hlogins, hcalls⟩ := h.hidden hr
    exact ⟨huser, by rw [hlogins]; rfl, hcalls⟩
  · exact h.logins p (List.mem_of_mem_eraseIdx hp)

theorem InStep.eraseCall (h : InStep w.tab) (k : Nat) :
    InStep { w.tab with calls := w.tab.calls.eraseIdx k } := by
  refine { h with hidden := fun hr => ?_, calls := fun p hp => ?_ }
  · obtain ⟨huser, hlogins, hcalls⟩ := h.hidden hr
    exact ⟨huser, hlogins, by rw [hcalls]; rfl⟩
  · exact h.calls p (List.mem_of_mem_eraseIdx hp)

/-- A page waits for a login or a call only once the session is restored. -/
theorem InStep.restored_of_login (h : InStep w.tab) {k : Nat}
    {p : Pending LoginRequest (Result LoginResponse)} (hp : w.tab.logins[k]? = some p) :
    w.tab.restored = true := by
  by_contra hnot
  rw [(h.hidden (Bool.eq_false_iff.mpr hnot)).2.1] at hp
  cases hp

theorem InStep.restored_of_call (h : InStep w.tab) {k : Nat} {p : Pending Sent Answer}
    (hp : w.tab.calls[k]? = some p) : w.tab.restored = true := by
  by_contra hnot
  rw [(h.hidden (Bool.eq_false_iff.mpr hnot)).2.2] at hp
  cases hp

theorem InStep.submit (h : InStep w.tab) (hrestored : w.tab.restored = true)
    (payload : LoginRequest) :
    InStep { w.tab with
      logins := w.tab.logins ++ [⟨payload, none⟩]
      auth := { w.tab.auth with loading := true } } where
  fresh hfalse := absurd ((h.mounted hrestored).symm.trans hfalse) (by decide)
  hidden hfalse := absurd (hrestored.symm.trans hfalse) (by decide)
  names := h.names
  restoring := h.restoring
  logins p hp := by
    rcases List.mem_append.mp hp with hp | hp
    · exact h.logins p hp
    · rw [List.mem_singleton.mp hp]
      exact nofun
  calls := h.calls

theorem InStep.call (h : InStep w.tab) (hrestored : w.tab.restored = true) (op : Operation) :
    InStep { w.tab with
      calls := w.tab.calls ++ [⟨⟨op, w.tab.auth.token, w.tab.shown⟩, none⟩] } where
  fresh hfalse := absurd ((h.mounted hrestored).symm.trans hfalse) (by decide)
  hidden hfalse := absurd (hrestored.symm.trans hfalse) (by decide)
  names := h.names
  restoring := h.restoring
  logins := h.logins
  calls p hp := by
    rcases List.mem_append.mp hp with hp | hp
    · exact h.calls p hp
    · rw [List.mem_singleton.mp hp, h.shown]
      exact h.names hrestored

theorem InStep.serveMe (h : InStep w.tab) (sec : Security) (env : Env) :
    InStep (w.next sec (.serveMe env)).tab := by
  rw [World.next]
  split
  · next token hp =>
    obtain ⟨hrestored, htoken, -⟩ := h.restoring _ hp
    refine { h with fresh := fun hr => ?_, restoring := fun p hp' => ?_ }
    · obtain ⟨-, -, hnone⟩ := h.fresh hr
      exact absurd (hp.symm.trans hnone) nofun
    · cases hp'
      exact ⟨hrestored, htoken, fun user huser => names_of_serveMe (Option.some.inj huser)⟩
  · exact h

theorem InStep.serveLogin (h : InStep w.tab) (sec : Security) (k : Nat) (env : Env) :
    InStep (w.next sec (.serveLogin k env)).tab := by
  rw [World.next]
  split
  · next payload hp =>
    have hrestored := h.restored_of_login hp
    refine { h with hidden := fun hr => ?_, logins := fun p hp' result hresult => ?_ }
    · exact absurd (hrestored.symm.trans hr) (by decide)
    · rcases List.mem_or_eq_of_mem_set hp' with hp' | rfl
      · exact h.logins p hp' result hresult
      · exact names_of_login (Option.some.inj hresult)
  · exact h

theorem InStep.serveCall (h : InStep w.tab) (sec : Security) (k : Nat) (env : Env) :
    InStep (w.next sec (.serveCall k env)).tab := by
  rw [World.next]
  split
  · next sent hp =>
    have hrestored := h.restored_of_call hp
    refine { h with hidden := fun hr => ?_, calls := fun p hp' => ?_ }
    · exact absurd (hrestored.symm.trans hr) (by decide)
    · rcases List.mem_or_eq_of_mem_set hp' with hp' | rfl
      · exact h.calls p hp'
      · exact h.calls ⟨sent, none⟩ (List.mem_of_getElem? hp)
  · exact h

theorem InStep.next (h : InStep w.tab) (sec : Security) (e : Event) :
    InStep (w.next sec e).tab := by
  cases e with
  | load => exact inStep_new
  | mount =>
    rw [World.next]
    split
    · exact h
    · next hmounted => exact h.mount (Bool.eq_false_iff.mpr hmounted)
  | submit payload =>
    rw [World.next]
    split
    · next hrestored => exact h.submit hrestored payload
    · exact h
  | call op =>
    rw [World.next]
    split
    · next hrestored => exact h.call hrestored op
    · exact h
  | signOut =>
    rw [World.next]
    split
    · next hsome =>
      refine h.clear ?_
      by_contra hnot
      rw [Tab.shown, if_neg hnot] at hsome
      cases hsome
    · exact h
  | serveMe env => exact h.serveMe sec env
  | serveLogin k env => exact h.serveLogin sec k env
  | serveCall k env => exact h.serveCall sec k env
  | restored lost =>
    rw [World.next]
    split
    · next p hp => exact h.restore hp fun user => arrived_eq_some
    · exact h
  | loggedIn k lost =>
    rw [World.next]
    split
    · next p hp =>
      refine InStep.login (w := ⟨_, _, _⟩) (h.eraseLogin k) (h.restored_of_login hp) ?_
      exact fun result hresult =>
        h.logins p (List.mem_of_getElem? hp) result (arrived_eq_some hresult)
    · exact h
  | answered k lost =>
    rw [World.next]
    split
    · next p hp => exact InStep.answered (w := ⟨_, _, _⟩) (h.eraseCall k) (h.restored_of_call hp) _
    · exact h
  | meanwhile db => exact h
  | elsewhere stored => exact h

/-- No other tab touches the stored token. -/
def Event.Own : Event → Prop
  | .elsewhere _ => False
  | _ => True

/-- What is stored is what the tab uses. -/
def Mirrored (w : World) : Prop := w.tab.mounted = true → w.stored = w.tab.auth.token

theorem mirrored_restore (h : Mirrored w) (answer : Option (Result UserOut)) :
    Mirrored (w.restore answer) := by
  unfold World.restore
  split
  · exact h
  · exact fun _ => rfl

theorem mirrored_login (h : Mirrored w) (answer : Option (Result LoginResponse)) :
    Mirrored (w.login answer) := by
  unfold World.login
  split
  · exact fun _ => rfl
  · exact h

theorem mirrored_answered (h : Mirrored w) (answer : Option Answer) :
    Mirrored (w.answered answer) := by
  unfold World.answered
  split
  · exact fun _ => rfl
  · exact h

theorem mirrored_mount (h : InStep w.tab) (hmounted : w.tab.mounted = false) :
    Mirrored w.mount := by
  unfold World.mount
  split
  · next hstored => exact fun _ => hstored.trans (h.fresh hmounted).1.symm
  · next hstored => exact fun _ => hstored

theorem mirrored_next (h : Mirrored w) (hstep : InStep w.tab) (sec : Security) {e : Event}
    (he : e.Own) : Mirrored (w.next sec e) := by
  cases e with
  | load => exact nofun
  | mount =>
    rw [World.next]
    split
    · exact h
    · next hmounted => exact mirrored_mount hstep (Bool.eq_false_iff.mpr hmounted)
  | submit payload =>
    rw [World.next]
    split <;> exact h
  | call op =>
    rw [World.next]
    split <;> exact h
  | signOut =>
    rw [World.next]
    split
    · exact fun _ => rfl
    · exact h
  | serveMe env =>
    rw [World.next]
    split <;> exact h
  | serveLogin k env =>
    rw [World.next]
    split <;> exact h
  | serveCall k env =>
    rw [World.next]
    split <;> exact h
  | restored lost =>
    rw [World.next]
    split
    · exact mirrored_restore h _
    · exact h
  | loggedIn k lost =>
    rw [World.next]
    split
    · exact mirrored_login (by exact h) _
    · exact h
  | answered k lost =>
    rw [World.next]
    split
    · exact mirrored_answered (by exact h) _
    · exact h
  | meanwhile db => exact h
  | elsewhere stored => exact he.elim

theorem InStep.exec (sec : Security) :
    ∀ {evs : List Event} {w : World}, InStep w.tab → InStep (w.exec sec evs).tab := by
  intro evs
  induction evs with
  | nil => exact id
  | cons e evs ih => exact fun h => ih (h.next sec e)

theorem mirrored_exec (sec : Security) :
    ∀ {evs : List Event} {w : World}, InStep w.tab → Mirrored w → (∀ e ∈ evs, e.Own) →
      Mirrored (w.exec sec evs) := by
  intro evs
  induction evs with
  | nil => exact fun _ h _ => h
  | cons e evs ih =>
    intro w hstep h hown
    refine ih (hstep.next sec e) (mirrored_next h hstep sec (hown e List.mem_cons_self)) ?_
    exact fun e' he' => hown e' (List.mem_cons_of_mem _ he')

end

/-- Whatever happens: a tab that shows a user holds a token of that user; a call is taken, whenever
it is served, for one of the user whom the tab showed as it was made, or refused; and without
other tabs a reload starts from the token in use. -/
theorem session_in_step (sec : Security) (db : Store) (stored : Option Token) (evs : List Event) :
    let w := (World.opened db stored).exec sec evs
    (∀ user, w.tab.shown = some user →
        ∃ payload, w.tab.auth.token = some (.signed payload) ∧ payload.sub = user.id) ∧
      (∀ call ∈ w.tab.calls, ∀ s env principal s',
        authenticate sec s env (headersOf call.request.token) = .ok (principal, s') →
          ∃ user, call.request.shown = some user ∧ user.id = principal.user.id) ∧
      ((∀ e ∈ evs, e.Own) → w.tab.mounted = true → w.stored = w.tab.auth.token) := by
  intro w
  have hstep : InStep w.tab := inStep_new.exec sec
  refine ⟨fun user huser => ?_, fun call hcall s env principal s' hauth => ?_, ?_⟩
  · obtain ⟨hrestored, huser⟩ : w.tab.restored = true ∧ w.tab.auth.user = some user := by
      unfold Tab.shown at huser
      split at huser
      · next hrestored => exact ⟨hrestored, huser⟩
      · cases huser
    have hnames := hstep.names hrestored
    rw [huser] at hnames
    generalize w.tab.auth.token = token at hnames
    cases hnames with
    | user hsub => exact ⟨_, rfl, hsub⟩
  · obtain ⟨payload, htoken, hsub⟩ := sub_of_authenticate hauth
    have hnames := hstep.calls call hcall
    rw [htoken] at hnames
    generalize call.request.shown = shown at hnames
    cases hnames with
    | user hsame => exact ⟨_, rfl, hsame.symm.trans hsub⟩
  · exact mirrored_exec sec inStep_new nofun

end Biztrip.Web.Session
