import Mathlib.Data.List.Dedup
import Biztrip.Desk.Effect
import Biztrip.Frame

/-!
# The life of an API key

Keys are issued, used and revoked, and they expire. The cap on active keys is a query of
`createKey`, while the uses of a key go by `keyState`; the two agree at every moment
(`activeKeys_eq`), and a key that has ceased to be active never becomes active again
(`Later`). `KeyBook` is what holds of the keys after any run.
-/

namespace Biztrip.Accounts

open Biztrip.Lib ApiKeys

/-! ## Runs -/

/-- A request of the system, or the use of a key, which `get_principal` commits. -/
inductive KeyEvent where
  | request (req : Request Call)
  | authenticate (env : Env) (raw : String)

namespace KeyEvent

def env : KeyEvent → Env
  | .request req => req.env
  | .authenticate env _ => env

/-- The key in the clear that a `create_key` draws. -/
def drawn : KeyEvent → Option String
  | .request ⟨env, .personal _ (.createKey _)⟩ => some (generateKey env)
  | _ => none

def step (sec : Security) (s : Store) : KeyEvent → Result Store
  | .request req => (system sec).step s req
  | .authenticate env raw => do
    let (_, _, plan) ← authenticateKey sec s env raw
    plan.commit s

end KeyEvent

/-- The clock never goes back. -/
def InOrder (events : List KeyEvent) : Prop := events.Pairwise fun a b => a.env.now ≤ b.env.now

instance (events : List KeyEvent) : Decidable (InOrder events) :=
  inferInstanceAs (Decidable (events.Pairwise _))

/-- No key that has been drawn has the digest of `raw`, except `raw` itself. -/
def CollisionFree (sec : Security) (raw : String) (events : List KeyEvent) : Prop :=
  ∀ e ∈ events, ∀ k, e.drawn = some k → sec.hashKey raw = sec.hashKey k → raw = k

/-! ## Active keys -/

/-- The keys of a user that are active at a moment. -/
def activeAt (s : Store) (userId : Int) (now : Instant) : List (Int × ApiKey) :=
  s.apiKeys.rows.filter fun p =>
    p.2.userId = userId && decide (keyState p.2.revokedAt p.2.expiresAt now = .active)

theorem keyState_eq_active {revokedAt expiresAt : Option Instant} {now : Instant} :
    keyState revokedAt expiresAt now = .active ↔
      revokedAt = none ∧ ∀ t, expiresAt = some t → now < t := by
  cases revokedAt <;> cases expiresAt <;> simp [keyState]

/-- The query of the cap and the state of a key agree on what an active key is. -/
theorem activeKeys_eq (s : Store) (userId : Int) (now : Instant) :
    activeKeys s userId now = activeAt s userId now := by
  unfold activeKeys activeAt
  refine List.filter_congr fun p _ => ?_
  have hstate : (p.2.revokedAt.isNone && p.2.expiresAt.all fun t => decide (now < t)) =
      decide (keyState p.2.revokedAt p.2.expiresAt now = .active) := by
    rw [Bool.eq_iff_iff, Bool.and_eq_true, decide_eq_true_eq, keyState_eq_active]
    cases p.2.revokedAt <;> cases p.2.expiresAt <;> simp
  rw [Bool.and_assoc, hstate]

/-- With time, keys only cease to be active. -/
theorem length_activeAt_le {s : Store} {userId : Int} {now now' : Instant} (h : now ≤ now') :
    (activeAt s userId now').length ≤ (activeAt s userId now).length := by
  unfold activeAt
  refine (List.monotone_filter_right _ fun p hp => ?_).length_le
  simp only [Bool.and_eq_true, decide_eq_true_eq, keyState_eq_active] at hp ⊢
  exact ⟨hp.1, hp.2.1, fun t ht => lt_of_le_of_lt h (hp.2.2 t ht)⟩

/-! ## What a step does to the keys -/

/-- `key'` is `key` after a while: it may have been used or revoked. -/
structure Later (key key' : ApiKey) : Prop where
  userId : key'.userId = key.userId
  keyHash : key'.keyHash = key.keyHash
  scopes : key'.scopes = key.scopes
  expiresAt : key'.expiresAt = key.expiresAt
  revoked : key'.revokedAt = none → key.revokedAt = none

theorem Later.refl (key : ApiKey) : Later key key := ⟨rfl, rfl, rfl, rfl, id⟩

theorem Later.trans {a b c : ApiKey} (h : Later a b) (h' : Later b c) : Later a c :=
  ⟨h'.userId.trans h.userId, h'.keyHash.trans h.keyHash, h'.scopes.trans h.scopes,
    h'.expiresAt.trans h.expiresAt, fun hc => h.revoked (h'.revoked hc)⟩

theorem Later.active {key key' : ApiKey} {now now' : Instant} (h : Later key key')
    (hnow : now ≤ now') (hactive : keyState key'.revokedAt key'.expiresAt now' = .active) :
    keyState key.revokedAt key.expiresAt now = .active := by
  rw [keyState_eq_active] at hactive ⊢
  obtain ⟨hrevoked, hexpires⟩ := hactive
  refine ⟨h.revoked hrevoked, fun t ht => lt_of_le_of_lt hnow (hexpires t ?_)⟩
  rw [h.expiresAt, ht]

/-- Some of the scopes, in the order of their declaration. -/
def DeclaredScopes (scopes : List String) : Prop :=
  scopes ≠ [] ∧ scopes.Nodup ∧ scopes.Sublist (ApiKeyScope.all.map ApiKeyScope.value)

theorem declared_of_validate {requested scopes : List String}
    (h : validateScopes requested = .ok scopes) : DeclaredScopes scopes := by
  obtain ⟨_, hsome, h⟩ := bind_eq_ok.mp h
  obtain ⟨_, hknown, h⟩ := bind_eq_ok.mp h
  obtain rfl := Except.ok.inj h
  have hsub : ((ApiKeyScope.all.map ApiKeyScope.value).filter fun scope =>
      scope ∈ requested).Sublist (ApiKeyScope.all.map ApiKeyScope.value) := List.filter_sublist
  refine ⟨fun hnil => ?_, (by decide : (ApiKeyScope.all.map ApiKeyScope.value).Nodup).sublist hsub,
    hsub⟩
  -- whatever is requested is declared, and something is requested
  obtain ⟨scope, hmem⟩ := List.exists_mem_of_ne_nil _ (guardE_eq_ok.mp hsome)
  have hall := guardE_eq_ok.mp hknown
  unfold sortedSet at hall
  have hscope : scope ∈ ApiKeyScope.all.map ApiKeyScope.value := by
    by_contra hunknown
    have hin : scope ∈ ((requested.filter fun scope =>
        decide (scope ∉ ApiKeyScope.all.map ApiKeyScope.value)).dedup.insertionSort (· ≤ ·)) := by
      rw [List.mem_insertionSort, List.mem_dedup, List.mem_filter]
      exact ⟨hmem, decide_eq_true hunknown⟩
    rw [hall] at hin
    exact List.not_mem_nil hin
  have hin : scope ∈ (ApiKeyScope.all.map ApiKeyScope.value).filter fun scope =>
      scope ∈ requested := List.mem_filter.mpr ⟨hscope, decide_eq_true hmem⟩
  rw [hnil] at hin
  exact List.not_mem_nil hin

abbrev Prefixed (raw : String) : Prop := raw.toList.take keyHead.toList.length = keyHead.toList

theorem prefixed_generateKey (env : Env) : Prefixed (generateKey env) := by
  unfold Prefixed generateKey
  rw [String.toList_append, List.take_left]

/-- What a step leaves of the table of keys. -/
inductive KeyChange (sec : Security) (s : Store) (e : KeyEvent) : Table ApiKey → Prop
  | kept : KeyChange sec s e s.apiKeys
  | issued {raw : String} {key : ApiKey} (drawn : e.drawn = some raw) (headed : Prefixed raw)
      (keyHash : key.keyHash = sec.hashKey raw) (scopes : DeclaredScopes key.scopes)
      (room : (activeKeys s key.userId e.env.now).length < maxActiveKeys)
      (fresh : ∀ k key', s.apiKeys.get k = some key' → key'.keyHash ≠ key.keyHash) :
      KeyChange sec s e (s.apiKeys.insert key)
  | rewritten {k : Int} {f : ApiKey → ApiKey}
      (later : ∀ key, s.apiKeys.get k = some key → Later key (f key)) :
      KeyChange sec s e (s.apiKeys.update k f)

variable {sec : Security} {s s' : Store} {env : Env} {e : KeyEvent} {now : Instant}

theorem keys_of_flush {w : RowWrite ApiKey}
    (h : [Write.apiKey w].foldlM (Store.flush now) s = .ok s') :
    s.check (.apiKey w) = .ok () ∧ w.apply now Fault.staleData s.apiKeys = .ok s'.apiKeys := by
  rw [List.foldlM_cons] at h
  obtain ⟨s₁, hflush, h⟩ := bind_eq_ok.mp h
  rw [List.foldlM_nil, pure_eq_ok, Except.ok.injEq] at h
  subst h
  obtain ⟨_, hcheck, hflush⟩ := bind_eq_ok.mp hflush
  obtain ⟨t, happly, hflush⟩ := bind_eq_ok.mp hflush
  rw [pure_eq_ok, Except.ok.injEq] at hflush
  subst hflush
  exact ⟨hcheck, happly⟩

/-- A statement that writes a loaded key back leaves it later. -/
theorem KeyChange.of_update {k : Int} {key key' : ApiKey} (hget : s.apiKeys.get k = some key)
    (hlater : Later key key')
    (h : [Write.apiKey (.update k key key')].foldlM (Store.flush now) s = .ok s') :
    KeyChange sec s e s'.apiKeys := by
  obtain ⟨f, at₀, happly, hf⟩ : ∃ f at₀, (RowWrite.update k key key').apply now Fault.staleData
      s.apiKeys = .ok (s.apiKeys.update k f) ∧ f key = stamp at₀ key' :=
    RowWrite.apply_update_loaded hget
  rw [(keys_of_flush h).2, Except.ok.injEq] at happly
  rw [happly]
  refine .rewritten fun cur hcur => ?_
  rw [hget, Option.some.injEq] at hcur
  rw [← hcur, hf]
  exact hlater

theorem keyChange_of_personal {userId : Int} {user : CurrentUser} {call : PersonalCall} {p : Plan}
    (hplan : call.plan sec s env user = .ok p)
    (hc : p.writes.foldlM (Store.flush p.now) s = .ok s') :
    KeyChange sec s (.request ⟨env, .personal userId call⟩) s'.apiKeys := by
  cases call with
  | createKey payload =>
    obtain ⟨⟨raw, p'⟩, hkey, hplan⟩ := bind_eq_ok.mp hplan
    obtain ⟨scopes, hscopes, hkey⟩ := bind_eq_ok.mp hkey
    obtain ⟨_, hroom, hkey⟩ := bind_eq_ok.mp hkey
    obtain ⟨_, -, hkey⟩ := bind_eq_ok.mp hkey
    rw [pure_eq_ok, Except.ok.injEq, Prod.mk.injEq] at hkey
    obtain ⟨-, rfl⟩ := hkey
    have hplan : Except.ok _ = Except.ok p := hplan
    obtain rfl := Except.ok.inj hplan
    obtain ⟨hcheck, happly⟩ := keys_of_flush hc
    rw [RowWrite.apply_insert, Except.ok.injEq] at happly
    rw [← happly]
    exact .issued rfl (prefixed_generateKey env) rfl (declared_of_validate hscopes)
      (guardE_eq_ok.mp hroom) fun _ _ hk => Desk.not_referenced (guardE_eq_ok.mp hcheck) hk
  | revokeKey keyId =>
    obtain ⟨o, hget, hplan⟩ := bind_eq_ok.mp hplan
    obtain ⟨key, hown, hplan⟩ := bind_eq_ok.mp hplan
    obtain ⟨_, -, hplan⟩ := bind_eq_ok.mp hplan
    rw [pure_eq_ok, Except.ok.injEq] at hplan
    subst hplan
    obtain ⟨rfl, -⟩ := Option.filter_eq_some_iff.mp (getE_eq_ok.mp hown)
    have hlater : Later key { key with revokedAt := some env.now } :=
      ⟨rfl, rfl, rfl, rfl, fun hnone => nomatch hnone⟩
    exact .of_update (sessionGet_eq_ok.mp hget).2 hlater hc
  | markRead notificationId =>
    obtain ⟨o, -, hplan⟩ := bind_eq_ok.mp hplan
    obtain ⟨n, -, hplan⟩ := bind_eq_ok.mp hplan
    rw [pure_eq_ok, Except.ok.injEq] at hplan
    subst hplan
    have hkeys : s'.apiKeys = s.apiKeys := sameKeys_of_flushes (fun w hw => by
      rw [List.mem_singleton.mp hw]
      exact Area.noConfusion) hc
    rw [hkeys]
    exact .kept

theorem keyChange_of_use {user : CurrentUser} {scopes : List String} {raw : String} {p : Plan}
    (h : authenticateKey sec s env raw = .ok (user, scopes, p)) (hcommit : p.commit s = .ok s') :
    KeyChange sec s e s'.apiKeys := by
  obtain ⟨_, -, h⟩ := bind_eq_ok.mp h
  obtain ⟨⟨k, key⟩, hfind, h⟩ := bind_eq_ok.mp h
  obtain ⟨_, -, h⟩ := bind_eq_ok.mp h
  obtain ⟨_, -, h⟩ := bind_eq_ok.mp h
  obtain ⟨u, -, h⟩ := bind_eq_ok.mp h
  simp only [pure_eq_ok, Except.ok.injEq, Prod.mk.injEq] at h
  obtain ⟨-, -, rfl⟩ := h
  have hget : s.apiKeys.get k = some key :=
    Table.mem_rows.mp (List.mem_of_find?_eq_some (getE_eq_ok.mp hfind))
  have hlater : Later key { key with lastUsedAt := some env.now } := ⟨rfl, rfl, rfl, rfl, id⟩
  exact .of_update hget hlater (Plan.commit_eq_ok.mp hcommit)

theorem keyChange_of_step (h : e.step sec s = .ok s') : KeyChange sec s e s'.apiKeys := by
  cases e with
  | authenticate env raw =>
    obtain ⟨⟨user, scopes, p⟩, huse, hcommit⟩ := bind_eq_ok.mp h
    exact keyChange_of_use huse hcommit
  | request req =>
    obtain ⟨p, hplan, hcommit⟩ := bind_eq_ok.mp h
    have hc := Plan.commit_eq_ok.mp hcommit
    rcases req with ⟨env, call⟩
    have hareas := call.plan_areas p hplan
    cases call with
    | personal userId call =>
      obtain ⟨user, -, hplan⟩ := bind_eq_ok.mp hplan
      exact keyChange_of_personal hplan hc
    | _ =>
      have hkeys : s'.apiKeys = s.apiKeys := by
        refine sameKeys_of_flushes (fun w hw harea => ?_) hc
        have hmem := hareas w hw
        simp [harea, Call.areas] at hmem
      rw [hkeys]
      exact .kept

/-! ## What holds of the keys -/

/-- No two keys have the same digest. -/
def Distinct (s : Store) : Prop :=
  ∀ i j a b, s.apiKeys.get i = some a → s.apiKeys.get j = some b → a.keyHash = b.keyHash → i = j

theorem Distinct.of_no_keys (h : s.apiKeys.rows = []) : Distinct s := fun i j a b hi => by
  simp [Table.get_of_rows_nil h] at hi

theorem Distinct.of_later (h : Distinct s) (hlater : ∀ k key', s'.apiKeys.get k = some key' →
    ∃ key, s.apiKeys.get k = some key ∧ Later key key') : Distinct s' := by
  intro i j a' b' hi hj heq
  obtain ⟨a, ha, hla⟩ := hlater i a' hi
  obtain ⟨b, hb, hlb⟩ := hlater j b' hj
  exact h i j a b ha hb (hla.keyHash.symm.trans (heq.trans hlb.keyHash))

theorem Distinct.of_issued {key : ApiKey} (h : Distinct s)
    (fresh : ∀ k key', s.apiKeys.get k = some key' → key'.keyHash ≠ key.keyHash)
    (hkeys : s'.apiKeys = s.apiKeys.insert key) : Distinct s' := by
  intro i j a b hi hj heq
  rw [hkeys] at hi hj
  rcases Table.get_insert_eq_some hi with ⟨rfl, rfl⟩ | ⟨-, hi'⟩
  · rcases Table.get_insert_eq_some hj with ⟨rfl, -⟩ | ⟨-, hj'⟩
    · rfl
    · exact absurd heq.symm (fresh j b hj')
  · rcases Table.get_insert_eq_some hj with ⟨rfl, rfl⟩ | ⟨-, hj'⟩
    · exact absurd heq (fresh i a hi')
    · exact h i j a b hi' hj' heq

/-- The key that a digest finds. -/
theorem Distinct.find?_eq (h : Distinct s) {k : Int} {key : ApiKey}
    (hk : s.apiKeys.get k = some key) {digest : String} (hhash : key.keyHash = digest) :
    (s.apiKeys.rows.find? fun p => p.2.keyHash = digest) = some (k, key) := by
  have hsome : (s.apiKeys.rows.find? fun p => decide (p.2.keyHash = digest)).isSome := by
    rw [List.find?_isSome]
    exact ⟨_, Table.mem_rows.mpr hk, decide_eq_true hhash⟩
  obtain ⟨⟨i, a⟩, hfind⟩ := Option.isSome_iff_exists.mp hsome
  have ha := Table.mem_rows.mp (List.mem_of_find?_eq_some hfind)
  have hdigest : a.keyHash = digest := of_decide_eq_true (List.find?_some hfind :)
  obtain rfl := h i k a key ha hk (hdigest.trans hhash.symm)
  rw [hk, Option.some.injEq] at ha
  rw [hfind, ha]

/-- The keys after a run: each is one that was drawn, no two have the same digest, and as long as
the clock does not go back, the cap holds at every moment from the last event on. -/
structure KeyBook (sec : Security) (past : List KeyEvent) (s : Store) : Prop where
  drawn : ∀ k key, s.apiKeys.get k = some key → ∃ e ∈ past, ∃ raw, e.drawn = some raw ∧
    Prefixed raw ∧ key.keyHash = sec.hashKey raw
  scopes : ∀ k key, s.apiKeys.get k = some key → DeclaredScopes key.scopes
  distinct : Distinct s
  cap : InOrder past → ∀ now, (∀ e ∈ past, e.env.now ≤ now) →
    ∀ u, (activeAt s u now).length ≤ maxActiveKeys

theorem KeyBook.of_no_keys (h : s.apiKeys.rows = []) : KeyBook sec [] s where
  drawn k key hk := by simp [Table.get_of_rows_nil h] at hk
  scopes k key hk := by simp [Table.get_of_rows_nil h] at hk
  distinct := .of_no_keys h
  cap _ now _ u := by simp [activeAt, h]

/-- The keys that are left as they are, or are later versions of what they were. -/
theorem KeyBook.of_later {past : List KeyEvent} (h : KeyBook sec past s)
    (hlater : ∀ k key', s'.apiKeys.get k = some key' →
      ∃ key, s.apiKeys.get k = some key ∧ Later key key')
    (hcap : ∀ u now, (activeAt s' u now).length ≤ (activeAt s u now).length) :
    KeyBook sec (past ++ [e]) s' where
  drawn k key' hk := by
    obtain ⟨key, hkey, hl⟩ := hlater k key' hk
    obtain ⟨e', he', raw, hraw, hhead, hhash⟩ := h.drawn k key hkey
    exact ⟨e', List.mem_append_left _ he', raw, hraw, hhead, hl.keyHash.trans hhash⟩
  scopes k key' hk := by
    obtain ⟨key, hkey, hl⟩ := hlater k key' hk
    rw [hl.scopes]
    exact h.scopes k key hkey
  distinct := h.distinct.of_later hlater
  cap horder now hnow u := by
    have hpast := h.cap (List.pairwise_append.mp horder).1 now
      (fun e' he' => hnow e' (List.mem_append_left _ he')) u
    exact (hcap u now).trans hpast

theorem KeyBook.of_issued {past : List KeyEvent} {raw : String} {key : ApiKey}
    (h : KeyBook sec past s) (drawn : e.drawn = some raw) (headed : Prefixed raw)
    (keyHash : key.keyHash = sec.hashKey raw) (scopes : DeclaredScopes key.scopes)
    (room : (activeKeys s key.userId e.env.now).length < maxActiveKeys)
    (fresh : ∀ k key', s.apiKeys.get k = some key' → key'.keyHash ≠ key.keyHash)
    (hkeys : s'.apiKeys = s.apiKeys.insert key) : KeyBook sec (past ++ [e]) s' where
  drawn k key' hk := by
    rw [hkeys] at hk
    rcases Table.get_insert_eq_some hk with ⟨-, rfl⟩ | ⟨-, hk⟩
    · exact ⟨e, List.mem_append_right _ (List.mem_singleton.mpr rfl), raw, drawn, headed, keyHash⟩
    · obtain ⟨e', he', hdrawn⟩ := h.drawn k key' hk
      exact ⟨e', List.mem_append_left _ he', hdrawn⟩
  scopes k key' hk := by
    rw [hkeys] at hk
    rcases Table.get_insert_eq_some hk with ⟨-, rfl⟩ | ⟨-, hk⟩
    · exact scopes
    · exact h.scopes k key' hk
  distinct := h.distinct.of_issued fresh hkeys
  cap horder now hnow u := by
    have hpast := h.cap (List.pairwise_append.mp horder).1 now
      (fun e' he' => hnow e' (List.mem_append_left _ he')) u
    have hnew := hnow e (List.mem_append_right _ (List.mem_singleton.mpr rfl))
    unfold activeAt
    rw [hkeys, Table.length_filter_insert]
    split
    · next hsel =>
      -- the new key counts, and there was room for it at the moment of its issue
      have hu : key.userId = u := of_decide_eq_true ((Bool.and_eq_true _ _).mp hsel).1
      rw [activeKeys_eq, hu] at room
      have hle : (activeAt s u _).length ≤ _ := length_activeAt_le hnew
      unfold activeAt at hle room
      omega
    · exact hpast

theorem KeyBook.step {past : List KeyEvent} (h : KeyBook sec past s)
    (hstep : e.step sec s = .ok s') : KeyBook sec (past ++ [e]) s' := by
  have hchange := keyChange_of_step hstep
  generalize hkeys : s'.apiKeys = t at hchange
  cases hchange with
  | kept =>
    refine h.of_later (fun k key' hk => ⟨key', hkeys ▸ hk, .refl key'⟩) fun u now => ?_
    unfold activeAt
    rw [hkeys]
  | issued drawn headed keyHash scopes room fresh =>
    exact h.of_issued drawn headed keyHash scopes room fresh hkeys
  | @rewritten k f later =>
    refine h.of_later (fun i key' hi => ?_) fun u now => ?_
    · rw [hkeys, Table.get_update] at hi
      split at hi
      · next hik =>
        obtain ⟨key, hkey, rfl⟩ := Option.map_eq_some_iff.mp hi
        exact ⟨key, hkey, later key (hik ▸ hkey)⟩
      · exact ⟨key', hi, .refl key'⟩
    · unfold activeAt
      rw [hkeys]
      refine Table.length_filter_update_le fun key hkey hsel => ?_
      simp only [Bool.and_eq_true, decide_eq_true_eq] at hsel ⊢
      have hl := later key hkey
      exact ⟨hl.userId.symm.trans hsel.1, hl.active le_rfl hsel.2⟩

theorem keyBook_of_run (h : s.apiKeys.rows = []) (events : List KeyEvent) :
    KeyBook sec events (Run.all (KeyEvent.step sec) s events) := by
  refine Run.invariant_of_past (I := KeyBook sec) (.of_no_keys h) (fun past e hpast => ?_) events
  rcases hstep : e.step sec (Run.all (KeyEvent.step sec) s past) with err | s'
  · exact hpast.of_later (fun k key hk => ⟨key, hk, .refl key⟩) fun _ _ => le_rfl
  · exact hpast.step hstep

/-! ## What becomes of a key -/

/-- Keys are not deleted. -/
theorem KeyChange.later {t : Table ApiKey} (h : KeyChange sec s e t) {k : Int} {key : ApiKey}
    (hk : s.apiKeys.get k = some key) : ∃ key', t.get k = some key' ∧ Later key key' := by
  cases h with
  | kept => exact ⟨key, hk, .refl key⟩
  | issued => exact ⟨key, Table.get_insert_of_some hk, .refl key⟩
  | @rewritten i f later =>
    rw [Table.get_update]
    split
    · next hki => exact ⟨f key, by rw [hk, Option.map_some], later key (hki ▸ hk)⟩
    · exact ⟨key, hk, .refl key⟩

theorem later_of_run {k : Int} {key : ApiKey} (hk : s.apiKeys.get k = some key)
    (events : List KeyEvent) : ∃ key',
      (Run.all (KeyEvent.step sec) s events).apiKeys.get k = some key' ∧ Later key key' := by
  refine Run.invariant_of_step
    (I := fun s' : Store => ∃ key', s'.apiKeys.get k = some key' ∧ Later key key') ?_
    ⟨key, hk, .refl key⟩
  rintro s₁ e s₂ ⟨key₁, hk₁, hl₁⟩ hstep
  obtain ⟨key₂, hk₂, hl₂⟩ := (keyChange_of_step hstep).later hk₁
  exact ⟨key₂, hk₂, hl₁.trans hl₂⟩

/-! ## Authentication -/

/-- The key in the clear is accepted, and its use noted. -/
def Accepts (sec : Security) (s : Store) (env : Env) (raw : String) (user : CurrentUser)
    (scopes : List String) : Prop :=
  ∃ p s', authenticateKey sec s env raw = .ok (user, scopes, p) ∧ p.commit s = .ok s'

/-- The key in the clear is refused as revoked or as expired. -/
def Refused (sec : Security) (s : Store) (env : Env) (raw : String) : Prop :=
  ∃ err, authenticateKey sec s env raw = .error (.app err) ∧
    (err.code = "API_KEY_REVOKED" ∨ err.code = "API_KEY_EXPIRED")

/-- A stored key with this digest is neither revoked nor expired and belongs to this user, who is
active. -/
def Opens (s : Store) (now : Instant) (digest : String) (user : CurrentUser)
    (scopes : List String) : Prop :=
  ∃ k key, s.apiKeys.get k = some key ∧ key.keyHash = digest ∧ key.revokedAt = none ∧
    (∀ t, key.expiresAt = some t → now < t) ∧ s.users.get key.userId = some user.toUser ∧
    user.id = key.userId ∧ user.isActive = true ∧ scopes = key.scopes

variable {raw : String} {user : CurrentUser} {scopes : List String}

theorem accepts_iff : Accepts sec s env raw user scopes ↔ Prefixed raw ∧ ∃ k key,
    (s.apiKeys.rows.find? fun p => p.2.keyHash = sec.hashKey raw) = some (k, key) ∧
      keyState key.revokedAt key.expiresAt env.now = .active ∧
      s.users.get key.userId = some user.toUser ∧ user.id = key.userId ∧ user.isActive = true ∧
      scopes = key.scopes := by
  constructor
  · rintro ⟨p, s', h, -⟩
    obtain ⟨_, hhead, h⟩ := bind_eq_ok.mp h
    obtain ⟨⟨k, key⟩, hfind, h⟩ := bind_eq_ok.mp h
    obtain ⟨_, hrevoked, h⟩ := bind_eq_ok.mp h
    obtain ⟨_, hexpired, h⟩ := bind_eq_ok.mp h
    obtain ⟨u, hget, h⟩ := bind_eq_ok.mp h
    simp only [pure_eq_ok, Except.ok.injEq, Prod.mk.injEq] at h
    obtain ⟨rfl, rfl, -⟩ := h
    obtain ⟨hu, hon⟩ := Option.filter_eq_some_iff.mp (getE_eq_ok.mp hget)
    refine ⟨guardE_eq_ok.mp hhead, k, key, getE_eq_ok.mp hfind, ?_, hu, rfl, hon, rfl⟩
    have hrevoked := guardE_eq_ok.mp hrevoked
    have hexpired := guardE_eq_ok.mp hexpired
    cases hstate : keyState key.revokedAt key.expiresAt env.now with
    | active => rfl
    | revoked => exact absurd hstate hrevoked
    | expired => exact absurd hstate hexpired
  · rintro ⟨hhead, k, key, hfind, hstate, hu, hid, hon, rfl⟩
    have hget : s.apiKeys.get k = some key := Table.mem_rows.mp (List.mem_of_find?_eq_some hfind)
    let used : RowWrite ApiKey := .update k key { key with lastUsedAt := some env.now }
    obtain ⟨f, happly⟩ : ∃ f, used.apply env.txnNow Fault.staleData s.apiKeys =
        .ok (s.apiKeys.update k f) := by
      obtain ⟨f, at₀, happly, -⟩ := RowWrite.apply_update_loaded hget
      exact ⟨f, happly⟩
    have hlet : authenticateKey sec s env raw =
        .ok (user, key.scopes, { now := env.txnNow, writes := [.apiKey used] }) := by
      have huser : (s.users.get key.userId).filter (fun u => u.isActive) = some user.toUser :=
        Option.filter_eq_some_iff.mpr ⟨hu, hon⟩
      refine bind_eq_ok.mpr ⟨(), guardE_eq_ok.mpr hhead, ?_⟩
      refine bind_eq_ok.mpr ⟨(k, key), getE_eq_ok.mpr hfind, ?_⟩
      refine bind_eq_ok.mpr ⟨(), guardE_eq_ok.mpr (hstate ▸ nofun), ?_⟩
      refine bind_eq_ok.mpr ⟨(), guardE_eq_ok.mpr (hstate ▸ nofun), ?_⟩
      refine bind_eq_ok.mpr ⟨user.toUser, getE_eq_ok.mpr huser, ?_⟩
      have hself : ({ user.toUser with id := key.userId } : CurrentUser) = user := by rw [← hid]
      rw [hself]
      rfl
    have hflush : s.flush env.txnNow (.apiKey used) =
        .ok { s with apiKeys := s.apiKeys.update k f } :=
      bind_eq_ok.mpr ⟨(), rfl, bind_eq_ok.mpr ⟨_, happly, rfl⟩⟩
    refine ⟨_, { s with apiKeys := s.apiKeys.update k f }, hlet, Plan.commit_eq_ok.mpr ?_⟩
    rw [List.foldlM_cons]
    exact bind_eq_ok.mpr ⟨_, hflush, rfl⟩

theorem refused_iff : Refused sec s env raw ↔ Prefixed raw ∧ ∃ k key,
    (s.apiKeys.rows.find? fun p => p.2.keyHash = sec.hashKey raw) = some (k, key) ∧
      keyState key.revokedAt key.expiresAt env.now ≠ .active := by
  constructor
  · rintro ⟨err, h, hcode⟩
    have hinvalid : err ≠ invalidApiKey := by
      rintro rfl
      revert hcode
      decide
    rcases bind_eq_error.mp h with h | ⟨_, hhead, h⟩
    · exact absurd (Fault.app.inj (guardE_eq_error.mp h).2) hinvalid
    rcases bind_eq_error.mp h with h | ⟨⟨k, key⟩, hfind, h⟩
    · exact absurd (Fault.app.inj (getE_eq_error.mp h).2) hinvalid
    refine ⟨guardE_eq_ok.mp hhead, k, key, getE_eq_ok.mp hfind, fun hactive => ?_⟩
    rcases bind_eq_error.mp h with h | ⟨_, -, h⟩
    · exact (guardE_eq_error.mp h).1 fun he => nomatch hactive.symm.trans he
    rcases bind_eq_error.mp h with h | ⟨_, -, h⟩
    · exact (guardE_eq_error.mp h).1 fun he => nomatch hactive.symm.trans he
    rcases bind_eq_error.mp h with h | ⟨_, -, h⟩
    · exact hinvalid (Fault.app.inj (getE_eq_error.mp h).2)
    · cases h
  · rintro ⟨hhead, k, key, hfind, hstate⟩
    -- the two guards on the state of the key, of which one fails
    have hreach : ∀ err, (do
        guardE (keyState key.revokedAt key.expiresAt env.now ≠ KeyState.revoked) <| Fault.app <|
          authError "API_KEY_REVOKED" "폐기된 API Key입니다"
        guardE (keyState key.revokedAt key.expiresAt env.now ≠ KeyState.expired) <| Fault.app <|
          authError "API_KEY_EXPIRED" "만료된 API Key입니다") = .error (.app err) →
        authenticateKey sec s env raw = .error (.app err) := by
      intro err h
      refine bind_eq_error.mpr (.inr ⟨(), guardE_eq_ok.mpr hhead, ?_⟩)
      refine bind_eq_error.mpr (.inr ⟨(k, key), getE_eq_ok.mpr hfind, ?_⟩)
      rcases bind_eq_error.mp h with h | ⟨_, hpass, h⟩
      · exact bind_eq_error.mpr (.inl h)
      · exact bind_eq_error.mpr (.inr ⟨_, hpass, bind_eq_error.mpr (.inl h)⟩)
    cases hkey : keyState key.revokedAt key.expiresAt env.now with
    | active => exact absurd hkey hstate
    | revoked => exact ⟨_, hreach _ (by rw [hkey]; rfl), .inl rfl⟩
    | expired => exact ⟨_, hreach _ (by rw [hkey]; rfl), .inr rfl⟩

section
variable {past : List KeyEvent}

/-- The head of the text is no further condition: what has the digest of a drawn key is that key. -/
theorem KeyBook.accepts_iff (h : KeyBook sec past s) (hfree : CollisionFree sec raw past) :
    Accepts sec s env raw user scopes ↔ Opens s env.now (sec.hashKey raw) user scopes := by
  rw [Accounts.accepts_iff]
  constructor
  · rintro ⟨-, k, key, hfind, hstate, hu, hid, hon, hscopes⟩
    have hget := Table.mem_rows.mp (List.mem_of_find?_eq_some hfind)
    obtain ⟨hrevoked, hexpires⟩ := keyState_eq_active.mp hstate
    exact ⟨k, key, hget, of_decide_eq_true (List.find?_some hfind :), hrevoked, hexpires, hu, hid,
      hon, hscopes⟩
  · rintro ⟨k, key, hget, hhash, hrevoked, hexpires, hu, hid, hon, hscopes⟩
    obtain ⟨e, he, drawn, hdrawn, hhead, hdigest⟩ := h.drawn k key hget
    obtain rfl := hfree e he drawn hdrawn (hhash.symm.trans hdigest)
    exact ⟨hhead, k, key, h.distinct.find?_eq hget hhash,
      keyState_eq_active.mpr ⟨hrevoked, hexpires⟩, hu, hid, hon, hscopes⟩

theorem KeyBook.declared (h : KeyBook sec past s) (ha : Accepts sec s env raw user scopes) :
    DeclaredScopes scopes := by
  obtain ⟨-, k, key, hfind, -, -, -, -, rfl⟩ := Accounts.accepts_iff.mp ha
  exact h.scopes k key (Table.mem_rows.mp (List.mem_of_find?_eq_some hfind))

/-- A key that is not active is not active afterwards either, and it is still found. -/
theorem Refused.later {env' : Env} {more : List KeyEvent} (h : Refused sec s env raw)
    (hbook : KeyBook sec past (Run.all (KeyEvent.step sec) s more)) (hnow : env.now ≤ env'.now) :
    Refused sec (Run.all (KeyEvent.step sec) s more) env' raw := by
  obtain ⟨hhead, k, key, hfind, hstate⟩ := refused_iff.mp h
  have hget := Table.mem_rows.mp (List.mem_of_find?_eq_some hfind)
  have hhash : key.keyHash = sec.hashKey raw := of_decide_eq_true (List.find?_some hfind :)
  obtain ⟨key', hget', hlater⟩ := later_of_run hget more
  exact refused_iff.mpr ⟨hhead, k, key', hbook.distinct.find?_eq hget' (hlater.keyHash.trans hhash),
    fun hactive => hstate (hlater.active hnow hactive)⟩

end

/-- The life of the keys in any run from a store without keys: the cap holds at every moment, a
key in the clear is accepted exactly if a stored key with its digest opens an account, with the
scopes stored with it, and what has been refused as revoked or expired stays refused. -/
theorem key_life_cycle (sec : Security) {s₀ : Store} (h₀ : s₀.apiKeys.rows = [])
    {events : List KeyEvent} (horder : InOrder events) :
    (∀ now, (∀ e ∈ events, e.env.now ≤ now) → ∀ u,
      (activeAt (Run.all (KeyEvent.step sec) s₀ events) u now).length ≤ maxActiveKeys) ∧
    (∀ env raw user scopes, CollisionFree sec raw events →
      (Accepts sec (Run.all (KeyEvent.step sec) s₀ events) env raw user scopes ↔
        Opens (Run.all (KeyEvent.step sec) s₀ events) env.now (sec.hashKey raw) user scopes)) ∧
    (∀ env raw user scopes,
      Accepts sec (Run.all (KeyEvent.step sec) s₀ events) env raw user scopes →
        DeclaredScopes scopes) ∧
    ∀ env raw, Refused sec (Run.all (KeyEvent.step sec) s₀ events) env raw →
      ∀ more env', env.now ≤ env'.now →
        Refused sec (Run.all (KeyEvent.step sec) s₀ (events ++ more)) env' raw := by
  have hbook : KeyBook sec events _ := keyBook_of_run h₀ events
  refine ⟨hbook.cap horder, fun _ _ _ _ => hbook.accepts_iff, fun _ _ _ _ => hbook.declared, ?_⟩
  intro env raw hrefused more env' hnow
  have hmore : KeyBook sec (events ++ more) _ := keyBook_of_run h₀ (events ++ more)
  rw [Run.all_append] at hmore ⊢
  exact hrefused.later hmore hnow

/-- Kim issues a key. -/
def kimsKey : KeyEvent := .request ⟨Office.env, .personal 1 (.createKey
  { name := ⟨"agent", by decide⟩, scopes := ["admin", "trips:read"] })⟩

def kimRevokes : KeyEvent := .request ⟨{ Office.env with now := 5 }, .personal 1 (.revokeKey 1)⟩

def kim : CurrentUser :=
  { Office.user "kim@sk.com" "Kim" "E1" (some 2) .employee with id := 1 }

/-- The key opens Kim's account with its scopes in order, and, revoked, is refused for good. -/
theorem key_life_cycle_kim :
    Accepts Office.sec (Run.all (KeyEvent.step Office.sec) Office.store [kimsKey]) Office.env
      (generateKey Office.env) kim ["trips:read", "admin"] ∧
    Refused Office.sec
      (Run.all (KeyEvent.step Office.sec) Office.store ([kimsKey, kimRevokes] ++ [kimsKey]))
      { Office.env with now := 9 } (generateKey Office.env) := by
  have hnone : Office.store.apiKeys.rows = [] := rfl
  have hissued : InOrder [kimsKey] := by decide
  have hrevoked : InOrder [kimsKey, kimRevokes] := by decide
  obtain ⟨-, haccepts, -, -⟩ := key_life_cycle Office.sec hnone hissued
  obtain ⟨-, -, -, hrefused⟩ := key_life_cycle Office.sec hnone hrevoked
  constructor
  · have hfree : CollisionFree Office.sec (generateKey Office.env) [kimsKey] := by
      rintro e he k hk -
      obtain rfl := List.mem_singleton.mp he
      exact Option.some.inj hk
    refine (haccepts _ _ _ _ hfree).mpr ?_
    have hrow : ((Run.all (KeyEvent.step Office.sec) Office.store [kimsKey]).apiKeys.get 1).map
        (fun key => (key.userId, key.keyHash, key.revokedAt, key.expiresAt, key.scopes)) =
          some (1, Office.sec.hashKey (generateKey Office.env), none, none,
            ["trips:read", "admin"]) := by decide +kernel
    have huser : (Run.all (KeyEvent.step Office.sec) Office.store [kimsKey]).users.get 1 =
        some kim.toUser := by decide +kernel
    obtain ⟨key, hkey, hcols⟩ := Option.map_eq_some_iff.mp hrow
    simp only [Prod.mk.injEq] at hcols
    obtain ⟨howner, hhash, hlive, hforever, hscopes⟩ := hcols
    refine ⟨1, key, hkey, hhash, hlive, fun t ht => ?_, howner ▸ huser, howner.symm, rfl,
      hscopes.symm⟩
    rw [hforever] at ht
    cases ht
  · have hfound : ((Run.all (KeyEvent.step Office.sec) Office.store
        [kimsKey, kimRevokes]).apiKeys.rows.find? fun p =>
          p.2.keyHash = Office.sec.hashKey (generateKey Office.env)).map
            (fun p => keyState p.2.revokedAt p.2.expiresAt 5) = some .revoked := by decide +kernel
    obtain ⟨⟨k, key⟩, hfind, hstate⟩ := Option.map_eq_some_iff.mp hfound
    refine hrefused { Office.env with now := 5 } _ ?_ [kimsKey] _ (by decide)
    refine refused_iff.mpr ⟨prefixed_generateKey _, k, key, hfind, fun hactive => ?_⟩
    exact nomatch hstate.symm.trans hactive

end Biztrip.Accounts
