import Biztrip.Accounts.Keys
import Biztrip.Lib.Quota

/-!
# Keys issued at the same time

`create_key` counts the active keys of the user and inserts one more, with nothing in between to
hold others off, and every use of a key writes to its row. Here requests and uses of keys overlap
in any way. A key still only grows later (`Later`), since each request writes the columns it has
changed and no others; and `keyQuota` makes the cap a quota, which is overrun by the requests that
are in flight together and by no more.
-/

namespace Biztrip.Accounts

open Biztrip.Lib ApiKeys

namespace KeyEvent

def plan (sec : Security) (s : Store) : KeyEvent → Result Plan
  | .request req => (system sec).plan s req
  | .authenticate env raw => do
    let found ← authenticateKey sec s env raw
    return found.2.2

/-- Whether the event is a `create_key` of the user. -/
def issues (u : Int) : KeyEvent → Bool
  | .request ⟨_, .personal userId (.createKey _)⟩ => userId = u
  | _ => false

end KeyEvent

/-- The requests of the system and the uses of keys, each with a read and a commit. -/
def keys (sec : Security) : Machine Store KeyEvent Plan Fault :=
  ⟨fun s e => e.plan sec s, fun s p => p.commit s⟩

section
variable {sec : Security} {s s' seen : Store} {env : Env} {e : KeyEvent} {now : Instant}

/-- With nothing in between they are the steps of a serial run. -/
theorem keys_step (s : Store) (e : KeyEvent) : (keys sec).step s e = e.step sec s := by
  cases e with
  | request req => rfl
  | authenticate env raw =>
    rw [Machine.step, KeyEvent.step]
    cases h : authenticateKey sec s env raw with
    | ok found => simp [keys, KeyEvent.plan, h]
    | error err => simp [keys, KeyEvent.plan, h]

/-! ## What is written to the keys -/

/-- The statements that a request has planned on the keys it has seen. -/
inductive KeyWrites (sec : Security) (seen : Store) (e : KeyEvent) (ws : List Write) : Prop
  | kept (hws : ∀ w ∈ ws, w.area ≠ .keys)
  | issued {raw : String} {key : ApiKey} (hws : ws = [.apiKey (.insert key)])
      (drawn : e.drawn = some raw) (keyHash : key.keyHash = sec.hashKey raw)
      (issues : e.issues key.userId = true)
  | rewritten {k : Int} {key key' : ApiKey} (hws : ws = [.apiKey (.update k key key')])
      (later : Later key key')

theorem keyWrites_of_personal {userId : Int} {user : CurrentUser} {call : PersonalCall} {p : Plan}
    (huser : user.id = userId) (h : call.plan sec seen env user = .ok p) :
    KeyWrites sec seen (.request ⟨env, .personal userId call⟩) p.writes := by
  cases call with
  | createKey payload =>
    obtain ⟨⟨raw, p'⟩, hkey, h⟩ := bind_eq_ok.mp h
    obtain ⟨scopes, -, hkey⟩ := bind_eq_ok.mp hkey
    obtain ⟨_, -, hkey⟩ := bind_eq_ok.mp hkey
    obtain ⟨_, -, hkey⟩ := bind_eq_ok.mp hkey
    rw [pure_eq_ok, Except.ok.injEq, Prod.mk.injEq] at hkey
    obtain ⟨-, rfl⟩ := hkey
    have h : Except.ok _ = Except.ok p := h
    obtain rfl := Except.ok.inj h
    exact .issued rfl rfl rfl (decide_eq_true huser.symm)
  | revokeKey keyId =>
    obtain ⟨o, -, h⟩ := bind_eq_ok.mp h
    obtain ⟨key, -, h⟩ := bind_eq_ok.mp h
    obtain ⟨_, -, h⟩ := bind_eq_ok.mp h
    rw [pure_eq_ok, Except.ok.injEq] at h
    subst h
    exact .rewritten rfl ⟨rfl, rfl, rfl, rfl, fun hnone => nomatch hnone⟩
  | markRead notificationId =>
    obtain ⟨o, -, h⟩ := bind_eq_ok.mp h
    obtain ⟨n, -, h⟩ := bind_eq_ok.mp h
    rw [pure_eq_ok, Except.ok.injEq] at h
    subst h
    exact .kept fun w hw => List.mem_singleton.mp hw ▸ Area.noConfusion

theorem keyWrites_of_plan {p : Plan} (h : e.plan sec seen = .ok p) :
    KeyWrites sec seen e p.writes := by
  cases e with
  | authenticate env raw =>
    obtain ⟨⟨user, scopes, p'⟩, huse, hp⟩ := bind_eq_ok.mp h
    obtain rfl := Except.ok.inj hp
    obtain ⟨_, -, h⟩ := bind_eq_ok.mp huse
    obtain ⟨⟨k, key⟩, -, h⟩ := bind_eq_ok.mp h
    obtain ⟨_, -, h⟩ := bind_eq_ok.mp h
    obtain ⟨_, -, h⟩ := bind_eq_ok.mp h
    obtain ⟨u, -, h⟩ := bind_eq_ok.mp h
    simp only [pure_eq_ok, Except.ok.injEq, Prod.mk.injEq] at h
    obtain ⟨-, -, rfl⟩ := h
    exact .rewritten rfl ⟨rfl, rfl, rfl, rfl, id⟩
  | request req =>
    rcases req with ⟨env, call⟩
    have hareas := call.plan_areas p h
    cases call with
    | personal userId call =>
      obtain ⟨user, huser, h⟩ := bind_eq_ok.mp h
      exact keyWrites_of_personal (currentUser_eq_ok.mp huser).2 h
    | _ =>
      refine .kept fun w hw harea => ?_
      have hmem := hareas w hw
      simp [harea, Call.areas] at hmem

/-- What a request has changed leaves any version of the key later. -/
theorem Later.merge {key key' : ApiKey} (h : Later key key') (at₀ : Int) (cur : ApiKey) :
    Later cur (stamp at₀ (Merge.merge key key' cur)) where
  userId := if_pos h.userId
  keyHash := if_pos h.keyHash
  scopes := if_pos h.scopes
  expiresAt := if_pos h.expiresAt
  revoked hnone := by
    have hcol : mergeCol key.revokedAt key'.revokedAt cur.revokedAt = none := hnone
    unfold mergeCol at hcol
    split at hcol
    · exact hcol
    · next hne => exact absurd (hcol.trans (h.revoked hcol).symm) hne

/-- What the commit of a request makes of the table of keys, whatever has become of it since. -/
inductive KeyCommit (sec : Security) (f : (keys sec).InFlight) (s : Store) : Table ApiKey → Prop
  | kept : KeyCommit sec f s s.apiKeys
  | issued {raw : String} {key : ApiKey} (drawn : f.req.drawn = some raw)
      (keyHash : key.keyHash = sec.hashKey raw) (issues : f.req.issues key.userId = true)
      (fresh : ∀ k key', s.apiKeys.get k = some key' → key'.keyHash ≠ key.keyHash) :
      KeyCommit sec f s (s.apiKeys.insert key)
  | rewritten {k : Int} {g : ApiKey → ApiKey} (later : ∀ key, Later key (g key)) :
      KeyCommit sec f s (s.apiKeys.update k g)

theorem keyCommit_of_commit {f : (keys sec).InFlight} (h : (keys sec).commit s f.writes = .ok s') :
    KeyCommit sec f s s'.apiKeys := by
  have hc := Plan.commit_eq_ok.mp h
  cases keyWrites_of_plan f.planned with
  | kept hws =>
    rw [sameKeys_of_flushes hws hc]
    exact .kept
  | issued hws drawn keyHash issues =>
    rw [hws] at hc
    obtain ⟨hcheck, happly⟩ := keys_of_flush hc
    rw [RowWrite.apply_insert, Except.ok.injEq] at happly
    rw [← happly]
    exact .issued drawn keyHash issues fun _ _ hk =>
      Desk.not_referenced (guardE_eq_ok.mp hcheck) hk
  | @rewritten k key key' hws later =>
    rw [hws] at hc
    rcases RowWrite.apply_update_eq_ok.mp (keys_of_flush hc).2 with ⟨-, hkeys⟩ | ⟨-, -, hkeys⟩
    · rw [hkeys]
      exact .kept
    · rw [hkeys]
      exact .rewritten (later.merge _)

/-! ## The quota -/

theorem room_of_issues {u : Int} {p : Plan} (h : e.plan sec seen = .ok p)
    (hissues : e.issues u = true) : (activeAt seen u e.env.now).length < maxActiveKeys := by
  cases e with
  | authenticate env raw => cases hissues
  | request req =>
    rcases req with ⟨env, call⟩
    cases call with
    | personal userId call =>
      cases call with
      | createKey payload =>
        obtain rfl : userId = u := of_decide_eq_true hissues
        obtain ⟨user, huser, h⟩ := bind_eq_ok.mp h
        obtain ⟨_, hkey, -⟩ := bind_eq_ok.mp h
        obtain ⟨_, -, hkey⟩ := bind_eq_ok.mp hkey
        obtain ⟨_, hroom, -⟩ := bind_eq_ok.mp hkey
        have hroom := guardE_eq_ok.mp hroom
        rwa [activeKeys_eq, (currentUser_eq_ok.mp huser).2] at hroom
      | revokeKey | markRead => cases hissues
    | _ => cases hissues

theorem KeyCommit.length_le {f : (keys sec).InFlight} (h : KeyCommit sec f s s'.apiKeys) (u : Int)
    (t : Instant) :
    (activeAt s' u t).length ≤ (activeAt s u t).length + (f.req.issues u).toNat := by
  unfold activeAt
  generalize s'.apiKeys = table at h
  cases h with
  | kept => exact Nat.le_add_right ..
  | @issued raw key drawn keyHash issues fresh =>
    rw [Table.length_filter_insert]
    split
    · next hsel =>
      have hu : key.userId = u := of_decide_eq_true ((Bool.and_eq_true _ _).mp hsel).1
      rw [← hu, issues]
      rfl
    · exact Nat.le_add_right ..
  | rewritten later =>
    refine (Table.length_filter_update_le fun key _ hsel => ?_).trans (Nat.le_add_right ..)
    simp only [Bool.and_eq_true, decide_eq_true_eq] at hsel ⊢
    exact ⟨(later key).userId.symm.trans hsel.1, (later key).active le_rfl hsel.2⟩

/-- `create_key` as a request that counts before it adds. -/
def keyQuota (sec : Security) (u : Int) : (keys sec).Quota Instant where
  adds := KeyEvent.issues u
  moment e := e.env.now
  count t s := (activeAt s u t).length
  cap := maxActiveKeys
  fades _ h := length_activeAt_le h
  room h hissues := room_of_issues h hissues
  commit _ t h := (keyCommit_of_commit h).length_le u t

/-! ## What holds of the keys -/

theorem KeyCommit.later {f : (keys sec).InFlight} (h : KeyCommit sec f s s'.apiKeys) {k : Int}
    {key : ApiKey} (hk : s.apiKeys.get k = some key) :
    ∃ key', s'.apiKeys.get k = some key' ∧ Later key key' := by
  generalize s'.apiKeys = table at h
  cases h with
  | kept => exact ⟨key, hk, .refl key⟩
  | issued => exact ⟨key, Table.get_insert_of_some hk, .refl key⟩
  | @rewritten i g later =>
    rw [Table.get_update]
    split
    · exact ⟨g key, by rw [hk, Option.map_some], later key⟩
    · exact ⟨key, hk, .refl key⟩

theorem KeyCommit.distinct {f : (keys sec).InFlight} (h : KeyCommit sec f s s'.apiKeys)
    (hs : Distinct s) : Distinct s' := by
  generalize htable : s'.apiKeys = table at h
  cases h with
  | kept => exact hs.of_later fun k key hk => ⟨key, htable ▸ hk, .refl key⟩
  | issued drawn keyHash issues fresh => exact hs.of_issued fresh htable
  | rewritten later =>
    refine hs.of_later fun i a' hi => ?_
    rw [htable, Table.get_update] at hi
    split at hi
    · obtain ⟨a, ha, rfl⟩ := Option.map_eq_some_iff.mp hi
      exact ⟨a, ha, later a⟩
    · exact ⟨a', hi, .refl a'⟩

theorem distinct_exec {c : (keys sec).Config} (h : Distinct c.db)
    (evs : List (Machine.Event KeyEvent)) : Distinct (c.exec evs).db :=
  Machine.Config.exec_db (fun _ _ _ hs hc => (keyCommit_of_commit hc).distinct hs) h

theorem later_exec {c : (keys sec).Config} {k : Int} {key : ApiKey}
    (hk : c.db.apiKeys.get k = some key) (evs : List (Machine.Event KeyEvent)) :
    ∃ key', (c.exec evs).db.apiKeys.get k = some key' ∧ Later key key' := by
  refine Machine.Config.exec_db
    (I := fun s : Store => ∃ key', s.apiKeys.get k = some key' ∧ Later key key') ?_
    ⟨key, hk, .refl key⟩
  rintro s f s' ⟨key₁, hk₁, hl₁⟩ hc
  obtain ⟨key₂, hk₂, hl₂⟩ := (keyCommit_of_commit hc).later hk₁
  exact ⟨key₂, hk₂, hl₁.trans hl₂⟩

theorem refused_exec {c : (keys sec).Config} (hc : Distinct c.db) {env env' : Env} {raw : String}
    (h : Refused sec c.db env raw) (hnow : env.now ≤ env'.now)
    (evs : List (Machine.Event KeyEvent)) : Refused sec (c.exec evs).db env' raw := by
  obtain ⟨hhead, k, key, hfind, hstate⟩ := refused_iff.mp h
  have hget := Table.mem_rows.mp (List.mem_of_find?_eq_some hfind)
  have hhash : key.keyHash = sec.hashKey raw := of_decide_eq_true (List.find?_some hfind :)
  obtain ⟨key', hget', hlater⟩ := later_exec hget evs
  exact refused_iff.mpr ⟨hhead, k, key', (distinct_exec hc evs).find?_eq hget'
    (hlater.keyHash.trans hhash), fun hactive => hstate (hlater.active hnow hactive)⟩

/-! ## Keys issued together -/

/-- The key that `create_key` inserts. -/
def issuedKey (sec : Security) (u : Int) (env : Env) (payload : ApiKeyCreate) : ApiKey where
  userId := u
  name := payload.name.val
  keyPrefix := .ofList ((generateKey env).toList.take prefixDisplayLen)
  keyHash := sec.hashKey (generateKey env)
  scopes := (validateScopes payload.scopes).toOption.getD []
  lastUsedAt := none
  expiresAt := payload.expiresInDays.map fun days => env.now + days.val * 86400 * 1000000
  revokedAt := none
  createdAt := env.txnNow

def createKeyOf (u : Int) (p : Env × ApiKeyCreate) : KeyEvent :=
  .request ⟨p.1, .personal u (.createKey p.2)⟩

/-- Requests of a user that `create_key` grants one by one, with keys that differ from each other
and from all others, and that have not expired by the moment `t`. -/
structure Issuable (sec : Security) (s : Store) (u : Int) (t : Instant)
    (reqs : List (Env × ApiKeyCreate)) : Prop where
  user : (s.users.get u).isSome
  scopes : ∀ p ∈ reqs, (validateScopes p.2.scopes).isOk
  name : ∀ p ∈ reqs, IsText p.2.name.val
  room : ∀ p ∈ reqs, (activeAt s u p.1.now).length < maxActiveKeys
  lasting : ∀ p ∈ reqs, ∀ days ∈ p.2.expiresInDays, t < p.1.now + days.val * 86400 * 1000000
  fresh : ∀ p ∈ reqs, ∀ k key, s.apiKeys.get k = some key →
    key.keyHash ≠ sec.hashKey (generateKey p.1)
  distinct : (reqs.map fun p => sec.hashKey (generateKey p.1)).Nodup

theorem plan_createKeyOf {u : Int} {t : Instant} {reqs : List (Env × ApiKeyCreate)}
    (h : Issuable sec s u t reqs) {p : Env × ApiKeyCreate} (hp : p ∈ reqs) :
    (keys sec).plan s (createKeyOf u p) =
      .ok { now := p.1.txnNow, writes := [.apiKey (.insert (issuedKey sec u p.1 p.2))] } := by
  obtain ⟨user, huser⟩ := Option.isSome_iff_exists.mp h.user
  have hroom : (activeKeys s u p.1.now).length < maxActiveKeys := by
    rw [activeKeys_eq]
    exact h.room p hp
  have hscopes : validateScopes p.2.scopes =
      .ok ((validateScopes p.2.scopes).toOption.getD []) := by
    have hok := h.scopes p hp
    cases hval : validateScopes p.2.scopes with
    | ok scopes => rfl
    | error e => rw [hval] at hok; cases hok
  refine bind_eq_ok.mpr ⟨{ user with id := u }, currentUser_eq_ok.mpr ⟨huser, rfl⟩, ?_⟩
  refine bind_eq_ok.mpr ⟨(generateKey p.1, _), ?_, rfl⟩
  refine bind_eq_ok.mpr ⟨_, hscopes, ?_⟩
  refine bind_eq_ok.mpr ⟨(), guardE_eq_ok.mpr hroom, ?_⟩
  exact bind_eq_ok.mpr ⟨(), guardE_eq_ok.mpr (h.name p hp), rfl⟩

theorem commit_issued {key : ApiKey} {p : Plan} (hp : p.writes = [.apiKey (.insert key)])
    (hfresh : ∀ k key', s.apiKeys.get k = some key' → key'.keyHash ≠ key.keyHash) :
    (keys sec).commit s p = .ok { s with apiKeys := s.apiKeys.insert key } := by
  refine Plan.commit_eq_ok.mpr ?_
  rw [hp, List.foldlM_cons]
  refine bind_eq_ok.mpr ⟨_, bind_eq_ok.mpr ⟨(), guardE_eq_ok.mpr ?_, rfl⟩, rfl⟩
  exact Store.taken_eq_false.mpr fun j row hj _ => hfresh j row hj

/-- Each of the keys gets in, whoever gets in first. -/
theorem length_of_commits {u : Int} {t : Instant} {flying : List (keys sec).InFlight}
    {issued : List ApiKey}
    (h : List.Forall₂ (fun f key => f.writes.writes = [.apiKey (.insert key)]) flying issued) :
    ∀ {s : Store}, (∀ key ∈ issued, key.userId = u ∧
        keyState key.revokedAt key.expiresAt t = .active ∧
        ∀ k key', s.apiKeys.get k = some key' → key'.keyHash ≠ key.keyHash) →
      (issued.map ApiKey.keyHash).Nodup →
      (activeAt (flying.foldl
          (fun s f => Run.settle s ((keys sec).commit s f.writes)) s) u t).length =
        (activeAt s u t).length + flying.length := by
  induction h with
  | nil => exact fun _ _ => rfl
  | @cons f key flying issued hf _ ih =>
    intro s hkeys hnodup
    obtain ⟨hu, hactive, hfresh⟩ := hkeys key List.mem_cons_self
    obtain ⟨hnot, hnodup⟩ := List.nodup_cons.mp hnodup
    have hstep : Run.settle s ((keys sec).commit s f.writes) =
        { s with apiKeys := s.apiKeys.insert key } :=
      Run.settle_eq (commit_issued hf hfresh)
    rw [List.foldl_cons, hstep, ih ?_ hnodup, List.length_cons]
    · have hone : (activeAt { s with apiKeys := s.apiKeys.insert key } u t).length =
          (activeAt s u t).length + 1 := by
        unfold activeAt
        rw [Table.length_filter_insert, if_pos]
        simp [hu, hactive]
      omega
    · intro key' hkey'
      obtain ⟨hu', hactive', hfresh'⟩ := hkeys key' (List.mem_cons_of_mem _ hkey')
      refine ⟨hu', hactive', fun k other hk => ?_⟩
      rcases Table.get_insert_eq_some hk with ⟨-, rfl⟩ | ⟨-, hk⟩
      · intro heq
        exact hnot (List.mem_map.mpr ⟨key', hkey', heq.symm⟩)
      · exact hfresh' k other hk

theorem forall₂_reads {u : Int} {reqs : List (Env × ApiKeyCreate)}
    (h : ∀ p ∈ reqs, (keys sec).plan s (createKeyOf u p) =
      .ok { now := p.1.txnNow, writes := [.apiKey (.insert (issuedKey sec u p.1 p.2))] }) :
    List.Forall₂ (fun f key => f.writes.writes = [.apiKey (.insert key)])
      ((reqs.map (createKeyOf u)).filterMap (Machine.InFlight.read (keys sec) s))
      (reqs.map fun p => issuedKey sec u p.1 p.2) := by
  induction reqs with
  | nil => exact .nil
  | cons p reqs ih =>
    have hread := Machine.InFlight.read_of_ok (h p List.mem_cons_self)
    rw [List.map_cons, List.filterMap_cons_some hread, List.map_cons]
    exact .cons rfl (ih fun p hp => h p (List.mem_cons_of_mem _ hp))

theorem length_of_together {u : Int} {t : Instant} {reqs : List (Env × ApiKeyCreate)}
    (h : Issuable sec s u t reqs) :
    (activeAt ((Machine.Config.quiet (keys sec) s).exec
      (Machine.together (reqs.map (createKeyOf u)))).db u t).length =
        (activeAt s u t).length + reqs.length := by
  have hplan : ∀ p ∈ reqs, _ := fun p hp => plan_createKeyOf h hp
  have hreads := forall₂_reads hplan
  rw [Machine.exec_together]
  · have hlength := hreads.length_eq
    rw [List.length_map] at hlength
    rw [← hlength]
    refine length_of_commits hreads ?_ ?_
    · intro key hkey
      obtain ⟨p, hp, rfl⟩ := List.mem_map.mp hkey
      refine ⟨rfl, keyState_eq_active.mpr ⟨rfl, fun t' ht' => ?_⟩, h.fresh p hp⟩
      obtain ⟨days, hdays, rfl⟩ := Option.map_eq_some_iff.mp ht'
      exact h.lasting p hp days hdays
    · rw [List.map_map]
      exact h.distinct
  · intro e he
    obtain ⟨p, hp, rfl⟩ := List.mem_map.mp he
    exact ⟨_, hplan p hp⟩

end

/-- However requests and uses of keys overlap: with at most `k + 1` of a user's `create_key` in
flight at a time, the user has at most `k` active keys too many; what has been refused as revoked
or expired stays refused, whatever is in flight; and the cap does not hold for requests that read
together, which are all granted. -/
theorem keys_under_overlap (sec : Security) {s : Store}
    (hcap : ∀ u t, (activeAt s u t).length ≤ maxActiveKeys) (hdistinct : Distinct s)
    (evs : List (Machine.Event KeyEvent)) :
    let c := (Machine.Config.quiet (keys sec) s).exec evs
    (∀ u k t, (∀ n, (keyQuota sec u).waiting
          ((Machine.Config.quiet (keys sec) s).exec (evs.take n)) ≤ k + 1) →
        (keyQuota sec u).Past evs t → (activeAt c.db u t).length ≤ maxActiveKeys + k) ∧
      (∀ env raw, Refused sec c.db env raw → ∀ more env', env.now ≤ env'.now →
        Refused sec (c.exec more).db env' raw) ∧
      ∀ u t reqs, Issuable sec c.db u t reqs →
        (activeAt ((Machine.Config.quiet (keys sec) c.db).exec
          (Machine.together (reqs.map (createKeyOf u)))).db u t).length =
            (activeAt c.db u t).length + reqs.length := by
  intro c
  refine ⟨fun u k t hk hpast => ?_, fun env raw hrefused more env' hnow => ?_, fun u t reqs =>
    length_of_together⟩
  · have hstart : (keyQuota sec u).count t s + (keyQuota sec u).waiting (.quiet _ s) ≤
        (keyQuota sec u).cap + k := (hcap u t).trans (Nat.le_add_right ..)
    have hle := (keyQuota sec u).count_le hstart hk hpast
    exact (Nat.le_add_right ..).trans hle
  · exact refused_exec (distinct_exec hdistinct evs) hrefused hnow more

/-- Kim's request for a key, with what is drawn for it. -/
def kimAsks (n : Nat) : Env × ApiKeyCreate :=
  ({ Office.env with tokenHex := .ofList (List.replicate n 'a') },
    { name := ⟨"robot", by decide⟩, scopes := ["trips:read"] })

/-- Eleven requests of Kim's at once leave eleven keys. -/
theorem keys_under_overlap_kim :
    (activeAt ((Machine.Config.quiet (keys Office.sec) Office.store).exec
      (Machine.together (((List.range 11).map kimAsks).map (createKeyOf 1)))).db 1 0).length =
        11 := by
  have hnone : Office.store.apiKeys.rows = [] := rfl
  have hcap : ∀ u t, (activeAt Office.store u t).length ≤ maxActiveKeys := by
    intro u t
    simp [activeAt, hnone]
  have hdistinct : Distinct Office.store := fun i j a b hi => by
    simp [Table.get_of_rows_nil hnone] at hi
  obtain ⟨-, -, htogether⟩ := keys_under_overlap Office.sec hcap hdistinct []
  have hall : Issuable Office.sec Office.store 1 0 ((List.range 11).map kimAsks) :=
    { user := by decide +kernel
      scopes := by decide +kernel
      name := by decide +kernel
      room := by decide +kernel
      lasting := by decide +kernel
      fresh := fun p _ k key hk => by simp [Table.get_of_rows_nil hnone] at hk
      distinct := by decide +kernel }
  exact (htogether 1 0 _ hall).trans rfl

end Biztrip.Accounts
