import Biztrip.Edits.Serial

/-!
# Two edits at a time

What holds while two requests edit a report step by step (`Good`): until the first
commits, both see the store they have started from; after that, the other sees what the
first has left, apart from what it has read or summed before. Locks keep the versions
of both off each other's rows.
-/

namespace Biztrip.Edits

open Biztrip.Lib Expenses Desk

variable {s t : Store} {r : EditRequest} {e e' : Edit} {item item' : Option (Version ExpenseItem)}
  {report report' : Option (Version ExpenseReport)} {total : Krw} {sight sight' : Sight}

/-! ## One request -/

/-- The statement on the items has left `item` on the store `t`. -/
def Ran (t : Store) (r : EditRequest) (e : Edit) (item : Option (Version ExpenseItem)) : Prop :=
  ∃ key, e.item.run key r.env.txnNow Fault.staleData t.items = .ok item

/-- The sum, with `item` laid over `t`. -/
def Sums (t : Store) (e : Edit) (item : Option (Version ExpenseItem)) (total : Krw) : Prop :=
  recalcTotal { t with items := t.items.overlay item } e.reportId = .ok total

/-- The statement on the report has left `report` on `t`. -/
def Stored (t : Store) (r : EditRequest) (e : Edit) (total : Krw)
    (report : Option (Version ExpenseReport)) : Prop :=
  ∃ key, (RowWrite.update e.reportId e.report { e.report with totalAmountKrw := total }).run key
    r.env.txnNow Fault.staleData t.reports = .ok report

/-- What was read: the store `s` at the start, or already the store `t`. -/
def Saw (s t : Store) (r : EditRequest) (e : Edit) : Sight → Prop
  | .atRead => r.read t = .ok e
  | _ => r.read s = .ok e

/-- What was summed: with nothing of the other request, over `s`, else over `t`. -/
def Totalled (s t : Store) (r : EditRequest) (e : Edit) (item : Option (Version ExpenseItem))
    (total : Krw) : Sight → Prop
  | .nothing => Ran s r e item ∧ Sums s e item total
  | _ => Sums t e item total

/-- What is known of a request in a phase, if both started from `s` and `t` is committed. -/
def Known (s t : Store) (r : EditRequest) : Phase → Prop
  | .read e sight => Saw s t r e sight ∧ sight ≠ .atSum
  | .flushed e item sight => Saw s t r e sight ∧ sight ≠ .atSum ∧ Ran t r e item
  | .summed e item total sight =>
    Saw s t r e sight ∧ Ran t r e item ∧ Totalled s t r e item total sight
  | .written e item report sight =>
    Saw s t r e sight ∧ Ran t r e item ∧
      ∃ total, Totalled s t r e item total sight ∧ Stored t r e total report
  | _ => True

/-! ## Both -/

namespace Phase

/-- What the request has found of the other, once it has read. -/
def sight? : Phase → Option Sight
  | .read _ sight | .flushed _ _ sight | .summed _ _ _ sight | .written _ _ _ sight
  | .committed _ _ sight => some sight
  | _ => none

/-- The row that the request has inserted, committed or not. -/
def inserted? : Phase → Option (Version ExpenseItem)
  | .flushed e item _ | .summed e item _ _ | .written e item _ _ | .committed e item _ =>
    if inserts e.item then item else none
  | _ => none

/-- The version that was summed without the other request. -/
def blind? : Phase → Option (Version ExpenseItem)
  | .summed _ item _ .nothing | .written _ item _ .nothing => item
  | _ => none

end Phase

/-- Two new items do not take the same card transaction. -/
def Unshared (a b : Option (Version ExpenseItem)) : Prop :=
  ∀ k row k' row' x, a = some (k, some row) → b = some (k', some row') →
    row.reportId = row'.reportId → row.cardTransactionId = some x →
      row'.cardTransactionId ≠ some x

/-- Versions that are locked at the same time are of different rows. -/
def Disjoint {ρ : Type} (a b : Option (Version ρ)) : Prop :=
  ∀ v v', a = some v → b = some v' → v.1 ≠ v'.1

/-- The keys handed out to new items, from `n` up to `q`. -/
structure Keys (n : Int) (a b : Option (Version ExpenseItem)) (q : Int) : Prop where
  count : q = n + (if a.isSome then 1 else 0) + (if b.isSome then 1 else 0)
  left : ∀ v, a = some v → n ≤ v.1 ∧ v.1 < q
  right : ∀ v, b = some v → n ≤ v.1 ∧ v.1 < q
  apart : Disjoint a b

/-- The store after a commit over `t`. -/
def committed (t : Store) (item : Option (Version ExpenseItem))
    (report : Option (Version ExpenseReport)) : Store :=
  { t with items := t.items.overlay item, reports := t.reports.overlay report }

theorem Disjoint.symm {ρ : Type} {a b : Option (Version ρ)} (h : Disjoint a b) : Disjoint b a :=
  fun v v' hv hv' he => h v' v hv' hv he.symm

theorem Unshared.symm {a b : Option (Version ExpenseItem)} (h : Unshared a b) : Unshared b a := by
  intro k row k' row' x hb ha hreport hx hx'
  exact h k' row' k row x ha hb hreport.symm hx' hx

theorem Keys.symm {n q : Int} {a b : Option (Version ExpenseItem)} (h : Keys n a b q) :
    Keys n b a q where
  count := by
    rw [h.count]
    omega
  left := h.right
  right := h.left
  apart := h.apart.symm

/-- The next key of the sequence goes to the row that a request inserts. -/
theorem Keys.insert {n q : Int} {b : Option (Version ExpenseItem)} (h : Keys n none b q)
    (v : Option ExpenseItem) : Keys n (some (q, v)) b (q + 1) where
  count := by
    rw [h.count]
    simp only [Option.isSome_none, Option.isSome_some, Bool.false_eq_true, if_true, if_false]
    omega
  left := by
    rintro _ ⟨⟩
    have hc := h.count
    refine ⟨?_, Int.lt_succ q⟩
    show n ≤ q
    cases b <;> simp at hc <;> omega
  right := by
    intro v' hv'
    have := h.right v' hv'
    omega
  apart := by
    rintro _ v' ⟨⟩ hv'
    have := (h.right v' hv').2
    show q ≠ v'.1
    omega

/-! ## The turn of one request -/

/-- Request `i` is to take a step. -/
structure Turn (s : Store) (req : Bool → EditRequest) (c : Config) (i : Bool) : Prop where
  known : Known s c.db (req i) (c.phase i)
  pending : (c.phase i).isCommitted = false
  same : c.otherCommitted i = false → c.db = s
  nothing : c.otherCommitted i = false → ∀ x, (c.phase i).sight? = some x → x = .nothing
  items : Disjoint (c.phase i).item? (c.phase !i).item?
  reports : Disjoint (c.phase i).report? (c.phase !i).report?
  unshared : Unshared (c.phase i).inserted? (c.phase !i).inserted?
  keys : Keys s.items.next (c.phase i).inserted? (c.phase !i).inserted? c.seq
  below : ∀ v, (c.phase !i).item? = some v → v.1 < c.seq
  taken : ∀ k row, (c.phase !i).inserted? = some (k, some row) →
    (c.phase !i).item? = some (k, some row) ∨ c.db.items.get k = some row
  /-- Who has read after the other's commit inserts after it. -/
  later : (c.phase i).sight? = some .atRead → ∀ v v', (c.phase i).inserted? = some v →
    (c.phase !i).inserted? = some v' → v'.1 < v.1

section
variable {req : Bool → EditRequest} {c : Config} {i : Bool} {p : Phase}

@[simp] theorem enter_self : (c.enter i p).phase i = p := Function.update_self ..

@[simp] theorem enter_other : (c.enter i p).phase (!i) = c.phase !i :=
  Function.update_of_ne (by simp) ..

@[simp] theorem enter_db : (c.enter i p).db = c.db := rfl

@[simp] theorem enter_seq : (c.enter i p).seq = c.seq := rfl

/-- The other request is as it was, and so is the store, if `i` goes into a phase it may be in. -/
theorem Turn.enter (h : Turn s req c i) (hknown : Known s c.db (req i) p)
    (hpending : p.isCommitted = false)
    (hnothing : c.otherCommitted i = false → ∀ x, p.sight? = some x → x = .nothing)
    (hitems : Disjoint p.item? (c.phase !i).item?)
    (hreports : Disjoint p.report? (c.phase !i).report?)
    (hinserted : p.inserted? = (c.phase i).inserted?)
    (hlater : p.sight? = some .atRead →
      (c.phase i).sight? = some .atRead ∨ p.inserted? = none) : Turn s req (c.enter i p) i where
  known := by rwa [enter_self]
  pending := by rwa [enter_self]
  same := by
    unfold Config.otherCommitted
    rw [enter_other]
    exact h.same
  nothing := by
    unfold Config.otherCommitted
    rw [enter_other, enter_self]
    exact hnothing
  items := by rwa [enter_self, enter_other]
  reports := by rwa [enter_self, enter_other]
  unshared := by
    rw [enter_self, enter_other, hinserted]
    exact h.unshared
  keys := by
    rw [enter_self, enter_other, hinserted]
    exact h.keys
  below := by
    rw [enter_other]
    exact h.below
  taken := by
    rw [enter_other]
    exact h.taken
  later := by
    rw [enter_self, enter_other]
    intro hread v v' hv hv'
    rcases hlater hread with hsight | hnone
    · rw [hinserted] at hv
      exact h.later hsight v v' hv hv'
    · rw [hnone] at hv
      cases hv

theorem disjoint_none {ρ : Type} {b : Option (Version ρ)} : Disjoint none b := nofun

theorem unshared_none {b : Option (Version ExpenseItem)} : Unshared none b := by
  intro k row k' row' x ha
  cases ha

/-- What becomes of the turn. -/
inductive Taken (s : Store) (req : Bool → EditRequest) (c : Config) (i : Bool) : Config → Prop where
  | waits : Taken s req c i c
  | fails {c' : Config} (fault : Fault) (phase : c'.phase i = .failed fault) : Taken s req c i c'
  | enters {c' : Config} (turn : Turn s req c' i) (db : c'.db = c.db)
    (other : c'.phase (!i) = c.phase !i)
    (blind : c.otherCommitted i = true →
      (c'.phase i).blind? = none ∨ (c'.phase i).blind? = (c.phase i).blind?) : Taken s req c i c'
  | commits {e : Edit} {item : Option (Version ExpenseItem)}
    {report : Option (Version ExpenseReport)} {sight : Sight}
    (phase : c.phase i = .written e item report sight) :
    Taken s req c i (c.commit i e item report sight)

theorem Turn.read (h : Turn s req c i) (hp : c.phase i = .idle) :
    Taken s req c i (c.read (req i) i) := by
  unfold Config.read
  rcases hread : (req i).read c.db with fault | e
  · exact .fails fault enter_self
  · refine .enters (h.enter ?_ rfl ?_ disjoint_none disjoint_none (by rw [hp]; rfl)
      fun _ => .inr rfl) rfl enter_other ?_
    · cases hoc : c.otherCommitted i with
      | true => exact ⟨hread, by decide⟩
      | false =>
        rw [h.same hoc] at hread
        exact ⟨hread, by decide⟩
    · intro hoc x hx
      rw [hoc] at hx
      exact (Option.some.inj hx).symm
    · intro _
      rw [enter_self]
      exact .inl rfl

/-- A statement that does not wait writes a row that the other has not written. -/
theorem disjoint_of_run {key now : Int} {w : RowWrite ExpenseItem} {t : Table ExpenseItem}
    {o : Option (Version ExpenseItem)} (hwaits : waits w o = false)
    (hrun : w.run key now Fault.staleData t = .ok item) (hbelow : ∀ v, o = some v → v.1 < key) :
    Disjoint item o := by
  rintro v v' rfl rfl
  cases w with
  | insert row =>
    rw [RowWrite.run_insert, Except.ok.injEq, Option.some.injEq] at hrun
    have := hbelow v' rfl
    rw [← hrun]
    show key ≠ v'.1
    omega
  | update k old new =>
    obtain ⟨hno, cur, -, rfl⟩ := RowWrite.run_update_eq_some.mp hrun
    simpa [waits, hno] using hwaits
  | delete k =>
    obtain ⟨-, rfl⟩ := RowWrite.run_delete_eq_some.mp hrun
    simpa [waits] using hwaits

/-- A new item that is checked and does not wait has a card transaction of its own. -/
theorem unshared_of_check {key : Int} {row : ExpenseItem} {a b : Option (Version ExpenseItem)}
    (hwaits : waits (.insert row) a = false) (hcheck : t.check (.item (.insert row)) = .ok ())
    (htaken : ∀ k row', b = some (k, some row') → a = some (k, some row') ∨
      t.items.get k = some row') : Unshared (some (key, some row)) b := by
  rintro _ _ k' row' x ⟨⟩ hb hreport hx hx'
  rcases htaken k' row' hb with ha | hget
  · rw [ha] at hwaits
    simp [waits, hx, hx', hreport] at hwaits
  · obtain ⟨_, hunique, -⟩ := bind_eq_ok.mp hcheck
    have hfree := whenE_eq_ok.mp hunique (by rw [hx]; exact Option.some_ne_none x)
    have hne := not_referenced (guardE_eq_ok.mp hfree) hget
    exact hne (by rw [hreport, hx, hx'])

theorem Turn.flush (h : Turn s req c i) (hp : c.phase i = .read e sight) :
    Taken s req c i (c.flush (req i) i e sight) := by
  unfold Config.flush
  by_cases hwaits : waits e.item (c.phase !i).item? = true
  · rw [if_pos hwaits]
    exact .waits
  rw [if_neg hwaits]
  rw [Bool.not_eq_true] at hwaits
  have hknown := h.known
  have hkeys := h.keys
  rw [hp] at hknown hkeys
  split
  · next fault _ => exact .fails fault enter_self
  next item hflush =>
  obtain ⟨_, hcheck, hrun⟩ := bind_eq_ok.mp hflush
  refine .enters ⟨?_, ?_, ?_, ?_, ?_, ?_, ?_, ?_, ?_, ?_, ?_⟩ rfl enter_other ?_
  · rw [enter_self]
    exact ⟨hknown.1, hknown.2, _, hrun⟩
  · rw [enter_self]
    rfl
  · unfold Config.otherCommitted
    rw [enter_other]
    exact h.same
  · unfold Config.otherCommitted
    rw [enter_other, enter_self]
    intro hoc x hx
    exact h.nothing hoc x (by rw [hp]; exact hx)
  · rw [enter_self, enter_other]
    exact disjoint_of_run hwaits hrun h.below
  · rw [enter_self]
    exact disjoint_none
  · rw [enter_self, enter_other]
    show Unshared (if inserts e.item then item else none) _
    cases hitem : e.item with
    | insert row =>
      rw [hitem] at hwaits hcheck hrun
      rw [RowWrite.run_insert, Except.ok.injEq] at hrun
      rw [← hrun]
      exact unshared_of_check hwaits hcheck h.taken
    | _ => exact unshared_none
  · rw [enter_self, enter_other]
    show Keys s.items.next (if inserts e.item then item else none) _
      (if inserts e.item then c.seq + 1 else c.seq)
    cases hitem : e.item with
    | insert row =>
      rw [hitem, RowWrite.run_insert, Except.ok.injEq] at hrun
      rw [← hrun]
      exact hkeys.insert _
    | _ => exact hkeys
  · rw [enter_other]
    intro v hv
    have := h.below v hv
    show v.1 < (if inserts e.item then c.seq + 1 else c.seq)
    split <;> omega
  · rw [enter_other]
    exact h.taken
  · rw [enter_self, enter_other]
    intro _ v v' hv hv'
    have hv : (if inserts e.item then item else none) = some v := hv
    have hlt := (hkeys.right v' hv').2
    cases hitem : e.item with
    | insert row =>
      rw [hitem, RowWrite.run_insert, Except.ok.injEq] at hrun
      rw [hitem, ← hrun] at hv
      obtain rfl := Option.some.inj hv
      exact hlt
    | _ =>
      rw [hitem] at hv
      cases hv
  · intro _
    rw [enter_self]
    exact .inl rfl

theorem Turn.sum (h : Turn s req c i) (hp : c.phase i = .flushed e item sight) :
    Taken s req c i (c.sum i e item sight) := by
  unfold Config.sum
  obtain ⟨hsaw, hsight, hran⟩ : Saw s c.db (req i) e sight ∧ sight ≠ .atSum ∧
      Ran c.db (req i) e item := by
    have := h.known
    rwa [hp] at this
  have hitems := h.items
  rw [hp] at hitems
  rcases hsum : recalcTotal (c.visible item) e.reportId with fault | total
  · exact .fails fault enter_self
  refine .enters (h.enter ?_ rfl ?_ hitems disjoint_none (by rw [hp]; rfl) ?_) rfl enter_other ?_
  · cases hoc : c.otherCommitted i with
    | true =>
      cases sight with
      | nothing => exact ⟨hsaw, hran, hsum⟩
      | atSum => exact absurd rfl hsight
      | atRead => exact ⟨hsaw, hran, hsum⟩
    | false =>
      obtain rfl := h.nothing hoc sight (by rw [hp]; rfl)
      have hdb := h.same hoc
      rw [hdb] at hran
      have hsums : Sums s e item total := by
        unfold Sums
        rw [← hdb]
        exact hsum
      refine ⟨hsaw, ?_, hran, hsums⟩
      rwa [hdb]
  · intro hoc x hx
    obtain rfl := h.nothing hoc sight (by rw [hp]; rfl)
    rw [hoc] at hx
    exact (Option.some.inj hx).symm
  · intro hsight'
    rw [hp]
    cases sight with
    | atRead => exact .inl rfl
    | nothing | atSum =>
      have hsight' := Option.some.inj hsight'
      split at hsight' <;> cases hsight'
  · intro hoc
    rw [enter_self, hoc]
    cases sight with
    | nothing => exact .inl rfl
    | atSum => exact .inl rfl
    | atRead => exact .inl rfl

theorem Turn.write (h : Turn s req c i) (hp : c.phase i = .summed e item total sight) :
    Taken s req c i (c.write (req i) i e item total sight) := by
  unfold Config.write
  obtain ⟨hsaw, hran, htotalled⟩ : Saw s c.db (req i) e sight ∧ Ran c.db (req i) e item ∧
      Totalled s c.db (req i) e item total sight := by
    have := h.known
    rwa [hp] at this
  have hitems := h.items
  rw [hp] at hitems
  dsimp only
  split
  · exact .waits
  next hwaits =>
  split
  · next fault _ => exact .fails fault enter_self
  next report hrun =>
  refine .enters (h.enter ⟨hsaw, hran, total, htotalled, _, hrun⟩ rfl ?_ hitems ?_
    (by rw [hp]; rfl) fun hsight => .inl (by rw [hp]; exact hsight)) rfl enter_other ?_
  · intro hoc x hx
    exact h.nothing hoc x (by rw [hp]; exact hx)
  · rintro v v' hv hv'
    have hv : report = some v := hv
    subst hv
    obtain ⟨hchanges, cur, -, rfl⟩ := RowWrite.run_update_eq_some.mp hrun
    intro hkey
    refine hwaits ⟨fun htotal => hchanges ?_, ?_⟩
    · rw [htotal]
    · rw [hv', Option.any_some]
      simpa using hkey.symm
  · intro _
    rw [enter_self, hp]
    refine .inr ?_
    cases sight <;> rfl

/-- A request waits, fails, goes on, or commits. -/
theorem Turn.step (h : Turn s req c i) : Taken s req c i (c.step req i) := by
  unfold Config.step
  split
  · next hp => exact h.read hp
  · next hp => exact h.flush hp
  · next hp => exact h.sum hp
  · next hp => exact h.write hp
  · next hp => exact .commits hp
  · exact .waits
  · exact .waits

end

/-! ## The commit of the other request -/

/-- A statement leaves the same version after the commit of another row. -/
theorem Ran.after (h : Ran s r e' item') (hread : r.read s = .ok e')
    (hitems : Disjoint item item') :
    Ran (committed s item report) r e' item' := by
  obtain ⟨key, hrun⟩ := h
  have hget : ∀ k v, item' = some (k, v) → (s.items.overlay item).get k = s.items.get k := by
    rintro k v rfl
    cases item with
    | none => rfl
    | some a =>
      rw [Table.get_overlay_some]
      exact if_neg (hitems a _ rfl rfl).symm
  refine ⟨key, ?_⟩
  show e'.item.run key r.env.txnNow Fault.staleData (s.items.overlay item) = .ok item'
  have hdecided := (decided_of_read hread).1
  cases hitem : e'.item with
  | insert row =>
    rw [hitem] at hrun
    exact hrun
  | update k old new =>
    rw [hitem] at hrun
    by_cases hno : new = old
    · subst hno
      rw [RowWrite.run_update_same] at hrun ⊢
      exact hrun
    · obtain ⟨cur, hcur, hv⟩ := (RowWrite.run_update_eq_ok hno).mp hrun
      refine (RowWrite.run_update_eq_ok hno).mpr ⟨cur, ?_, hv⟩
      rw [hget _ _ hv, hcur]
  | delete k =>
    rw [hitem, RowWrite.run_delete, Except.ok.injEq] at hrun
    generalize r.call = call at hdecided
    cases hdecided with
    | delete get =>
      cases hitem
      rw [get, Option.map_some] at hrun
      rw [RowWrite.run_delete, hget _ _ hrun.symm, get, Option.map_some, hrun]
    | add | update => cases hitem

theorem Stored.after (h : Stored s r e' total report') (hreports : Disjoint report report') :
    Stored (committed s item report) r e' total report' := by
  obtain ⟨key, hrun⟩ := h
  refine ⟨key, ?_⟩
  show RowWrite.run key r.env.txnNow Fault.staleData (s.reports.overlay report) _ = .ok report'
  by_cases hsame : { e'.report with totalAmountKrw := total } = e'.report
  · rw [hsame, RowWrite.run_update_same] at hrun ⊢
    exact hrun
  · obtain ⟨cur, hcur, rfl⟩ := (RowWrite.run_update_eq_ok hsame).mp hrun
    refine (RowWrite.run_update_eq_ok hsame).mpr ⟨cur, ?_, rfl⟩
    cases report with
    | none => exact hcur
    | some a =>
      rw [Table.get_overlay_some, if_neg (hreports a _ rfl rfl).symm, hcur]

theorem Known.after {p : Phase} (h : Known s s r p)
    (hnothing : ∀ x, p.sight? = some x → x = .nothing) (hitems : Disjoint item p.item?)
    (hreports : Disjoint report p.report?) : Known s (committed s item report) r p := by
  cases p with
  | idle | committed | failed => trivial
  | read e sight =>
    obtain rfl := hnothing sight rfl
    exact h
  | flushed e item' sight =>
    obtain rfl := hnothing sight rfl
    exact ⟨h.1, h.2.1, h.2.2.after h.1 hitems⟩
  | summed e item' total sight =>
    obtain rfl := hnothing sight rfl
    exact ⟨h.1, h.2.1.after h.1 hitems, h.2.2⟩
  | written e item' report' sight =>
    obtain rfl := hnothing sight rfl
    obtain ⟨hsaw, hran, total, htotalled, hstored⟩ := h
    exact ⟨hsaw, hran.after hsaw hitems, total, htotalled, hstored.after hreports⟩

/-! ## A step -/

section
variable {req : Bool → EditRequest} {c : Config} {i : Bool} {p : Phase}

theorem item_of_inserted (hp : p.isCommitted = false) {v : Version ExpenseItem}
    (h : p.inserted? = some v) : p.item? = some v := by
  cases p with
  | committed => cases hp
  | idle | read | failed => cases h
  | flushed e item | summed e item | written e item =>
    have h : (if inserts e.item then item else none) = some v := h
    split at h
    · exact h
    · cases h

theorem disjoint_blind {a : Option (Version ExpenseItem)} (h : Disjoint a p.item?) :
    Disjoint a p.blind? := by
  cases p with
  | summed e item total sight | written e item total sight =>
    cases sight with
    | nothing => exact h
    | atSum | atRead => exact disjoint_none.symm
  | _ => exact disjoint_none.symm

theorem Ran.item_lt {q : Int} (h : Ran s r e item) (hn : s.items.next ≤ q)
    (hkeys : ∀ v, (if inserts e.item then item else none) = some v → v.1 < q)
    {v : Version ExpenseItem} (hv : item = some v) : v.1 < q := by
  subst hv
  obtain ⟨key, hrun⟩ := h
  cases hitem : e.item with
  | insert row =>
    rw [hitem] at hkeys
    exact hkeys v rfl
  | update k old new =>
    rw [hitem] at hrun
    obtain ⟨-, cur, hcur, rfl⟩ := RowWrite.run_update_eq_some.mp hrun
    exact Int.lt_of_lt_of_le (Table.get_lt_next hcur) hn
  | delete k =>
    rw [hitem] at hrun
    obtain ⟨hsome, rfl⟩ := RowWrite.run_delete_eq_some.mp hrun
    obtain ⟨cur, hcur⟩ := Option.isSome_iff_exists.mp hsome
    exact Int.lt_of_lt_of_le (Table.get_lt_next hcur) hn

/-- The versions of a request that saw nothing of the other are below the sequence. -/
theorem Known.item_lt {b : Option (Version ExpenseItem)} {q : Int} (h : Known s s r p)
    (hkeys : Keys s.items.next p.inserted? b q) {v : Version ExpenseItem}
    (hv : p.item? = some v) : v.1 < q := by
  have hn : s.items.next ≤ q := by
    have := hkeys.count
    split at this <;> split at this <;> omega
  have hleft := fun v hv => (hkeys.left v hv).2
  cases p with
  | idle | read | committed | failed => cases hv
  | flushed e item => exact h.2.2.item_lt hn hleft hv
  | summed e item => exact h.2.1.item_lt hn hleft hv
  | written e item => exact h.2.1.item_lt hn hleft hv

theorem forall_of_turns {P : Bool → Prop} (i : Bool) (hi : P i) (ho : P !i) : ∀ k, P k := by
  intro k
  cases i <;> cases k
  · exact hi
  · exact ho
  · exact ho
  · exact hi

/-- As long as nobody has committed, a step of one leaves the other where it was. -/
theorem Turn.other {c' : Config} (hturns : ∀ i, Turn s req c i) (h' : Turn s req c' i)
    (hdb : c.db = s) (hdb' : c'.db = s) (hother : c'.phase (!i) = c.phase !i) :
    Turn s req c' (!i) where
  known := by
    have hknown := (hturns !i).known
    rw [hdb] at hknown
    rw [hother, hdb']
    exact hknown
  pending := by
    rw [hother]
    exact (hturns !i).pending
  same := fun _ => hdb'
  nothing := by
    intro _ x hx
    rw [hother] at hx
    refine (hturns !i).nothing ?_ x hx
    unfold Config.otherCommitted
    rw [Bool.not_not]
    exact (hturns i).pending
  items := by
    rw [Bool.not_not]
    exact h'.items.symm
  reports := by
    rw [Bool.not_not]
    exact h'.reports.symm
  unshared := by
    rw [Bool.not_not]
    exact h'.unshared.symm
  keys := by
    rw [Bool.not_not]
    exact h'.keys.symm
  below := by
    rw [Bool.not_not]
    have hknown := h'.known
    rw [hdb'] at hknown
    exact fun v hv => hknown.item_lt h'.keys hv
  taken := by
    rw [Bool.not_not]
    exact fun k row hrow => .inl (item_of_inserted h'.pending hrow)
  later := by
    intro hsight
    rw [hother] at hsight
    refine absurd ((hturns !i).nothing ?_ _ hsight) (by decide)
    unfold Config.otherCommitted
    rw [Bool.not_not]
    exact (hturns i).pending

inductive Good (s : Store) (req : Bool → EditRequest) : Config → Prop where
  | failed {c : Config} (i : Bool) (fault : Fault) (phase : c.phase i = .failed fault) :
    Good s req c
  /-- Nobody has committed. -/
  | neither {c : Config} (db : c.db = s) (turns : ∀ i, Turn s req c i) : Good s req c
  /-- Request `i` has committed, the other has not. -/
  | first {c : Config} {i : Bool} {e : Edit} {item : Option (Version ExpenseItem)}
    {report : Option (Version ExpenseReport)}
    (known : Known s s (req i) (.written e item report .nothing))
    (phase : c.phase i = .committed e item .nothing) (db : c.db = committed s item report)
    (turn : Turn s req c (!i)) (blind : Disjoint item (c.phase !i).blind?) : Good s req c
  /-- Both have committed, request `i` before the other. -/
  | both {c : Config} {i : Bool} {e e' : Edit} {item item' : Option (Version ExpenseItem)}
    {report report' : Option (Version ExpenseReport)} {sight : Sight}
    (known : Known s s (req i) (.written e item report .nothing))
    (phase : c.phase i = .committed e item .nothing)
    (known' : Known s (committed s item report) (req !i) (.written e' item' report' sight))
    (phase' : c.phase (!i) = .committed e' item' sight)
    (db : c.db = committed (committed s item report) item' report')
    (blind : Disjoint item (Phase.written e' item' report' sight).blind?)
    (unshared : Unshared (c.phase i).inserted? (c.phase !i).inserted?)
    (keys : Keys s.items.next (c.phase i).inserted? (c.phase !i).inserted? c.seq)
    (later : sight = .atRead → ∀ v v', (c.phase !i).inserted? = some v →
      (c.phase i).inserted? = some v' → v'.1 < v.1) : Good s req c

theorem Good.start (s : Store) (req : Bool → EditRequest) : Good s req (.start s) := by
  refine .neither rfl fun i => ?_
  have hnone : ((Config.start s).phase i).inserted? = none := rfl
  have hkeys : Keys s.items.next none none (Config.start s).seq :=
    ⟨by simp [Config.start], fun _ hv => (nomatch hv), fun _ hv => (nomatch hv), disjoint_none⟩
  refine ⟨trivial, rfl, fun _ => rfl, fun _ _ hx => ?_, disjoint_none, disjoint_none,
    unshared_none, hkeys, fun _ hv => ?_, fun _ _ hrow => ?_, fun _ _ _ hv => ?_⟩
  · cases hx
  · cases hv
  · cases hrow
  · cases hv

/-- The first commit. -/
theorem Good.commit_first (hdb : c.db = s) (h : ∀ i, Turn s req c i)
    {item : Option (Version ExpenseItem)} {report : Option (Version ExpenseReport)}
    (hp : c.phase i = .written e item report sight) :
    Good s req (c.commit i e item report sight) := by
  have hoc : c.otherCommitted i = false := (h !i).pending
  obtain rfl := (h i).nothing hoc sight (by rw [hp]; rfl)
  have hknown := (h i).known
  rw [hp, hdb] at hknown
  have hitems := (h i).items
  have hreports := (h i).reports
  have hunshared := (h i).unshared
  have hkeys := (h i).keys
  rw [hp] at hitems hreports hunshared hkeys
  have hother := (h !i).known
  rw [hdb] at hother
  have hnothing : ∀ x, (c.phase !i).sight? = some x → x = .nothing := by
    refine (h !i).nothing ?_
    unfold Config.otherCommitted
    rw [Bool.not_not]
    exact (h i).pending
  have hdb' : (c.commit i e item report .nothing).db = committed s item report := by
    rw [← hdb]
    rfl
  have hself : (c.commit i e item report .nothing).phase i = .committed e item .nothing :=
    enter_self
  have hphase : (c.commit i e item report .nothing).phase (!i) = c.phase !i := enter_other
  have hoc' : (c.commit i e item report .nothing).otherCommitted (!i) = true := by
    unfold Config.otherCommitted
    rw [Bool.not_not, hself]
    rfl
  refine .first hknown hself hdb' ?_ (hphase ▸ disjoint_blind hitems)
  exact
    { known := by
        rw [hphase, hdb']
        exact hother.after hnothing hitems hreports
      pending := by
        rw [hphase]
        exact (h !i).pending
      same := fun hfalse => absurd (hfalse.symm.trans hoc') Bool.false_ne_true
      nothing := fun hfalse => absurd (hfalse.symm.trans hoc') Bool.false_ne_true
      items := by
        rw [Bool.not_not, hself]
        exact disjoint_none.symm
      reports := by
        rw [Bool.not_not, hself]
        exact disjoint_none.symm
      unshared := by
        rw [Bool.not_not, hself, hphase]
        exact hunshared.symm
      keys := by
        rw [Bool.not_not, hself, hphase]
        exact hkeys.symm
      below := by
        rw [Bool.not_not, hself]
        intro v hv
        cases hv
      taken := by
        rw [Bool.not_not, hself, hdb']
        intro k row hrow
        have hrow : (if inserts e.item then item else none) = some (k, some row) := hrow
        split at hrow
        · right
          show (s.items.overlay item).get k = some row
          rw [hrow, Table.get_overlay_some, if_pos rfl]
        · cases hrow
      later := by
        rw [hphase]
        exact fun hsight => absurd (hnothing _ hsight) (by decide) }

theorem step_other : (c.step req i).phase (!i) = c.phase !i := by
  unfold Config.step
  split
  · unfold Config.read
    split <;> exact enter_other
  · unfold Config.flush
    split
    · rfl
    · split <;> exact enter_other
  · unfold Config.sum
    split <;> exact enter_other
  · unfold Config.write
    dsimp only
    split
    · rfl
    · split <;> exact enter_other
  · exact enter_other
  · rfl
  · rfl

theorem step_of_committed (hp : c.phase i = .committed e item sight) : c.step req i = c := by
  unfold Config.step
  rw [hp]

theorem eq_or_eq_not (i j : Bool) : i = j ∨ i = !j := by
  cases i <;> cases j <;> decide

theorem Good.step (h : Good s req c) (i : Bool) : Good s req (c.step req i) := by
  cases h with
  | failed j fault phase =>
    refine .failed j fault ?_
    rcases eq_or_eq_not j i with rfl | rfl
    · unfold Config.step
      rw [phase]
      exact phase
    · rw [step_other, phase]
  | neither db turns =>
    have htaken := (turns i).step
    generalize c.step req i = c' at htaken
    cases htaken with
    | waits => exact .neither db turns
    | fails fault phase => exact .failed i fault phase
    | enters turn db' other _ =>
      have hdb' : c'.db = s := db'.trans db
      exact .neither hdb' (forall_of_turns i turn (Turn.other turns turn db hdb' other))
    | commits phase => exact Good.commit_first db turns phase
  | @first j e item report known phase db turn blind =>
    rcases eq_or_eq_not i j with rfl | rfl
    · rw [step_of_committed phase]
      exact .first known phase db turn blind
    · have htaken := turn.step
      generalize c.step req (!j) = c' at htaken
      cases htaken with
      | waits => exact .first known phase db turn blind
      | fails fault phase => exact .failed _ fault phase
      | enters turn' db' other blind' =>
        rw [Bool.not_not] at other
        refine .first known (other.trans phase) (db'.trans db) turn' ?_
        have hoc : c.otherCommitted (!j) = true := by
          unfold Config.otherCommitted
          rw [Bool.not_not, phase]
          rfl
        rcases blind' hoc with hnone | hsame
        · rw [hnone]
          exact disjoint_none.symm
        · rw [hsame]
          exact blind
      | @commits e' item' report' sight phase' =>
        have hknown := turn.known
        have hunshared := turn.unshared.symm
        have hkeys := turn.keys.symm
        have hlater := turn.later
        rw [phase', db] at hknown
        rw [Bool.not_not, phase'] at hunshared hkeys hlater
        rw [phase'] at blind
        have hphase : (c.commit (!j) e' item' report' sight).phase j = c.phase j := by
          have hother := enter_other (c := { c with db := committed c.db item' report' }) (i := !j)
            (p := .committed e' item' sight)
          rwa [Bool.not_not] at hother
        have hself : (c.commit (!j) e' item' report' sight).phase (!j) =
            .committed e' item' sight := enter_self
        refine .both known (hphase.trans phase) hknown hself ?_ blind ?_ ?_ ?_
        · rw [← db]
          rfl
        · rw [hphase, hself]
          exact hunshared
        · rw [hphase, hself]
          exact hkeys
        · rw [hphase, hself]
          rintro rfl v v' hv hv'
          exact hlater rfl v v' hv hv'
  | @both j e e' item item' report report' sight known phase known' phase' db blind unshared keys
    later =>
    have hsame : c.step req i = c := by
      rcases eq_or_eq_not i j with rfl | rfl
      · exact step_of_committed phase
      · exact step_of_committed phase'
    rw [hsame]
    exact .both known phase known' phase' db blind unshared keys later

theorem Good.exec (turns : List Bool) {c : Config} (h : Good s req c) :
    Good s req (c.exec req turns) := by
  induction turns generalizing c with
  | nil => exact h
  | cons i turns ih => exact ih (h.step i)

end

end Biztrip.Edits
