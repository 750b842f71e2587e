import Biztrip.Edits.Overlap

/-!
# What an edit asks for

A request for an edit, as it arrives, and the row that it finds under its key say by how much it
changes the sum of the report (`change`), and so do two requests of which one has read before
the other has committed (`together`). Where both write over one item, the columns that they send
say whether the row they leave is that of a serial order (`Compatible`). The versions that the
statements of a run leave add up to just that (`includedTotal_ran`, `includedTotal_both`).
-/

namespace Biztrip.Edits

open Biztrip.Lib Expenses Desk

/-! ## Payloads -/

/-- The amount that is sent, as the column stores it. -/
def sentAmount (payload : ExpenseItemUpdate) : Option Krw :=
  payload.amountKrw.val?.bind fun d => Numeric.store? d.toRat

/-- What an item of this amount adds to the sum of its report. -/
def worth (amount : Krw) (isExcluded : Bool) : Int := if isExcluded then 0 else amount.units

/-- The amount of a new item: the one that is sent, else that of the card transaction. -/
def newAmount (s : Store) (payload : ExpenseItemCreate) : Option Krw :=
  (payload.amountKrw <|> payload.cardTransactionId.bind fun x =>
    (s.transactions.get x).map fun t => t.amountKrw.toDecimal).bind
      fun d => Numeric.store? d.toRat

/-- By how much a request changes the sum of its report. -/
def EditCall.change (s : Store) : EditCall → Int
  | .add _ payload => ((newAmount s payload).map Numeric.units).getD 0
  | .update k payload =>
    match s.items.get k with
    | some it =>
      worth ((sentAmount payload).getD it.amountKrw) (payload.isExcluded.val?.getD it.isExcluded) -
        worth it.amountKrw it.isExcluded
    | none => 0
  | .delete k =>
    match s.items.get k with
    | some it => -worth it.amountKrw it.isExcluded
    | none => 0

/-- The item that a request is about. -/
def EditCall.itemId? : EditCall → Option Int
  | .add _ _ => none
  | .update k _ | .delete k => some k

/-- By how much both change it, where the second writes what it sends over what the first has left,
and only the columns that it does not leave as they are in `s`. -/
def together (s : Store) : EditCall → EditCall → Int
  | .update k payload, .update k' payload' =>
    if k' = k then
      match s.items.get k with
      | some it =>
        worth
          (mergeCol it.amountKrw ((sentAmount payload').getD it.amountKrw)
            ((sentAmount payload).getD it.amountKrw))
          (mergeCol it.isExcluded (payload'.isExcluded.val?.getD it.isExcluded)
            (payload.isExcluded.val?.getD it.isExcluded)) -
          worth it.amountKrw it.isExcluded
      | none => 0
    else (EditCall.update k payload).change s + (EditCall.update k' payload').change s
  | call, .delete k =>
    if call.itemId? = some k then (EditCall.delete k).change s
    else call.change s + (EditCall.delete k).change s
  | call, call' => call.change s + call'.change s

/-- `R` of every column of an item, what the one payload sends for it, and what the other does. -/
def EachColumn (R : ∀ {α : Type}, α → Option α → Option α → Prop) (it : ExpenseItem)
    (payload payload' : ExpenseItemUpdate) : Prop :=
  R it.expenseCategoryCode (payload.expenseCategoryCode.map Str.val).val?
      (payload'.expenseCategoryCode.map Str.val).val? ∧
    R it.amountKrw (sentAmount payload) (sentAmount payload') ∧
    R it.memo (payload.memo.map Str.val).column? (payload'.memo.map Str.val).column? ∧
    R it.isExcluded payload.isExcluded.val? payload'.isExcluded.val? ∧
    R it.fundCenterCode (payload.fundCenterCode.map Str.val).column?
      (payload'.fundCenterCode.map Str.val).column? ∧
    R it.costCenterCode (payload.costCenterCode.map Str.val).column?
      (payload'.costCenterCode.map Str.val).column?

/-- If both update one item, the second sends back no column that the first changes; or where both
send a column the second leaves it to the first, and it could have come first: with its change
alone, the sum is not too large. -/
def Compatible (s : Store) : EditCall → EditCall → Prop
  | .update k payload, .update k' payload' =>
    k' = k → ∀ it ∈ s.items.get k,
      EachColumn Kept it payload payload' ∨
        EachColumn Yields it payload payload' ∧
          includedTotal s it.reportId + (EditCall.update k payload').change s ≤ maxReportTotal.coeff
  | _, _ => True

instance {it : ExpenseItem} {payload payload' : ExpenseItemUpdate} :
    Decidable (EachColumn Kept it payload payload') := inferInstanceAs (Decidable (_ ∧ _))

instance {it : ExpenseItem} {payload payload' : ExpenseItemUpdate} :
    Decidable (EachColumn Yields it payload payload') := inferInstanceAs (Decidable (_ ∧ _))

instance {s : Store} : ∀ {call call' : EditCall}, Decidable (Compatible s call call')
  | .update k _, .update k' _ => inferInstanceAs (Decidable (k' = k → ∀ it ∈ s.items.get k, _))
  | .update _ _, .add _ _ | .update _ _, .delete _ | .add _ _, _ | .delete _, _ =>
    inferInstanceAs (Decidable True)

/-! ## What is sent, over an item -/

/-- The item with the columns that are sent. -/
def sentOver (payload : ExpenseItemUpdate) (it : ExpenseItem) : ExpenseItem :=
  { it with
    expenseCategoryCode :=
      (payload.expenseCategoryCode.map Str.val).val?.getD it.expenseCategoryCode
    amountKrw := (sentAmount payload).getD it.amountKrw
    memo := (payload.memo.map Str.val).column?.getD it.memo
    isExcluded := payload.isExcluded.val?.getD it.isExcluded
    fundCenterCode := (payload.fundCenterCode.map Str.val).column?.getD it.fundCenterCode
    costCenterCode := (payload.costCenterCode.map Str.val).column?.getD it.costCenterCode }

variable {s t : Store} {r r' : EditRequest} {e e' : Edit} {it new : ExpenseItem}
  {payload payload' : ExpenseItemUpdate} {item item' : Option (Version ExpenseItem)} {j k : Int}

theorem assignAmount_eq_ok {cur x : Krw} (h : assignAmount cur payload.amountKrw = .ok x) :
    x = (sentAmount payload).getD cur ∧
      ∀ cur', assignAmount cur' payload.amountKrw = .ok ((sentAmount payload).getD cur') := by
  unfold sentAmount
  cases hsent : payload.amountKrw with
  | absent =>
    rw [hsent] at h
    exact ⟨(Except.ok.inj h).symm, fun _ => rfl⟩
  | null =>
    rw [hsent] at h
    cases h
  | value d =>
    rw [hsent] at h
    obtain ⟨_, hnumeric, hstore⟩ := bind_eq_ok.mp h
    have hx : Numeric.store? d.toRat = some x := getE_eq_ok.mp hstore
    have hsent : (Sent.value d).val?.bind (fun d => Numeric.store? d.toRat) = some x := hx
    rw [hsent]
    exact ⟨rfl, fun _ => h⟩

/-- What `update_item` makes of an item, it makes likewise of any. -/
theorem assignItem_over (h : assignItem it payload = .ok new) :
    new = sentOver payload it ∧ ∀ cur, assignItem cur payload = .ok (sentOver payload cur) := by
  obtain ⟨_, hmemo, h⟩ := bind_eq_ok.mp h
  obtain ⟨_, hset, h⟩ := bind_eq_ok.mp h
  obtain ⟨_, hassign, h⟩ := bind_eq_ok.mp h
  obtain ⟨_, hset', h⟩ := bind_eq_ok.mp h
  obtain ⟨hcategory, rfl⟩ := Sent.setRequired_eq_ok.mp hset
  obtain ⟨hexcluded, rfl⟩ := Sent.setRequired_eq_ok.mp hset'
  obtain ⟨rfl, hamount⟩ := assignAmount_eq_ok hassign
  rw [pure_eq_ok, Except.ok.injEq] at h
  refine ⟨?_, fun cur => ?_⟩
  · rw [← h]
    simp only [sentOver, Sent.setNullable_eq, Sent.onto_eq]
  · have hset := Sent.setRequired_eq_ok (e := Fault.integrity (.notNull "expense_category_code"))
      |>.mpr ⟨hcategory, Sent.onto_eq _ cur.expenseCategoryCode⟩
    have hset' := Sent.setRequired_eq_ok (e := Fault.integrity (.notNull "is_excluded"))
      |>.mpr ⟨hexcluded, Sent.onto_eq _ cur.isExcluded⟩
    refine bind_eq_ok.mpr ⟨_, hmemo, bind_eq_ok.mpr ⟨_, hset, bind_eq_ok.mpr ⟨_, hamount _, ?_⟩⟩⟩
    refine bind_eq_ok.mpr ⟨_, hset', ?_⟩
    rw [Sent.setNullable_eq, Sent.setNullable_eq, Sent.setNullable_eq]
    rfl

/-- The row that two updates leave, if the second has come second. -/
theorem merge_of_kept (h : EachColumn Kept it payload payload') :
    merge it (sentOver payload' it) (sentOver payload it) =
      sentOver payload' (sentOver payload it) := by
  obtain ⟨hcategory, hamount, hmemo, hexcluded, hfund, hcost⟩ := h
  simp only [merge, sentOver, mergeCol_same, hcategory.mergeCol_eq, hamount.mergeCol_eq,
    hmemo.mergeCol_eq, hexcluded.mergeCol_eq, hfund.mergeCol_eq, hcost.mergeCol_eq]

/-- The row that two updates leave, if the second could have come first. -/
theorem merge_of_yields (h : EachColumn Yields it payload payload') :
    merge it (sentOver payload' it) (sentOver payload it) =
      sentOver payload (sentOver payload' it) := by
  obtain ⟨hcategory, hamount, hmemo, hexcluded, hfund, hcost⟩ := h
  simp only [merge, sentOver, mergeCol_same, hcategory.mergeCol_eq, hamount.mergeCol_eq,
    hmemo.mergeCol_eq, hexcluded.mergeCol_eq, hfund.mergeCol_eq, hcost.mergeCol_eq]

/-! ## The row of a statement -/

/-- The row a statement writes over or deletes. -/
def Touches (w : RowWrite ExpenseItem) (k : Int) : Prop :=
  match w with
  | .insert _ => False
  | .update m _ _ => k = m
  | .delete m => k = m

/-- A statement leaves the same version wherever its row is the same. -/
theorem Ran.congr {t' : Store} (h : Ran t r e item)
    (hget : ∀ k, Touches e.item k → t'.items.get k = t.items.get k) : Ran t' r e item := by
  obtain ⟨key, hrun⟩ := h
  refine ⟨key, ?_⟩
  cases hitem : e.item with
  | insert row =>
    rw [hitem] at hrun
    exact hrun
  | update k old new =>
    rw [hitem] at hrun hget
    unfold RowWrite.run at hrun ⊢
    dsimp only at hrun ⊢
    rw [hget k rfl]
    exact hrun
  | delete k =>
    rw [hitem] at hrun hget
    rw [RowWrite.run_delete] at hrun ⊢
    rw [hget k rfl]
    exact hrun

/-- What a request does to the item `it` that it has read under `k`. -/
inductive OnRow (r : EditRequest) (e : Edit) (k : Int) (it : ExpenseItem) : Prop where
  | update {payload : ExpenseItemUpdate} {new : ExpenseItem} (call : r.call = .update k payload)
    (item : e.item = .update k it new) (assigned : assignItem it payload = .ok new)
  | delete (call : r.call = .delete k) (item : e.item = .delete k)

theorem onRow_of_read {k : Int} (hread : r.read s = .ok e) (h : Touches e.item k) :
    ∃ it, s.items.get k = some it ∧ it.reportId = e.reportId ∧ OnRow r e k it := by
  have hdecided := (decided_of_read hread).1
  generalize hcall : r.call = call at hdecided
  cases hdecided with
  | add => exact h.elim
  | update get assigned =>
    obtain rfl : k = _ := h
    exact ⟨_, get, rfl, .update hcall rfl assigned⟩
  | delete get =>
    obtain rfl : k = _ := h
    exact ⟨_, get, rfl, .delete hcall rfl⟩

theorem Ran.inserted (h : Ran t r e item) (hitem : e.item = .insert new) :
    ∃ key, item = some (key, some new) := by
  obtain ⟨key, hrun⟩ := h
  rw [hitem, RowWrite.run_insert, Except.ok.injEq] at hrun
  exact ⟨key, hrun.symm⟩

theorem Ran.touches {v : Version ExpenseItem} (h : Ran t r e (some v))
    (hno : inserts e.item = false) : Touches e.item v.1 := by
  obtain ⟨key, hrun⟩ := h
  cases hitem : e.item with
  | insert row =>
    rw [hitem] at hno
    cases hno
  | update k old new =>
    rw [hitem] at hrun
    obtain ⟨-, cur, -, rfl⟩ := RowWrite.run_update_eq_some.mp hrun
    rfl
  | delete k =>
    rw [hitem] at hrun
    obtain ⟨-, rfl⟩ := RowWrite.run_delete_eq_some.mp hrun
    rfl

/-- Who leaves a row there has written over it. -/
theorem OnRow.updated {k : Int} {it cur : ExpenseItem} (h : OnRow r e k it)
    (hget : s.items.get k = some it) (hran : Ran s r e (some (k, some cur))) :
    ∃ payload, r.call = .update k payload ∧ e.item = .update k it cur ∧
      assignItem it payload = .ok cur := by
  obtain ⟨key, hrun⟩ := hran
  cases h with
  | @update payload new hcall hitem hassigned =>
    rw [hitem] at hrun
    obtain ⟨-, cur', hcur', hv⟩ := RowWrite.run_update_eq_some.mp hrun
    rw [hget, Option.some.injEq] at hcur'
    subst hcur'
    rw [merge_loaded, Prod.mk.injEq, Option.some.injEq] at hv
    obtain rfl : cur = new := hv.2
    exact ⟨payload, hcall, hitem, hassigned⟩
  | delete hcall hitem =>
    rw [hitem] at hrun
    cases (RowWrite.run_delete_eq_some.mp hrun).2

/-! ## What the statements leave -/

/-- A store with a version of an item laid over. -/
def laid (s : Store) (item : Option (Version ExpenseItem)) : Store :=
  { s with items := s.items.overlay item }

/-- Versions of different rows add what each adds. -/
theorem includedTotal_laid (h : Disjoint item item') (j : Int) :
    includedTotal (laid (laid s item) item') j =
      includedTotal (laid s item) j + includedTotal (laid s item') j - includedTotal s j := by
  cases item with
  | none =>
    have hnone : laid s none = s := rfl
    rw [hnone]
    omega
  | some v =>
    cases item' with
    | none =>
      have hnone : laid s none = s := rfl
      have hnone' : laid (laid s (some v)) none = laid s (some v) := rfl
      rw [hnone, hnone']
      omega
    | some v' =>
      have hv : includedTotal (laid s (some v)) j = _ := includedTotal_write s v.1 v.2 j
      have hv' : includedTotal (laid s (some v')) j = _ := includedTotal_write s v'.1 v'.2 j
      have hboth : includedTotal (laid (laid s (some v)) (some v')) j = _ :=
        includedTotal_write (laid s (some v)) v'.1 v'.2 j
      have hget : (laid s (some v)).items.get v'.1 = s.items.get v'.1 := by
        show (s.items.overlay (some v)).get v'.1 = _
        rw [Table.get_overlay_some, if_neg (h v v' rfl rfl).symm]
      rw [hget] at hboth
      omega

theorem store_of_storeKrw {column : String} {d : Decimal} {x : Krw}
    (h : storeKrw column d = .ok x) : Numeric.store? d.toRat = some x := by
  obtain ⟨_, -, h⟩ := bind_eq_ok.mp h
  exact getE_eq_ok.mp h

/-- The amount of a new item. -/
theorem add_of_read (hread : r.read s = .ok e) (hitem : e.item = .insert new) :
    ∃ payload, r.call = .add e.reportId payload ∧ newAmount s payload = some new.amountKrw ∧
      new.isExcluded = false ∧ new.reportId = e.reportId := by
  obtain ⟨env, userId, call⟩ := r
  obtain ⟨user, -, hread⟩ := bind_eq_ok.mp hread
  cases call with
  | add reportId payload =>
    obtain ⟨report, -, hread⟩ := bind_eq_ok.mp hread
    obtain ⟨_, -, hread⟩ := bind_eq_ok.mp hread
    obtain ⟨_, -, hread⟩ := bind_eq_ok.mp hread
    obtain ⟨amount, hamount, hread⟩ := bind_eq_ok.mp hread
    obtain ⟨_, -, hread⟩ := bind_eq_ok.mp hread
    obtain ⟨_, -, hread⟩ := bind_eq_ok.mp hread
    obtain ⟨x, hstore, hread⟩ := bind_eq_ok.mp hread
    rw [pure_eq_ok, Except.ok.injEq] at hread
    subst hread
    obtain rfl := RowWrite.insert.inj hitem
    refine ⟨payload, rfl, ?_, rfl, rfl⟩
    rw [← store_of_storeKrw hstore]
    unfold itemAmount at hamount
    unfold newAmount
    cases hx : payload.cardTransactionId with
    | none =>
      rw [hx] at hamount
      rw [getE_eq_ok.mp hamount]
      rfl
    | some x =>
      rw [hx] at hamount
      obtain ⟨txn, htxn, hamount⟩ := bind_eq_ok.mp hamount
      obtain rfl := Except.ok.inj hamount
      cases payload.amountKrw with
      | none => simp [(assertUsableTransaction_eq_ok.mp htxn).2.1]
      | some d => rfl
  | update itemId payload =>
    obtain ⟨⟨it, report⟩, -, hread⟩ := bind_eq_ok.mp hread
    obtain ⟨_, -, hread⟩ := bind_eq_ok.mp hread
    obtain ⟨it', -, hread⟩ := bind_eq_ok.mp hread
    obtain rfl := Except.ok.inj hread
    cases hitem
  | delete itemId =>
    obtain ⟨⟨it, report⟩, -, hread⟩ := bind_eq_ok.mp hread
    obtain rfl := Except.ok.inj hread
    cases hitem

theorem counted_eq_worth (h : it.reportId = j) :
    counted j it = worth it.amountKrw it.isExcluded := by
  unfold counted worth
  cases it.isExcluded <;> simp [h]

theorem counted_over (h : it.reportId = j) : counted j (sentOver payload it) =
    worth ((sentAmount payload).getD it.amountKrw)
      (payload.isExcluded.val?.getD it.isExcluded) := by
  have hover : (sentOver payload it).reportId = j := h
  exact counted_eq_worth hover

theorem change_update (h : s.items.get k = some it) : (EditCall.update k payload).change s =
    worth ((sentAmount payload).getD it.amountKrw) (payload.isExcluded.val?.getD it.isExcluded) -
      worth it.amountKrw it.isExcluded := by
  simp only [EditCall.change, h]

theorem change_delete (h : s.items.get k = some it) :
    (EditCall.delete k).change s = -worth it.amountKrw it.isExcluded := by
  simp only [EditCall.change, h]

/-- The sum of a report with the version that a request leaves over what it has read. -/
theorem includedTotal_ran (hread : r.read s = .ok e) (hran : Ran s r e item)
    (hnew : inserts e.item = true → ∀ v, item = some v → s.items.get v.1 = none) :
    includedTotal (laid s item) e.reportId =
      includedTotal s e.reportId + r.call.change s := by
  obtain ⟨key, hrun⟩ := hran
  have hdecided := (decided_of_read hread).1
  generalize hcall : r.call = call at hdecided
  cases hdecided with
  | @add j payload report row inReport =>
    obtain ⟨payload', hcall', hamount, hexcluded, -⟩ := add_of_read hread rfl
    obtain rfl : payload = payload' := by
      rw [hcall] at hcall'
      exact (EditCall.add.inj hcall').2
    rw [RowWrite.run_insert, Except.ok.injEq] at hrun
    subst hrun
    have hwrite := includedTotal_write s key (some row) j
    rw [hnew rfl _ rfl, Option.map_none, Option.getD_none, Option.map_some, Option.getD_some,
      counted_eq_worth inReport, hexcluded] at hwrite
    have hchange : (EditCall.add j payload).change s = row.amountKrw.units := by
      simp only [EditCall.change, hamount, Option.map_some, Option.getD_some]
    rw [hchange]
    refine hwrite.trans ?_
    simp [worth]
  | @update k payload report it it' get assigned =>
    obtain ⟨rfl, -⟩ := assignItem_over assigned
    rw [change_update get]
    have hover : includedTotal (laid s item) it.reportId =
        includedTotal (laid s (some (k, some (sentOver payload it)))) it.reportId := by
      refine includedTotal_of_get fun m => ?_
      show (s.items.overlay item).get m = (s.items.overlay _).get m
      rw [RowWrite.get_overlay_run_update hrun get rfl, Table.get_overlay_some]
    have hwrite := includedTotal_write s k (some (sentOver payload it)) it.reportId
    rw [get, Option.map_some, Option.getD_some, Option.map_some, Option.getD_some,
      counted_over rfl, counted_eq_worth rfl] at hwrite
    refine hover.trans (hwrite.trans ?_)
    show _ = includedTotal s it.reportId + (_ - _)
    omega
  | @delete k report it get =>
    rw [change_delete get]
    rw [RowWrite.run_delete, get, Option.map_some, Except.ok.injEq] at hrun
    subst hrun
    have hwrite := includedTotal_write s k none it.reportId
    rw [get, Option.map_some, Option.getD_some, Option.map_none, Option.getD_none,
      counted_eq_worth rfl] at hwrite
    refine hwrite.trans ?_
    show _ = includedTotal s it.reportId + -_
    omega

theorem free_of_le (h : s.items.next ≤ k) : s.items.get k = none :=
  Option.eq_none_iff_forall_ne_some.mpr fun _ hit =>
    absurd (Table.get_lt_next hit) (Int.not_lt.mpr h)

theorem touches_iff (hread : r.read s = .ok e) : Touches e.item k ↔ r.call.itemId? = some k := by
  have hdecided := (decided_of_read hread).1
  generalize r.call = call at hdecided
  cases hdecided with
  | add => simp [Touches, EditCall.itemId?]
  | update | delete => simp [Touches, EditCall.itemId?, eq_comm]

theorem together_of_ne {call call' : EditCall}
    (h : ∀ k, call.itemId? = some k → call'.itemId? ≠ some k) :
    together s call call' = call.change s + call'.change s := by
  unfold together
  split
  · next k payload k' payload' =>
    refine if_neg ?_
    rintro rfl
    exact h _ rfl rfl
  · next k =>
    refine if_neg fun hk => h k hk rfl
  · rfl

/-- Over the row `it` that both have read, the second version is what counts. -/
theorem includedTotal_twice (hget : s.items.get k = some it) (cur : ExpenseItem)
    (row : Option ExpenseItem) (j : Int) :
    includedTotal (laid (laid s (some (k, some cur))) (some (k, row))) j =
      includedTotal s j - counted j it + (row.map (counted j)).getD 0 := by
  have hfirst : includedTotal (laid s (some (k, some cur))) j = _ :=
    includedTotal_write s k (some cur) j
  have hsecond : includedTotal (laid (laid s (some (k, some cur))) (some (k, row))) j = _ :=
    includedTotal_write (laid s (some (k, some cur))) k row j
  have hcur : (laid s (some (k, some cur))).items.get k = some cur := by
    show (s.items.overlay (some (k, some cur))).get k = _
    rw [Table.get_overlay_some, if_pos rfl]
  rw [hcur, Option.map_some, Option.getD_some] at hsecond
  rw [hget, Option.map_some, Option.getD_some, Option.map_some, Option.getD_some] at hfirst
  omega

section
variable {report : Option (Version ExpenseReport)} {v v' : Version ExpenseItem}

/-- The row that the second request writes over, if the first has left it: both have read it. -/
theorem onRow_of_touches (hread : r.read s = .ok e) (hread' : r'.read s = .ok e')
    (hran : Ran s r e (some v)) (hnew : inserts e.item = true → s.items.next ≤ v.1)
    (htouches : Touches e'.item v.1) :
    ∃ it, s.items.get v.1 = some it ∧ it.reportId = e.reportId ∧ inserts e.item = false ∧
      OnRow r e v.1 it ∧ OnRow r' e' v.1 it := by
  obtain ⟨it, hget, -, hon'⟩ := onRow_of_read hread' htouches
  have hno : inserts e.item = false := by
    rw [← Bool.not_eq_true]
    intro hinserts
    rw [free_of_le (hnew hinserts)] at hget
    cases hget
  obtain ⟨it₀, hget₀, hreport, hon⟩ := onRow_of_read hread (hran.touches hno)
  obtain rfl : it = it₀ := Option.some.inj (hget.symm.trans hget₀)
  exact ⟨it, hget, hreport, hno, hon, hon'⟩

/-- The sum with the versions of two requests that have read the same store, where the second
writes over the row that the first has left. -/
theorem includedTotal_touched (hread : r.read s = .ok e) (hread' : r'.read s = .ok e')
    (hran : Ran s r e (some v)) (hran' : Ran (committed s (some v) report) r' e' (some v'))
    (hnew : inserts e.item = true → s.items.next ≤ v.1) (htouches : Touches e'.item v.1) :
    includedTotal (laid (laid s (some v)) (some v')) e.reportId =
      includedTotal s e.reportId + together s r.call r'.call := by
  obtain ⟨it, hget, hreport, -, hon, hon'⟩ := onRow_of_touches hread hread' hran hnew htouches
  obtain ⟨k, w⟩ := v
  obtain ⟨key', hrun'⟩ := hran'
  have hleft : (committed s (some (k, w)) report).items.get k = w := by
    show (s.items.overlay (some (k, w))).get k = w
    rw [Table.get_overlay_some, if_pos rfl]
  cases hon' with
  | @update payload' new' hcall' hitem' hassigned' =>
    rw [hitem'] at hrun'
    obtain ⟨-, cur, hcur, rfl⟩ := RowWrite.run_update_eq_some.mp hrun'
    rw [hleft] at hcur
    subst hcur
    obtain ⟨payload, hcall, -, hassigned⟩ := hon.updated hget hran
    obtain ⟨rfl, -⟩ := assignItem_over hassigned
    obtain ⟨rfl, -⟩ := assignItem_over hassigned'
    have hmerged : counted e.reportId (merge it (sentOver payload' it) (sentOver payload it)) = _ :=
      counted_eq_worth (by simp only [merge, sentOver, mergeCol_same, hreport])
    have htwice := includedTotal_twice hget (sentOver payload it)
      (some (merge it (sentOver payload' it) (sentOver payload it))) e.reportId
    rw [Option.map_some, Option.getD_some, hmerged, counted_eq_worth hreport] at htwice
    refine htwice.trans ?_
    rw [hcall, hcall']
    simp only [together, if_true, hget]
    show _ = includedTotal s e.reportId + (_ - _)
    simp only [merge, sentOver]
    omega
  | delete hcall' hitem' =>
    rw [hitem', RowWrite.run_delete, hleft, Except.ok.injEq] at hrun'
    cases w with
    | none => cases hrun'
    | some cur =>
      obtain rfl := Option.some.inj hrun'
      obtain ⟨payload, hcall, -, -⟩ := hon.updated hget hran
      have htwice := includedTotal_twice hget cur none e.reportId
      rw [Option.map_none, Option.getD_none, counted_eq_worth hreport] at htwice
      refine htwice.trans ?_
      rw [hcall, hcall']
      simp only [together, EditCall.itemId?, if_true, change_delete hget]
      omega

/-- The item of a request that leaves a version over it. -/
theorem Ran.itemId (hran : Ran s r e (some v)) (hread : r.read s = .ok e)
    (hm : r.call.itemId? = some k) : v.1 = k := by
  have htouched := (touches_iff hread).mpr hm
  have hno : inserts e.item = false := by
    cases hitem : e.item with
    | insert row =>
      rw [hitem] at htouched
      exact htouched.elim
    | update | delete => rfl
  have hv := (touches_iff hread).mp (hran.touches hno)
  rw [hm, Option.some.injEq] at hv
  exact hv.symm

/-- The sum with the versions of two requests that have read the same store, the second over what
the first has left. -/
theorem includedTotal_both (hread : r.read s = .ok e) (hread' : r'.read s = .ok e')
    (hj : e'.reportId = e.reportId) (hran : Ran s r e (some v))
    (hran' : Ran (committed s (some v) report) r' e' (some v'))
    (hnew : inserts e.item = true → s.items.next ≤ v.1)
    (hnew' : inserts e'.item = true → s.items.next ≤ v'.1)
    (hapart : inserts e.item = true → inserts e'.item = true → v.1 ≠ v'.1) :
    includedTotal (laid (laid s (some v)) (some v')) e.reportId =
      includedTotal s e.reportId + together s r.call r'.call := by
  by_cases htouches : Touches e'.item v.1
  · exact includedTotal_touched hread hread' hran hran' hnew htouches
  · -- the rows are different, so each adds what it adds to what has been read
    have hran₀ : Ran s r' e' (some v') := by
      refine hran'.congr fun m hm => ?_
      show s.items.get m = (s.items.overlay (some v)).get m
      rw [Table.get_overlay_some, if_neg]
      rintro rfl
      exact htouches hm
    have hblind : Disjoint (some v) (some v') := by
      rintro _ _ ⟨⟩ ⟨⟩ hsame
      cases hinserts' : inserts e'.item with
      | false => exact htouches (hsame ▸ hran₀.touches hinserts')
      | true =>
        cases hinserts : inserts e.item with
        | true => exact hapart hinserts hinserts' hsame
        | false =>
          obtain ⟨it, hget, -⟩ := onRow_of_read hread (hran.touches hinserts)
          rw [hsame, free_of_le (hnew' hinserts')] at hget
          cases hget
    have hne : ∀ m, r.call.itemId? = some m → r'.call.itemId? ≠ some m := by
      intro m hm hm'
      exact htouches (hran.itemId hread hm ▸ (touches_iff hread').mpr hm')
    have hfirst := includedTotal_ran hread hran fun hinserts _ hv =>
      free_of_le (Option.some.inj hv ▸ hnew hinserts)
    have hsecond := includedTotal_ran hread' hran₀ fun hinserts _ hv =>
      free_of_le (Option.some.inj hv ▸ hnew' hinserts)
    rw [hj] at hsecond
    rw [includedTotal_laid hblind, hfirst, hsecond, together_of_ne hne]
    omega

end

end Biztrip.Edits
