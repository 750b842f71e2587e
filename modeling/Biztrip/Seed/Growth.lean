import Biztrip.Seed.Blocks

/-!
# What each block makes

One lemma for each block: the tables it writes, that its own table has rows afterwards,
and what later blocks rely on of the rows it made.
-/

namespace Biztrip.Seed

open Biztrip.Lib Drawing Expenses

variable {sec : Security} {sur : Surroundings} {s s' : Store} {now : Instant}

/-! ## Adding rows to a table -/

section
variable {ρ : Type}

theorem isSeeded_iff {t : Table ρ} : isSeeded t = true ↔ t.rows ≠ [] := by
  rw [isSeeded, decide_eq_true_eq, List.length_pos_iff]

theorem isSeeded_of_get {t : Table ρ} {i : Int} {r : ρ} (h : t.get i = some r) :
    isSeeded t = true :=
  isSeeded_iff.mpr (List.ne_nil_of_mem (Table.mem_rows.mpr h))

@[simp] theorem mem_byId {t : Table ρ} {p : Int × ρ} : p ∈ byId t ↔ t.get p.1 = some p.2 :=
  mem_orderBy.trans Table.mem_rows

theorem byId_ne_nil {t : Table ρ} : byId t ≠ [] ↔ isSeeded t = true := by
  rw [isSeeded, decide_eq_true_eq, ← List.length_pos_iff, byId, orderBy, List.length_insertionSort]

/-- Statements of this kind write this one table. -/
structure Slot (table : Store → Table ρ) (put : Store → Table ρ → Store)
    (write : RowWrite ρ → Write) : Prop where
  flush : ∀ now s r, Store.flush now s (write (.insert r)) =
    (s.check (write (.insert r)) >>= fun _ => .ok (put s ((table s).insert r)))
  table_put : ∀ s t, table (put s t) = t
  put_put : ∀ s t t', put (put s t) t' = put s t'
  put_table : ∀ s, put s (table s) = s

variable {table : Store → Table ρ} {put : Store → Table ρ → Store} {write : RowWrite ρ → Write}

theorem Slot.eq_of_flush (slot : Slot table put write) {r : ρ}
    (h : s.flush now (write (.insert r)) = .ok s') : s' = put s ((table s).insert r) := by
  rw [slot.flush] at h
  obtain ⟨_, -, h⟩ := bind_eq_ok.mp h
  exact (Except.ok.inj h).symm

/-- The rows come behind those that are there, and nothing else changes. -/
theorem Slot.added (slot : Slot table put write) : ∀ (rows : List ρ) (s : Store),
    Ensures (addAll now table write rows s) fun p =>
      ∃ t, p.2 = put s t ∧ t.rows = (table s).rows ++ p.1 ∧ p.1.map Prod.snd = rows := by
  intro rows
  induction rows with
  | nil =>
    intro s
    exact ensures_ok ⟨table s, (slot.put_table s).symm, (List.append_nil _).symm, rfl⟩
  | cons r rows ih =>
    intro s
    refine ensures_bind fun s₁ h₁ => ensures_bind fun p hp => ensures_ok ?_
    obtain ⟨t, hput, hrows, hsnd⟩ := ih s₁ p hp
    obtain rfl := slot.eq_of_flush h₁
    rw [slot.put_put] at hput
    rw [slot.table_put] at hrows
    refine ⟨t, hput, ?_, by rw [List.map_cons, hsnd]⟩
    rw [hrows]
    exact (List.append_cons _ _ _).symm

theorem Slot.added_ne_nil (slot : Slot table put write) {rows : List ρ} (h : rows ≠ []) :
    Ensures (addAll now table write rows s) fun p => ∃ t, p.2 = put s t ∧ isSeeded t = true := by
  intro p hp
  obtain ⟨t, hput, hrows, hsnd⟩ := slot.added rows s p hp
  refine ⟨t, hput, isSeeded_iff.mpr fun hnil => h ?_⟩
  rw [← hsnd, (List.append_eq_nil_iff.mp (hrows.symm.trans hnil)).2, List.map_nil]

end

theorem slot_codeGroups :
    Slot Store.codeGroups (fun s t => { s with codeGroups := t }) .codeGroup :=
  ⟨fun _ _ _ => rfl, fun _ _ => rfl, fun _ _ _ => rfl, fun _ => rfl⟩

theorem slot_codes : Slot Store.codes (fun s t => { s with codes := t }) .code :=
  ⟨fun _ _ _ => rfl, fun _ _ => rfl, fun _ _ _ => rfl, fun _ => rfl⟩

theorem slot_departments :
    Slot Store.departments (fun s t => { s with departments := t }) .department :=
  ⟨fun _ _ _ => rfl, fun _ _ => rfl, fun _ _ _ => rfl, fun _ => rfl⟩

theorem slot_centers (kind : CenterKind) :
    Slot (Store.centers · kind) (Store.setCenters · · kind) (.center kind) := by
  cases kind <;> exact ⟨fun _ _ _ => rfl, fun _ _ => rfl, fun _ _ _ => rfl, fun _ => rfl⟩

theorem slot_users : Slot Store.users (fun s t => { s with users := t }) .user :=
  ⟨fun _ _ _ => rfl, fun _ _ => rfl, fun _ _ _ => rfl, fun _ => rfl⟩

theorem slot_cards : Slot Store.cards (fun s t => { s with cards := t }) .card :=
  ⟨fun _ _ _ => rfl, fun _ _ => rfl, fun _ _ _ => rfl, fun _ => rfl⟩

theorem slot_trips : Slot Store.trips (fun s t => { s with trips := t }) .trip :=
  ⟨fun _ _ _ => rfl, fun _ _ => rfl, fun _ _ _ => rfl, fun _ => rfl⟩

theorem slot_reports : Slot Store.reports (fun s t => { s with reports := t }) .report :=
  ⟨fun _ _ _ => rfl, fun _ _ => rfl, fun _ _ _ => rfl, fun _ => rfl⟩

theorem slot_items : Slot Store.items (fun s t => { s with items := t }) .item :=
  ⟨fun _ _ _ => rfl, fun _ _ => rfl, fun _ _ _ => rfl, fun _ => rfl⟩

/-! ## Master data -/

theorem addGroup_spec {group : String × String × List (String × String × Json)} :
    Ensures (addGroup now s group) fun s' =>
      ∃ g c, s' = { s with codeGroups := g, codes := c } ∧ isSeeded g = true := by
  refine ensures_bind fun s₁ h₁ => ensures_bind fun p hp => ensures_ok ?_
  obtain rfl := slot_codeGroups.eq_of_flush h₁
  obtain ⟨c, hput, -, -⟩ := slot_codes.added _ _ p hp
  exact ⟨_, c, hput, isSeeded_of_get (Table.get_insert_next _ _)⟩

theorem seedCodes_spec : Ensures (seedCodes sur s) fun s' =>
    ∃ g c, s' = { s with codeGroups := g, codes := c } ∧ isSeeded g = true := by
  unfold seedCodes
  split
  · next h => exact ensures_ok ⟨s.codeGroups, s.codes, rfl, h⟩
  · refine ensures_bind fun s₁ h₁ => ?_
    refine ensures_foldlM (fun s₂ group h₂ => ?_) _ s₁ (addGroup_spec s₁ h₁)
    intro s₃ h₃
    obtain ⟨g, c, rfl, -⟩ := h₂
    obtain ⟨g', c', rfl, hg'⟩ := addGroup_spec _ h₃
    exact ⟨g', c', rfl, hg'⟩

theorem seedOrg_spec : Ensures (seedOrg sur s) fun p =>
    ∃ d, p.2 = { s with departments := d } ∧ isSeeded d = true := by
  unfold seedOrg
  split
  · next h => exact ensures_ok ⟨s.departments, rfl, byId_ne_nil.mp h⟩
  · refine ensures_bind fun p hp => ensures_ok ?_
    obtain ⟨d, hput, hseeded⟩ := slot_departments.added_ne_nil (by decide) p hp
    exact ⟨d, hput, hseeded⟩

theorem fillCenters_spec {depts : Departments} {kind : CenterKind}
    {centers : List (String × String × Option String)} (hne : centers ≠ []) :
    Ensures (fillCenters sur depts kind centers s) fun s' =>
      ∃ t, s' = s.setCenters t kind ∧ isSeeded t = true := by
  unfold fillCenters
  split
  · next h => exact ensures_ok ⟨s.centers kind, ((slot_centers kind).put_table s).symm, h⟩
  · refine ensures_bind fun rows hrows => ensures_bind fun p hp => ensures_ok ?_
    have hlen : centers.length = rows.length :=
      (ensures_mapE (R := fun _ _ => True) _ (fun _ _ _ _ => trivial) rows hrows).length_eq
    refine (slot_centers kind).added_ne_nil ?_ p hp
    rw [← List.length_pos_iff, ← hlen]
    exact List.length_pos_iff.mpr hne

theorem seedCenters_spec {depts : Departments} : Ensures (seedCenters sur depts s) fun s' =>
    ∃ f c, s' = { s with fundCenters := f, costCenters := c } ∧
      isSeeded f = true ∧ isSeeded c = true := by
  refine ensures_bind fun s₁ h₁ s₂ h₂ => ?_
  obtain ⟨f, rfl, hf⟩ := fillCenters_spec (by decide) s₁ h₁
  obtain ⟨c, rfl, hc⟩ := fillCenters_spec (by decide) s₂ h₂
  exact ⟨f, c, rfl, hf, hc⟩

/-! ## Users -/

/-- Fit to have a card and, as an employee, trips that were submitted. -/
def Fit (u : User) : Prop := u.status = .active ∧ (u.role = .employee → u.managerId ≠ none)

/-- The users that are handed on are those of before or were all made just now. -/
theorem seedUsers_spec {depts : Departments} : Ensures (seedUsers sec sur depts s) fun p =>
    ∃ t, p.2 = { s with users := t } ∧ p.1 ≠ [] ∧ (∀ q ∈ p.1, t.get q.1 = some q.2) ∧
      ((p.1 = byId s.users ∧ t = s.users) ∨ (s.users.rows = [] ∧ ∀ q ∈ p.1, Fit q.2)) := by
  unfold seedUsers
  split
  · next h => exact ensures_ok ⟨s.users, rfl, h, fun q hq => mem_byId.mp hq, .inl ⟨rfl, rfl⟩⟩
  next hempty =>
  have hempty : s.users.rows = [] := by
    rw [byId_ne_nil, isSeeded_iff] at hempty
    exact not_not.mp hempty
  refine ensures_bind fun adminDept _ => ensures_bind fun admins hadmins => ?_
  refine ensures_bind fun managerRows hmanagerRows => ensures_bind fun managers hmanagers => ?_
  refine ensures_bind fun employeeRows hemployeeRows => ensures_bind fun employees hemployees => ?_
  obtain ⟨t₁, hput₁, hrows₁, hsnd₁⟩ := slot_users.added _ _ admins hadmins
  obtain ⟨t₂, hput₂, hrows₂, hsnd₂⟩ := slot_users.added _ _ managers hmanagers
  obtain ⟨t₃, hput₃, hrows₃, hsnd₃⟩ := slot_users.added _ _ employees hemployees
  have hfit₁ : ∀ u ∈ admins.1.map Prod.snd, Fit u := by
    rw [hsnd₁, List.forall_mem_singleton]
    exact ⟨rfl, nofun⟩
  have hfit₂ : ∀ u ∈ managers.1.map Prod.snd, Fit u := by
    rw [hsnd₂]
    refine forall_of_mapE (fun spec _ => ?_) hmanagerRows
    exact ensures_bind fun _ _ => ensures_bind fun _ _ => ensures_ok ⟨rfl, nofun⟩
  have hfit₃ : ∀ u ∈ employees.1.map Prod.snd, Fit u := by
    rw [hsnd₃]
    refine forall_of_mapE (fun name _ => ?_) hemployeeRows
    exact ensures_bind fun _ _ => ensures_ok ⟨rfl, fun _ => Option.some_ne_none _⟩
  rw [hput₂] at hrows₃
  rw [hput₁] at hrows₂
  have hrows : t₃.rows = admins.1 ++ managers.1 ++ employees.1 := by
    rw [hrows₃, hrows₂, hrows₁, hempty, List.nil_append]
  have hput : employees.2 = { s with users := t₃ } := by rw [hput₃, hput₂, hput₁]
  refine ensures_ok ⟨t₃, hput, ?_, fun q hq => ?_, .inr ⟨hempty, fun q hq => ?_⟩⟩
  · intro hnil
    have : admins.1 = [] := (List.append_eq_nil_iff.mp (List.append_eq_nil_iff.mp hnil).1).1
    rw [this] at hsnd₁
    cases hsnd₁
  · exact Table.mem_rows.mp (hrows ▸ hq)
  · have hq := List.mem_map_of_mem hq (f := Prod.snd)
    rw [List.map_append, List.map_append, List.mem_append, List.mem_append] at hq
    rcases hq with (hq | hq) | hq
    · exact hfit₁ _ hq
    · exact hfit₂ _ hq
    · exact hfit₃ _ hq

/-- Nobody goes, and the newcomer is there afterwards. -/
theorem seedPendingSignup_spec {depts : Departments} :
    Ensures (seedPendingSignup sec sur depts s) fun s' =>
      ∃ t, s' = { s with users := t } ∧ (∃ i u, t.get i = some u ∧ u.email = newcomerEmail) ∧
        ∀ i u, s.users.get i = some u → t.get i = some u := by
  unfold seedPendingSignup
  split
  · next h =>
    obtain ⟨p, hp, hemail⟩ := List.find?_isSome.mp h
    refine ensures_ok ⟨s.users, rfl, ⟨p.1, p.2, Table.mem_rows.mp hp, ?_⟩, fun _ _ h => h⟩
    exact of_decide_eq_true hemail
  · refine ensures_bind fun _ _ s₁ h₁ => ?_
    refine ⟨_, slot_users.eq_of_flush h₁, ⟨_, _, Table.get_insert_next _ _, rfl⟩, fun i u hu => ?_⟩
    exact Table.get_insert_of_some hu

/-! ## Cards -/

/-- The cards go to the users that were handed on. -/
theorem makeCards_spec {users : List (Int × User)} : Yields (makeCards sur users s) fun s' =>
    ∃ c x, s' = { s with cards := c, transactions := x } ∧
      ∃ added : List (Int × CorporateCard), c.rows = s.cards.rows ++ added ∧
        added.map (fun p => p.2.userId) = users.map Prod.fst := by
  have hdraft : ∀ p : (Int × User) × Nat,
      Yields (draftCard p.1.1 p.2) fun c => p.1.1 = c.userId := by
    intro p
    exact yields_bind_any fun _ => yields_pure rfl
  refine yields_bind (yields_mapM _ fun p _ => hdraft p) fun rows hrows => ?_
  refine yields_bind (yields_lift (slot_cards.added rows s)) fun p hp => ?_
  obtain ⟨c, hput, hadded, hsnd⟩ := hp
  refine yields_bind_any fun transactions => yields_pure ⟨c, _, by rw [hput]; rfl, p.1, hadded, ?_⟩
  calc p.1.map (fun p => p.2.userId)
      = (p.1.map Prod.snd).map CorporateCard.userId := by rw [List.map_map]; rfl
    _ = users.zipIdx.map (fun p => p.1.1) := by
        rw [hsnd, map_eq_map_of_forall₂ (fun _ _ h => h) hrows]
    _ = (users.zipIdx.map Prod.fst).map Prod.fst := by rw [List.map_map]; rfl
    _ = users.map Prod.fst := by rw [List.zipIdx_map_fst]

theorem seedCards_spec {users : List (Int × User)} (hne : users ≠ []) :
    Ensures (seedCards sur users s) fun s' =>
      ∃ c x, s' = { s with cards := c, transactions := x } ∧ isSeeded c = true ∧
        (c = s.cards ∨ (s.cards.rows = [] ∧
          c.rows.map (fun p => p.2.userId) = users.map Prod.fst)) := by
  unfold seedCards
  split
  · next h => exact ensures_ok ⟨s.cards, s.transactions, rfl, h, .inl rfl⟩
  next hempty =>
  rw [isSeeded_iff, not_not] at hempty
  intro s' h
  obtain ⟨c, x, rfl, added, hadded, howners⟩ := makeCards_spec.result _ s' h
  rw [hempty, List.nil_append] at hadded
  subst hadded
  refine ⟨c, x, rfl, isSeeded_iff.mpr fun hnil => hne ?_, .inr ⟨hempty, howners⟩⟩
  rw [hnil, List.map_nil] at howners
  exact List.map_eq_nil_iff.mp howners.symm

/-! ## Reports -/

theorem units_of_won {n : Nat} {x : Krw} (h : won n = .ok x) : x.units = n * 100 := by
  obtain ⟨_, -, h⟩ := bind_eq_ok.mp h
  have hunits := Numeric.ofUnits?_eq_some.mp (getE_eq_ok.mp h)
  have hcast : (Decimal.toRat ⟨n, 0⟩) * ((10 ^ 2 : Nat) : ℚ) = ((n * 100 : Int) : ℚ) := by
    change ((n * 10 ^ 0 : Int) : ℚ) * _ = _
    push_cast
    norm_num
  rw [hunits, hcast, roundHalfAway_intCast]

theorem sum_units_of_drafts {drafts : List (Nat × String)} {rows : List ExpenseItem}
    (h : List.Forall₂ (fun d it => (d.1 : Int) * 100 = it.amountKrw.units) drafts rows) :
    (((drafts.map Prod.fst).sum : Nat) : Int) * 100 =
      (rows.map fun it => it.amountKrw.units).sum := by
  induction h with
  | nil => rfl
  | cons hunits _ ih =>
    rw [List.map_cons, List.sum_cons, List.map_cons, List.sum_cons, ← ih, ← hunits]
    push_cast
    ring

/-- What the items of the report add up to. -/
def itemSum (s : Store) (reportId : Int) : Int :=
  ((itemsOf s reportId).map fun p => p.2.amountKrw.units).sum

theorem itemSum_append {added : List (Int × ExpenseItem)}
    (h : s'.items.rows = s.items.rows ++ added) (j : Int) :
    itemSum s' j = itemSum s j +
      ((added.filter fun q => q.2.reportId = j).map fun q => q.2.amountKrw.units).sum := by
  rw [itemSum, itemsOf, h, List.filter_append, List.map_append, List.sum_append]
  rfl

/-- One round: a new report, which has the new items and the sum of their amounts. -/
theorem settle_spec {p : (Int × Trip) × Nat} : Yields (settle sur s p) fun s' =>
    ∃ reports items, s' = { s with reports := reports, items := items } ∧
      reports.next = s.reports.next + 1 ∧
      (∀ j, j ≠ s.reports.next → reports.get j = s.reports.get j) ∧
      ∃ added : List (Int × ExpenseItem), items.rows = s.items.rows ++ added ∧
        (∀ q ∈ added, q.2.reportId = s.reports.next) ∧
        ∃ r, reports.get s.reports.next = some r ∧ r.tripId = p.1.1 ∧
          r.status = (if p.1.2.status = .settled then .approved else .draft) ∧
          r.totalAmountKrw.units = (added.map fun q => q.2.amountKrw.units).sum := by
  refine yields_bind_any fun fundCenter => ?_
  refine yields_bind (yields_lift fun s₁ h₁ => slot_reports.eq_of_flush h₁) fun s₁ h₁ => ?_
  subst h₁
  refine yields_bind_any fun count => yields_bind_any fun drafts => ?_
  refine yields_bind (yields_lift (ensures_mapE (R := fun d it =>
    it.reportId = s.reports.next ∧ (d.1 : Int) * 100 = it.amountKrw.units) drafts fun d _ => ?_))
    fun rows hrows => ?_
  · exact ensures_bind fun x hx => ensures_ok ⟨rfl, (units_of_won hx).symm⟩
  refine yields_bind (yields_lift (slot_items.added rows _)) fun q hq => ?_
  obtain ⟨items, hput, hitems, hsnd⟩ := hq
  refine yields_bind (yields_lift fun x hx => units_of_won hx) fun total htotal => ?_
  refine yields_lift fun s₃ h₃ => ?_
  obtain ⟨_, -, h₃⟩ := bind_eq_ok.mp h₃
  obtain ⟨reports, happly, h₃⟩ := bind_eq_ok.mp h₃
  cases h₃
  rw [hput] at happly ⊢
  have hupdated := updated_of_apply (Table.get_insert_next _ _) happly
  obtain ⟨at₀, hget⟩ := hupdated.get_self
  have hsame : ∀ j, j ≠ s.reports.next → reports.get j = s.reports.get j := by
    intro j hj
    rw [hupdated.get_of_ne hj, Table.get_insert, if_neg hj]
  have hnext : reports.next = s.reports.next + 1 := by
    rcases RowWrite.apply_update_eq_ok.mp happly with ⟨-, rfl⟩ | ⟨-, -, rfl⟩ <;> rfl
  have hsum : (rows.map fun it => it.amountKrw.units).sum = total.units := by
    rw [htotal]
    exact (sum_units_of_drafts (hrows.imp fun _ _ h => h.2)).symm
  refine ⟨reports, items, rfl, hnext, hsame, q.1, hitems, fun a ha => ?_, _, hget, ?_⟩
  · have hrow : a.2 ∈ rows := hsnd ▸ List.mem_map_of_mem ha
    obtain ⟨_, -, h⟩ := exists_of_forall₂_right hrows hrow
    exact h.1
  · have htotals : (q.1.map fun a => a.2.amountKrw.units).sum = total.units := by
      rw [← hsum, ← hsnd, List.map_map]
      rfl
    rw [htotals]
    exact ⟨rfl, rfl, rfl⟩

/-- Where the loop over the trips to settle stands. -/
structure Reported (s₀ : Store) (past : List ((Int × Trip) × Nat)) (s : Store) : Prop where
  frame : ∃ reports items, s = { s₀ with reports := reports, items := items }
  /-- The report that comes next has no items yet. -/
  ahead : ∀ k it, s.items.get k = some it → it.reportId < s.reports.next
  made : ∀ p ∈ past, ∃ j r, s.reports.get j = some r ∧ r.tripId = p.1.1 ∧
    r.status = (if p.1.2.status = .settled then .approved else .draft) ∧
    r.totalAmountKrw.units = itemSum s j

theorem Reported.step {s₀ : Store} {past : List ((Int × Trip) × Nat)} {p : (Int × Trip) × Nat}
    (h : Reported s₀ past s) : Yields (settle sur s p) (Reported s₀ (past ++ [p])) := by
  refine settle_spec.mono fun s' hs' => ?_
  obtain ⟨reports, items, rfl, hnext, hsame, added, hitems, hadded, hmade⟩ := hs'
  obtain ⟨r, hr, htrip, hstatus, htotal⟩ := hmade
  have hmem : ∀ k it, items.get k = some it → s.items.get k = some it ∨ (k, it) ∈ added := by
    intro k it hk
    rw [← Table.mem_rows, hitems, List.mem_append, Table.mem_rows] at hk
    exact hk
  refine ⟨?_, fun k it hk => ?_, fun p' hp' => ?_⟩
  · obtain ⟨reports₀, items₀, rfl⟩ := h.frame
    exact ⟨reports, items, rfl⟩
  · change it.reportId < reports.next
    rcases hmem k it hk with hold | hnew
    · have := h.ahead k it hold
      omega
    · have : it.reportId = s.reports.next := hadded _ hnew
      omega
  rcases List.mem_append.mp hp' with hp' | hp'
  · -- an earlier report gets none of the new items
    obtain ⟨j, r', hr', htrip', hstatus', htotal'⟩ := h.made p' hp'
    have hj : j ≠ s.reports.next := (Table.get_lt_next hr').ne
    have hnone : (added.filter fun q => q.2.reportId = j) = [] := by
      refine List.filter_eq_nil_iff.mpr fun q hq heq => hj ?_
      rw [← hadded q hq, of_decide_eq_true heq]
    refine ⟨j, r', (hsame j hj).trans hr', htrip', hstatus', ?_⟩
    rw [itemSum_append hitems, hnone, htotal', List.map_nil, List.sum_nil, add_zero]
  · -- the new report has the new items alone
    obtain rfl := List.mem_singleton.mp hp'
    have hall : (added.filter fun q => q.2.reportId = s.reports.next) = added :=
      List.filter_eq_self.mpr fun q hq => decide_eq_true (hadded q hq)
    have hnone : itemsOf s s.reports.next = [] := by
      refine List.filter_eq_nil_iff.mpr fun q hq heq => ?_
      exact (h.ahead q.1 q.2 (Table.mem_rows.mp hq)).ne (of_decide_eq_true heq)
    refine ⟨s.reports.next, r, hr, htrip, hstatus, ?_⟩
    rw [itemSum_append hitems, hall, itemSum, hnone, htotal, List.map_nil, List.sum_nil, zero_add]

theorem settle_run {l : List ((Int × Trip) × Nat)}
    (hitems : ∀ k it, s.items.get k = some it → it.reportId < s.reports.next) :
    Yields (l.foldlM (settle sur) s) (Reported s l) := by
  have hstart : Reported s [] s :=
    ⟨⟨s.reports, s.items, rfl⟩, hitems, fun p hp => absurd hp List.not_mem_nil⟩
  exact yields_foldlM (Reported s) (fun past p s₁ h => h.step) l [] s hstart

/-! ## Trips -/

/-- What is certain of the trip of an index before anything is drawn. -/
def Drafted (employees : List (Int × User)) (p : TripStatus × Nat) (t : Trip) : Prop :=
  p.1 = t.status ∧ ∃ author, cyclic employees p.2 = .ok author ∧ t.userId = author.1 ∧
    t.approverId = if p.1 ≠ .draft then author.2.managerId else none

theorem draftTrip_spec {employees : List (Int × User)} {p : TripStatus × Nat} :
    Yields (draftTrip sur employees p.1 p.2) (Drafted employees p) := by
  refine yields_bind (yields_lift fun author h => h) fun author hauthor => ?_
  refine yields_bind_any fun _ => yields_bind_any fun _ => yields_bind_any fun _ => ?_
  refine yields_bind_any fun _ => yields_bind_any fun _ => yields_bind_any fun _ => ?_
  refine yields_bind_any fun _ => yields_bind_any fun _ => yields_bind_any fun _ => ?_
  exact yields_pure ⟨rfl, author, hauthor, rfl, rfl⟩

/-- A report that was approved over the sum of its items. -/
def HasReport (s : Store) (tripId : Int) : Prop :=
  ∃ j r, s.reports.get j = some r ∧ r.tripId = tripId ∧ r.status = .approved ∧
    r.totalAmountKrw.units = itemSum s j

/-- The settled trips are the first to get a report, and there are no more than reports. -/
theorem mem_settleable {trips : List (Int × Trip)}
    (hstatuses : statuses = trips.map fun q => q.2.status) {q : Int × Trip} (hq : q ∈ trips)
    (hsettled : q.2.status = .settled) :
    q ∈ settleable trips := by
  have hlen : (trips.filter fun p => p.2.status = .settled).length = 8 := by
    rw [← List.countP_eq_length_filter]
    have : (statuses.countP fun st => st = .settled) = 8 := by decide
    rw [hstatuses, List.countP_map] at this
    exact this
  rw [settleable, List.take_append, List.take_of_length_le (by omega)]
  exact List.mem_append_left _ (List.mem_filter.mpr ⟨hq, decide_eq_true hsettled⟩)

theorem makeTrips_spec {users : List (Int × User)}
    (hitems : ∀ k it, s.items.get k = some it → it.reportId < s.reports.next) :
    Yields (makeTrips sur users s) fun s' =>
      ∃ t x r i, s' = { s with trips := t, transactions := x, reports := r, items := i } ∧
        ∃ added : List (Int × Trip), t.rows = s.trips.rows ++ added ∧
          List.Forall₂ (fun p q => Drafted (employees users) p q.2) (statuses.zipIdx 1) added ∧
          ∀ q ∈ added, q.2.status = .settled → HasReport s' q.1 := by
  refine yields_bind (yields_mapM (R := Drafted (employees users)) _ fun p _ => draftTrip_spec)
    fun rows hrows => ?_
  refine yields_bind (yields_lift (slot_trips.added rows s)) fun p hp => ?_
  obtain ⟨t, hput, hadded, hsnd⟩ := hp
  refine yields_bind_any fun transactions => ?_
  rw [hput]
  have hrun := @settle_run sur (addTransactions { s with trips := t } transactions.flatten)
    ((settleable p.1).zipIdx 1) hitems
  refine hrun.mono fun s' hs' => ?_
  obtain ⟨reports, items, hframe⟩ := hs'.frame
  have hdrafted :
      List.Forall₂ (fun p q => Drafted (employees users) p q.2) (statuses.zipIdx 1) p.1 := by
    rw [← hsnd] at hrows
    exact List.forall₂_map_right_iff.mp hrows
  refine ⟨t, _, reports, items, hframe, p.1, hadded, hdrafted, fun q hq hsettled => ?_⟩
  have hstatuses : statuses = p.1.map fun q => q.2.status := by
    rw [← map_eq_map_of_forall₂ (f := Prod.fst) (fun _ _ h => h.1) hdrafted, List.zipIdx_map_fst]
  obtain ⟨a, ha, rfl⟩ : ∃ a ∈ (settleable p.1).zipIdx 1, a.1 = q := by
    rw [← List.mem_map, List.zipIdx_map_fst]
    exact mem_settleable hstatuses hq hsettled
  obtain ⟨j, r, hr, htrip, hstatus, htotal⟩ := hs'.made a ha
  rw [if_pos hsettled] at hstatus
  exact ⟨j, r, hr, htrip, hstatus, htotal⟩

theorem seedTrips_spec {users : List (Int × User)}
    (hitems : ∀ k it, s.items.get k = some it → it.reportId < s.reports.next) :
    Ensures (seedTrips sur users s) fun s' =>
      ∃ t x r i, s' = { s with trips := t, transactions := x, reports := r, items := i } ∧
        isSeeded t = true ∧ (t = s.trips ∨ (s.trips.rows = [] ∧
          List.Forall₂ (fun p q => Drafted (employees users) p q.2) (statuses.zipIdx 1) t.rows ∧
          ∀ q ∈ t.rows, q.2.status = .settled → HasReport s' q.1)) := by
  unfold seedTrips
  split
  · next h => exact ensures_ok ⟨s.trips, s.transactions, s.reports, s.items, rfl, h, .inl rfl⟩
  next hempty =>
  rw [isSeeded_iff, not_not] at hempty
  intro s' h
  obtain ⟨t, x, r, i, rfl, added, hadded, hdrafted, hreport⟩ :=
    (makeTrips_spec hitems).result _ s' h
  rw [hempty, List.nil_append] at hadded
  subst hadded
  refine ⟨t, x, r, i, rfl, isSeeded_iff.mpr fun hnil => ?_, .inr ⟨hempty, hdrafted, hreport⟩⟩
  rw [hnil] at hdrafted
  cases hdrafted

end Biztrip.Seed
