import Biztrip.Accounts.KeyCap
import Biztrip.Accounts.Managers
import Biztrip.Desk.Effect
import Biztrip.Lib.Reference
import Biztrip.Masters.Deed

/-!
# Foreign keys in any interleaving

Of the foreign keys (`Intact`), those that a request can come to violate are checked as its
statements are executed (`Store.check`). For the others it is enough that the
request has found the key: users and card transactions are never deleted, so that what it has
found is still there when it commits (`Grown`), however long that takes. `Backed` is what the
guards of a request establish about each of its statements.
-/

namespace Biztrip

open Biztrip.Lib Trips Expenses

/-- The users and the card transactions are still there. -/
structure Grown (s s' : Store) : Prop where
  users : KeepsKeys s.users s'.users
  transactions : s'.transactions = s.transactions

theorem Grown.refl (s : Store) : Grown s s := ⟨.refl _, rfl⟩

theorem Grown.trans {s₁ s₂ s₃ : Store} (h : Grown s₁ s₂) (h' : Grown s₂ s₃) : Grown s₁ s₃ :=
  ⟨h.users.trans h'.users, h'.transactions.trans h.transactions⟩

/-- What the guards of a request have found of what a statement introduces, as far as the statement
does not check it itself. -/
def Write.Backed (s : Store) : Write → Prop
  | .user w => (∀ k, w.Introduces User.managerId k → (s.users.get k).isSome) ∧ ∀ i, w ≠ .delete i
  | .apiKey w => ∀ k, w.Introduces (fun key => some key.userId) k → (s.users.get k).isSome
  | .department _ | .codeGroup _ | .center _ _ => True
  | .code w => ∀ i old new, w = .update i old new → new.groupId = old.groupId
  | .card w => ∀ k, w.Introduces (fun c => some c.userId) k → (s.users.get k).isSome
  | .trip w => (∀ k, w.Introduces (fun t => some t.userId) k → (s.users.get k).isSome) ∧
      ∀ k, w.Introduces Trip.approverId k → (s.users.get k).isSome
  | .report w => (∀ k, w.Introduces (fun r => some r.userId) k → (s.users.get k).isSome) ∧
      (∀ k, w.Introduces ExpenseReport.approverId k → (s.users.get k).isSome) ∧
      (∀ i old new, w = .update i old new → new.tripId = old.tripId) ∧ ∀ i, w ≠ .delete i
  | .item w => (∀ k, w.Introduces ExpenseItem.cardTransactionId k →
        (s.transactions.get k).isSome) ∧
      ∀ i old new, w = .update i old new → new.reportId = old.reportId
  | .log _ row => (s.users.get row.actorId).isSome
  | .notification w => ∀ k, w.Introduces (fun n => some n.userId) k → (s.users.get k).isSome

theorem Write.Backed.grown {s s' : Store} {w : Write} (h : w.Backed s) (hs : Grown s s') :
    w.Backed s' := by
  cases w with
  | user w => exact ⟨fun k hk => hs.users k (h.1 k hk), h.2⟩
  | apiKey w | card w | notification w => exact fun k hk => hs.users k (h k hk)
  | department w | codeGroup w | center kind w => trivial
  | code w => exact h
  | trip w => exact ⟨fun k hk => hs.users k (h.1 k hk), fun k hk => hs.users k (h.2 k hk)⟩
  | report w =>
    exact ⟨fun k hk => hs.users k (h.1 k hk), fun k hk => hs.users k (h.2.1 k hk), h.2.2⟩
  | item w => exact ⟨fun k hk => by rw [hs.transactions]; exact h.1 k hk, h.2⟩
  | log entity row => exact hs.users _ h

/-! ## The columns -/

theorem column_managerId : Column User.managerId := ⟨fun _ _ _ => rfl, fun _ _ => rfl⟩

theorem column_keyUser : Column fun key : ApiKey => some key.userId :=
  ⟨fun _ _ _ => mergeCol_some .., fun _ _ => rfl⟩

theorem column_parentId : Column Department.parentId := ⟨fun _ _ _ => rfl, fun _ _ => rfl⟩

theorem column_groupId : Column fun c : Code => some c.groupId :=
  ⟨fun _ _ _ => mergeCol_some .., fun _ _ => rfl⟩

theorem column_departmentId : Column Center.departmentId := ⟨fun _ _ _ => rfl, fun _ _ => rfl⟩

theorem column_cardUser : Column fun c : CorporateCard => some c.userId :=
  ⟨fun _ _ _ => mergeCol_some .., fun _ _ => rfl⟩

theorem column_tripUser : Column fun t : Trip => some t.userId :=
  ⟨fun _ _ _ => mergeCol_some .., fun _ _ => rfl⟩

theorem column_tripApprover : Column Trip.approverId := ⟨fun _ _ _ => rfl, fun _ _ => rfl⟩

theorem column_tripId : Column fun r : ExpenseReport => some r.tripId :=
  ⟨fun _ _ _ => mergeCol_some .., fun _ _ => rfl⟩

theorem column_reportUser : Column fun r : ExpenseReport => some r.userId :=
  ⟨fun _ _ _ => mergeCol_some .., fun _ _ => rfl⟩

theorem column_reportApprover : Column ExpenseReport.approverId :=
  ⟨fun _ _ _ => rfl, fun _ _ => rfl⟩

theorem column_reportId : Column fun it : ExpenseItem => some it.reportId :=
  ⟨fun _ _ _ => mergeCol_some .., fun _ _ => rfl⟩

theorem column_transactionId : Column ExpenseItem.cardTransactionId :=
  ⟨fun _ _ _ => rfl, fun _ _ => rfl⟩

theorem column_notificationUser : Column fun n : Notification => some n.userId :=
  ⟨fun _ _ _ => mergeCol_some .., fun _ _ => rfl⟩

/-! ## One statement -/

section
variable {s s' : Store} {now : Instant}

theorem isSome_of_refers {ρ : Type} {t : Table ρ} {o : Option Int}
    (h : Store.refers t o = true) {k : Int} (hk : o = some k) : (t.get k).isSome := by
  subst hk
  exact h

/-- Every user that was there is there. -/
theorem Intact.users_grown {users : Table User} (h : Intact s) (hkeys : KeepsKeys s.users users)
    (hmanager : Points users User.managerId users) : Intact { s with users } :=
  { h with
    userManager := hmanager
    keyUser := h.keyUser.of_keeps hkeys
    cardUser := h.cardUser.of_keeps hkeys
    tripUser := h.tripUser.of_keeps hkeys
    tripApprover := h.tripApprover.of_keeps hkeys
    reportUser := h.reportUser.of_keeps hkeys
    reportApprover := h.reportApprover.of_keeps hkeys
    logActor := h.logActor.of_keeps hkeys
    notificationUser := h.notificationUser.of_keeps hkeys }

theorem Intact.flush_user {w : RowWrite User} (h : Intact s) (hw : (Write.user w).Backed s)
    (hflush : s.flush now (.user w) = .ok s') : Intact s' ∧ Grown s s' := by
  obtain ⟨_, -, hflush⟩ := bind_eq_ok.mp hflush
  obtain ⟨t, ha, hflush⟩ := bind_eq_ok.mp hflush
  obtain rfl := Except.ok.inj hflush
  have hkeys := RowWrite.keepsKeys ha hw.2
  refine ⟨h.users_grown hkeys ?_, hkeys, rfl⟩
  exact (h.userManager.write column_managerId hw.1 ha).of_keeps hkeys

theorem Intact.flush_apiKey {w : RowWrite ApiKey} (h : Intact s) (hw : (Write.apiKey w).Backed s)
    (hflush : s.flush now (.apiKey w) = .ok s') : Intact s' ∧ Grown s s' := by
  obtain ⟨_, -, hflush⟩ := bind_eq_ok.mp hflush
  obtain ⟨t, ha, hflush⟩ := bind_eq_ok.mp hflush
  obtain rfl := Except.ok.inj hflush
  exact ⟨{ h with keyUser := h.keyUser.write column_keyUser hw ha }, .refl _, rfl⟩

/-- A parent that a statement introduces has been looked up as it was executed. -/
theorem found_of_check_department {w : RowWrite Department}
    (h : s.check (.department w) = .ok ()) {k : Int} (hk : w.Introduces Department.parentId k) :
    (s.departments.get k).isSome := by
  cases w with
  | insert r =>
    obtain ⟨_, -, h⟩ := bind_eq_ok.mp h
    exact isSome_of_refers (Store.foreignKey_eq_ok.mp h) hk
  | update i old new =>
    exact isSome_of_refers (Store.foreignKey_eq_ok.mp (whenE_eq_ok.mp h hk.1)) hk.2
  | delete i => exact hk.elim

/-- The three checks of a deletion. -/
theorem free_of_check_department {i : Int}
    (h : s.check (.department (.delete i)) = .ok ()) :
    (∀ j d, s.departments.get j = some d → j ≠ i → d.parentId ≠ some i) ∧
      ∀ kind j c, (s.centers kind).get j = some c → c.departmentId ≠ some i := by
  obtain ⟨_, hchild, h⟩ := bind_eq_ok.mp h
  obtain ⟨_, hfund, hcost⟩ := bind_eq_ok.mp h
  have hchild := Store.foreignKey_eq_ok.mp hchild
  have hfund := Store.foreignKey_eq_ok.mp hfund
  have hcost := Store.foreignKey_eq_ok.mp hcost
  rw [Bool.not_eq_true'] at hchild hfund hcost
  refine ⟨fun j d hd hji => ?_, fun kind j c hc => ?_⟩
  · exact Store.taken_eq_false.mp hchild j d hd fun he => hji (Option.some.inj he)
  · cases kind
    · exact Desk.not_referenced hfund hc
    · exact Desk.not_referenced hcost hc

theorem Intact.flush_department {w : RowWrite Department} (h : Intact s)
    (hflush : s.flush now (.department w) = .ok s') : Intact s' ∧ Grown s s' := by
  obtain ⟨_, hcheck, hflush⟩ := bind_eq_ok.mp hflush
  obtain ⟨t, ha, hflush⟩ := bind_eq_ok.mp hflush
  obtain rfl := Except.ok.inj hflush
  have hparent : Points t Department.parentId t := by
    refine h.departmentParent.write_self column_parentId (fun k => found_of_check_department hcheck)
      ?_ ha
    rintro i rfl
    exact (free_of_check_department hcheck).1
  have hcenter : ∀ kind, Points (s.centers kind) Center.departmentId t := by
    intro kind
    cases w with
    | insert r => exact (h.centerDepartment kind).of_keeps (RowWrite.keepsKeys ha nofun)
    | update i old new => exact (h.centerDepartment kind).of_keeps (RowWrite.keepsKeys ha nofun)
    | delete i =>
      rw [RowWrite.apply_delete, Except.ok.injEq] at ha
      rw [← ha]
      exact (h.centerDepartment kind).delete ((free_of_check_department hcheck).2 kind)
  exact ⟨{ h with
    departmentParent := hparent
    fundDepartment := hcenter .fund
    costDepartment := hcenter .cost }, .refl _, rfl⟩

theorem Intact.flush_codeGroup {w : RowWrite CodeGroup} (h : Intact s)
    (hflush : s.flush now (.codeGroup w) = .ok s') : Intact s' ∧ Grown s s' := by
  obtain ⟨_, hcheck, hflush⟩ := bind_eq_ok.mp hflush
  obtain ⟨t, ha, hflush⟩ := bind_eq_ok.mp hflush
  obtain rfl := Except.ok.inj hflush
  have hgroup : Points s.codes (fun c => some c.groupId) t := by
    cases w with
    | insert r => exact h.codeGroup.of_keeps (RowWrite.keepsKeys ha nofun)
    | update i old new => exact h.codeGroup.of_keeps (RowWrite.keepsKeys ha nofun)
    | delete i =>
      rw [RowWrite.apply_delete, Except.ok.injEq] at ha
      have hfree := Store.foreignKey_eq_ok.mp hcheck
      rw [Bool.not_eq_true'] at hfree
      rw [← ha]
      exact h.codeGroup.delete fun j c hc he =>
        Desk.not_referenced hfree hc (Option.some.inj he)
  exact ⟨{ h with codeGroup := hgroup }, .refl _, rfl⟩

theorem Intact.flush_code {w : RowWrite Code} (h : Intact s) (hw : (Write.code w).Backed s)
    (hflush : s.flush now (.code w) = .ok s') : Intact s' ∧ Grown s s' := by
  obtain ⟨_, hcheck, hflush⟩ := bind_eq_ok.mp hflush
  obtain ⟨t, ha, hflush⟩ := bind_eq_ok.mp hflush
  obtain rfl := Except.ok.inj hflush
  have hfound : ∀ k, w.Introduces (fun c => some c.groupId) k → (s.codeGroups.get k).isSome := by
    intro k hk
    cases w with
    | insert r =>
      obtain ⟨_, -, hcheck⟩ := bind_eq_ok.mp hcheck
      obtain rfl := Option.some.inj hk
      exact Store.foreignKey_eq_ok.mp hcheck
    | update i old new => exact absurd (congrArg some (hw i old new rfl)) hk.1
    | delete i => exact hk.elim
  exact ⟨{ h with codeGroup := h.codeGroup.write column_groupId hfound ha }, .refl _, rfl⟩

theorem Intact.flush_center {kind : CenterKind} {w : RowWrite Center} (h : Intact s)
    (hflush : s.flush now (.center kind w) = .ok s') : Intact s' ∧ Grown s s' := by
  obtain ⟨_, hcheck, hflush⟩ := bind_eq_ok.mp hflush
  obtain ⟨t, ha, hflush⟩ := bind_eq_ok.mp hflush
  obtain rfl := Except.ok.inj hflush
  have hfound : ∀ k, w.Introduces Center.departmentId k → (s.departments.get k).isSome := by
    intro k hk
    cases w with
    | insert r =>
      obtain ⟨_, -, hcheck⟩ := bind_eq_ok.mp hcheck
      exact isSome_of_refers (Store.foreignKey_eq_ok.mp hcheck) hk
    | update i old new =>
      exact isSome_of_refers (Store.foreignKey_eq_ok.mp (whenE_eq_ok.mp hcheck hk.1)) hk.2
    | delete i => exact hk.elim
  have hpoints := (h.centerDepartment kind).write column_departmentId hfound ha
  cases kind with
  | fund => exact ⟨{ h with fundDepartment := hpoints }, .refl _, rfl⟩
  | cost => exact ⟨{ h with costDepartment := hpoints }, .refl _, rfl⟩

theorem Intact.flush_card {w : RowWrite CorporateCard} (h : Intact s)
    (hw : (Write.card w).Backed s) (hflush : s.flush now (.card w) = .ok s') :
    Intact s' ∧ Grown s s' := by
  obtain ⟨_, hcheck, hflush⟩ := bind_eq_ok.mp hflush
  obtain ⟨t, ha, hflush⟩ := bind_eq_ok.mp hflush
  obtain rfl := Except.ok.inj hflush
  have hcard : Points s.transactions (fun x => some x.cardId) t := by
    cases w with
    | insert r => exact h.transactionCard.of_keeps (RowWrite.keepsKeys ha nofun)
    | update i old new => exact h.transactionCard.of_keeps (RowWrite.keepsKeys ha nofun)
    | delete i =>
      rw [RowWrite.apply_delete, Except.ok.injEq] at ha
      have hfree := Store.foreignKey_eq_ok.mp hcheck
      rw [Bool.not_eq_true'] at hfree
      rw [← ha]
      exact h.transactionCard.delete fun j x hx he =>
        Desk.not_referenced hfree hx (Option.some.inj he)
  exact ⟨{ h with
    cardUser := h.cardUser.write column_cardUser hw ha
    transactionCard := hcard }, .refl _, rfl⟩

theorem Intact.flush_trip {w : RowWrite Trip} (h : Intact s) (hw : (Write.trip w).Backed s)
    (hflush : s.flush now (.trip w) = .ok s') : Intact s' ∧ Grown s s' := by
  obtain ⟨hcheck, t, ha, rfl⟩ := Store.flush_trip hflush
  have htrip : Points s.reports (fun r => some r.tripId) t := by
    cases w with
    | insert r => exact h.reportTrip.of_keeps (RowWrite.keepsKeys ha nofun)
    | update i old new => exact h.reportTrip.of_keeps (RowWrite.keepsKeys ha nofun)
    | delete i =>
      rw [RowWrite.apply_delete, Except.ok.injEq] at ha
      have hfree := Store.foreignKey_eq_ok.mp hcheck
      rw [Bool.not_eq_true'] at hfree
      rw [← ha]
      exact h.reportTrip.delete fun j r hr he =>
        Desk.not_referenced hfree hr (Option.some.inj he)
  exact ⟨{ h with
    tripUser := h.tripUser.write column_tripUser hw.1 ha
    tripApprover := h.tripApprover.write column_tripApprover hw.2 ha
    reportTrip := htrip }, .refl _, rfl⟩

theorem Intact.flush_report {w : RowWrite ExpenseReport} (h : Intact s)
    (hw : (Write.report w).Backed s) (hflush : s.flush now (.report w) = .ok s') :
    Intact s' ∧ Grown s s' := by
  obtain ⟨huser, happrover, hsame, hstays⟩ := hw
  obtain ⟨hcheck, t, ha, rfl⟩ := Store.flush_report hflush
  have hfound : ∀ k, w.Introduces (fun r => some r.tripId) k → (s.trips.get k).isSome := by
    intro k hk
    cases w with
    | insert r =>
      obtain ⟨_, -, hcheck⟩ := bind_eq_ok.mp hcheck
      obtain ⟨_, -, hcheck⟩ := bind_eq_ok.mp hcheck
      obtain rfl := Option.some.inj hk
      exact Store.foreignKey_eq_ok.mp hcheck
    | update i old new => exact absurd (congrArg some (hsame i old new rfl)) hk.1
    | delete i => exact hk.elim
  exact ⟨{ h with
    reportTrip := h.reportTrip.write column_tripId hfound ha
    reportUser := h.reportUser.write column_reportUser huser ha
    reportApprover := h.reportApprover.write column_reportApprover happrover ha
    itemReport := h.itemReport.of_keeps (RowWrite.keepsKeys ha hstays) }, .refl _, rfl⟩

theorem Intact.flush_item {w : RowWrite ExpenseItem} (h : Intact s) (hw : (Write.item w).Backed s)
    (hflush : s.flush now (.item w) = .ok s') : Intact s' ∧ Grown s s' := by
  obtain ⟨htransaction, hsame⟩ := hw
  obtain ⟨hcheck, t, ha, rfl⟩ := Store.flush_item hflush
  have hfound : ∀ k, w.Introduces (fun it => some it.reportId) k → (s.reports.get k).isSome := by
    intro k hk
    cases w with
    | insert r =>
      obtain ⟨_, -, hcheck⟩ := bind_eq_ok.mp hcheck
      obtain rfl := Option.some.inj hk
      exact Store.foreignKey_eq_ok.mp hcheck
    | update i old new => exact absurd (congrArg some (hsame i old new rfl)) hk.1
    | delete i => exact hk.elim
  exact ⟨{ h with
    itemReport := h.itemReport.write column_reportId hfound ha
    itemTransaction := h.itemTransaction.write column_transactionId htransaction ha },
    .refl _, rfl⟩

theorem Intact.flush_log {entity : EntityRef} {row : ActivityLog} (h : Intact s)
    (hw : (Write.log entity row).Backed s) (hflush : s.flush now (.log entity row) = .ok s') :
    Intact s' ∧ Grown s s' := by
  obtain ⟨_, -, hflush⟩ := bind_eq_ok.mp hflush
  obtain rfl := Except.ok.inj hflush
  refine ⟨{ h with logActor := fun i l hl k hk => ?_ }, .refl _, rfl⟩
  rcases Table.get_insert_eq_some hl with ⟨-, rfl⟩ | ⟨-, hl⟩
  · exact Option.some.inj hk ▸ hw
  · exact h.logActor i l hl k hk

theorem Intact.flush_notification {w : RowWrite Notification} (h : Intact s)
    (hw : (Write.notification w).Backed s) (hflush : s.flush now (.notification w) = .ok s') :
    Intact s' ∧ Grown s s' := by
  obtain ⟨_, -, hflush⟩ := bind_eq_ok.mp hflush
  obtain ⟨t, ha, hflush⟩ := bind_eq_ok.mp hflush
  obtain rfl := Except.ok.inj hflush
  exact ⟨{ h with notificationUser := h.notificationUser.write column_notificationUser hw ha },
    .refl _, rfl⟩

theorem Intact.flush {w : Write} (h : Intact s) (hw : w.Backed s)
    (hflush : s.flush now w = .ok s') : Intact s' ∧ Grown s s' := by
  cases w with
  | user w => exact h.flush_user hw hflush
  | apiKey w => exact h.flush_apiKey hw hflush
  | department w => exact h.flush_department hflush
  | codeGroup w => exact h.flush_codeGroup hflush
  | code w => exact h.flush_code hw hflush
  | center kind w => exact h.flush_center hflush
  | card w => exact h.flush_card hw hflush
  | trip w => exact h.flush_trip hw hflush
  | report w => exact h.flush_report hw hflush
  | item w => exact h.flush_item hw hflush
  | log entity row => exact h.flush_log hw hflush
  | notification w => exact h.flush_notification hw hflush

/-- All the statements of a request: what one of them rests on is still there after the others. -/
theorem Intact.flushes {ws : List Write} : ∀ {s s' : Store}, Intact s → (∀ w ∈ ws, w.Backed s) →
    ws.foldlM (Store.flush now) s = .ok s' → Intact s' ∧ Grown s s' := by
  induction ws with
  | nil =>
    intro s s' h _ hc
    rw [List.foldlM_nil, pure_eq_ok, Except.ok.injEq] at hc
    exact hc ▸ ⟨h, .refl s⟩
  | cons w ws ih =>
    intro s s' h hws hc
    rw [List.foldlM_cons] at hc
    obtain ⟨s₁, hflush, hc⟩ := bind_eq_ok.mp hc
    obtain ⟨h₁, hgrown⟩ := h.flush (hws w List.mem_cons_self) hflush
    obtain ⟨h', hgrown'⟩ := ih h₁
      (fun w' hw' => (hws w' (List.mem_cons_of_mem _ hw')).grown hgrown) hc
    exact ⟨h', hgrown.trans hgrown'⟩

end

/-! ## What the guards have found -/

section
variable {sec : Security} {s : Store} {env : Env} {user : CurrentUser} {ws : List Write}

/-- The log row and the notification name the actor and whoever is told. -/
theorem backed_history {entityType : EntityType} {entity : EntityRef} {tr : Transition}
    {action : ActivityAction} {fromStatus toStatus : Option String} {recipient : Option Int}
    (records : Desk.Records tr user action fromStatus toStatus recipient)
    (hactor : (s.users.get user.id).isSome)
    (hrecipient : ∀ k, recipient = some k → (s.users.get k).isSome) :
    ∀ w ∈ recordTransition env entityType entity tr, w.Backed s := by
  intro w hw
  rcases List.mem_cons.mp hw with rfl | hw
  · show (s.users.get tr.actorId).isSome
    rw [records.actorId]
    exact hactor
  · unfold Transition.notificationWrites at hw
    split at hw
    · cases hw
    · next n hn =>
      split at hw
      · cases hw
      · rw [List.mem_singleton.mp hw]
        rintro k hk
        refine hrecipient k ?_
        rw [← records.recipient, hn]
        exact hk

theorem backed_cons {w₀ : Write} (h₀ : w₀.Backed s) (h : ∀ w ∈ ws, w.Backed s) :
    ∀ w ∈ w₀ :: ws, w.Backed s := by
  intro w hw
  rcases List.mem_cons.mp hw with rfl | hw
  · exact h₀
  · exact h w hw

theorem backed_single {w : Write} (h : w.Backed s) : ∀ w' ∈ [w], w'.Backed s := by
  intro w' hw'
  rw [List.mem_singleton.mp hw']
  exact h

/-- A trip that keeps its owner, and whose approver is as before, nobody or somebody there. -/
theorem backed_trip {i : Int} {t t' : Trip} (huser : t'.userId = t.userId)
    (happrover : t'.approverId = t.approverId ∨
      ∀ k, t'.approverId = some k → (s.users.get k).isSome) :
    (Write.trip (.update i t t')).Backed s := by
  refine ⟨fun k hk => (hk.1 (congrArg some huser)).elim, fun k hk => ?_⟩
  rcases happrover with hsame | hfound
  · exact (hk.1 hsame).elim
  · exact hfound k hk.2

theorem backed_report {i : Int} {r r' : ExpenseReport} (htrip : r'.tripId = r.tripId)
    (huser : r'.userId = r.userId)
    (happrover : r'.approverId = r.approverId ∨
      ∀ k, r'.approverId = some k → (s.users.get k).isSome) :
    (Write.report (.update i r r')).Backed s := by
  refine ⟨fun k hk => (hk.1 (congrArg some huser)).elim, fun k hk => ?_, ?_, nofun⟩
  · rcases happrover with hsame | hfound
    · exact (hk.1 hsame).elim
    · exact hfound k hk.2
  · rintro j old new hw
    cases hw
    exact htrip

theorem backed_new_report {r : ExpenseReport} (huser : (s.users.get r.userId).isSome)
    (happrover : ∀ k, r.approverId = some k → (s.users.get k).isSome) :
    (Write.report (.insert r)).Backed s := by
  have hfound := fun k (hk : some r.userId = some k) => Option.some.inj hk ▸ huser
  refine ⟨hfound, happrover, fun i old new hw => ?_, fun i hw => ?_⟩
  all_goals cases hw

theorem backed_item {w : RowWrite ExpenseItem}
    (htransaction : ∀ k, w.Introduces ExpenseItem.cardTransactionId k →
      (s.transactions.get k).isSome)
    (hreport : ∀ i old new, w = .update i old new → new.reportId = old.reportId)
    {i : Int} {r : ExpenseReport} {total : Krw} :
    ∀ w' ∈ [Write.item w, .report (.update i r { r with totalAmountKrw := total })],
      w'.Backed s :=
  backed_cons ⟨htransaction, hreport⟩ (backed_single (backed_report rfl rfl (.inl rfl)))

/-- The approver of an account is there. -/
theorem Intact.manager (h : Intact s) (huser : s.users.get user.id = some user.toUser) {k : Int}
    (hk : user.managerId = some k) : (s.users.get k).isSome := h.userManager _ _ huser k hk

theorem Desk.TripDeed.backed {call : TripCall} (deed : Desk.TripDeed s env user call ws)
    (h : Intact s) (huser : s.users.get user.id = some user.toUser) : ∀ w ∈ ws, w.Backed s := by
  have hactor : (s.users.get user.id).isSome := by rw [huser]; rfl
  cases deed with
  | create new records =>
    refine backed_cons ⟨fun k hk => ?_, fun k hk => ?_⟩ (backed_history records hactor nofun)
    · obtain rfl := Option.some.inj hk
      rw [new.userId]
      exact hactor
    · exact absurd (new.approverId.symm.trans hk) nofun
  | update load owner editable assigned range same records =>
    exact backed_cons (backed_trip same.userId (.inl same.approverId))
      (backed_history records hactor nofun)
  | delete load owner status => exact backed_single ⟨fun _ => False.elim, fun _ => False.elim⟩
  | submit load owner status range approver moved records =>
    have happrover := h.manager huser approver
    refine backed_cons (backed_trip (by rw [moved]) (.inr fun k hk => ?_))
      (backed_history records hactor fun k hk => Option.some.inj hk ▸ happrover)
    rw [moved] at hk
    exact Option.some.inj hk ▸ happrover
  | approve load approver status moved records | reject load approver status given moved records =>
    have howner := h.tripUser _ _ (loadVisibleTrip_eq_ok.mp load).2.1
    exact backed_cons (backed_trip (by rw [moved]) (.inl (by rw [moved])))
      (backed_history records hactor howner)
  | reopen load owner status moved records =>
    refine backed_cons (backed_trip (by rw [moved]) (.inr fun k hk => ?_))
      (backed_history records hactor nofun)
    rw [moved] at hk
    cases hk
  | complete load owner status ended moved records =>
    exact backed_cons (backed_trip (by rw [moved]) (.inl (by rw [moved])))
      (backed_history records hactor nofun)

theorem Desk.ExpenseDeed.backed {call : ExpenseCall}
    (deed : Desk.ExpenseDeed s env user call ws) (h : Intact s)
    (huser : s.users.get user.id = some user.toUser) : ∀ w ∈ ws, w.Backed s := by
  have hactor : (s.users.get user.id).isSome := by rw [huser]; rfl
  cases deed with
  | create load owner reportable single new records =>
    have htrip := (loadVisibleTrip_eq_ok.mp load).2.1
    refine backed_cons (backed_new_report ?_ fun k hk => ?_) (backed_history records hactor nofun)
    · exact h.tripUser _ _ htrip _ (congrArg some new.userId.symm)
    · exact h.tripApprover _ _ htrip k (new.approverId.symm.trans hk)
  | update load centers assigned records =>
    exact backed_cons (backed_report (by rw [assigned]) (by rw [assigned])
      (.inl (by rw [assigned]))) (backed_history records hactor nofun)
  | addItem load new flush recalc =>
    refine backed_item (fun k hk => ?_) fun i old new hw => by cases hw
    obtain ⟨txn, husable⟩ := new.usable k hk
    rw [(assertUsableTransaction_eq_ok.mp husable).2.1]
    rfl
  | updateItem int4 get load checked assigned flush recalc =>
    obtain ⟨hreport, htransaction, -⟩ := Desk.assignItem_eq_ok assigned
    refine backed_item (fun k hk => (hk.1 htransaction).elim) fun i old new hw => ?_
    cases hw
    exact hreport
  | deleteItem int4 get load flush recalc =>
    exact backed_item (fun _ => False.elim) fun i old new hw => by cases hw
  | submit load owner status trip completed present centers items recalc approver moved records =>
    have happrover := h.tripApprover _ _ trip _ approver
    refine backed_cons (backed_report (by rw [moved]) (by rw [moved]) (.inr fun k hk => ?_))
      (backed_history records hactor fun k hk => Option.some.inj hk ▸ happrover)
    rw [moved] at hk
    exact Option.some.inj hk ▸ happrover
  | approve load approver status trip completed moved settled records records' =>
    have howner := h.reportUser _ _ (loadVisibleReport_eq_ok.mp load).2.1
    intro w hw
    rcases List.mem_append.mp hw with hw | hw
    · exact backed_cons (backed_report (by rw [moved]) (by rw [moved]) (.inl (by rw [moved])))
        (backed_history records hactor howner) w hw
    · exact backed_cons (backed_trip (by rw [settled]) (.inl (by rw [settled])))
        (backed_history records' hactor nofun) w hw
  | reject load approver status given moved records =>
    have howner := h.reportUser _ _ (loadVisibleReport_eq_ok.mp load).2.1
    exact backed_cons (backed_report (by rw [moved]) (by rw [moved]) (.inl (by rw [moved])))
      (backed_history records hactor howner)
  | reopen load owner status moved records =>
    exact backed_cons (backed_report (by rw [moved]) (by rw [moved]) (.inl (by rw [moved])))
      (backed_history records hactor nofun)

end

section
variable {sec : Security} {s : Store} {env : Env} {p : Plan}

/-- What a patch introduces into a nullable column has been sent. -/
theorem sent_of_setNullable {sent : Sent Int} {old : Option Int} {k : Int}
    (hnew : sent.setNullable old ≠ old) (hk : sent.setNullable old = some k) :
    sent.val? = some k := by
  cases sent with
  | absent => exact (hnew rfl).elim
  | null => cases hk
  | value m => exact hk

open Accounts in
theorem backed_of_accountPlan {call : AccountCall} (h : call.plan sec s env = .ok p) :
    ∀ w ∈ p.writes, w.Backed s := by
  have hchecked := managerChecked_of_plan h
  obtain ⟨w, hw, deed⟩ := accountDeed_of_plan h
  rw [hw]
  refine backed_single ?_
  cases deed with
  | apply fresh => exact ⟨nofun, nofun⟩
  | create fresh => exact ⟨fun k hk => (assertManager_eq_ok.mp hchecked k hk).2.2, nofun⟩
  | update get assigned =>
    obtain ⟨-, rfl⟩ := assign_eq_ok assigned
    refine ⟨fun k hk => ?_, nofun⟩
    exact (assertManager_eq_ok.mp hchecked k (sent_of_setNullable hk.1 hk.2)).2.2
  | approve get status moved =>
    subst moved
    exact ⟨fun k hk => (assertManager_eq_ok.mp hchecked k hk.2).2.2, nofun⟩
  | reapply get email status moved | setPassword get moved | reject get status moved =>
    subst moved
    exact ⟨fun k hk => (hk.1 rfl).elim, nofun⟩

/-- `update_code` has no field for the group. -/
theorem assignCode_groupId {c c' : Code} {payload : CodeUpdate}
    (h : Admin.CodeMaster.assignCode c payload = .ok c') : c'.groupId = c.groupId := by
  simp only [Admin.CodeMaster.assignCode, bind_eq_ok, pure_eq_ok, Except.ok.injEq] at h
  obtain ⟨_, -, _, -, _, -, _, -, _, -, _, -, rfl⟩ := h
  rfl

theorem backed_of_codePlan {call : CodeCall} (h : call.plan s env = .ok p) :
    ∀ w ∈ p.writes, w.Backed s := by
  rcases Masters.codeDeed_of_plan h with ⟨w, hw, deed⟩ | ⟨⟨w, hw⟩, -⟩
  · rw [hw]
    refine backed_single fun i old new he => ?_
    cases deed with
    | create extra | delete => cases he
    | update get assigned =>
      cases he
      exact assignCode_groupId assigned
  · rw [hw]
    exact backed_single trivial

/-- `create_card` looks the owner up. -/
theorem backed_of_createCard {payload : AdminCardCreate}
    (h : Admin.Cards.createCard s env payload = .ok p) : ∀ w ∈ p.writes, w.Backed s := by
  obtain ⟨user, hget, h⟩ := bind_eq_ok.mp h
  obtain ⟨_, hsome, h⟩ := bind_eq_ok.mp h
  obtain ⟨_, -, h⟩ := bind_eq_ok.mp h
  obtain ⟨_, -, h⟩ := bind_eq_ok.mp h
  rw [pure_eq_ok, Except.ok.injEq] at h
  subst h
  refine backed_single fun k hk => ?_
  obtain rfl := Option.some.inj hk
  rw [(sessionGet_eq_ok.mp hget).2]
  exact guardE_eq_ok.mp hsome

/-- The owner of a card stays. -/
theorem backed_of_updateCard {cardId : Int} {payload : AdminCardUpdate}
    (h : Admin.Cards.updateCard s env cardId payload = .ok p) : ∀ w ∈ p.writes, w.Backed s := by
  obtain ⟨c, -, h⟩ := bind_eq_ok.mp h
  obtain ⟨c', hassign, h⟩ := bind_eq_ok.mp h
  rw [pure_eq_ok, Except.ok.injEq] at h
  subst h
  exact backed_single fun k hk => (hk.1 (congrArg some (Masters.assign_userId hassign))).elim

theorem backed_of_masterPlan {call : MasterCall} (h : call.plan s env = .ok p) :
    ∀ w ∈ p.writes, w.Backed s := by
  cases call with
  | createCard payload => exact backed_of_createCard h
  | updateCard cardId payload => exact backed_of_updateCard h
  | deleteCard cardId =>
    obtain ⟨_, -, h⟩ := bind_eq_ok.mp h
    rw [pure_eq_ok, Except.ok.injEq] at h
    exact h ▸ backed_single fun _ => False.elim
  | createDepartment payload | updateDepartment departmentId payload | createCenter kind payload
  | updateCenter kind centerId payload =>
    obtain ⟨_, -, h⟩ := bind_eq_ok.mp h
    obtain ⟨_, -, h⟩ := bind_eq_ok.mp h
    obtain ⟨_, -, h⟩ := bind_eq_ok.mp h
    rw [pure_eq_ok, Except.ok.injEq] at h
    exact h ▸ backed_single trivial
  | deleteDepartment departmentId | deleteCenter kind centerId =>
    obtain ⟨_, -, h⟩ := bind_eq_ok.mp h
    obtain ⟨_, -, h⟩ := bind_eq_ok.mp h
    rw [pure_eq_ok, Except.ok.injEq] at h
    exact h ▸ backed_single trivial

theorem backed_of_personalPlan {user : CurrentUser} {call : PersonalCall}
    (huser : s.users.get user.id = some user.toUser)
    (h : call.plan sec s env user = .ok p) : ∀ w ∈ p.writes, w.Backed s := by
  cases call with
  | createKey payload =>
    obtain ⟨⟨raw, p'⟩, hkey, h⟩ := bind_eq_ok.mp h
    obtain ⟨scopes, -, hkey⟩ := bind_eq_ok.mp hkey
    obtain ⟨_, -, hkey⟩ := bind_eq_ok.mp hkey
    obtain ⟨_, -, hkey⟩ := bind_eq_ok.mp hkey
    rw [pure_eq_ok, Except.ok.injEq, Prod.mk.injEq] at hkey
    obtain ⟨-, rfl⟩ := hkey
    have h : Except.ok _ = Except.ok p := h
    obtain rfl := Except.ok.inj h
    refine backed_single fun k hk => ?_
    obtain rfl := Option.some.inj hk
    show (s.users.get user.id).isSome
    rw [huser]
    rfl
  | revokeKey keyId =>
    obtain ⟨o, -, h⟩ := bind_eq_ok.mp h
    obtain ⟨key, -, h⟩ := bind_eq_ok.mp h
    obtain ⟨_, -, h⟩ := bind_eq_ok.mp h
    rw [pure_eq_ok, Except.ok.injEq] at h
    exact h ▸ backed_single fun k hk => (hk.1 rfl).elim
  | markRead notificationId =>
    obtain ⟨o, -, h⟩ := bind_eq_ok.mp h
    obtain ⟨n, -, h⟩ := bind_eq_ok.mp h
    rw [pure_eq_ok, Except.ok.injEq] at h
    exact h ▸ backed_single fun k hk => (hk.1 rfl).elim

theorem backed_of_plan {req : Request Call} (hs : Intact s)
    (h : (system sec).plan s req = .ok p) : ∀ w ∈ p.writes, w.Backed s := by
  rcases req with ⟨env, call⟩
  cases call with
  | desk userId call =>
    obtain ⟨user, huser, h⟩ := bind_eq_ok.mp h
    obtain ⟨huser, rfl⟩ := currentUser_eq_ok.mp huser
    cases call with
    | trip call => exact (Desk.tripDeed_of_plan h).backed hs huser
    | expense call => exact (Desk.expenseDeed_of_plan h).backed hs huser
  | account call => exact backed_of_accountPlan h
  | code call => exact backed_of_codePlan h
  | master call => exact backed_of_masterPlan h
  | personal userId call =>
    obtain ⟨user, huser, h⟩ := bind_eq_ok.mp h
    obtain ⟨huser, rfl⟩ := currentUser_eq_ok.mp huser
    exact backed_of_personalPlan huser h

/-- A use of a key writes to its row, and not the owner. -/
theorem backed_of_keyPlan {e : Accounts.KeyEvent} (hs : Intact s)
    (h : (Accounts.keys sec).plan s e = .ok p) : ∀ w ∈ p.writes, w.Backed s := by
  cases e with
  | request req => exact backed_of_plan hs h
  | authenticate env raw =>
    obtain ⟨⟨user, scopes, p'⟩, huse, hp⟩ := bind_eq_ok.mp h
    obtain rfl := Except.ok.inj hp
    obtain ⟨_, -, huse⟩ := bind_eq_ok.mp huse
    obtain ⟨⟨k, key⟩, -, huse⟩ := bind_eq_ok.mp huse
    obtain ⟨_, -, huse⟩ := bind_eq_ok.mp huse
    obtain ⟨_, -, huse⟩ := bind_eq_ok.mp huse
    obtain ⟨u, -, huse⟩ := bind_eq_ok.mp huse
    simp only [pure_eq_ok, Except.ok.injEq, Prod.mk.injEq] at huse
    obtain ⟨-, -, rfl⟩ := huse
    exact backed_single fun k hk => (hk.1 rfl).elim

end

/-! ## Interleavings -/

theorem keeps_intact (sec : Security) :
    (Accounts.keys sec).Keeps Intact Grown fun _ _ => True where
  refl := .refl
  trans _ _ _ := .trans
  commit _ f _ hs hseen hgrown _ hc := by
    have hws := backed_of_keyPlan hseen f.planned
    exact hs.flushes (fun w hw => (hws w hw).grown hgrown) (Plan.commit_eq_ok.mp hc)

/-- Requests and uses of API keys, overlapping in any way, leave every foreign key intact. No user
and no card transaction is ever lost, and at whatever moment a request commits, it finds
what its statements refer to and have not looked up again. -/
theorem references_intact (sec : Security) {s : Store} (h : Intact s)
    (evs : List (Machine.Event Accounts.KeyEvent)) :
    let c := (Machine.Config.quiet (Accounts.keys sec) s).exec evs
    Intact c.db ∧ Grown s c.db ∧ ∀ f ∈ c.flying, ∀ w ∈ f.writes.writes, w.Backed c.db := by
  intro c
  have hsound := (Machine.Config.sound_quiet (M := Accounts.keys sec) ⟨h, Grown.refl s⟩).exec
    ((keeps_intact sec).since s) (Machine.Config.each_true _ evs)
  refine ⟨hsound.db.1, hsound.db.2, fun f hf w hw => ?_⟩
  obtain ⟨hseen, hgrown⟩ := hsound.flying f hf
  exact (backed_of_keyPlan hseen.1 f.planned w hw).grown hgrown

/-- The office has no dangling reference to begin with. -/
theorem intact_office : Intact Office.store where
  userManager := by decide +kernel
  keyUser := by decide +kernel
  departmentParent := by decide +kernel
  codeGroup := by decide +kernel
  fundDepartment := by decide +kernel
  costDepartment := by decide +kernel
  cardUser := by decide +kernel
  transactionCard := by decide +kernel
  tripUser := by decide +kernel
  tripApprover := by decide +kernel
  reportTrip := by decide +kernel
  reportUser := by decide +kernel
  reportApprover := by decide +kernel
  itemReport := by decide +kernel
  itemTransaction := by decide +kernel
  logActor := by decide +kernel
  notificationUser := by decide +kernel

/-- While Kim applies for a trip, an administrator takes Kim's department away. -/
theorem references_intact_office :
    Intact ((Machine.Config.quiet (Accounts.keys Office.sec) Office.store).exec
      [.begin (.request ⟨Office.env, .desk 1 (.trip (.create Office.trip))⟩),
        .begin (.request ⟨Office.env, .master (.deleteDepartment 1)⟩), .commit 1, .commit 0]).db :=
  (references_intact Office.sec intact_office _).1

end Biztrip
