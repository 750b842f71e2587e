import Biztrip.Desk.Coupling
import Biztrip.Desk.Rows
import Biztrip.Masters.Centers

/-!
# Whose transactions an item links

An item links a transaction only if that is on a card of the report's owner, and it stays
so: cards and reports keep their owners, a card that has transactions is not deleted, and
nothing writes a transaction (`Kept`). With the coupling of trips and reports and the
distinct codes of the cost centers this is what the read calls rely on (`Sound`).
-/

namespace Biztrip.Reads

open Biztrip.Lib Desk Masters Expenses

/-- The transaction of the item, if it has one, is on a card of the report's owner. -/
def LinksOwn (s : Store) (it : ExpenseItem) : Prop :=
  ∀ x, it.cardTransactionId = some x → ∃ r t card, s.reports.get it.reportId = some r ∧
    s.transactions.get x = some t ∧ s.cards.get t.cardId = some card ∧ card.userId = r.userId

def DistinctCodes (t : Table Center) : Prop :=
  ∀ i j c c', t.get i = some c → t.get j = some c' → c.code = c'.code → i = j

/-- What the read calls rely on. -/
structure Sound (s : Store) : Prop where
  coupled : Coupled s
  linked : ∀ k it, s.items.get k = some it → LinksOwn s it
  codes : DistinctCodes s.costCenters

/-- A store without trips, reports and items, as far as its constraints allow. -/
structure Blank (s : Store) : Prop where
  trips : s.trips.rows = []
  reports : s.reports.rows = []
  items : s.items.rows = []
  codes : DistinctCodes s.costCenters

theorem Blank.sound {s : Store} (h : Blank s) : Sound s where
  coupled := .of_no_trips h.trips h.reports
  linked k it hk := by simp [Table.get_of_rows_nil h.items] at hk
  codes := h.codes

/-- A store that serial requests of the system lead to from a blank one. -/
def Reachable (s : Store) : Prop :=
  ∃ sec s₀ reqs, Blank s₀ ∧ s = Run.all (system sec).step s₀ reqs

variable {seen s s' : Store} {env : Env} {user : CurrentUser} {now : Instant} {ws : List Write}
  {it : ExpenseItem} {sec : Security}

/-! ## What is kept -/

structure Kept (s s' : Store) : Prop where
  transactions : s'.transactions = s.transactions
  reports : Retains ExpenseReport.userId s.reports s'.reports
  cards : ∀ x t card, s.transactions.get x = some t → s.cards.get t.cardId = some card →
    ∃ card', s'.cards.get t.cardId = some card' ∧ card'.userId = card.userId

theorem Kept.refl (s : Store) : Kept s s := ⟨rfl, .refl _, fun _ _ card _ hc => ⟨card, hc, rfl⟩⟩

theorem Kept.trans {s'' : Store} (h : Kept s s') (h' : Kept s' s'') : Kept s s'' where
  transactions := h'.transactions.trans h.transactions
  reports := h.reports.trans h'.reports
  cards x t card ht hcard := by
    obtain ⟨card', hcard', hsame⟩ := h.cards x t card ht hcard
    rw [← h.transactions] at ht
    obtain ⟨card'', hcard'', hsame'⟩ := h'.cards x t card' ht hcard'
    exact ⟨card'', hcard'', hsame'.trans hsame⟩

theorem LinksOwn.kept (h : LinksOwn s it) (hkept : Kept s s') : LinksOwn s' it := by
  intro x hx
  obtain ⟨r, t, card, hr, ht, hcard, howner⟩ := h x hx
  obtain ⟨r', hr', hsame⟩ := hkept.reports _ r hr
  obtain ⟨card', hcard', hsame'⟩ := hkept.cards x t card ht hcard
  rw [← hkept.transactions] at ht
  exact ⟨r', t, card', hr', ht, hcard', by rw [hsame', hsame, howner]⟩

/-- No statement is about the transactions, and only its own kind is about the cards or the cost
centers. -/
theorem aside_of_flush {w : Write} (h : s.flush now w = .ok s') :
    s'.transactions = s.transactions ∧ ((∀ w', w ≠ .card w') → s'.cards = s.cards) ∧
      ((∀ w', w ≠ .center .cost w') → s'.costCenters = s.costCenters) := by
  obtain ⟨_, -, h⟩ := bind_eq_ok.mp h
  cases w with
  | log entity row =>
    obtain rfl := Except.ok.inj h
    exact ⟨rfl, fun _ => rfl, fun _ => rfl⟩
  | card w =>
    obtain ⟨t, -, h⟩ := bind_eq_ok.mp h
    obtain rfl := Except.ok.inj h
    exact ⟨rfl, fun hw => absurd rfl (hw w), fun _ => rfl⟩
  | center kind w =>
    obtain ⟨t, -, h⟩ := bind_eq_ok.mp h
    obtain rfl := Except.ok.inj h
    cases kind with
    | fund => exact ⟨rfl, fun _ => rfl, fun _ => rfl⟩
    | cost => exact ⟨rfl, fun _ => rfl, fun hw => absurd rfl (hw w)⟩
  | _ w =>
    obtain ⟨t, -, h⟩ := bind_eq_ok.mp h
    obtain rfl := Except.ok.inj h
    exact ⟨rfl, fun _ => rfl, fun _ => rfl⟩

theorem transactions_of_flushes (h : ws.foldlM (Store.flush now) s = .ok s') :
    s'.transactions = s.transactions :=
  relation_of_flushes (R := fun a b => b.transactions = a.transactions) (fun _ => rfl)
    (fun _ _ _ hab hbc => hbc.trans hab) (fun _ _ _ _ hflush => (aside_of_flush hflush).1) h

theorem follows_owner : Follows ExpenseReport.userId where
  merge h cur := by simp [merge, h]
  stamp _ _ := rfl

theorem retains_of_expense {call : ExpenseCall} (deed : ExpenseDeed seen env user call ws)
    (hc : ws.foldlM (Store.flush now) s = .ok s') :
    Retains ExpenseReport.userId s.reports s'.reports := by
  cases deed with
  | create load owner reportable single new records =>
    obtain ⟨-, u, happly, rfl⟩ := commit_report hc
    rw [RowWrite.apply_insert, Except.ok.injEq] at happly
    subst happly
    exact .insert _ _
  | update load centers assigned records =>
    obtain ⟨-, u, happly, rfl⟩ := commit_report hc
    exact .of_writtenBack follows_owner (by rw [assigned]) (writtenBack_of_apply happly)
  | addItem | updateItem | deleteItem =>
    obtain ⟨u, u', -, -, hreport, rfl⟩ := commit_edit hc
    refine .of_writtenBack follows_owner ?_ (writtenBack_of_apply hreport)
    rfl
  | approve load approver status trip completed moved settled records records' =>
    obtain ⟨u, u', hreport, -, rfl⟩ := commit_approve hc
    exact .of_writtenBack follows_owner (by rw [moved]) (writtenBack_of_apply hreport)
  | submit load owner status trip completed present centers items recalc approver moved records =>
    obtain ⟨-, u, happly, rfl⟩ := commit_report hc
    exact .of_writtenBack follows_owner (by rw [moved]) (writtenBack_of_apply happly)
  | reject load approver status given moved records =>
    obtain ⟨-, u, happly, rfl⟩ := commit_report hc
    exact .of_writtenBack follows_owner (by rw [moved]) (writtenBack_of_apply happly)
  | reopen load owner status moved records =>
    obtain ⟨-, u, happly, rfl⟩ := commit_report hc
    exact .of_writtenBack follows_owner (by rw [moved]) (writtenBack_of_apply happly)

theorem kept_of_deed {call : DeskCall} (deed : Desk.Deed seen env user call ws)
    (hc : ws.foldlM (Store.flush now) s = .ok s') : Kept s s' where
  transactions := transactions_of_flushes hc
  reports := by
    cases deed with
    | trip deed => exact (deed.tables hc).1 ▸ .refl _
    | expense deed => exact retains_of_expense deed hc
  cards x t card _ hcard := ⟨card, by rwa [(sameMasters_of_deed deed hc).cards], rfl⟩

theorem follows_cardOwner : Follows CorporateCard.userId where
  merge h cur := by simp [merge, h]
  stamp _ _ := rfl

/-- A card that has transactions stays, and stays with its owner. -/
theorem cards_of_card {w : RowWrite CorporateCard} (deed : CardDeed seen w)
    (h : s.flush now (.card w) = .ok s') {x : Int} {t : CardTransaction} {card : CorporateCard}
    (ht : s.transactions.get x = some t) (hcard : s.cards.get t.cardId = some card) :
    ∃ card', s'.cards.get t.cardId = some card' ∧ card'.userId = card.userId := by
  obtain ⟨_, hcheck, h⟩ := bind_eq_ok.mp h
  obtain ⟨u, happly, h⟩ := bind_eq_ok.mp h
  obtain rfl := Except.ok.inj h
  cases deed with
  | create =>
    rw [RowWrite.apply_insert, Except.ok.injEq] at happly
    subst happly
    exact ⟨card, Table.get_insert_of_some hcard, rfl⟩
  | update get userId =>
    exact Retains.of_writtenBack follows_cardOwner userId (writtenBack_of_apply happly) _ _ hcard
  | @delete i =>
    rw [RowWrite.apply_delete, Except.ok.injEq] at happly
    subst happly
    have hfree : Store.referenced s.transactions CardTransaction.cardId i = false := by
      simpa using guardE_eq_ok.mp hcheck
    have hne : t.cardId ≠ i := not_referenced hfree ht
    exact ⟨card, by rw [Table.get_delete, if_neg hne, hcard], rfl⟩

theorem kept_of_card {w : RowWrite CorporateCard} (deed : CardDeed seen w)
    (h : s.flush now (.card w) = .ok s') (hdesk : SameDesk s s') : Kept s s' where
  transactions := (aside_of_flush h).1
  reports := hdesk.reports ▸ .refl _
  cards _ _ _ ht hcard := cards_of_card deed h ht hcard

/-- Whatever has been read, a commit of the system keeps owners, cards in use and transactions. -/
theorem kept_of_plan {req : Request Call} {p : Plan} (hplan : (system sec).plan seen req = .ok p)
    (hc : p.writes.foldlM (Store.flush p.now) s = .ok s') : Kept s s' := by
  rcases system_plan_cases hplan with ⟨userId, call, -, hdesk⟩ | hp
  · obtain ⟨user, -, deed⟩ := deed_of_plan hdesk
    exact kept_of_deed deed hc
  have hdesk := sameDesk_of_flushes hp hc
  have hreports : Retains ExpenseReport.userId s.reports s'.reports := hdesk.reports ▸ .refl _
  have hsame : s'.cards = s.cards → Kept s s' := fun h =>
    ⟨transactions_of_flushes hc, hreports, fun _ _ card _ hcard => ⟨card, by rwa [h], rfl⟩⟩
  rcases systemDeed_of_plan hplan with ⟨w, hw, deed⟩ | hother
  · rw [hw, List.foldlM_cons] at hc
    obtain ⟨s₁, hflush, hc⟩ := bind_eq_ok.mp hc
    rw [List.foldlM_nil, pure_eq_ok, Except.ok.injEq] at hc
    subst hc
    cases deed with
    | card deed => exact kept_of_card deed hflush hdesk
    | _ => exact hsame ((aside_of_flush hflush).2.1 fun _ he => nomatch he)
  · exact hsame (sameMasters_of_flushes hother hc).cards

/-! ## The codes of the cost centers -/

theorem distinctCodes_iff {t : Table Center} :
    DistinctCodes t ↔ UniqueOn (fun c : Center => some c.code) t := by
  constructor
  · rintro h i j a b v hi hj ⟨⟩ hb
    exact h i j a b hi hj (Option.some.inj hb).symm
  · intro h i j a b hi hj hcode
    exact h i j a b a.code hi hj rfl (congrArg some hcode.symm)

/-- A code that is taken is not inserted again, and a row keeps its code. -/
theorem distinct_of_center {kind : CenterKind} {w : RowWrite Center} (deed : CenterDeed seen kind w)
    (h : s.flush now (.center kind w) = .ok s') (hcodes : DistinctCodes (s.centers kind)) :
    ∃ u, s' = s.setCenters u kind ∧ DistinctCodes u := by
  obtain ⟨_, hcheck, h⟩ := bind_eq_ok.mp h
  obtain ⟨u, happly, h⟩ := bind_eq_ok.mp h
  refine ⟨u, (Except.ok.inj h).symm, distinctCodes_iff.mpr ?_⟩
  refine (distinctCodes_iff.mp hcodes).of_apply (fun _ _ => congrArg some) follows_code ?_ ?_ happly
  · rintro i old new rfl
    cases deed with
    | update get code => exact code
  · rintro c rfl v ⟨⟩ i c' hi hcode
    obtain ⟨_, hunique, -⟩ := bind_eq_ok.mp hcheck
    exact not_referenced (guardE_eq_ok.mp hunique) hi (Option.some.inj hcode)

/-! ## Runs -/

/-- A new item links what its guard has let through. -/
theorem linksOwn_of_new {j : Int} {r : ExpenseReport} {payload : ExpenseItemCreate}
    (load : loadEditableReport s user j = .ok r) (new : NewItem s j r payload it) :
    LinksOwn s it := by
  intro x hx
  obtain ⟨t, husable⟩ := new.usable x hx
  obtain ⟨-, ht, ⟨card, hcard, howner⟩, -⟩ := assertUsableTransaction_eq_ok.mp husable
  have hreport := (loadEditableReport_eq_ok.mp load).1
  have hr := (loadVisibleReport_eq_ok.mp hreport).2.1
  rw [← new.inReport] at hr
  exact ⟨r, t, card, hr, ht, hcard, howner⟩

/-- An updated item links what it has linked before. -/
theorem linksOwn_of_deed {call : DeskCall} (deed : Desk.Deed s env user call ws) (h : Sound s) :
    ∀ p ∈ itemRows s ws, LinksOwn s p.2 := by
  cases deed with
  | trip deed => cases deed <;> simp
  | expense deed =>
    cases deed with
    | @addItem j payload r it flushed total load new flush recalc =>
      simpa using linksOwn_of_new load new
    | @updateItem k payload r it it' flushed total int4 get load checked assigned flush recalc =>
      have hnew : LinksOwn s it' := by
        obtain ⟨hreport, htransaction, -, -⟩ := assignItem_eq_ok assigned
        unfold LinksOwn
        rw [hreport, htransaction]
        exact h.linked k it get
      simpa using hnew
    | _ => simp

theorem Sound.deskStep {req : DeskRequest} (h : Sound s) (hstep : desk.step s req = .ok s') :
    Sound s' := by
  have hcoupled := h.coupled.step hstep
  obtain ⟨p, hplan, hcommit⟩ := bind_eq_ok.mp hstep
  obtain ⟨user, -, deed⟩ := deed_of_plan hplan
  have hc := Plan.commit_eq_ok.mp hcommit
  have hkept := kept_of_deed deed hc
  refine ⟨hcoupled, ?_, ?_⟩
  · refine (deed.rows hc).items.forall (fun _ _ _ => id) (fun k it hk => ?_) fun q hq => ?_
    · exact (h.linked k it hk).kept hkept
    · exact (linksOwn_of_deed deed h q hq).kept hkept
  · have hcenters := (sameMasters_of_deed deed hc).centers .cost
    change s'.costCenters = s.costCenters at hcenters
    rw [hcenters]
    exact h.codes

theorem codes_of_plan {req : Request Call} {p : Plan} (hplan : (system sec).plan s req = .ok p)
    (hc : p.writes.foldlM (Store.flush p.now) s = .ok s') (h : DistinctCodes s.costCenters) :
    DistinctCodes s'.costCenters := by
  rcases systemDeed_of_plan hplan with ⟨w, hw, deed⟩ | hother
  · rw [hw, List.foldlM_cons] at hc
    obtain ⟨s₁, hflush, hc⟩ := bind_eq_ok.mp hc
    rw [List.foldlM_nil, pure_eq_ok, Except.ok.injEq] at hc
    subst hc
    have hcenters := (aside_of_flush hflush).2.2
    cases deed with
    | @center kind w deed =>
      cases kind with
      | fund =>
        rw [hcenters fun _ he => nomatch he]
        exact h
      | cost =>
        obtain ⟨u, rfl, hcodes⟩ := distinct_of_center deed hflush h
        exact hcodes
    | _ =>
      rw [hcenters fun _ he => nomatch he]
      exact h
  · have hcenters := (sameMasters_of_flushes hother hc).centers .cost
    change s'.costCenters = s.costCenters at hcenters
    rw [hcenters]
    exact h

theorem Sound.step {req : Request Call} (h : Sound s) (hstep : (system sec).step s req = .ok s') :
    Sound s' := by
  rcases system_step_cases hstep with ⟨userId, call, -, hdesk⟩ | hdesk
  · exact h.deskStep hdesk
  obtain ⟨p, hplan, hcommit⟩ := bind_eq_ok.mp hstep
  have hc := Plan.commit_eq_ok.mp hcommit
  refine ⟨h.coupled.of_sameDesk hdesk, fun k it hk => ?_, codes_of_plan hplan hc h.codes⟩
  rw [hdesk.items] at hk
  exact (h.linked k it hk).kept (kept_of_plan hplan hc)

theorem Reachable.sound (h : Reachable s) : Sound s := by
  obtain ⟨sec, s₀, reqs, hblank, rfl⟩ := h
  exact Run.invariant_of_step (fun _ _ _ hs hstep => hs.step hstep) hblank.sound

theorem office_blank : Blank Office.store := by
  refine ⟨rfl, rfl, rfl, fun i j c c' hi hj _ => ?_⟩
  have hone : ∀ {i c}, Office.store.costCenters.get i = some c → i = 1 := by
    intro i c hi
    rcases Table.get_insert_eq_some hi with ⟨rfl, -⟩ | ⟨-, hi⟩
    · rfl
    · rw [Table.get_of_rows_nil rfl] at hi
      cases hi
  rw [hone hi, hone hj]

end Biztrip.Reads
