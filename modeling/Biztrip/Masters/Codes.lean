import Biztrip.System

/-!
# Reading the code master

The replies of `load_code_groups`, `load_code_group` and the administrator's
`list_code_groups` declare the `extra` of a code as an object. `create_code`
stores one; `update_code` stores whatever it is sent, and an explicit null
becomes JSON's null, which the column admits. One such row fails every reply it
is part of.
-/

namespace Biztrip.Masters

open Biztrip.Lib Codes Admin Admin.CodeMaster

/-- What the replies need of a row. -/
def Readable (c : Code) : Prop := ∃ o, c.extra = .object o

/-- Every stored code is readable, and so is every list of them. -/
structure ReadableCodes (s : Store) : Prop where
  codes : ∀ i c, s.codes.get i = some c → Readable c
  loadCodeGroups : ∃ out, loadCodeGroups s = .ok out
  loadCodeGroup : ∀ groupCode field, loadCodeGroup s groupCode ≠ .error (.responseInvalid field)
  listCodeGroups : ∃ out, listCodeGroups s = .ok out

/-- `update_code` is not sent an explicit null for `extra`. -/
def SendsNoNullExtra (req : Request CodeCall) : Prop :=
  ∀ codeId payload, req.call = .update codeId payload → payload.extra ≠ .null

variable {s s' : Store} {req : Request CodeCall} {c c' : Code}

/-! ## Replies -/

theorem mem_codesOf {groupId : Int} {p : Int × Code} (h : p ∈ codesOf s groupId) :
    s.codes.get p.1 = some p.2 :=
  Table.mem_rows.mp (List.mem_filter.mp h).1

theorem toGroupOut_isOk (h : ∀ i c, s.codes.get i = some c → Readable c) (groupId : Int)
    (group : CodeGroup) : ∃ out, toGroupOut s groupId group = .ok out := by
  have hrow : ∀ p ∈ ((codesOf s groupId).filter fun p => p.2.isActive).insertionSort
      (fun a b => a.2.sortOrder ≤ b.2.sortOrder), ∃ out, codeOut p.2 = .ok out := by
    intro p hp
    obtain ⟨o, ho⟩ := h p.1 p.2
      (mem_codesOf (List.mem_filter.mp ((List.mem_insertionSort _).mp hp)).1)
    exact ⟨_, by rw [codeOut, ho]; rfl⟩
  obtain ⟨out, hout⟩ := mapE_isOk.mpr hrow
  exact ⟨_, bind_eq_ok.mpr ⟨out, hout, rfl⟩⟩

theorem toCodeOut_isOk_iff {i : Int} : (∃ out, toCodeOut i c = .ok out) ↔ Readable c := by
  unfold toCodeOut Readable
  rcases hc : c.extra with _ | _ | _ | _ | _ | _ | o <;> simp [asObject]

/-- The reply for a group is built from all its codes. -/
theorem toOut_isOk_iff {groupId : Int} {group : CodeGroup} :
    (∃ out, toOut s groupId group = .ok out) ↔ ∀ p ∈ codesOf s groupId, Readable p.2 := by
  simp only [toOut, bind_eq_ok, pure_eq_ok, Except.ok.injEq]
  rw [exists_comm]
  simp only [exists_and_left, exists_eq', and_true, mapE_isOk, List.mem_insertionSort,
    toCodeOut_isOk_iff]

theorem readableCodes_iff : ReadableCodes s ↔ ∀ i c, s.codes.get i = some c → Readable c := by
  refine ⟨ReadableCodes.codes, fun h => ⟨h, ?_, fun groupCode field he => ?_, ?_⟩⟩
  · exact mapE_isOk.mpr fun p _ => toGroupOut_isOk h p.1 p.2
  · rcases bind_eq_error.mp he with he | ⟨_, -, he⟩
    · cases (guardE_eq_error.mp he).2
    · split at he
      · cases he
      · next q hq =>
        obtain ⟨out, hout⟩ := toGroupOut_isOk h q.1 q.2
        rw [hout] at he
        cases he
  · exact mapE_isOk.mpr fun p _ => toOut_isOk_iff.mpr fun q hq => h q.1 q.2 (mem_codesOf hq)

/-! ## One request -/

/-- The statements on the table of codes. -/
inductive CodeDeed (s : Store) : CodeCall → RowWrite Code → Prop where
  | create {groupId : Int} {payload : CodeCreate} {c : Code}
    (extra : c.extra = .object payload.extra) :
    CodeDeed s (.create groupId payload) (.insert c)
  | update {codeId : Int} {payload : CodeUpdate} {c c' : Code} (get : s.codes.get codeId = some c)
    (assigned : assignCode c payload = .ok c') :
    CodeDeed s (.update codeId payload) (.update codeId c c')
  | delete {codeId : Int} : CodeDeed s (.delete codeId) (.delete codeId)

theorem CodeDeed.loaded {call : CodeCall} {w : RowWrite Code} (h : CodeDeed s call w) :
    w.Loaded s.codes := by
  cases h with
  | update get => exact get
  | _ => trivial

theorem assignCode_extra {payload : CodeUpdate} (h : assignCode c payload = .ok c') :
    c'.extra = assignExtra c.extra payload.extra := by
  simp only [assignCode, bind_eq_ok, pure_eq_ok, Except.ok.injEq] at h
  obtain ⟨_, -, _, -, _, -, _, -, _, -, _, -, rfl⟩ := h
  rfl

/-- The plan of a call is one statement: on the codes, or on their groups. -/
theorem codeDeed_of_plan {env : Env} {call : CodeCall} {p : Plan} (h : call.plan s env = .ok p) :
    (∃ w, p.writes = [.code w] ∧ CodeDeed s call w) ∨
      ((∃ w, p.writes = [.codeGroup w]) ∧ ∀ codeId payload, call ≠ .update codeId payload) := by
  cases call with
  | createGroup payload =>
    refine .inr ⟨?_, nofun⟩
    obtain ⟨_, -, h⟩ := bind_eq_ok.mp h
    obtain ⟨_, -, h⟩ := bind_eq_ok.mp h
    obtain ⟨_, -, h⟩ := bind_eq_ok.mp h
    rw [pure_eq_ok, Except.ok.injEq] at h
    exact ⟨_, by rw [← h]⟩
  | updateGroup groupId payload =>
    refine .inr ⟨?_, nofun⟩
    obtain ⟨_, -, h⟩ := bind_eq_ok.mp h
    obtain ⟨_, -, h⟩ := bind_eq_ok.mp h
    rw [pure_eq_ok, Except.ok.injEq] at h
    exact ⟨_, by rw [← h]⟩
  | deleteGroup groupId =>
    refine .inr ⟨?_, nofun⟩
    obtain ⟨_, -, h⟩ := bind_eq_ok.mp h
    obtain ⟨_, -, h⟩ := bind_eq_ok.mp h
    rw [pure_eq_ok, Except.ok.injEq] at h
    exact ⟨_, by rw [← h]; rfl⟩
  | create groupId payload =>
    obtain ⟨_, -, h⟩ := bind_eq_ok.mp h
    obtain ⟨_, -, h⟩ := bind_eq_ok.mp h
    obtain ⟨_, -, h⟩ := bind_eq_ok.mp h
    obtain ⟨_, -, h⟩ := bind_eq_ok.mp h
    obtain ⟨_, -, h⟩ := bind_eq_ok.mp h
    rw [pure_eq_ok, Except.ok.injEq] at h
    exact .inl ⟨_, by rw [← h], .create rfl⟩
  | update codeId payload =>
    obtain ⟨c, hload, h⟩ := bind_eq_ok.mp h
    obtain ⟨c', hassign, h⟩ := bind_eq_ok.mp h
    rw [pure_eq_ok, Except.ok.injEq] at h
    exact .inl ⟨_, by rw [← h], .update (loadOr_eq_ok.mp hload).2 hassign⟩
  | delete codeId =>
    obtain ⟨_, -, h⟩ := bind_eq_ok.mp h
    obtain ⟨_, -, h⟩ := bind_eq_ok.mp h
    rw [pure_eq_ok, Except.ok.injEq] at h
    exact .inl ⟨_, by rw [← h]; rfl, .delete⟩

theorem ReadableCodes.step_iff (h : ReadableCodes s) (hstep : codeMaster.step s req = .ok s') :
    ReadableCodes s' ↔ SendsNoNullExtra req := by
  obtain ⟨p, hplan, hcommit⟩ := bind_eq_ok.mp hstep
  have hc := Plan.commit_eq_ok.mp hcommit
  rw [readableCodes_iff] at h ⊢
  unfold SendsNoNullExtra
  rcases codeDeed_of_plan hplan with ⟨w, hw, deed⟩ | ⟨⟨w, hw⟩, hno⟩
  · simp only [hw, List.foldlM_cons, List.foldlM_nil, bind_eq_ok, pure_eq_ok, Except.ok.injEq] at hc
    obtain ⟨s₁, hflush, rfl⟩ := hc
    obtain ⟨_, -, hflush⟩ := bind_eq_ok.mp hflush
    obtain ⟨codes, happly, hs⟩ := bind_eq_ok.mp hflush
    rw [pure_eq_ok, Except.ok.injEq] at hs
    subst hs
    refine (deed.loaded.forall_iff (K := Readable) (fun _ _ => Iff.rfl) happly h).trans ?_
    generalize req.call = call at deed
    cases deed with
    | create extra => simp [RowWrite.row?, Readable, extra]
    | delete => simp [RowWrite.row?]
    | @update codeId payload c c' get assigned =>
      simp only [RowWrite.row?, Option.some.injEq, forall_eq', Readable, assignCode_extra assigned,
        CodeCall.update.injEq, and_imp]
      constructor
      · rintro ⟨o, ho⟩ _ _ rfl rfl hnull
        simp [hnull, assignExtra] at ho
      · intro hcond
        rcases hp : payload.extra with _ | _ | o
        · exact h _ _ get
        · exact absurd hp (hcond _ _ rfl rfl)
        · exact ⟨o, rfl⟩
  · simp only [hw, List.foldlM_cons, List.foldlM_nil, bind_eq_ok, pure_eq_ok, Except.ok.injEq] at hc
    obtain ⟨s₁, hflush, rfl⟩ := hc
    obtain ⟨_, -, hflush⟩ := bind_eq_ok.mp hflush
    obtain ⟨groups, -, hs⟩ := bind_eq_ok.mp hflush
    rw [pure_eq_ok, Except.ok.injEq] at hs
    subst hs
    exact iff_of_true h fun codeId payload he => absurd he (hno codeId payload)

/-! ## Runs -/

/-- In a serial run of code requests from a store without codes, all code lists stay readable if and
only if no `update_code` that goes through sends an explicit null for `extra`. -/
theorem code_reads_unbroken_iff {s₀ : Store} (h₀ : s₀.codes.rows = [])
    (reqs : List (Request CodeCall)) :
    (∀ n, ReadableCodes (Run.all codeMaster.step s₀ (reqs.take n))) ↔
      Run.Each codeMaster.step
        (fun s req => ∀ s', codeMaster.step s req = .ok s' → SendsNoNullExtra req) s₀ reqs :=
  Run.throughout_iff (J := fun _ => True) (fun _ _ _ _ _ => trivial)
    (fun _ _ _ _ hs hstep => hs.step_iff hstep) trivial <|
    readableCodes_iff.mpr fun i c hc => by simp [Table.get_of_rows_nil h₀] at hc

/-! ## In the office -/

/-- A group with one code, whose `extra` is then set to null. -/
def nullExtra : List (Request CodeCall) :=
  [⟨Office.env, .createGroup { groupCode := ⟨"RANK", by decide⟩, name := ⟨"Rank", by decide⟩ }⟩,
    ⟨Office.env, .create 1 { code := ⟨"A", by decide⟩, name := ⟨"A", by decide⟩ }⟩,
    ⟨Office.env, .update 1 { extra := .null }⟩]

theorem code_reads_unbroken_iff_office :
    (∀ n, ReadableCodes (Run.all codeMaster.step Store.empty (nullExtra.take n))) ↔
      Run.Each codeMaster.step
        (fun s req => ∀ s', codeMaster.step s req = .ok s' → SendsNoNullExtra req) Store.empty
        nullExtra :=
  code_reads_unbroken_iff rfl nullExtra

/-- The write goes through, and the administrator's list and everybody's list fail from then on. -/
theorem code_reads_broken :
    ¬ ∀ (s₀ : Store) (reqs : List (Request CodeCall)), s₀.codes.rows = [] →
      (∃ out, loadCodeGroups (Run.all codeMaster.step s₀ reqs) = .ok out) ∧
      ∃ out, listCodeGroups (Run.all codeMaster.step s₀ reqs) = .ok out := by
  intro hall
  obtain ⟨⟨out, hout⟩, -⟩ := hall Store.empty nullExtra rfl
  have he : loadCodeGroups (Run.all codeMaster.step Store.empty nullExtra) =
      .error (.responseInvalid "extra") := by
    decide +kernel
  rw [he] at hout
  cases hout

end Biztrip.Masters
