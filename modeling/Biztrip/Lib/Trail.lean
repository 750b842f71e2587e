/-!
# A log that replays to the current state

`Trail src dst Legal start log state` says that the entries of `log` lead from nothing to
`start` and on to `state`: each entry starts where the one before it ended, and keeps the
state or makes a legal step. A log that is only ever appended to is a trail as soon as
every entry records the state it found and the one it left (`Trail.snoc`).
-/

namespace Biztrip.Lib

variable {ε τ : Type}

structure Trail (src dst : ε → Option τ) (Legal : τ → τ → Prop) (start : τ) (log : List ε)
    (state : τ) : Prop where
  first : ∃ e, log[0]? = some e ∧ src e = none ∧ dst e = some start
  linked : ∀ n e e', log[n]? = some e → log[n + 1]? = some e' → src e' = dst e
  legal : ∀ n e, log[n + 1]? = some e →
    ∃ a b, src e = some a ∧ dst e = some b ∧ (b = a ∨ Legal a b)
  last : ∃ e, log.getLast? = some e ∧ dst e = some state

variable {src dst : ε → Option τ} {Legal : τ → τ → Prop} {start a b : τ} {log : List ε} {e : ε}

theorem Trail.single (hsrc : src e = none) (hdst : dst e = some start) :
    Trail src dst Legal start [e] start :=
  ⟨⟨e, rfl, hsrc, hdst⟩, nofun, nofun, e, rfl, hdst⟩

theorem Trail.snoc (h : Trail src dst Legal start log a) (hsrc : src e = some a)
    (hdst : dst e = some b) (hlegal : b = a ∨ Legal a b) :
    Trail src dst Legal start (log ++ [e]) b := by
  -- an entry of the longer log is the new one or an old one
  have hcases : ∀ n x, (log ++ [e])[n]? = some x →
      log[n]? = some x ∨ (n = log.length ∧ x = e) := by
    intro n x hn
    rw [List.getElem?_append] at hn
    split at hn
    · exact .inl hn
    · next hlt =>
      obtain ⟨hn0, hx⟩ := List.getElem?_eq_some_iff.mp hn
      rw [List.length_singleton] at hn0
      exact .inr ⟨by omega, by simpa using hx.symm⟩
  obtain ⟨e₁, hlast, hend⟩ := h.last
  refine ⟨?_, fun n x y hx hy => ?_, fun n x hx => ?_, e, by simp, hdst⟩
  · obtain ⟨e₀, he₀, hfirst⟩ := h.first
    have hpos : 0 < log.length := (List.getElem?_eq_some_iff.mp he₀).1
    exact ⟨e₀, by rw [List.getElem?_append_left hpos, he₀], hfirst⟩
  · rcases hcases (n + 1) y hy with hy | ⟨hlen, rfl⟩
    · have hlt : n < log.length := by
        have := (List.getElem?_eq_some_iff.mp hy).1
        omega
      rw [List.getElem?_append_left hlt] at hx
      exact h.linked n x y hx hy
    · have hlt : n < log.length := by omega
      rw [List.getElem?_append_left hlt] at hx
      rw [List.getLast?_eq_getElem?, ← hlen, Nat.add_sub_cancel, hx, Option.some.injEq] at hlast
      rw [hsrc, hlast, hend]
  · rcases hcases (n + 1) x hx with hx | ⟨-, rfl⟩
    · exact h.legal n x hx
    · exact ⟨a, b, hsrc, hdst, hlegal⟩

end Biztrip.Lib
