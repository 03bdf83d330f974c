import AsioThreadGroup.Tunables

/-! What a group shows of itself, how its calls end, the calls it makes into the platform and
what its getters read, depends only on the pool it lays out, not on where in the store its
items lie. -/
namespace Asio.Detail

variable {τ : Cpf} {α : Type}

/-- Two outcomes alike with a third are alike with each other. -/
theorem Outcome.Rel.common {σ σ' : Type} {R : σ → σ' → Prop} {o₁ o₂ : Outcome σ} {o : Outcome σ'}
    (h₁ : o₁.Rel R o) (h₂ : o₂.Rel R o) : o₁.Rel (fun s₁ s₂ => ∃ s, R s₁ s ∧ R s₂ s) o₂ := by
  cases o <;> cases o₁ <;> (try exact h₁.elim) <;> cases o₂ <;>
    first | exact ⟨_, h₁, h₂⟩ | exact h₂.elim

theorem Outcome.Rel.mono {σ σ' : Type} {R S : σ → σ' → Prop} {o : Outcome σ} {o' : Outcome σ'}
    (h : o.Rel R o') (hRS : ∀ s s', R s s' → S s s') : o.Rel S o' := by
  cases o <;> cases o' <;> first | exact hRS _ _ h | exact h.elim

/-- The getters of a group read the first thread of the pool it lays out. -/
theorem Implements.getTunable_eq {g : ThreadGroup τ} {P : Pool τ} (h : Implements g P)
    (k : Tunable τ α) : getTunable k g = P.getTunable k := by
  obtain ⟨as, hr⟩ := h
  exact getTunable_of_chain hr.chain k

/-- Two groups laying out the same pool, wherever their items lie in the store, cannot be told
apart by any sequence of calls: from both, each run ends the same way, returning or throwing,
with the same calls made into the platform and the same answer from every getter. -/
theorem same_pool_indistinguishable {g₁ g₂ : ThreadGroup τ} {P : Pool τ} (h₁ : Implements g₁ P)
    (h₂ : Implements g₂ P) (ops : List (Op τ × Platform τ)) :
    (run ops g₁).Rel (fun g₁' g₂' => g₁'.os = g₂'.os ∧
      ∀ {α : Type} (k : Tunable τ α), getTunable k g₁' = getTunable k g₂') (run ops g₂) :=
  ((h₁.run ops).common (h₂.run ops)).mono fun _ _ ⟨_, ⟨_, r₁⟩, ⟨_, r₂⟩⟩ =>
    ⟨r₁.os.trans r₂.os.symm, fun k =>
      (Implements.getTunable_eq ⟨_, r₁⟩ k).trans (Implements.getTunable_eq ⟨_, r₂⟩ k).symm⟩

/-- The threads of `twoThreads` at other addresses: `first_` is 3, whose item links to the one
at 1, and the cell at 2 was given back. -/
def twoThreadsElsewhere : ThreadGroup natCpf :=
  ⟨3, ⟨[none, some ⟨natThread 0, 0⟩, none, some ⟨natThread 1, 1⟩], Nat.succ_pos _⟩, twoThreads.os⟩

theorem same_pool_indistinguishable_on_two_layouts :
    twoThreads.first ≠ twoThreadsElsewhere.first ∧
    (run [(.priority (7 : Nat), natPlatform), (.join, failingAt 0)] twoThreads).Rel
      (fun g₁' g₂' => g₁'.os = g₂'.os ∧
        ∀ {α : Type} (k : Tunable natCpf α), getTunable k g₁' = getTunable k g₂')
      (run [(.priority (7 : Nat), natPlatform), (.join, failingAt 0)] twoThreadsElsewhere) := by
  have h₁ := (reachable_twoThreads.represents chain_twoThreads).1
  have hc : Chain twoThreadsElsewhere.store twoThreadsElsewhere.first [3, 1] [natThread 1, natThread 0] :=
    Chain.cons_iff.mpr ⟨rfl, ⟨natThread 1, 1⟩, rfl, rfl,
      Chain.cons_iff.mpr ⟨rfl, ⟨natThread 0, 0⟩, rfl, rfl, .null⟩⟩
  have howns : ∀ a, twoThreadsElsewhere.store.get a ≠ none → a ∈ [3, 1] := fun a ha => by
    have hl := Store.lt_length_of_ne_none ha
    rcases a with _ | _ | _ | _ | a
    · exact absurd rfl ha
    · simp
    · exact absurd rfl ha
    · simp
    · exact absurd hl (by simp [twoThreadsElsewhere])
  exact ⟨by decide, same_pool_indistinguishable ⟨_, h₁⟩ ⟨[3, 1], hc, by decide, howns, rfl⟩ _⟩

end Asio.Detail
