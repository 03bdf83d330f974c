import AsioThreadGroup.Join

/-! What holds in every state the group reaches from its constructor: no call follows a null
or deleted pointer or runs on for ever, the store holds no item off the chain, and no thread
is joined or deleted twice. -/
namespace Asio.Detail

variable {τ : Cpf}

/-- From a reachable state, any sequence of calls run while they return ends by returning or
by an exception, in a reachable state. -/
theorem run_returns_or_throws :
    ∀ (ops : List (Op τ × Platform τ)) (g : ThreadGroup τ), Reachable g →
      ∃ g', (run ops g = .returned g' ∨ run ops g = .threw g') ∧ Reachable g'
  | [], g, hg => ⟨g, .inl rfl, hg⟩
  | (op, p) :: ops, g, hg => by
    obtain ⟨g₁, h₁ | h₁, hg₁⟩ := hg.step_ends p op
    · simpa [run, h₁] using run_returns_or_throws ops g₁ hg₁
    · exact ⟨g₁, .inr (by simp [run, h₁]), hg₁⟩

theorem run_returns_or_throws_from_init :
    ∃ g' : ThreadGroup natCpf,
      (run [(.createThread (0 : Nat) none, natPlatform), (.join, failingAt 0)] .init = .returned g' ∨
        run [(.createThread (0 : Nat) none, natPlatform), (.join, failingAt 0)] .init = .threw g') ∧
      Reachable g' :=
  run_returns_or_throws _ _ .init

/-- From every reachable state the destructor returns exactly when every join of the chain
returns, and then it has joined and deleted every item in chain order, adding just those
calls to the log, so that `first_` is null and the store holds none; otherwise a join threw
inside it, and `std::terminate` is called: no exception leaves it. -/
theorem destroy_returns_empty_or_terminates (g : ThreadGroup τ) (hg : Reachable g) (as : List Addr)
    (ts : List (PolyfillThread τ)) (hc : Chain g.store g.first as ts) (p : Platform τ) :
    ((∀ t ∈ ts, p.join t.id = true) ∧ ∃ g', destroy p g = .returned g' ∧ g'.first = 0 ∧
        (∀ a, g'.store.get a = none) ∧ g'.os.calls = g.os.calls ++ endCalls ts) ∨
      ((∃ t ∈ ts, p.join t.id = false) ∧ destroy p g = .terminated) := by
  rcases join_cases hg hc p with ⟨hall, g', hj, h0, hos, hnone⟩ | ⟨j, hj, -, hf, g', hj', -⟩
  · exact .inl ⟨hall, g', destroy_eq_returned.mpr hj, h0, hnone, by rw [hos]⟩
  · exact .inr ⟨⟨_, List.getElem_mem hj, hf⟩, destroy_of_threw hj'⟩

theorem destroy_returns_empty_or_terminates_on_twoThreads :
    ((∀ t ∈ [natThread 1, natThread 0], (failingAt 0).join t.id = true) ∧
      ∃ g', destroy (failingAt 0) twoThreads = .returned g' ∧ g'.first = 0 ∧
        (∀ a, g'.store.get a = none) ∧
        g'.os.calls = twoThreads.os.calls ++ endCalls [natThread 1, natThread 0]) ∨
      ((∃ t ∈ [natThread 1, natThread 0], (failingAt 0).join t.id = false) ∧
        destroy (failingAt 0) twoThreads = .terminated) :=
  destroy_returns_empty_or_terminates _ reachable_twoThreads _ _ chain_twoThreads _

/-- In every reachable state the live items of the store are exactly those on the chain from
`first_`: no item is leaked, and none on the chain has been deleted. -/
theorem live_items_are_chain (g : ThreadGroup τ) (hg : Reachable g) :
    ∃ as ts, Chain g.store g.first as ts ∧ as.Nodup ∧ ∀ a, g.store.get a ≠ none ↔ a ∈ as := by
  obtain ⟨P, ⟨as, hr⟩, -⟩ := hg.implements
  exact ⟨as, P.threads, hr.chain, hr.nodup, fun a => ⟨hr.owns a, hr.chain.get_of_mem⟩⟩

theorem live_items_are_chain_on_twoThreads :
    ∃ as ts, Chain twoThreads.store twoThreads.first as ts ∧ as.Nodup ∧
      ∀ a, twoThreads.store.get a ≠ none ↔ a ∈ as :=
  live_items_are_chain _ reachable_twoThreads

/-- In every reachable state a thread number has no end calls, or its join followed by its
delete and nothing more: no thread is joined twice, deleted twice or deleted before its join,
and the threads on the chain have neither. -/
theorem thread_ended_at_most_once (g : ThreadGroup τ) (hg : Reachable g) (as : List Addr)
    (ts : List (PolyfillThread τ)) (hc : Chain g.store g.first as ts) :
    (∀ t ∈ ts, g.os.calls.filter (·.isEndOf t.id) = []) ∧
    ∀ u, g.os.calls.filter (·.isEndOf u) = [] ∨
      g.os.calls.filter (·.isEndOf u) = [.join u, .delete u] := by
  obtain ⟨-, hv⟩ := hg.represents hc
  exact ⟨fun t ht => hv.ends_of_mem ht, hv.ends_cases⟩

theorem thread_ended_at_most_once_after_failed_join :
    twoThreadsJoinFailed.os.calls.filter (·.isEndOf (natThread 0).id) = [] ∧
    (twoThreadsJoinFailed.os.calls.filter (·.isEndOf 1) = [] ∨
      twoThreadsJoinFailed.os.calls.filter (·.isEndOf 1) = [.join 1, .delete 1]) ∧
    twoThreadsJoinFailed.os.calls.filter (·.isEndOf 1) = [.join 1, .delete 1] :=
  have h := thread_ended_at_most_once _ reachable_twoThreadsJoinFailed _ _ chain_twoThreadsJoinFailed
  ⟨h.1 _ (List.mem_singleton_self _), h.2 1, rfl⟩

/-- In every reachable state each thread on the chain was started by the platform with the
callable and attributes it holds, has a number below the next one, and is still joinable, so
`join()` calls the platform's join for it. -/
theorem chain_threads_started_and_joinable (g : ThreadGroup τ) (hg : Reachable g)
    (as : List Addr) (ts : List (PolyfillThread τ)) (hc : Chain g.store g.first as ts) :
    ∀ t ∈ ts, Call.spawn t.id t.function t.attributes ∈ g.os.calls ∧ t.id < g.os.nextId ∧
      t.joinable = true := by
  obtain ⟨-, hv⟩ := hg.represents hc
  exact fun t ht => ⟨hv.started t ht, hv.lt_nextId t ht, hv.joinable t ht⟩

theorem chain_threads_started_and_joinable_on_twoThreads :
    Call.spawn (natThread 1).id (natThread 1).function (natThread 1).attributes ∈ twoThreads.os.calls ∧
      (natThread 1).id < twoThreads.os.nextId ∧ (natThread 1).joinable = true :=
  chain_threads_started_and_joinable _ reachable_twoThreads _ _ chain_twoThreads _ (List.mem_cons_self _ _)

end Asio.Detail
