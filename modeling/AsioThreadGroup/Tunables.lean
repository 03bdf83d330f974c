import AsioThreadGroup.Runs

/-! The tunables of the group: each setter walks the chain, setting every thread unless a call
of `cpf::thread`'s setter throws, and each getter reads `first_->thread_` with no check that
`first_` is set. -/
namespace Asio.Detail

variable {τ : Cpf} {α : Type}

/-- A getter reads the thread of the item `first_` points at, and dereferences null when
the chain is empty. -/
theorem getTunable_of_chain {g : ThreadGroup τ} {as : List Addr} {ts : List (PolyfillThread τ)}
    (hc : Chain g.store g.first as ts) (k : Tunable τ α) :
    getTunable k g = ts.head?.map fun t => k.get t.tunables := by
  rcases as with _ | ⟨a, as⟩
  · obtain ⟨h0, rfl⟩ := Chain.nil_iff.mp hc
    simp [getTunable, h0]
  · obtain ⟨rfl, it, ts', hg, rfl, -⟩ := hc.cons_left
    simp [getTunable, hg]

/-- What a setter `set` on the tunable `k`, whose calls of `cpf::thread` return as `ok` says,
does from every reachable state when its call on thread `j` of the chain is the first to
throw: the exception leaves the `j` threads before it set, one call each in chain order, that
thread and those after it as they were, the items and their order unchanged, and every other
cell unchanged. -/
def StopsAtThrowingCall (k : Tunable τ α) (ok : Call τ → Bool)
    (set : α → ThreadGroup τ → Outcome (ThreadGroup τ)) : Prop :=
  ∀ g : ThreadGroup τ, Reachable g → ∀ as ts, Chain g.store g.first as ts → ∀ v (j : Nat)
    (hj : j < ts.length), (∀ t ∈ ts.take j, ok (k.call t.id v) = true) →
    ok (k.call ts[j].id v) = false →
    ∃ g', set v g = .threw g' ∧ g'.first = g.first ∧
      Chain g'.store g'.first as ((ts.take j).map (·.tune k v) ++ ts.drop j) ∧
      g'.os = ⟨g.os.nextId, g.os.calls ++ (ts.take j).map fun t => k.call t.id v⟩ ∧
      ∀ a ∉ as, g'.store.get a = g.store.get a

theorem setTunable_stops_at_throwing_call (k : Tunable τ α) (ok : Call τ → Bool) :
    StopsAtThrowingCall k ok fun v => setTunable k v ok := by
  intro g hg as ts hc v j hj hok hfail
  obtain ⟨g', hrun, hr, hfirst, hframe⟩ :=
    (hg.represents hc).1.setTunable_of_throw k v ok hj hok hfail
  exact ⟨g', hrun, hfirst, hr.chain, hr.os, hframe⟩

/-- A call of `cpf::thread`'s setter that throws inside `priority(value)`,
`native_priority(value)` or `affinity(affinity)` propagates out of the group's setter, leaving
the threads before it set and the others, with the chain, as they were. -/
theorem setters_stop_at_throwing_call (p : Platform τ) :
    StopsAtThrowingCall Tunable.priority p.tune (setPriority p) ∧
    StopsAtThrowingCall Tunable.nativePriority p.tune (setNativePriority p) ∧
    StopsAtThrowingCall Tunable.affinity p.tune (setAffinity p) :=
  ⟨setTunable_stops_at_throwing_call _ _, setTunable_stops_at_throwing_call _ _,
    setTunable_stops_at_throwing_call _ _⟩

theorem setters_stop_at_throwing_call_on_twoThreads :
    (failingAt 0).tune (Tunable.priority.call (natThread 1).id (7 : Nat)) = true ∧
    (failingAt 0).tune (Tunable.priority.call (natThread 0).id (7 : Nat)) = false ∧
    ∃ g', setPriority (failingAt 0) (7 : Nat) twoThreads = .threw g' ∧
      Chain g'.store g'.first [2, 1] [(natThread 1).tune Tunable.priority (7 : Nat), natThread 0] ∧
      g'.os.calls = twoThreads.os.calls ++ [.priority 1 (7 : Nat)] := by
  obtain ⟨g', h, -, hc, hos, -⟩ := (setters_stop_at_throwing_call (failingAt 0)).1 _
    reachable_twoThreads _ _ chain_twoThreads (7 : Nat) 1 (by decide) (by decide) rfl
  exact ⟨rfl, rfl, g', h, hc, by rw [hos]; rfl⟩

/-- In every reachable state the getters read the first item of the chain, which holds the
threads created and not yet joined, most recent first: a live item, the most recently created
thread still in the group, when the chain is non-empty, and null when it is empty. -/
theorem getters_read_first_item :
    ∀ g : ThreadGroup τ, Reachable g → ∃ as ts, Chain g.store g.first as ts ∧
      (ts.map (·.id)).Sorted (· > ·) ∧ ts.map PolyfillThread.info = startedNotJoined g.os.calls ∧
      (g.first = 0 ↔ ts = []) ∧
      (∀ t ts', ts = t :: ts' → ∃ it, g.store.get g.first = some it ∧ it.thread = t) ∧
      priority g = ts.head?.map (·.tunables.priority) ∧
      nativePriority g = ts.head?.map (·.tunables.nativePriority) ∧
      affinity g = ts.head?.map (·.tunables.affinity) ∧
      dtorAction g = ts.head?.map (·.tunables.dtorAction) := by
  intro g hg
  obtain ⟨as, ts, hc, -⟩ := hg.chain
  refine ⟨as, ts, hc, (hg.represents hc).2.sorted, hg.tracks hc, ?_, fun t ts' hts => ?_,
    getTunable_of_chain hc _, getTunable_of_chain hc _, getTunable_of_chain hc _,
    getTunable_of_chain hc _⟩
  · rw [hc.head_eq_zero_iff, ← List.length_eq_zero, hc.length_eq, List.length_eq_zero]
  · subst hts
    rcases as with _ | ⟨a, as⟩
    · cases hc.length_eq
    · obtain ⟨rfl, it, _, hg, he, -⟩ := hc.cons_left
      exact ⟨it, hg, (List.cons.inj he).1.symm⟩

theorem getters_read_first_item_on_twoThreads :
    priority twoThreads = some (0 : Nat) ∧ nativePriority twoThreads = some (0 : Nat) ∧
    affinity twoThreads = some (0 : Nat) ∧ dtorAction twoThreads = some (0 : Nat) ∧
    [natThread 1, natThread 0].map PolyfillThread.info = startedNotJoined twoThreads.os.calls := by
  obtain ⟨as, ts, hc, -, hT, -, -, h1, h2, h3, h4⟩ := getters_read_first_item _ reachable_twoThreads
  obtain ⟨-, rfl⟩ := chain_twoThreads.unique hc
  exact ⟨h1, h2, h3, h4, hT⟩

/-- A freshly constructed group, and a group that created a thread and joined it, both
have `first_` null, and each getter dereferences it. -/
theorem getters_of_empty_group_dereference_null :
    Reachable (ThreadGroup.init : ThreadGroup natCpf) ∧
    (ThreadGroup.init : ThreadGroup natCpf).first = 0 ∧
    priority (ThreadGroup.init : ThreadGroup natCpf) = none ∧
    nativePriority (ThreadGroup.init : ThreadGroup natCpf) = none ∧
    affinity (ThreadGroup.init : ThreadGroup natCpf) = none ∧
    dtorAction (ThreadGroup.init : ThreadGroup natCpf) = none ∧
    run [(.createThread (0 : Nat) none, natPlatform), (.join, natPlatform)] .init =
      .returned ⟨0, ⟨[none, none], Nat.succ_pos _⟩,
        ⟨1, [.spawn 0 (0 : Nat) (0 : Nat), .join 0, .delete 0]⟩⟩ ∧
    priority (⟨0, ⟨[none, none], Nat.succ_pos _⟩,
      ⟨1, [.spawn 0 (0 : Nat) (0 : Nat), .join 0, .delete 0]⟩⟩ : ThreadGroup natCpf) = none :=
  ⟨.init, rfl, rfl, rfl, rfl, rfl, rfl, rfl⟩

end Asio.Detail
