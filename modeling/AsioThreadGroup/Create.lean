import AsioThreadGroup.Refinement

/-! `create_thread` and `create_threads`: new items go in front of the chain, the items
already there are left as they are, and a thread that fails to start never gets an item. -/
namespace Asio.Detail

variable {τ : Cpf} {f : τ.function} {attr : τ.attributes} {p : Platform τ}

/-- A `create_threads(f, attr, n)` that returns has put `n` new items in front of the chain,
holding threads numbered on from `nextId` that run `f` with `attr`; the store only grew. -/
theorem chain_createThreads :
    ∀ n (g g' : ThreadGroup τ) (as : List Addr) ts, Chain g.store g.first as ts → as.Nodup →
      createThreads f attr p n g = .returned g' →
      ∃ as' ts', Chain g'.store g'.first (as' ++ as) (ts' ++ ts) ∧ (as' ++ as).Nodup ∧
        ts'.map (·.id) = (List.range' g.os.nextId n).reverse ∧
        (∀ t ∈ ts', t.function = f ∧ t.attributes = attr) ∧
        g.store.cells <+: g'.store.cells ∧ g'.os.nextId = g.os.nextId + n
  | 0, g, g', _, _, hc, hn, h => by
    obtain rfl : g = g' := by simpa [createThreads] using h
    exact ⟨[], [], hc, hn, rfl, by simp, List.prefix_refl _, rfl⟩
  | n + 1, g, g', as, ts, hc, hn, h => by
    obtain ⟨g₁, h₁, hrest⟩ := Outcome.bind_eq_returned.mp h
    obtain ⟨tu, -, rfl⟩ := createThread_eq_returned.mp h₁
    have hfresh : g.store.cells.length ∉ as := fun hm =>
      lt_irrefl _ (Store.lt_length_of_ne_none (hc.get_of_mem hm))
    obtain ⟨as', ts', hc', hn', hids, hft, hpre, hnext⟩ := chain_createThreads n _ g' _ _
      (.cons Store.get_alloc_self (hc.alloc _)) (List.nodup_cons.mpr ⟨hfresh, hn⟩) hrest
    refine ⟨as' ++ [g.store.cells.length], ts' ++ [⟨g.os.nextId, f, attr, tu, true⟩],
      by simpa using hc', by simpa using hn', ?_, fun t ht => ?_, (Store.prefix_alloc _ _).trans hpre, ?_⟩
    · simp [hids, List.range'_succ]
    · rcases List.mem_append.mp ht with ht | ht
      · exact hft t ht
      · obtain rfl := List.mem_singleton.mp ht
        exact ⟨rfl, rfl⟩
    · exact hnext.trans (Nat.add_right_comm _ _ _)

/-- `create_threads` whose first `k` threads start goes through those `k` creations. -/
theorem createThreads_returns_of_spawn :
    ∀ k (g : ThreadGroup τ), (∀ i < k, (p.spawn (g.os.nextId + i) attr).isSome) →
      ∃ g', createThreads f attr p k g = .returned g'
  | 0, g, _ => ⟨g, rfl⟩
  | k + 1, g, hs => by
    obtain ⟨tu, htu⟩ := Option.isSome_iff_exists.mp (hs 0 k.succ_pos)
    obtain ⟨g', hg'⟩ := createThreads_returns_of_spawn k
      ⟨_, (g.store.alloc ⟨⟨g.os.nextId, f, attr, tu, true⟩, g.first⟩).2,
        ⟨g.os.nextId + 1, g.os.calls ++ [.spawn g.os.nextId f attr]⟩⟩
      fun i hi => by simpa [Nat.add_assoc, Nat.add_comm 1] using hs (i + 1) (by omega)
    exact ⟨g', by rw [createThreads, createThread_eq_returned.mpr ⟨tu, htu, rfl⟩]; exact hg'⟩

/-- A failing thread construction inside `create_threads` (or `create_threads(f, n)`, which
passes `cpf::thread::attributes{}`): when the first `k` threads start and the next does not,
the exception leaves the `k` new items in front of the chain as it was before the call, with
no item for the failed thread and every cell present before untouched. A throwing
`create_thread` leaves the group as it was. -/
theorem createThreads_throws_at :
    (∀ g : ThreadGroup τ, Reachable g → ∀ as ts, Chain g.store g.first as ts →
      ∀ (f : τ.function) (attr : τ.attributes) (p : Platform τ) (n k : Nat), k < n →
      (∀ i < k, (p.spawn (g.os.nextId + i) attr).isSome) → p.spawn (g.os.nextId + k) attr = none →
      ∃ g' as' ts', createThreads f attr p n g = .threw g' ∧
        Chain g'.store g'.first (as' ++ as) (ts' ++ ts) ∧ (as' ++ as).Nodup ∧
        ts'.map (·.id) = (List.range' g.os.nextId k).reverse ∧
        (∀ t ∈ ts', t.function = f ∧ t.attributes = attr) ∧
        g.store.cells <+: g'.store.cells ∧ g'.os.nextId = g.os.nextId + k) ∧
    ∀ (g : ThreadGroup τ) (f : τ.function) (attr : τ.attributes) (p : Platform τ),
      p.spawn g.os.nextId attr = none → createThread f attr p g = .threw g := by
  refine ⟨fun g hg as ts hc f attr p n k hk hs hfail => ?_,
    fun g f attr p h => createThread_eq_threw.mpr ⟨h, rfl⟩⟩
  obtain ⟨g', hg'⟩ : ∃ g', createThreads f attr p k g = .returned g' :=
    createThreads_returns_of_spawn k g hs
  obtain ⟨as', ts', hc', hn', hids, hft, hpre, hnext⟩ :=
    chain_createThreads k g g' as ts hc (hg.represents hc).1.nodup hg'
  obtain ⟨m, rfl⟩ := Nat.exists_eq_add_of_lt hk
  refine ⟨g', as', ts', ?_, hc', hn', hids, hft, hpre, hnext⟩
  rw [show k + m + 1 = k + (m + 1) by omega, createThreads_add, hg', Outcome.returned_bind,
    createThreads, createThread_eq_threw.mpr ⟨hnext ▸ hfail, rfl⟩, Outcome.threw_bind]

theorem createThreads_throws_at_second_of_three :
    ((failingAt 3).spawn (twoThreads.os.nextId + 0) (0 : Nat)).isSome ∧
    (failingAt 3).spawn (twoThreads.os.nextId + 1) (0 : Nat) = none ∧
    (∃ g' as' ts', createThreads (0 : Nat) (0 : Nat) (failingAt 3) 3 twoThreads = .threw g' ∧
      Chain g'.store g'.first (as' ++ [2, 1]) (ts' ++ [natThread 1, natThread 0]) ∧
      ts'.map (·.id) = [2]) ∧
    createThread (0 : Nat) (0 : Nat) (failingAt 2) twoThreads = .threw twoThreads := by
  have hs : ∀ i < 1, ((failingAt 3).spawn (twoThreads.os.nextId + i) (0 : Nat)).isSome := by
    intro i hi
    obtain rfl : i = 0 := by omega
    rfl
  obtain ⟨g', as', ts', h, hc, -, hids, -⟩ := createThreads_throws_at.1 twoThreads
    reachable_twoThreads _ _ chain_twoThreads (0 : Nat) (0 : Nat) (failingAt 3) 3 1 (by omega) hs rfl
  exact ⟨hs 0 Nat.one_pos, rfl, ⟨g', as', ts', h, hc, hids⟩,
    createThreads_throws_at.2 twoThreads (0 : Nat) (0 : Nat) (failingAt 2) rfl⟩

end Asio.Detail
