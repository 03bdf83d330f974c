import AsioThreadGroup.Create
import AsioThreadGroup.Join

/-! Whole runs of calls: the chain holds the threads the calls made into the platform show
started and not joined, `join()` empties it or stops at the first join that throws, and a
group going out of scope has joined and deleted each of its threads once. -/
namespace Asio.Detail

variable {τ : Cpf}

/-- The number, callable and attributes of a thread. -/
def PolyfillThread.info (t : PolyfillThread τ) : Nat × τ.function × τ.attributes :=
  (t.id, t.function, t.attributes)

@[simp] theorem PolyfillThread.info_tune {α : Type} (k : Tunable τ α) (v : α) (t : PolyfillThread τ) :
    (t.tune k v).info = t.info := rfl

/-- The threads created since the most recent `join()`, counted from the calls alone, most
recent first, with the number the next thread gets: a create puts its threads in front,
numbered on, and `join()` empties the list. -/
def createdAfter : Nat × List (Nat × τ.function × τ.attributes) → Op τ →
    Nat × List (Nat × τ.function × τ.attributes)
  | (n, acc), .createThread f attr => (n + 1, (n, f, attr.getD τ.defaultAttributes) :: acc)
  | (n, acc), .createThreads f attr k =>
    (n + k, (List.range' n k).reverse.map (fun i => (i, f, attr.getD τ.defaultAttributes)) ++ acc)
  | (n, _), .join => (n, [])
  | s, _ => s

def createdSinceJoin (ops : List (Op τ)) : List (Nat × τ.function × τ.attributes) :=
  (ops.foldl createdAfter (0, [])).2

/-- The threads the log shows started and not joined, with their callable and attributes,
most recent first. -/
def startedNotJoined (cs : List (Call τ)) : List (Nat × τ.function × τ.attributes) :=
  ((cs.filterMap Call.spawned).filter fun i => !cs.any (Call.isJoinOf i.1)).reverse

section StartedNotJoined

variable (cs : List (Call τ))

/-- Calls that neither start nor join a thread leave the log's account as it is. -/
theorem startedNotJoined_append_of_quiet {ds : List (Call τ)}
    (hd : ∀ c ∈ ds, c.spawned = none ∧ ∀ u, c.isJoinOf u = false) :
    startedNotJoined (cs ++ ds) = startedNotJoined cs := by
  have hs : ds.filterMap Call.spawned = [] := List.filterMap_eq_nil_iff.mpr fun c hc => (hd c hc).1
  have hj : ∀ u, ds.any (Call.isJoinOf u) = false := fun u =>
    List.any_eq_false.mpr fun c hc => by simp [(hd c hc).2 u]
  simp [startedNotJoined, List.filterMap_append, hs, List.any_append, hj]

/-- Starting a thread not joined before puts it in front. -/
theorem startedNotJoined_append_spawn {u : Nat} (f : τ.function) (attr : τ.attributes)
    (hu : cs.any (Call.isJoinOf u) = false) :
    startedNotJoined (cs ++ [.spawn u f attr]) = (u, f, attr) :: startedNotJoined cs := by
  simp [startedNotJoined, List.filterMap_append, Call.spawned, List.any_append, Call.isJoinOf, hu]

/-- Joining thread `u` takes it out. -/
theorem startedNotJoined_append_join (u : Nat) :
    startedNotJoined (cs ++ [.join u]) = (startedNotJoined cs).filter (·.1 != u) := by
  simp only [startedNotJoined, List.filterMap_append, Call.spawned, List.filterMap_cons_none,
    List.filterMap_nil, List.append_nil, List.any_append, List.any_cons, List.any_nil,
    Bool.or_false, Call.isJoinOf, List.filter_reverse, List.filter_filter]
  congr 2
  funext i
  rw [Bool.not_or, Bool.and_comm, bne, Bool.beq_comm]

end StartedNotJoined

namespace Pool

variable {P : Pool τ}

/-- The pool holds exactly the threads its log shows started and not joined, in its order. -/
def Tracks (P : Pool τ) : Prop :=
  P.threads.map PolyfillThread.info = startedNotJoined P.os.calls

theorem tracks_init : (init : Pool τ).Tracks := rfl

/-- The next thread of a valid pool has no join yet. -/
theorem Valid.any_isJoinOf_nextId (hv : P.Valid) :
    P.os.calls.any (Call.isJoinOf P.os.nextId) = false := by
  have hnil := hv.ends P.os.nextId
  rw [if_neg fun h => lt_irrefl _ h.1] at hnil
  exact List.any_eq_false.mpr fun c hc hj =>
    List.not_mem_nil c (hnil ▸ List.mem_filter.mpr ⟨hc, Call.isEndOf_of_isJoinOf hj⟩)

theorem Tracks.move {P P' : Pool τ} (hv : P.Valid) (h : Move P P') (hT : P.Tracks) : P'.Tracks := by
  unfold Tracks at hT ⊢
  cases h with
  | push _ f attr tu =>
    rw [startedNotJoined_append_spawn _ f attr hv.any_isJoinOf_nextId, ← hT]
    rfl
  | pop t ts os =>
    -- the threads left have numbers below the one joined
    have hlt : ∀ x ∈ ts.map (·.id), x < t.id := (List.sorted_cons.mp hv.sorted).1
    rw [Os.record_calls, Os.record_calls,
      startedNotJoined_append_of_quiet _ (by simp [Call.spawned, Call.isJoinOf]),
      startedNotJoined_append_join, ← hT, List.map_cons,
      List.filter_cons_of_neg (by simp [PolyfillThread.info]), List.filter_eq_self.mpr]
    intro i hi
    obtain ⟨x, hx, rfl⟩ := List.mem_map.mp hi
    simpa [PolyfillThread.info] using (hlt x.id (List.mem_map_of_mem _ hx)).ne
  | priority _ v n | nativePriority _ v n | affinity _ v n | dtorAction _ v n =>
    rw [tunePrefix, startedNotJoined_append_of_quiet _ fun c hc =>
      ⟨Call.spawned_of_isTune (isTune_of_mem_tuneCalls hc),
        Call.isJoinOf_of_isTune (isTune_of_mem_tuneCalls hc)⟩,
      ← hT, List.map_append, List.map_map]
    simp only [Function.comp_def, PolyfillThread.info_tune]
    rw [← List.map_append, List.take_append_drop]

end Pool

/-- In every reachable state the chain holds the threads the log shows started and not
joined, most recent first. -/
theorem Reachable.tracks {g : ThreadGroup τ} (h : Reachable g) {as : List Addr}
    {ts : List (PolyfillThread τ)} (hc : Chain g.store g.first as ts) :
    ts.map PolyfillThread.info = startedNotJoined g.os.calls := by
  obtain ⟨P, ⟨as', hr⟩, -, hT⟩ := h.implements_of Pool.tracks_init fun _ _ hv h hT => hT.move hv h
  obtain ⟨-, rfl⟩ := hr.chain.unique hc
  rw [hr.os]
  exact hT

theorem Implements.run {g : ThreadGroup τ} {P : Pool τ} (h : Implements g P) :
    ∀ ops, (run ops g).Rel Implements (Pool.run ops P)
  | [] => h
  | (op, p) :: ops => (h.step p op).bind fun _ _ h' => h'.run ops

/-- Every run of calls from the constructor ends as the same run on the pool does, in a
state laying out the pool it reaches, and that pool is valid. -/
theorem run_refines_pool (ops : List (Op τ × Platform τ)) :
    (run ops .init).Rel Implements (Pool.run ops .init) ∧ (Pool.run ops .init).Holds Pool.Valid :=
  ⟨implements_init.run ops, Pool.valid_run ops _ Pool.valid_init⟩

theorem Reachable.run {g g' : ThreadGroup τ} (hg : Reachable g) :
    ∀ {ops : List (Op τ × Platform τ)}, Asio.Detail.run ops g = .returned g' → Reachable g'
  | [], h => by cases h; exact hg
  | (op, p) :: ops, h => by
    obtain ⟨g₁, h₁, hrest⟩ := Outcome.bind_eq_returned.mp h
    exact (Reachable.returned hg h₁).run hrest

/-- On a platform where nothing throws, every call from a reachable state returns. -/
theorem step_of_reliable {g : ThreadGroup τ} (hg : Reachable g) {p : Platform τ} (hp : p.Reliable)
    (op : Op τ) : ∃ g', step p g op = .returned g' := by
  obtain ⟨as, ts, hc, -⟩ := hg.chain
  have hr := (hg.represents hc).1
  cases op with
  | createThread f attr =>
    obtain ⟨tu, htu⟩ := Option.isSome_iff_exists.mp (hp.1 g.os.nextId (attr.getD τ.defaultAttributes))
    exact ⟨_, createThread_eq_returned.mpr ⟨tu, htu, rfl⟩⟩
  | createThreads f attr n => exact createThreads_returns_of_spawn n g fun i _ => hp.1 _ _
  | join => exact (join_of_joins hg hc fun t _ => hp.2.1 t.id).imp fun _ h => h.1
  | priority v | nativePriority v | affinity v =>
    exact (hr.setTunable_of_ok _ v p.tune fun t _ => hp.2.2 _).imp fun _ h => h.1
  | dtorAction v => exact (hr.setTunable_of_ok _ v (fun _ => true) fun _ _ => rfl).imp fun _ h => h.1

theorem run_of_reliable :
    ∀ (ops : List (Op τ × Platform τ)) (g : ThreadGroup τ), Reachable g → (∀ x ∈ ops, x.2.Reliable) →
      ∃ g', run ops g = .returned g'
  | [], g, _, _ => ⟨g, rfl⟩
  | (op, p) :: ops, g, hg, hp => by
    obtain ⟨g₁, h₁⟩ := step_of_reliable hg (hp _ (List.mem_cons_self _ _)) op
    obtain ⟨g', h'⟩ := run_of_reliable ops g₁ (Reachable.returned hg h₁)
      fun x hx => hp x (List.mem_cons_of_mem _ hx)
    exact ⟨g', by simp [run, h₁, h']⟩

/-- The chain `first_` heads: in every reachable state it is finite, null-terminated and
without repeated addresses, and holds the threads created and not yet joined, each once with
its callable and attributes, most recent first; a `join()` that returns leaves it empty, and
one whose join of item `j` is the first to throw leaves exactly the items from `j` on, as
they were; a `create_threads` that returns puts `n` new items running `f` in front of the old
ones, which stay as they were. -/
theorem chain_shape_and_contents :
    (∀ g : ThreadGroup τ, Reachable g →
      ∃ as ts, Chain g.store g.first as ts ∧ as.Nodup ∧ (ts.map (·.id)).Sorted (· > ·) ∧
        ts.map PolyfillThread.info = startedNotJoined g.os.calls) ∧
    (∀ g : ThreadGroup τ, Reachable g → ∀ as ts, Chain g.store g.first as ts →
      ∀ (p : Platform τ) (g' : ThreadGroup τ),
        (join p g = .returned g' → Chain g'.store g'.first [] []) ∧
        (join p g = .threw g' → ∃ j, ∃ hj : j < ts.length, (∀ t ∈ ts.take j, p.join t.id = true) ∧
          p.join ts[j].id = false ∧ Chain g'.store g'.first (as.drop j) (ts.drop j) ∧
          ∀ a ∈ as.drop j, g'.store.get a = g.store.get a)) ∧
    ∀ g : ThreadGroup τ, Reachable g → ∀ as ts, Chain g.store g.first as ts →
      ∀ (f : τ.function) (attr : τ.attributes) (p : Platform τ) n g',
        createThreads f attr p n g = .returned g' →
      ∃ as' ts', Chain g'.store g'.first (as' ++ as) (ts' ++ ts) ∧ (as' ++ as).Nodup ∧
        ts'.length = n ∧ (∀ t ∈ ts', t.function = f ∧ t.attributes = attr) ∧
        g.store.cells <+: g'.store.cells := by
  refine ⟨fun g hg => ?_, fun g hg as ts hc p g' => ⟨fun h => ?_, fun h => ?_⟩,
    fun g hg as ts hc f attr p n g' h => ?_⟩
  · obtain ⟨as, ts, hc, hn⟩ := hg.chain
    exact ⟨as, ts, hc, hn, (hg.represents hc).2.sorted, hg.tracks hc⟩
  · exact (joinLoop_returned_first _ _ _ h ▸ .null : Chain g'.store g'.first [] [])
  · rcases join_cases hg hc p with ⟨-, g'', hj, -⟩ | ⟨j, hj, hok, hf, g'', hj', hc', hkeep, -⟩
    · cases h.symm.trans hj
    · obtain rfl : g' = g'' := Outcome.threw.inj (h.symm.trans hj')
      exact ⟨j, hj, hok, hf, hc', hkeep⟩
  · obtain ⟨as', ts', hc', hn', hids, hft, hpre, -⟩ :=
      chain_createThreads n g g' as ts hc (hg.represents hc).1.nodup h
    exact ⟨as', ts', hc', hn', by simpa using congrArg List.length hids, hft, hpre⟩

theorem chain_shape_and_contents_on_twoThreads :
    (∃ as ts, Chain twoThreads.store twoThreads.first as ts ∧ as.Nodup ∧
      (ts.map (·.id)).Sorted (· > ·) ∧ ts.map PolyfillThread.info = startedNotJoined twoThreads.os.calls) ∧
    join natPlatform twoThreads = .returned ⟨0, ⟨[none, none, none], Nat.succ_pos _⟩,
        ⟨2, twoThreads.os.calls ++ [.join 1, .delete 1, .join 0, .delete 0]⟩⟩ ∧
    join (failingAt 0) twoThreads = .threw twoThreadsJoinFailed ∧
    (∃ j, ∃ hj : j < 2, (∀ t ∈ [natThread 1, natThread 0].take j, (failingAt 0).join t.id = true) ∧
      (failingAt 0).join [natThread 1, natThread 0][j].id = false ∧
      Chain twoThreadsJoinFailed.store twoThreadsJoinFailed.first ([2, 1].drop j)
        ([natThread 1, natThread 0].drop j)) ∧
    ∃ g', createThreads (0 : Nat) (0 : Nat) natPlatform 1 twoThreads = .returned g' ∧
      ∃ as' ts', Chain g'.store g'.first (as' ++ [2, 1]) (ts' ++ [natThread 1, natThread 0]) ∧
        ts'.length = 1 := by
  have hj : join natPlatform twoThreads = .returned ⟨0, ⟨[none, none, none], Nat.succ_pos _⟩,
      ⟨2, twoThreads.os.calls ++ [.join 1, .delete 1, .join 0, .delete 0]⟩⟩ := rfl
  have hthrow : join (failingAt 0) twoThreads = .threw twoThreadsJoinFailed := rfl
  obtain ⟨hshape, hjoin, hcreate⟩ := chain_shape_and_contents (τ := natCpf)
  obtain ⟨j, hj', hok, hf, hc, -⟩ :=
    (hjoin _ reachable_twoThreads _ _ chain_twoThreads (failingAt 0) _).2 hthrow
  obtain ⟨as', ts', hc', -, hl, -⟩ := hcreate _ reachable_twoThreads _ _ chain_twoThreads
    (0 : Nat) (0 : Nat) natPlatform 1 _ rfl
  exact ⟨hshape _ reachable_twoThreads, hj, hthrow, ⟨j, hj', hok, hf, hc⟩,
    _, rfl, as', ts', hc', hl⟩

/-- A `join()` whose join throws leaves in the chain a thread created before that most
recent `join()`, although no thread was created after it. -/
theorem chain_after_throwing_join_holds_older_thread :
    run [(.createThread (0 : Nat) none, natPlatform), (.join, failingAt 0)] .init =
      .threw ⟨1, ⟨[none, some ⟨natThread 0, 0⟩], Nat.succ_pos _⟩, ⟨1, [.spawn 0 (0 : Nat) (0 : Nat)]⟩⟩ ∧
    Chain (⟨[none, some ⟨natThread 0, 0⟩], Nat.succ_pos _⟩ : Store natCpf) 1 [1] [natThread 0] ∧
    createdSinceJoin [.createThread (0 : Nat) none, (.join : Op natCpf)] = [] :=
  ⟨rfl, Chain.cons_iff.mpr ⟨rfl, ⟨natThread 0, 0⟩, rfl, rfl, .null⟩, rfl⟩

/-- On a platform where nothing throws, every sequence of calls from the constructor returns,
and the destructor after it returns with no item left. -/
theorem reliable_run_completes (ops : List (Op τ × Platform τ)) (p : Platform τ)
    (hops : ∀ x ∈ ops, x.2.Reliable) (hp : p.Reliable) :
    ∃ g g', run ops .init = .returned g ∧ destroy p g = .returned g' ∧ g'.first = 0 ∧
      ∀ a, g'.store.get a = none := by
  obtain ⟨g, hrun⟩ := run_of_reliable ops _ .init hops
  have hg := Reachable.init.run hrun
  obtain ⟨as, ts, hc, -⟩ := hg.chain
  obtain ⟨g', hj, h0, -, hnone⟩ := join_of_joins hg hc fun t _ => hp.2.1 t.id
  exact ⟨g, g', hrun, destroy_eq_returned.mpr hj, h0, hnone⟩

theorem reliable_run_completes_natPlatform :
    natPlatform.Reliable ∧ ∃ g g', run [(.createThreads (0 : Nat) none 2, natPlatform)] .init =
      .returned g ∧ destroy natPlatform g = .returned g' ∧ g'.first = 0 ∧ ∀ a, g'.store.get a = none :=
  have hp : natPlatform.Reliable := ⟨fun _ _ => rfl, fun _ => rfl, fun _ => rfl⟩
  ⟨hp, reliable_run_completes _ _ (by simpa using hp) hp⟩

end Asio.Detail
