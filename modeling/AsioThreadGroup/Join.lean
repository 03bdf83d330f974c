import AsioThreadGroup.Refinement

/-! `join()`: its loop joins the items in chain order and deletes each right after its join;
an exception from a join leaves that item and the ones behind it in place. -/
namespace Asio.Detail

variable {τ : Cpf} {p : Platform τ} {s : Store τ} {first a : Addr} {as : List Addr}
  {t : PolyfillThread τ} {ts : List (PolyfillThread τ)} {os : Os τ}

/-- The calls that joining and deleting `ts`, in order, records. -/
def endCalls (ts : List (PolyfillThread τ)) : List (Call τ) :=
  ts.flatMap fun t => [.join t.id, .delete t.id]

@[simp] theorem endCalls_nil : endCalls ([] : List (PolyfillThread τ)) = [] := rfl

@[simp] theorem endCalls_cons : endCalls (t :: ts) = .join t.id :: .delete t.id :: endCalls ts := rfl

/-- An iteration of the loop on an item whose join returns: the join and the delete are
recorded and `first_` moves on to the next item. -/
theorem joinLoop_succ_of_join (hc : Chain s first (a :: as) (t :: ts)) (hj : t.joinable = true)
    (hp : p.join t.id = true) (fuel : Nat) :
    ∃ next, Chain s next as ts ∧ joinLoop p (fuel + 1) ⟨first, s, os⟩ =
      joinLoop p fuel ⟨next, s.free a, (os.record (.join t.id)).record (.delete t.id)⟩ := by
  obtain ⟨rfl, it, _, hg, he, hrest⟩ := hc.cons_left
  obtain ⟨rfl, rfl⟩ := List.cons.inj he
  exact ⟨it.next, hrest, by simp [joinLoop, Store.ne_zero_of_get hg, hg, PolyfillThread.join, hj, hp]⟩

/-- An iteration of the loop on an item whose join throws: the exception leaves everything
as it was. -/
theorem joinLoop_succ_of_throw (hc : Chain s first (a :: as) (t :: ts)) (hj : t.joinable = true)
    (hp : p.join t.id = false) (fuel : Nat) :
    joinLoop p (fuel + 1) ⟨first, s, os⟩ = .threw ⟨first, s, os⟩ := by
  obtain ⟨rfl, it, _, hg, he, -⟩ := hc.cons_left
  obtain ⟨rfl, rfl⟩ := List.cons.inj he
  simp [joinLoop, Store.ne_zero_of_get hg, hg, PolyfillThread.join, hj, hp]

/-- `k` iterations whose joins return: the first `k` items are joined and deleted in chain
order, `first_` heads the rest of the chain, and no other cell changes. -/
theorem joinLoop_take (p : Platform τ) :
    ∀ k (as : List Addr) ts fuel first (s : Store τ) (os : Os τ), Chain s first as ts → as.Nodup →
      k ≤ as.length → (∀ t ∈ ts.take k, t.joinable = true ∧ p.join t.id = true) →
      ∃ first' s', joinLoop p (fuel + k) ⟨first, s, os⟩ =
          joinLoop p fuel ⟨first', s', ⟨os.nextId, os.calls ++ endCalls (ts.take k)⟩⟩ ∧
        Chain s' first' (as.drop k) (ts.drop k) ∧ ∀ b, s'.get b = if b ∈ as.take k then none else s.get b
  | 0, _, _, _, first, s, _, hc, _, _, _ => ⟨first, s, by simp, by simpa using hc, by simp⟩
  | _ + 1, [], _, _, _, _, _, _, _, hk, _ => absurd hk (by simp)
  | _ + 1, _ :: _, [], _, _, _, _, hc, _, _, _ => absurd hc.length_eq (by simp)
  | k + 1, a :: as, t :: ts, fuel, first, s, os, hc, hn, hk, hj => by
    obtain ⟨ha, hn⟩ := List.nodup_cons.mp hn
    obtain ⟨hjt, hpt⟩ := hj t (by simp)
    obtain ⟨next, hnext, hstep⟩ : ∃ next, Chain s next as ts ∧
        joinLoop p (fuel + k + 1) ⟨first, s, os⟩ =
          joinLoop p (fuel + k) ⟨next, s.free a, (os.record (.join t.id)).record (.delete t.id)⟩ :=
      joinLoop_succ_of_join hc hjt hpt (fuel + k)
    obtain ⟨first', s', hrun, hc', hs'⟩ := joinLoop_take p k as ts fuel next (s.free a) _
      (hnext.free ha) hn (by simpa using hk) fun t' ht' => hj t' (by simp [ht'])
    refine ⟨first', s', ?_, by simpa using hc', fun b => ?_⟩
    · rw [show fuel + (k + 1) = fuel + k + 1 by omega, hstep, hrun]
      simp
    · rw [hs' b, List.take_succ_cons]
      by_cases hb : b = a
      · subst hb
        simp [fun h => ha (List.mem_of_mem_take h), Store.get_free_self]
      · simp [hb, Store.get_free_ne (Ne.symm hb)]

/-- `join()` on a reachable group whose joins all return: it returns with `first_` null,
having joined and deleted the items in chain order, and no item is left in the store. -/
theorem join_of_joins {g : ThreadGroup τ} (hg : Reachable g) (hc : Chain g.store g.first as ts)
    (hp : ∀ t ∈ ts, p.join t.id = true) :
    ∃ g', join p g = .returned g' ∧ g'.first = 0 ∧
      g'.os = ⟨g.os.nextId, g.os.calls ++ endCalls ts⟩ ∧ ∀ b, g'.store.get b = none := by
  obtain ⟨hr, hv⟩ := hg.represents hc
  have hl := hc.length_eq
  obtain ⟨first', s', hrun, hc', hs'⟩ := joinLoop_take p as.length as ts
    (g.store.cells.length - as.length + 1) g.first g.store g.os hc hr.nodup le_rfl
    fun t ht => ⟨hv.joinable t (List.mem_of_mem_take ht), hp t (List.mem_of_mem_take ht)⟩
  simp only [List.drop_length, List.drop_eq_nil_of_le hl.ge, List.take_length,
    List.take_of_length_le hl.ge] at hc' hrun hs'
  obtain ⟨rfl, -⟩ := Chain.nil_iff.mp hc'
  refine ⟨⟨0, s', ⟨g.os.nextId, g.os.calls ++ endCalls ts⟩⟩, ?_, rfl, rfl, fun b => ?_⟩
  · rw [join, show g.store.cells.length + 1 = g.store.cells.length - as.length + 1 + as.length by
      have := hc.length_le hr.nodup; omega, hrun]
    rfl
  · rw [hs' b]
    split_ifs with hb
    · rfl
    · by_contra hlive
      exact hb (hr.owns b hlive)

/-- `join()` whose joins of the first `j` items return and whose join of item `j` throws:
the exception leaves the state the `j` iterations reach, with those `j` items deleted and
`first_` heading the rest of the chain, whose cells are as they were. -/
theorem join_stops_at {g : ThreadGroup τ} (hg : Reachable g) (hc : Chain g.store g.first as ts)
    {j : Nat} (hj : j < ts.length) (hok : ∀ t ∈ ts.take j, p.join t.id = true)
    (hfail : p.join ts[j].id = false) :
    ∃ g', join p g = .threw g' ∧ Chain g'.store g'.first (as.drop j) (ts.drop j) ∧
      (∀ a ∈ as.drop j, g'.store.get a = g.store.get a) ∧ (∀ a ∈ as.take j, g'.store.get a = none) ∧
      g'.os = ⟨g.os.nextId, g.os.calls ++ endCalls (ts.take j)⟩ := by
  obtain ⟨hr, hv⟩ := hg.represents hc
  have hl := hc.length_eq
  have hlen := hc.length_le hr.nodup
  obtain ⟨first', s', hrun, hc', hs'⟩ := joinLoop_take p j as ts
    (g.store.cells.length - j + 1) g.first g.store g.os hc hr.nodup (by omega)
    fun t ht => ⟨hv.joinable t (List.mem_of_mem_take ht), hok t ht⟩
  -- the items joined and those left share no address
  have hdisj := List.disjoint_of_nodup_append
    (by rw [List.take_append_drop]; exact hr.nodup : (as.take j ++ as.drop j).Nodup)
  refine ⟨⟨first', s', _⟩, ?_, hc', fun a ha => by rw [hs', if_neg fun h => hdisj h ha],
    fun a ha => by simp [hs', ha], rfl⟩
  obtain ⟨a', as', has⟩ : ∃ a' as', as.drop j = a' :: as' :=
    List.exists_cons_of_ne_nil (by simpa [hl] using hj)
  rw [has, List.drop_eq_getElem_cons hj] at hc'
  rw [join, show g.store.cells.length + 1 = g.store.cells.length - j + 1 + j by omega, hrun]
  exact joinLoop_succ_of_throw hc' (hv.joinable _ (List.getElem_mem hj)) hfail _

/-- `join()` on a reachable group returns when every join of its chain returns, and then it
has joined and deleted every item; otherwise it throws at the first join that throws. -/
theorem join_cases {g : ThreadGroup τ} (hg : Reachable g) (hc : Chain g.store g.first as ts)
    (p : Platform τ) :
    ((∀ t ∈ ts, p.join t.id = true) ∧ ∃ g', join p g = .returned g' ∧ g'.first = 0 ∧
        g'.os = ⟨g.os.nextId, g.os.calls ++ endCalls ts⟩ ∧ ∀ b, g'.store.get b = none) ∨
      ∃ j, ∃ hj : j < ts.length, (∀ t ∈ ts.take j, p.join t.id = true) ∧
        p.join ts[j].id = false ∧ ∃ g', join p g = .threw g' ∧
          Chain g'.store g'.first (as.drop j) (ts.drop j) ∧
          (∀ a ∈ as.drop j, g'.store.get a = g.store.get a) ∧
          (∀ a ∈ as.take j, g'.store.get a = none) ∧
          g'.os = ⟨g.os.nextId, g.os.calls ++ endCalls (ts.take j)⟩ := by
  rcases Pool.exists_first_throw (fun t : PolyfillThread τ => p.join t.id) ts with
    hall | ⟨j, hj, hok, hf⟩
  · exact .inl ⟨hall, join_of_joins hg hc hall⟩
  · exact .inr ⟨j, hj, hok, hf, join_stops_at hg hc hj hok hf⟩

/-- A join that throws inside `join()`: when the joins of the first `j` items return and
that of item `j` throws, the exception leaves those `j` threads joined and deleted, once
each, and `first_` heading the rest of the chain untouched. A later `join()` then works on
exactly those, and no item was deleted before its thread was joined. -/
theorem join_throws_at (g : ThreadGroup τ) (hg : Reachable g) (as : List Addr)
    (ts : List (PolyfillThread τ)) (hc : Chain g.store g.first as ts) (j : Nat) (hj : j < ts.length)
    (p : Platform τ) (hok : ∀ t ∈ ts.take j, p.join t.id = true) (hfail : p.join ts[j].id = false) :
    ∃ g', join p g = .threw g' ∧ Chain g'.store g'.first (as.drop j) (ts.drop j) ∧
      (∀ a ∈ as.drop j, g'.store.get a = g.store.get a) ∧ (∀ a ∈ as.take j, g'.store.get a = none) ∧
      g'.os.calls = g.os.calls ++ endCalls (ts.take j) ∧
      (∀ t ∈ ts.take j, g'.os.calls.filter (·.isEndOf t.id) = [.join t.id, .delete t.id]) ∧
      (∀ t ∈ ts.drop j, g'.os.calls.filter (·.isEndOf t.id) = []) ∧
      (∀ u, g'.os.calls.filter (·.isEndOf u) = [] ∨
        g'.os.calls.filter (·.isEndOf u) = [.join u, .delete u]) ∧
      ∀ p' : Platform τ, (∀ t ∈ ts.drop j, p'.join t.id = true) → ∃ g'', join p' g' = .returned g'' ∧
        g''.os.calls = g'.os.calls ++ endCalls (ts.drop j) := by
  obtain ⟨-, hv⟩ := hg.represents hc
  obtain ⟨g', hjoin, hc', hkeep, hgone, hos⟩ := join_stops_at hg hc hj hok hfail
  have hg' := Reachable.threw hg (show step p g .join = .threw g' from hjoin)
  have hv' := (hg'.represents hc').2
  -- the threads joined and those left share no number
  have hidisj := List.disjoint_of_nodup_append
    (by rw [← List.map_append, List.take_append_drop]; exact hv.sorted.nodup :
      ((ts.take j).map (·.id) ++ (ts.drop j).map (·.id)).Nodup)
  refine ⟨g', hjoin, hc', hkeep, hgone, by rw [hos],
    fun t ht => hv'.ends_of_not_mem (hos ▸ hv.lt_nextId t (List.mem_of_mem_take ht))
      (hidisj (List.mem_map_of_mem _ ht)),
    fun t ht => hv'.ends_of_mem ht, hv'.ends_cases, fun p' hp' => ?_⟩
  obtain ⟨g'', h'', -, hos'', -⟩ := join_of_joins hg' hc' hp'
  exact ⟨g'', h'', by rw [hos'']⟩

theorem join_throws_at_second_thread :
    (failingAt 0).join (natThread 1).id = true ∧ (failingAt 0).join (natThread 0).id = false ∧
    ∃ g', join (failingAt 0) twoThreads = .threw g' ∧ Chain g'.store g'.first [1] [natThread 0] ∧
      g'.os.calls = twoThreads.os.calls ++ [.join 1, .delete 1] := by
  obtain ⟨g', h, hc, -, -, hcalls, -⟩ := join_throws_at twoThreads reachable_twoThreads _ _
    chain_twoThreads 1 (by decide) (failingAt 0) (by decide) rfl
  exact ⟨rfl, rfl, g', h, hc, hcalls⟩

end Asio.Detail
