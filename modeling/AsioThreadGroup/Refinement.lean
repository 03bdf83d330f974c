import AsioThreadGroup.Pool

/-! The linked list of `thread_group` implements the pool: each call on the group ends as the
same call on the pool does, in a state laying out the pool's result. -/
namespace Asio.Detail

variable {τ : Cpf} {α : Type}

/-- `g` lays out `P`: following `first_` visits distinct addresses `as` that hold exactly
`P.threads`, these are all the live items of the store, and the platform's side agrees. -/
structure Represents (g : ThreadGroup τ) (as : List Addr) (P : Pool τ) : Prop where
  chain : Chain g.store g.first as P.threads
  nodup : as.Nodup
  owns : ∀ a, g.store.get a ≠ none → a ∈ as
  os : g.os = P.os

/-- `g` lays out `P` at some addresses. -/
def Implements (g : ThreadGroup τ) (P : Pool τ) : Prop :=
  ∃ as, Represents g as P

theorem implements_init : Implements (ThreadGroup.init : ThreadGroup τ) Pool.init :=
  ⟨[], .null, List.nodup_nil, fun a h => absurd (Store.get_empty a) h, rfl⟩

section Simulation

variable {g : ThreadGroup τ} {as : List Addr} {P : Pool τ} {p : Platform τ}

theorem Represents.createThread_rel (h : Represents g as P) (f : τ.function)
    (attr : τ.attributes) (p : Platform τ) :
    (createThread f attr p g).Rel Implements (Pool.createThread f attr p P) := by
  unfold Asio.Detail.createThread Pool.createThread
  rw [h.os]
  cases hc : PolyfillThread.create p f attr P.os with
  | none => exact ⟨as, h⟩
  | some r =>
    rcases r with ⟨t, os⟩
    have hfresh : g.store.cells.length ∉ as := fun hm =>
      lt_irrefl _ (Store.lt_length_of_ne_none (h.chain.get_of_mem hm))
    refine ⟨g.store.cells.length :: as, .cons Store.get_alloc_self (h.chain.alloc _),
      List.nodup_cons.mpr ⟨hfresh, h.nodup⟩, fun a ha => ?_, rfl⟩
    rcases Store.get_alloc_ne_none ha with rfl | ha
    · exact List.mem_cons_self _ _
    · exact List.mem_cons_of_mem _ (h.owns a ha)

theorem implements_createThreads (f : τ.function) (attr : τ.attributes) (p : Platform τ) :
    ∀ n g (P : Pool τ), Implements g P →
      (createThreads f attr p n g).Rel Implements (Pool.createThreads f attr p n P)
  | 0, _, _, h => h
  | n + 1, _, _, ⟨_, h⟩ => (h.createThread_rel f attr p).bind fun _ _ h' =>
    implements_createThreads f attr p n _ _ h'

/-- The setters' loop from `current`, down a chain of distinct addresses and with more fuel
than items: it sets the threads of the items in chain order, one call each, until a call
throws, ending as the pool's setter does on those threads, with `first_` and every cell off
the chain unchanged. -/
theorem setLoop_chain (k : Tunable τ α) (v : α) (ok : Call τ → Bool) :
    ∀ (as : List Addr) ts fuel current (g : ThreadGroup τ), Chain g.store current as ts →
      as.Nodup → as.length < fuel →
      ∃ s', setLoop k v ok fuel current g =
          Outcome.ending (decide (Pool.setCount k v ok ts < ts.length))
            ⟨g.first, s', (Pool.tunePrefix k v (Pool.setCount k v ok ts) ⟨ts, g.os⟩).os⟩ ∧
        Chain s' current as (Pool.tunePrefix k v (Pool.setCount k v ok ts) ⟨ts, g.os⟩).threads ∧
        ∀ a ∉ as, s'.get a = g.store.get a
  | [], _, fuel + 1, _, g, hc, _, _ => by
    obtain ⟨rfl, rfl⟩ := Chain.nil_iff.mp hc
    exact ⟨g.store, by simp [setLoop, Pool.tunePrefix, Pool.setCount, Outcome.ending], .null,
      fun _ _ => rfl⟩
  | _ :: as, _, fuel + 1, a, g, hc0, hn, hf => by
    obtain ⟨rfl, it, ts, hg, rfl, hc⟩ := hc0.cons_left
    obtain ⟨ha, hn⟩ := List.nodup_cons.mp hn
    cases hok : ok (k.call it.thread.id v) with
    | false =>
      refine ⟨g.store, ?_, by simpa [Pool.tunePrefix, Pool.setCount_cons_of_throw hok] using hc0,
        fun _ _ => rfl⟩
      simp [setLoop, Store.ne_zero_of_get hg, hg, hok, Pool.tunePrefix,
        Pool.setCount_cons_of_throw hok, Outcome.ending]
    | true =>
      obtain ⟨s', hrun, hc', hs'⟩ := setLoop_chain k v ok as ts fuel it.next
        { g with store := g.store.write a { it with thread := it.thread.tune k v },
                 os := g.os.record (k.call it.thread.id v) } (hc.write ha _) hn (by simpa using hf)
      refine ⟨s', ?_, ?_, fun b hb => ?_⟩
      · simp only [setLoop, Store.ne_zero_of_get hg, if_false, hg, hok, if_true, hrun,
          Pool.setCount_cons_of_ok hok]
        simp [Pool.tunePrefix]
      · simpa [Pool.tunePrefix, Pool.setCount_cons_of_ok hok] using
          Chain.cons ((hs' a ha).trans (Store.get_write_self (by simp [hg]))) hc'
      · rw [hs' b fun h => hb (List.mem_cons_of_mem _ h),
          Store.get_write_ne (by rintro rfl; exact hb (List.mem_cons_self _ _))]

/-- A setter of the group walks the whole list until a call throws: it ends as the pool's
setter does, laying out its result, and `first_` and every cell off the list are unchanged. -/
theorem Represents.setTunable_eq (h : Represents g as P) (k : Tunable τ α) (v : α)
    (ok : Call τ → Bool) :
    ∃ g', setTunable k v ok g =
        Outcome.ending (decide (Pool.setCount k v ok P.threads < P.threads.length)) g' ∧
      Represents g' as (P.tunePrefix k v (Pool.setCount k v ok P.threads)) ∧
      g'.first = g.first ∧ ∀ a ∉ as, g'.store.get a = g.store.get a := by
  obtain ⟨s', hrun, hc, hs'⟩ := setLoop_chain k v ok as P.threads _ g.first g h.chain h.nodup
    (Nat.lt_succ_of_le (h.chain.length_le h.nodup))
  refine ⟨_, hrun, ⟨hc, h.nodup, fun a ha => ?_, by simp [h.os, Pool.tunePrefix]⟩, rfl, hs'⟩
  by_contra hm
  exact ha ((hs' a hm).trans (by_contra fun hl => hm (h.owns a hl)))

/-- A setter whose calls all return sets every thread and returns. -/
theorem Represents.setTunable_of_ok (h : Represents g as P) (k : Tunable τ α) (v : α)
    (ok : Call τ → Bool) (hok : ∀ t ∈ P.threads, ok (k.call t.id v) = true) :
    ∃ g', setTunable k v ok g = .returned g' ∧ Represents g' as (P.tunePrefix k v P.threads.length) ∧
      g'.first = g.first ∧ ∀ a ∉ as, g'.store.get a = g.store.get a := by
  obtain ⟨g', hrun, hr, hfirst, hs⟩ := h.setTunable_eq k v ok
  rw [Pool.setCount_of_ok hok] at hrun hr
  rw [decide_eq_false (lt_irrefl _)] at hrun
  exact ⟨g', hrun, hr, hfirst, hs⟩

/-- A setter whose call on thread `j` is the first to throw sets the `j` threads before it
and throws. -/
theorem Represents.setTunable_of_throw (h : Represents g as P) (k : Tunable τ α) (v : α)
    (ok : Call τ → Bool) {j : Nat} (hj : j < P.threads.length)
    (hok : ∀ t ∈ P.threads.take j, ok (k.call t.id v) = true)
    (hfail : ok (k.call P.threads[j].id v) = false) :
    ∃ g', setTunable k v ok g = .threw g' ∧ Represents g' as (P.tunePrefix k v j) ∧
      g'.first = g.first ∧ ∀ a ∉ as, g'.store.get a = g.store.get a := by
  obtain ⟨g', hrun, hr, hfirst, hs⟩ := h.setTunable_eq k v ok
  rw [Pool.setCount_of_throw _ j hj hok hfail] at hrun hr
  rw [decide_eq_true hj] at hrun
  exact ⟨g', hrun, hr, hfirst, hs⟩

theorem Represents.setTunable_rel (h : Represents g as P) (k : Tunable τ α) (v : α)
    (ok : Call τ → Bool) : (setTunable k v ok g).Rel Implements (P.setTunable k v ok) := by
  obtain ⟨g', hrun, hr, -⟩ := h.setTunable_eq k v ok
  rw [hrun]
  exact (Outcome.rel_ending _ _ _).mpr ⟨as, hr⟩

/-- The loop of `join()` down a chain of distinct addresses owning every live cell, with more
fuel than items, ends as the pool's `joinAll` does. -/
theorem joinLoop_chain (p : Platform τ) :
    ∀ (as : List Addr) ts fuel first (s : Store τ) os, Chain s first as ts → as.Nodup →
      (∀ a, s.get a ≠ none → a ∈ as) → as.length < fuel →
      (joinLoop p fuel ⟨first, s, os⟩).Rel Implements (Pool.joinAll p ts os)
  | [], _, fuel + 1, _, s, os, hc, hn, ho, _ => by
    obtain ⟨rfl, rfl⟩ := Chain.nil_iff.mp hc
    exact ⟨[], ⟨hc, hn, ho, rfl⟩⟩
  | _ :: as, _, fuel + 1, a, s, os, hc0, hn0, ho, hf => by
    obtain ⟨rfl, it, ts, hg, rfl, hc⟩ := hc0.cons_left
    obtain ⟨ha, hn⟩ := List.nodup_cons.mp hn0
    simp only [joinLoop, Store.ne_zero_of_get hg, if_false, hg, Pool.joinAll]
    cases hj : it.thread.join p os with
    | none => exact ⟨a :: as, ⟨hc0, hn0, ho, rfl⟩⟩
    | some r =>
      refine joinLoop_chain p as ts fuel _ _ _ (hc.free ha) hn (fun b hb => ?_) (by simpa using hf)
      have hba : b ≠ a := by rintro rfl; exact hb Store.get_free_self
      exact (List.mem_cons.mp (ho b (by rwa [Store.get_free_ne (Ne.symm hba)] at hb))).resolve_left hba

theorem Represents.join_rel (h : Represents g as P) (p : Platform τ) :
    (join p g).Rel Implements (Pool.join p P) := by
  rw [Pool.join, ← h.os]
  exact joinLoop_chain p as P.threads _ g.first g.store g.os h.chain h.nodup h.owns
    (Nat.lt_succ_of_le (h.chain.length_le h.nodup))

theorem Implements.step {g : ThreadGroup τ} {P : Pool τ} (h : Implements g P) (p : Platform τ)
    (op : Op τ) : (step p g op).Rel Implements (Pool.step p P op) := by
  obtain ⟨as, h⟩ := h
  cases op with
  | createThread f _ => exact h.createThread_rel f _ p
  | createThreads f _ n => exact implements_createThreads f _ p n g P ⟨as, h⟩
  | priority v | nativePriority v | affinity v => exact h.setTunable_rel _ v p.tune
  | dtorAction v => exact h.setTunable_rel _ v fun _ => true
  | join => exact h.join_rel p

end Simulation

/-- A property of pools that every move of a valid pool keeps, holding of a pool `g₀` lays
out, holds of a valid pool each state reached from `g₀` lays out. -/
theorem Steps.implements_of {I : Pool τ → Prop}
    (hI : ∀ P P', P.Valid → Pool.Move P P' → I P → I P') {g₀ g : ThreadGroup τ} {P₀ : Pool τ}
    (h₀ : Implements g₀ P₀) (hv₀ : P₀.Valid) (hI₀ : I P₀) (h : Steps g₀ g) :
    ∃ P, Implements g P ∧ P.Valid ∧ I P := by
  induction h with
  | refl => exact ⟨P₀, h₀, hv₀, hI₀⟩
  | @returned g g' p op _ hs ih | @threw g g' p op _ hs ih =>
    obtain ⟨P, hi, hv, hP⟩ := ih
    simpa [hs, Outcome.Holds] using (hi.step p op).holds (Pool.step_holds_of hI hv hP p op)

/-- A property of pools that holds of the empty pool and that every move of a valid pool keeps
holds of a valid pool each reachable state lays out. -/
theorem Reachable.implements_of {I : Pool τ → Prop} (h0 : I Pool.init)
    (hI : ∀ P P', P.Valid → Pool.Move P P' → I P → I P') {g : ThreadGroup τ}
    (h : Reachable g) : ∃ P, Implements g P ∧ P.Valid ∧ I P :=
  h.steps.implements_of hI implements_init Pool.valid_init h0

/-- Every state the group reaches lays out a valid pool. -/
theorem Reachable.implements {g : ThreadGroup τ} (h : Reachable g) : ∃ P, Implements g P ∧ P.Valid :=
  (h.implements_of (I := fun _ => True) trivial fun _ _ _ _ _ => trivial).imp fun _ h => ⟨h.1, h.2.1⟩

/-- From a reachable state every call returns or throws, into a reachable state: none
follows a null or deleted pointer and no loop runs on for ever. -/
theorem Reachable.step_ends {g : ThreadGroup τ} (h : Reachable g) (p : Platform τ) (op : Op τ) :
    ∃ g', (step p g op = .returned g' ∨ step p g op = .threw g') ∧ Reachable g' := by
  obtain ⟨P, hi, hv⟩ := h.implements
  have hh := (hi.step p op).holds (Pool.valid_step hv p op)
  cases hs : step p g op with
  | returned g' => exact ⟨g', .inl rfl, .returned h hs⟩
  | threw g' => exact ⟨g', .inr rfl, .threw h hs⟩
  | undefined => rw [hs] at hh; exact hh.elim
  | outOfFuel => rw [hs] at hh; exact hh.elim
  | terminated => rw [hs] at hh; exact hh.elim

/-- Any chain read off a reachable state is the whole layout of a valid pool. -/
theorem Reachable.represents {g : ThreadGroup τ} (h : Reachable g) {as : List Addr}
    {ts : List (PolyfillThread τ)} (hc : Chain g.store g.first as ts) :
    Represents g as ⟨ts, g.os⟩ ∧ Pool.Valid ⟨ts, g.os⟩ := by
  obtain ⟨⟨ts', os⟩, ⟨as', hr⟩, hv⟩ := h.implements
  obtain ⟨rfl, rfl⟩ := hr.chain.unique hc
  obtain rfl : g.os = os := hr.os
  exact ⟨⟨hc, hr.nodup, hr.owns, rfl⟩, hv⟩

/-- In every reachable state `first_` heads a chain of distinct addresses. -/
theorem Reachable.chain {g : ThreadGroup τ} (h : Reachable g) :
    ∃ as ts, Chain g.store g.first as ts ∧ as.Nodup := by
  obtain ⟨P, ⟨as, hr⟩, -⟩ := h.implements
  exact ⟨as, P.threads, hr.chain, hr.nodup⟩

/-- A reachable state with `first_` null holds no item. -/
theorem Reachable.get_eq_none {g : ThreadGroup τ} (h : Reachable g) (h0 : g.first = 0) (a : Addr) :
    g.store.get a = none := by
  obtain ⟨hr, -⟩ := h.represents (show Chain g.store g.first [] [] from h0 ▸ .null)
  exact by_contra fun ha => by simpa using hr.owns a ha

end Asio.Detail
