import AsioThreadGroup.Refinement

/-! The calls the group makes into the platform about one thread, read as that thread's life:
it is started once, tuned and joined only while it runs, and its item is deleted only after
its join, with nothing about it afterwards; and between two states of a run, a thread the
group keeps is its earlier self with the calls made in between replayed. -/
namespace Asio.Detail

variable {τ : Cpf} {α : Type}

/-- Where a thread is in its life, as the platform sees it. -/
inductive Phase where
  | unstarted
  | running
  | joined
  | deleted
  deriving DecidableEq, Repr

namespace Phase

/-- The calls the platform may see about a thread in each phase, and the phase after each: a
start, then setter calls and one join while it runs, then the deletion of its item. -/
def next : Phase → Call τ → Option Phase
  | unstarted, .spawn .. => some running
  | running, .priority .. | running, .nativePriority .. | running, .affinity ..
  | running, .dtorAction .. => some running
  | running, .join _ => some joined
  | joined, .delete _ => some deleted
  | _, _ => none

/-- The phase after the calls `cs`, or `none` at the first call the phase does not allow. -/
def run : Phase → List (Call τ) → Option Phase
  | s, [] => some s
  | s, c :: cs => (s.next c).bind fun s' => run s' cs

theorem run_append (s : Phase) (xs ys : List (Call τ)) :
    run s (xs ++ ys) = (run s xs).bind fun s' => run s' ys := by
  induction xs generalizing s with
  | nil => rfl
  | cons c xs ih => cases h : s.next c <;> simp [run, h, ih]

theorem next_running_of_isTune {c : Call τ} (h : c.isTune = true) : next running c = some running := by
  cases c <;> first | rfl | cases h

/-- Setter calls keep a running thread running. -/
theorem run_running_of_isTune :
    ∀ cs : List (Call τ), (∀ c ∈ cs, c.isTune = true) → run running cs = some running
  | [], _ => rfl
  | c :: cs, h => by
    rw [run, next_running_of_isTune (h c (List.mem_cons_self _ _)), Option.some_bind]
    exact run_running_of_isTune cs fun c' hc' => h c' (List.mem_cons_of_mem _ hc')

end Phase

namespace Pool

variable {P : Pool τ}

/-- The phase of the thread numbered `u`, read off a pool: not started yet, running while it is
in the pool, deleted once it has left it. -/
def phase (P : Pool τ) (u : Nat) : Phase :=
  if P.os.nextId ≤ u then .unstarted else if u ∈ P.ids then .running else .deleted

/-- The calls made so far about each thread take it from `unstarted` to the phase the pool
shows for it. -/
def Lawful (P : Pool τ) : Prop :=
  ∀ u, Phase.run .unstarted (P.os.calls.filter (·.thread == u)) = some (P.phase u)

theorem run_filter_append (cs ds : List (Call τ)) (u : Nat) :
    Phase.run .unstarted ((cs ++ ds).filter (·.thread == u)) =
      (Phase.run .unstarted (cs.filter (·.thread == u))).bind
        fun s => Phase.run s (ds.filter (·.thread == u)) := by
  rw [List.filter_append, Phase.run_append]

theorem lawful_init : (init : Pool τ).Lawful := fun u => by
  simp [init, phase, ids, Phase.run]

/-- Starting thread `nextId`: its phase goes from `unstarted` to `running`. -/
theorem Lawful.push (hL : P.Lawful) (f : τ.function) (attr : τ.attributes) (tu : Tunables τ) :
    (⟨⟨P.os.nextId, f, attr, tu, true⟩ :: P.threads,
      ⟨P.os.nextId + 1, P.os.calls ++ [.spawn P.os.nextId f attr]⟩⟩ : Pool τ).Lawful := by
  intro u
  rw [run_filter_append, hL u]
  by_cases hu : u = P.os.nextId
  · subst hu
    simp [phase, ids, Call.thread, Phase.run, Phase.next, Nat.not_succ_le_self]
  · have hlt : P.os.nextId + 1 ≤ u ↔ P.os.nextId ≤ u := by omega
    simp [phase, ids, Call.thread, Ne.symm hu, hu, hlt, Phase.run]

/-- Joining and deleting the first thread: its phase goes from `running` to `deleted`. -/
theorem Lawful.pop {t : PolyfillThread τ} {ts : List (PolyfillThread τ)} {os : Os τ}
    (hv : (⟨t :: ts, os⟩ : Pool τ).Valid) (hL : (⟨t :: ts, os⟩ : Pool τ).Lawful) :
    (⟨ts, (os.record (.join t.id)).record (.delete t.id)⟩ : Pool τ).Lawful := by
  intro u
  have hlt : ∀ x ∈ ts.map (·.id), x < t.id := (List.sorted_cons.mp hv.sorted).1
  have hfresh : t.id < os.nextId := hv.lt_nextId t (List.mem_cons_self _ _)
  rw [Os.record_calls, Os.record_calls, List.append_assoc, run_filter_append, hL u]
  by_cases hu : u = t.id
  · subst hu
    have hnot : t.id ∉ ts.map (·.id) := fun h => lt_irrefl _ (hlt _ h)
    simp [phase, ids, Call.thread, Phase.run, Phase.next, Nat.not_le.mpr hfresh, hnot]
  · simp [phase, ids, Call.thread, Ne.symm hu, hu, Phase.run]

/-- A setter's calls on the first threads of the pool keep every phase: the threads they reach
are running, and they are about no other. -/
theorem Lawful.tunePrefix (hv : P.Valid) (hL : P.Lawful) (k : Tunable τ α) (v : α) (n : Nat) :
    (P.tunePrefix k v n).Lawful := by
  intro u
  have hphase : (P.tunePrefix k v n).phase u = P.phase u := by
    simp only [phase, ids_tunePrefix]; rfl
  rw [hphase, Pool.tunePrefix, run_filter_append, hL u]
  by_cases hu : u ∈ P.ids
  · obtain ⟨t, ht, rfl⟩ := List.mem_map.mp hu
    have hrun : P.phase t.id = .running := by
      simp [phase, Nat.not_le.mpr (hv.lt_nextId t ht), hu]
    rw [hrun, Option.some_bind]
    exact Phase.run_running_of_isTune _ fun c hc => isTune_of_mem_tuneCalls (List.mem_of_mem_filter hc)
  · have hnil : ((P.threads.take n).map fun t => k.call t.id v).filter (·.thread == u) = [] :=
      List.filter_eq_nil_iff.mpr fun c hc => by
        obtain ⟨x, hx, rfl⟩ := List.mem_map.mp hc
        rw [k.thread_call, beq_iff_eq]
        rintro rfl
        exact hu (List.mem_map_of_mem _ (List.mem_of_mem_take hx))
    rw [hnil]
    rfl

theorem Lawful.move {P P' : Pool τ} (hv : P.Valid) (h : Move P P') (hL : P.Lawful) : P'.Lawful := by
  cases h with
  | push _ f attr tu => exact hL.push f attr tu
  | pop => exact hL.pop hv
  | priority _ v n | nativePriority _ v n | affinity _ v n | dtorAction _ v n =>
    exact hL.tunePrefix hv _ v n

end Pool

/-- In every reachable state the calls the group has made into the platform about each thread
follow the thread's life: none before it is started, then its start, setter calls and its join
only while it runs, and the deletion of its item right after its join, then nothing. The thread
is running exactly while it is on the chain, and deleted once it has left it. -/
theorem platform_calls_follow_thread_life (g : ThreadGroup τ) (hg : Reachable g) (as : List Addr)
    (ts : List (PolyfillThread τ)) (hc : Chain g.store g.first as ts) (u : Nat) :
    Phase.run .unstarted (g.os.calls.filter (·.thread == u)) =
      some (if g.os.nextId ≤ u then .unstarted else if u ∈ ts.map (·.id) then .running else .deleted) := by
  obtain ⟨P, ⟨as', hr⟩, -, hL⟩ := hg.implements_of Pool.lawful_init fun _ _ hv h hL => hL.move hv h
  obtain ⟨-, rfl⟩ := hr.chain.unique hc
  rw [hr.os]
  exact hL u

theorem platform_calls_follow_thread_life_after_failed_join :
    Phase.run .unstarted (twoThreadsJoinFailed.os.calls.filter (·.thread == 1)) = some .deleted ∧
    Phase.run .unstarted (twoThreadsJoinFailed.os.calls.filter (·.thread == 0)) = some .running ∧
    Phase.run .unstarted (twoThreadsJoinFailed.os.calls.filter (·.thread == 7)) = some .unstarted :=
  have h := platform_calls_follow_thread_life _ reachable_twoThreadsJoinFailed _ _
    chain_twoThreadsJoinFailed
  ⟨(h 1).trans (by decide), (h 0).trans (by decide), (h 7).trans (by decide)⟩

/-- What a call the group records does to thread `t`: a setter call about it sets that tunable,
as `polyfill_thread`'s setter does; any other call leaves it as it is. -/
def PolyfillThread.applyCall (t : PolyfillThread τ) : Call τ → PolyfillThread τ
  | .priority u v => if u = t.id then t.tune Tunable.priority v else t
  | .nativePriority u v => if u = t.id then t.tune Tunable.nativePriority v else t
  | .affinity u v => if u = t.id then t.tune Tunable.affinity v else t
  | .dtorAction u v => if u = t.id then t.tune Tunable.dtorAction v else t
  | _ => t

section Replay

variable (k : Tunable τ α)
  (hk : ∀ (t : PolyfillThread τ) u v, t.applyCall (k.call u v) = if u = t.id then t.tune k v else t)
  (v : α)
include hk

/-- A setter's calls on the threads `xs` leave a thread outside them as it is. -/
theorem foldl_applyCall_of_not_mem : ∀ (xs : List (PolyfillThread τ)) (t : PolyfillThread τ),
    t.id ∉ xs.map (·.id) → (xs.map fun x => k.call x.id v).foldl PolyfillThread.applyCall t = t
  | [], _, _ => rfl
  | x :: xs, t, h => by
    have hx : x.id ≠ t.id := fun e => h (e ▸ List.mem_cons_self _ _)
    simp only [List.map_cons, List.foldl_cons, hk, if_neg hx]
    exact foldl_applyCall_of_not_mem xs t fun hm => h (List.mem_cons_of_mem _ hm)

/-- A setter's calls on threads of distinct numbers set a thread among them once. -/
theorem foldl_applyCall_of_mem : ∀ (xs : List (PolyfillThread τ)) (t : PolyfillThread τ),
    (xs.map (·.id)).Nodup → t.id ∈ xs.map (·.id) →
      (xs.map fun x => k.call x.id v).foldl PolyfillThread.applyCall t = t.tune k v
  | [], _, _, h => absurd h (List.not_mem_nil _)
  | x :: xs, t, hn, h => by
    obtain ⟨hx, hn⟩ := List.nodup_cons.mp hn
    simp only [List.map_cons, List.foldl_cons, hk]
    by_cases he : x.id = t.id
    · rw [if_pos he]
      exact foldl_applyCall_of_not_mem k hk v xs _ (by simpa [← he] using hx)
    · rw [if_neg he]
      exact foldl_applyCall_of_mem xs t hn ((List.mem_cons.mp h).resolve_left (Ne.symm he))

end Replay

namespace Pool

variable {P₀ P : Pool τ}

/-- Each thread of `P` that was in `P₀` is its `P₀` self with the calls made since replayed. -/
def ReplaysFrom (P₀ P : Pool τ) : Prop :=
  P₀.os.nextId ≤ P.os.nextId ∧ ∃ cs, P.os.calls = P₀.os.calls ++ cs ∧
    ∀ t₀ ∈ P₀.threads, ∀ t ∈ P.threads, t.id = t₀.id → t = cs.foldl PolyfillThread.applyCall t₀

theorem replaysFrom_refl (hv : P₀.Valid) : P₀.ReplaysFrom P₀ :=
  ⟨le_rfl, [], by simp, fun t₀ h₀ t ht hid =>
    List.inj_on_of_nodup_map hv.sorted.nodup ht h₀ hid⟩

/-- Starting a thread: it is not one of `P₀`'s, whose numbers are below `P₀`'s next one, and a
start replays as nothing on the others. -/
theorem ReplaysFrom.push (hv₀ : P₀.Valid) (hR : P₀.ReplaysFrom P) (f : τ.function)
    (attr : τ.attributes) (tu : Tunables τ) :
    P₀.ReplaysFrom ⟨⟨P.os.nextId, f, attr, tu, true⟩ :: P.threads,
      ⟨P.os.nextId + 1, P.os.calls ++ [.spawn P.os.nextId f attr]⟩⟩ := by
  obtain ⟨hle, cs, hcalls, h⟩ := hR
  refine ⟨Nat.le_succ_of_le hle, cs ++ [.spawn P.os.nextId f attr], by simp [hcalls], ?_⟩
  intro t₀ h₀ t ht hid
  rcases List.mem_cons.mp ht with rfl | ht
  · exact absurd (hv₀.lt_nextId t₀ h₀) (by rw [← hid]; exact Nat.not_lt.mpr hle)
  · rw [List.foldl_append, ← h t₀ h₀ t ht hid]
    rfl

/-- A join and a delete replay as nothing on the threads left. -/
theorem ReplaysFrom.pop {t : PolyfillThread τ} {ts : List (PolyfillThread τ)} {os : Os τ}
    (hR : P₀.ReplaysFrom ⟨t :: ts, os⟩) :
    P₀.ReplaysFrom ⟨ts, (os.record (.join t.id)).record (.delete t.id)⟩ := by
  obtain ⟨hle, cs, hcalls, h⟩ := hR
  refine ⟨hle, cs ++ [.join t.id, .delete t.id], by simp [show os.calls = _ from hcalls], ?_⟩
  intro t₀ h₀ t' ht' hid
  rw [List.foldl_append, ← h t₀ h₀ t' (List.mem_cons_of_mem _ ht') hid]
  rfl

/-- A setter on the first `n` threads: its calls replay on each of them as the setter itself,
since the threads' numbers are distinct, and as nothing on the others. -/
theorem ReplaysFrom.tunePrefix (hv : P.Valid) (hR : P₀.ReplaysFrom P) (k : Tunable τ α)
    (hk : ∀ (t : PolyfillThread τ) u v, t.applyCall (k.call u v) = if u = t.id then t.tune k v else t)
    (v : α) (n : Nat) : P₀.ReplaysFrom (P.tunePrefix k v n) := by
  obtain ⟨hle, cs, hcalls, h⟩ := hR
  have hnd : ((P.threads.take n).map (·.id) ++ (P.threads.drop n).map (·.id)).Nodup := by
    rw [← List.map_append, List.take_append_drop]; exact hv.sorted.nodup
  refine ⟨hle, cs ++ (P.threads.take n).map fun x => k.call x.id v,
    by simp [Pool.tunePrefix, hcalls], fun t₀ h₀ t ht hid => ?_⟩
  rw [List.foldl_append]
  rcases List.mem_append.mp ht with ht | ht
  · obtain ⟨x, hx, rfl⟩ := List.mem_map.mp ht
    rw [← h t₀ h₀ x (List.mem_of_mem_take hx) hid,
      foldl_applyCall_of_mem k hk v _ x (List.nodup_append.mp hnd).1 (List.mem_map_of_mem _ hx)]
  · rw [← h t₀ h₀ t (List.mem_of_mem_drop ht) hid,
      foldl_applyCall_of_not_mem k hk v _ t fun hm =>
        List.disjoint_of_nodup_append hnd hm (List.mem_map_of_mem _ ht)]

theorem ReplaysFrom.move (hv₀ : P₀.Valid) {P P' : Pool τ} (hv : P.Valid) (h : Move P P')
    (hR : P₀.ReplaysFrom P) : P₀.ReplaysFrom P' := by
  cases h with
  | push _ f attr tu => exact hR.push hv₀ f attr tu
  | pop => exact hR.pop
  | priority _ v n | nativePriority _ v n | affinity _ v n | dtorAction _ v n =>
    exact hR.tunePrefix hv _ (by intros; rfl) v n

end Pool

/-- Between a reachable state and any state calls from it reach, each thread in the group at
both is its earlier self with every call made in between replayed: the setter calls about it
set its tunables in order, the last of each kind winning, and no other call changes it. Taken
from the state right after a thread started, where it holds what the platform gave it, this
is the whole history of that thread. -/
theorem kept_threads_replay_calls_between (g₀ g : ThreadGroup τ) (h₀ : Reachable g₀)
    (h : Steps g₀ g) (as₀ : List Addr) (ts₀ : List (PolyfillThread τ))
    (hc₀ : Chain g₀.store g₀.first as₀ ts₀) (as : List Addr) (ts : List (PolyfillThread τ))
    (hc : Chain g.store g.first as ts) :
    ∃ cs, g.os.calls = g₀.os.calls ++ cs ∧
      ∀ t₀ ∈ ts₀, ∀ t ∈ ts, t.id = t₀.id → t = cs.foldl PolyfillThread.applyCall t₀ := by
  obtain ⟨hr₀, hv₀⟩ := h₀.represents hc₀
  obtain ⟨P, ⟨as', hr⟩, -, -, cs, hcalls, hR⟩ := h.implements_of
    (fun _ _ hv hm hR => Pool.ReplaysFrom.move hv₀ hv hm hR) ⟨as₀, hr₀⟩ hv₀
    (Pool.replaysFrom_refl hv₀)
  obtain ⟨-, rfl⟩ := hr.chain.unique hc
  exact ⟨cs, by rw [hr.os]; exact hcalls, hR⟩

theorem kept_threads_replay_calls_between_on_twoThreads :
    ∃ cs, twoThreads.os.calls ++ [.priority 1 (7 : Nat), .priority 0 (7 : Nat)] =
        twoThreads.os.calls ++ cs ∧
      (natThread 1).tune Tunable.priority (7 : Nat) = cs.foldl PolyfillThread.applyCall (natThread 1) := by
  let g : ThreadGroup natCpf := ⟨2, ⟨[none, some ⟨(natThread 0).tune Tunable.priority (7 : Nat), 0⟩,
      some ⟨(natThread 1).tune Tunable.priority (7 : Nat), 1⟩], Nat.succ_pos _⟩,
    ⟨2, twoThreads.os.calls ++ [.priority 1 (7 : Nat), .priority 0 (7 : Nat)]⟩⟩
  have hs : Steps twoThreads g :=
    .returned .refl (show step natPlatform twoThreads (.priority (7 : Nat)) = .returned g from rfl)
  have hc : Chain g.store g.first [2, 1]
      [(natThread 1).tune Tunable.priority (7 : Nat), (natThread 0).tune Tunable.priority (7 : Nat)] :=
    Chain.cons_iff.mpr ⟨rfl, _, rfl, rfl, Chain.cons_iff.mpr ⟨rfl, _, rfl, rfl, .null⟩⟩
  obtain ⟨cs, hcs, h⟩ := kept_threads_replay_calls_between _ _ reachable_twoThreads hs _ _
    chain_twoThreads _ _ hc
  exact ⟨cs, hcs, h _ (List.mem_cons_self _ _) _ (List.mem_cons_self _ _) rfl⟩

end Asio.Detail
