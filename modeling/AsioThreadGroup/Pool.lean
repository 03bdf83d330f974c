import AsioThreadGroup.ThreadGroup
import Mathlib.Data.List.Sort

/-! The pool as its specification describes it: an owned sequence of threads, most recently
created first. Creating a thread puts it in front, `join` joins and deletes the threads in
order until a join throws, a setter applies to each thread in order until a call throws, and
a getter reads the first. `Move` says once what a call can do to a pool; every invariant of
the pool is derived from it. -/
namespace Asio.Detail

variable {τ : Cpf} {α : Type}

/-- The threads of a pool, most recently created first, and the platform's side. -/
structure Pool (τ : Cpf) where
  threads : List (PolyfillThread τ)
  os : Os τ

namespace Pool

def init : Pool τ := ⟨[], ⟨0, []⟩⟩

/-- The numbers of the threads in the pool, in pool order. -/
def ids (P : Pool τ) : List Nat := P.threads.map (·.id)

def createThread (f : τ.function) (attr : τ.attributes) (p : Platform τ) (P : Pool τ) :
    Outcome (Pool τ) :=
  match PolyfillThread.create p f attr P.os with
  | none => .threw P
  | some (t, os) => .returned ⟨t :: P.threads, os⟩

def createThreads (f : τ.function) (attr : τ.attributes) (p : Platform τ) :
    Nat → Pool τ → Outcome (Pool τ)
  | 0, P => .returned P
  | n + 1, P => (createThread f attr p P).bind (createThreads f attr p n)

/-- Joins `ts` in order, deleting each thread right after its join, until a join throws. -/
def joinAll (p : Platform τ) : List (PolyfillThread τ) → Os τ → Outcome (Pool τ)
  | [], os => .returned ⟨[], os⟩
  | t :: ts, os =>
    match t.join p os with
    | none => .threw ⟨t :: ts, os⟩
    | some (_, os') => joinAll p ts (os'.record (.delete t.id))

def join (p : Platform τ) (P : Pool τ) : Outcome (Pool τ) :=
  joinAll p P.threads P.os

/-- The first `n` threads set to `v`, with one call each in pool order; the others as they
were. -/
def tunePrefix (k : Tunable τ α) (v : α) (n : Nat) (P : Pool τ) : Pool τ :=
  ⟨(P.threads.take n).map (·.tune k v) ++ P.threads.drop n,
    ⟨P.os.nextId, P.os.calls ++ (P.threads.take n).map fun t => k.call t.id v⟩⟩

/-- How many threads, from the front, a setter's calls return on before one throws. -/
def setCount (k : Tunable τ α) (v : α) (ok : Call τ → Bool) (ts : List (PolyfillThread τ)) : Nat :=
  (ts.takeWhile fun t => ok (k.call t.id v)).length

/-- A setter applies `v` to the threads in pool order, one call each, until a call throws:
the exception leaves the threads before that call set and the others as they were. -/
def setTunable (k : Tunable τ α) (v : α) (ok : Call τ → Bool) (P : Pool τ) : Outcome (Pool τ) :=
  Outcome.ending (decide (setCount k v ok P.threads < P.threads.length))
    (P.tunePrefix k v (setCount k v ok P.threads))

/-- A getter reads the most recently created thread. -/
def getTunable (k : Tunable τ α) (P : Pool τ) : Option α :=
  P.threads.head?.map fun t => k.get t.tunables

def step (p : Platform τ) (P : Pool τ) : Op τ → Outcome (Pool τ)
  | .createThread f attr => createThread f (attr.getD τ.defaultAttributes) p P
  | .createThreads f attr n => createThreads f (attr.getD τ.defaultAttributes) p n P
  | .priority v => P.setTunable Tunable.priority v p.tune
  | .nativePriority v => P.setTunable Tunable.nativePriority v p.tune
  | .affinity v => P.setTunable Tunable.affinity v p.tune
  | .dtorAction v => P.setTunable Tunable.dtorAction v fun _ => true
  | .join => join p P

def run : List (Op τ × Platform τ) → Pool τ → Outcome (Pool τ)
  | [], P => .returned P
  | (op, p) :: ops, P => (step p P op).bind (run ops)

/-- What holds of every pool the group reaches. -/
structure Valid (P : Pool τ) : Prop where
  /-- The pool holds threads most recently created first, each once. -/
  sorted : P.ids.Sorted (· > ·)
  lt_nextId : ∀ t ∈ P.threads, t.id < P.os.nextId
  joinable : ∀ t ∈ P.threads, t.joinable = true
  spawned : ∀ t f attr, Call.spawn t f attr ∈ P.os.calls → t < P.os.nextId
  /-- Each thread of the pool was started by the platform with its callable and attributes. -/
  started : ∀ t ∈ P.threads, Call.spawn t.id t.function t.attributes ∈ P.os.calls
  /-- A thread that has left the pool was joined and then deleted, once each; one still in
  it was neither. -/
  ends : ∀ u, P.os.calls.filter (·.isEndOf u) =
    if u < P.os.nextId ∧ u ∉ P.ids then [.join u, .delete u] else []

theorem valid_init : (init : Pool τ).Valid where
  sorted := List.sorted_nil
  lt_nextId := by simp [init]
  joinable := by simp [init]
  spawned := by simp [init]
  started := by simp [init]
  ends := by simp [init]

variable {P : Pool τ}

@[simp] theorem ids_mk (ts : List (PolyfillThread τ)) (os : Os τ) : ids ⟨ts, os⟩ = ts.map (·.id) := rfl

section TunePrefix

variable {k : Tunable τ α} {v : α} {n : Nat}

@[simp] theorem ids_tunePrefix : (P.tunePrefix k v n).ids = P.ids := by
  rw [ids, tunePrefix, List.map_append, List.map_map]
  simp only [Function.comp_def, PolyfillThread.tune_id]
  rw [← List.map_append, List.take_append_drop]
  rfl

/-- A thread after a setter is a thread before it, set or not. -/
theorem exists_of_mem_tunePrefix {t : PolyfillThread τ} (h : t ∈ (P.tunePrefix k v n).threads) :
    ∃ x ∈ P.threads, t = x.tune k v ∨ t = x := by
  rcases List.mem_append.mp h with h | h
  · obtain ⟨x, hx, rfl⟩ := List.mem_map.mp h
    exact ⟨x, List.mem_of_mem_take hx, .inl rfl⟩
  · exact ⟨t, List.mem_of_mem_drop h, .inr rfl⟩

/-- Every call a setter makes is a setter call. -/
theorem isTune_of_mem_tuneCalls {c : Call τ} {ts : List (PolyfillThread τ)}
    (h : c ∈ ts.map fun t => k.call t.id v) : c.isTune = true := by
  obtain ⟨t, -, rfl⟩ := List.mem_map.mp h
  exact k.isTune_call t.id v

end TunePrefix

/-- Along `xs`, either every call returns or one is the first to throw. -/
theorem exists_first_throw {X : Type} (ok : X → Bool) : ∀ xs : List X,
    (∀ x ∈ xs, ok x = true) ∨
      ∃ j, ∃ hj : j < xs.length, (∀ x ∈ xs.take j, ok x = true) ∧ ok xs[j] = false
  | [] => .inl fun _ h => absurd h (List.not_mem_nil _)
  | x :: xs => by
    cases hx : ok x with
    | false => exact .inr ⟨0, Nat.succ_pos _, by simp, hx⟩
    | true =>
      rcases exists_first_throw ok xs with h | ⟨j, hj, hok, hf⟩
      · exact .inl fun y hy => (List.mem_cons.mp hy).elim (· ▸ hx) (h y)
      · refine .inr ⟨j + 1, Nat.succ_lt_succ hj, fun y hy => ?_, hf⟩
        rcases List.mem_cons.mp (by simpa using hy) with rfl | hy
        exacts [hx, hok y hy]

section SetCount

variable {k : Tunable τ α} {v : α} {ok : Call τ → Bool} {t : PolyfillThread τ}
  {ts : List (PolyfillThread τ)}

theorem setCount_cons_of_ok (h : ok (k.call t.id v) = true) :
    setCount k v ok (t :: ts) = setCount k v ok ts + 1 := by
  simp [setCount, List.takeWhile_cons, h]

theorem setCount_cons_of_throw (h : ok (k.call t.id v) = false) : setCount k v ok (t :: ts) = 0 := by
  simp [setCount, List.takeWhile_cons, h]

/-- When every call returns, the setter sets every thread. -/
theorem setCount_of_ok (h : ∀ t ∈ ts, ok (k.call t.id v) = true) : setCount k v ok ts = ts.length := by
  rw [setCount, List.takeWhile_eq_self_iff.mpr h]

/-- When the first call to throw is on thread `j`, the setter sets the `j` threads before it. -/
theorem setCount_of_throw : ∀ (ts : List (PolyfillThread τ)) (j : Nat) (hj : j < ts.length),
    (∀ t ∈ ts.take j, ok (k.call t.id v) = true) → ok (k.call ts[j].id v) = false →
      setCount k v ok ts = j
  | [], _, hj, _, _ => absurd hj (Nat.not_lt_zero _)
  | _ :: _, 0, _, _, hf => setCount_cons_of_throw hf
  | t :: ts, j + 1, hj, hok, hf => by
    rw [setCount_cons_of_ok (hok t (List.mem_cons_self _ _)),
      setCount_of_throw ts j (Nat.lt_of_succ_lt_succ hj) (fun x hx => hok x (List.mem_cons_of_mem _ hx)) hf]

end SetCount

/-- A thread still in a valid pool has been neither joined nor deleted. -/
theorem Valid.ends_of_mem (hP : P.Valid) {t : PolyfillThread τ} (ht : t ∈ P.threads) :
    P.os.calls.filter (·.isEndOf t.id) = [] := by
  rw [hP.ends, if_neg fun h => h.2 (List.mem_map_of_mem _ ht)]

/-- A started thread that has left a valid pool was joined once and then deleted once. -/
theorem Valid.ends_of_not_mem (hP : P.Valid) {u : Nat} (hu : u < P.os.nextId) (hn : u ∉ P.ids) :
    P.os.calls.filter (·.isEndOf u) = [.join u, .delete u] := by
  rw [hP.ends, if_pos ⟨hu, hn⟩]

theorem Valid.ends_cases (hP : P.Valid) (u : Nat) :
    P.os.calls.filter (·.isEndOf u) = [] ∨ P.os.calls.filter (·.isEndOf u) = [.join u, .delete u] := by
  rw [hP.ends]
  split_ifs
  exacts [.inr rfl, .inl rfl]

/-- A new thread gets a number above every thread of the pool, so the pool stays valid. -/
theorem Valid.push (hP : P.Valid) (f : τ.function) (attr : τ.attributes) (tu : Tunables τ) :
    (⟨⟨P.os.nextId, f, attr, tu, true⟩ :: P.threads,
      ⟨P.os.nextId + 1, P.os.calls ++ [.spawn P.os.nextId f attr]⟩⟩ : Pool τ).Valid where
  sorted := List.sorted_cons.mpr
    ⟨by simpa [ids] using fun t ht => hP.lt_nextId t ht, hP.sorted⟩
  lt_nextId := by
    simpa using fun t ht => Nat.lt_succ_of_lt (hP.lt_nextId t ht)
  joinable := by simpa using hP.joinable
  spawned := by
    simp only [List.mem_append, List.mem_singleton, Call.spawn.injEq]
    rintro t f' attr' (h | ⟨rfl, -, -⟩)
    · exact Nat.lt_succ_of_lt (hP.spawned _ _ _ h)
    · exact Nat.lt_succ_self _
  started t ht := by
    rcases List.mem_cons.mp ht with rfl | ht
    · exact List.mem_append_right _ (List.mem_singleton_self _)
    · exact List.mem_append_left _ (hP.started t ht)
  ends u := by
    rw [List.filter_append, hP.ends u]
    by_cases hu : u = P.os.nextId
    · simp [hu, ids, Call.isEndOf]
    · have : u < P.os.nextId + 1 ↔ u < P.os.nextId := by omega
      simp [hu, this, ids, Call.isEndOf]

/-- Joining and deleting the first thread keeps a pool valid: it was the only one with its
number, so its join and delete are the first end calls of that number. -/
theorem Valid.pop {t : PolyfillThread τ} {ts : List (PolyfillThread τ)} {os : Os τ}
    (hP : (⟨t :: ts, os⟩ : Pool τ).Valid) :
    (⟨ts, (os.record (.join t.id)).record (.delete t.id)⟩ : Pool τ).Valid where
  sorted := (List.sorted_cons.mp hP.sorted).2
  lt_nextId u hu := hP.lt_nextId u (List.mem_cons_of_mem _ hu)
  joinable u hu := hP.joinable u (List.mem_cons_of_mem _ hu)
  spawned u f attr h := hP.spawned u f attr (by simpa using h)
  started u hu := List.mem_append_left _ (List.mem_append_left _ (hP.started u (List.mem_cons_of_mem _ hu)))
  ends u := by
    have hlt : ∀ x ∈ ts.map (·.id), x < t.id := (List.sorted_cons.mp hP.sorted).1
    have hold := hP.ends u
    simp only [ids_mk, List.map_cons] at hold ⊢
    simp only [Os.record_calls, Os.record_nextId, List.filter_append, hold]
    by_cases hu : u = t.id
    · subst hu
      rw [if_neg fun h => h.2 (List.mem_cons_self _ _),
        if_pos ⟨hP.lt_nextId t (List.mem_cons_self _ _), fun h => lt_irrefl _ (hlt _ h)⟩]
      simp [Call.isEndOf]
    · have hc : (u < os.nextId ∧ u ∉ t.id :: ts.map (·.id)) ↔ (u < os.nextId ∧ u ∉ ts.map (·.id)) := by
        simp [hu]
      simp only [hc]
      simp [Call.isEndOf, Ne.symm hu]

theorem Valid.tunePrefix (hP : P.Valid) (k : Tunable τ α) (v : α) (n : Nat) :
    (P.tunePrefix k v n).Valid where
  sorted := by simpa using hP.sorted
  lt_nextId t ht := by
    obtain ⟨x, hx, rfl | rfl⟩ := exists_of_mem_tunePrefix ht
    exacts [hP.lt_nextId x hx, hP.lt_nextId _ hx]
  joinable t ht := by
    obtain ⟨x, hx, rfl | rfl⟩ := exists_of_mem_tunePrefix ht
    exacts [hP.joinable x hx, hP.joinable _ hx]
  spawned t f attr h := by
    rcases List.mem_append.mp h with h | h
    · exact hP.spawned t f attr h
    · cases isTune_of_mem_tuneCalls h
  started t ht := by
    obtain ⟨x, hx, rfl | rfl⟩ := exists_of_mem_tunePrefix ht
    exacts [List.mem_append_left _ (hP.started x hx), List.mem_append_left _ (hP.started _ hx)]
  ends u := by
    have hnil : ((P.threads.take n).map fun t => k.call t.id v).filter (·.isEndOf u) = [] :=
      List.filter_eq_nil_iff.mpr fun c hc => by
        simp [Call.isEndOf_of_isTune (isTune_of_mem_tuneCalls hc) u]
    rw [ids_tunePrefix]
    simp only [Pool.tunePrefix, List.filter_append, hnil, List.append_nil]
    exact hP.ends u

/-- What one call on a pool can do at a time: start thread `nextId` in front, join and delete
the first thread, or set one of the four tunables on the first `n` threads. -/
inductive Move : Pool τ → Pool τ → Prop
  | push (P : Pool τ) (f : τ.function) (attr : τ.attributes) (tu : Tunables τ) :
      Move P ⟨⟨P.os.nextId, f, attr, tu, true⟩ :: P.threads,
        ⟨P.os.nextId + 1, P.os.calls ++ [.spawn P.os.nextId f attr]⟩⟩
  | pop (t : PolyfillThread τ) (ts : List (PolyfillThread τ)) (os : Os τ) :
      Move ⟨t :: ts, os⟩ ⟨ts, (os.record (.join t.id)).record (.delete t.id)⟩
  | priority (P : Pool τ) (v : τ.priority) (n : Nat) : Move P (P.tunePrefix Tunable.priority v n)
  | nativePriority (P : Pool τ) (v : τ.nativePriority) (n : Nat) :
      Move P (P.tunePrefix Tunable.nativePriority v n)
  | affinity (P : Pool τ) (v : τ.affinity) (n : Nat) : Move P (P.tunePrefix Tunable.affinity v n)
  | dtorAction (P : Pool τ) (v : τ.dtorAction) (n : Nat) :
      Move P (P.tunePrefix Tunable.dtorAction v n)

/-- Any number of moves. -/
def Moves : Pool τ → Pool τ → Prop := Relation.ReflTransGen Move

theorem Move.valid {P P' : Pool τ} (h : Move P P') (hv : P.Valid) : P'.Valid := by
  cases h with
  | push _ f attr tu => exact hv.push f attr tu
  | pop => exact hv.pop
  | priority _ v n | nativePriority _ v n | affinity _ v n | dtorAction _ v n =>
    exact hv.tunePrefix _ v n

theorem createThread_moves (f : τ.function) (attr : τ.attributes) (p : Platform τ) (P : Pool τ) :
    (createThread f attr p P).Holds (Moves P) := by
  unfold createThread
  cases h : PolyfillThread.create p f attr P.os with
  | none => exact Relation.ReflTransGen.refl
  | some r =>
    rcases r with ⟨t, os⟩
    obtain ⟨tu, -, rfl, rfl⟩ := PolyfillThread.create_eq_some h
    exact .single (.push P f attr tu)

theorem createThreads_moves (f : τ.function) (attr : τ.attributes) (p : Platform τ) :
    ∀ n (P : Pool τ), (createThreads f attr p n P).Holds (Moves P)
  | 0, _ => Relation.ReflTransGen.refl
  | n + 1, P => (createThread_moves f attr p P).bind fun _ h =>
    (createThreads_moves f attr p n _).mono fun _ h' => h.trans h'

theorem joinAll_moves (p : Platform τ) :
    ∀ ts (os : Os τ), (⟨ts, os⟩ : Pool τ).Valid → (joinAll p ts os).Holds (Moves ⟨ts, os⟩)
  | [], _, _ => Relation.ReflTransGen.refl
  | t :: ts, os, hv => by
    rw [joinAll, PolyfillThread.join_of_joinable os (hv.joinable t (List.mem_cons_self _ _))]
    by_cases hj : p.join t.id = true
    · simpa [hj] using (joinAll_moves p ts _ hv.pop).mono fun _ h =>
      (Relation.ReflTransGen.single (Move.pop t ts os)).trans h
    · simpa [hj] using (Relation.ReflTransGen.refl : Moves (⟨t :: ts, os⟩ : Pool τ) _)

/-- Every call on a valid pool that returns or throws has made some moves. -/
theorem step_moves (hv : P.Valid) (p : Platform τ) : ∀ op, (step p P op).Holds (Moves P)
  | .createThread f _ => createThread_moves f _ p P
  | .createThreads f _ n => createThreads_moves f _ p n P
  | .priority v => (Outcome.holds_ending _ _).mpr (.single (.priority P v _))
  | .nativePriority v => (Outcome.holds_ending _ _).mpr (.single (.nativePriority P v _))
  | .affinity v => (Outcome.holds_ending _ _).mpr (.single (.affinity P v _))
  | .dtorAction v => (Outcome.holds_ending _ _).mpr (.single (.dtorAction P v _))
  | .join => joinAll_moves p P.threads P.os hv

/-- A property of valid pools that each move keeps is kept by every call on a valid pool. -/
theorem step_holds_of {I : Pool τ → Prop} (hI : ∀ P P', P.Valid → Move P P' → I P → I P')
    (hv : P.Valid) (hP : I P) (p : Platform τ) (op : Op τ) :
    (step p P op).Holds fun P' => P'.Valid ∧ I P' := by
  refine (step_moves hv p op).mono fun P' h => ?_
  induction h with
  | refl => exact ⟨hv, hP⟩
  | tail _ hm ih => exact ⟨hm.valid ih.1, hI _ _ ih.1 hm ih.2⟩

theorem valid_step (hP : P.Valid) (p : Platform τ) (op : Op τ) : (step p P op).Holds Valid :=
  (step_holds_of (I := fun _ => True) (fun _ _ _ _ _ => trivial) hP trivial p op).mono fun _ h => h.1

theorem valid_run : ∀ (ops : List (Op τ × Platform τ)) (P : Pool τ), P.Valid → (run ops P).Holds Valid
  | [], _, hP => hP
  | (op, p) :: ops, _, hP => (valid_step hP p op).bind fun _ h => valid_run ops _ h

end Pool

end Asio.Detail
