import AsioThreadGroup.FreeStore

/-! `detail/thread_group.hpp` under `ASIO_HAS_POLYFILL_THREAD`. A call on the group ends as
C++ lets it: it returns, or an exception leaves it with the state reached so far, or it
follows a null or deleted pointer, or an exception reaching a `noexcept` boundary ends the
program. The `while` loops walk the list with fuel, one more than the cells of the store;
running out of it is the loop not ending. -/
namespace Asio.Detail

variable {τ : Cpf} {α : Type}

/-- How a call ends. -/
inductive Outcome (σ : Type) where
  | returned (s : σ)
  | threw (s : σ)
  | undefined
  | outOfFuel
  /-- An exception left a `noexcept` function, so `std::terminate` was called. -/
  | terminated

/-- Runs `f` after a call that returned; an exception or undefined behaviour propagates. -/
def Outcome.bind {σ : Type} : Outcome σ → (σ → Outcome σ) → Outcome σ
  | .returned s, f => f s
  | .threw s, _ => .threw s
  | .undefined, _ => .undefined
  | .outOfFuel, _ => .outOfFuel
  | .terminated, _ => .terminated

@[simp] theorem Outcome.returned_bind {σ : Type} (s : σ) (f : σ → Outcome σ) :
    (Outcome.returned s).bind f = f s := rfl

@[simp] theorem Outcome.threw_bind {σ : Type} (s : σ) (f : σ → Outcome σ) :
    (Outcome.threw s).bind f = .threw s := rfl

/-- The call returned or threw, and the state it left has `Q`. -/
def Outcome.Holds {σ : Type} (Q : σ → Prop) : Outcome σ → Prop
  | .returned s => Q s
  | .threw s => Q s
  | _ => False

/-- Two calls ended the same way, in states related by `R`. -/
def Outcome.Rel {σ σ' : Type} (R : σ → σ' → Prop) : Outcome σ → Outcome σ' → Prop
  | .returned s, .returned s' => R s s'
  | .threw s, .threw s' => R s s'
  | _, _ => False

theorem Outcome.Holds.bind {σ : Type} {Q : σ → Prop} {o : Outcome σ} {f : σ → Outcome σ}
    (ho : o.Holds Q) (hf : ∀ s, Q s → (f s).Holds Q) : (o.bind f).Holds Q := by
  cases o with
  | returned s => exact hf s ho
  | threw s => exact ho
  | undefined => exact ho.elim
  | outOfFuel => exact ho.elim
  | terminated => exact ho.elim

theorem Outcome.Holds.mono {σ : Type} {Q R : σ → Prop} {o : Outcome σ} (h : o.Holds Q)
    (hQR : ∀ s, Q s → R s) : o.Holds R := by
  cases o <;> first | exact hQR _ h | exact h.elim

theorem Outcome.Rel.bind {σ σ' : Type} {R : σ → σ' → Prop} {o : Outcome σ} {o' : Outcome σ'}
    {f : σ → Outcome σ} {f' : σ' → Outcome σ'} (ho : o.Rel R o')
    (hf : ∀ s s', R s s' → (f s).Rel R (f' s')) : (o.bind f).Rel R (o'.bind f') := by
  cases o <;> cases o' <;> first | exact hf _ _ ho | exact ho | exact ho.elim

theorem Outcome.Rel.holds {σ σ' : Type} {R : σ → σ' → Prop} {Q : σ' → Prop} {o : Outcome σ}
    {o' : Outcome σ'} (h : o.Rel R o') (hq : o'.Holds Q) : o.Holds fun s => ∃ s', R s s' ∧ Q s' := by
  cases o <;> cases o' <;> first | exact ⟨_, h, hq⟩ | exact h.elim

theorem Outcome.bind_eq_returned {σ : Type} {o : Outcome σ} {f : σ → Outcome σ} {s : σ} :
    o.bind f = .returned s ↔ ∃ s₁, o = .returned s₁ ∧ f s₁ = .returned s := by
  cases o <;> simp [Outcome.bind]

theorem Outcome.bind_assoc {σ : Type} (o : Outcome σ) (f g : σ → Outcome σ) :
    (o.bind f).bind g = o.bind fun s => (f s).bind g := by
  cases o <;> rfl

/-- A loop that leaves `s`, stopped by an exception when `thrown`. -/
def Outcome.ending {σ : Type} (thrown : Bool) (s : σ) : Outcome σ :=
  cond thrown (.threw s) (.returned s)

@[simp] theorem Outcome.holds_ending {σ : Type} {Q : σ → Prop} (b : Bool) (s : σ) :
    (Outcome.ending b s).Holds Q ↔ Q s := by
  cases b <;> rfl

@[simp] theorem Outcome.rel_ending {σ σ' : Type} {R : σ → σ' → Prop} (b : Bool) (s : σ)
    (s' : σ') :
    (Outcome.ending b s).Rel R (Outcome.ending b s') ↔ R s s' := by
  cases b <;> rfl

/-- A `thread_group` with the parts of the world it acts on: `first_`, the free store its
items live in, and the platform's side. -/
structure ThreadGroup (τ : Cpf) where
  first : Addr
  store : Store τ
  os : Os τ

/-- `thread_group()`: `first_(0)`. -/
def ThreadGroup.init : ThreadGroup τ := ⟨0, .empty, ⟨0, []⟩⟩

/-- `create_thread(f, attr)`: `first_ = new item(f, attr, first_);`. The item's thread is
constructed before `first_` is assigned; when that throws, `new` gives the storage back and
the exception leaves `first_` as it was. -/
def createThread (f : τ.function) (attr : τ.attributes) (p : Platform τ) (g : ThreadGroup τ) :
    Outcome (ThreadGroup τ) :=
  match PolyfillThread.create p f attr g.os with
  | none => .threw g
  | some (t, os) =>
    let r := g.store.alloc ⟨t, g.first⟩
    .returned ⟨r.1, r.2, os⟩

section CreateThread

variable {f : τ.function} {attr : τ.attributes} {p : Platform τ} {g g' : ThreadGroup τ}

/-- `create_thread` returns exactly when the thread starts; `first_` then points at the new
item, which holds thread number `nextId` and links to the old `first_`. -/
theorem createThread_eq_returned : createThread f attr p g = .returned g' ↔
    ∃ tu, p.spawn g.os.nextId attr = some tu ∧
      g' = ⟨g.store.cells.length, (g.store.alloc ⟨⟨g.os.nextId, f, attr, tu, true⟩, g.first⟩).2,
        ⟨g.os.nextId + 1, g.os.calls ++ [.spawn g.os.nextId f attr]⟩⟩ := by
  unfold createThread
  cases h : PolyfillThread.create p f attr g.os with
  | none => simp [PolyfillThread.create_eq_none.mp h]
  | some r =>
    rcases r with ⟨t, os⟩
    obtain ⟨tu, hs, rfl, rfl⟩ := PolyfillThread.create_eq_some h
    simp [hs, eq_comm]

/-- A `create_thread` whose thread fails to start leaves everything as it was. -/
theorem createThread_eq_threw : createThread f attr p g = .threw g' ↔
    p.spawn g.os.nextId attr = none ∧ g' = g := by
  unfold createThread
  cases h : PolyfillThread.create p f attr g.os with
  | none => simp [PolyfillThread.create_eq_none.mp h, eq_comm]
  | some r =>
    rcases r with ⟨t, os⟩
    obtain ⟨tu, hs, rfl, rfl⟩ := PolyfillThread.create_eq_some h
    simp [hs]

end CreateThread

/-- `create_threads(f, attr, num_threads)`: `create_thread(f, attr)`, `num_threads` times. -/
def createThreads (f : τ.function) (attr : τ.attributes) (p : Platform τ) :
    Nat → ThreadGroup τ → Outcome (ThreadGroup τ)
  | 0, g => .returned g
  | n + 1, g => (createThread f attr p g).bind (createThreads f attr p n)

/-- `k + m` iterations of `create_threads` are `k` of them followed by `m`. -/
theorem createThreads_add (f : τ.function) (attr : τ.attributes) (p : Platform τ) (m : Nat) :
    ∀ k (g : ThreadGroup τ), createThreads f attr p (k + m) g =
      (createThreads f attr p k g).bind (createThreads f attr p m)
  | 0, g => by simp [createThreads]
  | k + 1, g => by
    rw [Nat.add_right_comm, createThreads, createThreads, Outcome.bind_assoc]
    exact congrArg _ (funext fun g₁ => createThreads_add f attr p m k g₁)

/-- The loop of the setters, e.g. of `priority(value)`:
`while(current) { current->thread_.priority(value); current = current->next_; }`.
`ok` says which calls of `cpf::thread`'s setter return; one that throws ends the loop with
the threads before it set. -/
def setLoop (k : Tunable τ α) (v : α) (ok : Call τ → Bool) :
    Nat → Addr → ThreadGroup τ → Outcome (ThreadGroup τ)
  | 0, _, _ => .outOfFuel
  | fuel + 1, current, g =>
    if current = 0 then .returned g
    else match g.store.get current with
      | none => .undefined
      | some it =>
        if ok (k.call it.thread.id v) then
          setLoop k v ok fuel it.next
            { g with store := g.store.write current { it with thread := it.thread.tune k v },
                     os := g.os.record (k.call it.thread.id v) }
        else .threw g

/-- A setter of the group: `item* current = first_;` and the loop. -/
def setTunable (k : Tunable τ α) (v : α) (ok : Call τ → Bool) (g : ThreadGroup τ) :
    Outcome (ThreadGroup τ) :=
  setLoop k v ok (g.store.cells.length + 1) g.first g

/-- A getter of the group, e.g. `priority()`: `return first_->thread_.priority();`, or
`none` where that dereferences null or a deleted item. -/
def getTunable (k : Tunable τ α) (g : ThreadGroup τ) : Option α :=
  (g.store.get g.first).map fun it => k.get it.thread.tunables

/-- `priority(value)`. -/
def setPriority (p : Platform τ) (v : τ.priority) : ThreadGroup τ → Outcome (ThreadGroup τ) :=
  setTunable Tunable.priority v p.tune

/-- `native_priority(value)`. -/
def setNativePriority (p : Platform τ) (v : τ.nativePriority) :
    ThreadGroup τ → Outcome (ThreadGroup τ) :=
  setTunable Tunable.nativePriority v p.tune

/-- `affinity(affinity)`. -/
def setAffinity (p : Platform τ) (v : τ.affinity) : ThreadGroup τ → Outcome (ThreadGroup τ) :=
  setTunable Tunable.affinity v p.tune

/-- `dtor_action(action) noexcept`, whose calls of `polyfill_thread::dtor_action`, `noexcept`
too, are taken to return, as both declare. -/
def setDtorAction (v : τ.dtorAction) : ThreadGroup τ → Outcome (ThreadGroup τ) :=
  setTunable Tunable.dtorAction v fun _ => true

/-- `priority()`. -/
def priority : ThreadGroup τ → Option τ.priority := getTunable Tunable.priority

/-- `native_priority()`. -/
def nativePriority : ThreadGroup τ → Option τ.nativePriority := getTunable Tunable.nativePriority

/-- `affinity()`. -/
def affinity : ThreadGroup τ → Option τ.affinity := getTunable Tunable.affinity

/-- `dtor_action()`. -/
def dtorAction : ThreadGroup τ → Option τ.dtorAction := getTunable Tunable.dtorAction

/-- The loop of `join()`:
`while (first_) { first_->thread_.join(); item* tmp = first_; first_ = first_->next_; delete tmp; }`.
The joined thread is not written back, as its item is deleted right after. -/
def joinLoop (p : Platform τ) : Nat → ThreadGroup τ → Outcome (ThreadGroup τ)
  | 0, _ => .outOfFuel
  | fuel + 1, g =>
    if g.first = 0 then .returned g
    else match g.store.get g.first with
      | none => .undefined
      | some it =>
        match it.thread.join p g.os with
        | none => .threw g
        | some (_, os) =>
          joinLoop p fuel ⟨it.next, g.store.free g.first, os.record (.delete it.thread.id)⟩

/-- `join()`. -/
def join (p : Platform τ) (g : ThreadGroup τ) : Outcome (ThreadGroup τ) :=
  joinLoop p (g.store.cells.length + 1) g

/-- The loop of `join()` returns only once `first_` is null. -/
theorem joinLoop_returned_first {p : Platform τ} :
    ∀ fuel (g g' : ThreadGroup τ), joinLoop p fuel g = .returned g' → g'.first = 0
  | 0, _, _, h => by cases h
  | fuel + 1, g, g', h => by
    unfold joinLoop at h
    split_ifs at h with h0
    · cases h; exact h0
    · split at h
      · cases h
      · split at h
        · cases h
        · exact joinLoop_returned_first fuel _ _ h

/-- `~thread_group()`: `join();`. A destructor is `noexcept`, so an exception leaving
`join()` there calls `std::terminate`. -/
def destroy (p : Platform τ) (g : ThreadGroup τ) : Outcome (ThreadGroup τ) :=
  match join p g with
  | .threw _ => .terminated
  | o => o

theorem destroy_eq_returned {p : Platform τ} {g g' : ThreadGroup τ} :
    destroy p g = .returned g' ↔ join p g = .returned g' := by
  unfold destroy
  split <;> simp_all

theorem destroy_of_threw {p : Platform τ} {g g' : ThreadGroup τ} (h : join p g = .threw g') :
    destroy p g = .terminated := by
  rw [destroy, h]

/-- A call on the group from outside it; `none` stands for the overloads without attributes,
which pass `cpf::thread::attributes{}`. -/
inductive Op (τ : Cpf) where
  | createThread (f : τ.function) (attr : Option τ.attributes)
  | createThreads (f : τ.function) (attr : Option τ.attributes) (n : Nat)
  | priority (v : τ.priority)
  | nativePriority (v : τ.nativePriority)
  | affinity (v : τ.affinity)
  | dtorAction (v : τ.dtorAction)
  | join

/-- The group's answer to one call, with the platform's answers `p`. -/
def step (p : Platform τ) (g : ThreadGroup τ) : Op τ → Outcome (ThreadGroup τ)
  | .createThread f attr => createThread f (attr.getD τ.defaultAttributes) p g
  | .createThreads f attr n => createThreads f (attr.getD τ.defaultAttributes) p n g
  | .priority v => setPriority p v g
  | .nativePriority v => setNativePriority p v g
  | .affinity v => setAffinity p v g
  | .dtorAction v => setDtorAction v g
  | .join => join p g

/-- The states a group reaches from its constructor by calls that return or throw. -/
inductive Reachable : ThreadGroup τ → Prop
  | init : Reachable .init
  | returned {g g' : ThreadGroup τ} {p : Platform τ} {op : Op τ} :
      Reachable g → step p g op = .returned g' → Reachable g'
  | threw {g g' : ThreadGroup τ} {p : Platform τ} {op : Op τ} :
      Reachable g → step p g op = .threw g' → Reachable g'

/-- The states a group reaches from `g₀` by calls that return or throw. -/
inductive Steps (g₀ : ThreadGroup τ) : ThreadGroup τ → Prop
  | refl : Steps g₀ g₀
  | returned {g g' : ThreadGroup τ} {p : Platform τ} {op : Op τ} :
      Steps g₀ g → step p g op = .returned g' → Steps g₀ g'
  | threw {g g' : ThreadGroup τ} {p : Platform τ} {op : Op τ} :
      Steps g₀ g → step p g op = .threw g' → Steps g₀ g'

theorem Reachable.steps {g : ThreadGroup τ} (h : Reachable g) : Steps .init g := by
  induction h with
  | init => exact .refl
  | returned _ hs ih => exact .returned ih hs
  | threw _ hs ih => exact .threw ih hs

/-- A sequence of calls, each with the platform's answers, run while they return. -/
def run : List (Op τ × Platform τ) → ThreadGroup τ → Outcome (ThreadGroup τ)
  | [], g => .returned g
  | (op, p) :: ops, g => (step p g op).bind (run ops)

/-- Callables, attributes and tunables as numbers, for runs on concrete values. -/
def natCpf : Cpf := ⟨Nat, Nat, Nat, Nat, Nat, Nat, 0⟩

/-- A platform on which every thread starts with all tunables `0` and every join and setter
call returns. -/
def natPlatform : Platform natCpf :=
  ⟨fun _ _ => some ⟨(0 : Nat), (0 : Nat), (0 : Nat), (0 : Nat)⟩, fun _ => true, fun _ => true⟩

/-- A platform on which thread `n` fails to start, to join and to take a setter call, and
every other thread starts with all tunables `0`, joins and takes them. -/
def failingAt (n : Nat) : Platform natCpf :=
  ⟨fun i _ => if i = n then none else some ⟨(0 : Nat), (0 : Nat), (0 : Nat), (0 : Nat)⟩,
    fun i => i != n, fun c => c.thread != n⟩

/-- Thread number `n` of `natPlatform`, running `0` with attributes `0`. -/
def natThread (n : Nat) : PolyfillThread natCpf :=
  ⟨n, (0 : Nat), (0 : Nat), ⟨(0 : Nat), (0 : Nat), (0 : Nat), (0 : Nat)⟩, true⟩

/-- The group after `create_threads(0, 2)` on `natPlatform`: `first_` is 2, whose item links
to the one at 1. -/
def twoThreads : ThreadGroup natCpf :=
  ⟨2, ⟨[none, some ⟨natThread 0, 0⟩, some ⟨natThread 1, 1⟩], Nat.succ_pos _⟩,
    ⟨2, [.spawn 0 (0 : Nat) (0 : Nat), .spawn 1 (0 : Nat) (0 : Nat)]⟩⟩

theorem reachable_twoThreads : Reachable twoThreads :=
  Reachable.returned .init
    (show step natPlatform .init (.createThreads (0 : Nat) none 2) = .returned twoThreads from rfl)

theorem chain_twoThreads : Chain twoThreads.store twoThreads.first [2, 1] [natThread 1, natThread 0] :=
  Chain.cons_iff.mpr ⟨rfl, ⟨natThread 1, 1⟩, rfl, rfl,
    Chain.cons_iff.mpr ⟨rfl, ⟨natThread 0, 0⟩, rfl, rfl, .null⟩⟩

/-- `twoThreads` after a `join()` on `failingAt 0`: thread 1 was joined and its item at 2
deleted, then joining thread 0 threw, leaving `first_` at its item. -/
def twoThreadsJoinFailed : ThreadGroup natCpf :=
  ⟨1, ⟨[none, some ⟨natThread 0, 0⟩, none], Nat.succ_pos _⟩,
    ⟨2, twoThreads.os.calls ++ [.join 1, .delete 1]⟩⟩

theorem reachable_twoThreadsJoinFailed : Reachable twoThreadsJoinFailed :=
  Reachable.threw reachable_twoThreads
    (show step (failingAt 0) twoThreads .join = .threw twoThreadsJoinFailed from rfl)

theorem chain_twoThreadsJoinFailed :
    Chain twoThreadsJoinFailed.store twoThreadsJoinFailed.first [1] [natThread 0] :=
  Chain.cons_iff.mpr ⟨rfl, ⟨natThread 0, 0⟩, rfl, rfl, .null⟩

end Asio.Detail
