import Mathlib.Logic.Basic

/-! The `polyfill_thread` wrapper of `detail/polyfill_thread.hpp` and the part of the
`cpf::thread` library it calls. That library is outside the repository, so its types are
parameters and its answers (whether a thread starts, whether a join returns) come from a
`Platform`; every call the group makes into it is recorded in `Os.calls`. -/
namespace Asio.Detail

/-- The types `cpf::thread` fixes for the group: the callable a thread runs, its attributes,
its four tunables, and `cpf::thread::attributes{}`. -/
structure Cpf where
  function : Type
  attributes : Type
  priority : Type
  nativePriority : Type
  affinity : Type
  dtorAction : Type
  defaultAttributes : attributes

variable {τ : Cpf} {α : Type}

/-- What the getters of a `cpf::thread` report. -/
structure Tunables (τ : Cpf) where
  priority : τ.priority
  nativePriority : τ.nativePriority
  affinity : τ.affinity
  dtorAction : τ.dtorAction

/-- A `polyfill_thread`, that is the `cpf::thread` it holds: the number the platform gave it
(threads are numbered in creation order), what it runs, its attributes and tunables, and
whether it is still joinable. -/
structure PolyfillThread (τ : Cpf) where
  id : Nat
  function : τ.function
  attributes : τ.attributes
  tunables : Tunables τ
  joinable : Bool

/-- The calls the group makes into the platform, each on the thread numbered `id`; `delete`
frees the item holding that thread. -/
inductive Call (τ : Cpf) where
  | spawn (id : Nat) (f : τ.function) (attr : τ.attributes)
  | join (id : Nat)
  | delete (id : Nat)
  | priority (id : Nat) (v : τ.priority)
  | nativePriority (id : Nat) (v : τ.nativePriority)
  | affinity (id : Nat) (v : τ.affinity)
  | dtorAction (id : Nat) (v : τ.dtorAction)

/-- The calls that end thread `t`: its join and the deletion of its item. -/
def Call.isEndOf (t : Nat) : Call τ → Bool
  | .join u => u == t
  | .delete u => u == t
  | _ => false

/-- The calls a setter makes. -/
def Call.isTune : Call τ → Bool
  | .priority .. | .nativePriority .. | .affinity .. | .dtorAction .. => true
  | _ => false

/-- The thread a call is about. -/
def Call.thread : Call τ → Nat
  | .spawn t _ _ | .join t | .delete t | .priority t _ | .nativePriority t _ | .affinity t _
  | .dtorAction t _ => t

/-- The thread a `spawn` call started, with its callable and attributes. -/
def Call.spawned : Call τ → Option (Nat × τ.function × τ.attributes)
  | .spawn t f attr => some (t, f, attr)
  | _ => none

/-- The join of thread `t`. -/
def Call.isJoinOf (t : Nat) : Call τ → Bool
  | .join u => u == t
  | _ => false

theorem Call.isEndOf_of_isTune {c : Call τ} (h : c.isTune = true) (t : Nat) : c.isEndOf t = false := by
  cases c <;> simp_all [Call.isTune, Call.isEndOf]

theorem Call.spawned_of_isTune {c : Call τ} (h : c.isTune = true) : c.spawned = none := by
  cases c <;> simp_all [Call.isTune, Call.spawned]

theorem Call.isEndOf_of_isJoinOf {c : Call τ} {t : Nat} (h : c.isJoinOf t = true) :
    c.isEndOf t = true := by
  cases c <;> simp_all [Call.isJoinOf, Call.isEndOf]

theorem Call.isJoinOf_of_isTune {c : Call τ} (h : c.isTune = true) (t : Nat) : c.isJoinOf t = false := by
  cases c <;> simp_all [Call.isTune, Call.isJoinOf]

/-- The platform's side of the state: the number of the next thread and the calls so far. -/
structure Os (τ : Cpf) where
  nextId : Nat
  calls : List (Call τ)

def Os.record (os : Os τ) (c : Call τ) : Os τ :=
  { os with calls := os.calls ++ [c] }

@[simp] theorem Os.record_nextId (os : Os τ) (c : Call τ) : (os.record c).nextId = os.nextId := rfl

@[simp] theorem Os.record_calls (os : Os τ) (c : Call τ) :
    (os.record c).calls = os.calls ++ [c] := rfl

/-- How the platform answers a call: `spawn id attr` gives the tunables thread `id` starts
with, or `none` when `cpf::thread`'s constructor throws; `join id` is `false` when joining
thread `id` throws; `tune c` is `false` when the setter call `c` throws, which leaves the
thread as it was. -/
structure Platform (τ : Cpf) where
  spawn : Nat → τ.attributes → Option (Tunables τ)
  join : Nat → Bool
  tune : Call τ → Bool

/-- A platform on which no thread construction, no join and no setter call throws. -/
def Platform.Reliable (p : Platform τ) : Prop :=
  (∀ t attr, (p.spawn t attr).isSome) ∧ (∀ t, p.join t = true) ∧ ∀ c, p.tune c = true

/-- `polyfill_thread(f, attributes)`: `thread_(attributes, f)` starts thread `os.nextId`
running `f`, or throws. -/
def PolyfillThread.create (p : Platform τ) (f : τ.function) (attr : τ.attributes) (os : Os τ) :
    Option (PolyfillThread τ × Os τ) :=
  (p.spawn os.nextId attr).map fun tu =>
    (⟨os.nextId, f, attr, tu, true⟩, ⟨os.nextId + 1, os.calls ++ [.spawn os.nextId f attr]⟩)

/-- `polyfill_thread::join`: `if (thread_.joinable()) thread_.join();`, where the platform's
join may throw (`none`). -/
def PolyfillThread.join (p : Platform τ) (t : PolyfillThread τ) (os : Os τ) :
    Option (PolyfillThread τ × Os τ) :=
  if t.joinable then
    if p.join t.id then some ({ t with joinable := false }, os.record (.join t.id)) else none
  else some (t, os)

/-- One tunable of `polyfill_thread`: what its getter reads, what its setter writes, and the
call into `cpf::thread` the setter makes, a setter call about the thread it is made on.
Reading back a written value gives that value. -/
structure Tunable (τ : Cpf) (α : Type) where
  get : Tunables τ → α
  set : α → Tunables τ → Tunables τ
  call : Nat → α → Call τ
  get_set : ∀ v tu, get (set v tu) = v
  isTune_call : ∀ t v, (call t v).isTune = true
  thread_call : ∀ t v, (call t v).thread = t

/-- `priority()` / `priority(value)`. -/
def Tunable.priority : Tunable τ τ.priority where
  get := Tunables.priority
  set v tu := { tu with priority := v }
  call := .priority
  get_set _ _ := rfl
  isTune_call _ _ := rfl
  thread_call _ _ := rfl

/-- `native_priority()` / `native_priority(value)`. -/
def Tunable.nativePriority : Tunable τ τ.nativePriority where
  get := Tunables.nativePriority
  set v tu := { tu with nativePriority := v }
  call := .nativePriority
  get_set _ _ := rfl
  isTune_call _ _ := rfl
  thread_call _ _ := rfl

/-- `affinity()` / `affinity(affinity)`. -/
def Tunable.affinity : Tunable τ τ.affinity where
  get := Tunables.affinity
  set v tu := { tu with affinity := v }
  call := .affinity
  get_set _ _ := rfl
  isTune_call _ _ := rfl
  thread_call _ _ := rfl

/-- `dtor_action()` / `dtor_action(action)`. -/
def Tunable.dtorAction : Tunable τ τ.dtorAction where
  get := Tunables.dtorAction
  set v tu := { tu with dtorAction := v }
  call := .dtorAction
  get_set _ _ := rfl
  isTune_call _ _ := rfl
  thread_call _ _ := rfl

/-- A setter of `polyfill_thread`, e.g. `priority(value)`: `thread_.priority(value)`. -/
def PolyfillThread.tune (k : Tunable τ α) (v : α) (t : PolyfillThread τ) : PolyfillThread τ :=
  { t with tunables := k.set v t.tunables }

@[simp] theorem PolyfillThread.tune_id (k : Tunable τ α) (v : α) (t : PolyfillThread τ) :
    (t.tune k v).id = t.id := rfl

@[simp] theorem PolyfillThread.tune_joinable (k : Tunable τ α) (v : α) (t : PolyfillThread τ) :
    (t.tune k v).joinable = t.joinable := rfl

@[simp] theorem PolyfillThread.tune_function (k : Tunable τ α) (v : α) (t : PolyfillThread τ) :
    (t.tune k v).function = t.function := rfl

@[simp] theorem PolyfillThread.tune_attributes (k : Tunable τ α) (v : α) (t : PolyfillThread τ) :
    (t.tune k v).attributes = t.attributes := rfl

@[simp] theorem PolyfillThread.get_tune (k : Tunable τ α) (v : α) (t : PolyfillThread τ) :
    k.get (t.tune k v).tunables = v := k.get_set v t.tunables

/-- The constructor either throws or starts the thread numbered `os.nextId`, joinable, and
records that one call. -/
theorem PolyfillThread.create_eq_some {p : Platform τ} {f : τ.function} {attr : τ.attributes}
    {os os' : Os τ} {t : PolyfillThread τ} (h : PolyfillThread.create p f attr os = some (t, os')) :
    ∃ tu, p.spawn os.nextId attr = some tu ∧ t = ⟨os.nextId, f, attr, tu, true⟩ ∧
      os' = ⟨os.nextId + 1, os.calls ++ [.spawn os.nextId f attr]⟩ := by
  simp only [PolyfillThread.create, Option.map_eq_some', Prod.mk.injEq] at h
  obtain ⟨tu, hs, rfl, rfl⟩ := h
  exact ⟨tu, hs, rfl, rfl⟩

theorem PolyfillThread.create_eq_none {p : Platform τ} {f : τ.function} {attr : τ.attributes}
    {os : Os τ} : PolyfillThread.create p f attr os = none ↔ p.spawn os.nextId attr = none := by
  simp [PolyfillThread.create]

/-- Joining a joinable thread records its join exactly when the platform's join returns. -/
theorem PolyfillThread.join_of_joinable {p : Platform τ} {t : PolyfillThread τ} (os : Os τ)
    (h : t.joinable = true) :
    t.join p os = if p.join t.id then some ({ t with joinable := false }, os.record (.join t.id))
      else none := by
  simp [PolyfillThread.join, h]

end Asio.Detail
