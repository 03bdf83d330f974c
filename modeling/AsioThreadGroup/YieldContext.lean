import Mathlib.Logic.Basic

/-! `basic_yield_context` and `spawn_signature` of `spawn.hpp`. A yield context names the
coroutine a function runs in (`spawned_thread_`, a pointer to its record), the executor it
resumes on, and the `error_code` an operation's error is written to instead of being thrown
(`ec_`, null by default). The coroutine machinery that reads them, `impl/spawn.hpp`, is not
part of these sources. Pointers are addresses, `0` being null. -/
namespace Asio

variable {Executor Other : Type}

/-- `basic_yield_context<Executor>`. -/
structure BasicYieldContext (Executor : Type) where
  spawnedThread : Nat
  executor : Executor
  ec : Nat

namespace BasicYieldContext

/-- `basic_yield_context(spawned_thread, ex)`: `ec_(0)`. -/
def create (spawnedThread : Nat) (ex : Executor) : BasicYieldContext Executor :=
  ⟨spawnedThread, ex, 0⟩

/-- The converting constructor from a `basic_yield_context<OtherExecutor>`, with `conv` the
conversion `is_convertible<OtherExecutor, Executor>` asks for. -/
def convert (conv : Other → Executor) (other : BasicYieldContext Other) :
    BasicYieldContext Executor :=
  ⟨other.spawnedThread, conv other.executor, other.ec⟩

/-- `get_executor()`. -/
def getExecutor (y : BasicYieldContext Executor) : Executor := y.executor

/-- `operator[](ec)`: `basic_yield_context tmp(*this); tmp.ec_ = &ec; return tmp;`, with `ec`
the address of the caller's `error_code`. -/
def index (y : BasicYieldContext Executor) (ec : Nat) : BasicYieldContext Executor :=
  { y with ec := ec }

@[simp] theorem create_ec (s : Nat) (ex : Executor) : (create s ex).ec = 0 := rfl

@[simp] theorem spawnedThread_index (y : BasicYieldContext Executor) (ec : Nat) :
    (y.index ec).spawnedThread = y.spawnedThread := rfl

@[simp] theorem getExecutor_index (y : BasicYieldContext Executor) (ec : Nat) :
    (y.index ec).getExecutor = y.getExecutor := rfl

@[simp] theorem index_ec (y : BasicYieldContext Executor) (ec : Nat) : (y.index ec).ec = ec := rfl

/-- A second `operator[]` replaces the first one's `error_code`. -/
@[simp] theorem index_index (y : BasicYieldContext Executor) (ec ec' : Nat) :
    (y.index ec).index ec' = y.index ec' := rfl

/-- Converting a context and binding an `error_code` may come in either order. -/
theorem convert_index (conv : Other → Executor) (y : BasicYieldContext Other) (ec : Nat) :
    convert conv (y.index ec) = (convert conv y).index ec := rfl

end BasicYieldContext

/-- `detail::spawn_signature<T>::type`, the parameters of the completion handler of a coroutine
whose function returns `T`: `(exception_ptr, T)`, or `(exception_ptr)` when it returns `void`
(`none`). -/
def spawnSignature (ExceptionPtr : Type) : Option Type → List Type
  | some T => [ExceptionPtr, T]
  | none => [ExceptionPtr]

end Asio
