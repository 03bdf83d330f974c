import AsioThreadGroup.PolyfillThread
import AsioThreadGroup.FreeStore
import AsioThreadGroup.ThreadGroup
import AsioThreadGroup.Pool
import AsioThreadGroup.Refinement
import AsioThreadGroup.Create
import AsioThreadGroup.Join
import AsioThreadGroup.Runs
import AsioThreadGroup.Tunables
import AsioThreadGroup.Invariants
import AsioThreadGroup.Lifecycle
import AsioThreadGroup.Abstraction
import AsioThreadGroup.YieldContext
