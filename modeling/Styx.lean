import Styx.Shm.Escalation
import Styx.Shm.Park
import Styx.Shm.Hostile
import Styx.Shm.Consumer
import Styx.Shm.Bounds
import Styx.Rpc.Budget
import Styx.Control.Descriptors
import Styx.Stream.Opening
import Styx.Stream.Arming
import Styx.Stream.Window
import Styx.Stream.Exact
import Styx.Stream.TrainFailure
import Styx.Rpc.Burst
import Styx.Rpc.Retire
import Styx.Serve.Fence
import Styx.Reload.Wedge
import Styx.Reload.Request
import Styx.Observe.Dispatcher
import Styx.Observe.Health
import Styx.Reload.Restart
import Styx.Shm.Strict
import Styx.Reload.Safety
