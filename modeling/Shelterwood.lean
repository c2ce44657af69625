import Shelterwood.IdentityFencing
import Shelterwood.StopVerdict
import Shelterwood.ScopeProjection
import Shelterwood.DeadlineMap
import Shelterwood.TimerHistory
import Shelterwood.LadderProvenance
import Shelterwood.RestartAccounting
import Shelterwood.ResidencyPairs
import Shelterwood.LifecycleStream
import Shelterwood.Waiters
import Shelterwood.WakerProxy
import Shelterwood.Offload
import Shelterwood.MemberTerminality
import Shelterwood.MailboxDelivery
import Shelterwood.OneShotClose
import Shelterwood.TimeoutSoundness
import Shelterwood.DispatchRuns
import Shelterwood.Stragglers
import Shelterwood.Defaults
import Shelterwood.EventLanes
