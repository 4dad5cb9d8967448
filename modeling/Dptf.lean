import Dptf.Active.CoolingControl
import Dptf.Arb.EnableState
import Dptf.Arb.EntryApplied
import Dptf.Arb.LifeCycle
import Dptf.Arb.ReadAfterWrite
import Dptf.Arb.RemoveApp
import Dptf.Common.Base64RoundTrip
import Dptf.Common.ShaDigest
import Dptf.Common.Strmatch
import Dptf.Critical.Runs
import Dptf.EsifLib.Replace
import Dptf.Ipc.AppCodec
import Dptf.Ipc.IBinaryRun
import Dptf.Ipc.InBounds
import Dptf.Ipc.Stubs
import Dptf.Ipc.Transparent
import Dptf.Ipc.Waiters
import Dptf.Mgr.AppliedLimits
import Dptf.Mgr.CapsWindows
import Dptf.Mgr.ClearedPolicy
import Dptf.Mgr.Retry
import Dptf.Mgr.TemperatureTrips
import Dptf.Mgr.TripWrites
import Dptf.Participant.FanArbitration
import Dptf.Participant.PerformanceLimits
import Dptf.Participant.PlatformPower
import Dptf.Participant.PowerControlState
import Dptf.Passive.Callbacks
import Dptf.Passive.Choice
import Dptf.Passive.Committed
import Dptf.Passive.Notification
import Dptf.Passive.Progress
import Dptf.Tables.Ppcc
import Dptf.Tables.Trt
import Dptf.Uf.DataRoundTrip
import Dptf.Uf.Delivery
import Dptf.Uf.EventCache
import Dptf.Uf.EventIterator
import Dptf.Uf.HandleReuse
import Dptf.Uf.LateCallbacks
import Dptf.Uf.ShellLine
import Dptf.Uf.SocEvents
import Dptf.Uf.SyncRelease
import Dptf.Uf.TableBounds
import Dptf.Uf.Xform
import Dptf.Vault.CacheRuns
import Dptf.Vault.FindKeys
import Dptf.Vault.Memory
import Dptf.Vault.Readonly
import Dptf.Vault.RepoEnds
import Dptf.Vault.Store
import Dptf.Wq.Shutdown
import Dptf.Wq.TimeOrder
import Dptf.Wq.Waiting
import Dptf.Ws.ClientIdle
import Dptf.Ws.ClientServed
import Dptf.Ws.ClientWrite
import Dptf.Ws.Fragmented
import Dptf.Ws.HttpPieces
import Dptf.Ws.Requests
import Dptf.Ws.RestFilter
import Dptf.Ws.RestFragments
