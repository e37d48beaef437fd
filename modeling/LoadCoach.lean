import LoadCoach.Configuration.Editing
import LoadCoach.Configuration.FlagLock
import LoadCoach.Configuration.Tolerance
import LoadCoach.Content.SchemaMeaning
import LoadCoach.Content.Scrubbing
import LoadCoach.Content.Streaming
import LoadCoach.Fetch.Credential
import LoadCoach.HalfOpen
import LoadCoach.JobEvents
import LoadCoach.QueueStream
import LoadCoach.RateLimit.Lock
import LoadCoach.Registry.Adapters
import LoadCoach.Registry.Exactness
import LoadCoach.Registry.Operator
import LoadCoach.Registry.Pulls
import LoadCoach.Registry.Repeats
import LoadCoach.Reliability.Ledger
import LoadCoach.Reliability.Regression
import LoadCoach.Reliability.Staleness
import LoadCoach.Replay
import LoadCoach.Residency.Evicting
import LoadCoach.Residency.InUse
import LoadCoach.Residency.Room
import LoadCoach.Routing.AdapterGate
import LoadCoach.Routing.CallBudget
import LoadCoach.Routing.DeviceFit
import LoadCoach.Routing.EvidenceSignals
import LoadCoach.Routing.Explained
import LoadCoach.Routing.ProfileLayers
import LoadCoach.Routing.Reservations
import LoadCoach.Routing.TaskFit
import LoadCoach.Routing.TaskProfiles
import LoadCoach.Serving.Loop
import LoadCoach.Serving.Permanent
import LoadCoach.Serving.Settled
import LoadCoach.Store.Ageing
import LoadCoach.Store.Caps
import LoadCoach.Store.Listing
import LoadCoach.Store.MaxWait
import LoadCoach.Store.Terminal
import LoadCoach.Web.Authentication
import LoadCoach.Web.BodySize
import LoadCoach.Worker.LargerContext
import LoadCoach.Worker.Leases
import LoadCoach.Worker.Selected
import LoadCoach.Worker.Termination
import LoadCoach.Worker.Tokens
import LoadCoach.Worker.Wakeup
