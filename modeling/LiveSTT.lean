import LiveSTT.Lib.TransitionSystem
import LiveSTT.Lib.Json
import LiveSTT.Lib.Deque
import LiveSTT.Lib.SlidingWindow
import LiveSTT.Lib.FileTree
import LiveSTT.Lib.Text
import LiveSTT.Lib.Calendar
import LiveSTT.Lib.FirstMin
import LiveSTT.Lib.Windows
import LiveSTT.Lib.Subjects
import LiveSTT.Lib.FileEffects
import LiveSTT.Lib.Quoted
import LiveSTT.Lib.ComesFirst
import LiveSTT.Lib.FixedWidth
import LiveSTT.Lib.Moments
import LiveSTT.Lib.Pieces
import LiveSTT.Lib.Calls
import LiveSTT.Lib.Markup
import LiveSTT.Messaging.Broker
import LiveSTT.IdentityManager.Model
import LiveSTT.IdentityManager.Conservation
import LiveSTT.IdentityManager.PublishBeforeAck
import LiveSTT.IdentityManager.Pools
import LiveSTT.IdentityManager.Capacity
import LiveSTT.IdentityManager.Order
import LiveSTT.IdentityManager.Closest
import LiveSTT.Composition.SpeakerLanes
import LiveSTT.Gateway.Auth
import LiveSTT.Gateway.LoginAfterSetup
import LiveSTT.Gateway.RateLimit
import LiveSTT.Gateway.SetupOnce
import LiveSTT.Gateway.Backup
import LiveSTT.Gateway.Confinement
import LiveSTT.Gateway.PullLoop
import LiveSTT.Gateway.Viewers
import LiveSTT.Gateway.LogFeed
import LiveSTT.Gateway.SessionStore
import LiveSTT.Gateway.ForeignKey
import LiveSTT.Gateway.LifecycleEvents
import LiveSTT.Gateway.Retention
import LiveSTT.Gateway.StoredTimes
import LiveSTT.Gateway.Orphans
import LiveSTT.Gateway.Connections
import LiveSTT.Identifier.Windows
import LiveSTT.Identifier.Voiceprints
import LiveSTT.SttProvider.SessionLoop
import LiveSTT.AudioProducer.Model
import LiveSTT.SttProvider.AckAfterSend
import LiveSTT.SttProvider.CatchUp
import LiveSTT.SttProvider.Drain
import LiveSTT.SttProvider.Batch
import LiveSTT.SttProvider.ConsumerLag
import LiveSTT.AudioProducer.StopOnce
import LiveSTT.AudioProducer.Backfill
import LiveSTT.AudioProducer.BackfillEnd
import LiveSTT.AudioProducer.Entry
import LiveSTT.AudioProducer.Finality
import LiveSTT.AudioProducer.LiveEnd
import LiveSTT.AudioProducer.SilenceWindow
import LiveSTT.AudioProducer.Switch
import LiveSTT.AudioProducer.OneOwner
import LiveSTT.AudioProducer.Audiosource
import LiveSTT.AudioProducer.Restart
import LiveSTT.AudioProducer.ControlLoop
import LiveSTT.Composition.RenameRace
import LiveSTT.Composition.SessionCopies
import LiveSTT.Composition.Filing
import LiveSTT.Gateway.Schedules
import LiveSTT.SystemManager.Model
import LiveSTT.SystemManager.OncePerDay
import LiveSTT.SystemManager.Delivery
import LiveSTT.SystemManager.Containers
import LiveSTT.SystemManager.ServiceControl
import LiveSTT.Composition.StopInTime
import LiveSTT.Composition.StopPolicy
import LiveSTT.Composition.Executable
import LiveSTT.Composition.StartParameters
import LiveSTT.Composition.SessionBar
import LiveSTT.Messaging.Streams
import LiveSTT.Composition.Capture
import LiveSTT.Messaging.Service
import LiveSTT.Messaging.Heartbeats
import LiveSTT.Messaging.LooksAlive
import LiveSTT.Composition.Startup
import LiveSTT.Lib.ExpiringStore
import LiveSTT.Messaging.Health
import LiveSTT.Composition.CommandStream
import LiveSTT.Gateway.AdminTokens
import LiveSTT.Lib.JsonText
import LiveSTT.Gateway.LogExport
import LiveSTT.Composition.ScheduleTable
import LiveSTT.IdentityManager.Payloads
import LiveSTT.Composition.SpeakerNames
import LiveSTT.Gateway.ViewerLimit
import LiveSTT.SystemManager.Host
import LiveSTT.Composition.ServiceOrders
import LiveSTT.Composition.VoiceNames
import LiveSTT.SttProvider.Deepgram
import LiveSTT.Composition.SttStatus
import LiveSTT.Composition.Kiosk
import LiveSTT.Composition.OneGateway
