import OpenSwitch.Run
import OpenSwitch.Basic
import OpenSwitch.IdempotencyCache
import OpenSwitch.SingleExecutor
import OpenSwitch.Recency
import OpenSwitch.CacheMap
import OpenSwitch.RunIdempotent
import OpenSwitch.LateRelease
import OpenSwitch.Ring
import OpenSwitch.Routing
import OpenSwitch.Subscriber
import OpenSwitch.Subscribe
import OpenSwitch.Plane
import OpenSwitch.PlaneSteps
import OpenSwitch.Registration
import OpenSwitch.GapFree
import OpenSwitch.SeqOrder
import OpenSwitch.Handover
import OpenSwitch.ReplayWindow
import OpenSwitch.FreeSwitch
import OpenSwitch.VarDenylist
import OpenSwitch.ChannelHandlers
import OpenSwitch.Originate
import OpenSwitch.Bridge
import OpenSwitch.SameResponse
import OpenSwitch.Rejection
import OpenSwitch.EavesdropPolicy
import OpenSwitch.ReservedVars
import OpenSwitch.Eavesdrop
import OpenSwitch.BugManager
import OpenSwitch.BugRegistry
import OpenSwitch.AttachSteps
import OpenSwitch.MediaStreams
import OpenSwitch.FailedStart
import OpenSwitch.OneInjector
import OpenSwitch.Bots
import OpenSwitch.Lifetime
import OpenSwitch.Scene
import OpenSwitch.CallbackContexts
import OpenSwitch.ChannelDestroy
import OpenSwitch.BotSteps
import OpenSwitch.DestroyedTargets
import OpenSwitch.StartBotFailure
import OpenSwitch.BotAlone
import OpenSwitch.RegistryAlone
import OpenSwitch.AudioFrame
import OpenSwitch.DropRing
import OpenSwitch.StereoPairer
import OpenSwitch.StreamClient
import OpenSwitch.Turns
import OpenSwitch.BotUpstream
import OpenSwitch.RecordingRelay
import OpenSwitch.BotPlayout
import OpenSwitch.Envelope
import OpenSwitch.ShutdownAccounts
import OpenSwitch.ShutdownRoster
import OpenSwitch.WriterDrain
import OpenSwitch.DrainWait
import OpenSwitch.RingRuns
import OpenSwitch.FailClosed
import OpenSwitch.Kicks
import OpenSwitch.TtsPlayout
import OpenSwitch.TtsRuns
import OpenSwitch.Config
import OpenSwitch.ServerCreds
import OpenSwitch.ModuleLoad
import OpenSwitch.HealthCounters
import OpenSwitch.Exposition
import OpenSwitch.Prometheus
import OpenSwitch.Slots
import OpenSwitch.RpcMetrics
import OpenSwitch.MetricsPage
import OpenSwitch.PairerTiming
import OpenSwitch.SendRing
import OpenSwitch.StreamAccounts
import OpenSwitch.ProtoFrame
import OpenSwitch.BugFanout
import OpenSwitch.TtsDepth
import OpenSwitch.TtsPreroll
import OpenSwitch.WriteReplace
import OpenSwitch.BridgeLocks
import OpenSwitch.ChannelLocks
import OpenSwitch.SilenceDriver
import OpenSwitch.BugObjects
import OpenSwitch.TenantPolicies
import OpenSwitch.BotIndex
import OpenSwitch.BotAttach
import OpenSwitch.Regex
import OpenSwitch.Redaction
import OpenSwitch.Numeral
import OpenSwitch.EventId
import OpenSwitch.BuildEnvelope
import OpenSwitch.Progress
import OpenSwitch.Scrape
import OpenSwitch.Provenance
import OpenSwitch.TierRules
import OpenSwitch.BinderLife
import OpenSwitch.EventFlow
import OpenSwitch.RpcStream
import OpenSwitch.StreamCall
import OpenSwitch.StreamRules
import OpenSwitch.StreamClose
