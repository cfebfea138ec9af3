import MarkitNode.BleCredentials
import MarkitNode.BlinkIdentity
import MarkitNode.BlinkReading
import MarkitNode.BlinkRefusal
import MarkitNode.BlinkSync
import MarkitNode.BlinkTimer
import MarkitNode.Bno08xTasks
import MarkitNode.Bno08xToggle
import MarkitNode.BufferDelay
import MarkitNode.ButtonActions
import MarkitNode.ButtonPresses
import MarkitNode.ConfigBounds
import MarkitNode.CrcBurst
import MarkitNode.CredentialUpdates
import MarkitNode.DebugSocket
import MarkitNode.DebugToggle
import MarkitNode.DecodeReads
import MarkitNode.DiscoveredHost
import MarkitNode.DiscoveryReply
import MarkitNode.EllipPivot
import MarkitNode.FindVar
import MarkitNode.FrsRead
import MarkitNode.HammingFill
import MarkitNode.HintInterrupt
import MarkitNode.ImuSolFrames
import MarkitNode.LedAgreement
import MarkitNode.LinkSupervision
import MarkitNode.LinkTeardown
import MarkitNode.ModeAgreement
import MarkitNode.NvsGet
import MarkitNode.NvsStrings
import MarkitNode.OtaUrl
import MarkitNode.ParamBuffers
import MarkitNode.ParseBounds
import MarkitNode.PeripheralBoot
import MarkitNode.PowerCycle
import MarkitNode.RadioSettings
import MarkitNode.ReconnectWakeups
import MarkitNode.Resync
import MarkitNode.RingBufPeek
import MarkitNode.SampleHandshake
import MarkitNode.SelfTest
import MarkitNode.SendAll
import MarkitNode.SessionBoundary
import MarkitNode.SessionDelivery
import MarkitNode.SessionOrder
import MarkitNode.ShtpAnswers
import MarkitNode.ShtpNumbers
import MarkitNode.ShtpReadBack
import MarkitNode.ShtpStale
import MarkitNode.SleepLate
import MarkitNode.SleepReasons
import MarkitNode.Spatial
import MarkitNode.TelemetryDelivery
import MarkitNode.TransitionCtx
import MarkitNode.UdpSocket
import MarkitNode.UrlEncoding
import MarkitNode.UrlLookup
import MarkitNode.VariableApi
import MarkitNode.VariableTarget
import MarkitNode.WifiRetry
