import Corsair.Verified.Circular
import Corsair.Verified.BigEndian
import Corsair.Verified.LengthPrefixed
import Corsair.Verified.Runs
import Corsair.Verified.Table
import Corsair.Verified.AverageCost
import Corsair.Verified.ListIndex
import Corsair.Verified.Filing
import Corsair.Verified.F64
import Corsair.Verified.Extended
import Corsair.Verified.MsgPack
import Corsair.Verified.Tagged
import Corsair.Ports.Protocol
import Corsair.Ports.Ring
import Corsair.Ports.RingInterleaving
import Corsair.Ports.CommandPump
import Corsair.Ports.RingRestart
import Corsair.Ports.Kill
import Corsair.Ports.Portfolio
import Corsair.Ports.Hedge
import Corsair.Ports.RiskMonitor
import Corsair.Ports.KillRuntime
import Corsair.Ports.TraderState
import Corsair.Ports.DecideOnTick
import Corsair.Ports.Trader
import Corsair.Ports.TraderHalt
import Corsair.Ports.KillAgreement
import Corsair.Ports.Commands
import Corsair.Ports.BrokerApi
import Corsair.Ports.NativeDecoder
import Corsair.Ports.NativeBroker
import Corsair.Ports.RestingSweep
import Corsair.Ports.NativeOrders
import Corsair.Ports.BrokerHalt
import Corsair.Ports.OrderTracking
import Corsair.Ports.OrderTrackingRuns
import Corsair.Ports.AmendOrder
import Corsair.Ports.AckRouting
import Corsair.Ports.PositionBook
import Corsair.Ports.HedgeManager
import Corsair.Ports.HedgeReconcile
import Corsair.Ports.HedgePlacement
import Corsair.Ports.OptionsReconcile
import Corsair.Ports.Fills
import Corsair.Ports.PositionAgreement
import Corsair.Ports.DailyPnl
import Corsair.Ports.HedgePnl
import Corsair.Ports.PositionIndex
import Corsair.Ports.OptionsPnl
import Corsair.Ports.ReconcileCount
import Corsair.Ports.InstrumentRouting
import Corsair.Ports.OrderLife
import Corsair.Ports.StaleCommands
import Corsair.Ports.RiskState
import Corsair.Ports.Freshness
import Corsair.Verified.Tickets
import Corsair.Ports.OrderIds
import Corsair.Verified.LastWrite
import Corsair.Ports.AccountSnapshot
import Corsair.Ports.QuoteBook
import Corsair.Ports.TickRouting
import Corsair.Ports.L1Fold
import Corsair.Ports.TickFastPath
import Corsair.Ports.VolFit
import Corsair.Verified.Terminated
import Corsair.Ports.OrderCodec
import Corsair.Ports.AmendFidelity
import Corsair.Ports.DepthRotation
import Corsair.Ports.FailSafeGates
import Corsair.Ports.SelfCross
import Corsair.Ports.TimeToExpiry
import Corsair.Ports.BurstLimiter
import Corsair.Ports.OrderMaps
import Corsair.Ports.FailedCalls
import Corsair.Ports.WireTiming
import Corsair.Ports.StrictAmend
import Corsair.Ports.EdgeLaw
import Corsair.Ports.UnackGate
import Corsair.Ports.RiskGates
import Corsair.Ports.NativeFrames
import Corsair.Ports.FrameStreams
import Corsair.Ports.HotLoop
import Corsair.Ports.RecvLoop
import Corsair.Ports.MsgpackDecode
import Corsair.Ports.TickAcceptance
import Corsair.Ports.TickCodec
import Corsair.Ports.StalenessAmends
import Corsair.Verified.Memo
import Corsair.Ports.TheoCache
import Corsair.Ports.ConstraintChecker
import Corsair.Ports.ObserveMode
import Corsair.Ports.DepthBook
import Corsair.Verified.Recent
import Corsair.Ports.ExecDedupe
import Corsair.Verified.RoundRobin
import Corsair.Ports.DepthTarget
import Corsair.Ports.Span
import Corsair.Ports.StrikeWindow
import Corsair.Verified.Checked
import Corsair.Ports.MsgpackSafety
import Corsair.Ports.WindowRecenter
import Corsair.Verified.ByteCut
import Corsair.Ports.ExpiryGrammar
import Corsair.Verified.RealNumbers
import Corsair.Verified.StdNormal
import Corsair.Verified.Lognormal
import Corsair.Ports.Black76
import Corsair.Verified.Bracketing
import Corsair.Ports.ImpliedVol
import Corsair.Verified.Elimination
import Corsair.Ports.LeastSquares
import Corsair.Verified.Gather
import Corsair.Verified.GatherRuns
import Corsair.Ports.Calibrate
import Corsair.Verified.GatherRows
import Corsair.Ports.RequestReplies
import Corsair.Ports.ExecutionRows
import Corsair.Ports.BookGreeks
import Corsair.Ports.VolSurface
import Corsair.Verified.BufferedWriter
import Corsair.Ports.JsonlWriter
