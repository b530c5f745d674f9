import Dui.SemanticsMirror
import Dui.HostPointer
import Dui.WaylandPointer
import Dui.FrameDemand
import Dui.TextAgreement
import Dui.AccessibilityAgreement
import Dui.FlushFreshness
import Dui.DirtyQueue
import Dui.TimelineReads
import Dui.SurfaceProtocol
import Dui.FrameDelivery
import Dui.CursorConvergence
import Dui.ClipboardCompletion
import Dui.RasterFrames
import Dui.RestorationRoundTrip
import Dui.ElementRegistry
import Dui.FixedExtentRanges
import Dui.SubscriptionRuns
import Dui.BuildRetry
import Dui.BridgeTransactions
import Dui.Win32Delivery
import Dui.LayoutCurrent
import Dui.RenderRuns
import Dui.Utf8
import Dui.FocusForest
import Dui.ArenaVerdicts
import Dui.CommitValidity
import Dui.LayerFlattening
import Dui.KeyedReconciliation
import Dui.TapRouting
import Dui.LayoutAgreement
import Dui.Animation
import Dui.WaylandFrameClock
import Dui.SurfaceTransaction
import Dui.JsonTextReads
import Dui.ChromeTraceExact
import Dui.WaylandKeyStreams
import Dui.Win32TextValid
import Dui.Win32Commits
import Dui.RepaintAgreement
