import UsbTrace.Analysis.DeviceTable
import UsbTrace.Analysis.Isolation
import UsbTrace.Analysis.Deadline
import UsbTrace.Analysis.Stall
import UsbTrace.Analysis.Cooldown
import UsbTrace.Analysis.Lookback
import UsbTrace.Analysis.DrainOrder
import UsbTrace.Analysis.Normalize
import UsbTrace.Analysis.RuleRoundTrip
import UsbTrace.Analysis.IndexBounds
import UsbTrace.Analysis.Filter
import UsbTrace.Analysis.Evaluation
import UsbTrace.Analysis.FindingLines
import UsbTrace.Analysis.FrameAssembly
import UsbTrace.Analysis.Attribution
import UsbTrace.Analysis.SequenceGap
import UsbTrace.Analysis.Latency
import UsbTrace.Analysis.Pairing
import UsbTrace.Analysis.Matching
import UsbTrace.Analysis.Rearm
import UsbTrace.Analysis.Intervals
import UsbTrace.Analysis.FrameClocks
import UsbTrace.Analysis.StreamPlaces
import UsbTrace.Analysis.DropCause
import UsbTrace.Analysis.JsonEscape
import UsbTrace.Analysis.Expansion
import UsbTrace.Analysis.MalformedRules
import UsbTrace.Analysis.DescriptorStatus
import UsbTrace.Analysis.SetupNames
import UsbTrace.Analysis.PortDevice
import UsbTrace.Analysis.IdOptions
import UsbTrace.Interface.RateSlots
import UsbTrace.Analysis.RateTotals
import UsbTrace.Analysis.RateWindows
import UsbTrace.Analysis.RateReuse
import UsbTrace.Model.Autoload
import UsbTrace.Interface.Probing
import UsbTrace.Analysis.Degradation
import UsbTrace.Analysis.Delivery
import UsbTrace.Analysis.Resources
import UsbTrace.Analysis.EventLines
import UsbTrace.Analysis.Findings
import UsbTrace.Analysis.Vendors
import UsbTrace.Interface.ModuleSession
import UsbTrace.Library.FloatRound
import UsbTrace.Library.Samples
import UsbTrace.Interface.Doubles
import UsbTrace.Model.UvcReport
import UsbTrace.Analysis.ClassSessions
import UsbTrace.Interface.UvcTotals
import UsbTrace.Analysis.UvcSessions
import UsbTrace.Library.StructBytes
import UsbTrace.Model.RecordBytes
import UsbTrace.Interface.RecordBytes
import UsbTrace.Analysis.UvcSummaries
import UsbTrace.Analysis.RecordBytes
import UsbTrace.Model.HidReport
import UsbTrace.Analysis.HidSessions
import UsbTrace.Interface.RateRun
import UsbTrace.Analysis.HidRates
import UsbTrace.Analysis.HidRoles
import UsbTrace.Model.ModuleRun
import UsbTrace.Analysis.ModuleRun
