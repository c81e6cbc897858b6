import VisionLab.Core.Types
import VisionLab.Lib.Ledger
import VisionLab.Core.BoundedQueue
import VisionLab.Core.QueueHistory
import VisionLab.Lib.ThreadCount
import VisionLab.Core.QueueThreads
import VisionLab.Core.LatencyWindow
import VisionLab.Lib.Greedy
import VisionLab.Lib.Positions
import VisionLab.Lib.Ages
import VisionLab.Tracking.IouMatching
import VisionLab.Tracking.StableMatching
import VisionLab.Tracking.IouOverflow
import VisionLab.Tracking.ByteTrackTracker
import VisionLab.Tracking.Lifecycle
import VisionLab.Tracking.Rounds
import VisionLab.Tracking.Association
import VisionLab.Tracking.ClassIsolation
import VisionLab.Tracking.TrackHistory
import VisionLab.Tracking.TrackBounds
import VisionLab.Tracking.KalmanBoxFilter
import VisionLab.Tracking.TrackedBoxes
import VisionLab.Lib.Machine
import VisionLab.Lib.Progress
import VisionLab.Lib.Mealy
import VisionLab.Lib.Keyed
import VisionLab.Lib.Slots
import VisionLab.Lib.Stretch
import VisionLab.Lib.Segments
import VisionLab.Lib.Word
import VisionLab.Lib.Checked
import VisionLab.Lib.Paging
import VisionLab.Lib.Samples
import VisionLab.Lib.Overlap
import VisionLab.Lib.Texts
import VisionLab.Lib.CrashLogic
import VisionLab.Lib.Files
import VisionLab.Lib.Kalman
import VisionLab.Lib.Numerals
import VisionLab.Lib.Owned
import VisionLab.Core.Path
import VisionLab.Inference.InferenceTypes
import VisionLab.Inference.EngineCache
import VisionLab.Inference.InferenceEnv
import VisionLab.Detectors.YoloDecoding
import VisionLab.Inference.Tensors
import VisionLab.Inference.CudaDeviceBuffer
import VisionLab.Inference.BufferValues
import VisionLab.Inference.EngineFiles
import VisionLab.Inference.TensorRTEngine
import VisionLab.Inference.EngineOrigin
import VisionLab.Inference.EngineRestarts
import VisionLab.Inference.OnnxRuntimeEngine
import VisionLab.Inference.EngineFactory
import VisionLab.Inference.EngineContract
import VisionLab.Detectors.YoloSafety
import VisionLab.Detectors.SsdDecoding
import VisionLab.Analytics.RuleGeometry
import VisionLab.Analytics.SegmentGeometry
import VisionLab.Analytics.RuleEngine
import VisionLab.Analytics.LineCrossingRule
import VisionLab.Analytics.CrossingBalance
import VisionLab.Analytics.CountingRule
import VisionLab.Analytics.CountBalance
import VisionLab.Analytics.Hysteresis
import VisionLab.Analytics.RegionRules
import VisionLab.Analytics.RuleSpec
import VisionLab.Analytics.RuleFactory
import VisionLab.Analytics.TrackView
import VisionLab.Analytics.TrackIsolation
import VisionLab.Analytics.RegionHistory
import VisionLab.Analytics.CrossingSymmetry
import VisionLab.Analytics.RuleInjection
import VisionLab.Analytics.RuleBounds
import VisionLab.Analytics.EngineIsolation
import VisionLab.Models.RuleModel
import VisionLab.Models.EventModel
import VisionLab.Pipeline.EventLog
import VisionLab.Pipeline.InferenceWorker
import VisionLab.Pipeline.VisionPipeline
import VisionLab.Pipeline.SessionBounds
import VisionLab.Pipeline.Fakes
import VisionLab.Video.CameraSource
import VisionLab.Pipeline.FrameAccounting
import VisionLab.Pipeline.TrackerFeed
import VisionLab.Pipeline.Stages
import VisionLab.Pipeline.StatsProbe
import VisionLab.Pipeline.StopEnds
import VisionLab.Pipeline.Restart
import VisionLab.Utilities.CameraManager
import VisionLab.Plugin.PluginScan
import VisionLab.Plugin.ScanHistory
import VisionLab.Plugin.YoloVisionPlugin
import VisionLab.Utilities.AppliedRules
import VisionLab.Utilities.Rig
import VisionLab.Utilities.SettingsRollback
import VisionLab.Utilities.SettingsInForce
import VisionLab.Utilities.Screen
import VisionLab.Utilities.RigBounds
import VisionLab.Utilities.DeviceUse
import VisionLab.Storage.EventDelivery
import VisionLab.Storage.StopDelivery
import VisionLab.Storage.EventWriter
import VisionLab.Storage.WriterHistory
import VisionLab.Storage.ReadYourWrites
import VisionLab.Storage.QueryAnswers
import VisionLab.Storage.WriterProgress
import VisionLab.Storage.SqliteEventRepository
import VisionLab.Storage.BoundedLog
import VisionLab.Storage.FaithfulLog
import VisionLab.Rendering.Letterbox
import VisionLab.Rendering.LetterboxMapping
import VisionLab.Models.PerformanceModel
import VisionLab.Controllers.VisionController
import VisionLab.Controllers.Drawing
import VisionLab.Controllers.SessionRules
import VisionLab.Controllers.StartupHistory
import VisionLab.Controllers.EventWindow
import VisionLab.Controllers.ShownOnce
