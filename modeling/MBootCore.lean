import MBootCore.Cli.Arguments
import MBootCore.Config.ConfigManager
import MBootCore.Config.ImportTotal
import MBootCore.Config.RoundTrip
import MBootCore.Domain.Error
import MBootCore.Domain.Interruption
import MBootCore.Domain.SafeParser
import MBootCore.Domain.Transport
import MBootCore.Domain.Types
import MBootCore.Dsp.AllOrNothing
import MBootCore.Dsp.Builder
import MBootCore.Dsp.BuiltTree
import MBootCore.Dsp.Cache
import MBootCore.Dsp.CacheCodec
import MBootCore.Dsp.CycleReport
import MBootCore.Dsp.DependencyChecks
import MBootCore.Dsp.DependencyGraph
import MBootCore.Dsp.DependencyResolver
import MBootCore.Dsp.DigestStandard
import MBootCore.Dsp.FileCrc
import MBootCore.Dsp.InstallCopy
import MBootCore.Dsp.InstallFiles
import MBootCore.Dsp.InstallResolution
import MBootCore.Dsp.Manager
import MBootCore.Dsp.PackageDigest
import MBootCore.Dsp.PackageManifest
import MBootCore.Dsp.QuirkResolution
import MBootCore.Dsp.Reload
import MBootCore.Dsp.Replacement
import MBootCore.Dsp.RepositoryPaths
import MBootCore.Dsp.RepositoryScan
import MBootCore.Dsp.ResolutionOrder
import MBootCore.Dsp.StoreClosure
import MBootCore.Dsp.VendorQuirk
import MBootCore.Elf.ElfParser
import MBootCore.Elf.ElfValidator
import MBootCore.Elf.ExactLayout
import MBootCore.Elf.ImageBounds
import MBootCore.Elf.ImageLayout
import MBootCore.Elf.MemoryImageBuilder
import MBootCore.Elf.ParserReads
import MBootCore.Elf.ParserSpec
import MBootCore.Elf.ProgramTable
import MBootCore.Elf.SegmentOverlap
import MBootCore.Firehose.Acknowledging
import MBootCore.Firehose.Answers
import MBootCore.Firehose.Cancellation
import MBootCore.Firehose.ChunkDelivery
import MBootCore.Firehose.ChunkEngine
import MBootCore.Firehose.CommandRoundTrip
import MBootCore.Firehose.DeviceData
import MBootCore.Firehose.Packets
import MBootCore.Firehose.Phases
import MBootCore.Firehose.Protocol
import MBootCore.Firehose.ProtocolSpec
import MBootCore.Firehose.ReportedStreams
import MBootCore.Firehose.Resume
import MBootCore.Firehose.SectorDevice
import MBootCore.Firehose.StreamEngine
import MBootCore.Firehose.StreamTermination
import MBootCore.Firehose.VirtualFlash
import MBootCore.Firehose.Xml
import MBootCore.Firehose.XmlReads
import MBootCore.Firehose.XmlRoundTrip
import MBootCore.Firehose.XmlTokens
import MBootCore.Firmware.FirmwareExecutor
import MBootCore.Firmware.FirmwareValidator
import MBootCore.Firmware.FlashPlan
import MBootCore.Firmware.ManifestScan
import MBootCore.Firmware.PlanOrder
import MBootCore.Firmware.VerifiedPlan
import MBootCore.Generic.AdapterSpec
import MBootCore.Generic.AnnouncedLength
import MBootCore.Generic.ByteRanges
import MBootCore.Generic.FirehoseAdapter
import MBootCore.Generic.FlashDevice
import MBootCore.Generic.MockFlashDevice
import MBootCore.Generic.PartitionNames
import MBootCore.Generic.SafeRanges
import MBootCore.Generic.StorageReport
import MBootCore.Gpt.Codec
import MBootCore.Gpt.Confinement
import MBootCore.Gpt.DiskCopies
import MBootCore.Gpt.DiskWrites
import MBootCore.Gpt.EntryArray
import MBootCore.Gpt.Fallback
import MBootCore.Gpt.GuidText
import MBootCore.Gpt.ManagerFrame
import MBootCore.Gpt.MockDisk
import MBootCore.Gpt.Models
import MBootCore.Gpt.NameTranscoding
import MBootCore.Gpt.Parser
import MBootCore.Gpt.ParserReads
import MBootCore.Gpt.ParserSpec
import MBootCore.Gpt.PartitionManager
import MBootCore.Gpt.PartitionRange
import MBootCore.Gpt.Redundancy
import MBootCore.Gpt.VerifiedRecovery
import MBootCore.Gpt.WriteParse
import MBootCore.Gpt.Writer
import MBootCore.Job.FaithfulJobs
import MBootCore.Job.FlashVerify
import MBootCore.Job.GenericJobs
import MBootCore.Job.JobPipeline
import MBootCore.Job.JobScheduler
import MBootCore.Job.PipelineLog
import MBootCore.Job.PipelineRollback
import MBootCore.Job.PipelineSuccess
import MBootCore.Job.SchedulerAccounting
import MBootCore.Job.SchedulerDependencies
import MBootCore.Job.SchedulerPause
import MBootCore.Job.SchedulerRuns
import MBootCore.Job.VerifiedRun
import MBootCore.Loader.ElfInspector
import MBootCore.Loader.LoaderCache
import MBootCore.Loader.LoaderMatcher
import MBootCore.Loader.LoaderSelection
import MBootCore.Logging.StructuredLogger
import MBootCore.Pipeline.BootPipeline
import MBootCore.Pipeline.BoundedWork
import MBootCore.Pipeline.FreshRun
import MBootCore.Pipeline.RecoveryStrategy
import MBootCore.Pipeline.StagesInOrder
import MBootCore.Plugin.CycleSearch
import MBootCore.Plugin.DependencyClosure
import MBootCore.Plugin.Lifecycle
import MBootCore.Plugin.LoadedPlugins
import MBootCore.Plugin.PluginLog
import MBootCore.Plugin.PluginManager
import MBootCore.Plugin.ReloadAtomic
import MBootCore.Plugin.StartOrder
import MBootCore.Protocols.ShortWrites
import MBootCore.Sahara.AwaitedReplies
import MBootCore.Sahara.Cancellation
import MBootCore.Sahara.MachineStep
import MBootCore.Sahara.PacketAcceptance
import MBootCore.Sahara.PacketRoundTrip
import MBootCore.Sahara.Packets
import MBootCore.Sahara.Protocol
import MBootCore.Sahara.ProtocolSpec
import MBootCore.Sahara.StateMachine
import MBootCore.Sahara.UploadBlocks
import MBootCore.Sahara.VersionNegotiation
import MBootCore.Sdk.APICompatibility
import MBootCore.Sdk.PluginCycles
import MBootCore.Sdk.PluginDependencyGraph
import MBootCore.Sdk.PluginManifest
import MBootCore.Sdk.PluginResolution
import MBootCore.Sdk.VendorSDK
import MBootCore.Sdk.Version
import MBootCore.Sdk.VersionOrder
import MBootCore.Sdk.VersionText
import MBootCore.Session.CancelSticks
import MBootCore.Session.DeviceManager
import MBootCore.Session.DeviceSession
import MBootCore.Session.SessionIdentity
import MBootCore.Session.Statistics
import MBootCore.Session.WatchedSession
import MBootCore.State.GenericStateMachine
import MBootCore.Support.Accesses
import MBootCore.Support.AssocMap
import MBootCore.Support.ByteStore
import MBootCore.Support.CallRun
import MBootCore.Support.ChunkedTransfer
import MBootCore.Support.Crc32
import MBootCore.Support.Decoder
import MBootCore.Support.DepthFirst
import MBootCore.Support.Digits
import MBootCore.Support.FileTree
import MBootCore.Support.FiniteGraph
import MBootCore.Support.HexFormat
import MBootCore.Support.JsonText
import MBootCore.Support.Kahn
import MBootCore.Support.Layers
import MBootCore.Support.LexicalPath
import MBootCore.Support.Lexicographic
import MBootCore.Support.LittleEndian
import MBootCore.Support.Multimap
import MBootCore.Support.PathTree
import MBootCore.Support.Program
import MBootCore.Support.RingBuffer
import MBootCore.Support.Scan
import MBootCore.Support.Sha256
import MBootCore.Support.StableSort
import MBootCore.Support.TextReads
import MBootCore.Support.Traced
import MBootCore.Support.TransitionTable
import MBootCore.Support.UnorderedMap
import MBootCore.Transport.BackendTransport
import MBootCore.Transport.ReadContract
import MBootCore.Workflow.CancelPoints
import MBootCore.Workflow.Completion
import MBootCore.Workflow.Engine
import MBootCore.Workflow.Executor
import MBootCore.Workflow.Restore
import MBootCore.Workflow.RollbackPass
import MBootCore.Workflow.RollbackRecovery
import MBootCore.Workflow.StepLog
import MBootCore.Workflow.StockWorkflows
