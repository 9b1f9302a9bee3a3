import Smurf.DataBuffer.DropOldestFifo
import Smurf.DataBuffer.ExactlyOnce
import Smurf.DataBuffer.SlowReader
import Smurf.DataBuffer.Isolation
import Smurf.DataBuffer.WakeUp
import Smurf.DataBuffer.Progress
import Smurf.DataBuffer.Statements
import Smurf.Packet.IndependentFields
import Smurf.Packet.Codecs
import Smurf.Filter.BlockSizes
import Smurf.Filter.RingSizes
import Smurf.Filter.Stability
import Smurf.Processor.FrameAccounting
import Smurf.Processor.CounterWrap
import Smurf.Processor.BlockMean
import Smurf.Processor.LocalAveraging
import Smurf.Processor.DiscardedFrames
import Smurf.Processor.PhaseTracking
import Smurf.Processor.PublishedHeader
import Smurf.Processor.PacketTime
import Smurf.Server.TesBiasRegisters
import Smurf.Processor.Forgetting
import Smurf.Processor.FrameBounds
import Smurf.Packet.TesBiasWords
import Smurf.Packet.TesBiasBounds
import Smurf.Packet.DocumentedFormat
import Smurf.Packet.PullBitField
import Smurf.DataFile.Parts
import Smurf.DataFile.OwnFiles
import Smurf.DataFile.FrameCounter
import Smurf.DataFile.FailedOpen
import Smurf.DataFile.Descriptors
import Smurf.DataFile.ReadBack
import Smurf.DataFile.Sessions
import Smurf.Processor.ConfigSafety
import Smurf.Processor.JumpLog
import Smurf.Server.PcieCard
import Smurf.Server.RssiSessions
import Smurf.Server.PublishedBias
import Smurf.Server.CommandLine
import Smurf.Pipeline.Delivery
import Smurf.Pipeline.Intake
import Smurf.Pipeline.Draining
import Smurf.Pipeline.RecordedStream
import Smurf.Pipeline.ReadBack
import Smurf.Pipeline.RecordedSignal
import Smurf.Processor.PublishedSignal
import Smurf.Processor.FilteredPhase
import Smurf.Processor.ChannelIsolation
import Smurf.Processor.Polling
import Smurf.Processor.TestPayload
import Smurf.Processor.AverageAccounting
