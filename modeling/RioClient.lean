import RioClient.AcceptedArgs
import RioClient.AcceptedOnWire
import RioClient.AdapterChoice
import RioClient.AdapterCore
import RioClient.AddressRanges
import RioClient.AddressSteps
import RioClient.Addresses
import RioClient.AlignedColumns
import RioClient.ArgsCore
import RioClient.ArrivedBytes
import RioClient.BatchedLoop
import RioClient.BoundedStringCore
import RioClient.BufferCore
import RioClient.BufferSizes
import RioClient.ByteFields
import RioClient.CallPrograms
import RioClient.CommaInsertion
import RioClient.CommaSeparatedCore
import RioClient.CommandLine
import RioClient.CommandLineCore
import RioClient.CompletionQueue
import RioClient.ConsumerAttribution
import RioClient.ConsumerBytes
import RioClient.ConsumerBytesCore
import RioClient.ConsumerCapacity
import RioClient.ConsumerCore
import RioClient.ConsumerNotify
import RioClient.ConsumerRuns
import RioClient.ConsumerSteps
import RioClient.Dealing
import RioClient.DescriptorLayout
import RioClient.DigitGroups
import RioClient.Enumeration
import RioClient.ExpectedSequence
import RioClient.FlatMemory
import RioClient.FlooredControl
import RioClient.GetlineCore
import RioClient.GroupStats
import RioClient.GroupStatsCore
import RioClient.GroupTotals
import RioClient.KeyedTotals
import RioClient.Lifecycle
import RioClient.LifecycleCore
import RioClient.LifecycleSteps
import RioClient.LinkCore
import RioClient.LinkDelivery
import RioClient.LinkRuns
import RioClient.ListTrim
import RioClient.LossyDelivery
import RioClient.MulticastCheck
import RioClient.MulticastTokens
import RioClient.NetworkCore
import RioClient.NumericOptions
import RioClient.OrderedNetwork
import RioClient.PacketCounters
import RioClient.PacketLimit
import RioClient.PartialRun
import RioClient.PortRanges
import RioClient.ProducerBytes
import RioClient.ProducerBytesCore
import RioClient.ProducerCore
import RioClient.ProducerNotify
import RioClient.ProducerPackets
import RioClient.ProducerRefinement
import RioClient.ProducerRuns
import RioClient.ProducerSends
import RioClient.ProducerSequence
import RioClient.ProducerStatistics
import RioClient.ProducerSteps
import RioClient.RangeCompletion
import RioClient.RangeCore
import RioClient.RangeGrammar
import RioClient.ReceiveFifo
import RioClient.ReceiveRing
import RioClient.ReceiveWindows
import RioClient.RecycledRing
import RioClient.ReportDeltas
import RioClient.ReportingCore
import RioClient.ReportingSteps
import RioClient.Resources
import RioClient.RoundRobin
import RioClient.SequenceGaps
import RioClient.SessionCore
import RioClient.Shutdown
import RioClient.SnapshotReads
import RioClient.SpinDuration
import RioClient.SpinWorkerCore
import RioClient.SplitCore
import RioClient.SplitJoin
import RioClient.SplitOverloads
import RioClient.StatisticsTable
import RioClient.StopDecision
import RioClient.StringCopy
import RioClient.StringLength
import RioClient.TextFields
import RioClient.TextSearch
import RioClient.TrimCore
import RioClient.TrimmedText
import RioClient.TuningIntervals
import RioClient.WinsockReference
import RioClient.WireFormat
import RioClient.WirePackets
