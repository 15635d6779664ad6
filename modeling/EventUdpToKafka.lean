import EventUdpToKafka.CrashFreedom
import EventUdpToKafka.DataProcessing
import EventUdpToKafka.DatagramRuns
import EventUdpToKafka.EventExactness
import EventUdpToKafka.FrameEmission
import EventUdpToKafka.MessageEncoding
import EventUdpToKafka.MessageIndependence
import EventUdpToKafka.MessageReading
import EventUdpToKafka.MessageRoundTrip
import EventUdpToKafka.Noninterference
import EventUdpToKafka.PackedClock
import EventUdpToKafka.ServiceBalance
import EventUdpToKafka.Testing
import EventUdpToKafka.MixedRadix
import EventUdpToKafka.RecordDecoding
import EventUdpToKafka.PixelMap
import EventUdpToKafka.ClockOrder
import EventUdpToKafka.CrashEmission
import EventUdpToKafka.TimestampRange
import EventUdpToKafka.KafkaService
import EventUdpToKafka.MetricStore
import EventUdpToKafka.MetricsRegistry
import EventUdpToKafka.ServiceRefinement
import EventUdpToKafka.ExposedMetrics
import EventUdpToKafka.ServiceRuns
import EventUdpToKafka.StreamGrammar
import EventUdpToKafka.BuildProfiles
import EventUdpToKafka.MessageFormat
import EventUdpToKafka.UnreliableDelivery
import EventUdpToKafka.Chronology
import EventUdpToKafka.BufferSize
import EventUdpToKafka.Ledger
import EventUdpToKafka.OutputBounds
import EventUdpToKafka.ProducedRecords
import EventUdpToKafka.InformationContent
import EventUdpToKafka.Demultiplexing
import EventUdpToKafka.SourceNoninterference
import EventUdpToKafka.FaultContainment
