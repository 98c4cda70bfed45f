import Instro.Library.EventLoop
import Instro.Library.KeyedTable
import Instro.Opcua.Types
import Instro.Library.RustText
import Instro.Opcua.NodeIdText
import Instro.Opcua.SubscriptionLoop
import Instro.Opcua.Timestamps
import Instro.Opcua.PollingSet
import Instro.Opcua.Buffer
import Instro.Opcua.Origins
import Instro.Opcua.Conservation
import Instro.Library.Bytes
import Instro.Library.Checked
import Instro.Library.FloatFormat
import Instro.Modbus.Codec
import Instro.Library.Exchange
import Instro.Modbus.Device
import Instro.Modbus.Write
import Instro.Modbus.RoundTrip
import Instro.Modbus.WriteMap
import Instro.EthernetIp.Types
import Instro.EthernetIp.Value
import Instro.EthernetIp.Device
import Instro.EthernetIp.Write
import Instro.WriteLimits
import Instro.EthernetIp.Session
import Instro.EthernetIp.Polling
import Instro.Library.Ring
import Instro.Mcc.Driver
import Instro.Mcc.Stream
import Instro.Mcc.Integrity
import Instro.Daq.HWTimestamper
import Instro.Daq.Timeline
import Instro.Mcc.Timebase
import Instro.Library.Handles
import Instro.Mcc.ScanBuffer
import Instro.Mcc.Ownership
import Instro.Library.PyText
import Instro.Psu.Commands
import Instro.Psu.Operations
import Instro.Psu.Protection
import Instro.Psu.Settings
import Instro.Instrument.BufferLifecycle
import Instro.Library.Grouping
import Instro.Modbus.Config
import Instro.Modbus.Groups
import Instro.Modbus.Polling
import Instro.Modbus.GroupReads
import Instro.Modbus.PollingPlan
import Instro.Instrument.Stopping
import Instro.Library.Paths
import Instro.Opcua.Browse
import Instro.Opcua.BrowseTree
import Instro.Opcua.BrowseDepth
import Instro.EthernetIp.Recovery
import Instro.I2c.Types
import Instro.Library.KeyedUpdates
import Instro.I2c.Interface
import Instro.I2c.FieldWrites
import Instro.I2c.Serial
import Instro.Daq.Labjack
import Instro.Daq.LabjackIsolation
import Instro.Publishers.Buffers
import Instro.Publishers.ChannelBuffer
import Instro.Publishers.GetOutcomes
import Instro.Library.ListEnd
import Instro.Publishers.Contents
import Instro.Publishers.Ledger
import Instro.Publishers.Refinement
import Instro.Publishers.History
import Instro.Publishers.GetContract
import Instro.Psu.Circuit
import Instro.Library.FloatCodec
import Instro.Modbus.Bijection
import Instro.I2c.Formats
import Instro.Library.TextParts
import Instro.Psu.Headers
import Instro.Psu.Dispatch
import Instro.Psu.Server
import Instro.Library.Dict
import Instro.Daq.Keysight
import Instro.Daq.Scaling
import Instro.Daq.Attribution
import Instro.Daq.NiMirror
import Instro.Daq.NiTasks
import Instro.Daq.Teardown
import Instro.Publishers.SingleValue
import Instro.Publishers.CsvFile
import Instro.Publishers.JsonFile
import Instro.Library.Procedure
import Instro.Library.Double
import Instro.Library.FloatText
import Instro.Library.FloatReading
import Instro.Library.JsonText
import Instro.Library.Json
import Instro.Library.JsonReading
import Instro.Library.Csv
import Instro.Library.Utf8
import Instro.Library.PyBytes
import Instro.Library.Framing
import Instro.Psu.Bk914x
import Instro.Psu.ChannelRouting
import Instro.Scope.SetupBlock
import Instro.ELoad.ELoad
import Instro.Scope.Scope
import Instro.Scope.Acquisition
import Instro.Library.Ramp
import Instro.Scope.Timebase
import Instro.Library.PyConversions
import Instro.Library.Cleanup
import Instro.Psu.DriverLines
import Instro.Psu.DriverTalk
import Instro.Psu.DriverRuns
import Instro.Psu.DriverMemory
import Instro.Visa.Sessions
import Instro.Opcua.SessionLogs
import Instro.Modbus.Store
import Instro.Library.Resend
import Instro.Publishers.QueuedPublisher
import Instro.Publishers.QueueDelivery
import Instro.Publishers.QueueProgress
import Instro.Publishers.BufferedPublisher
import Instro.Library.AtomicSteps
import Instro.Library.Mutex
import Instro.Psu.DriverSteps
import Instro.Psu.InstroPSU
import Instro.Dmm.Agilent34401A
import Instro.Dmm.Configuration
