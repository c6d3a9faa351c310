import MqttClient.Semantics.Program
import MqttClient.Semantics.Transition
import MqttClient.Semantics.Interaction
import MqttClient.Semantics.Resource
import MqttClient.Semantics.Monitor
import MqttClient.Semantics.Memory
import MqttClient.Semantics.Conversion
import MqttClient.Semantics.Footprint
import MqttClient.Semantics.Transfer
import MqttClient.Semantics.SlotMap
import MqttClient.Semantics.Counter
import MqttClient.Semantics.Levels
import MqttClient.Semantics.Progress
import MqttClient.Packet.Format
import MqttClient.Packet.RemainingLength
import MqttClient.Packet.Serialize
import MqttClient.Packet.WholePackets
import MqttClient.Packet.Read
import MqttClient.Packet.ReadSplit
import MqttClient.Packet.Deserialize
import MqttClient.Packet.Server
import MqttClient.Packet.RoundTrip
import MqttClient.Packet.Entries
import MqttClient.Packet.Subscriptions
import MqttClient.Packet.Replies
import MqttClient.Packet.ServerReplies
import MqttClient.Packet.ConnectExamined
import MqttClient.Packet.ConnectBounds
import MqttClient.Platform.Timer
import MqttClient.Client.State
import MqttClient.Platform.Network
import MqttClient.Client.Transport
import MqttClient.Client.Cycle
import MqttClient.Client.Operations
import MqttClient.Client.Handlers
import MqttClient.Tasks.MqttTask
import MqttClient.Client.Frame
import MqttClient.Client.Calls
import MqttClient.Client.Returning
import MqttClient.Client.Effects
import MqttClient.Client.Framing
import MqttClient.Client.Inbound
import MqttClient.Client.Sending
import MqttClient.Client.Ping
import MqttClient.Client.Stream
import MqttClient.Client.Session
import MqttClient.Client.Transducer
import MqttClient.Client.Exchange
import MqttClient.Client.Dialogue
import MqttClient.Client.TopicFilter
import MqttClient.Client.Readers
import MqttClient.Client.ReadBuffer
import MqttClient.Client.LengthCodecs
import MqttClient.Client.Failure
import MqttClient.Client.Handshake
import MqttClient.Client.Delivery
import MqttClient.Client.Keepalive
import MqttClient.Client.PingSessions
import MqttClient.Client.StalePing
import MqttClient.Client.SilentBroker
import MqttClient.Client.SentPackets
import MqttClient.Client.PacketIds
import MqttClient.Client.Outbound
import MqttClient.Client.Waiting
import MqttClient.Client.Acknowledgements
import MqttClient.Client.Answer
import MqttClient.Client.Subscription
import MqttClient.Client.Authority
import MqttClient.Tasks.PublishStep
import MqttClient.Tasks.SharedBuffer
import MqttClient.Tasks.SubackQueue
import MqttClient.Tasks.CommandLine
import MqttClient.Tasks.ModbusTask
import MqttClient.Platform.ModbusTcp
import MqttClient.Platform.ModbusWrite
import MqttClient.Tasks.ModbusDescriptor
import MqttClient.Tasks.TlsHandles
import MqttClient.Tasks.Application
import MqttClient.Tasks.Conversation
import MqttClient.Tasks.SharedValue
import MqttClient.Tasks.Gateway
import MqttClient.Tasks.ModbusSteps
import MqttClient.Tasks.Register
import MqttClient.Tasks.Devices
import MqttClient.Tasks.Progress
