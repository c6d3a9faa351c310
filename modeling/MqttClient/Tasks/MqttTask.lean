/-
# The application: `mqtt_task.c`

The client object with its buffers as `MqttConnectBroker` sets it up, the options
it connects with, and the message handler it subscribes.
-/

import MqttClient.Client.Operations

namespace MqttClient

open Semantics

/-- `MQTT_BUFSIZE`: the size of the send, receive and message buffers. -/
def mqttBufsize : Nat := 1024

/-- A buffer of static storage duration. -/
def zeroBuffer : Memory := fun _ => 0

/-- `mqttClient` before any call: an object of static storage duration. -/
def staticClient {H : Type} : MQTTClient H where
  nextPacketid := 0
  commandTimeoutMs := 0
  bufSize := 0
  readbufSize := 0
  buf := zeroBuffer
  readbuf := zeroBuffer
  keepAliveInterval := 0
  pingOutstanding := false
  isconnected := false
  cleansession := false
  messageHandlers := fun _ => ⟨none, none⟩
  defaultMessageHandler := none
  lastSent := .init
  lastReceived := .init

/-- `mqttClient` after the `MQTTClientInit` of `MqttConnectBroker`. -/
def brokerClient {H : Type} : MQTTClient H :=
  mqttClientInit staticClient 1000 zeroBuffer mqttBufsize zeroBuffer mqttBufsize

/-- The client identifier `"Linux client"`. -/
def linuxClientId : CString :=
  ⟨[76, 105, 110, 117, 120, 32, 99, 108, 105, 101, 110, 116], by decide⟩

/-- The connection parameters of `MqttConnectBroker`. -/
def connectOptions : MQTTPacketConnectData :=
  { MQTTPacketConnectData.initializer with
    willFlag := 0
    mqttVersion := 3
    clientID := .ofCString linuxClientId
    keepAliveInterval := 60
    cleansession := 1 }

/-- `MqttMessageArrived` on `msgBuffer`: `memset` to zero, then `memcpy` of the
payload, whose length nothing compares with the size of the buffer. -/
def mqttMessageArrived (msgBuffer : Memory) (msg : MessageData) : Memory :=
  (msgBuffer.store 0 (List.replicate mqttBufsize 0)).store 0
    (msg.message.payload.deref.load 0 msg.message.payloadlen)

end MqttClient
