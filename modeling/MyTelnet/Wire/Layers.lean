/- module: MyTelnet/Wire/Layers
   scope: model
   digest: Protocol constants, the layer objects of a captured packet, and their flag tests. -/

import MyTelnet.Wire.Memory

set_option autoImplicit false
set_option relaxedAutoImplicit false

namespace MyTelnet.Wire.Layers

open MyTelnet.Base.ByteOrder

def tcpFin : UInt16 := 0x0001
def tcpSyn : UInt16 := 0x0002
def tcpRst : UInt16 := 0x0004
def tcpPsh : UInt16 := 0x0008
def tcpAck : UInt16 := 0x0010

def ethernetHeaderLen : Nat := 14
def ethertypeIp : UInt16 := 0x0800
/-- `sizeof(IpHeader_new)` and `sizeof(TcpHeader_new)`. -/
def ipHeaderSize : Nat := 20
def tcpHeaderSize : Nat := 20

structure MacAddress where
  b0 : UInt8
  b1 : UInt8
  b2 : UInt8
  b3 : UInt8
  b4 : UInt8
  b5 : UInt8
  deriving DecidableEq, Repr

def MacAddress.bytes (m : MacAddress) : Bytes := [m.b0, m.b1, m.b2, m.b3, m.b4, m.b5]

/-- What every layer object keeps. Pointers are offsets into the captured buffer. -/
structure ProtocolLayer where
  rawData : Nat
  dataLength : Nat
  payloadPtr : Nat
  payloadLen : Nat
  deriving DecidableEq, Repr

/-- The members `EthernetParser::parse` fills in. -/
structure EthernetParser where
  dstMac : MacAddress
  srcMac : MacAddress
  etherType : UInt16
  deriving DecidableEq, Repr

/-- The answers of the accessors of an `Ipv4Parser`. -/
structure Ipv4Parser where
  ihl : UInt8
  totalLength : UInt16
  protocol : UInt8
  sourceIp : UInt32
  destIp : UInt32
  deriving DecidableEq, Repr

/-- The answers of the accessors of a `TcpParser`; `payload` are the `payload_length()` bytes
at `payload()`. -/
structure TcpParser where
  sourcePort : UInt16
  destPort : UInt16
  sequenceNumber : UInt32
  ackNumber : UInt32
  dataOffset : UInt8
  flags : UInt16
  windowSize : UInt16
  payload : Bytes
  deriving DecidableEq, Repr

namespace TcpParser

variable (t : TcpParser)

def isSyn : Bool := t.flags &&& tcpSyn != 0
def isAck : Bool := t.flags &&& tcpAck != 0
def isFin : Bool := t.flags &&& tcpFin != 0
def isRst : Bool := t.flags &&& tcpRst != 0
def isPsh : Bool := t.flags &&& tcpPsh != 0
def payloadLength : Nat := t.payload.length

end TcpParser

/-- A captured packet through `find_layer`, which finds no layer that was not added. -/
structure Packet where
  ipv4 : Option Ipv4Parser
  tcp : Option TcpParser
  deriving DecidableEq, Repr

end MyTelnet.Wire.Layers
