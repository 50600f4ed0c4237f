/- module: MyTelnet/Stack/Send
   scope: model
   digest: The header builders and send_tcp_packet. -/

import MyTelnet.Wire.Checksum
import MyTelnet.Stack.State

set_option autoImplicit false
set_option relaxedAutoImplicit false

namespace MyTelnet.Stack.Send

open MyTelnet.Base.ByteOrder MyTelnet.Wire.Checksum MyTelnet.Wire.Layers MyTelnet.Stack.State

/-- `IpHeader_new`: fields as the host holds them. -/
structure IpHeader where
  versionIhl : UInt8
  tos : UInt8
  totalLen : UInt16
  id : UInt16
  fragOff : UInt16
  ttl : UInt8
  protocol : UInt8
  check : UInt16
  saddr : UInt32
  daddr : UInt32

/-- The packed layout of `IpHeader_new`. -/
def IpHeader.bytes (h : IpHeader) : Bytes :=
  [h.versionIhl, h.tos] ++ store16 h.totalLen ++ store16 h.id ++ store16 h.fragOff ++
    [h.ttl, h.protocol] ++ store16 h.check ++ store32 h.saddr ++ store32 h.daddr

/-- `TcpHeader_new`. -/
structure TcpHeader where
  source : UInt16
  dest : UInt16
  seq : UInt32
  ackSeq : UInt32
  flags : UInt16
  window : UInt16
  check : UInt16
  urgPtr : UInt16

def TcpHeader.bytes (h : TcpHeader) : Bytes :=
  store16 h.source ++ store16 h.dest ++ store32 h.seq ++ store32 h.ackSeq ++ store16 h.flags ++
    store16 h.window ++ store16 h.check ++ store16 h.urgPtr

def buildEthernetHeader (dstMac srcMac : MacAddress) (etherType : UInt16) : Bytes :=
  dstMac.bytes ++ srcMac.bytes ++ [(etherType >>> 8).toUInt8, (etherType &&& 0xFF).toUInt8]

/-- `build_ip_header`, with the value its static counter has after the increment. -/
def buildIpHeader (srcIp dstIp : UInt32) (totalLen : UInt16) (protocol : UInt8) (id : UInt16) :
    Bytes :=
  let ipHeader : IpHeader :=
    { versionIhl := ((4 : UInt8) <<< 4) ||| 5, tos := 0, totalLen := htons totalLen, id := htons id,
      fragOff := 0, ttl := 64, protocol := protocol, check := 0,
      saddr := htonl srcIp, daddr := htonl dstIp }
  let checksum := (calculateIpChecksum ipHeader.bytes 0).toOption.getD 0
  { ipHeader with check := htons checksum : IpHeader }.bytes

def buildTcpHeader (srcPort dstPort : UInt16) (seqNum ackNum : UInt32)
    (flags windowSize : UInt16) : Bytes :=
  let offsetFlags : UInt16 := ((5 : UInt16) <<< 12) ||| (flags &&& 0x3F)
  { source := htons srcPort, dest := htons dstPort, seq := htonl seqNum, ackSeq := htonl ackNum,
    flags := htons offsetFlags, window := htons windowSize, check := 0,
    urgPtr := 0 : TcpHeader }.bytes

/-- The packet buffer of `send_tcp_packet` as it is injected. -/
def buildFrame (s : TcpStack) (conn : TcpConnection) (id flags : UInt16) (payload : Bytes) :
    Bytes :=
  let ethHeader := buildEthernetHeader s.gatewayMac s.localMac ethertypeIp
  let ipHeader := buildIpHeader conn.localIp conn.remoteIp
    (UInt16.ofNat (ipHeaderSize + tcpHeaderSize + payload.length)) 6 id
  let tcpHeader := buildTcpHeader conn.localPort conn.remotePort conn.seqNum conn.ackNum flags
    conn.windowSize
  let tcpCsum := (calculateTcpChecksum conn.localIp conn.remoteIp tcpHeader payload).1
  ethHeader ++ ipHeader ++ (tcpHeader.set 16 (lo16 tcpCsum)).set 17 (hi16 tcpCsum) ++ payload

/-- The update of `seq_num` after a successful injection. -/
def advanceSeq (conn : TcpConnection) (flags : UInt16) (payload : Bytes) : TcpConnection :=
  let conn := if flags &&& tcpSyn != 0 || flags &&& tcpFin != 0
    then { conn with seqNum := conn.seqNum + 1 } else conn
  if payload.length > 0
    then { conn with seqNum := conn.seqNum + UInt32.ofNat payload.length } else conn

/-- `send_tcp_packet`. `sentBytes` is what `pcap_inject` returns: only -1 is a failure, a short
count gets a warning. The identification counter moves in either case. -/
def sendTcpPacket (s : TcpStack) (flags : UInt16) (payload : Bytes) (sentBytes : Int) :
    TcpStack × Bool :=
  match s.currentConnection with
  | none => (s, false)
  | some conn =>
    if !s.pcapHandle then (s, false) else
    let id := s.ipId + 1
    let s := setIpId s id
    if sentBytes = -1 then (s, false) else
    let frame := buildFrame s conn id flags payload
    (log (setConnection s (some (advanceSeq conn flags payload))) (.injected frame), true)

end MyTelnet.Stack.Send
