/- module: MyTelnet/Wire/Parsers
   scope: model
   digest: The Ethernet, IPv4 and TCP parsers and the capture path that runs them on a frame. -/

import MyTelnet.Wire.Checksum
import MyTelnet.Wire.Layers

set_option autoImplicit false
set_option relaxedAutoImplicit false

namespace MyTelnet.Wire.Parsers

open MyTelnet.Base.ByteOrder MyTelnet.Wire.Memory MyTelnet.Wire.Checksum MyTelnet.Wire.Layers

def loadMac (mem : Bytes) (i : Nat) : Checked MacAddress := do
  let b0 ← load8 mem i
  let b1 ← load8 mem (i + 1)
  let b2 ← load8 mem (i + 2)
  let b3 ← load8 mem (i + 3)
  let b4 ← load8 mem (i + 4)
  let b5 ← load8 mem (i + 5)
  return ⟨b0, b1, b2, b3, b4, b5⟩

/-- `EthernetParser::parse`. An EtherType it does not know only gets a warning. -/
def ethernetParse (mem : Bytes) (rawData dataLength : Nat) :
    Checked (ProtocolLayer × EthernetParser) :=
  if dataLength < ethernetHeaderLen then .error (.exception "Ethernet header too short") else do
    let dstMac ← loadMac mem rawData
    let srcMac ← loadMac mem (rawData + 6)
    let etherType ← load16 mem (rawData + 12)
    return (⟨rawData, dataLength, rawData + ethernetHeaderLen, dataLength - ethernetHeaderLen⟩,
      ⟨dstMac, srcMac, ntohs etherType⟩)

/-- `Ipv4Parser::parse`. The payload length comes from `total_len` alone, which no check
compares with the data at hand or with the header length. -/
def ipv4Parse (mem : Bytes) (rawData dataLength : Nat) : Checked ProtocolLayer :=
  if dataLength < ipHeaderSize then .error (.exception "IPv4 packet too short") else do
    let versionIhl ← load8 mem rawData
    let headerLength := (versionIhl &&& 0x0F).toNat * 4
    if dataLength < headerLength then
      .error (.exception "IPv4 packet shorter than header length")
    else do
      let calculatedChecksum ← calculateIpChecksum mem rawData
      let check ← load16 mem (rawData + 10)
      if calculatedChecksum ≠ ntohs check then .error (.exception "Invalid IP checksum") else do
        let totalLen ← load16 mem (rawData + 2)
        return ⟨rawData, dataLength, rawData + headerLength,
          sizeSub (ntohs totalLen).toNat headerLength⟩

/-- The accessors of an `Ipv4Parser` that the capture path calls. -/
def ipv4Read (mem : Bytes) (layer : ProtocolLayer) : Checked Ipv4Parser := do
  let versionIhl ← load8 mem layer.rawData
  let totalLen ← load16 mem (layer.rawData + 2)
  let protocol ← load8 mem (layer.rawData + 9)
  let saddr ← load32 mem (layer.rawData + 12)
  let daddr ← load32 mem (layer.rawData + 16)
  return ⟨versionIhl &&& 0x0F, ntohs totalLen, protocol, ntohl saddr, ntohl daddr⟩

/-- `TcpParser::parse`. -/
def tcpParse (mem : Bytes) (rawData dataLength : Nat) : Checked ProtocolLayer :=
  if dataLength < tcpHeaderSize then .error (.exception "TCP header too short") else do
    let flags ← load16 mem (rawData + 12)
    let headerLength := (ntohs flags >>> 12).toNat * 4
    if dataLength < headerLength then
      .error (.exception "TCP packet shorter than header length")
    else
      return ⟨rawData, dataLength, rawData + headerLength, dataLength - headerLength⟩

/-- One row of the payload dump: its hexadecimal and then its text half read the same cells. -/
def dumpRow (mem : Bytes) (payload payloadLen i : Nat) : List Nat → Checked Unit
  | [] => .ok ()
  | j :: js =>
    if i + j < payloadLen then do
      let _ ← load8 mem (payload + (i + j))
      dumpRow mem payload payloadLen i js
    else dumpRow mem payload payloadLen i js

/-- The payload dump of `capture_thread_func` from offset `i` on. -/
def dumpPayload (mem : Bytes) (payload payloadLen i : Nat) : Checked Unit :=
  if i < payloadLen then do
    dumpRow mem payload payloadLen i (List.range 16)
    dumpRow mem payload payloadLen i (List.range 16)
    dumpPayload mem payload payloadLen (i + 16)
  else .ok ()
termination_by payloadLen - i

/-- The accessors of a `TcpParser` as the capture path prints them, the payload dump, and the
payload bytes that `process_packet` may copy. -/
def tcpRead (mem : Bytes) (layer : ProtocolLayer) : Checked TcpParser := do
  let source ← load16 mem layer.rawData
  let dest ← load16 mem (layer.rawData + 2)
  let seq ← load32 mem (layer.rawData + 4)
  let ackSeq ← load32 mem (layer.rawData + 8)
  let flags ← load16 mem (layer.rawData + 12)
  let window ← load16 mem (layer.rawData + 14)
  dumpPayload mem layer.payloadPtr layer.payloadLen 0
  let payload ← loadRange mem layer.payloadPtr layer.payloadLen
  return ⟨ntohs source, ntohs dest, ntohl seq, ntohl ackSeq,
    ((ntohs flags >>> 12) &&& 0x0F).toUInt8, ntohs flags &&& 0x3F, ntohs window, payload⟩

/-- The body of the `try` block of `capture_thread_func` up to `process_packet`: the layer
objects constructed, and the packet handed on, if any. -/
def captureFrame (mem : Bytes) : List ProtocolLayer × Checked (Option Packet) :=
  match ethernetParse mem 0 mem.length with
  | .error e => ([], .error e)
  | .ok (ethLayer, eth) =>
    if eth.etherType ≠ ethertypeIp then ([ethLayer], .ok none) else
    match ipv4Parse mem ethLayer.payloadPtr ethLayer.payloadLen with
    | .error e => ([ethLayer], .error e)
    | .ok ipLayer =>
      match ipv4Read mem ipLayer with
      | .error e => ([ethLayer, ipLayer], .error e)
      | .ok ip =>
        if ip.protocol ≠ 6 then ([ethLayer, ipLayer], .ok none) else
        match tcpParse mem ipLayer.payloadPtr ipLayer.payloadLen with
        | .error e => ([ethLayer, ipLayer], .error e)
        | .ok tcpLayer =>
          ([ethLayer, ipLayer, tcpLayer],
            (tcpRead mem tcpLayer).map fun tcp => some ⟨some ip, some tcp⟩)

end MyTelnet.Wire.Parsers
