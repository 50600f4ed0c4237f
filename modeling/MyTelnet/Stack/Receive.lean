/- module: MyTelnet/Stack/Receive
   scope: model
   digest: is_packet_for_connection, process_packet, and what the capture thread does with a frame. -/

import MyTelnet.Stack.Send
import MyTelnet.Wire.Parsers

set_option autoImplicit false
set_option relaxedAutoImplicit false

namespace MyTelnet.Stack.Receive

open MyTelnet.Base.ByteOrder MyTelnet.Wire.Memory MyTelnet.Wire.Layers MyTelnet.Wire.Parsers
open MyTelnet.Stack.State MyTelnet.Stack.Send

/-- `is_packet_for_connection`: the four-tuple, or a SYN+ACK between the two hosts on any ports,
or a RST to the local port from anywhere. -/
def isPacketForConnection (s : TcpStack) (packet : Packet) : Bool :=
  match packet.ipv4, packet.tcp, s.currentConnection with
  | some ip, some tcp, some conn =>
    let normalDirection := ip.sourceIp == conn.remoteIp && ip.destIp == conn.localIp &&
      tcp.sourcePort == conn.remotePort && tcp.destPort == conn.localPort
    let synAckResponse := ip.sourceIp == conn.remoteIp && ip.destIp == conn.localIp &&
      tcp.isSyn && tcp.isAck
    let rstPacket := ip.destIp == conn.localIp && tcp.destPort == conn.localPort && tcp.isRst
    normalDirection || synAckResponse || rstPacket
  | _, _, _ => false

/-- Invoke a handler if one is installed. -/
def callback (s : TcpStack) (installed : Bool) (e : Event) : TcpStack :=
  if installed then log s e else s

/-- The SYN+ACK branch of `SYN_SENT`. The fields are updated before the ACK is sent, the state
after it and only if it was sent. -/
def acceptSynAck (s : TcpStack) (tcp : TcpParser) (sent : Nat → Int) : TcpStack :=
  let s := modifyConnection s fun conn =>
    if tcp.sourcePort != conn.remotePort then { conn with remotePort := tcp.sourcePort } else conn
  let s := modifyConnection s fun conn => { conn with remoteSeqNum := tcp.sequenceNumber }
  let s := modifyConnection s fun conn => { conn with ackNum := tcp.sequenceNumber + 1 }
  match sendTcpPacket s tcpAck [] (sent 0) with
  | (s, true) => callback (setState s .established) s.onConnected .onConnected
  | (s, false) => s

/-- `data_queue_.push`. -/
def pushData (s : TcpStack) (data : Bytes) : TcpStack :=
  log (setQueue s (s.dataQueue ++ [data])) (.queued data)

/-- The call of the data handler with `data_queue_.back()`, unless the queue is empty. -/
def notifyData (s : TcpStack) : TcpStack :=
  match s.dataQueue.getLast? with
  | some data => callback s s.onDataReceived (.onDataReceived data)
  | none => s

/-- The data branch of `ESTABLISHED`. It uses the sequence number without looking at it. -/
def takeData (s : TcpStack) (tcp : TcpParser) (sent : Nat → Int) : TcpStack :=
  let payloadData := tcp.payload
  let s := modifyConnection s fun conn =>
    { conn with ackNum := tcp.sequenceNumber + UInt32.ofNat tcp.payloadLength }
  let s := (sendTcpPacket s tcpAck [] (sent 0)).1
  notifyData (pushData s payloadData)

/-- The FIN branch of `ESTABLISHED`. It ends in `LAST_ACK` whatever its sends return. -/
def passiveClose (s : TcpStack) (tcp : TcpParser) (sent : Nat → Int) : TcpStack :=
  let s := log s .receivedFin
  let s := modifyConnection s fun conn => { conn with ackNum := tcp.sequenceNumber + 1 }
  let s := (sendTcpPacket s tcpAck [] (sent 0)).1
  let s := setState s .closeWait
  let s := (sendTcpPacket s (tcpFin ||| tcpAck) [] (sent 1)).1
  setState s .lastAck

/-- The FIN branch of `FIN_WAIT_1` and of `FIN_WAIT_2`: acknowledge it and close at once. -/
def acknowledgeFin (s : TcpStack) (tcp : TcpParser) (sent : Nat → Int) : TcpStack :=
  let s := log s .receivedFin
  let s := modifyConnection s fun conn => { conn with ackNum := tcp.sequenceNumber + 1 }
  let s := (sendTcpPacket s tcpAck [] (sent 0)).1
  let s := setState s .timeWait
  let s := setState s .closed
  callback s s.onConnectionClosed .onConnectionClosed

/-- The ACK branch of `LAST_ACK`. -/
def finishClose (s : TcpStack) : TcpStack :=
  let s := setState s .closed
  callback s s.onConnectionClosed .onConnectionClosed

def onSynSent (s : TcpStack) (tcp : TcpParser) (sent : Nat → Int) : TcpStack :=
  if tcp.isSyn && tcp.isAck then acceptSynAck s tcp sent else s

def onEstablished (s : TcpStack) (tcp : TcpParser) (sent : Nat → Int) : TcpStack :=
  if tcp.isPsh && tcp.isAck then
    if tcp.payloadLength > 0 then takeData s tcp sent else s
  else if tcp.isFin && tcp.isAck then passiveClose s tcp sent
  else s

def onFinWait1 (s : TcpStack) (tcp : TcpParser) (sent : Nat → Int) : TcpStack :=
  if tcp.isAck && !tcp.isFin then setState s .finWait2
  else if tcp.isFin && tcp.isAck then acknowledgeFin s tcp sent
  else s

def onFinWait2 (s : TcpStack) (tcp : TcpParser) (sent : Nat → Int) : TcpStack :=
  if tcp.isFin then acknowledgeFin s tcp sent else s

def onLastAck (s : TcpStack) (tcp : TcpParser) : TcpStack :=
  if tcp.isAck then finishClose s else s

/-- `process_packet`. `sent` gives the results of the injections it makes, in order. -/
def processPacket (s : TcpStack) (packet : Packet) (sent : Nat → Int) : TcpStack :=
  match s.currentConnection with
  | none => s
  | some conn =>
    if !isPacketForConnection s packet then s else
    match packet.tcp, packet.ipv4 with
    | some tcp, some _ =>
      match conn.state with
      | .synSent => onSynSent s tcp sent
      | .established => onEstablished s tcp sent
      | .finWait1 => onFinWait1 s tcp sent
      | .finWait2 => onFinWait2 s tcp sent
      | .lastAck => onLastAck s tcp
      | _ => s
    | _, _ => s

/-- The body of the loop of `capture_thread_func` on one frame. An exception is caught and the frame
forgotten; undefined behaviour is caught by nobody. -/
def capture (s : TcpStack) (frame : Bytes) (sent : Nat → Int) : Checked TcpStack :=
  match (captureFrame frame).2 with
  | .ok (some packet) => .ok (processPacket s packet sent)
  | .ok none => .ok s
  | .error (.exception _) => .ok s
  | .error .undefinedBehaviour => .error .undefinedBehaviour

end MyTelnet.Stack.Receive
