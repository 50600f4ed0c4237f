/- module: MyTelnet/Stack/Operations
   scope: model
   digest: connect, wait_for_connection, send_data, wait_for_data and close_connection. -/

import MyTelnet.Stack.Send

set_option autoImplicit false
set_option relaxedAutoImplicit false

namespace MyTelnet.Stack.Operations

open MyTelnet.Base.ByteOrder MyTelnet.Wire.Layers MyTelnet.Stack.State MyTelnet.Stack.Send

/-- The stack after its constructor and an `initialize` that succeeds, given the address of the
interface and the MAC address that `get_local_mac_and_ip` draws. -/
def initialized (localMac : MacAddress) (localIp : UInt32) : TcpStack :=
  { pcapHandle := true, currentConnection := none, localMac := localMac, localIp := localIp,
    gatewayMac := ⟨0x00, 0x50, 0x56, 0xe7, 0xfb, 0x1b⟩, dataQueue := [], onConnected := false,
    onDataReceived := false, onConnectionClosed := false, ipId := 0, trace := [] }

/-- The connection object that `connect` fills in. -/
def newConnection (s : TcpStack) (remoteIp : UInt32) (remotePort localPort : UInt16)
    (iss : UInt32) : TcpConnection :=
  { localIp := s.localIp, localPort := localPort, remoteIp := remoteIp,
    remotePort := remotePort, seqNum := iss, ackNum := 0, remoteSeqNum := 0,
    windowSize := 8192, state := .closed }

/-- `connect`, given the parsed remote address, the random port and initial sequence number it
draws, and whether the BPF filter compiled and was installed. -/
def connect (s : TcpStack) (remoteIp : UInt32) (remotePort localPort : UInt16) (iss : UInt32)
    (filterSet : Bool) (sent : Int) : TcpStack × Bool :=
  if !s.pcapHandle then (s, false) else
  let conn := newConnection s remoteIp remotePort localPort iss
  if !filterSet then (s, false) else
  let s := log (setConnection s (some conn)) .opened
  match sendTcpPacket s tcpSyn [] sent with
  | (s, false) => (setConnection s none, false)
  | (s, true) => (setState s .synSent, true)

/-- The local variables of `wait_for_connection`; times are in milliseconds. -/
structure WaitLocals where
  startTime : Int
  lastSynTime : Int
  synRetries : Nat
  timeoutMs : Int
  deriving DecidableEq, Repr

def maxSynRetries : Nat := 3
def synRetryIntervalMs : Int := 3000

/-- The entry of `wait_for_connection`. -/
def waitForConnectionStart (timeoutMs now : Int) : WaitLocals :=
  ⟨now, now, 0, if timeoutMs ≤ 0 then 30000 else timeoutMs⟩

inductive WaitResult where
  | established
  | timedOut
  | again
  deriving DecidableEq, Repr

/-- The test under which a pass sends the SYN again. -/
def retransmitDue (s : TcpStack) (w : WaitLocals) (now : Int) : Bool :=
  s.currentConnection.isSome && getConnectionState s == .synSent &&
    now - w.lastSynTime ≥ synRetryIntervalMs && w.synRetries < maxSynRetries

/-- One pass of the loop of `wait_for_connection`: the block under the lock at time `now`, then
the timeout test at time `later`. -/
def waitForConnectionPass (s : TcpStack) (w : WaitLocals) (now later sent : Int) :
    TcpStack × WaitLocals × WaitResult :=
  if s.currentConnection.isSome && getConnectionState s == .established then
    (s, w, .established)
  else
    let result := if later - w.startTime ≥ w.timeoutMs then WaitResult.timedOut else .again
    if retransmitDue s w now then
      match sendTcpPacket s tcpSyn [] sent with
      | (s, true) => (s, { w with synRetries := w.synRetries + 1, lastSynTime := now }, result)
      | (s, false) => (s, w, result)
    else (s, w, result)

def sendData (s : TcpStack) (data : Bytes) (sent : Int) : TcpStack × Bool :=
  if s.currentConnection.isNone || getConnectionState s != .established then (s, false) else
  sendTcpPacket s (tcpPsh ||| tcpAck) data sent

/-- One pass of the loop of `wait_for_data`. -/
def waitForData (s : TcpStack) : TcpStack × Option Bytes :=
  match s.dataQueue with
  | [] => (s, none)
  | data :: rest => (log (setQueue s rest) (.taken data), some data)

def closeConnection (s : TcpStack) (sent : Int) : TcpStack × Bool :=
  if s.currentConnection.isNone || getConnectionState s == .closed then (s, true) else
  if getConnectionState s == .established then
    match sendTcpPacket s (tcpFin ||| tcpAck) [] sent with
    | (s, false) => (s, false)
    | (s, true) => (setState s .finWait1, true)
  else (setState s .closed, true)

end MyTelnet.Stack.Operations
