/- module: MyTelnet/Stack/State
   scope: model
   digest: The connection, the stack object around it and the record of what it does. -/

import MyTelnet.Wire.Layers

set_option autoImplicit false
set_option relaxedAutoImplicit false

namespace MyTelnet.Stack.State

open MyTelnet.Base.ByteOrder MyTelnet.Wire.Layers

inductive TcpState where
  | closed
  | synSent
  | established
  | finWait1
  | finWait2
  | closeWait
  | lastAck
  | timeWait
  | closing
  deriving DecidableEq, Repr

/-- `TcpConnection` without its unused buffers and its time stamp, which nothing reads. -/
structure TcpConnection where
  localIp : UInt32
  localPort : UInt16
  remoteIp : UInt32
  remotePort : UInt16
  seqNum : UInt32
  ackNum : UInt32
  remoteSeqNum : UInt32
  windowSize : UInt16
  state : TcpState
  deriving DecidableEq, Repr

/-- What the stack does, as an observer of the run sees it. -/
inductive Event where
  /-- `connect` installed a new connection object. -/
  | opened
  /-- `pcap_inject` took this frame. -/
  | injected (frame : Bytes)
  /-- A vector was pushed on `data_queue_`. -/
  | queued (data : Bytes)
  /-- `wait_for_data` returned this vector. -/
  | taken (data : Bytes)
  /-- `process_packet` consumed a FIN of the peer. -/
  | receivedFin
  | onConnected
  | onDataReceived (data : Bytes)
  | onConnectionClosed
  deriving DecidableEq, Repr

/-- The members of `TcpStack` that its operations use. Handlers are known by their presence,
`ipId` is the static counter of `build_ip_header`, and `trace` is the history of the run,
oldest event first, which the program itself does not keep. -/
structure TcpStack where
  pcapHandle : Bool
  currentConnection : Option TcpConnection
  localMac : MacAddress
  localIp : UInt32
  gatewayMac : MacAddress
  dataQueue : List Bytes
  onConnected : Bool
  onDataReceived : Bool
  onConnectionClosed : Bool
  ipId : UInt16
  trace : List Event
  deriving DecidableEq, Repr

def log (s : TcpStack) (e : Event) : TcpStack := { s with trace := s.trace ++ [e] }

def setIpId (s : TcpStack) (id : UInt16) : TcpStack := { s with ipId := id }

def setConnection (s : TcpStack) (conn : Option TcpConnection) : TcpStack :=
  { s with currentConnection := conn }

def setQueue (s : TcpStack) (queue : List Bytes) : TcpStack := { s with dataQueue := queue }

/-- An assignment through `current_connection_->`. -/
def modifyConnection (s : TcpStack) (f : TcpConnection → TcpConnection) : TcpStack :=
  setConnection s (s.currentConnection.map f)

def setState (s : TcpStack) (state : TcpState) : TcpStack :=
  modifyConnection s fun conn => { conn with state := state }

/-- `get_connection_state`. -/
def getConnectionState (s : TcpStack) : TcpState :=
  match s.currentConnection with
  | some conn => conn.state
  | none => .closed

/-! Histories: what an observer who looks for one kind of event has seen so far. -/

/-- The frame of an `injected` event. -/
def Event.frame? : Event → Option Bytes
  | .injected frame => some frame
  | _ => none

/-- The vector of a `queued` event. -/
def Event.queued? : Event → Option Bytes
  | .queued data => some data
  | _ => none

/-- The vector of a `taken` event. -/
def Event.taken? : Event → Option Bytes
  | .taken data => some data
  | _ => none

def Event.receivedFin? : Event → Option Unit
  | .receivedFin => some ()
  | _ => none

def history {β : Type} (view : Event → Option β) (s : TcpStack) : List β :=
  s.trace.filterMap view

/-- The frames injected so far. -/
abbrev injectedFrames (s : TcpStack) : List Bytes := history Event.frame? s

/-- The vectors pushed on `data_queue_` so far. -/
abbrev queuedVectors (s : TcpStack) : List Bytes := history Event.queued? s

/-- The vectors `wait_for_data` returned so far. -/
abbrev takenVectors (s : TcpStack) : List Bytes := history Event.taken? s

/-- How many FINs of the peer were consumed so far. -/
abbrev finsReceived (s : TcpStack) : Nat := (history Event.receivedFin? s).length

section Fields

variable (s : TcpStack) (e : Event) (f : TcpConnection → TcpConnection) (state : TcpState)
variable (conn : Option TcpConnection) (queue : List Bytes) (id : UInt16)
variable {β : Type} (view : Event → Option β)

@[simp] theorem log_currentConnection : (log s e).currentConnection = s.currentConnection := rfl
@[simp] theorem log_dataQueue : (log s e).dataQueue = s.dataQueue := rfl
@[simp] theorem log_pcapHandle : (log s e).pcapHandle = s.pcapHandle := rfl

@[simp] theorem log_trace : (log s e).trace = s.trace ++ [e] := rfl

@[simp] theorem history_log : history view (log s e) = history view s ++ (view e).toList := by
  cases h : view e <;> simp [history, log, h]

@[simp] theorem setIpId_currentConnection :
    (setIpId s id).currentConnection = s.currentConnection := rfl
@[simp] theorem setIpId_dataQueue : (setIpId s id).dataQueue = s.dataQueue := rfl
@[simp] theorem setIpId_pcapHandle : (setIpId s id).pcapHandle = s.pcapHandle := rfl
@[simp] theorem setIpId_trace : (setIpId s id).trace = s.trace := rfl
@[simp] theorem history_setIpId : history view (setIpId s id) = history view s := rfl

@[simp] theorem setConnection_currentConnection :
    (setConnection s conn).currentConnection = conn := rfl
@[simp] theorem setConnection_dataQueue : (setConnection s conn).dataQueue = s.dataQueue := rfl
@[simp] theorem setConnection_pcapHandle : (setConnection s conn).pcapHandle = s.pcapHandle := rfl
@[simp] theorem setConnection_trace : (setConnection s conn).trace = s.trace := rfl
@[simp] theorem history_setConnection : history view (setConnection s conn) = history view s := rfl

@[simp] theorem setQueue_currentConnection :
    (setQueue s queue).currentConnection = s.currentConnection := rfl
@[simp] theorem setQueue_dataQueue : (setQueue s queue).dataQueue = queue := rfl
@[simp] theorem setQueue_pcapHandle : (setQueue s queue).pcapHandle = s.pcapHandle := rfl
@[simp] theorem setQueue_trace : (setQueue s queue).trace = s.trace := rfl
@[simp] theorem history_setQueue : history view (setQueue s queue) = history view s := rfl

@[simp] theorem modifyConnection_currentConnection :
    (modifyConnection s f).currentConnection = s.currentConnection.map f := rfl
@[simp] theorem modifyConnection_dataQueue : (modifyConnection s f).dataQueue = s.dataQueue := rfl
@[simp] theorem modifyConnection_pcapHandle : (modifyConnection s f).pcapHandle = s.pcapHandle :=
  rfl
@[simp] theorem modifyConnection_trace : (modifyConnection s f).trace = s.trace := rfl
@[simp] theorem history_modifyConnection :
    history view (modifyConnection s f) = history view s := rfl

@[simp] theorem setState_currentConnection : (setState s state).currentConnection =
    s.currentConnection.map fun conn => { conn with state := state } := rfl
@[simp] theorem setState_dataQueue : (setState s state).dataQueue = s.dataQueue := rfl
@[simp] theorem setState_pcapHandle : (setState s state).pcapHandle = s.pcapHandle := rfl
@[simp] theorem setState_trace : (setState s state).trace = s.trace := rfl
@[simp] theorem history_setState : history view (setState s state) = history view s := rfl

end Fields

end MyTelnet.Stack.State
