/- module: MyTelnet/Stack/Reactions
   scope: proofs
   digest: process_packet as the reaction its segment selects, and what each reaction changes. -/

import MyTelnet.Stack.Effects

set_option autoImplicit false
set_option relaxedAutoImplicit false

namespace MyTelnet.Stack.Reactions

open MyTelnet.Base.ByteOrder MyTelnet.Wire.Layers
open MyTelnet.Stack.State MyTelnet.Stack.Send MyTelnet.Stack.Receive MyTelnet.Stack.Effects

/-- The branches of `process_packet`. -/
inductive Reaction where
  | ignore
  | synAck
  | data
  | passiveClose
  | finAcked
  | activeClose
  | finalAck
  deriving DecidableEq, Repr

/-- The branch that the state and the flags select. -/
def reactionOf (state : TcpState) (tcp : TcpParser) : Reaction :=
  match state with
  | .synSent => if tcp.isSyn && tcp.isAck then .synAck else .ignore
  | .established =>
    if tcp.isPsh && tcp.isAck then if tcp.payloadLength > 0 then .data else .ignore
    else if tcp.isFin && tcp.isAck then .passiveClose else .ignore
  | .finWait1 =>
    if tcp.isAck && !tcp.isFin then .finAcked
    else if tcp.isFin && tcp.isAck then .activeClose else .ignore
  | .finWait2 => if tcp.isFin then .activeClose else .ignore
  | .lastAck => if tcp.isAck then .finalAck else .ignore
  | _ => .ignore

def perform (s : TcpStack) (tcp : TcpParser) (sent : Nat → Int) : Reaction → TcpStack
  | .ignore => s
  | .synAck => acceptSynAck s tcp sent
  | .data => takeData s tcp sent
  | .passiveClose => passiveClose s tcp sent
  | .finAcked => setState s .finWait2
  | .activeClose => acknowledgeFin s tcp sent
  | .finalAck => finishClose s

/-- The connection and the segment, when `process_packet` gets as far as its switch. -/
def received (s : TcpStack) (packet : Packet) : Option (TcpConnection × TcpParser) :=
  if isPacketForConnection s packet then
    match s.currentConnection, packet.tcp with
    | some conn, some tcp => some (conn, tcp)
    | _, _ => none
  else none

theorem isPacketForConnection_some {s : TcpStack} {packet : Packet}
    (h : isPacketForConnection s packet = true) :
    ∃ ip tcp conn, packet.ipv4 = some ip ∧ packet.tcp = some tcp ∧
      s.currentConnection = some conn := by
  cases hi : packet.ipv4 <;> cases ht : packet.tcp <;> cases hc : s.currentConnection <;>
    simp [isPacketForConnection, hi, ht, hc] at h ⊢

theorem received_some {s : TcpStack} {packet : Packet} {conn : TcpConnection} {tcp : TcpParser}
    (h : received s packet = some (conn, tcp)) :
    isPacketForConnection s packet = true ∧ s.currentConnection = some conn ∧
      packet.tcp = some tcp := by
  unfold received at h
  split at h
  · next hacc =>
    obtain ⟨ip, tcp', conn', -, ht, hc⟩ := isPacketForConnection_some hacc
    rw [ht, hc] at h
    obtain ⟨rfl, rfl⟩ := Prod.mk.inj (Option.some.inj h)
    exact ⟨hacc, hc, ht⟩
  · simp at h

theorem received_inj {s : TcpStack} {packet : Packet} {conn conn' : TcpConnection}
    {tcp tcp' : TcpParser} (h : received s packet = some (conn, tcp))
    (h' : received s packet = some (conn', tcp')) : conn = conn' ∧ tcp = tcp' :=
  Prod.mk.inj (Option.some.inj (h.symm.trans h'))

/-- `process_packet` performs the reaction its segment selects, and nothing else. -/
theorem processPacket_eq (s : TcpStack) (packet : Packet) (sent : Nat → Int) :
    processPacket s packet sent =
      match received s packet with
      | none => s
      | some (conn, tcp) => perform s tcp sent (reactionOf conn.state tcp) := by
  by_cases hacc : isPacketForConnection s packet = true
  · obtain ⟨ip, tcp, conn, hi, ht, hc⟩ := isPacketForConnection_some hacc
    have hr : received s packet = some (conn, tcp) := by simp [received, hacc, hc, ht]
    simp only [processPacket, hc, hacc, hr, ht, hi, Bool.not_true, Bool.false_eq_true, if_false]
    cases conn.state <;>
      simp only [reactionOf, onSynSent, onEstablished, onFinWait1, onFinWait2, onLastAck] <;>
      (repeat' split) <;> rfl
  · have hr : received s packet = none := by simp [received, hacc]
    rw [hr]
    cases hc : s.currentConnection with
    | none => simp [processPacket, hc]
    | some conn => simp [processPacket, hc, hacc]

theorem processPacket_received {s : TcpStack} {packet : Packet} {conn : TcpConnection}
    {tcp : TcpParser} (sent : Nat → Int) (h : received s packet = some (conn, tcp)) :
    processPacket s packet sent = perform s tcp sent (reactionOf conn.state tcp) := by
  rw [processPacket_eq, h]

theorem processPacket_none {s : TcpStack} {packet : Packet} (sent : Nat → Int)
    (h : received s packet = none) : processPacket s packet sent = s := by
  rw [processPacket_eq, h]

section Callback

variable (s : TcpStack) (installed : Bool) (e : Event)

@[simp] theorem callback_currentConnection :
    (callback s installed e).currentConnection = s.currentConnection := by
  unfold callback
  split <;> rfl

@[simp] theorem callback_dataQueue : (callback s installed e).dataQueue = s.dataQueue := by
  unfold callback
  split <;> rfl

@[simp] theorem callback_pcapHandle : (callback s installed e).pcapHandle = s.pcapHandle := by
  unfold callback
  split <;> rfl

theorem history_callback {β : Type} {view : Event → Option β} (hv : view e = none) :
    history view (callback s installed e) = history view s := by
  unfold callback
  split
  · rw [history_log, hv, Option.toList_none, List.append_nil]
  · rfl

end Callback

/-! The data branch: the vector just pushed is the one the handler sees. -/

section Reactions

variable (s : TcpStack) (tcp : TcpParser) (sent : Nat → Int)

/-- The stack of the data branch when its ACK has been tried. -/
def dataAcked : TcpStack :=
  (sendTcpPacket (modifyConnection s fun conn =>
    { conn with ackNum := tcp.sequenceNumber + UInt32.ofNat tcp.payloadLength })
    tcpAck [] (sent 0)).1

theorem takeData_eq :
    takeData s tcp sent =
      callback (pushData (dataAcked s tcp sent) tcp.payload)
        (dataAcked s tcp sent).onDataReceived (.onDataReceived tcp.payload) := by
  have hlast : (pushData (dataAcked s tcp sent) tcp.payload).dataQueue.getLast? =
      some tcp.payload := List.getLast?_concat
  show notifyData (pushData (dataAcked s tcp sent) tcp.payload) = _
  rw [notifyData, hlast]
  rfl

theorem dataAcked_dataQueue : (dataAcked s tcp sent).dataQueue = s.dataQueue := by
  simp [dataAcked]

theorem takeData_currentConnection :
    (takeData s tcp sent).currentConnection = s.currentConnection.map fun conn =>
      { conn with ackNum := tcp.sequenceNumber + UInt32.ofNat tcp.payloadLength } := by
  simp [takeData_eq, pushData, dataAcked]

/-- The stack of the FIN branches when their first ACK has been tried. -/
def finAcknowledged : TcpStack :=
  (sendTcpPacket (modifyConnection (log s .receivedFin) fun conn =>
    { conn with ackNum := tcp.sequenceNumber + 1 }) tcpAck [] (sent 0)).1

theorem finAcknowledged_currentConnection :
    (finAcknowledged s tcp sent).currentConnection = s.currentConnection.map fun conn =>
      { conn with ackNum := tcp.sequenceNumber + 1 } := by
  simp [finAcknowledged]

theorem acknowledgeFin_eq :
    acknowledgeFin s tcp sent =
      callback (setState (setState (finAcknowledged s tcp sent) .timeWait) .closed)
        (finAcknowledged s tcp sent).onConnectionClosed .onConnectionClosed := rfl

theorem passiveClose_eq :
    passiveClose s tcp sent = setState (sendTcpPacket
      (setState (finAcknowledged s tcp sent) .closeWait) (tcpFin ||| tcpAck) [] (sent 1)).1
      .lastAck := rfl

theorem acknowledgeFin_currentConnection :
    (acknowledgeFin s tcp sent).currentConnection = s.currentConnection.map fun conn =>
      { conn with ackNum := tcp.sequenceNumber + 1, state := .closed } := by
  simp [acknowledgeFin_eq, finAcknowledged_currentConnection, Function.comp_def]

theorem passiveClose_currentConnection {conn : TcpConnection}
    (hc : s.currentConnection = some conn) :
    ∃ seqNum, (passiveClose s tcp sent).currentConnection = some { conn with
      ackNum := tcp.sequenceNumber + 1, state := .lastAck, seqNum := seqNum } := by
  have h₁ : (setState (finAcknowledged s tcp sent) .closeWait).currentConnection =
      some { conn with ackNum := tcp.sequenceNumber + 1, state := .closeWait } := by
    simp [finAcknowledged_currentConnection, hc]
  obtain ⟨conn', hc', hsame⟩ :=
    sendTcpPacket_currentConnection _ (tcpFin ||| tcpAck) [] (sent 1) h₁
  refine ⟨conn'.seqNum, ?_⟩
  rw [passiveClose_eq, setState_currentConnection, hc', Option.map_some, hsame]

theorem finishClose_currentConnection :
    (finishClose s).currentConnection = s.currentConnection.map fun conn =>
      { conn with state := .closed } := by
  simp [finishClose]

/-- The stack of the SYN+ACK branch before its ACK. -/
def synAckNoted : TcpStack :=
  modifyConnection (modifyConnection (modifyConnection s fun conn =>
    if tcp.sourcePort != conn.remotePort then { conn with remotePort := tcp.sourcePort } else conn)
    fun conn => { conn with remoteSeqNum := tcp.sequenceNumber })
    fun conn => { conn with ackNum := tcp.sequenceNumber + 1 }

theorem synAckNoted_currentConnection :
    (synAckNoted s tcp).currentConnection = s.currentConnection.map fun conn =>
      { conn with remotePort := tcp.sourcePort, remoteSeqNum := tcp.sequenceNumber,
                  ackNum := tcp.sequenceNumber + 1 } := by
  unfold synAckNoted
  cases hc : s.currentConnection with
  | none => simp [hc]
  | some conn =>
    by_cases h : tcp.sourcePort = conn.remotePort
    · simp [hc, h]
    · simp [hc, h]

theorem acceptSynAck_of_send {s' : TcpStack} {ok : Bool}
    (h : sendTcpPacket (synAckNoted s tcp) tcpAck [] (sent 0) = (s', ok)) :
    acceptSynAck s tcp sent =
      if ok then callback (setState s' .established) s'.onConnected .onConnected else s' := by
  rw [synAckNoted] at h
  simp only [acceptSynAck, h]
  cases ok <;> rfl

/-- Either the ACK went out and the connection is established, or the state is as it was. -/
theorem acceptSynAck_cases {conn : TcpConnection} (hc : s.currentConnection = some conn) :
    (∃ id, acceptSynAck s tcp sent = setIpId (synAckNoted s tcp) id) ∨
    ∃ frame, acceptSynAck s tcp sent =
        callback (setState (log (setIpId (synAckNoted s tcp) (s.ipId + 1)) (.injected frame))
          .established) s.onConnected .onConnected ∧
      frame = buildFrame s { conn with
        remotePort := tcp.sourcePort, remoteSeqNum := tcp.sequenceNumber,
        ackNum := tcp.sequenceNumber + 1 } (s.ipId + 1) tcpAck [] := by
  have hnoted := synAckNoted_currentConnection s tcp
  rw [hc, Option.map_some] at hnoted
  obtain ⟨id, h⟩ | ⟨conn', hc', -, -, h⟩ :=
    sendTcpPacket_cases (synAckNoted s tcp) tcpAck [] (sent 0)
  · exact .inl ⟨id, acceptSynAck_of_send s tcp sent h⟩
  · right
    rw [hnoted] at hc'
    obtain rfl := Option.some.inj hc'
    refine ⟨_, ?_, rfl⟩
    rw [acceptSynAck_of_send s tcp sent h, afterSend, advanceSeq_ack, ← hnoted]
    rfl

end Reactions

/-! The effect of a reaction, whichever it is. -/

/-- The connection after a reaction, `seq_num` apart. `acked` says whether the ACK of a SYN+ACK
went out. -/
def reacted (conn : TcpConnection) (tcp : TcpParser) (acked : Bool) : Reaction → TcpConnection
  | .ignore => conn
  | .synAck => { conn with
      remotePort := tcp.sourcePort, remoteSeqNum := tcp.sequenceNumber,
      ackNum := tcp.sequenceNumber + 1, state := if acked then .established else conn.state }
  | .data => { conn with ackNum := tcp.sequenceNumber + UInt32.ofNat tcp.payloadLength }
  | .passiveClose => { conn with ackNum := tcp.sequenceNumber + 1, state := .lastAck }
  | .finAcked => { conn with state := .finWait2 }
  | .activeClose => { conn with ackNum := tcp.sequenceNumber + 1, state := .closed }
  | .finalAck => { conn with state := .closed }

/-- The vectors that a reaction pushes. -/
def Reaction.pushed (tcp : TcpParser) : Reaction → List Bytes
  | .data => [tcp.payload]
  | _ => []

/-- The FINs that a reaction consumes. -/
def Reaction.fins : Reaction → List Unit
  | .passiveClose | .activeClose => [()]
  | _ => []

/-- The reactions that use up sequence numbers of the peer. -/
def Reaction.consumes : Reaction → Bool
  | .data | .passiveClose | .activeClose => true
  | _ => false

/-- What a reaction records besides frames and callbacks. -/
def Reaction.marks (tcp : TcpParser) : Reaction → List Event
  | .data => [.queued tcp.payload]
  | .passiveClose | .activeClose => [.receivedFin]
  | _ => []

/-- A view of the trace that sees neither frames nor callbacks. -/
structure Inward {β : Type} (view : Event → Option β) : Prop where
  injected : ∀ frame, view (.injected frame) = none
  onConnected : view .onConnected = none
  onDataReceived : ∀ data, view (.onDataReceived data) = none
  onConnectionClosed : view .onConnectionClosed = none

theorem inward_queued : Inward Event.queued? := ⟨fun _ => rfl, rfl, fun _ => rfl, rfl⟩
theorem inward_receivedFin : Inward Event.receivedFin? := ⟨fun _ => rfl, rfl, fun _ => rfl, rfl⟩

section Perform

variable (s : TcpStack) (tcp : TcpParser) (sent : Nat → Int) (r : Reaction)

theorem perform_currentConnection {conn : TcpConnection} (hc : s.currentConnection = some conn) :
    ∃ acked seqNum, (perform s tcp sent r).currentConnection =
        some { reacted conn tcp acked r with seqNum := seqNum } ∧
      (r ≠ .passiveClose → seqNum = conn.seqNum) := by
  cases r with
  | ignore => exact ⟨false, conn.seqNum, hc, fun _ => rfl⟩
  | synAck =>
    have hnoted := synAckNoted_currentConnection s tcp
    rw [hc, Option.map_some] at hnoted
    rcases acceptSynAck_cases s tcp sent hc with ⟨id, h⟩ | ⟨frame, h, -⟩
    · refine ⟨false, conn.seqNum, ?_, fun _ => rfl⟩
      rw [perform, h, setIpId_currentConnection, hnoted]
      rfl
    · refine ⟨true, conn.seqNum, ?_, fun _ => rfl⟩
      rw [perform, h, callback_currentConnection, setState_currentConnection,
        log_currentConnection, setIpId_currentConnection, hnoted]
      rfl
  | data =>
    exact ⟨false, conn.seqNum, by rw [perform, takeData_currentConnection, hc]; rfl, fun _ => rfl⟩
  | passiveClose =>
    obtain ⟨seqNum, h⟩ := passiveClose_currentConnection s tcp sent hc
    exact ⟨false, seqNum, by rw [perform, h]; rfl, fun hne => absurd rfl hne⟩
  | finAcked =>
    exact ⟨false, conn.seqNum, by rw [perform, setState_currentConnection, hc]; rfl, fun _ => rfl⟩
  | activeClose =>
    refine ⟨false, conn.seqNum, ?_, fun _ => rfl⟩
    rw [perform, acknowledgeFin_currentConnection, hc]
    rfl
  | finalAck =>
    refine ⟨false, conn.seqNum, ?_, fun _ => rfl⟩
    rw [perform, finishClose_currentConnection, hc]
    rfl

theorem perform_dataQueue {conn : TcpConnection} (hc : s.currentConnection = some conn) :
    (perform s tcp sent r).dataQueue = s.dataQueue ++ r.pushed tcp := by
  cases r with
  | synAck =>
    rcases acceptSynAck_cases s tcp sent hc with ⟨id, h⟩ | ⟨frame, h, -⟩
    · simp [perform, h, synAckNoted, Reaction.pushed]
    · simp [perform, h, synAckNoted, Reaction.pushed]
  | data => simp [perform, takeData_eq, pushData, dataAcked_dataQueue, Reaction.pushed]
  | passiveClose => simp [perform, passiveClose_eq, finAcknowledged, Reaction.pushed]
  | activeClose => simp [perform, acknowledgeFin_eq, finAcknowledged, Reaction.pushed]
  | finalAck => simp [perform, finishClose, Reaction.pushed]
  | _ => simp [perform, Reaction.pushed]

theorem history_finAcknowledged {β : Type} {view : Event → Option β} (hv : Inward view) :
    history view (finAcknowledged s tcp sent) =
      history view s ++ (view .receivedFin).toList := by
  rw [finAcknowledged, history_sendTcpPacket _ _ _ _ hv.injected, history_modifyConnection,
    history_log]

/-- An inward view of the trace gains exactly the marks of the reaction. -/
theorem history_perform {β : Type} {view : Event → Option β} (hv : Inward view)
    {conn : TcpConnection} (hc : s.currentConnection = some conn) :
    history view (perform s tcp sent r) = history view s ++ (r.marks tcp).filterMap view := by
  have hone (e : Event) : [e].filterMap view = (view e).toList := by
    cases h : view e <;> simp [h]
  cases r with
  | synAck =>
    rcases acceptSynAck_cases s tcp sent hc with ⟨id, h⟩ | ⟨frame, h, -⟩
    · simp [perform, h, synAckNoted, Reaction.marks]
    · rw [perform, h, history_callback _ _ _ hv.onConnected, history_setState, history_log,
        hv.injected, history_setIpId]
      simp [synAckNoted, Reaction.marks]
  | data =>
    rw [perform, takeData_eq, history_callback _ _ _ (hv.onDataReceived _), pushData, history_log,
      history_setQueue, dataAcked, history_sendTcpPacket _ _ _ _ hv.injected,
      history_modifyConnection, Reaction.marks, hone]
  | passiveClose =>
    rw [perform, passiveClose_eq, history_setState, history_sendTcpPacket _ _ _ _ hv.injected,
      history_setState, history_finAcknowledged s tcp sent hv, Reaction.marks, hone]
  | activeClose =>
    rw [perform, acknowledgeFin_eq, history_callback _ _ _ hv.onConnectionClosed,
      history_setState, history_setState, history_finAcknowledged s tcp sent hv, Reaction.marks,
      hone]
  | finalAck =>
    rw [perform, finishClose, history_callback _ _ _ hv.onConnectionClosed, history_setState]
    simp [Reaction.marks]
  | _ => simp [perform, Reaction.marks]

theorem queuedVectors_perform {conn : TcpConnection} (hc : s.currentConnection = some conn) :
    queuedVectors (perform s tcp sent r) = queuedVectors s ++ r.pushed tcp := by
  apply (history_perform s tcp sent r inward_queued hc).trans
  cases r <;> rfl

theorem receivedFins_perform {conn : TcpConnection} (hc : s.currentConnection = some conn) :
    history Event.receivedFin? (perform s tcp sent r) =
      history Event.receivedFin? s ++ r.fins := by
  rw [history_perform s tcp sent r inward_receivedFin hc]
  cases r <;> rfl

theorem perform_pcapHandle {conn : TcpConnection} (hc : s.currentConnection = some conn) :
    (perform s tcp sent r).pcapHandle = s.pcapHandle := by
  cases r with
  | synAck =>
    rcases acceptSynAck_cases s tcp sent hc with ⟨id, h⟩ | ⟨frame, h, -⟩
    · simp [perform, h, synAckNoted]
    · simp [perform, h, synAckNoted]
  | data => simp [perform, takeData_eq, pushData, dataAcked]
  | passiveClose => simp [perform, passiveClose_eq, finAcknowledged]
  | activeClose => simp [perform, acknowledgeFin_eq, finAcknowledged]
  | finalAck => simp [perform, finishClose]
  | _ => simp [perform]

end Perform

/-- `s'` has injected the frames of `s` and after them only frames in `P`. -/
def Injects (P : Bytes → Prop) (s s' : TcpStack) : Prop :=
  ∃ frames, injectedFrames s' = injectedFrames s ++ frames ∧ ∀ frame ∈ frames, P frame

section Injects

variable {P : Bytes → Prop} {s s' s'' : TcpStack}

theorem Injects.of_eq (h : injectedFrames s' = injectedFrames s) : Injects P s s' :=
  ⟨[], by rw [h, List.append_nil], by simp⟩

theorem Injects.trans (h : Injects P s s') (h' : Injects P s' s'') : Injects P s s'' := by
  obtain ⟨frames, he, hall⟩ := h
  obtain ⟨frames', he', hall'⟩ := h'
  refine ⟨frames ++ frames', by rw [he', he, List.append_assoc], ?_⟩
  intro frame hf
  rcases List.mem_append.mp hf with hf | hf
  · exact hall frame hf
  · exact hall' frame hf

theorem Injects.send (s : TcpStack) (flags : UInt16) (payload : Bytes) (sent : Int)
    (hP : ∀ conn, s.currentConnection = some conn →
      P (buildFrame s conn (s.ipId + 1) flags payload)) :
    Injects P s (sendTcpPacket s flags payload sent).1 := by
  obtain ⟨id, h⟩ | ⟨conn, hc, -, -, h⟩ := sendTcpPacket_cases s flags payload sent
  · exact .of_eq (by rw [h]; exact history_setIpId s id Event.frame?)
  · refine ⟨[buildFrame s conn (s.ipId + 1) flags payload], ?_, ?_⟩
    · rw [h, afterSend]
      exact history_log _ _ _
    · intro frame hf
      rw [List.mem_singleton.mp hf]
      exact hP conn hc

end Injects

/-- The frames with which segments are answered: pure ACKs and FIN+ACKs. -/
def ControlFrame (frame : Bytes) : Prop :=
  ∃ s conn id flags, (flags = tcpAck ∨ flags = tcpFin ||| tcpAck) ∧
    frame = buildFrame s conn id flags []

theorem perform_injects (s : TcpStack) (tcp : TcpParser) (sent : Nat → Int) (r : Reaction)
    {conn : TcpConnection} (hc : s.currentConnection = some conn) :
    Injects ControlFrame s (perform s tcp sent r) := by
  have hack (t : TcpStack) : Injects ControlFrame t (sendTcpPacket t tcpAck [] (sent 0)).1 :=
    .send t tcpAck [] (sent 0) fun _ _ => ⟨_, _, _, _, .inl rfl, rfl⟩
  have hfin : Injects ControlFrame s (finAcknowledged s tcp sent) :=
    Injects.trans (.of_eq (by simp [Event.frame?])) (hack _)
  cases r with
  | synAck =>
    rcases acceptSynAck_cases s tcp sent hc with ⟨id, h⟩ | ⟨frame, h, hframe⟩
    · exact .of_eq (by simp [perform, h, synAckNoted])
    · refine ⟨[frame], ?_, ?_⟩
      · rw [perform, h]
        apply (history_callback _ _ _ rfl).trans
        rw [history_setState, history_log, history_setIpId]
        rfl
      · intro frame' hf
        rw [List.mem_singleton.mp hf, hframe]
        exact ⟨_, _, _, _, .inl rfl, rfl⟩
  | data =>
    have hsend : Injects ControlFrame s (dataAcked s tcp sent) :=
      Injects.trans (.of_eq (by simp)) (hack _)
    refine hsend.trans (.of_eq ?_)
    rw [perform, takeData_eq]
    exact (history_callback _ _ _ rfl).trans (by simp [pushData, Event.frame?])
  | passiveClose =>
    exact hfin.trans (.send (setState (finAcknowledged s tcp sent) .closeWait)
      (tcpFin ||| tcpAck) [] (sent 1) fun _ _ => ⟨_, _, _, _, .inr rfl, rfl⟩)
  | activeClose =>
    refine hfin.trans (.of_eq ?_)
    rw [perform, acknowledgeFin_eq]
    exact history_callback _ _ _ rfl
  | finalAck => exact .of_eq (history_callback _ _ _ rfl)
  | _ => exact .of_eq rfl

end MyTelnet.Stack.Reactions
