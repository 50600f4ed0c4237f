/- module: MyTelnet/Stack/Moves
   scope: model and proofs
   digest: The automaton of one connection object, with what each move records, and its runs. -/

import MyTelnet.Stack.Frames
import MyTelnet.Stack.Handshake

set_option autoImplicit false
set_option relaxedAutoImplicit false

namespace MyTelnet.Stack.Moves

open MyTelnet.Base.ByteOrder MyTelnet.Base.Runs MyTelnet.Wire.Layers
open MyTelnet.Stack.State MyTelnet.Stack.Send MyTelnet.Stack.Operations MyTelnet.Stack.Receive
open MyTelnet.Stack.Run MyTelnet.Stack.Frames MyTelnet.Stack.Effects MyTelnet.Stack.Reactions
open MyTelnet.Stack.Steps MyTelnet.Stack.Handshake

/-- A segment as the connection sends it. -/
def FrameOf (conn : TcpConnection) (flags : UInt16) (payload frame : Bytes) : Prop :=
  ∃ s id, frame = buildFrame s conn id flags payload

section FrameOf

variable {conn : TcpConnection} {f : UInt16} {data frame : Bytes}

theorem FrameOf.flags (h : FrameOf conn f data frame) : frameFlags frame = f &&& 0x3F := by
  obtain ⟨s, id, rfl⟩ := h
  exact frameFlags_buildFrame s conn id f data

theorem FrameOf.payload (h : FrameOf conn f data frame) : framePayload frame = data := by
  obtain ⟨s, id, rfl⟩ := h
  exact framePayload_buildFrame s conn id f data

theorem FrameOf.seq (h : FrameOf conn f data frame) : frameSeq frame = conn.seqNum := by
  obtain ⟨s, id, rfl⟩ := h
  exact frameSeq_buildFrame s conn id f data

theorem FrameOf.ack (h : FrameOf conn f data frame) : frameAck frame = conn.ackNum := by
  obtain ⟨s, id, rfl⟩ := h
  exact frameAck_buildFrame s conn id f data

end FrameOf

/-- The frames of a record. -/
def frames (record : List Event) : List Bytes := record.filterMap Event.frame?

theorem frames_append (record events : List Event) :
    frames (record ++ events) = frames record ++ frames events :=
  List.filterMap_append

/-- What a step records adds its frames to those injected so far. -/
theorem injectedFrames_of_trace {s s' : TcpStack} {events : List Event}
    (h : s'.trace = s.trace ++ events) : injectedFrames s' = injectedFrames s ++ frames events := by
  rw [injectedFrames, history, h, List.filterMap_append]
  rfl

/-- An attempt to send: what it records, and the connection after it. -/
inductive Sent (conn : TcpConnection) (flags : UInt16) (payload : Bytes) :
    List Event → TcpConnection → Prop
  | failed : Sent conn flags payload [] conn
  | injected {frame : Bytes} (built : FrameOf conn flags payload frame) :
      Sent conn flags payload [.injected frame] (advanceSeq conn flags payload)

/-- What the call of a handler records. -/
def notice (installed : Bool) (e : Event) : List Event := if installed then [e] else []

theorem frames_notice {installed : Bool} {e : Event} (he : e.frame? = none) :
    frames (notice installed e) = [] := by
  cases installed with
  | true => simp [frames, notice, he]
  | false => rfl

/-- The connection once a SYN+ACK has been noted. -/
def noted (conn : TcpConnection) (tcp : TcpParser) : TcpConnection :=
  { conn with remotePort := tcp.sourcePort, remoteSeqNum := tcp.sequenceNumber,
              ackNum := tcp.sequenceNumber + 1 }

/-- The moves of a connection object: the state each starts from, what it records and the
connection it ends with. -/
inductive Move (s : TcpStack) (conn : TcpConnection) :
    Action → List Event → TcpConnection → Prop
  | idle {a : Action} (unmatched : Unmatched s a) (noData : ∀ data sent, a ≠ .sendData data sent) :
      Move s conn a [] conn
  | popped {data : Bytes} {rest : List Bytes} (queue : s.dataQueue = data :: rest) :
      Move s conn .waitForData [.taken data] conn
  | resentSyn {w : WaitLocals} {now later sent : Int} {events : List Event}
      {conn' : TcpConnection} (state : conn.state = .synSent)
      (sends : Sent conn tcpSyn [] events conn') :
      Move s conn (.waitForConnectionPass w now later sent) events conn'
  | unsent {data : Bytes} {sent : Int} (result : (sendData s data sent).2 = false) :
      Move s conn (.sendData data sent) [] conn
  | sentData {data : Bytes} {sent : Int} {frame : Bytes} (state : conn.state = .established)
      (result : (sendData s data sent).2 = true)
      (built : FrameOf conn (tcpPsh ||| tcpAck) data frame) :
      Move s conn (.sendData data sent) [.injected frame]
        (advanceSeq conn (tcpPsh ||| tcpAck) data)
  | finSent {sent : Int} {frame : Bytes} (state : conn.state = .established)
      (built : FrameOf conn (tcpFin ||| tcpAck) [] frame) :
      Move s conn (.closeConnection sent) [.injected frame]
        { conn with seqNum := conn.seqNum + 1, state := .finWait1 }
  | dropped {sent : Int} (state : conn.state ≠ .established) :
      Move s conn (.closeConnection sent) [] { conn with state := .closed }
  | ignored {packet : Packet} {sent : Nat → Int} {tcp : TcpParser}
      (matched : received s packet = some (conn, tcp))
      (reaction : reactionOf conn.state tcp = .ignore) :
      Move s conn (.processPacket packet sent) [] conn
  | unanswered {packet : Packet} {sent : Nat → Int} {tcp : TcpParser}
      (matched : received s packet = some (conn, tcp)) (state : conn.state = .synSent)
      (flags : tcp.isSyn = true ∧ tcp.isAck = true)
      (failed : sent 0 = -1 ∨ s.pcapHandle = false) :
      Move s conn (.processPacket packet sent) [] (noted conn tcp)
  | opened {packet : Packet} {sent : Nat → Int} {tcp : TcpParser} {frame : Bytes}
      (matched : received s packet = some (conn, tcp)) (state : conn.state = .synSent)
      (flags : tcp.isSyn = true ∧ tcp.isAck = true)
      (answered : sent 0 ≠ -1 ∧ s.pcapHandle = true)
      (built : FrameOf (noted conn tcp) tcpAck [] frame) :
      Move s conn (.processPacket packet sent)
        (.injected frame :: notice s.onConnected .onConnected)
        { noted conn tcp with state := .established }
  | data {packet : Packet} {sent : Nat → Int} {tcp : TcpParser} {ack : List Event}
      {conn' : TcpConnection} (matched : received s packet = some (conn, tcp))
      (state : conn.state = .established) (flags : tcp.isPsh = true ∧ tcp.isAck = true)
      (payload : tcp.payload ≠ [])
      (sends : Sent { conn with
        ackNum := tcp.sequenceNumber + UInt32.ofNat tcp.payloadLength } tcpAck [] ack conn')
      (lost : ack = [] ↔ sent 0 = -1 ∨ s.pcapHandle = false) :
      Move s conn (.processPacket packet sent)
        (ack ++ .queued tcp.payload :: notice s.onDataReceived (.onDataReceived tcp.payload)) conn'
  | passiveClose {packet : Packet} {sent : Nat → Int} {tcp : TcpParser} {ack fin : List Event}
      {conn₁ conn₂ : TcpConnection} (matched : received s packet = some (conn, tcp))
      (state : conn.state = .established)
      (flags : tcp.isFin = true ∧ tcp.isAck = true ∧ tcp.isPsh = false)
      (acks : Sent { conn with ackNum := tcp.sequenceNumber + 1 } tcpAck [] ack conn₁)
      (fins : Sent { conn₁ with state := .closeWait } (tcpFin ||| tcpAck) [] fin conn₂)
      (failed : fin = [] ↔ sent 1 = -1 ∨ s.pcapHandle = false)
      (lost : ack = [] ↔ sent 0 = -1 ∨ s.pcapHandle = false) :
      Move s conn (.processPacket packet sent) (.receivedFin :: ack ++ fin)
        { conn₂ with state := .lastAck }
  | finAcked {packet : Packet} {sent : Nat → Int} {tcp : TcpParser}
      (matched : received s packet = some (conn, tcp)) (state : conn.state = .finWait1)
      (flags : tcp.isAck = true) :
      Move s conn (.processPacket packet sent) [] { conn with state := .finWait2 }
  | activeClose {packet : Packet} {sent : Nat → Int} {tcp : TcpParser} {ack : List Event}
      {conn' : TcpConnection} (matched : received s packet = some (conn, tcp))
      (state : conn.state = .finWait1 ∧ tcp.isAck = true ∨ conn.state = .finWait2)
      (flags : tcp.isFin = true)
      (acks : Sent { conn with ackNum := tcp.sequenceNumber + 1 } tcpAck [] ack conn')
      (lost : ack = [] ↔ sent 0 = -1 ∨ s.pcapHandle = false) :
      Move s conn (.processPacket packet sent)
        (.receivedFin :: ack ++ notice s.onConnectionClosed .onConnectionClosed)
        { conn' with state := .closed }
  | finalAck {packet : Packet} {sent : Nat → Int} {tcp : TcpParser}
      (matched : received s packet = some (conn, tcp)) (state : conn.state = .lastAck)
      (flags : tcp.isAck = true) :
      Move s conn (.processPacket packet sent)
        (notice s.onConnectionClosed .onConnectionClosed) { conn with state := .closed }

/-! Every step of a stack that holds a connection is a move of the connection. -/

theorem sendTcpPacket_sent {s : TcpStack} {conn : TcpConnection} (flags : UInt16)
    (payload : Bytes) (sent : Int) (hc : s.currentConnection = some conn) :
    ∃ events conn', Sent conn flags payload events conn' ∧
      (sendTcpPacket s flags payload sent).1.currentConnection = some conn' ∧
      (sendTcpPacket s flags payload sent).1.trace = s.trace ++ events ∧
      ((sendTcpPacket s flags payload sent).2 = false ↔ events = []) ∧
      (events = [] ↔ sent = -1 ∨ s.pcapHandle = false) := by
  by_cases hsent : sent ≠ -1 ∧ s.pcapHandle = true
  · have hok := sendTcpPacket_ok flags payload hc hsent.2 hsent.1
    refine ⟨_, _, .injected ⟨s, s.ipId + 1, rfl⟩, ?_, ?_, ?_, ?_⟩
    · rw [hok]
      rfl
    · rw [hok]
      rfl
    · simp [hok]
    · simp [hsent]
  · have hfail : (sendTcpPacket s flags payload sent).2 = false := by
      rcases sendTcpPacket_cases s flags payload sent with ⟨id, h⟩ | ⟨c, -, hp, hs, -⟩
      · rw [h]
      · exact absurd ⟨hs, hp⟩ hsent
    rcases sendTcpPacket_cases s flags payload sent with ⟨id, h⟩ | ⟨c, -, hp, hs, -⟩
    · refine ⟨[], conn, .failed, ?_, ?_, ?_, ?_⟩
      · rw [h]
        exact hc
      · rw [h, List.append_nil]
        rfl
      · simp [hfail]
      · rw [not_and_or, not_not, Bool.not_eq_true] at hsent
        simp [hsent]
    · exact absurd ⟨hs, hp⟩ hsent

/-- The members that no operation writes. -/
def settings (s : TcpStack) : TcpStack :=
  { s with currentConnection := none, dataQueue := [], ipId := 0, trace := [] }

theorem sendTcpPacket_settings (s : TcpStack) (flags : UInt16) (payload : Bytes) (sent : Int) :
    settings (sendTcpPacket s flags payload sent).1 = settings s := by
  obtain ⟨id, h⟩ | ⟨conn, -, -, -, h⟩ := sendTcpPacket_cases s flags payload sent
  · rw [h]
    rfl
  · rw [h]
    rfl

theorem callback_trace (s : TcpStack) (installed : Bool) (e : Event) :
    (callback s installed e).trace = s.trace ++ notice installed e := by
  cases installed with
  | true => rfl
  | false => exact (List.append_nil _).symm

theorem callback_settings (s : TcpStack) (installed : Bool) (e : Event) :
    settings (callback s installed e) = settings s := by
  cases installed with
  | true => rfl
  | false => rfl

theorem Sent.ack {conn conn' : TcpConnection} {events : List Event}
    (h : Sent conn tcpAck [] events conn') : conn' = conn := by
  cases h with
  | failed => rfl
  | injected => exact advanceSeq_ack conn

theorem Sent.state {conn conn' : TcpConnection} {flags : UInt16} {payload : Bytes}
    {events : List Event} (h : Sent conn flags payload events conn') :
    conn'.state = conn.state := by
  cases h with
  | failed => rfl
  | injected => rw [advanceSeq_same conn flags payload]

theorem Sent.ackNum {conn conn' : TcpConnection} {flags : UInt16} {payload : Bytes}
    {events : List Event} (h : Sent conn flags payload events conn') :
    conn'.ackNum = conn.ackNum := by
  cases h with
  | failed => rfl
  | injected => rw [advanceSeq_same conn flags payload]

theorem reactionOf_passiveClose {state : TcpState} {tcp : TcpParser}
    (h : reactionOf state tcp = .passiveClose) :
    state = .established ∧ tcp.isFin = true ∧ tcp.isAck = true ∧ tcp.isPsh = false := by
  cases state <;> simp only [reactionOf] at h <;> (repeat' split at h) <;> simp_all

theorem reactionOf_finAcked {state : TcpState} {tcp : TcpParser}
    (h : reactionOf state tcp = .finAcked) : state = .finWait1 ∧ tcp.isAck = true := by
  cases state <;> simp only [reactionOf] at h <;> (repeat' split at h) <;> simp_all

theorem reactionOf_activeClose {state : TcpState} {tcp : TcpParser}
    (h : reactionOf state tcp = .activeClose) :
    (state = .finWait1 ∧ tcp.isAck = true ∨ state = .finWait2) ∧ tcp.isFin = true := by
  cases state <;> simp only [reactionOf] at h <;> (repeat' split at h) <;> simp_all

theorem reactionOf_finalAck {state : TcpState} {tcp : TcpParser}
    (h : reactionOf state tcp = .finalAck) : state = .lastAck ∧ tcp.isAck = true := by
  cases state <;> simp only [reactionOf] at h <;> (repeat' split at h) <;> simp_all

theorem reactionOf_takesData {state : TcpState} {tcp : TcpParser}
    (h : reactionOf state tcp = .data) :
    state = .established ∧ (tcp.isPsh = true ∧ tcp.isAck = true) ∧ tcp.payload ≠ [] := by
  cases state <;> simp only [reactionOf, TcpParser.payloadLength] at h <;>
    (repeat' split at h) <;> simp_all [List.length_pos_iff]

/-- `s'` is where a move of the connection leads. -/
def MovesTo (s : TcpStack) (conn : TcpConnection) (a : Action) (s' : TcpStack) : Prop :=
  ∃ events conn', Move s conn a events conn' ∧ s'.currentConnection = some conn' ∧
    s'.trace = s.trace ++ events

section Received

variable {s : TcpStack} {conn : TcpConnection} {packet : Packet} {tcp : TcpParser}
variable (sent : Nat → Int)

theorem synAck_moves (matched : received s packet = some (conn, tcp))
    (state : conn.state = .synSent) (flags : tcp.isSyn = true ∧ tcp.isAck = true) :
    MovesTo s conn (.processPacket packet sent) (acceptSynAck s tcp sent) := by
  have hnoted : (synAckNoted s tcp).currentConnection = some (noted conn tcp) := by
    rw [synAckNoted_currentConnection, (received_some matched).2.1]
    rfl
  have hhandlers : (sendTcpPacket (synAckNoted s tcp) tcpAck [] (sent 0)).1.onConnected =
      s.onConnected := congrArg (·.onConnected) (sendTcpPacket_settings _ tcpAck [] (sent 0))
  obtain ⟨events, conn', hsends, hconn, htrace, hresult, hfailed⟩ :=
    sendTcpPacket_sent tcpAck [] (sent 0) hnoted
  cases hsend : sendTcpPacket (synAckNoted s tcp) tcpAck [] (sent 0) with
  | mk s' ok =>
    rw [acceptSynAck_of_send s tcp sent hsend]
    rw [hsend] at hconn htrace hresult hhandlers
    cases hsends with
    | failed =>
      obtain rfl : ok = false := hresult.mpr rfl
      exact ⟨_, _, .unanswered matched state flags (hfailed.mp rfl), hconn, htrace⟩
    | injected built =>
      have hok : ok ≠ false := fun h => absurd (hresult.mp h) (by simp)
      obtain rfl : ok = true := by simpa using hok
      have hanswered : sent 0 ≠ -1 ∧ s.pcapHandle = true := by
        have hno := mt hfailed.mpr (by simp)
        rw [not_or, Bool.not_eq_false] at hno
        exact hno
      refine ⟨_, _, .opened matched state flags hanswered built, ?_, ?_⟩
      · show (callback (setState s' .established) s'.onConnected .onConnected).currentConnection = _
        rw [callback_currentConnection, setState_currentConnection, hconn, advanceSeq_ack]
        rfl
      · show (callback (setState s' .established) s'.onConnected .onConnected).trace = _
        rw [callback_trace, setState_trace, htrace, hhandlers, List.append_assoc]
        rfl

theorem data_moves (matched : received s packet = some (conn, tcp))
    (state : conn.state = .established) (flags : tcp.isPsh = true ∧ tcp.isAck = true)
    (payload : tcp.payload ≠ []) :
    MovesTo s conn (.processPacket packet sent) (takeData s tcp sent) := by
  have hc : (modifyConnection s fun conn => { conn with
      ackNum := tcp.sequenceNumber + UInt32.ofNat tcp.payloadLength }).currentConnection =
      some { conn with ackNum := tcp.sequenceNumber + UInt32.ofNat tcp.payloadLength } := by
    rw [modifyConnection_currentConnection, (received_some matched).2.1]
    rfl
  obtain ⟨ack, conn', hsends, hconn, htrace, -, hlost⟩ := sendTcpPacket_sent tcpAck [] (sent 0) hc
  have hhandlers : (dataAcked s tcp sent).onDataReceived = s.onDataReceived :=
    congrArg (·.onDataReceived) (sendTcpPacket_settings _ tcpAck [] (sent 0))
  refine ⟨_, conn', .data matched state flags payload hsends hlost, ?_, ?_⟩
  · rw [takeData_eq, callback_currentConnection]
    exact hconn
  · rw [takeData_eq, callback_trace, hhandlers]
    show (dataAcked s tcp sent).trace ++ [.queued tcp.payload] ++ _ = _
    rw [dataAcked, htrace, List.append_assoc, List.append_assoc]
    rfl

/-- The part that the two FIN branches share. -/
theorem finAcknowledged_sent (matched : received s packet = some (conn, tcp)) :
    ∃ ack conn', Sent { conn with ackNum := tcp.sequenceNumber + 1 } tcpAck [] ack conn' ∧
      (finAcknowledged s tcp sent).currentConnection = some conn' ∧
      (finAcknowledged s tcp sent).trace = s.trace ++ .receivedFin :: ack ∧
      (ack = [] ↔ sent 0 = -1 ∨ s.pcapHandle = false) := by
  have hc : (modifyConnection (log s .receivedFin) fun conn => { conn with
      ackNum := tcp.sequenceNumber + 1 }).currentConnection =
      some { conn with ackNum := tcp.sequenceNumber + 1 } := by
    rw [modifyConnection_currentConnection, log_currentConnection, (received_some matched).2.1]
    rfl
  obtain ⟨ack, conn', hsends, hconn, htrace, -, hlost⟩ := sendTcpPacket_sent tcpAck [] (sent 0) hc
  refine ⟨ack, conn', hsends, hconn, ?_, hlost⟩
  rw [finAcknowledged, htrace, modifyConnection_trace, log_trace, List.append_assoc]
  rfl

theorem passiveClose_effect (matched : received s packet = some (conn, tcp)) :
    ∃ ack fin conn₁ conn₂, Sent { conn with ackNum := tcp.sequenceNumber + 1 } tcpAck [] ack conn₁ ∧
      Sent { conn₁ with state := .closeWait } (tcpFin ||| tcpAck) [] fin conn₂ ∧
      (fin = [] ↔ sent 1 = -1 ∨ s.pcapHandle = false) ∧
      (ack = [] ↔ sent 0 = -1 ∨ s.pcapHandle = false) ∧
      (passiveClose s tcp sent).currentConnection = some { conn₂ with state := .lastAck } ∧
      (passiveClose s tcp sent).trace = s.trace ++ (.receivedFin :: ack ++ fin) := by
  obtain ⟨ack, conn₁, hacks, hconn₁, htrace₁, hlost⟩ := finAcknowledged_sent sent matched
  have hc : (setState (finAcknowledged s tcp sent) .closeWait).currentConnection =
      some { conn₁ with state := .closeWait } := by
    rw [setState_currentConnection, hconn₁]
    rfl
  have hhandle : (setState (finAcknowledged s tcp sent) .closeWait).pcapHandle = s.pcapHandle := by
    simp [finAcknowledged]
  obtain ⟨fin, conn₂, hfins, hconn₂, htrace₂, -, hfailed⟩ :=
    sendTcpPacket_sent (tcpFin ||| tcpAck) [] (sent 1) hc
  rw [hhandle] at hfailed
  refine ⟨ack, fin, conn₁, conn₂, hacks, hfins, hfailed, hlost, ?_, ?_⟩
  · rw [passiveClose_eq, setState_currentConnection, hconn₂]
    rfl
  · rw [passiveClose_eq, setState_trace, htrace₂, setState_trace, htrace₁, List.append_assoc]

theorem activeClose_effect (matched : received s packet = some (conn, tcp)) :
    ∃ ack conn', Sent { conn with ackNum := tcp.sequenceNumber + 1 } tcpAck [] ack conn' ∧
      (ack = [] ↔ sent 0 = -1 ∨ s.pcapHandle = false) ∧
      (acknowledgeFin s tcp sent).currentConnection = some { conn' with state := .closed } ∧
      (acknowledgeFin s tcp sent).trace = s.trace ++
        (.receivedFin :: ack ++ notice s.onConnectionClosed .onConnectionClosed) := by
  obtain ⟨ack, conn', hacks, hconn, htrace, hlost⟩ := finAcknowledged_sent sent matched
  have hhandlers : (finAcknowledged s tcp sent).onConnectionClosed = s.onConnectionClosed :=
    congrArg (·.onConnectionClosed) (sendTcpPacket_settings _ tcpAck [] (sent 0))
  refine ⟨ack, conn', hacks, hlost, ?_, ?_⟩
  · rw [acknowledgeFin_eq, callback_currentConnection, setState_currentConnection,
      setState_currentConnection, hconn]
    rfl
  · rw [acknowledgeFin_eq, callback_trace, setState_trace, setState_trace, htrace, hhandlers,
      List.append_assoc]

theorem received_moves (matched : received s packet = some (conn, tcp)) :
    MovesTo s conn (.processPacket packet sent)
      (perform s tcp sent (reactionOf conn.state tcp)) := by
  have hc := (received_some matched).2.1
  cases hr : reactionOf conn.state tcp with
  | ignore => exact ⟨[], conn, .ignored matched hr, hc, (List.append_nil _).symm⟩
  | synAck =>
    obtain ⟨hs, hflags⟩ := reactionOf_synAck hr
    exact synAck_moves sent matched hs hflags
  | data =>
    obtain ⟨hs, hflags, hpayload⟩ := reactionOf_takesData hr
    exact data_moves sent matched hs hflags hpayload
  | passiveClose =>
    obtain ⟨hs, hflags⟩ := reactionOf_passiveClose hr
    obtain ⟨ack, fin, conn₁, conn₂, hacks, hfins, hfailed, hlost, hconn, htrace⟩ :=
      passiveClose_effect sent matched
    exact ⟨_, _, .passiveClose matched hs hflags hacks hfins hfailed hlost, hconn, htrace⟩
  | finAcked =>
    obtain ⟨hs, hflags⟩ := reactionOf_finAcked hr
    refine ⟨[], _, .finAcked matched hs hflags, ?_, (List.append_nil _).symm⟩
    rw [perform, setState_currentConnection, hc, Option.map_some]
  | activeClose =>
    obtain ⟨hs, hflags⟩ := reactionOf_activeClose hr
    obtain ⟨ack, conn', hacks, hlost, hconn, htrace⟩ := activeClose_effect sent matched
    exact ⟨_, _, .activeClose matched hs hflags hacks hlost, hconn, htrace⟩
  | finalAck =>
    obtain ⟨hs, hflags⟩ := reactionOf_finalAck hr
    refine ⟨_, _, .finalAck matched hs hflags, ?_, ?_⟩
    · rw [perform, finishClose_currentConnection, hc, Option.map_some]
    · exact callback_trace _ _ _

end Received

theorem closeConnection_moves {s : TcpStack} {conn : TcpConnection} (sent : Int)
    (hc : s.currentConnection = some conn) :
    MovesTo s conn (.closeConnection sent) (closeConnection s sent).1 := by
  have hstate := getConnectionState_some hc
  have hidle : Move s conn (.closeConnection sent) [] conn := .idle (by simp [Unmatched]) (by simp)
  by_cases hest : conn.state = .established
  · have hclose {s' : TcpStack} {ok : Bool}
        (h : sendTcpPacket s (tcpFin ||| tcpAck) [] sent = (s', ok)) :
        closeConnection s sent = if ok then (setState s' .finWait1, true) else (s', false) := by
      simp only [closeConnection, hstate, hest, hc, h]
      cases ok <;> rfl
    obtain ⟨events, conn', hsends, hconn, htrace, hresult, -⟩ :=
      sendTcpPacket_sent (tcpFin ||| tcpAck) [] sent hc
    cases hsend : sendTcpPacket s (tcpFin ||| tcpAck) [] sent with
    | mk s' ok =>
      rw [hclose hsend]
      rw [hsend] at hconn htrace hresult
      cases hsends with
      | failed =>
        obtain rfl : ok = false := hresult.mpr rfl
        exact ⟨[], conn, hidle, hconn, htrace⟩
      | injected built =>
        have hok : ok ≠ false := fun h => absurd (hresult.mp h) (by simp)
        obtain rfl : ok = true := by simpa using hok
        refine ⟨_, _, .finSent hest built, ?_, htrace⟩
        show (setState s' .finWait1).currentConnection = _
        rw [setState_currentConnection, hconn]
        rfl
  · by_cases hclosed : conn.state = .closed
    · have h : closeConnection s sent = (s, true) := by
        simp [closeConnection, hstate, hclosed]
      exact ⟨[], conn, hidle, by rw [h]; exact hc, by rw [h, List.append_nil]⟩
    · have h : closeConnection s sent = (setState s .closed, true) := by
        simp [closeConnection, hc, hstate, hest, hclosed]
      refine ⟨[], _, .dropped hest, ?_, ?_⟩
      · rw [h, setState_currentConnection, hc, Option.map_some]
      · rw [h, List.append_nil]
        rfl

theorem sendData_moves {s : TcpStack} {conn : TcpConnection} (data : Bytes) (sent : Int)
    (hc : s.currentConnection = some conn) :
    MovesTo s conn (.sendData data sent) (sendData s data sent).1 := by
  by_cases hest : conn.state = .established
  · have hsendData := sendData_established data sent hc hest
    obtain ⟨events, conn', hsends, hconn, htrace, hresult, -⟩ :=
      sendTcpPacket_sent (tcpPsh ||| tcpAck) data sent hc
    rw [← hsendData] at hconn htrace hresult
    cases hsends with
    | failed => exact ⟨[], conn, .unsent (hresult.mpr rfl), hconn, htrace⟩
    | injected built =>
      have hok : (sendData s data sent).2 = true := by
        cases hb : (sendData s data sent).2 with
        | true => rfl
        | false => exact absurd (hresult.mp hb) (by simp)
      exact ⟨_, _, .sentData hest hok built, hconn, htrace⟩
  · have h := sendData_elsewhere data sent hc hest
    refine ⟨[], conn, .unsent (by rw [h]), by rw [h]; exact hc, ?_⟩
    rw [h, List.append_nil]

/-- The stack refines the automaton: while a connection is installed, each step is one of its
moves. -/
theorem step_moves {s : TcpStack} {conn : TcpConnection} {a : Action}
    (hc : s.currentConnection = some conn) (ha : a.keepsConnection = true) :
    MovesTo s conn a (step s a) := by
  have houtcome := step_outcome hc ha
  generalize hs' : step s a = s' at houtcome
  cases houtcome with
  | idle unmatched =>
    by_cases hdata : ∃ data sent, a = .sendData data sent
    · obtain ⟨data, sent, rfl⟩ := hdata
      have hmoves := sendData_moves data sent hc
      rw [show (sendData s data sent).1 = s from hs'] at hmoves
      exact hmoves
    · rw [not_exists] at hdata
      refine ⟨[], conn, .idle unmatched ?_, hc, (List.append_nil _).symm⟩
      intro data sent h
      exact hdata data ⟨sent, h⟩
  | @resentSyn w now later sent state due =>
    obtain ⟨events, conn', hsends, hconn, htrace, -⟩ := sendTcpPacket_sent tcpSyn [] sent hc
    exact ⟨events, conn', .resentSyn state hsends, hconn, htrace⟩
  | @sentData data sent state =>
    have hmoves := sendData_moves data sent hc
    rw [show (sendData s data sent).1 = _ from hs'] at hmoves
    exact hmoves
  | popped queue => exact ⟨_, _, .popped queue, hc, rfl⟩
  | @finNotSent sent | @finSent sent | @dropped sent =>
    have hmoves := closeConnection_moves sent hc
    rw [show (closeConnection s sent).1 = _ from hs'] at hmoves
    exact hmoves
  | reacted matched => exact received_moves _ matched

/-! Steps of a stack in general: `connect`, and operations without a connection. -/

/-- What a step leaves as the current connection, and what it records. -/
inductive Stage (s : TcpStack) : Action → Option TcpConnection → List Event → Prop
  | moved {a : Action} {conn conn' : TcpConnection} {events : List Event}
      (installed : s.currentConnection = some conn) (keeps : a.keepsConnection = true)
      (move : Move s conn a events conn') : Stage s a (some conn') events
  | alone {a : Action} {events : List Event} (absent : s.currentConnection = none)
      (keeps : a.keepsConnection = true) (taken : ∀ e ∈ events, ∃ data, e = .taken data) :
      Stage s a none events
  | refused {remoteIp : UInt32} {remotePort localPort : UInt16} {iss : UInt32} {filterSet : Bool}
      {sent : Int} :
      Stage s (.connect remoteIp remotePort localPort iss filterSet sent) s.currentConnection []
  | failed {remoteIp : UInt32} {remotePort localPort : UInt16} {iss : UInt32} {filterSet : Bool}
      {sent : Int} :
      Stage s (.connect remoteIp remotePort localPort iss filterSet sent) none [.opened]
  | connected {remoteIp : UInt32} {remotePort localPort : UInt16} {iss : UInt32}
      {filterSet : Bool} {sent : Int} {conn : TcpConnection} {frame : Bytes}
      (handle : s.pcapHandle = true) (built : FrameOf conn tcpSyn [] frame) :
      Stage s (.connect remoteIp remotePort localPort iss filterSet sent)
        (some { conn with seqNum := conn.seqNum + 1, state := .synSent }) [.opened, .injected frame]

theorem step_alone {s : TcpStack} {a : Action} (hc : s.currentConnection = none)
    (ha : a.keepsConnection = true) :
    step s a = s ∨ ∃ data rest, a = .waitForData ∧ s.dataQueue = data :: rest ∧
      step s a = log (setQueue s rest) (.taken data) := by
  cases a with
  | connect => simp [Action.keepsConnection] at ha
  | waitForConnectionPass w now later sent =>
    left
    have hdue : retransmitDue s w now = false := by simp [retransmitDue, hc]
    simp only [step, waitForConnectionPass, hc, hdue]
    rfl
  | sendData data sent => exact .inl (by simp [step, sendData, hc])
  | waitForData =>
    cases hq : s.dataQueue with
    | nil => exact .inl (by simp [step, waitForData, hq])
    | cons data rest => exact .inr ⟨data, rest, rfl, rfl, by simp [step, waitForData, hq]⟩
  | closeConnection sent => exact .inl (by simp [step, closeConnection, hc])
  | processPacket packet sent => exact .inl (by simp [step, processPacket, hc])

/-- The inversion lemma of `step` on any stack. -/
theorem step_stage (s : TcpStack) (a : Action) :
    ∃ connection events, Stage s a connection events ∧
      (step s a).currentConnection = connection ∧ (step s a).trace = s.trace ++ events := by
  cases ha : a.keepsConnection with
  | true =>
    cases hc : s.currentConnection with
    | some conn =>
      obtain ⟨events, conn', hmove, hconn, htrace⟩ := step_moves hc ha
      exact ⟨some conn', events, .moved hc ha hmove, hconn, htrace⟩
    | none =>
      rcases step_alone hc ha with h | ⟨data, rest, -, -, h⟩
      · exact ⟨none, [], .alone hc ha (by simp), by rw [h, hc], by rw [h, List.append_nil]⟩
      · exact ⟨none, [.taken data], .alone hc ha (by simp), by rw [h]; exact hc, by rw [h]; rfl⟩
  | false =>
    cases a with
    | connect remoteIp remotePort localPort iss filterSet sent =>
      rcases connect_cases s remoteIp remotePort localPort iss filterSet sent with
        h | ⟨id, h⟩ | ⟨hp, h⟩
      · exact ⟨_, [], .refused, by rw [step, h], by rw [step, h, List.append_nil]⟩
      · exact ⟨none, [.opened], .failed, by rw [step, h]; rfl, by rw [step, h]; rfl⟩
      · have built : FrameOf (newConnection s remoteIp remotePort localPort iss) tcpSyn [] _ :=
          ⟨log (setConnection s (some (newConnection s remoteIp remotePort localPort iss))) .opened,
            s.ipId + 1, rfl⟩
        refine ⟨_, _, .connected hp built, ?_, ?_⟩
        · rw [step, h]
          rfl
        · rw [step, h]
          exact List.append_assoc s.trace [.opened] _
    | _ => simp [Action.keepsConnection] at ha

/-! The settings of a stack outlast every run. -/

theorem perform_settings {s : TcpStack} {conn : TcpConnection} (tcp : TcpParser)
    (sent : Nat → Int) (r : Reaction) (hc : s.currentConnection = some conn) :
    settings (perform s tcp sent r) = settings s := by
  have hfin : settings (finAcknowledged s tcp sent) = settings s :=
    sendTcpPacket_settings _ tcpAck [] (sent 0)
  cases r with
  | ignore | finAcked => rfl
  | synAck =>
    rcases acceptSynAck_cases s tcp sent hc with ⟨id, h⟩ | ⟨frame, h, -⟩
    · rw [perform, h]
      rfl
    · rw [perform, h, callback_settings]
      rfl
  | data =>
    rw [perform, takeData_eq, callback_settings]
    exact sendTcpPacket_settings _ tcpAck [] (sent 0)
  | passiveClose =>
    rw [perform, passiveClose_eq]
    exact (sendTcpPacket_settings _ (tcpFin ||| tcpAck) [] (sent 1)).trans hfin
  | activeClose =>
    rw [perform, acknowledgeFin_eq, callback_settings]
    exact hfin
  | finalAck => exact callback_settings _ _ _

theorem step_settings (s : TcpStack) (a : Action) : settings (step s a) = settings s := by
  cases ha : a.keepsConnection with
  | false =>
    cases a with
    | connect remoteIp remotePort localPort iss filterSet sent =>
      rcases connect_cases s remoteIp remotePort localPort iss filterSet sent with
        h | ⟨id, h⟩ | ⟨-, h⟩
      · rw [step, h]
      · rw [step, h]
        rfl
      · rw [step, h]
        rfl
    | _ => simp [Action.keepsConnection] at ha
  | true =>
    cases hc : s.currentConnection with
    | none =>
      rcases step_alone hc ha with h | ⟨data, rest, -, -, h⟩
      · rw [h]
      · rw [h]
        rfl
    | some conn =>
      have houtcome := step_outcome hc ha
      generalize step s a = s' at houtcome
      cases houtcome with
      | idle | popped | dropped => rfl
      | resentSyn => exact sendTcpPacket_settings s tcpSyn [] _
      | sentData => exact sendTcpPacket_settings s (tcpPsh ||| tcpAck) _ _
      | finNotSent | finSent => exact sendTcpPacket_settings s (tcpFin ||| tcpAck) [] _
      | reacted => exact perform_settings _ _ _ hc

end MyTelnet.Stack.Moves
