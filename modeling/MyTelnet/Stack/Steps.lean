/- module: MyTelnet/Stack/Steps
   scope: proofs
   digest: Every step a connection can take, and what no step changes about it. -/

import MyTelnet.Stack.Reactions

set_option autoImplicit false
set_option relaxedAutoImplicit false

namespace MyTelnet.Stack.Steps

open MyTelnet.Base.ByteOrder MyTelnet.Base.Runs MyTelnet.Wire.Layers
open MyTelnet.Stack.State MyTelnet.Stack.Send MyTelnet.Stack.Operations MyTelnet.Stack.Receive
open MyTelnet.Stack.Run MyTelnet.Stack.Effects MyTelnet.Stack.Reactions

/-- No packet of this action gets as far as the switch of `process_packet`. -/
def Unmatched (s : TcpStack) (a : Action) : Prop :=
  ∀ packet sent, a = .processPacket packet sent → received s packet = none

/-- The outcomes of a step on a stack that holds `conn`. -/
inductive Outcome (s : TcpStack) (conn : TcpConnection) : Action → TcpStack → Prop
  | idle {a : Action} (unmatched : Unmatched s a) : Outcome s conn a s
  | resentSyn {w : WaitLocals} {now later sent : Int} (state : conn.state = .synSent)
      (due : retransmitDue s w now = true) :
      Outcome s conn (.waitForConnectionPass w now later sent) (sendTcpPacket s tcpSyn [] sent).1
  | sentData {data : Bytes} {sent : Int} (state : conn.state = .established) :
      Outcome s conn (.sendData data sent) (sendTcpPacket s (tcpPsh ||| tcpAck) data sent).1
  | popped {data : Bytes} {rest : List Bytes} (queue : s.dataQueue = data :: rest) :
      Outcome s conn .waitForData (log (setQueue s rest) (.taken data))
  | finNotSent {sent : Int} (state : conn.state = .established)
      (failed : (sendTcpPacket s (tcpFin ||| tcpAck) [] sent).2 = false) :
      Outcome s conn (.closeConnection sent) (sendTcpPacket s (tcpFin ||| tcpAck) [] sent).1
  | finSent {sent : Int} (state : conn.state = .established) :
      Outcome s conn (.closeConnection sent)
        (setState (sendTcpPacket s (tcpFin ||| tcpAck) [] sent).1 .finWait1)
  | dropped {sent : Int} : Outcome s conn (.closeConnection sent) (setState s .closed)
  | reacted {packet : Packet} {sent : Nat → Int} {tcp : TcpParser}
      (matched : received s packet = some (conn, tcp)) :
      Outcome s conn (.processPacket packet sent)
        (perform s tcp sent (reactionOf conn.state tcp))

theorem getConnectionState_some {s : TcpStack} {conn : TcpConnection}
    (hc : s.currentConnection = some conn) : getConnectionState s = conn.state := by
  rw [getConnectionState, hc]

/-! `send_data` looks at the state alone. -/

section SendData

variable {s : TcpStack} {conn : TcpConnection} (data : Bytes) (sent : Int)

theorem sendData_established (hc : s.currentConnection = some conn)
    (hest : conn.state = .established) :
    sendData s data sent = sendTcpPacket s (tcpPsh ||| tcpAck) data sent := by
  simp [sendData, hc, getConnectionState_some hc, hest]

theorem sendData_elsewhere (hc : s.currentConnection = some conn)
    (hest : conn.state ≠ .established) : sendData s data sent = (s, false) := by
  simp [sendData, hc, getConnectionState_some hc, hest]

end SendData

theorem step_retransmitDue {s : TcpStack} {w : WaitLocals} {now : Int} (later sent : Int)
    (hdue : retransmitDue s w now = true) :
    step s (.waitForConnectionPass w now later sent) = (sendTcpPacket s tcpSyn [] sent).1 := by
  have hsyn : getConnectionState s = .synSent := by
    simp only [retransmitDue, Bool.and_eq_true, beq_iff_eq] at hdue
    exact hdue.1.1.2
  have hest : (s.currentConnection.isSome && getConnectionState s == .established) = false := by
    rw [hsyn]
    exact Bool.and_false _
  simp only [step, waitForConnectionPass, hest, hdue, if_true, Bool.false_eq_true, if_false]
  cases sendTcpPacket s tcpSyn [] sent with
  | mk s' ok => cases ok <;> rfl

/-! What each operation can do to a stack that holds a connection. -/

section Outcomes

variable {s : TcpStack} {conn : TcpConnection}

theorem waitForConnectionPass_outcome (hc : s.currentConnection = some conn) (w : WaitLocals)
    (now later sent : Int) :
    Outcome s conn (.waitForConnectionPass w now later sent)
      (step s (.waitForConnectionPass w now later sent)) := by
  by_cases hest : (s.currentConnection.isSome && getConnectionState s == .established) = true
  · have h : step s (.waitForConnectionPass w now later sent) = s := by
      simp only [step, waitForConnectionPass, hest, if_true]
    exact h.symm ▸ .idle (by simp [Unmatched])
  · by_cases hdue : retransmitDue s w now = true
    · have h := step_retransmitDue later sent hdue
      have hsyn : conn.state = .synSent := by
        simp only [retransmitDue, getConnectionState_some hc, Bool.and_eq_true, beq_iff_eq] at hdue
        exact hdue.1.1.2
      exact h.symm ▸ .resentSyn hsyn hdue
    · have h : step s (.waitForConnectionPass w now later sent) = s := by
        simp only [step, waitForConnectionPass, hest, hdue]
        rfl
      exact h.symm ▸ .idle (by simp [Unmatched])

theorem sendData_outcome (hc : s.currentConnection = some conn) (data : Bytes) (sent : Int) :
    Outcome s conn (.sendData data sent) (step s (.sendData data sent)) := by
  by_cases hest : conn.state = .established
  · have h : step s (.sendData data sent) =
        (sendTcpPacket s (tcpPsh ||| tcpAck) data sent).1 := by
      rw [step, sendData_established data sent hc hest]
    exact h.symm ▸ .sentData hest
  · have h : step s (.sendData data sent) = s := by
      rw [step, sendData_elsewhere data sent hc hest]
    exact h.symm ▸ .idle (by simp [Unmatched])

theorem waitForData_outcome (s : TcpStack) (conn : TcpConnection) :
    Outcome s conn .waitForData (step s .waitForData) := by
  cases hq : s.dataQueue with
  | nil =>
    have h : step s .waitForData = s := by simp [step, waitForData, hq]
    exact h.symm ▸ .idle (by simp [Unmatched])
  | cons data rest =>
    have h : step s .waitForData = log (setQueue s rest) (.taken data) := by
      simp [step, waitForData, hq]
    exact h.symm ▸ .popped hq

theorem closeConnection_outcome (hc : s.currentConnection = some conn) (sent : Int) :
    Outcome s conn (.closeConnection sent) (step s (.closeConnection sent)) := by
  have hstate := getConnectionState_some hc
  by_cases hclosed : conn.state = .closed
  · have h : step s (.closeConnection sent) = s := by
      simp [step, closeConnection, hstate, hclosed]
    exact h.symm ▸ .idle (by simp [Unmatched])
  by_cases hest : conn.state = .established
  · cases hsend : sendTcpPacket s (tcpFin ||| tcpAck) [] sent with
    | mk s' ok =>
      have hs' : s' = (sendTcpPacket s (tcpFin ||| tcpAck) [] sent).1 := by rw [hsend]
      cases ok with
      | false =>
        have h : step s (.closeConnection sent) = s' := by
          simp [step, closeConnection, hc, hstate, hest, hsend]
        rw [h, hs']
        exact .finNotSent hest (by rw [hsend])
      | true =>
        have h : step s (.closeConnection sent) = setState s' .finWait1 := by
          simp [step, closeConnection, hc, hstate, hest, hsend]
        rw [h, hs']
        exact .finSent hest
  · have h : step s (.closeConnection sent) = setState s .closed := by
      simp [step, closeConnection, hc, hstate, hest, hclosed]
    exact h.symm ▸ .dropped

theorem processPacket_outcome (hc : s.currentConnection = some conn) (packet : Packet)
    (sent : Nat → Int) :
    Outcome s conn (.processPacket packet sent) (step s (.processPacket packet sent)) := by
  cases hr : received s packet with
  | none =>
    have h : step s (.processPacket packet sent) = s := processPacket_none sent hr
    exact h.symm ▸ .idle (fun _ _ ha => by cases ha; exact hr)
  | some pair =>
    obtain ⟨conn', tcp⟩ := pair
    obtain rfl : conn' = conn := Option.some.inj ((received_some hr).2.1.symm.trans hc)
    have h : step s (.processPacket packet sent) =
        perform s tcp sent (reactionOf conn'.state tcp) := processPacket_received sent hr
    exact h.symm ▸ .reacted hr

/-- The inversion lemma of `step`. -/
theorem step_outcome {a : Action} (hc : s.currentConnection = some conn)
    (ha : a.keepsConnection = true) : Outcome s conn a (step s a) := by
  cases a with
  | connect => simp [Action.keepsConnection] at ha
  | waitForConnectionPass w now later sent =>
    exact waitForConnectionPass_outcome hc w now later sent
  | sendData data sent => exact sendData_outcome hc data sent
  | waitForData => exact waitForData_outcome s conn
  | closeConnection sent => exact closeConnection_outcome hc sent
  | processPacket packet sent => exact processPacket_outcome hc packet sent

end Outcomes

/-- Frames once injected stay in the record. -/
theorem step_injects {s : TcpStack} {conn : TcpConnection} {a : Action}
    (hc : s.currentConnection = some conn) (ha : a.keepsConnection = true) :
    Injects (fun _ => True) s (step s a) := by
  have hsend (flags : UInt16) (payload : Bytes) (sent : Int) :
      Injects (fun _ => True) s (sendTcpPacket s flags payload sent).1 :=
    .send s flags payload sent fun _ _ => trivial
  generalize hs' : step s a = s'
  have houtcome : Outcome s conn a s' := hs' ▸ step_outcome hc ha
  cases houtcome with
  | idle => exact .of_eq rfl
  | resentSyn => exact hsend _ _ _
  | sentData => exact hsend _ _ _
  | popped => exact .of_eq (by simp [Event.frame?])
  | finNotSent => exact hsend _ _ _
  | finSent => exact (hsend _ _ _).trans (.of_eq (history_setState _ _ _))
  | dropped => exact .of_eq (history_setState _ _ _)
  | @reacted packet sent tcp matched =>
    obtain ⟨frames, hinj, -⟩ := perform_injects s tcp sent (reactionOf conn.state tcp) hc
    exact ⟨frames, hinj, fun _ _ => trivial⟩

/-- A change made without a segment: `seq_num` may move, and the state only towards the close. -/
structure LocalChange (conn conn' : TcpConnection) : Prop where
  fields : conn' = { conn with seqNum := conn'.seqNum, state := conn'.state }
  state : conn'.state = conn.state ∨
    conn.state = .established ∧ conn'.state = .finWait1 ∨ conn'.state = .closed

theorem LocalChange.of_sameButSeq {conn conn' : TcpConnection} (h : SameButSeq conn conn') :
    LocalChange conn conn' :=
  ⟨by rw [h], .inl (by rw [h])⟩

theorem LocalChange.setState {conn conn' : TcpConnection} {state : TcpState}
    (h : SameButSeq conn conn')
    (hs : conn.state = .established ∧ state = .finWait1 ∨ state = .closed) :
    LocalChange conn { conn' with state := state } :=
  ⟨by rw [h], .inr hs⟩

/-- A step as the invariants about the peer's stream see it: either the connection keeps what it
knows of the peer and nothing is pushed, or a segment was received and its reaction performed. -/
theorem step_connection {s : TcpStack} {conn : TcpConnection} {a : Action}
    (hc : s.currentConnection = some conn) (ha : a.keepsConnection = true) :
    ∃ conn', (step s a).currentConnection = some conn' ∧
      (LocalChange conn conn' ∧ queuedVectors (step s a) = queuedVectors s ∧
          history Event.receivedFin? (step s a) = history Event.receivedFin? s ∧
          Unmatched s a ∨
        ∃ packet sent tcp acked, a = .processPacket packet sent ∧
          received s packet = some (conn, tcp) ∧
          SameButSeq (reacted conn tcp acked (reactionOf conn.state tcp)) conn' ∧
          queuedVectors (step s a) =
            queuedVectors s ++ (reactionOf conn.state tcp).pushed tcp ∧
          history Event.receivedFin? (step s a) =
            history Event.receivedFin? s ++ (reactionOf conn.state tcp).fins) := by
  have hsame : LocalChange conn conn := ⟨rfl, .inl rfl⟩
  generalize hs' : step s a = s'
  have houtcome : Outcome s conn a s' := hs' ▸ step_outcome hc ha
  cases houtcome with
  | idle unmatched => exact ⟨conn, hc, .inl ⟨hsame, rfl, rfl, unmatched⟩⟩
  | resentSyn =>
    obtain ⟨conn', hc', h⟩ := sendTcpPacket_currentConnection s tcpSyn [] _ hc
    exact ⟨conn', hc', .inl ⟨.of_sameButSeq h, by simp, by simp, by simp [Unmatched]⟩⟩
  | sentData =>
    obtain ⟨conn', hc', h⟩ := sendTcpPacket_currentConnection s (tcpPsh ||| tcpAck) _ _ hc
    exact ⟨conn', hc', .inl ⟨.of_sameButSeq h, by simp, by simp, by simp [Unmatched]⟩⟩
  | popped =>
    refine ⟨conn, hc, .inl ⟨hsame, ?_, ?_, by simp [Unmatched]⟩⟩
    · simp [Event.queued?]
    · simp [Event.receivedFin?]
  | finNotSent =>
    obtain ⟨conn', hc', h⟩ := sendTcpPacket_currentConnection s (tcpFin ||| tcpAck) [] _ hc
    exact ⟨conn', hc', .inl ⟨.of_sameButSeq h, by simp, by simp, by simp [Unmatched]⟩⟩
  | finSent state =>
    obtain ⟨conn', hc', h⟩ := sendTcpPacket_currentConnection s (tcpFin ||| tcpAck) [] _ hc
    have hlocal : LocalChange conn { conn' with state := .finWait1 } :=
      .setState h (.inl ⟨state, rfl⟩)
    refine ⟨{ conn' with state := .finWait1 }, ?_, .inl ⟨hlocal, ?_, ?_, by simp [Unmatched]⟩⟩
    · rw [setState_currentConnection, hc', Option.map_some]
    · simp
    · simp
  | dropped =>
    have hlocal : LocalChange conn { conn with state := .closed } :=
      .setState (.refl conn) (.inr rfl)
    refine ⟨{ conn with state := .closed }, ?_, .inl ⟨hlocal, ?_, ?_, by simp [Unmatched]⟩⟩
    · rw [setState_currentConnection, hc, Option.map_some]
    · simp
    · simp
  | @reacted packet sent tcp matched =>
    obtain ⟨acked, seqNum, hconn, -⟩ :=
      perform_currentConnection s tcp sent (reactionOf conn.state tcp) hc
    exact ⟨_, hconn, .inr ⟨packet, sent, tcp, acked, rfl, matched, rfl,
      queuedVectors_perform s tcp sent _ hc, receivedFins_perform s tcp sent _ hc⟩⟩

theorem step_keeps {s : TcpStack} {conn : TcpConnection} {a : Action}
    (hc : s.currentConnection = some conn) (ha : a.keepsConnection = true) :
    ∃ conn', (step s a).currentConnection = some conn' := by
  obtain ⟨conn', hc', -⟩ := step_connection hc ha
  exact ⟨conn', hc'⟩

theorem run_injects {s : TcpStack} {conn : TcpConnection} {acts : List Action}
    (hc : s.currentConnection = some conn) (ha : ∀ a ∈ acts, a.keepsConnection = true) :
    Injects (fun _ => True) s (runStack s acts) := by
  induction acts generalizing s conn with
  | nil => exact .of_eq rfl
  | cons a acts ih =>
    rw [List.forall_mem_cons] at ha
    obtain ⟨conn', hc'⟩ := step_keeps hc ha.1
    exact (step_injects hc ha.1).trans (ih hc' ha.2)

/-- A connection past the handshake stays past it and keeps its four-tuple and `remote_seq_num`. -/
structure SameConnection (conn conn' : TcpConnection) : Prop where
  localIp : conn'.localIp = conn.localIp
  localPort : conn'.localPort = conn.localPort
  remoteIp : conn'.remoteIp = conn.remoteIp
  remotePort : conn'.remotePort = conn.remotePort
  remoteSeqNum : conn'.remoteSeqNum = conn.remoteSeqNum
  state : conn'.state ≠ .synSent

theorem SameConnection.trans {conn conn' conn'' : TcpConnection} (h : SameConnection conn conn')
    (h' : SameConnection conn' conn'') : SameConnection conn conn'' :=
  ⟨h'.localIp.trans h.localIp, h'.localPort.trans h.localPort, h'.remoteIp.trans h.remoteIp,
    h'.remotePort.trans h.remotePort, h'.remoteSeqNum.trans h.remoteSeqNum, h'.state⟩

theorem reactionOf_ne_synAck {state : TcpState} (tcp : TcpParser) (h : state ≠ .synSent) :
    reactionOf state tcp ≠ .synAck := by
  cases state <;> simp only [reactionOf] <;> (repeat' split) <;> simp_all

theorem reacted_sameConnection {conn : TcpConnection} (tcp : TcpParser) (acked : Bool)
    (h : conn.state ≠ .synSent) :
    SameConnection conn (reacted conn tcp acked (reactionOf conn.state tcp)) := by
  have hne := reactionOf_ne_synAck tcp h
  cases hr : reactionOf conn.state tcp with
  | synAck => exact absurd hr hne
  | ignore | data => exact ⟨rfl, rfl, rfl, rfl, rfl, h⟩
  | passiveClose | finAcked | activeClose | finalAck =>
    exact ⟨rfl, rfl, rfl, rfl, rfl, by simp [reacted]⟩

theorem step_sameConnection {s : TcpStack} {conn : TcpConnection} {a : Action}
    (hc : s.currentConnection = some conn) (hs : conn.state ≠ .synSent)
    (ha : a.keepsConnection = true) :
    ∃ conn', (step s a).currentConnection = some conn' ∧ SameConnection conn conn' := by
  obtain ⟨conn', hc', ⟨hlocal, -, -⟩ | ⟨packet, sent, tcp, acked, -, -, hsame, -, -⟩⟩ :=
    step_connection hc ha
  · refine ⟨conn', hc', ?_⟩
    rw [hlocal.fields]
    refine ⟨rfl, rfl, rfl, rfl, rfl, ?_⟩
    rcases hlocal.state with h | ⟨-, h⟩ | h
    · exact h ▸ hs
    · simp [h]
    · simp [h]
  · refine ⟨conn', hc', ?_⟩
    rw [hsame]
    obtain ⟨h₁, h₂, h₃, h₄, h₅, h₆⟩ := reacted_sameConnection tcp acked hs
    exact ⟨h₁, h₂, h₃, h₄, h₅, h₆⟩

end MyTelnet.Stack.Steps
