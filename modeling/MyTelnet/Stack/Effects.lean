/- module: MyTelnet/Stack/Effects
   scope: proofs
   digest: What sending and each reaction to a segment do, one lemma for each. -/

import MyTelnet.Stack.Run

set_option autoImplicit false
set_option relaxedAutoImplicit false

namespace MyTelnet.Stack.Effects

open MyTelnet.Base.ByteOrder MyTelnet.Base.Runs MyTelnet.Wire.Layers
open MyTelnet.Stack.State MyTelnet.Stack.Send MyTelnet.Stack.Operations MyTelnet.Stack.Receive
open MyTelnet.Stack.Run

/-! Sending. A failed injection leaves only the identification counter changed. -/

/-- The stack after a successful injection. -/
def afterSend (s : TcpStack) (conn : TcpConnection) (flags : UInt16) (payload : Bytes) :
    TcpStack :=
  log (setConnection (setIpId s (s.ipId + 1)) (some (advanceSeq conn flags payload)))
    (.injected (buildFrame s conn (s.ipId + 1) flags payload))

theorem sendTcpPacket_ok {s : TcpStack} {conn : TcpConnection} (flags : UInt16) (payload : Bytes)
    {sent : Int} (hc : s.currentConnection = some conn) (hp : s.pcapHandle = true)
    (hs : sent ≠ -1) :
    sendTcpPacket s flags payload sent = (afterSend s conn flags payload, true) := by
  simp only [sendTcpPacket, hc, hp, hs, Bool.not_true, Bool.false_eq_true, if_false]
  rfl

theorem sendTcpPacket_failed (s : TcpStack) (flags : UInt16) (payload : Bytes) :
    ∃ id, sendTcpPacket s flags payload (-1) = (setIpId s id, false) := by
  obtain hc | ⟨conn, hc⟩ := Option.eq_none_or_eq_some s.currentConnection
  · exact ⟨s.ipId, by simp only [sendTcpPacket, hc]; rfl⟩
  · by_cases hp : s.pcapHandle = true
    · exact ⟨s.ipId + 1, by simp [sendTcpPacket, hc, hp]⟩
    · exact ⟨s.ipId, by simp only [sendTcpPacket, hc, hp]; rfl⟩

theorem sendTcpPacket_cases (s : TcpStack) (flags : UInt16) (payload : Bytes) (sent : Int) :
    (∃ id, sendTcpPacket s flags payload sent = (setIpId s id, false)) ∨
    ∃ conn, s.currentConnection = some conn ∧ s.pcapHandle = true ∧ sent ≠ -1 ∧
      sendTcpPacket s flags payload sent = (afterSend s conn flags payload, true) := by
  by_cases hs : sent = -1
  · exact .inl (hs ▸ sendTcpPacket_failed s flags payload)
  · obtain hc | ⟨conn, hc⟩ := Option.eq_none_or_eq_some s.currentConnection
    · exact .inl ⟨s.ipId, by simp only [sendTcpPacket, hc]; rfl⟩
    · by_cases hp : s.pcapHandle = true
      · exact .inr ⟨conn, hc, hp, hs, sendTcpPacket_ok flags payload hc hp hs⟩
      · exact .inl ⟨s.ipId, by simp only [sendTcpPacket, hc, hp]; rfl⟩

/-- A pure ACK consumes no sequence number. -/
theorem advanceSeq_ack (conn : TcpConnection) : advanceSeq conn tcpAck [] = conn := by
  simp [advanceSeq, show (tcpAck &&& tcpSyn != 0 || tcpAck &&& tcpFin != 0) = false from rfl]

theorem advanceSeq_data (conn : TcpConnection) (data : Bytes) :
    advanceSeq conn (tcpPsh ||| tcpAck) data =
      { conn with seqNum := conn.seqNum + UInt32.ofNat data.length } := by
  have hflags : ((tcpPsh ||| tcpAck) &&& tcpSyn != 0 || (tcpPsh ||| tcpAck) &&& tcpFin != 0) =
      false := rfl
  rw [advanceSeq, hflags]
  cases data with
  | nil => simp
  | cons byte rest => simp

/-- Two connections that differ in `seq_num` alone, which is all that sending touches. -/
def SameButSeq (conn conn' : TcpConnection) : Prop := conn' = { conn with seqNum := conn'.seqNum }

theorem SameButSeq.refl (conn : TcpConnection) : SameButSeq conn conn := Eq.refl conn

theorem advanceSeq_same (conn : TcpConnection) (flags : UInt16) (payload : Bytes) :
    SameButSeq conn (advanceSeq conn flags payload) := by
  unfold advanceSeq SameButSeq
  dsimp only
  split <;> split <;> rfl

section Sent

variable (s : TcpStack) (flags : UInt16) (payload : Bytes) (sent : Int)

@[simp] theorem sendTcpPacket_dataQueue :
    (sendTcpPacket s flags payload sent).1.dataQueue = s.dataQueue := by
  obtain ⟨id, h⟩ | ⟨conn, -, -, -, h⟩ := sendTcpPacket_cases s flags payload sent
  · rw [h]; rfl
  · rw [h]; rfl

@[simp] theorem sendTcpPacket_pcapHandle :
    (sendTcpPacket s flags payload sent).1.pcapHandle = s.pcapHandle := by
  obtain ⟨id, h⟩ | ⟨conn, -, -, -, h⟩ := sendTcpPacket_cases s flags payload sent
  · rw [h]; rfl
  · rw [h]; rfl

/-- Sending adds nothing to a history that does not look at frames. -/
theorem history_sendTcpPacket {β : Type} {view : Event → Option β}
    (hv : ∀ frame, view (.injected frame) = none) :
    history view (sendTcpPacket s flags payload sent).1 = history view s := by
  obtain ⟨id, h⟩ | ⟨conn, -, -, -, h⟩ := sendTcpPacket_cases s flags payload sent
  · rw [h, history_setIpId]
  · rw [h, afterSend, history_log, hv, history_setConnection, history_setIpId,
      Option.toList_none, List.append_nil]

@[simp] theorem queuedVectors_sendTcpPacket :
    queuedVectors (sendTcpPacket s flags payload sent).1 = queuedVectors s :=
  history_sendTcpPacket s flags payload sent fun _ => rfl

@[simp] theorem takenVectors_sendTcpPacket :
    takenVectors (sendTcpPacket s flags payload sent).1 = takenVectors s :=
  history_sendTcpPacket s flags payload sent fun _ => rfl

@[simp] theorem receivedFins_sendTcpPacket :
    history Event.receivedFin? (sendTcpPacket s flags payload sent).1 =
      history Event.receivedFin? s :=
  history_sendTcpPacket s flags payload sent fun _ => rfl

@[simp] theorem sendTcpPacket_ack_currentConnection :
    (sendTcpPacket s tcpAck [] sent).1.currentConnection = s.currentConnection := by
  obtain ⟨id, h⟩ | ⟨conn, hc, -, -, h⟩ := sendTcpPacket_cases s tcpAck [] sent
  · rw [h]; rfl
  · rw [h, afterSend, log_currentConnection, setConnection_currentConnection, advanceSeq_ack, hc]

theorem sendTcpPacket_currentConnection {conn : TcpConnection}
    (hc : s.currentConnection = some conn) :
    ∃ conn', (sendTcpPacket s flags payload sent).1.currentConnection = some conn' ∧
      SameButSeq conn conn' := by
  obtain ⟨id, h⟩ | ⟨conn₁, hc₁, -, -, h⟩ := sendTcpPacket_cases s flags payload sent
  · exact ⟨conn, by rw [h]; exact hc, SameButSeq.refl conn⟩
  · obtain rfl : conn₁ = conn := Option.some.inj (hc₁.symm.trans hc)
    exact ⟨_, by rw [h]; rfl, advanceSeq_same conn₁ flags payload⟩

end Sent

end MyTelnet.Stack.Effects
