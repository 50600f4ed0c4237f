/- module: MyTelnet/Stack/Consumption
   scope: proofs
   digest: Which segments at ack_num an established connection consumes whole. -/

import MyTelnet.Stack.Grammar
import MyTelnet.Stack.Stream
import MyTelnet.Stack.TwoStacks

set_option autoImplicit false
set_option relaxedAutoImplicit false

namespace MyTelnet.Stack.Consumption

open MyTelnet.Base.ByteOrder MyTelnet.Base.Runs MyTelnet.Wire.Layers
open MyTelnet.Stack.State MyTelnet.Stack.Send MyTelnet.Stack.Receive MyTelnet.Stack.Run
open MyTelnet.Stack.Frames MyTelnet.Stack.Effects MyTelnet.Stack.Reactions MyTelnet.Stack.Steps
open MyTelnet.Stack.Handshake MyTelnet.Stack.Stream MyTelnet.Stack.TwoStacks MyTelnet.Stack.Moves
open MyTelnet.Stack.Grammar

/-- The number that follows the segment: behind its payload, and behind its FIN. -/
def segmentEnd (tcp : TcpParser) : UInt32 :=
  tcp.sequenceNumber + UInt32.ofNat tcp.payloadLength + if tcp.isFin then 1 else 0

/-- The stack has consumed the segment: it has pushed the payload, acknowledged all of it and
gone to LAST_ACK if there was a FIN. -/
structure Consumes (s s' : TcpStack) (tcp : TcpParser) : Prop where
  queue : s'.dataQueue = s.dataQueue ++ if tcp.payload = [] then [] else [tcp.payload]
  ackNum : s'.currentConnection.map (·.ackNum) = some (segmentEnd tcp)
  answered : tcp.payload ≠ [] ∨ tcp.isFin = true → ∃ frame ∈ framesSince s s',
    frameFlags frame = tcpAck ∧ frameAck frame = segmentEnd tcp
  state : getConnectionState s' = .lastAck ↔ tcp.isFin = true

theorem received_fourTuple {s : TcpStack} {conn : TcpConnection} {packet : Packet}
    {tcp : TcpParser} (hc : s.currentConnection = some conn) (ht : packet.tcp = some tcp)
    (h : isFourTuple conn packet = true) : received s packet = some (conn, tcp) := by
  obtain hi | ⟨ip, hi⟩ := Option.eq_none_or_eq_some packet.ipv4
  · simp [isFourTuple, hi] at h
  · simp only [isFourTuple, hi, ht] at h
    have hmatch : isPacketForConnection s packet = true := by
      simp only [isPacketForConnection, hi, ht, hc, h, Bool.true_or]
    simp only [received, hmatch, hc, ht, if_true]

section Cases

variable {s : TcpStack} {conn : TcpConnection} {packet : Packet} {tcp : TcpParser}
variable {sent : Nat → Int}

theorem segmentEnd_of_noFin (h : tcp.isFin = false) :
    segmentEnd tcp = tcp.sequenceNumber + UInt32.ofNat tcp.payloadLength := by
  rw [segmentEnd, h]
  exact UInt32.add_zero _

/-- The data branch. -/
theorem consumes_data (h : Ready s conn) (hr : received s packet = some (conn, tcp))
    (hsent : ∀ n, sent n ≠ -1) (hreact : reactionOf conn.state tcp = .data) :
    Consumes s (processPacket s packet sent) tcp ↔ tcp.isFin = false := by
  obtain ⟨-, -, hpayload⟩ := reactionOf_takesData hreact
  have hstep : processPacket s packet sent = takeData s tcp sent := by
    rw [processPacket_received sent hr, hreact]
    rfl
  obtain ⟨s', id, hframes⟩ := framesSince_takeData tcp h.connection h.handle (hsent 0)
  have hstate : getConnectionState (takeData s tcp sent) = .established := by
    rw [getConnectionState, takeData_currentConnection, h.connection]
    exact h.state
  rw [hstep]
  constructor
  · intro hall
    cases hfin : tcp.isFin with
    | false => rfl
    | true =>
      have hlast := hall.state.mpr hfin
      rw [hstate] at hlast
      exact absurd hlast (by simp)
  · intro hfin
    refine ⟨?_, ?_, ?_, ?_⟩
    · rw [if_neg hpayload]
      exact perform_dataQueue s tcp sent .data h.connection
    · rw [takeData_currentConnection, h.connection, segmentEnd_of_noFin hfin]
      rfl
    · intro _
      rw [hframes, segmentEnd_of_noFin hfin]
      exact ⟨_, List.mem_singleton.mpr rfl, frameFlags_buildFrame _ _ _ _ _,
        frameAck_buildFrame _ _ _ _ _⟩
    · rw [hstate, hfin]
      simp

/-- The FIN branch. -/
theorem consumes_passiveClose (h : Ready s conn) (hr : received s packet = some (conn, tcp))
    (hsent : ∀ n, sent n ≠ -1) (hreact : reactionOf conn.state tcp = .passiveClose) :
    Consumes s (processPacket s packet sent) tcp ↔ tcp.payload = [] := by
  obtain ⟨hs, hfin, hack, hpsh⟩ := reactionOf_passiveClose hreact
  have hstep : processPacket s packet sent = passiveClose s tcp sent := by
    rw [processPacket_received sent hr, hreact]
    rfl
  have hqueue : (passiveClose s tcp sent).dataQueue = s.dataQueue :=
    (perform_dataQueue s tcp sent .passiveClose h.connection).trans (List.append_nil _)
  obtain ⟨ack, fin, conn₁, conn₂, hacks, hfins, -, hlost, hconn, htrace⟩ :=
    passiveClose_effect sent hr
  have hstate : getConnectionState (passiveClose s tcp sent) = .lastAck :=
    getConnectionState_some hconn
  rw [hstep]
  constructor
  · intro hall
    have hsame := hall.queue
    rw [hqueue] at hsame
    by_contra hne
    rw [if_neg hne] at hsame
    simp at hsame
  · intro hnil
    have hend : segmentEnd tcp = tcp.sequenceNumber + 1 := by
      rw [segmentEnd, hfin, TcpParser.payloadLength, hnil]
      exact congrArg (· + 1) (UInt32.add_zero _)
    refine ⟨?_, ?_, ?_, ?_⟩
    · rw [if_pos hnil, List.append_nil]
      exact hqueue
    · have hack₂ : conn₂.ackNum = tcp.sequenceNumber + 1 := by
        rw [Sent.ackNum hfins, Sent.ack hacks]
      rw [hconn, hend, ← hack₂]
      rfl
    · intro _
      rw [hend]
      cases hacks with
      | failed =>
        have hno := hlost.mp rfl
        rw [h.handle] at hno
        exact absurd hno (by simp [hsent 0])
      | @injected frame built =>
        have hinj : injectedFrames (passiveClose s tcp sent) =
            injectedFrames s ++ (frame :: frames fin) :=
          injectedFrames_of_trace htrace
        rw [framesSince_eq hinj]
        exact ⟨frame, List.mem_cons_self, built.flags, built.ack⟩
    · rw [hstate, hfin]
      simp

/-- A segment that is ignored. -/
theorem consumes_ignore (h : Ready s conn) (hr : received s packet = some (conn, tcp))
    (hseq : tcp.sequenceNumber = conn.ackNum) (hreact : reactionOf conn.state tcp = .ignore) :
    Consumes s (processPacket s packet sent) tcp ↔ tcp.payload = [] ∧ tcp.isFin = false := by
  have hstep : processPacket s packet sent = s := by
    rw [processPacket_received sent hr, hreact]
    rfl
  have hstate : getConnectionState s = .established :=
    (getConnectionState_some h.connection).trans h.state
  rw [hstep]
  constructor
  · intro hall
    constructor
    · have hsame := hall.queue
      by_contra hne
      rw [if_neg hne] at hsame
      simp at hsame
    · cases hfin : tcp.isFin with
      | false => rfl
      | true =>
        have hlast := hall.state.mpr hfin
        rw [hstate] at hlast
        exact absurd hlast (by simp)
  · rintro ⟨hnil, hfin⟩
    refine ⟨?_, ?_, ?_, ?_⟩
    · rw [if_pos hnil, List.append_nil]
    · rw [h.connection, segmentEnd_of_noFin hfin, TcpParser.payloadLength, hnil, hseq]
      exact congrArg some (UInt32.add_zero _).symm
    · rintro (hne | hyes)
      · exact absurd hnil hne
      · exact absurd (hfin.symm.trans hyes) (by simp)
    · rw [hstate, hfin]
      simp

end Cases

/-- Of the segments of the connection that start at `ack_num` and have the ACK flag, exactly those
are consumed whole that have PSH and no FIN, or neither PSH nor a payload. The other flags do not
matter. -/
theorem consumes_iff {s : TcpStack} {conn : TcpConnection} {packet : Packet} {tcp : TcpParser}
    {sent : Nat → Int} (h : Ready s conn) (ht : packet.tcp = some tcp)
    (htuple : isFourTuple conn packet = true) (hack : tcp.isAck = true)
    (hseq : tcp.sequenceNumber = conn.ackNum) (hsent : ∀ n, sent n ≠ -1) :
    Consumes s (processPacket s packet sent) tcp ↔
      tcp.isPsh = true ∧ tcp.isFin = false ∨ tcp.isPsh = false ∧ tcp.payload = [] := by
  have hr := received_fourTuple h.connection ht htuple
  have hlen : tcp.payloadLength > 0 ↔ tcp.payload ≠ [] := List.length_pos_iff
  cases hpsh : tcp.isPsh with
  | true =>
    by_cases hnil : tcp.payload = []
    · have hreact : reactionOf conn.state tcp = .ignore := by
        simp [reactionOf, h.state, hpsh, hack, TcpParser.payloadLength, hnil]
      rw [consumes_ignore h hr hseq hreact]
      simp [hnil]
    · have hreact : reactionOf conn.state tcp = .data := by
        simp [reactionOf, h.state, hpsh, hack, hlen.mpr hnil]
      rw [consumes_data h hr hsent hreact]
      simp
  | false =>
    cases hfin : tcp.isFin with
    | true =>
      have hreact : reactionOf conn.state tcp = .passiveClose := by
        simp [reactionOf, h.state, hpsh, hack, hfin]
      rw [consumes_passiveClose h hr hsent hreact]
      simp
    | false =>
      have hreact : reactionOf conn.state tcp = .ignore := by
        simp [reactionOf, h.state, hpsh, hfin]
      rw [consumes_ignore h hr hseq hreact]
      simp [hfin]

theorem consumes_iff_sample :
    Consumes sampleOpened (processPacket sampleOpened (sampleData 5001 [0x61]) fun _ => 54)
        ⟨80, 40000, 5001, 1001, 5, tcpPsh ||| tcpAck, 8192, [0x61]⟩ ↔
      (TcpParser.isPsh ⟨80, 40000, 5001, 1001, 5, tcpPsh ||| tcpAck, 8192, [0x61]⟩ = true ∧
          TcpParser.isFin ⟨80, 40000, 5001, 1001, 5, tcpPsh ||| tcpAck, 8192, [0x61]⟩ = false ∨
        TcpParser.isPsh ⟨80, 40000, 5001, 1001, 5, tcpPsh ||| tcpAck, 8192, [0x61]⟩ = false ∧
          TcpParser.payload ⟨80, 40000, 5001, 1001, 5, tcpPsh ||| tcpAck, 8192, [0x61]⟩ = []) :=
  consumes_iff ⟨sampleOpened_handshaken.connection, by decide +kernel, rfl⟩ rfl (by decide)
    (by decide) rfl (by simp)

/-- A data segment without PSH is lost, and so is a FIN that comes with PSH. -/
theorem segments_lost :
    ¬ Consumes sampleOpened (processPacket sampleOpened
        (sampleSegment 0x0A000009 40000 5001 1001 tcpAck [0x61]) fun _ => 54)
      ⟨80, 40000, 5001, 1001, 5, tcpAck, 8192, [0x61]⟩ ∧
    ¬ Consumes sampleOpened (processPacket sampleOpened
        (sampleSegment 0x0A000009 40000 5001 1001 (tcpFin ||| tcpPsh ||| tcpAck) [0x61]) fun _ => 54)
      ⟨80, 40000, 5001, 1001, 5, tcpFin ||| tcpPsh ||| tcpAck, 8192, [0x61]⟩ := by
  constructor
  · intro h
    exact absurd h.queue (by decide +kernel)
  · intro h
    exact absurd h.state (by decide +kernel)

end MyTelnet.Stack.Consumption
