/- module: MyTelnet/Stack/Corruption
   scope: model and proofs
   digest: Which frames without a verifying TCP checksum leave no trace in the stack. -/

import MyTelnet.Stack.EmittedChecksums
import MyTelnet.Stack.Isolation
import MyTelnet.Wire.HandingOn

set_option autoImplicit false
set_option relaxedAutoImplicit false

namespace MyTelnet.Stack.Corruption

open MyTelnet.Base.ByteOrder MyTelnet.Base.Runs MyTelnet.Wire.Memory MyTelnet.Wire.Checksum
open MyTelnet.Wire.Layers MyTelnet.Wire.Parsers MyTelnet.Wire.HandingOn MyTelnet.Stack.State
open MyTelnet.Stack.Send MyTelnet.Stack.Operations MyTelnet.Stack.Receive MyTelnet.Stack.Run
open MyTelnet.Stack.Frames MyTelnet.Stack.RoundTrip MyTelnet.Stack.EmittedChecksums
open MyTelnet.Stack.Effects MyTelnet.Stack.Reactions MyTelnet.Stack.Steps MyTelnet.Stack.Handshake
open MyTelnet.Stack.Isolation

/-- The captured bytes from the TCP header on. -/
def segmentOf (frame : Bytes) : Bytes := frame.drop (segmentStart frame)

/-- The check field holds what `calculate_tcp_checksum` computes of a segment when it is sent. -/
def ChecksumVerifies (frame : Bytes) (ip : Ipv4Parser) (tcp : TcpParser) : Prop :=
  word16 ((segmentOf frame).getD 16 0) ((segmentOf frame).getD 17 0) =
    (calculateTcpChecksum ip.sourceIp ip.destIp (segmentOf frame) tcp.payload).1

/-- The frame carries a segment whose checksum verifies. -/
def Intact (frame : Bytes) : Prop :=
  ∃ ip tcp, (captureFrame frame).2 = .ok (some ⟨some ip, some tcp⟩) ∧
    ChecksumVerifies frame ip tcp

/-- What happens to a stack whose capture thread reads raw frames. -/
inductive Input where
  | operation (a : Action)
  | frame (bytes : Bytes) (sent : Nat → Int)

/-- A step from what the steps before have come to. Undefined behaviour is the end. -/
def stepInput (outcome : Checked TcpStack) : Input → Checked TcpStack
  | .operation a => outcome.map fun s => step s a
  | .frame bytes sent => outcome.bind fun s => capture s bytes sent

/-- `process_packet` does nothing with the segment: its flags select no branch, or it is a SYN+ACK
that cannot be acknowledged and whose port and number the connection has already noted. -/
def Unnoticed (s : TcpStack) (conn : TcpConnection) (tcp : TcpParser) (sent : Nat → Int) : Prop :=
  selectsBranch conn.state tcp = false ∨
    conn.state = .synSent ∧ (sent 0 = -1 ∨ s.pcapHandle = false) ∧
      tcp.sourcePort = conn.remotePort ∧ tcp.sequenceNumber + 1 = conn.ackNum

/-- The frame is read within its bytes, and every segment that it brings to the switch of
`process_packet` goes unnoticed. -/
structure FrameUnnoticed (s : TcpStack) (frame : Bytes) (sent : Nat → Int) : Prop where
  defined : (captureFrame frame).2 ≠ .error .undefinedBehaviour
  quiet : ∀ packet conn tcp, (captureFrame frame).2 = .ok (some packet) →
    received s packet = some (conn, tcp) → Unnoticed s conn tcp sent

/-! The frames that the stack itself sends are intact. -/

theorem segmentOf_buildFrame (s : TcpStack) (conn : TcpConnection) (id flags : UInt16)
    (payload : Bytes) :
    ∃ check, segmentOf (buildFrame s conn id flags payload) =
        tcpHeaderBytes conn flags check ++ payload ∧
      check = (calculateTcpChecksum conn.localIp conn.remoteIp (tcpHeaderBytes conn flags 0)
        payload).1 := by
  refine ⟨_, ?_, rfl⟩
  have hstart : segmentStart (buildFrame s conn id flags payload) = 34 := by
    rw [segmentStart, ihlOf_buildFrame]
  rw [segmentOf, hstart, buildFrame_eq]
  rfl

theorem buildFrame_intact (s : TcpStack) (conn : TcpConnection) (id : UInt16) {flags : UInt16}
    {payload : Bytes} (hflags : flags ≤ 0x3F) (hlen : payload.length ≤ 65495) :
    Intact (buildFrame s conn id flags payload) := by
  have hcapture := captureFrame_captured s conn id flags payload [] (flags_mask hflags) hlen
  rw [captured, List.append_nil] at hcapture
  refine ⟨sentIpv4 conn payload, sentTcp conn flags payload, by rw [hcapture], ?_⟩
  obtain ⟨check, hsegment, hcheck⟩ := segmentOf_buildFrame s conn id flags payload
  have hlength : tcpHeaderLen (tcpHeaderBytes conn flags check ++ payload) =
      tcpHeaderLen (tcpHeaderBytes conn flags 0) := by
    rw [tcpHeaderLen_tcpHeaderBytes]
    exact tcpHeaderLen_tcpHeaderBytes conn flags check
  have hcleared : (((tcpHeaderBytes conn flags check ++ payload).set 16 0).set 17 0).take 20 =
      (((tcpHeaderBytes conn flags 0).set 16 0).set 17 0).take 20 := rfl
  have hfield : word16 ((tcpHeaderBytes conn flags check ++ payload).getD 16 0)
      ((tcpHeaderBytes conn flags check ++ payload).getD 17 0) = check := word16_lo_hi check
  rw [ChecksumVerifies, hsegment, hfield, calculateTcpChecksum_fst, hlength,
    tcpHeaderLen_tcpHeaderBytes, hcleared, hcheck, calculateTcpChecksum_fst,
    tcpHeaderLen_tcpHeaderBytes]
  rfl

/-! The SYN+ACK branch, by the fate of its ACK. -/

section SynAck

variable (s : TcpStack) (tcp : TcpParser) (sent : Nat → Int)

theorem acceptSynAck_unanswered (h : sent 0 = -1 ∨ s.pcapHandle = false) :
    ∃ id, acceptSynAck s tcp sent = setIpId (synAckNoted s tcp) id := by
  rcases sendTcpPacket_cases (synAckNoted s tcp) tcpAck [] (sent 0) with
    ⟨id, hfail⟩ | ⟨conn, -, hp, hs, -⟩
  · exact ⟨id, acceptSynAck_of_send s tcp sent hfail⟩
  · rcases h with h | h
    · exact absurd h hs
    · exact absurd (hp.symm.trans h) (by simp)

theorem acceptSynAck_answered {conn : TcpConnection} (hc : s.currentConnection = some conn)
    (h : ¬ (sent 0 = -1 ∨ s.pcapHandle = false)) :
    getConnectionState (acceptSynAck s tcp sent) = .established := by
  rw [not_or, Bool.not_eq_false] at h
  have hnoted := synAckNoted_currentConnection s tcp
  rw [hc, Option.map_some] at hnoted
  have hsend := sendTcpPacket_ok tcpAck [] hnoted h.2 h.1
  rw [acceptSynAck_of_send s tcp sent hsend, if_pos rfl]
  rw [getConnectionState, callback_currentConnection, setState_currentConnection, afterSend,
    log_currentConnection, setConnection_currentConnection, Option.map_some]

end SynAck

section Observed

variable {s : TcpStack} {conn : TcpConnection} {tcp : TcpParser} (sent : Nat → Int)

theorem observe_acceptSynAck_iff (hc : s.currentConnection = some conn)
    (hs : conn.state = .synSent) :
    observe (acceptSynAck s tcp sent) = observe s ↔
      (sent 0 = -1 ∨ s.pcapHandle = false) ∧ tcp.sourcePort = conn.remotePort ∧
        tcp.sequenceNumber + 1 = conn.ackNum := by
  by_cases hfail : sent 0 = -1 ∨ s.pcapHandle = false
  · obtain ⟨id, hnoted⟩ := acceptSynAck_unanswered s tcp sent hfail
    have hview : observe (acceptSynAck s tcp sent) =
        (some (conn.state, conn.seqNum, tcp.sequenceNumber + 1, tcp.sourcePort), s.dataQueue,
          injectedFrames s) := by
      rw [hnoted, observe, setIpId_currentConnection, synAckNoted_currentConnection, hc]
      rfl
    have hbefore : observe s =
        (some (conn.state, conn.seqNum, conn.ackNum, conn.remotePort), s.dataQueue,
          injectedFrames s) := by
      rw [observe, hc]
      rfl
    rw [hview, hbefore]
    simp only [Prod.mk.injEq, Option.some.injEq, true_and, and_true, hfail]
    exact and_comm
  · constructor
    · intro heq
      have hopened := acceptSynAck_answered s tcp sent hc hfail
      have hstate := congrArg (fun view => view.1.map Prod.fst) heq
      cases hc' : (acceptSynAck s tcp sent).currentConnection with
      | none => simp [observe, hc, hc'] at hstate
      | some conn' =>
        rw [getConnectionState_some hc'] at hopened
        simp [observe, hc, hc', hopened, hs] at hstate
    · rintro ⟨h, -⟩
      exact absurd h hfail

/-- The step lemma: what an observer sees of a segment at the switch. -/
theorem observe_perform_iff (hc : s.currentConnection = some conn) :
    observe (perform s tcp sent (reactionOf conn.state tcp)) = observe s ↔
      Unnoticed s conn tcp sent := by
  by_cases hignore : reactionOf conn.state tcp = .ignore
  · have hquiet : selectsBranch conn.state tcp = false := by
      rw [← Bool.not_eq_true, selectsBranch_iff, not_not]
      exact hignore
    rw [hignore]
    exact ⟨fun _ => .inl hquiet, fun _ => rfl⟩
  · have hselects : selectsBranch conn.state tcp ≠ false := by
      rw [Bool.ne_false_iff, selectsBranch_iff]
      exact hignore
    by_cases hs : conn.state = .synSent
    · have hsyn : reactionOf conn.state tcp = .synAck := by
        rw [hs, reactionOf] at hignore ⊢
        split at hignore
        · next hflags => rw [if_pos hflags]
        · exact absurd rfl hignore
      rw [hsyn, perform, observe_acceptSynAck_iff sent hc hs]
      constructor
      · rintro ⟨hfail, hport, hnumber⟩
        exact .inr ⟨hs, hfail, hport, hnumber⟩
      · rintro (hno | ⟨-, hfail, hport, hnumber⟩)
        · exact absurd hno hselects
        · exact ⟨hfail, hport, hnumber⟩
    · constructor
      · intro heq
        exact absurd heq (observe_perform_ne sent hc hs hignore)
      · rintro (hno | ⟨hyes, -⟩)
        · exact absurd hno hselects
        · exact absurd hyes hs

/-- A frame that brings no packet has to be one that the parsers give up in order. -/
theorem observe_capture_none (s : TcpStack) {frame : Bytes}
    (hnone : ∀ packet, (captureFrame frame).2 ≠ .ok (some packet)) :
    (capture s frame sent).map observe = .ok (observe s) ↔ FrameUnnoticed s frame sent := by
  have hquiet : FrameUnnoticed s frame sent ↔
      (captureFrame frame).2 ≠ .error .undefinedBehaviour :=
    ⟨fun h => h.defined, fun h => ⟨h, fun packet _ _ hpacket => absurd hpacket (hnone packet)⟩⟩
  rw [hquiet, capture]
  split
  · next packet hpacket => exact absurd hpacket (hnone packet)
  · next hframe => simp [hframe, Except.map]
  · next hframe => simp [hframe, Except.map]
  · next hframe => simp [hframe, Except.map]

/-- What an observer sees of a frame. -/
theorem observe_capture_iff (s : TcpStack) (frame : Bytes) :
    (capture s frame sent).map observe = .ok (observe s) ↔ FrameUnnoticed s frame sent := by
  by_cases hhanded : ∃ packet, (captureFrame frame).2 = .ok (some packet)
  · obtain ⟨packet, hpacket⟩ := hhanded
    have hcapture : (capture s frame sent).map observe =
        .ok (observe (processPacket s packet sent)) := by
      rw [capture, hpacket]
      rfl
    have hunique : FrameUnnoticed s frame sent ↔
        ∀ conn tcp, received s packet = some (conn, tcp) → Unnoticed s conn tcp sent := by
      constructor
      · intro h conn tcp
        exact h.quiet packet conn tcp hpacket
      · intro h
        refine ⟨by rw [hpacket]; simp, ?_⟩
        intro packet' conn tcp hpacket'
        obtain rfl := Option.some.inj (Except.ok.inj (hpacket'.symm.trans hpacket))
        exact h conn tcp
    rw [hcapture, hunique, Except.ok.injEq]
    cases hr : received s packet with
    | none =>
      rw [processPacket_none sent hr]
      simp
    | some pair =>
      obtain ⟨conn, tcp⟩ := pair
      rw [processPacket_received sent hr, observe_perform_iff sent (received_some hr).2.1]
      simp
  · exact observe_capture_none sent s (not_exists.mp hhanded)

/-- The step lemma of the run. Behind undefined behaviour nothing is left to see. -/
theorem observe_stepInput_iff (outcome : Checked TcpStack) (frame : Bytes) :
    (stepInput outcome (.frame frame sent)).map observe = outcome.map observe ↔
      ∀ s, outcome = .ok s → FrameUnnoticed s frame sent := by
  cases outcome with
  | error e => simp [stepInput, Except.bind]
  | ok s =>
    show (capture s frame sent).map observe = .ok (observe s) ↔ _
    rw [observe_capture_iff]
    constructor
    · rintro h _ ⟨⟩
      exact h
    · intro h
      exact h s rfl

end Observed

/-- From every state and in every run, the frames without a verifying TCP checksum leave no trace
exactly if all of them are read within their bytes and go unnoticed by `process_packet`. -/
theorem corrupted_unnoticed_iff (s : TcpStack) (inputs : List Input) :
    (∀ pre frame sent, pre ++ [.frame frame sent] <+: inputs → ¬ Intact frame →
        (run stepInput (.ok s) (pre ++ [.frame frame sent])).map observe =
          (run stepInput (.ok s) pre).map observe) ↔
      EachStep stepInput (fun outcome input => ∀ frame sent, input = .frame frame sent →
        ¬ Intact frame → ∀ t, outcome = .ok t → FrameUnnoticed t frame sent) (.ok s) inputs := by
  rw [eachStep_iff]
  constructor
  · rintro h pre input hpre frame sent rfl hdamaged
    have hseen := h pre frame sent hpre hdamaged
    rw [run_snoc] at hseen
    exact (observe_stepInput_iff sent _ frame).mp hseen
  · intro h pre frame sent hpre hdamaged
    rw [run_snoc]
    exact (observe_stepInput_iff sent _ frame).mpr (h pre _ hpre frame sent rfl hdamaged)

/-- The segment of the server that `sampleDamaged` holds. -/
def sampleDamagedPacket : Packet :=
  ⟨some ⟨5, 41, 6, 0x0A000009, 0x0A000002⟩,
    some ⟨80, 40000, 5001, 1001, 5, tcpPsh ||| tcpAck, 8192, [0x62]⟩⟩

/-- A data frame of the server whose last byte has changed on the way. -/
def sampleDamaged : Bytes :=
  (buildFrame sampleSender { newConnection sampleSender 0x0A000002 40000 80 5001 with
    localIp := 0x0A000009, ackNum := 1001 } 1 (tcpPsh ||| tcpAck) [0x61]).set 54 0x62

def sampleInputs : List Input :=
  [.operation (.connect 0x0A000009 80 40000 1000 true 54), .operation sampleReply,
    .frame sampleDamaged fun _ => 54]

theorem sampleDamaged_captured :
    (captureFrame sampleDamaged).2 = .ok (some sampleDamagedPacket) := by
  decide +kernel

/-- The client queues the changed byte and acknowledges it. -/
theorem damaged_frame_noticed :
    ¬ ∀ pre frame sent, pre ++ [.frame frame sent] <+: sampleInputs → ¬ Intact frame →
        (run stepInput (.ok sampleClient) (pre ++ [.frame frame sent])).map observe =
          (run stepInput (.ok sampleClient) pre).map observe := by
  intro h
  have hdamaged : ¬ Intact sampleDamaged := by
    rintro ⟨ip, tcp, hpacket, hverifies⟩
    have hsame := Option.some.inj (Except.ok.inj (sampleDamaged_captured.symm.trans hpacket))
    obtain ⟨hip, htcp⟩ := Packet.mk.inj hsame
    obtain rfl := Option.some.inj hip
    obtain rfl := Option.some.inj htcp
    rw [ChecksumVerifies] at hverifies
    exact absurd hverifies (by decide +kernel)
  have hsame := h (sampleInputs.take 2) sampleDamaged (fun _ => 54) (List.prefix_refl _) hdamaged
  have hqueue := congrArg (Except.map fun view => view.2.1) hsame
  exact absurd hqueue (by decide +kernel)

end MyTelnet.Stack.Corruption
