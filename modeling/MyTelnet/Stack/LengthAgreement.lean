/- module: MyTelnet/Stack/LengthAgreement
   scope: proofs
   digest: The lengths that a successful send_data writes, against the bytes that it sends. -/

import MyTelnet.Stack.EmittedChecksums
import MyTelnet.Stack.Stream
import MyTelnet.Wire.HandingOn

set_option autoImplicit false
set_option relaxedAutoImplicit false

namespace MyTelnet.Stack.LengthAgreement

open MyTelnet.Base.ByteOrder MyTelnet.Wire.Checksum MyTelnet.Wire.Layers
open MyTelnet.Wire.ParserSpecs MyTelnet.Wire.CaptureBounds MyTelnet.Wire.HandingOn
open MyTelnet.Stack.State MyTelnet.Stack.Send MyTelnet.Stack.Operations MyTelnet.Stack.Frames
open MyTelnet.Stack.RoundTrip MyTelnet.Stack.Effects MyTelnet.Stack.Run MyTelnet.Stack.Steps
open MyTelnet.Stack.EmittedChecksums MyTelnet.Stack.Stream

/-- The pseudo header that `calculate_tcp_checksum` builds for `send_tcp_packet`. -/
def sentPseudoHeader (conn : TcpConnection) (flags : UInt16) (payload : Bytes) : Bytes :=
  let tcpHeader := buildTcpHeader conn.localPort conn.remotePort conn.seqNum conn.ackNum flags
    conn.windowSize
  pseudoHeader conn.localIp conn.remoteIp
    (UInt16.ofNat (tcpHeaderLen tcpHeader + payload.length))

/-- The TCP length in a pseudo header. -/
def tcpLengthOf (pseudo : Bytes) : Nat :=
  (ntohs (word16 (pseudo.getD 10 0) (pseudo.getD 11 0))).toNat

/-- The payload length by `total_len`, IHL and data offset, below zero where `total_len` does not
reach to the end of the headers. -/
def receivedLength (frame : Bytes) : Int :=
  totalLenOf frame - 4 * ihlOf frame 14 - 4 * dataOffsetOf frame

/-- The lengths of one sent vector: in the IP header, in the pseudo header, for the receiver and
in the sequence numbers. -/
structure LengthsAgree (conn conn' : TcpConnection) (data frame pseudo : Bytes) : Prop where
  total : totalLenOf frame = (frame.drop 14).length
  tcpLength : tcpLengthOf pseudo = 20 + data.length
  received : receivedLength frame = data.length
  advanced : (conn'.seqNum - conn.seqNum).toNat = data.length

/-- Between `s` and `s'` one frame was injected for `data`, and its lengths agree. -/
def SendAgrees (s s' : TcpStack) (conn : TcpConnection) (data : Bytes) : Prop :=
  ∃ conn' frame, s'.currentConnection = some conn' ∧
    injectedFrames s' = injectedFrames s ++ [frame] ∧
    LengthsAgree conn conn' data frame (sentPseudoHeader conn (tcpPsh ||| tcpAck) data)

section Fields

variable (s : TcpStack) (conn : TcpConnection) (id flags : UInt16) (payload : Bytes)

/-- It is the pseudo header whose sum the frame carries. -/
theorem sentPseudoHeader_eq :
    sentPseudoHeader conn flags payload = summedPseudoHeader conn payload := by
  have hheader : buildTcpHeader conn.localPort conn.remotePort conn.seqNum conn.ackNum flags
      conn.windowSize = tcpHeaderBytes conn flags 0 := rfl
  rw [sentPseudoHeader, hheader, tcpHeaderLen_tcpHeaderBytes, summedPseudoHeader]

theorem tcpLengthOf_sent :
    tcpLengthOf (sentPseudoHeader conn flags payload) = (20 + payload.length) % 65536 := by
  rw [sentPseudoHeader_eq]
  let w : UInt16 := htons (UInt16.ofNat (20 + payload.length))
  show (ntohs (word16 (lo16 w) (hi16 w))).toNat = _
  rw [word16_lo_hi, ntohs_htons, UInt16.toNat_ofNat']

theorem totalLenOf_buildFrame :
    totalLenOf (buildFrame s conn id flags payload) = (40 + payload.length) % 65536 := by
  rw [buildFrame_eq]
  let w : UInt16 := htons (UInt16.ofNat (40 + payload.length))
  show 256 * (lo16 w).toNat + (hi16 w).toNat = _
  rw [← toNat_ntohs_word16, word16_lo_hi, ntohs_htons, UInt16.toNat_ofNat']

theorem length_behind_ethernet :
    ((buildFrame s conn id flags payload).drop 14).length = 40 + payload.length := by
  rw [List.length_drop, buildFrame_length]
  omega

theorem dataOffsetOf_buildFrame : dataOffsetOf (buildFrame s conn id flags payload) = 5 := by
  have hstart : segmentStart (buildFrame s conn id flags payload) = 34 := by
    rw [segmentStart, ihlOf_buildFrame]
  rw [dataOffsetOf, hstart, buildFrame_eq]
  let w : UInt16 := ((5 : UInt16) <<< 12) ||| (flags &&& 0x3F)
  show (lo16 (htons w)).toNat / 16 = 5
  have hshift : (w >>> 12).toNat = 5 := congrArg UInt16.toNat (offset_shift flags)
  rw [UInt16.toNat_shiftRight] at hshift
  have hw := w.toNat_lt
  simp only [UInt16.reduceToNat, Nat.reduceMod, Nat.reducePow, Nat.shiftRight_eq_div_pow] at hshift
  rw [htons, lo16_word16, hi16, UInt8.toNat_ofNat']
  omega

theorem receivedLength_buildFrame :
    receivedLength (buildFrame s conn id flags payload) =
      ((40 + payload.length) % 65536 : Nat) - 40 := by
  rw [receivedLength, totalLenOf_buildFrame, ihlOf_buildFrame, dataOffsetOf_buildFrame]
  omega

end Fields

/-- Both 16-bit fields and the sequence numbers hold what they should up to the length that fills
`total_len`. -/
theorem lengthsAgree_iff (s : TcpStack) (conn : TcpConnection) (id : UInt16) (data : Bytes) :
    LengthsAgree conn (advanceSeq conn (tcpPsh ||| tcpAck) data) data
        (buildFrame s conn id (tcpPsh ||| tcpAck) data)
        (sentPseudoHeader conn (tcpPsh ||| tcpAck) data) ↔ data.length ≤ 65495 := by
  have htotal := totalLenOf_buildFrame s conn id (tcpPsh ||| tcpAck) data
  have hbehind := length_behind_ethernet s conn id (tcpPsh ||| tcpAck) data
  constructor
  · intro h
    have heq := h.total
    rw [htotal, hbehind] at heq
    omega
  · intro hlen
    constructor
    case total => rw [htotal, hbehind, Nat.mod_eq_of_lt (by omega)]
    case tcpLength => rw [tcpLengthOf_sent, Nat.mod_eq_of_lt (by omega)]
    case received =>
      rw [receivedLength_buildFrame, Nat.mod_eq_of_lt (by omega)]
      omega
    case advanced =>
      rw [advanceSeq_data]
      show (conn.seqNum + UInt32.ofNat data.length - conn.seqNum).toNat = data.length
      rw [UInt32.add_comm, UInt32.add_sub_cancel, UInt32.toNat_ofNat', Nat.mod_eq_of_lt (by omega)]

/-- A `send_data` that returns true has injected its frame. -/
theorem sendData_true {s : TcpStack} {conn : TcpConnection} {data : Bytes} {sent : Int}
    (hc : s.currentConnection = some conn) (hest : conn.state = .established)
    (hsent : (sendData s data sent).2 = true) :
    (sendData s data sent).1 = afterSend s conn (tcpPsh ||| tcpAck) data := by
  rw [sendData_established data sent hc hest] at hsent ⊢
  rcases sendTcpPacket_cases s (tcpPsh ||| tcpAck) data sent with
    ⟨id, hfailed⟩ | ⟨c, hc', -, -, hok⟩
  · rw [hfailed] at hsent
    cases hsent
  · rw [hc] at hc'
    cases hc'
    rw [hok]

theorem injectedFrames_afterSend (s : TcpStack) (conn : TcpConnection) (data : Bytes) :
    injectedFrames (afterSend s conn (tcpPsh ||| tcpAck) data) =
      injectedFrames s ++ [buildFrame s conn (s.ipId + 1) (tcpPsh ||| tcpAck) data] := by
  simp [afterSend, Event.frame?]

theorem sendAgrees_afterSend_iff (s : TcpStack) (conn : TcpConnection) (data : Bytes) :
    SendAgrees s (afterSend s conn (tcpPsh ||| tcpAck) data) conn data ↔ data.length ≤ 65495 := by
  have hinjected := injectedFrames_afterSend s conn data
  rw [← lengthsAgree_iff s conn (s.ipId + 1) data]
  constructor
  · rintro ⟨conn', frame, hconn, hframes, hagree⟩
    rw [hinjected, List.append_cancel_left_eq] at hframes
    cases hframes
    cases hconn
    exact hagree
  · intro hagree
    exact ⟨_, _, rfl, hinjected, hagree⟩

/-- The lengths of a sent vector agree exactly when the datagram fits `total_len`. -/
theorem send_agrees_iff {s : TcpStack} {conn : TcpConnection} {data : Bytes} {sent : Int}
    (hc : s.currentConnection = some conn) (hest : conn.state = .established)
    (hsent : (sendData s data sent).2 = true) :
    SendAgrees s (sendData s data sent).1 conn data ↔ data.length ≤ 65495 := by
  rw [sendData_true hc hest hsent]
  exact sendAgrees_afterSend_iff s conn data

theorem send_agrees_sample :
    SendAgrees sampleOpened (sendData sampleOpened [0x47, 0x45, 0x54] 57).1
      sampleOpenedConnection [0x47, 0x45, 0x54] ↔ [0x47, 0x45, 0x54].length ≤ 65495 :=
  send_agrees_iff sampleOpened_handshaken.connection rfl (by decide +kernel)

/-- The shortest vector whose datagram does not fit `total_len`. -/
def overfullVector : Bytes := List.replicate 65496 0

/-- `send_data` takes it, and the IP header says that nothing follows. -/
theorem overfullVector_miscounted :
    getConnectionState sampleOpened = .established ∧
      (sendData sampleOpened overfullVector 65550).2 = true ∧
      (∃ frame, injectedFrames (sendData sampleOpened overfullVector 65550).1 =
          injectedFrames sampleOpened ++ [frame] ∧
        (frame.drop 14).length = 65536 ∧ totalLenOf frame = 0 ∧ receivedLength frame = -40) ∧
      ¬SendAgrees sampleOpened (sendData sampleOpened overfullVector 65550).1
        sampleOpenedConnection overfullVector := by
  have hc := sampleOpened_handshaken.connection
  have hlen : overfullVector.length = 65496 := List.length_replicate
  have hsend : sendData sampleOpened overfullVector 65550 =
      (afterSend sampleOpened sampleOpenedConnection (tcpPsh ||| tcpAck) overfullVector, true) := by
    rw [sendData_established _ _ hc rfl]
    exact sendTcpPacket_ok _ _ hc (by decide +kernel) (by decide)
  have hinjected := injectedFrames_afterSend sampleOpened sampleOpenedConnection overfullVector
  rw [hsend]
  refine ⟨getConnectionState_some hc, rfl, ⟨_, hinjected, ?_, ?_, ?_⟩, ?_⟩
  · rw [length_behind_ethernet, hlen]
  · rw [totalLenOf_buildFrame, hlen]
  · rw [receivedLength_buildFrame, hlen]
    decide
  · rw [sendAgrees_afterSend_iff, hlen]
    decide

end MyTelnet.Stack.LengthAgreement
