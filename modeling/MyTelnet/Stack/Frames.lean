/- module: MyTelnet/Stack/Frames
   scope: proofs
   digest: The bytes of an injected frame, the fields at their offsets, and the parsers on them. -/

import MyTelnet.Stack.Send
import MyTelnet.Wire.Parsers

set_option autoImplicit false
set_option relaxedAutoImplicit false

namespace MyTelnet.Stack.Frames

open MyTelnet.Base.ByteOrder MyTelnet.Wire.Memory MyTelnet.Wire.Checksum MyTelnet.Wire.Layers
open MyTelnet.Wire.Parsers MyTelnet.Stack.State MyTelnet.Stack.Send

/-! Fields of a frame with an option-free IP header, read at their offsets. -/

def frameSeq (frame : Bytes) : UInt32 :=
  ntohl (word32 (frame.getD 38 0) (frame.getD 39 0) (frame.getD 40 0) (frame.getD 41 0))

def frameAck (frame : Bytes) : UInt32 :=
  ntohl (word32 (frame.getD 42 0) (frame.getD 43 0) (frame.getD 44 0) (frame.getD 45 0))

def frameFlags (frame : Bytes) : UInt16 :=
  ntohs (word16 (frame.getD 46 0) (frame.getD 47 0)) &&& 0x3F

def framePayload (frame : Bytes) : Bytes := frame.drop 54

/-- The option-free IP header with a given value of the check field in host order. -/
def ipHeaderBytes (srcIp dstIp : UInt32) (totalLen : UInt16) (protocol : UInt8)
    (id check : UInt16) : Bytes :=
  [0x45, 0] ++ store16 (htons totalLen) ++ store16 (htons id) ++ store16 0 ++ [64, protocol] ++
    store16 check ++ store32 (htonl srcIp) ++ store32 (htonl dstIp)

/-- The TCP header of a frame with a given value of the check field in host order. -/
def tcpHeaderBytes (conn : TcpConnection) (flags check : UInt16) : Bytes :=
  store16 (htons conn.localPort) ++ store16 (htons conn.remotePort) ++
    store32 (htonl conn.seqNum) ++ store32 (htonl conn.ackNum) ++
    store16 (htons (((5 : UInt16) <<< 12) ||| (flags &&& 0x3F))) ++
    store16 (htons conn.windowSize) ++ store16 check ++ store16 0

/-- The checksum covers the header with its check field cleared, so the field is free. -/
theorem calculateIpChecksum_header (srcIp dstIp : UInt32) (totalLen : UInt16) (protocol : UInt8)
    (id check : UInt16) (pre rest : Bytes) :
    calculateIpChecksum (pre ++ ipHeaderBytes srcIp dstIp totalLen protocol id check ++ rest)
        pre.length =
      .ok (calculateChecksumNew (ipHeaderBytes srcIp dstIp totalLen protocol id 0)) := by
  have hihl : ((0x45 : UInt8) &&& 0x0F).toNat * 4 = 20 := by decide
  rw [calculateIpChecksum_of_ihl 0x45]
  · rw [hihl, List.append_assoc, List.drop_left]
    rfl
  · simp [load8, ipHeaderBytes]
  · rw [hihl]
    simp [ipHeaderBytes, store16, store32]
  · decide

theorem buildIpHeader_eq (srcIp dstIp : UInt32) (totalLen : UInt16) (protocol : UInt8)
    (id : UInt16) :
    buildIpHeader srcIp dstIp totalLen protocol id =
      ipHeaderBytes srcIp dstIp totalLen protocol id
        (htons (calculateChecksumNew (ipHeaderBytes srcIp dstIp totalLen protocol id 0))) := by
  have h : calculateIpChecksum (ipHeaderBytes srcIp dstIp totalLen protocol id 0) 0 =
      .ok (calculateChecksumNew (ipHeaderBytes srcIp dstIp totalLen protocol id 0)) := by
    simpa using calculateIpChecksum_header srcIp dstIp totalLen protocol id 0 [] []
  have hb : buildIpHeader srcIp dstIp totalLen protocol id =
      ipHeaderBytes srcIp dstIp totalLen protocol id
        (htons ((calculateIpChecksum
          (ipHeaderBytes srcIp dstIp totalLen protocol id 0) 0).toOption.getD 0)) := rfl
  rw [hb, h]
  rfl

def ethernetBytes (s : TcpStack) : Bytes := s.gatewayMac.bytes ++ s.localMac.bytes ++ [0x08, 0x00]

/-- The layout of a frame with given check fields. -/
def frameWith (s : TcpStack) (conn : TcpConnection) (id flags : UInt16) (payload : Bytes)
    (ipCheck tcpCheck : UInt16) : Bytes :=
  ethernetBytes s ++ ipHeaderBytes conn.localIp conn.remoteIp
    (UInt16.ofNat (40 + payload.length)) 6 id ipCheck ++ tcpHeaderBytes conn flags tcpCheck ++
    payload

/-- A frame is the three headers, each with its checksum, and the payload. -/
theorem buildFrame_eq (s : TcpStack) (conn : TcpConnection) (id flags : UInt16)
    (payload : Bytes) :
    buildFrame s conn id flags payload =
      frameWith s conn id flags payload
        (htons (calculateChecksumNew (ipHeaderBytes conn.localIp conn.remoteIp
          (UInt16.ofNat (40 + payload.length)) 6 id 0)))
        (calculateTcpChecksum conn.localIp conn.remoteIp (tcpHeaderBytes conn flags 0)
          payload).1 := by
  rw [buildFrame, buildIpHeader_eq]
  rfl

theorem offset_mask (flags : UInt16) :
    (((5 : UInt16) <<< 12) ||| (flags &&& 0x3F)) &&& 0x3F = flags &&& 0x3F := by
  rw [← UInt16.toBitVec_inj]
  simp only [UInt16.toBitVec_and, UInt16.toBitVec_or, BitVec.and_or_distrib_right, BitVec.and_assoc,
    BitVec.and_self]
  exact BitVec.zero_or

theorem offset_shift (flags : UInt16) :
    (((5 : UInt16) <<< 12) ||| (flags &&& 0x3F)) >>> 12 = 5 := by
  have h5 : ((5 : UInt16) <<< 12) >>> 12 = 5 := rfl
  have h63 : (0x3F : UInt16) >>> 12 = 0 := rfl
  rw [UInt16.shiftRight_or, UInt16.shiftRight_and, h5, h63, UInt16.and_zero, UInt16.or_zero]

section Fields

variable (s : TcpStack) (conn : TcpConnection) (id flags : UInt16) (payload : Bytes)

@[simp] theorem frameSeq_buildFrame :
    frameSeq (buildFrame s conn id flags payload) = conn.seqNum := by
  rw [buildFrame_eq]
  show ntohl (word32 (byte32 0 (htonl conn.seqNum)) (byte32 1 (htonl conn.seqNum))
    (byte32 2 (htonl conn.seqNum)) (byte32 3 (htonl conn.seqNum))) = _
  rw [word32_byte32, ntohl_htonl]

@[simp] theorem frameAck_buildFrame :
    frameAck (buildFrame s conn id flags payload) = conn.ackNum := by
  rw [buildFrame_eq]
  show ntohl (word32 (byte32 0 (htonl conn.ackNum)) (byte32 1 (htonl conn.ackNum))
    (byte32 2 (htonl conn.ackNum)) (byte32 3 (htonl conn.ackNum))) = _
  rw [word32_byte32, ntohl_htonl]

@[simp] theorem frameFlags_buildFrame :
    frameFlags (buildFrame s conn id flags payload) = flags &&& 0x3F := by
  rw [buildFrame_eq]
  let w : UInt16 := htons (((5 : UInt16) <<< 12) ||| (flags &&& 0x3F))
  show ntohs (word16 (lo16 w) (hi16 w)) &&& 0x3F = _
  rw [word16_lo_hi, ntohs_htons, offset_mask]

theorem buildFrame_length :
    (buildFrame s conn id flags payload).length = 54 + payload.length := by
  rw [buildFrame_eq]
  simp only [frameWith, ethernetBytes, MacAddress.bytes, ipHeaderBytes, tcpHeaderBytes, store16,
    store32, List.length_append, List.length_cons, List.length_nil]

@[simp] theorem framePayload_buildFrame :
    framePayload (buildFrame s conn id flags payload) = payload := by
  rw [buildFrame_eq]
  rfl

end Fields

end MyTelnet.Stack.Frames
