/- module: MyTelnet/Wire/HandingOn
   scope: proofs
   digest: What the capture path has checked and read of a frame that it hands on. -/

import MyTelnet.Wire.CaptureBounds

set_option autoImplicit false
set_option relaxedAutoImplicit false

namespace MyTelnet.Wire.HandingOn

open MyTelnet.Base.ByteOrder MyTelnet.Wire.Memory MyTelnet.Wire.Layers MyTelnet.Wire.Parsers
open MyTelnet.Wire.ParserSpecs MyTelnet.Wire.CaptureBounds

section Fields

variable (bytes : Bytes)

/-- Where the parsers take the TCP header to begin, and its data offset in words. -/
def segmentStart : Nat := 14 + ihlOf bytes 14 * 4

def dataOffsetOf : Nat := (bytes.getD (segmentStart bytes + 12) 0).toNat / 16

/-- The accessors of an IP header and of a TCP header given as their bytes. -/
def ipFields : Ipv4Parser :=
  ⟨bytes.getD 0 0 &&& 0x0F, ntohs (word16 (bytes.getD 2 0) (bytes.getD 3 0)), bytes.getD 9 0,
    ntohl (word32 (bytes.getD 12 0) (bytes.getD 13 0) (bytes.getD 14 0) (bytes.getD 15 0)),
    ntohl (word32 (bytes.getD 16 0) (bytes.getD 17 0) (bytes.getD 18 0) (bytes.getD 19 0))⟩

def tcpFields (payload : Bytes) : TcpParser :=
  let flags := ntohs (word16 (bytes.getD 12 0) (bytes.getD 13 0))
  ⟨ntohs (word16 (bytes.getD 0 0) (bytes.getD 1 0)),
    ntohs (word16 (bytes.getD 2 0) (bytes.getD 3 0)),
    ntohl (word32 (bytes.getD 4 0) (bytes.getD 5 0) (bytes.getD 6 0) (bytes.getD 7 0)),
    ntohl (word32 (bytes.getD 8 0) (bytes.getD 9 0) (bytes.getD 10 0) (bytes.getD 11 0)),
    ((flags >>> 12) &&& 0x0F).toUInt8, flags &&& 0x3F,
    ntohs (word16 (bytes.getD 14 0) (bytes.getD 15 0)), payload⟩

end Fields

/-- The checks that a frame has passed when its segment goes to `process_packet`, and the
fields of the packet. An IHL of 3 or 4 has passed them, and any data offset that the
`total_len` has room for. -/
structure HandedOn (bytes : Bytes) (ip : Ipv4Parser) (tcp : TcpParser) : Prop where
  ihl_ge : 3 ≤ ihlOf bytes 14
  checked : checksumMatches (ipHeaderOf bytes 14)
  protocol : ip.protocol = 6
  ip_eq : ip = ipFields (bytes.drop 14)
  segment_le : ihlOf bytes 14 * 4 + 20 ≤ totalLenOf bytes
  offset_le : ihlOf bytes 14 * 4 + dataOffsetOf bytes * 4 ≤ totalLenOf bytes
  captured : segmentStart bytes + 16 ≤ bytes.length
  payload_captured : ihlOf bytes 14 * 4 + dataOffsetOf bytes * 4 < totalLenOf bytes →
    14 + totalLenOf bytes ≤ bytes.length
  tcp_eq : tcp = tcpFields (bytes.drop (segmentStart bytes))
    ((bytes.drop (segmentStart bytes + dataOffsetOf bytes * 4)).take
      (totalLenOf bytes - ihlOf bytes 14 * 4 - dataOffsetOf bytes * 4))

section Inversion

theorem bind_eq_ok {α β : Type} {x : Checked α} {f : α → Checked β} {b : β}
    (h : x >>= f = .ok b) : ∃ a, x = .ok a ∧ f a = .ok b := by
  cases x with
  | error e => cases h
  | ok a => exact ⟨a, rfl, h⟩

variable {mem : Bytes} {i : Nat}

theorem load8_eq_ok {b : UInt8} (h : load8 mem i = .ok b) :
    i < mem.length ∧ b = mem.getD i 0 := by
  by_cases hi : i < mem.length
  · rw [load8_of_lt hi] at h
    exact ⟨hi, (Except.ok.inj h).symm⟩
  · rw [load8_of_ge (by omega)] at h
    cases h

theorem load16_eq_ok {w : UInt16} (h : load16 mem i = .ok w) :
    i + 1 < mem.length ∧ w = word16 (mem.getD i 0) (mem.getD (i + 1) 0) := by
  have hi : i + 1 < mem.length := by
    obtain ⟨b0, -, hrest⟩ := bind_eq_ok h
    obtain ⟨b1, h1, -⟩ := bind_eq_ok hrest
    exact (load8_eq_ok h1).1
  rw [load16_of_lt hi] at h
  exact ⟨hi, (Except.ok.inj h).symm⟩

theorem load32_eq_ok {w : UInt32} (h : load32 mem i = .ok w) :
    i + 3 < mem.length ∧ w = word32 (mem.getD i 0) (mem.getD (i + 1) 0) (mem.getD (i + 2) 0)
      (mem.getD (i + 3) 0) := by
  have hi : i + 3 < mem.length := by
    obtain ⟨b0, -, hrest⟩ := bind_eq_ok h
    obtain ⟨b1, -, hrest⟩ := bind_eq_ok hrest
    obtain ⟨b2, -, hrest⟩ := bind_eq_ok hrest
    obtain ⟨b3, h3, -⟩ := bind_eq_ok hrest
    exact (load8_eq_ok h3).1
  rw [load32_of_lt hi] at h
  exact ⟨hi, (Except.ok.inj h).symm⟩

theorem getD_drop (start k : Nat) : (mem.drop start).getD k 0 = mem.getD (start + k) 0 := by
  simp [List.getD]

theorem ipv4Read_eq_ok {layer : ProtocolLayer} {ip : Ipv4Parser}
    (h : ipv4Read mem layer = .ok ip) : ip = ipFields (mem.drop layer.rawData) := by
  obtain ⟨versionIhl, h0, h⟩ := bind_eq_ok h
  obtain ⟨totalLen, h2, h⟩ := bind_eq_ok h
  obtain ⟨protocol, h9, h⟩ := bind_eq_ok h
  obtain ⟨saddr, h12, h⟩ := bind_eq_ok h
  obtain ⟨daddr, h16, h⟩ := bind_eq_ok h
  rw [← Except.ok.inj h, (load8_eq_ok h0).2, (load16_eq_ok h2).2, (load8_eq_ok h9).2,
    (load32_eq_ok h12).2, (load32_eq_ok h16).2]
  simp only [ipFields, getD_drop]
  rfl

/-- The data offset of a TCP header at `rawData`. -/
theorem offset_eq (a b : UInt8) : (ntohs (word16 a b) >>> 12).toNat = a.toNat / 16 := by
  have hb := b.toNat_lt
  rw [UInt16.toNat_shiftRight, toNat_ntohs_word16]
  simp only [UInt16.reduceToNat, Nat.reduceMod, Nat.shiftRight_eq_div_pow, Nat.reducePow]
  omega

theorem tcpParse_eq_ok {rawData dataLength : Nat} {layer : ProtocolLayer}
    (h : tcpParse mem rawData dataLength = .ok layer) :
    20 ≤ dataLength ∧ (mem.getD (rawData + 12) 0).toNat / 16 * 4 ≤ dataLength ∧
      layer = ⟨rawData, dataLength, rawData + (mem.getD (rawData + 12) 0).toNat / 16 * 4,
        dataLength - (mem.getD (rawData + 12) 0).toNat / 16 * 4⟩ := by
  unfold tcpParse at h
  split at h
  · cases h
  next h20 =>
    obtain ⟨flags, hflags, h⟩ := bind_eq_ok h
    rw [(load16_eq_ok hflags).2] at h
    simp only [offset_eq] at h
    split at h
    · cases h
    next hle =>
      unfold tcpHeaderSize at h20
      exact ⟨by omega, by omega, (Except.ok.inj h).symm⟩

theorem tcpRead_eq_ok {layer : ProtocolLayer} {tcp : TcpParser}
    (h : tcpRead mem layer = .ok tcp) :
    layer.rawData + 16 ≤ mem.length ∧
      (0 < layer.payloadLen → layer.payloadPtr + layer.payloadLen ≤ mem.length) ∧
      tcp = tcpFields (mem.drop layer.rawData)
        ((mem.drop layer.payloadPtr).take layer.payloadLen) := by
  obtain ⟨source, h0, h⟩ := bind_eq_ok h
  obtain ⟨dest, h2, h⟩ := bind_eq_ok h
  obtain ⟨seq, h4, h⟩ := bind_eq_ok h
  obtain ⟨ackSeq, h8, h⟩ := bind_eq_ok h
  obtain ⟨flags, h12, h⟩ := bind_eq_ok h
  obtain ⟨window, h14, h⟩ := bind_eq_ok h
  obtain ⟨_, hdump, h⟩ := bind_eq_ok h
  obtain ⟨payload, hpayload, h⟩ := bind_eq_ok h
  have hlen := (load16_eq_ok h14).1
  refine ⟨by omega, ?_, ?_⟩
  · rw [dumpPayload_eq] at hdump
    split at hdump
    · assumption
    · cases hdump
  · rw [loadRange_eq] at hpayload
    split at hpayload
    · rw [← Except.ok.inj h, (load16_eq_ok h0).2, (load16_eq_ok h2).2, (load32_eq_ok h4).2,
        (load32_eq_ok h8).2, (load16_eq_ok h12).2, (load16_eq_ok h14).2,
        ← Except.ok.inj hpayload]
      simp only [tcpFields, getD_drop]
      rfl
    · cases hpayload

theorem ipv4Parse_eq_ok {bytes : Bytes} {layer : ProtocolLayer} (h14 : 14 ≤ bytes.length)
    (h : ipv4Parse bytes 14 (bytes.length - 14) = .ok layer) : layer = ipLayerOf bytes := by
  by_cases h34 : bytes.length - 14 < 20
  · rw [ipv4Parse_short bytes 14 h34] at h
    cases h
  rw [ipv4Parse_eq bytes 14 _ (by omega) (by omega)] at h
  split at h
  · cases h
  split at h
  · cases h
  split at h
  · cases h
  · exact (Except.ok.inj h).symm

end Inversion

/-- The layers of a frame that is handed on, as the capture path makes them. -/
theorem captureFrame_layers {bytes : Bytes} {packet : Packet}
    (h : (captureFrame bytes).2 = .ok (some packet)) :
    ∃ ip tcp tcpLayer, packet = ⟨some ip, some tcp⟩ ∧
      ipv4Parse bytes 14 (bytes.length - 14) = .ok (ipLayerOf bytes) ∧
      ipv4Read bytes (ipLayerOf bytes) = .ok ip ∧ ip.protocol = 6 ∧
      tcpParse bytes (ipLayerOf bytes).payloadPtr (ipLayerOf bytes).payloadLen = .ok tcpLayer ∧
      tcpRead bytes tcpLayer = .ok tcp := by
  by_cases h14 : bytes.length < 14
  · rw [captureFrame, ethernetParse_short h14] at h
    cases h
  obtain ⟨eth, heth, -⟩ := ethernetParse_ok bytes (by omega)
  simp only [captureFrame, heth] at h
  split at h
  · cases h
  split at h
  · cases h
  next ipLayer hip =>
    obtain rfl := ipv4Parse_eq_ok (by omega) hip
    split at h
    · cases h
    next ip hread =>
      split at h
      · cases h
      next hproto =>
        split at h
        · cases h
        next tcpLayer htcp =>
          cases htcpRead : tcpRead bytes tcpLayer with
          | error e =>
            rw [htcpRead] at h
            cases h
          | ok tcp =>
            rw [htcpRead] at h
            obtain rfl := Option.some.inj (Except.ok.inj h)
            exact ⟨ip, tcp, tcpLayer, rfl, hip, hread, not_not.mp hproto, htcp, htcpRead⟩

/-- A `total_len` below the header length would have wrapped into a payload that no capture
holds, and its dump would have left the buffer. -/
theorem captureFrame_some (frame : CapturedFrame) {packet : Packet}
    (h : (captureFrame frame.bytes).2 = .ok (some packet)) :
    ∃ ip tcp, packet = ⟨some ip, some tcp⟩ ∧ HandedOn frame.bytes ip tcp := by
  obtain ⟨ip, tcp, tcpLayer, rfl, hip, hread, hproto, htcp, htcpRead⟩ := captureFrame_layers h
  have hacc : ∃ layer, ipv4Parse frame.bytes 14 (frame.bytes.length - 14) = .ok layer :=
    ⟨_, hip⟩
  have hlong : 14 + 20 ≤ frame.bytes.length := by
    by_contra hshort
    rw [ipv4Parse_short frame.bytes 14 (by omega)] at hip
    cases hip
  rw [ipv4Parse_accepts_iff (by omega)] at hacc
  obtain ⟨-, hfit, hihl, hchecked⟩ := hacc
  obtain ⟨h20, hoffset, rfl⟩ := tcpParse_eq_ok htcp
  obtain ⟨hcaptured, hpayload, rfl⟩ := tcpRead_eq_ok htcpRead
  have hcap := frame.caplen_lt
  have hmax := ihlOf_le frame.bytes 14
  have htotal := totalLenOf_lt frame.bytes
  have hoff : (frame.bytes.getD (14 + ihlOf frame.bytes 14 * 4 + 12) 0).toNat / 16 < 16 := by
    have hbyte := (frame.bytes.getD (14 + ihlOf frame.bytes 14 * 4 + 12) 0).toNat_lt
    omega
  have hsize : ihlOf frame.bytes 14 * 4 ≤ totalLenOf frame.bytes := by
    by_contra hlt
    have hwrap : (ipLayerOf frame.bytes).payloadLen =
        2 ^ 64 - (ihlOf frame.bytes 14 * 4 - totalLenOf frame.bytes) :=
      sizeSub_of_lt (by omega) (by omega)
    simp only [hwrap] at hpayload
    simp only [ipLayerOf] at hpayload
    have hbound := hpayload (by omega)
    omega
  have hlen : (ipLayerOf frame.bytes).payloadLen =
      totalLenOf frame.bytes - ihlOf frame.bytes 14 * 4 :=
    sizeSub_of_le (by omega) hsize
  rw [hlen] at h20 hoffset
  simp only [hlen] at hpayload
  simp only [ipLayerOf] at hoffset hpayload hcaptured
  refine ⟨ip, _, rfl, ?_⟩
  exact
    { ihl_ge := hihl
      checked := hchecked
      protocol := hproto
      ip_eq := ipv4Read_eq_ok hread
      segment_le := by omega
      offset_le := by
        unfold dataOffsetOf segmentStart
        omega
      captured := hcaptured
      payload_captured := by
        intro hmore
        unfold dataOffsetOf segmentStart at hmore
        have hbound := hpayload (by omega)
        omega
      tcp_eq := by
        rw [hlen]
        rfl }

end MyTelnet.Wire.HandingOn
