/- module: MyTelnet/Wire/LayerOverlap
   scope: proofs
   digest: When the layers of a frame that is handed on lie side by side in it. -/

import MyTelnet.Wire.HandingOn

set_option autoImplicit false
set_option relaxedAutoImplicit false

namespace MyTelnet.Wire.LayerOverlap

open MyTelnet.Base.ByteOrder MyTelnet.Wire.Memory MyTelnet.Wire.Layers MyTelnet.Wire.Parsers
open MyTelnet.Wire.ParserSpecs MyTelnet.Wire.CaptureBounds MyTelnet.Wire.HandingOn

/-- The captured bytes up to `total_len` are an Ethernet header, a full IP header, a full TCP
header and the payload, one after the other, and the fields of the packet are read from their
own part. -/
structure LayersDisjoint (bytes : Bytes) (packet : Packet) : Prop where
  ihl : 5 ≤ ihlOf bytes 14
  offset : 5 ≤ dataOffsetOf bytes
  fits : 4 * ihlOf bytes 14 + 4 * dataOffsetOf bytes ≤ totalLenOf bytes
  cut : ∃ eth ipHeader tcpHeader payload : Bytes,
    bytes.take (14 + totalLenOf bytes) = eth ++ ipHeader ++ tcpHeader ++ payload ∧
      eth.length = 14 ∧ ipHeader.length = 4 * ihlOf bytes 14 ∧
      tcpHeader.length = 4 * dataOffsetOf bytes ∧
      14 + totalLenOf bytes =
        eth.length + ipHeader.length + tcpHeader.length + payload.length ∧
      packet = ⟨some (ipFields ipHeader), some (tcpFields tcpHeader payload)⟩

/-- A header's accessors read its first 20 bytes. -/
theorem ipFields_take {bytes : Bytes} {n : Nat} (h : 20 ≤ n) :
    ipFields (bytes.take n) = ipFields bytes := by
  have hcell : ∀ k, k < 20 → (bytes.take n).getD k 0 = bytes.getD k 0 := by
    intro k hk
    simp [List.getD, show k < n by omega]
  simp (disch := decide) only [ipFields, hcell]

theorem tcpFields_take {bytes : Bytes} {n : Nat} (payload : Bytes) (h : 20 ≤ n) :
    tcpFields (bytes.take n) payload = tcpFields bytes payload := by
  have hcell : ∀ k, k < 20 → (bytes.take n).getD k 0 = bytes.getD k 0 := by
    intro k hk
    simp [List.getD, show k < n by omega]
  simp (disch := decide) only [tcpFields, hcell]

/-- Consecutive pieces of a byte string, each cut at the end of the one before. -/
theorem take_cut (bytes : Bytes) (a b c d : Nat) :
    bytes.take (a + b + c + d) =
      bytes.take a ++ (bytes.drop a).take b ++ (bytes.drop (a + b)).take c ++
        (bytes.drop (a + b + c)).take d := by
  rw [List.take_add, List.take_add, List.take_add]

/-- Nothing compares IHL or the data offset with 5, nor the TCP header length with the captured
bytes when there is no payload behind it; these three apart, the layers of every frame that is
handed on lie side by side. -/
theorem layersDisjoint_iff (frame : CapturedFrame) (packet : Packet)
    (h : (captureFrame frame.bytes).2 = .ok (some packet)) :
    LayersDisjoint frame.bytes packet ↔
      5 ≤ ihlOf frame.bytes 14 ∧ 5 ≤ dataOffsetOf frame.bytes ∧
        14 + totalLenOf frame.bytes ≤ frame.bytes.length := by
  obtain ⟨ip, tcp, rfl, hon⟩ := captureFrame_some frame h
  have hfits := hon.offset_le
  constructor
  · intro hall
    obtain ⟨eth, ipHeader, tcpHeader, payload, hcut, -, -, -, hlen, -⟩ := hall.cut
    have htake := congrArg List.length hcut
    simp only [List.length_take, List.length_append] at htake
    exact ⟨hall.ihl, hall.offset, by omega⟩
  · rintro ⟨hihl, hoff, hcap⟩
    refine ⟨hihl, hoff, by omega, ?_⟩
    obtain ⟨rest, hrest⟩ : ∃ rest, totalLenOf frame.bytes =
        4 * ihlOf frame.bytes 14 + 4 * dataOffsetOf frame.bytes + rest :=
      ⟨totalLenOf frame.bytes - 4 * ihlOf frame.bytes 14 - 4 * dataOffsetOf frame.bytes, by omega⟩
    have hsum : 14 + totalLenOf frame.bytes =
        14 + 4 * ihlOf frame.bytes 14 + 4 * dataOffsetOf frame.bytes + rest := by omega
    refine ⟨frame.bytes.take 14, (frame.bytes.drop 14).take (4 * ihlOf frame.bytes 14),
      (frame.bytes.drop (14 + 4 * ihlOf frame.bytes 14)).take (4 * dataOffsetOf frame.bytes),
      (frame.bytes.drop (14 + 4 * ihlOf frame.bytes 14 + 4 * dataOffsetOf frame.bytes)).take rest,
      ?_, ?_, ?_, ?_, ?_, ?_⟩
    · rw [hsum]
      exact take_cut _ _ _ _ _
    · simp only [List.length_take]
      omega
    · simp only [List.length_take, List.length_drop]
      omega
    · simp only [List.length_take, List.length_drop]
      omega
    · simp only [List.length_take, List.length_drop]
      omega
    · have hstart : segmentStart frame.bytes = 14 + 4 * ihlOf frame.bytes 14 := by
        unfold segmentStart
        omega
      have hpayload : totalLenOf frame.bytes - ihlOf frame.bytes 14 * 4 -
          dataOffsetOf frame.bytes * 4 = rest := by omega
      rw [ipFields_take (by omega), tcpFields_take _ (by omega), hon.ip_eq, hon.tcp_eq,
        hpayload, hstart, Nat.mul_comm (dataOffsetOf frame.bytes) 4]

/-- A segment of one byte in a frame of its length. -/
def oneByteFrame : Bytes :=
  [0x00, 0x50, 0x56, 0xe7, 0xfb, 0x1b, 0x02, 0x01, 0x02, 0x03, 0x04, 0x05, 0x08, 0x00] ++
  [0x45, 0x00, 0x00, 0x29, 0x00, 0x01, 0x00, 0x00, 0x40, 0x06, 0x66, 0xcc,
   0x0a, 0x00, 0x00, 0x01, 0x0a, 0x00, 0x00, 0x02] ++
  [0x00, 0x50, 0x04, 0x00, 0x00, 0x00, 0x00, 0x01, 0x00, 0x00, 0x00, 0x01,
   0x50, 0x18, 0x20, 0x00, 0x00, 0x00, 0x00, 0x00, 0x61]

/-- The same with a data offset of 0. -/
def headerlessFrame : Bytes := oneByteFrame.set 46 0x00

/-- What the capture path makes of a frame of this kind. -/
def oneBytePacket (dataOffset : UInt8) (payload : Bytes) : Packet :=
  ⟨some ⟨5, 41, 6, 0x0A000001, 0x0A000002⟩,
    some ⟨80, 1024, 1, 1, dataOffset, tcpPsh ||| tcpAck, 0x2000, payload⟩⟩

theorem layersDisjoint_iff_sample :
    LayersDisjoint oneByteFrame (oneBytePacket 5 [0x61]) ↔
      5 ≤ ihlOf oneByteFrame 14 ∧ 5 ≤ dataOffsetOf oneByteFrame ∧
        14 + totalLenOf oneByteFrame ≤ oneByteFrame.length :=
  layersDisjoint_iff ⟨oneByteFrame, by decide⟩ (oneBytePacket 5 [0x61]) (by decide +kernel)

/-- The 20 bytes of the TCP header come as application data in front of the one byte. -/
theorem header_delivered :
    ¬∀ (frame : CapturedFrame) (packet : Packet),
      (captureFrame frame.bytes).2 = .ok (some packet) → LayersDisjoint frame.bytes packet := by
  intro h
  have hparsed : (captureFrame headerlessFrame).2 =
      .ok (some (oneBytePacket 0 (headerlessFrame.drop 34))) := by decide +kernel
  have hoff := (h ⟨headerlessFrame, by decide⟩ _ hparsed).offset
  exact absurd hoff (by decide +kernel)

end MyTelnet.Wire.LayerOverlap
