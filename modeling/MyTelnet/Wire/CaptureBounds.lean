/- module: MyTelnet/Wire/CaptureBounds
   scope: proofs
   digest: The capture path stays inside the captured bytes exactly on the frames described here. -/

import MyTelnet.Wire.ParserSpecs

set_option autoImplicit false
set_option relaxedAutoImplicit false

namespace MyTelnet.Wire.CaptureBounds

open MyTelnet.Base.ByteOrder MyTelnet.Base.OnesComplement
open MyTelnet.Wire.Memory MyTelnet.Wire.Layers MyTelnet.Wire.Parsers MyTelnet.Wire.ParserSpecs

/-- What `pcap_next_ex` delivers; `caplen` is a 32-bit field. -/
structure CapturedFrame where
  bytes : Bytes
  caplen_lt : bytes.length < 2 ^ 32

/-- The payload of a layer object ends inside the captured bytes, and the `size_t` subtraction
behind its length did not wrap. -/
def LayerInBounds (caplen : Nat) (layer : ProtocolLayer) : Prop :=
  layer.payloadPtr + layer.payloadLen ≤ caplen ∧
    layer.payloadLen + (layer.payloadPtr - layer.rawData) < 2 ^ 64

/-- No access of the capture path leaves its buffer and every payload length it computes is
within the captured bytes. An exception is a safe outcome. -/
def CaptureSafe (frame : CapturedFrame) : Prop :=
  (captureFrame frame.bytes).2 ≠ .error .undefinedBehaviour ∧
    ∀ layer ∈ (captureFrame frame.bytes).1, LayerInBounds frame.bytes.length layer

section Fields

variable (bytes : Bytes)

def etherTypeOf : UInt16 := ntohs (word16 (bytes.getD 12 0) (bytes.getD 13 0))

def totalLenOf : Nat := 256 * (bytes.getD 16 0).toNat + (bytes.getD 17 0).toNat

/-- The IP header checksum of a frame is the complement of its one's-complement sum. -/
def HeaderChecksumValid : Prop :=
  256 * ((ipHeaderOf bytes 14).getD 10 0).toNat + ((ipHeaderOf bytes 14).getD 11 0).toNat =
    65535 - canon (wordSum (((ipHeaderOf bytes 14).set 10 0).set 11 0))

/-- The frames on which nothing goes out of bounds: too short for an IP header, not IP, too
short for the IHL, or with an IHL of at least 3 and either a wrong header checksum or a
`total_len` between the header length and the captured bytes. -/
def FrameInBounds : Prop :=
  bytes.length < 34 ∨ etherTypeOf bytes ≠ ethertypeIp ∨
    bytes.length < 14 + ihlOf bytes 14 * 4 ∨
    3 ≤ ihlOf bytes 14 ∧
      (¬HeaderChecksumValid bytes ∨
        ihlOf bytes 14 * 4 ≤ totalLenOf bytes ∧ 14 + totalLenOf bytes ≤ bytes.length)

end Fields

private theorem checksumMatches_frame (bytes : Bytes) :
    checksumMatches (ipHeaderOf bytes 14) ↔ HeaderChecksumValid bytes := by
  have hihl := ihlOf_le bytes 14
  apply checksumMatches_iff
  simp only [ipHeaderOf, List.length_take]
  omega

theorem totalLenOf_lt (bytes : Bytes) : totalLenOf bytes < 65536 := by
  have h0 := (bytes.getD 16 0).toNat_lt
  have h1 := (bytes.getD 17 0).toNat_lt
  unfold totalLenOf
  omega

private theorem ethernet_inBounds (bytes : Bytes) (h : 14 ≤ bytes.length)
    (hcap : bytes.length < 2 ^ 32) :
    LayerInBounds bytes.length ⟨0, bytes.length, 14, bytes.length - 14⟩ := by
  constructor <;> dsimp only <;> omega

/-- The IP layer object, which is made whenever the header checks pass. -/
def ipLayerOf (bytes : Bytes) : ProtocolLayer :=
  ⟨14, bytes.length - 14, 14 + ihlOf bytes 14 * 4,
    sizeSub (totalLenOf bytes) (ihlOf bytes 14 * 4)⟩

/-- Both halves of the bound on `total_len` show in the IP layer object: a wrapped length is
near the top of `size_t`, far beyond any captured frame. -/
theorem ipLayer_inBounds_iff (frame : CapturedFrame) :
    LayerInBounds frame.bytes.length (ipLayerOf frame.bytes) ↔
      ihlOf frame.bytes 14 * 4 ≤ totalLenOf frame.bytes ∧
        14 + totalLenOf frame.bytes ≤ frame.bytes.length := by
  have hcap := frame.caplen_lt
  have hihl := ihlOf_le frame.bytes 14
  have htot := totalLenOf_lt frame.bytes
  unfold LayerInBounds ipLayerOf
  dsimp only
  by_cases hle : ihlOf frame.bytes 14 * 4 ≤ totalLenOf frame.bytes
  · rw [sizeSub_of_le (by omega) hle]
    omega
  · rw [sizeSub_of_lt (by omega) (by omega)]
    omega

private theorem tcp_inBounds {bytes : Bytes} {rawData dataLength headerLength : Nat}
    (hcap : bytes.length < 2 ^ 32) (hfit : rawData + dataLength ≤ bytes.length)
    (hle : headerLength ≤ dataLength) :
    LayerInBounds bytes.length
      ⟨rawData, dataLength, rawData + headerLength, dataLength - headerLength⟩ := by
  constructor <;> dsimp only <;> omega

/-- A frame whose IP header is refused by an exception is safe. -/
private theorem captureSafe_of_rejected {frame : CapturedFrame} {eth : EthernetParser}
    {what : String}
    (heth : ethernetParse frame.bytes 0 frame.bytes.length =
      .ok (⟨0, frame.bytes.length, 14, frame.bytes.length - 14⟩, eth))
    (htype : eth.etherType = ethertypeIp)
    (hip : ipv4Parse frame.bytes 14 (frame.bytes.length - 14) = .error (.exception what))
    (hlen : 14 ≤ frame.bytes.length) : CaptureSafe frame := by
  have hethIn := ethernet_inBounds frame.bytes hlen frame.caplen_lt
  simp [CaptureSafe, captureFrame, heth, htype, hip, hethIn]

/-- Once the IP header is accepted the path continues into TCP, and it is the IP layer object
alone that decides its safety. -/
private theorem captureSafe_of_accepted {frame : CapturedFrame} {eth : EthernetParser}
    (heth : ethernetParse frame.bytes 0 frame.bytes.length =
      .ok (⟨0, frame.bytes.length, 14, frame.bytes.length - 14⟩, eth))
    (htype : eth.etherType = ethertypeIp)
    (hip : ipv4Parse frame.bytes 14 (frame.bytes.length - 14) = .ok (ipLayerOf frame.bytes))
    (hlen : 34 ≤ frame.bytes.length) :
    CaptureSafe frame ↔ LayerInBounds frame.bytes.length (ipLayerOf frame.bytes) := by
  have hcap := frame.caplen_lt
  have hethIn := ethernet_inBounds frame.bytes (by omega) hcap
  obtain ⟨ip, hread⟩ := ipv4Read_ok frame.bytes (ipLayerOf frame.bytes)
    (by change 14 + 20 ≤ _; omega)
  constructor
  · intro h
    apply h.2 (ipLayerOf frame.bytes)
    simp only [captureFrame, heth, htype, hip, hread, ne_eq, not_true, if_false]
    split
    · simp
    · split <;> simp
  · intro hin
    have hfit : (ipLayerOf frame.bytes).payloadPtr + (ipLayerOf frame.bytes).payloadLen ≤
        frame.bytes.length := hin.1
    unfold CaptureSafe
    simp only [captureFrame, heth, htype, hip, hread, ne_eq, not_true, if_false]
    split
    · simp [hethIn, hin]
    · obtain ⟨what, htcp⟩ | ⟨headerLength, hle, h20, htcp⟩ := tcpParse_cases hfit
      · simp [htcp, hethIn, hin]
      · obtain ⟨tcp, htcpRead⟩ := tcpRead_ok frame.bytes
          (⟨(ipLayerOf frame.bytes).payloadPtr, (ipLayerOf frame.bytes).payloadLen,
            (ipLayerOf frame.bytes).payloadPtr + headerLength,
            (ipLayerOf frame.bytes).payloadLen - headerLength⟩)
          (by dsimp only; omega) (by dsimp only; omega)
        have htcpIn := tcp_inBounds hcap hfit hle
        simp [htcp, htcpRead, hethIn, hin, htcpIn, Except.map]

/-- The capture path is memory safe exactly on the frames that `FrameInBounds` describes. -/
theorem captureSafe_iff (frame : CapturedFrame) :
    CaptureSafe frame ↔ FrameInBounds frame.bytes := by
  have hcap := frame.caplen_lt
  by_cases h14 : frame.bytes.length < 14
  · have hsafe : CaptureSafe frame := by
      simp [CaptureSafe, captureFrame, ethernetParse_short h14]
    exact iff_of_true hsafe (.inl (by omega))
  obtain ⟨eth, heth, htype⟩ := ethernetParse_ok frame.bytes (by omega)
  by_cases hip : eth.etherType = ethertypeIp
  swap
  · have hethIn := ethernet_inBounds frame.bytes (by omega) hcap
    have hsafe : CaptureSafe frame := by
      simp [CaptureSafe, captureFrame, heth, hip, hethIn]
    exact iff_of_true hsafe (.inr (.inl (by rwa [etherTypeOf, ← htype])))
  by_cases h34 : frame.bytes.length < 34
  · have hparse := ipv4Parse_short frame.bytes 14 (show frame.bytes.length - 14 < 20 by omega)
    exact iff_of_true (captureSafe_of_rejected heth hip hparse (by omega)) (.inl h34)
  -- From here on an IP header is parsed, and its three checks decide.
  have hparse := ipv4Parse_eq frame.bytes 14
    (frame.bytes.length - 14) (by omega) (by omega)
  by_cases hshort : frame.bytes.length < 14 + ihlOf frame.bytes 14 * 4
  · rw [if_pos (by omega)] at hparse
    have hsafe := captureSafe_of_rejected heth hip hparse (by omega)
    exact iff_of_true hsafe (.inr (.inr (.inl hshort)))
  rw [if_neg (by omega)] at hparse
  have htype' : etherTypeOf frame.bytes = ethertypeIp := by rw [etherTypeOf, ← htype, hip]
  by_cases hihl : ihlOf frame.bytes 14 < 3
  · rw [if_pos hihl] at hparse
    have hunsafe : ¬CaptureSafe frame := by
      simp [CaptureSafe, captureFrame, heth, hip, hparse]
    apply iff_of_false hunsafe
    rintro (h | h | h | h)
    · exact h34 h
    · exact h htype'
    · exact hshort h
    · omega
  rw [if_neg hihl] at hparse
  by_cases hsum : checksumMatches (ipHeaderOf frame.bytes 14)
  swap
  · rw [if_pos hsum] at hparse
    have hwrong : ¬HeaderChecksumValid frame.bytes := by
      intro hvalid
      exact hsum ((checksumMatches_frame _).mpr hvalid)
    have hsafe := captureSafe_of_rejected heth hip hparse (by omega)
    exact iff_of_true hsafe (.inr (.inr (.inr ⟨by omega, .inl hwrong⟩)))
  rw [if_neg (not_not.mpr hsum)] at hparse
  rw [captureSafe_of_accepted heth hip hparse (by omega), ipLayer_inBounds_iff]
  constructor
  · intro h
    exact .inr (.inr (.inr ⟨by omega, .inr h⟩))
  · rintro (h | h | h | ⟨-, h | h⟩)
    · exact absurd h h34
    · exact absurd htype' h
    · exact absurd h hshort
    · exact absurd ((checksumMatches_frame _).mp hsum) h
    · exact h

/-- A TCP frame of 54 bytes whose IP header announces 60, so 74 with the Ethernet header: none of
the twenty payload bytes that the dump and the copy read was captured. -/
def overlongFrame : Bytes :=
  [0x00, 0x50, 0x56, 0xe7, 0xfb, 0x1b, 0x02, 0x01, 0x02, 0x03, 0x04, 0x05, 0x08, 0x00] ++
  [0x45, 0x00, 0x00, 0x3c, 0x00, 0x01, 0x00, 0x00, 0x40, 0x06, 0x66, 0xb9,
   0x0a, 0x00, 0x00, 0x01, 0x0a, 0x00, 0x00, 0x02] ++
  [0x00, 0x50, 0x04, 0x00, 0x00, 0x00, 0x00, 0x01, 0x00, 0x00, 0x00, 0x01,
   0x50, 0x18, 0x20, 0x00, 0x00, 0x00, 0x00, 0x00]

theorem overlongFrame_unsafe :
    ¬∀ frame : CapturedFrame, CaptureSafe frame := by
  intro h
  have hub : (captureFrame overlongFrame).2 = .error .undefinedBehaviour := by decide +kernel
  exact (h ⟨overlongFrame, by decide⟩).1 hub

end MyTelnet.Wire.CaptureBounds
