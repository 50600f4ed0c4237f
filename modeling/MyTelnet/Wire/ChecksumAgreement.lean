/- module: MyTelnet/Wire/ChecksumAgreement
   scope: proofs
   digest: The three word loops of the TCP checksum compute what one loop over all bytes does. -/

import MyTelnet.Wire.Checksum

set_option autoImplicit false
set_option relaxedAutoImplicit false

namespace MyTelnet.Wire.ChecksumAgreement

open MyTelnet.Base.ByteOrder MyTelnet.Base.OnesComplement
open MyTelnet.Wire.Memory MyTelnet.Wire.Checksum

/-- The header bytes that `calculate_tcp_checksum` sums, with the check field cleared. -/
def clearedHeader (tcpHeader : Bytes) : Bytes :=
  ((tcpHeader.set 16 0).set 17 0).take (tcpHeaderLen tcpHeader)

theorem tcpHeaderLen_even (tcpHeader : Bytes) : tcpHeaderLen tcpHeader % 2 = 0 := by
  unfold tcpHeaderLen
  dsimp only
  omega

theorem tcpHeaderLen_ge (tcpHeader : Bytes) : 20 ≤ tcpHeaderLen tcpHeader :=
  Nat.le_max_left _ _

theorem pseudoHeader_length (srcIp dstIp : UInt32) (tcpLen : UInt16) :
    (pseudoHeader srcIp dstIp tcpLen).length = 12 := by
  simp [pseudoHeader, store32, store16]

theorem clearedHeader_length {tcpHeader : Bytes}
    (h : tcpHeaderLen tcpHeader ≤ tcpHeader.length) :
    (clearedHeader tcpHeader).length = tcpHeaderLen tcpHeader := by
  simp only [clearedHeader, List.length_take, List.length_set]
  omega

/-- The check field is put back: the buffer leaves the routine as it came. -/
theorem calculateTcpChecksum_snd (srcIp dstIp : UInt32) {tcpHeader : Bytes} (payload : Bytes)
    (h : 18 ≤ tcpHeader.length) :
    (calculateTcpChecksum srcIp dstIp tcpHeader payload).2 = tcpHeader := by
  show (((tcpHeader.set 16 0).set 17 0).set 16 (tcpHeader.getD 16 0)).set 17
    (tcpHeader.getD 17 0) = tcpHeader
  apply List.ext_getElem?
  intro i
  have h16 : tcpHeader[16]? = some (tcpHeader.getD 16 0) := by
    simp [List.getD, List.getElem?_eq_getElem (show 16 < tcpHeader.length by omega)]
  have h17 : tcpHeader[17]? = some (tcpHeader.getD 17 0) := by
    simp [List.getD, List.getElem?_eq_getElem (show 17 < tcpHeader.length by omega)]
  by_cases hi17 : i = 17
  · subst hi17
    rw [List.getElem?_set_self (by simp only [List.length_set]; omega), h17]
  · rw [List.getElem?_set_ne (by omega)]
    by_cases hi16 : i = 16
    · subst hi16
      rw [List.getElem?_set_self (by simp only [List.length_set]; omega), h16]
    · rw [List.getElem?_set_ne (by omega), List.getElem?_set_ne (by omega),
        List.getElem?_set_ne (by omega)]

/-- Whatever the addresses, the header with all its bytes and the payload: the TCP checksum is
the general checksum of pseudo header, cleared header and payload, also where the accumulator
wraps. -/
theorem checksums_agree (srcIp dstIp : UInt32) (tcpHeader payload : Bytes)
    (h : tcpHeaderLen tcpHeader ≤ tcpHeader.length) :
    (calculateTcpChecksum srcIp dstIp tcpHeader payload).1 =
        htons (calculateChecksumNew
          (pseudoHeader srcIp dstIp (UInt16.ofNat (tcpHeaderLen tcpHeader + payload.length)) ++
            clearedHeader tcpHeader ++ payload)) ∧
      (calculateTcpChecksum srcIp dstIp tcpHeader payload).2 = tcpHeader := by
  have hlen := tcpHeaderLen_ge tcpHeader
  have hheader : (clearedHeader tcpHeader).length % 2 = 0 := by
    rw [clearedHeader_length h]
    exact tcpHeaderLen_even tcpHeader
  have hpseudo : ∀ tcpLen, (pseudoHeader srcIp dstIp tcpLen).length % 2 = 0 := by
    intro tcpLen
    rw [pseudoHeader_length]
  constructor
  · rw [calculateTcpChecksum_fst, calculateChecksumNew,
      ← tcpSum_eq payload (hpseudo _) hheader]
    rfl
  · exact calculateTcpChecksum_snd srcIp dstIp payload (by omega)

/-- A header with data offset 0, which counts as 20 bytes, and an odd payload. -/
theorem checksums_agree_clamped :
    calculateTcpChecksum 0x0A000001 0x0A000002 (List.replicate 20 0xFF |>.set 12 0x0F)
        [1, 2, 3] =
      (htons (calculateChecksumNew
        (pseudoHeader 0x0A000001 0x0A000002 23 ++
          clearedHeader (List.replicate 20 0xFF |>.set 12 0x0F) ++ [1, 2, 3])),
        List.replicate 20 0xFF |>.set 12 0x0F) := by
  have hlen : tcpHeaderLen (List.replicate 20 0xFF |>.set 12 0x0F) = 20 := by decide +kernel
  have hagree := checksums_agree 0x0A000001 0x0A000002
    (List.replicate 20 0xFF |>.set 12 0x0F) [1, 2, 3] (by rw [hlen]; decide)
  rw [hlen] at hagree
  exact Prod.ext hagree.1 hagree.2

end MyTelnet.Wire.ChecksumAgreement
