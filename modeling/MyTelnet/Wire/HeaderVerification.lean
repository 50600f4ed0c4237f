/- module: MyTelnet/Wire/HeaderVerification
   scope: proofs
   digest: The checksum comparison of the IP parser against the test for all ones. -/

import MyTelnet.Wire.ParserSpecs

set_option autoImplicit false
set_option relaxedAutoImplicit false

namespace MyTelnet.Wire.HeaderVerification

open MyTelnet.Base.ByteOrder MyTelnet.Base.OnesComplement
open MyTelnet.Wire.Memory MyTelnet.Wire.Layers MyTelnet.Wire.Parsers MyTelnet.Wire.ParserSpecs

/-- Sum of the words of a header other than its check field. -/
def otherWords (header : Bytes) : Nat := wordSum (setWord header 5 0 0)

theorem otherWords_add {header : Bytes} (hlen : 12 ≤ header.length) :
    otherWords header + wordAt header 5 = wordSum header :=
  wordSum_setWord header 5 0 0 hlen

theorem otherWords_pos {header : Bytes} (hlen : 12 ≤ header.length)
    (hfirst : header.getD 0 0 ≠ 0) : 0 < otherWords header := by
  have hword : wordAt (setWord header 5 0 0) 0 ≤ otherWords header :=
    wordAt_le_wordSum _ 0 (by rw [length_setWord]; omega)
  have hsame : wordAt (setWord header 5 0 0) 0 = wordAt header 0 :=
    wordAt_setWord_of_ne (by omega)
  have hbyte : (header.getD 0 0).toNat ≠ 0 := by
    intro h
    exact hfirst (UInt8.toNat_inj.mp h)
  have hle : 256 * (header.getD 0 0).toNat ≤ wordAt header 0 := Nat.le_add_right _ _
  omega

theorem wordAt_le (header : Bytes) (k : Nat) : wordAt header k ≤ 65535 := by
  have hhi := (header.getD (2 * k) 0).toNat_lt
  have hlo := (header.getD (2 * k + 1) 0).toNat_lt
  unfold wordAt
  omega

/-- The comparison takes no header that the sum rejects. -/
theorem matched_header_verifies {header : Bytes} (hmin : 12 ≤ header.length)
    (hmax : header.length ≤ 131074) (h : checksumMatches header) : onesSum header = 0xFFFF := by
  have hfield : wordAt header 5 = 65535 - canon (otherWords header) :=
    (checksumMatches_iff hmax).mp h
  rw [onesSum_eq, ← otherWords_add hmin, hfield]
  exact canon_complement _

/-- The comparison is the test for all ones, unless the check field is the second zero and the
other words need a zero. -/
theorem checksumMatches_fills {header : Bytes} (hmin : 12 ≤ header.length)
    (hmax : header.length ≤ 131074) (hfirst : header.getD 0 0 ≠ 0) :
    (checksumMatches header ↔ onesSum header = 0xFFFF) ↔
      ¬(wordAt header 5 = 0xFFFF ∧ otherWords header % 65535 = 0) := by
  have hmatch : checksumMatches header ↔ wordAt header 5 = 65535 - canon (otherWords header) :=
    checksumMatches_iff hmax
  rw [hmatch, onesSum_eq, ← otherWords_add hmin]
  exact complement_iff_fills (otherWords_pos hmin hfirst) (wordAt_le header 5)

section Buffer

variable {mem : Bytes} {rawData : Nat}

theorem ipHeaderOf_length (h : rawData + ihlOf mem rawData * 4 ≤ mem.length) :
    (ipHeaderOf mem rawData).length = ihlOf mem rawData * 4 := by
  simp only [ipHeaderOf, List.length_take, List.length_drop]
  omega

/-- The byte that holds the IHL nibble. -/
theorem ipHeaderOf_first (h : 0 < ihlOf mem rawData) : (ipHeaderOf mem rawData).getD 0 0 ≠ 0 := by
  have hbyte : (ipHeaderOf mem rawData).getD 0 0 = mem.getD rawData 0 := by
    simp [ipHeaderOf, List.getD, h]
  intro hzero
  rw [hbyte] at hzero
  rw [ihlOf, hzero] at h
  exact absurd h (by decide)

/-- `Ipv4Parser::parse` gets past its checksum comparison, behind which nothing fails. -/
def PastComparison (mem : Bytes) (rawData dataLength : Nat) : Prop :=
  ∃ layer, ipv4Parse mem rawData dataLength = .ok layer

variable {dataLength : Nat}

theorem pastComparison_iff (hihl : 5 ≤ ihlOf mem rawData)
    (hfit : ihlOf mem rawData * 4 ≤ dataLength) (hmem : rawData + dataLength ≤ mem.length) :
    PastComparison mem rawData dataLength ↔ checksumMatches (ipHeaderOf mem rawData) := by
  rw [PastComparison, ipv4Parse_accepts_iff hmem]
  constructor
  · intro h
    exact h.2.2.2
  · intro h
    exact ⟨by omega, hfit, by omega, h⟩

/-- A header that lies in the buffer passes the comparison exactly when its words add up to all
ones, except where the stored checksum is 0xFFFF and the other words add up to a zero. -/
theorem header_verified_iff (hihl : 5 ≤ ihlOf mem rawData)
    (hfit : ihlOf mem rawData * 4 ≤ dataLength) (hmem : rawData + dataLength ≤ mem.length) :
    (PastComparison mem rawData dataLength ↔ onesSum (ipHeaderOf mem rawData) = 0xFFFF) ↔
      ¬(wordAt (ipHeaderOf mem rawData) 5 = 0xFFFF ∧
        otherWords (ipHeaderOf mem rawData) % 65535 = 0) := by
  have hlen : (ipHeaderOf mem rawData).length = ihlOf mem rawData * 4 :=
    ipHeaderOf_length (by omega)
  have hmax := ihlOf_le mem rawData
  rw [pastComparison_iff hihl hfit hmem]
  exact checksumMatches_fills (by omega) (by omega) (ipHeaderOf_first (by omega))

end Buffer

/-- A header without options whose other words add up to 0xFFFF, with the checksum 0xFFFF. -/
def secondZeroHeader : Bytes :=
  [0x45, 0x00, 0x00, 0x14, 0x00, 0x00, 0x00, 0x00, 0x40, 0x06, 0xFF, 0xFF,
   0x0a, 0x00, 0x00, 0x01, 0x0a, 0x00, 0x66, 0xe4]

theorem header_verified_sample :
    (PastComparison (0x08 :: 0x00 :: secondZeroHeader.set 11 0xFE) 2 20 ↔
        onesSum (ipHeaderOf (0x08 :: 0x00 :: secondZeroHeader.set 11 0xFE) 2) = 0xFFFF) ↔
      ¬(wordAt (ipHeaderOf (0x08 :: 0x00 :: secondZeroHeader.set 11 0xFE) 2) 5 = 0xFFFF ∧
        otherWords (ipHeaderOf (0x08 :: 0x00 :: secondZeroHeader.set 11 0xFE) 2) % 65535 = 0) :=
  header_verified_iff (by decide) (by decide) (by decide)

/-- A receiver that adds the words up takes the header; the comparison with the recomputed
checksum, which is 0x0000, drops it. -/
theorem secondZeroHeader_dropped :
    5 ≤ ihlOf secondZeroHeader 0 ∧
      ihlOf secondZeroHeader 0 * 4 ≤ secondZeroHeader.length ∧
      onesSum (ipHeaderOf secondZeroHeader 0) = 0xFFFF ∧
      ipv4Parse secondZeroHeader 0 secondZeroHeader.length =
        .error (.exception "Invalid IP checksum") ∧
      ¬(PastComparison secondZeroHeader 0 secondZeroHeader.length ↔
        onesSum (ipHeaderOf secondZeroHeader 0) = 0xFFFF) := by
  have hones : onesSum (ipHeaderOf secondZeroHeader 0) = 0xFFFF := by decide +kernel
  have hthrown : ipv4Parse secondZeroHeader 0 secondZeroHeader.length =
      .error (.exception "Invalid IP checksum") := by
    rw [ipv4Parse_eq _ _ _ (by decide) (by decide), if_neg (by decide), if_neg (by decide),
      if_pos (by decide +kernel)]
  refine ⟨by decide, by decide, hones, hthrown, ?_⟩
  intro hiff
  obtain ⟨layer, hok⟩ := hiff.mpr hones
  rw [hthrown] at hok
  cases hok

end MyTelnet.Wire.HeaderVerification
