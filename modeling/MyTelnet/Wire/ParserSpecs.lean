/- module: MyTelnet/Wire/ParserSpecs
   scope: proofs
   digest: Each parser on data that lies in its buffer, in closed form. -/

import MyTelnet.Wire.Parsers

set_option autoImplicit false
set_option relaxedAutoImplicit false

namespace MyTelnet.Wire.ParserSpecs

open MyTelnet.Base.ByteOrder MyTelnet.Base.OnesComplement
open MyTelnet.Wire.Memory MyTelnet.Wire.Checksum MyTelnet.Wire.Layers MyTelnet.Wire.Parsers

/-! The payload dump reads every byte of the payload and no other. -/

private theorem dumpRow_eq (mem : Bytes) (payload payloadLen i : Nat) (js : List Nat) :
    dumpRow mem payload payloadLen i js =
      if ∀ j ∈ js, i + j < payloadLen → payload + (i + j) < mem.length then .ok ()
      else .error .undefinedBehaviour := by
  induction js with
  | nil => simp [dumpRow]
  | cons j js ih =>
    simp only [dumpRow, List.forall_mem_cons]
    by_cases hj : i + j < payloadLen
    · by_cases hin : payload + (i + j) < mem.length
      · rw [if_pos hj, load8_of_lt hin, bind_ok, ih]
        simp [hin]
      · rw [if_pos hj, load8_of_ge (by omega), bind_error, if_neg]
        intro h
        exact hin (h.1 hj)
    · rw [if_neg hj, ih]
      simp [hj]

theorem dumpPayload_eq (mem : Bytes) (payload payloadLen i : Nat) :
    dumpPayload mem payload payloadLen i =
      if i < payloadLen → payload + payloadLen ≤ mem.length then .ok ()
      else .error .undefinedBehaviour := by
  fun_induction dumpPayload mem payload payloadLen i with
  | case1 i hi ih =>
    rw [dumpRow_eq, ih]
    by_cases hfit : payload + payloadLen ≤ mem.length
    · rw [if_pos (fun j _ _ => by omega), if_pos (fun _ => hfit), if_pos (fun _ => hfit)]
      rfl
    · rw [if_neg (show ¬(i < payloadLen → payload + payloadLen ≤ mem.length) by omega)]
      -- Either this row leaves the buffer or, the rest being longer than a row, a later one does.
      split
      · next hrow =>
        have hlong : i + 16 < payloadLen := by
          by_contra hshort
          have hlast := hrow (payloadLen - 1 - i) (List.mem_range.mpr (by omega)) (by omega)
          omega
        rw [if_neg (show ¬(i + 16 < payloadLen → payload + payloadLen ≤ mem.length) by omega)]
        rfl
      · rfl
  | case2 i hi => rw [if_pos (fun h => absurd h hi)]

theorem loadMac_of_le (mem : Bytes) (i : Nat) (h : i + 6 ≤ mem.length) :
    ∃ mac, loadMac mem i = .ok mac := by
  rw [loadMac, load8_of_lt (by omega), load8_of_lt (by omega), load8_of_lt (by omega),
    load8_of_lt (by omega), load8_of_lt (by omega), load8_of_lt (by omega)]
  exact ⟨_, rfl⟩

theorem ethernetParse_short {mem : Bytes} {rawData dataLength : Nat} (h : dataLength < 14) :
    ethernetParse mem rawData dataLength = .error (.exception "Ethernet header too short") :=
  if_pos h

theorem ethernetParse_ok (mem : Bytes) (h : 14 ≤ mem.length) :
    ∃ eth, ethernetParse mem 0 mem.length = .ok (⟨0, mem.length, 14, mem.length - 14⟩, eth) ∧
      eth.etherType = ntohs (word16 (mem.getD 12 0) (mem.getD 13 0)) := by
  obtain ⟨dst, hd⟩ := loadMac_of_le mem 0 (by omega)
  obtain ⟨src, hs⟩ := loadMac_of_le mem (0 + 6) (by omega)
  refine ⟨⟨dst, src, _⟩, ?_, rfl⟩
  rw [ethernetParse, if_neg (by unfold ethernetHeaderLen; omega), hd, hs,
    load16_of_lt (by omega)]
  rfl

/-- The checksum comparison of `Ipv4Parser::parse` on a header given as its bytes. -/
def checksumMatches (header : Bytes) : Prop :=
  calculateChecksumNew ((header.set 10 0).set 11 0) =
    ntohs (word16 (header.getD 10 0) (header.getD 11 0))

instance (header : Bytes) : Decidable (checksumMatches header) :=
  inferInstanceAs (Decidable (_ = _))

/-- For a header that fits the accumulator this is the test of the one's-complement sum. -/
theorem checksumMatches_iff {header : Bytes} (hlen : header.length ≤ 131074) :
    checksumMatches header ↔
      256 * (header.getD 10 0).toNat + (header.getD 11 0).toNat =
        65535 - canon (wordSum ((header.set 10 0).set 11 0)) := by
  rw [checksumMatches, ← UInt16.toNat_inj, calculateChecksumNew_toNat _ (by simpa using hlen),
    toNat_ntohs_word16]
  exact eq_comm

/-- IHL in words and the header it delimits. -/
def ihlOf (mem : Bytes) (rawData : Nat) : Nat := (mem.getD rawData 0 &&& 0x0F).toNat

def ipHeaderOf (mem : Bytes) (rawData : Nat) : Bytes :=
  (mem.drop rawData).take (ihlOf mem rawData * 4)

theorem ihlOf_le (mem : Bytes) (rawData : Nat) : ihlOf mem rawData ≤ 15 := by
  unfold ihlOf
  rw [UInt8.toNat_and]
  exact Nat.and_le_right

theorem ipv4Parse_short (mem : Bytes) (rawData : Nat) {dataLength : Nat} (h : dataLength < 20) :
    ipv4Parse mem rawData dataLength = .error (.exception "IPv4 packet too short") :=
  if_pos h

/-- `Ipv4Parser::parse` on at least 20 bytes that lie in the buffer. -/
theorem ipv4Parse_eq (mem : Bytes) (rawData dataLength : Nat) (h20 : 20 ≤ dataLength)
    (hmem : rawData + dataLength ≤ mem.length) :
    ipv4Parse mem rawData dataLength =
      if dataLength < ihlOf mem rawData * 4 then
        .error (.exception "IPv4 packet shorter than header length")
      else if ihlOf mem rawData < 3 then .error .undefinedBehaviour
      else if ¬checksumMatches (ipHeaderOf mem rawData) then
        .error (.exception "Invalid IP checksum")
      else .ok ⟨rawData, dataLength, rawData + ihlOf mem rawData * 4,
        sizeSub (256 * (mem.getD (rawData + 2) 0).toNat + (mem.getD (rawData + 3) 0).toNat)
          (ihlOf mem rawData * 4)⟩ := by
  have hload : load8 mem rawData = .ok (mem.getD rawData 0) := load8_of_lt (by omega)
  rw [ipv4Parse, if_neg (by unfold ipHeaderSize; omega), hload, bind_ok]
  show (if dataLength < ihlOf mem rawData * 4 then _ else _) = _
  by_cases hh : dataLength < ihlOf mem rawData * 4
  · rw [if_pos hh, if_pos hh]
  rw [if_neg hh, if_neg hh]
  have hfit : rawData + ihlOf mem rawData * 4 ≤ mem.length := by omega
  by_cases hihl : ihlOf mem rawData < 3
  · rw [if_pos hihl, calculateIpChecksum_of_small_ihl hload hfit hihl]
    rfl
  rw [if_neg hihl, calculateIpChecksum_of_ihl _ hload hfit (by unfold ihlOf at hihl; omega),
    bind_ok, load16_of_lt (by omega), bind_ok]
  have hcell : ∀ k, k < 12 → (ipHeaderOf mem rawData).getD k 0 = mem.getD (rawData + k) 0 := by
    intro k hk
    have hk' : k < ihlOf mem rawData * 4 := by omega
    simp [ipHeaderOf, List.getD, hk']
  have hcheck : (calculateChecksumNew (((ipHeaderOf mem rawData).set 10 0).set 11 0) ≠
      ntohs (word16 (mem.getD (rawData + 10) 0) (mem.getD (rawData + 10 + 1) 0))) ↔
      ¬checksumMatches (ipHeaderOf mem rawData) := by
    rw [checksumMatches, hcell 10 (by omega), hcell 11 (by omega)]
  show (if calculateChecksumNew (((ipHeaderOf mem rawData).set 10 0).set 11 0) ≠ _ then _
    else _) = _
  by_cases hc : checksumMatches (ipHeaderOf mem rawData)
  · rw [if_neg (by rw [hcheck]; simpa using hc), if_neg (by simpa using hc),
      load16_of_lt (by omega), bind_ok, toNat_ntohs_word16]
    rfl
  · rw [if_pos (hcheck.mpr hc), if_pos hc]

/-- The IP headers that are accepted. -/
theorem ipv4Parse_accepts_iff {mem : Bytes} {rawData dataLength : Nat}
    (hmem : rawData + dataLength ≤ mem.length) :
    (∃ layer, ipv4Parse mem rawData dataLength = .ok layer) ↔
      20 ≤ dataLength ∧ ihlOf mem rawData * 4 ≤ dataLength ∧ 3 ≤ ihlOf mem rawData ∧
        checksumMatches (ipHeaderOf mem rawData) := by
  have hfails : ∀ {e : Fault} {p : Prop}, ¬p →
      ((∃ layer : ProtocolLayer, (.error e : Checked ProtocolLayer) = .ok layer) ↔ p) := by
    intro e p hp
    apply iff_of_false _ hp
    rintro ⟨layer, h⟩
    cases h
  by_cases h20 : dataLength < 20
  · rw [ipv4Parse_short mem rawData h20]
    exact hfails (by omega)
  rw [ipv4Parse_eq mem rawData dataLength (by omega) hmem]
  split
  · exact hfails (by omega)
  split
  · exact hfails (by omega)
  split
  · next hsum => exact hfails (fun h => hsum h.2.2.2)
  · next hlong hihl hsum =>
    apply iff_of_true
    · exact ⟨_, rfl⟩
    · exact ⟨by omega, by omega, by omega, not_not.mp hsum⟩

theorem ipv4Read_ok (mem : Bytes) (layer : ProtocolLayer)
    (h : layer.rawData + 20 ≤ mem.length) :
    ∃ ip, ipv4Read mem layer = .ok ip := by
  rw [ipv4Read, load8_of_lt (by omega), load16_of_lt (by omega), load8_of_lt (by omega),
    load32_of_lt (by omega), load32_of_lt (by omega)]
  exact ⟨_, rfl⟩

/-- `TcpParser::parse` on data in the buffer fails with an exception or cuts the data in two. -/
theorem tcpParse_cases {mem : Bytes} {rawData dataLength : Nat}
    (hmem : rawData + dataLength ≤ mem.length) :
    (∃ what, tcpParse mem rawData dataLength = .error (.exception what)) ∨
    ∃ headerLength, headerLength ≤ dataLength ∧ 20 ≤ dataLength ∧
      tcpParse mem rawData dataLength =
        .ok ⟨rawData, dataLength, rawData + headerLength, dataLength - headerLength⟩ := by
  by_cases h20 : dataLength < 20
  · exact .inl ⟨_, if_pos h20⟩
  rw [tcpParse, if_neg (by unfold tcpHeaderSize; omega), load16_of_lt (by omega), bind_ok]
  dsimp only
  split
  · exact .inl ⟨_, rfl⟩
  · next hle => exact .inr ⟨_, by omega, by omega, rfl⟩

theorem tcpRead_ok (mem : Bytes) (layer : ProtocolLayer) (hraw : layer.rawData + 20 ≤ mem.length)
    (hpay : layer.payloadPtr + layer.payloadLen ≤ mem.length) :
    ∃ tcp, tcpRead mem layer = .ok tcp := by
  rw [tcpRead, load16_of_lt (by omega), load16_of_lt (by omega), load32_of_lt (by omega),
    load32_of_lt (by omega), load16_of_lt (by omega), load16_of_lt (by omega), dumpPayload_eq,
    if_pos (fun _ => hpay), loadRange_of_le hpay]
  exact ⟨_, rfl⟩

end MyTelnet.Wire.ParserSpecs
