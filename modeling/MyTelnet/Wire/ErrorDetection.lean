/- module: MyTelnet/Wire/ErrorDetection
   scope: proofs
   digest: Which alterations of an accepted IP header the header checksum lets through. -/

import Mathlib.Tactic.IntervalCases
import MyTelnet.Wire.HeaderVerification

set_option autoImplicit false
set_option relaxedAutoImplicit false

namespace MyTelnet.Wire.ErrorDetection

open MyTelnet.Base.ByteOrder MyTelnet.Base.OnesComplement
open MyTelnet.Wire.Memory MyTelnet.Wire.Layers MyTelnet.Wire.Parsers MyTelnet.Wire.ParserSpecs
open MyTelnet.Wire.HeaderVerification

/-- `Ipv4Parser::parse` returns normally on this packet. -/
def Accepted (packet : Bytes) : Prop := ∃ layer, ipv4Parse packet 0 packet.length = .ok layer

/-- Acceptance in closed form. -/
theorem accepted_iff (packet : Bytes) :
    Accepted packet ↔
      20 ≤ packet.length ∧ ihlOf packet 0 * 4 ≤ packet.length ∧ 3 ≤ ihlOf packet 0 ∧
        checksumMatches (ipHeaderOf packet 0) :=
  ipv4Parse_accepts_iff (by omega)

/-- Sum of the 16-bit words of the header of a packet. -/
def headerSum (packet : Bytes) : Nat := wordSum (ipHeaderOf packet 0)

/-- The words of the header except the check field are replaced and IHL is kept. What follows
the header is not summed. -/
structure HeaderAltered (packet altered : Bytes) : Prop where
  length : altered.length = packet.length
  ihl : ihlOf altered 0 = ihlOf packet 0
  check : wordAt altered 5 = wordAt packet 5

section Header

variable {packet : Bytes}

theorem header_length (h : ihlOf packet 0 * 4 ≤ packet.length) :
    (ipHeaderOf packet 0).length = ihlOf packet 0 * 4 :=
  ipHeaderOf_length (by omega)

/-- The header has the packet's words. -/
theorem header_wordAt {k : Nat} (hk : k < 2 * ihlOf packet 0) :
    wordAt (ipHeaderOf packet 0) k = wordAt packet k := by
  have hcell : ∀ i, i < ihlOf packet 0 * 4 →
      (ipHeaderOf packet 0).getD i 0 = packet.getD i 0 := by
    intro i hi
    simp [ipHeaderOf, List.getD, hi]
  rw [wordAt, wordAt, hcell _ (by omega), hcell _ (by omega)]

/-- Sum of the header with its check field cleared. -/
def clearedSum (packet : Bytes) : Nat :=
  wordSum (((ipHeaderOf packet 0).set 10 0).set 11 0)

theorem clearedSum_add (hihl : 5 ≤ ihlOf packet 0)
    (hfit : ihlOf packet 0 * 4 ≤ packet.length) :
    clearedSum packet + wordAt packet 5 = headerSum packet := by
  have hadd : otherWords (ipHeaderOf packet 0) + wordAt (ipHeaderOf packet 0) 5 =
      headerSum packet := otherWords_add (by rw [header_length hfit]; omega)
  rw [header_wordAt (by omega)] at hadd
  exact hadd

/-- The first byte, in which the IHL nibble stands, keeps the cleared sum from being zero. -/
theorem clearedSum_pos (hihl : 5 ≤ ihlOf packet 0)
    (hfit : ihlOf packet 0 * 4 ≤ packet.length) : 0 < clearedSum packet :=
  otherWords_pos (by rw [header_length hfit]; omega) (ipHeaderOf_first (by omega))

/-- With a full header the packet is accepted when the check field fills its cleared sum up. -/
theorem accepted_iff_check (hihl : 5 ≤ ihlOf packet 0)
    (hfit : ihlOf packet 0 * 4 ≤ packet.length) :
    Accepted packet ↔ wordAt packet 5 = 65535 - canon (clearedSum packet) := by
  have hlen := header_length hfit
  have hmax := ihlOf_le packet 0
  have hcheck : wordAt (ipHeaderOf packet 0) 5 = wordAt packet 5 := header_wordAt (by omega)
  have hmatch : checksumMatches (ipHeaderOf packet 0) ↔
      wordAt (ipHeaderOf packet 0) 5 = 65535 - canon (clearedSum packet) :=
    checksumMatches_iff (by omega)
  rw [accepted_iff, hmatch, hcheck]
  constructor
  · intro h
    exact h.2.2.2
  · intro h
    exact ⟨by omega, hfit, by omega, h⟩

end Header

/-- Any number of words replaced: the sum modulo 65535 decides. -/
theorem altered_accepted_iff {packet altered : Bytes} (haccepted : Accepted packet)
    (hihl : 5 ≤ ihlOf packet 0) (h : HeaderAltered packet altered) :
    Accepted altered ↔ headerSum altered % 65535 = headerSum packet % 65535 := by
  have hfit : ihlOf packet 0 * 4 ≤ packet.length := ((accepted_iff packet).mp haccepted).2.1
  have hihl' : 5 ≤ ihlOf altered 0 := by rwa [h.ihl]
  have hfit' : ihlOf altered 0 * 4 ≤ altered.length := by rwa [h.ihl, h.length]
  have hsum := clearedSum_add hihl hfit
  have hsum' := clearedSum_add hihl' hfit'
  have hcheck := h.check
  have hcanon : canon (clearedSum altered) = canon (clearedSum packet) ↔
      clearedSum altered % 65535 = clearedSum packet % 65535 :=
    canon_eq_iff (clearedSum_pos hihl' hfit') (clearedSum_pos hihl hfit)
  have hle := canon_le (clearedSum packet)
  have hle' := canon_le (clearedSum altered)
  have hold := (accepted_iff_check hihl hfit).mp haccepted
  have hsame : Accepted altered ↔ canon (clearedSum altered) = canon (clearedSum packet) := by
    rw [accepted_iff_check hihl' hfit', h.check, hold]
    omega
  rw [hsame, hcanon]
  omega

section SingleWord

variable {packet : Bytes} {k : Nat} {hi lo : UInt8}

/-- A replaced word keeps IHL unless it is the first and brings another nibble. -/
theorem ihlOf_setWord (hlen : 2 * k + 1 < packet.length)
    (hnibble : k = 0 → hi &&& 0x0F = packet.getD 0 0 &&& 0x0F) :
    ihlOf (setWord packet k hi lo) 0 = ihlOf packet 0 := by
  rw [ihlOf, ihlOf]
  by_cases hk : k = 0
  · subst hk
    rw [show (0 : Nat) = 2 * 0 from rfl, getD_setWord_hi hlen]
    exact congrArg UInt8.toNat (hnibble rfl)
  · rw [getD_setWord_of_ne 0 (by omega)]

theorem headerAltered_setWord (hlen : 2 * k + 1 < packet.length) (hk : k ≠ 5)
    (hnibble : k = 0 → hi &&& 0x0F = packet.getD 0 0 &&& 0x0F) :
    HeaderAltered packet (setWord packet k hi lo) where
  length := length_setWord packet k hi lo
  ihl := ihlOf_setWord hlen hnibble
  check := wordAt_setWord_of_ne (Ne.symm hk)

theorem headerSum_setWord (hlen : 2 * k + 1 < packet.length)
    (hfit : ihlOf packet 0 * 4 ≤ packet.length) (hk : k < 2 * ihlOf packet 0)
    (hnibble : k = 0 → hi &&& 0x0F = packet.getD 0 0 &&& 0x0F) :
    headerSum (setWord packet k hi lo) + wordAt packet k =
      headerSum packet + (256 * hi.toNat + lo.toNat) := by
  have hheader : ipHeaderOf (setWord packet k hi lo) 0 =
      setWord (ipHeaderOf packet 0) k hi lo := by
    rw [ipHeaderOf, ihlOf_setWord hlen hnibble, List.drop_zero, ipHeaderOf, List.drop_zero,
      setWord, setWord, List.take_set, List.take_set]
  have hset := wordSum_setWord (ipHeaderOf packet 0) k hi lo (by rw [header_length hfit]; omega)
  rwa [header_wordAt hk, ← hheader] at hset

/-- One word replaced by another: only the two zeros of one's-complement arithmetic are taken
for each other. -/
theorem single_accepted_iff (haccepted : Accepted packet) (hihl : 5 ≤ ihlOf packet 0)
    (hk : k < 2 * ihlOf packet 0) (hk5 : k ≠ 5)
    (hnibble : k = 0 → hi &&& 0x0F = packet.getD 0 0 &&& 0x0F)
    (hchanged : 256 * hi.toNat + lo.toNat ≠ wordAt packet k) :
    Accepted (setWord packet k hi lo) ↔
      wordAt packet k = 0 ∧ 256 * hi.toNat + lo.toNat = 0xFFFF ∨
        wordAt packet k = 0xFFFF ∧ 256 * hi.toNat + lo.toNat = 0 := by
  have hfit : ihlOf packet 0 * 4 ≤ packet.length := ((accepted_iff packet).mp haccepted).2.1
  have hlen : 2 * k + 1 < packet.length := by omega
  have hsum : headerSum (setWord packet k hi lo) + wordAt packet k =
      headerSum packet + (256 * hi.toNat + lo.toNat) :=
    headerSum_setWord hlen hfit hk hnibble
  have hold : wordAt packet k < 65536 := by
    have hhi := (packet.getD (2 * k) 0).toNat_lt
    have hlo := (packet.getD (2 * k + 1) 0).toNat_lt
    unfold wordAt
    omega
  have hhi := hi.toNat_lt
  have hlo := lo.toNat_lt
  rw [altered_accepted_iff haccepted hihl (headerAltered_setWord hlen hk5 hnibble)]
  omega

end SingleWord

/-- The packet with one bit of byte `i` flipped. -/
def flipBit (packet : Bytes) (i bit : Nat) : Bytes :=
  packet.set i (packet.getD i 0 ^^^ 1 <<< UInt8.ofNat bit)

section SingleBit

variable {packet : Bytes}

private theorem mask_ne_zero {bit : Nat} (h : bit < 8) : (1 : UInt8) <<< UInt8.ofNat bit ≠ 0 := by
  interval_cases bit <;> decide

private theorem mask_high {bit : Nat} (h : bit < 8) (hhigh : 4 ≤ bit) :
    (1 : UInt8) <<< UInt8.ofNat bit &&& 0x0F = 0 := by
  interval_cases bit <;> rfl

private theorem flip_ne (x : UInt8) {bit : Nat} (h : bit < 8) :
    x ^^^ 1 <<< UInt8.ofNat bit ≠ x := by
  intro heq
  have hzero : x ^^^ 1 <<< UInt8.ofNat bit = x ^^^ 0 := by rw [heq, UInt8.xor_zero]
  exact mask_ne_zero h ((UInt8.xor_right_inj x).mp hzero)

private theorem flip_nibble (x : UInt8) {bit : Nat} (h : bit < 8) (hhigh : 4 ≤ bit) :
    (x ^^^ 1 <<< UInt8.ofNat bit) &&& 0x0F = x &&& 0x0F := by
  have hand : (x ^^^ 1 <<< UInt8.ofNat bit) &&& 0x0F =
      (x &&& 0x0F) ^^^ ((1 : UInt8) <<< UInt8.ofNat bit &&& 0x0F) := by
    apply UInt8.toNat_inj.mp
    rw [UInt8.toNat_and, UInt8.toNat_xor, UInt8.toNat_xor, UInt8.toNat_and, UInt8.toNat_and]
    exact Nat.and_xor_distrib_right ..
  rw [hand, mask_high h hhigh, UInt8.xor_zero]

private theorem set_getD_self {l : Bytes} (i : Nat) : l.set i (l.getD i 0) = l := by
  by_cases h : i < l.length
  · simp [List.getD, List.getElem?_eq_getElem h]
  · exact List.set_eq_of_length_le (by omega)

/-- A flipped bit replaces one word by another that has a byte in common with it. -/
theorem flipBit_eq_setWord (packet : Bytes) (i : Nat) {bit : Nat} (hbit : bit < 8) :
    ∃ hi lo, flipBit packet i bit = setWord packet (i / 2) hi lo ∧
      (hi = packet.getD (2 * (i / 2)) 0 ∧ lo ≠ packet.getD (2 * (i / 2) + 1) 0 ∧ i % 2 = 1 ∨
        hi ≠ packet.getD (2 * (i / 2)) 0 ∧ lo = packet.getD (2 * (i / 2) + 1) 0 ∧
          hi = packet.getD i 0 ^^^ 1 <<< UInt8.ofNat bit ∧ i % 2 = 0) := by
  have hne := flip_ne (packet.getD i 0) hbit
  rcases Nat.mod_two_eq_zero_or_one i with heven | hodd
  · have h0 : 2 * (i / 2) = i := by omega
    refine ⟨packet.getD i 0 ^^^ 1 <<< UInt8.ofNat bit, packet.getD (i + 1) 0, ?_, .inr ?_⟩
    · rw [flipBit, setWord, h0, List.set_comm _ _ (by omega), set_getD_self]
    · rw [h0]
      exact ⟨hne, rfl, rfl, heven⟩
  · have h1 : 2 * (i / 2) + 1 = i := by omega
    refine ⟨packet.getD (2 * (i / 2)) 0, packet.getD i 0 ^^^ 1 <<< UInt8.ofNat bit, ?_, .inl ?_⟩
    · rw [flipBit, setWord, h1, set_getD_self]
    · rw [h1]
      exact ⟨rfl, hne, hodd⟩

/-- Another check field: the sum of the other words stays and the field does not match it. -/
theorem check_replaced_rejected (haccepted : Accepted packet) (hihl : 5 ≤ ihlOf packet 0)
    {hi lo : UInt8} (hchanged : 256 * hi.toNat + lo.toNat ≠ wordAt packet 5) :
    ¬Accepted (setWord packet 5 hi lo) := by
  have hfit : ihlOf packet 0 * 4 ≤ packet.length := ((accepted_iff packet).mp haccepted).2.1
  have hsameIhl : ihlOf (setWord packet 5 hi lo) 0 = ihlOf packet 0 :=
    ihlOf_setWord (by omega) (by omega)
  have hfit' : ihlOf (setWord packet 5 hi lo) 0 * 4 ≤ (setWord packet 5 hi lo).length := by
    rwa [hsameIhl, length_setWord]
  have hfield : wordAt (setWord packet 5 hi lo) 5 = 256 * hi.toNat + lo.toNat :=
    wordAt_setWord_self (by omega)
  have hcleared : clearedSum (setWord packet 5 hi lo) = clearedSum packet := by
    have hsum : headerSum (setWord packet 5 hi lo) + wordAt packet 5 =
        headerSum packet + (256 * hi.toNat + lo.toNat) :=
      headerSum_setWord (by omega) hfit (by omega) (by omega)
    have hold := clearedSum_add hihl hfit
    have hnew := clearedSum_add (by omega) hfit'
    omega
  intro hnew
  have hmatch := (accepted_iff_check (by omega) hfit').mp hnew
  rw [hfield, hcleared, ← (accepted_iff_check hihl hfit).mp haccepted] at hmatch
  exact hchanged hmatch

/-- No single flipped bit of the header goes unnoticed; the bits of IHL itself move the end of
the header and are left out. -/
theorem flip_rejected (haccepted : Accepted packet) (hihl : 5 ≤ ihlOf packet 0) {i bit : Nat}
    (hi : i < 4 * ihlOf packet 0) (hbit : bit < 8) (hnibble : i = 0 → 4 ≤ bit) :
    ¬Accepted (flipBit packet i bit) := by
  obtain ⟨hi', lo', heq, hbytes⟩ := flipBit_eq_setWord packet i hbit
  have hold : wordAt packet (i / 2) =
      256 * (packet.getD (2 * (i / 2)) 0).toNat + (packet.getD (2 * (i / 2) + 1) 0).toNat := rfl
  have hhi := (packet.getD (2 * (i / 2)) 0).toNat_lt
  have hlo := (packet.getD (2 * (i / 2) + 1) 0).toNat_lt
  have hhi' := hi'.toNat_lt
  have hlo' := lo'.toNat_lt
  -- One byte of the word stays and the other changes, so it is not the swap of the two zeros.
  have hone : hi'.toNat = (packet.getD (2 * (i / 2)) 0).toNat ∧
        lo'.toNat ≠ (packet.getD (2 * (i / 2) + 1) 0).toNat ∨
      hi'.toNat ≠ (packet.getD (2 * (i / 2)) 0).toNat ∧
        lo'.toNat = (packet.getD (2 * (i / 2) + 1) 0).toNat := by
    rcases hbytes with ⟨hsame, hne, -⟩ | ⟨hne, hsame, -, -⟩
    · exact .inl ⟨by rw [hsame], fun h => hne (UInt8.toNat_inj.mp h)⟩
    · exact .inr ⟨fun h => hne (UInt8.toNat_inj.mp h), by rw [hsame]⟩
  have hchanged : 256 * hi'.toNat + lo'.toNat ≠ wordAt packet (i / 2) := by omega
  rw [heq]
  by_cases h5 : i / 2 = 5
  · rw [h5] at hchanged ⊢
    exact check_replaced_rejected haccepted hihl hchanged
  · have hkeep : i / 2 = 0 → hi' &&& 0x0F = packet.getD 0 0 &&& 0x0F := by
      intro h0
      rw [h0] at hbytes
      rcases hbytes with ⟨hsame, -, -⟩ | ⟨-, -, hflip, heven⟩
      · rw [hsame]
      · have hi0 : i = 0 := by omega
        subst hi0
        rw [hflip, flip_nibble _ hbit (hnibble rfl)]
    rw [single_accepted_iff haccepted hihl (by omega) h5 hkeep hchanged]
    omega

end SingleBit

/-- What the header check detects of an accepted packet: replacements of header words other
than the check field, in any number or one alone, and single flipped bits. -/
structure ErrorsDetected (packet : Bytes) : Prop where
  several : ∀ altered, HeaderAltered packet altered →
    (Accepted altered ↔ headerSum altered % 65535 = headerSum packet % 65535)
  single : ∀ k hi lo, k < 2 * ihlOf packet 0 → k ≠ 5 →
    (k = 0 → hi &&& 0x0F = packet.getD 0 0 &&& 0x0F) →
    256 * hi.toNat + lo.toNat ≠ wordAt packet k →
    (Accepted (setWord packet k hi lo) ↔
      wordAt packet k = 0 ∧ 256 * hi.toNat + lo.toNat = 0xFFFF ∨
        wordAt packet k = 0xFFFF ∧ 256 * hi.toNat + lo.toNat = 0)
  flipped : ∀ i bit, i < 4 * ihlOf packet 0 → bit < 8 → (i = 0 → 4 ≤ bit) →
    ¬Accepted (flipBit packet i bit)

theorem errors_detected (packet : Bytes) (h : Accepted packet) (hihl : 5 ≤ ihlOf packet 0) :
    ErrorsDetected packet where
  several _ haltered := altered_accepted_iff h hihl haltered
  single _ _ _ hk hk5 hnibble hchanged := single_accepted_iff h hihl hk hk5 hnibble hchanged
  flipped _ _ hi hbit hnibble := flip_rejected h hihl hi hbit hnibble

/-- A header of 20 bytes with identification 0. -/
def acceptedPacket : Bytes :=
  [0x45, 0x00, 0x00, 0x14, 0x00, 0x00, 0x00, 0x00, 0x40, 0x06, 0x66, 0xe2,
   0x0a, 0x00, 0x00, 0x01, 0x0a, 0x00, 0x00, 0x02]

theorem errors_detected_sample : ErrorsDetected acceptedPacket :=
  errors_detected acceptedPacket ((accepted_iff acceptedPacket).mpr (by decide +kernel))
    (by decide)

end MyTelnet.Wire.ErrorDetection
