/- module: MyTelnet/Wire/ChecksumLaws
   scope: proofs
   digest: The loops of calculate_checksum_new compute the checksum of RFC 1071. -/

import Mathlib.Logic.Function.Iterate
import MyTelnet.Wire.Checksum

set_option autoImplicit false
set_option relaxedAutoImplicit false

namespace MyTelnet.Wire.ChecksumLaws

open MyTelnet.Base.ByteOrder MyTelnet.Base.OnesComplement MyTelnet.Wire.Checksum

/-- The body of the folding loop. -/
def carryRound (sum : UInt32) : UInt32 := (sum &&& (0xFFFF : UInt32)) + (sum >>> 16)

/-- The folding loop leaves after exactly `n` rounds, with this result. -/
structure FoldsIn (sum : UInt32) (n : Nat) (result : UInt32) : Prop where
  running : ∀ m < n, carryRound^[m] sum >>> 16 ≠ 0
  done : carryRound^[n] sum >>> 16 = 0
  result : result = carryRound^[n] sum

theorem FoldsIn.stop {sum : UInt32} (h : sum.toNat < 65536) : FoldsIn sum 0 (foldCarries sum) := by
  have hdone : sum >>> 16 = 0 := (shiftRight_eq_zero_iff sum).mpr h
  constructor
  · intro m hm
    omega
  · exact hdone
  · rw [foldCarries, if_neg (not_not.mpr hdone)]
    rfl

theorem FoldsIn.round {sum : UInt32} {n : Nat} (h : ¬sum.toNat < 65536)
    (hrest : FoldsIn (carryRound sum) n (foldCarries (carryRound sum))) :
    FoldsIn sum (n + 1) (foldCarries sum) := by
  have hrun : sum >>> 16 ≠ 0 := (shiftRight_eq_zero_iff sum).not.mpr h
  have hfold : foldCarries sum = foldCarries (carryRound sum) := by
    rw [foldCarries, if_pos hrun]
    rfl
  constructor
  · intro m hm
    cases m with
    | zero => exact hrun
    | succ m => exact hrest.running m (by omega)
  · exact hrest.done
  · rw [hfold]
    exact hrest.result

/-- The first round leaves at most one carry and the second none. -/
theorem foldCarries_foldsIn (sum : UInt32) : ∃ n ≤ 2, FoldsIn sum n (foldCarries sum) := by
  have hsum := sum.toNat_lt
  by_cases h₀ : sum.toNat < 65536
  · exact ⟨0, by omega, FoldsIn.stop h₀⟩
  have hone : (carryRound sum).toNat = sum.toNat % 65536 + sum.toNat / 65536 := toNat_carried sum
  by_cases h₁ : (carryRound sum).toNat < 65536
  · exact ⟨1, by omega, FoldsIn.round h₀ (FoldsIn.stop h₁)⟩
  have htwo : (carryRound (carryRound sum)).toNat =
      (carryRound sum).toNat % 65536 + (carryRound sum).toNat / 65536 := toNat_carried _
  have h₂ : (carryRound (carryRound sum)).toNat < 65536 := by omega
  exact ⟨2, by omega, FoldsIn.round h₀ (FoldsIn.round h₁ (FoldsIn.stop h₂))⟩

/-- The accumulator after `k` rounds of the summation loop. -/
def accumulator (data : Bytes) (k : Nat) : UInt32 := sumWords (data.take (2 * k)) 0

/-- From there the loop goes on with the rest of the data. -/
theorem sumWords_resume (data : Bytes) (k : Nat) (sum : UInt32) :
    sumWords (data.drop (2 * k)) (sumWords (data.take (2 * k)) sum) = sumWords data sum := by
  by_cases hk : 2 * k ≤ data.length
  · have heven : (data.take (2 * k)).length % 2 = 0 := by
      rw [List.length_take_of_le hk]
      omega
    have hwhole : sumWords (data.take (2 * k)) sum = sumPairs (data.take (2 * k)) sum := by
      rw [sumWords_eq, if_neg (by omega)]
    rw [hwhole, ← sumWords_append _ _ sum heven, List.take_append_drop]
  · rw [List.drop_of_length_le (by omega), List.take_of_length_le (by omega)]
    rfl

theorem accumulator_toNat {data : Bytes} (h : data.length ≤ 131074) (k : Nat) :
    (accumulator data k).toNat = ((words data).take k).sum := by
  have hle := wordSum_le (data.take (2 * k))
  have hlen : (data.take (2 * k)).length ≤ data.length := List.length_take_le' _ _
  rw [accumulator, sumWords_toNat _ 0 (by simp only [UInt32.reduceToNat]; omega), ← words_take,
    sum_words]
  exact Nat.zero_add _

/-- Only the sum of the words goes into the result. -/
theorem calculateChecksumNew_congr {data other : Bytes} (h : wordSum other = wordSum data) :
    calculateChecksumNew other = calculateChecksumNew data := by
  have hsum : sumWords other 0 = sumWords data 0 := by
    apply UInt32.toNat_inj.mp
    rw [sumWords_toNat_mod, sumWords_toNat_mod, h]
  rw [calculateChecksumNew, hsum, calculateChecksumNew]

/-- What makes `calculate_checksum_new` the checksum of RFC 1071 on a byte string: each round of
the summation loop adds its word without a wrap, the folding loop ends, and the result is the
complement of the one's-complement sum, the canonical representative of the sum of the words.
The order of the words and zero bytes at the end leave it as it is. -/
structure Rfc1071Checksum (data : Bytes) : Prop where
  resumes : ∀ k, sumWords (data.drop (2 * k)) (accumulator data k) = sumWords data 0
  sums : ∀ k, (accumulator data k).toNat = ((words data).take k).sum
  folds : ∃ n ≤ 2, FoldsIn (sumWords data 0) n (foldCarries (sumWords data 0))
  complement : (calculateChecksumNew data).toNat = 65535 - onesSum data
  canonical : IsCanonical (words data).sum (onesSum data)
  zero : onesSum data = 0 ↔ ∀ b ∈ data, b = 0
  permuted : ∀ other, (words other).Perm (words data) →
    calculateChecksumNew other = calculateChecksumNew data
  appended : ∀ n, calculateChecksumNew (data ++ List.replicate n 0) = calculateChecksumNew data

/-- 131074 bytes are the 65537 words that a 32-bit accumulator has room for. -/
theorem rfc1071_checksum (data : Bytes) (h : data.length ≤ 131074) : Rfc1071Checksum data := by
  have hcanonical : IsCanonical (words data).sum (onesSum data) := by
    rw [onesSum_eq, sum_words]
    exact isCanonical_canon _
  constructor
  case resumes =>
    intro k
    exact sumWords_resume data k 0
  case sums => exact accumulator_toNat h
  case folds => exact foldCarries_foldsIn _
  case complement => rw [calculateChecksumNew_toNat data h, onesSum_eq]
  case canonical => exact hcanonical
  case zero => rw [hcanonical.zero, sum_words, wordSum_eq_zero_iff]
  case permuted =>
    intro other hperm
    exact calculateChecksumNew_congr (wordSum_eq_of_perm hperm)
  case appended =>
    intro n
    exact calculateChecksumNew_congr (wordSum_append_zeros data n)

/-- Five bytes, the last word padded. -/
theorem rfc1071_checksum_sample : Rfc1071Checksum [0x45, 0x00, 0xFF, 0xFF, 0x47] :=
  rfc1071_checksum [0x45, 0x00, 0xFF, 0xFF, 0x47] (by decide)

end MyTelnet.Wire.ChecksumLaws
