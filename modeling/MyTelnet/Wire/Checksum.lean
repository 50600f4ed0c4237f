/- module: MyTelnet/Wire/Checksum
   scope: model
   digest: The three checksum routines, and the sum that the IP one computes. -/

import MyTelnet.Base.OnesComplement
import MyTelnet.Wire.Memory

set_option autoImplicit false
set_option relaxedAutoImplicit false

namespace MyTelnet.Wire.Checksum

open MyTelnet.Base.ByteOrder MyTelnet.Base.OnesComplement MyTelnet.Wire.Memory

/-- The summation loop of `calculate_checksum_new`. The accumulator is 32 bits wide. -/
def sumWords : Bytes → UInt32 → UInt32
  | [], sum => sum
  | [a], sum => sum + (a.toUInt16 <<< 8).toUInt32
  | a :: b :: rest, sum => sumWords rest (sum + ((a.toUInt16 <<< 8) + b.toUInt16).toUInt32)

theorem toNat_carried (sum : UInt32) :
    ((sum &&& (0xFFFF : UInt32)) + (sum >>> 16)).toNat =
      sum.toNat % 65536 + sum.toNat / 65536 := by
  have hs := sum.toNat_lt
  have hand : sum.toNat &&& 65535 = sum.toNat % 65536 := Nat.and_two_pow_sub_one_eq_mod _ 16
  rw [UInt32.toNat_add, UInt32.toNat_and, UInt32.toNat_shiftRight]
  simp only [UInt32.reduceToNat, Nat.reduceMod, Nat.reducePow, hand, Nat.shiftRight_eq_div_pow]
  omega

theorem shiftRight_eq_zero_iff (sum : UInt32) : sum >>> 16 = 0 ↔ sum.toNat < 65536 := by
  rw [← UInt32.toNat_inj, UInt32.toNat_shiftRight]
  simp only [UInt32.reduceToNat, Nat.reduceMod, Nat.reducePow, Nat.shiftRight_eq_div_pow]
  omega

/-- `while (sum >> 16) sum = (sum & 0xFFFF) + (sum >> 16)`. -/
def foldCarries (sum : UInt32) : UInt32 :=
  if sum >>> 16 ≠ 0 then foldCarries ((sum &&& (0xFFFF : UInt32)) + (sum >>> 16)) else sum
termination_by sum.toNat
decreasing_by
  rename_i h
  rw [toNat_carried]
  have := (shiftRight_eq_zero_iff sum).not.mp h
  omega

/-- `calculate_checksum_new`. -/
def calculateChecksumNew (data : Bytes) : UInt16 :=
  (~~~ foldCarries (sumWords data 0)).toUInt16

/-- `calculate_ip_checksum` on the header at `ptr`: it copies as many bytes as the IHL nibble
says and clears bytes 10 and 11 of the copy, whatever its size. -/
def calculateIpChecksum (mem : Bytes) (ptr : Nat) : Checked UInt16 := do
  let versionIhl ← load8 mem ptr
  let headerLength := (versionIhl &&& 0x0F).toNat * 4
  let copy ← loadRange mem ptr headerLength
  let copy ← store8 copy 10 0
  let copy ← store8 copy 11 0
  return calculateChecksumNew copy

/-- One of the word loops of `calculate_tcp_checksum`: `sum += ntohs(ptr[i])`. -/
def sumPairs : Bytes → UInt32 → UInt32
  | a :: b :: rest, sum => sumPairs rest (sum + (ntohs (word16 a b)).toUInt32)
  | _, sum => sum

/-- The pseudo header of `calculate_tcp_checksum` in memory. -/
def pseudoHeader (srcIp dstIp : UInt32) (tcpLen : UInt16) : Bytes :=
  store32 (htonl srcIp) ++ store32 (htonl dstIp) ++ [0, 6] ++ store16 (htons tcpLen)

/-- `header_len`: the data offset in bytes, at least 20. -/
def tcpHeaderLen (tcpHeader : Bytes) : Nat :=
  let flags := ntohs (word16 (tcpHeader.getD 12 0) (tcpHeader.getD 13 0))
  max 20 (((flags >>> 12) &&& 0xF).toNat * 4)

/-- `calculate_tcp_checksum`: the checksum and the header buffer it leaves. The check field is
cleared for the sum and written back. -/
def calculateTcpChecksum (srcIp dstIp : UInt32) (tcpHeader payload : Bytes) : UInt16 × Bytes :=
  let headerLen := tcpHeaderLen tcpHeader
  let sum := sumPairs (pseudoHeader srcIp dstIp (UInt16.ofNat (headerLen + payload.length))) 0
  let cleared := (tcpHeader.set 16 0).set 17 0
  let sum := sumPairs (cleared.take headerLen) sum
  let restored := (cleared.set 16 (tcpHeader.getD 16 0)).set 17 (tcpHeader.getD 17 0)
  let sum := sumPairs payload sum
  let sum := if payload.length % 2 = 1
    then sum + ((payload.getD (payload.length - 1) 0).toUInt16 <<< 8).toUInt32 else sum
  (htons (~~~ foldCarries sum).toUInt16, restored)

theorem foldCarries_toNat (sum : UInt32) : (foldCarries sum).toNat = canon sum.toNat := by
  fun_induction foldCarries sum with
  | case1 sum h ih => rw [ih, toNat_carried, canon_carry]
  | case2 sum h =>
    have hlt : sum.toNat < 65536 := (shiftRight_eq_zero_iff sum).mp (by simpa using h)
    rw [canon_of_lt hlt]

private theorem word_eq (a b : UInt8) :
    (a.toUInt16 <<< 8) + b.toUInt16 = ntohs (word16 a b) := by
  apply UInt16.toNat_inj.mp
  have ha := a.toNat_lt
  have hb := b.toNat_lt
  rw [toNat_ntohs_word16, UInt16.toNat_add, UInt16.toNat_shiftLeft, UInt8.toNat_toUInt16,
    UInt8.toNat_toUInt16]
  simp only [UInt16.reduceToNat, Nat.reduceMod, Nat.reducePow, Nat.shiftLeft_eq]
  omega

private theorem toNat_word (a b : UInt8) :
    ((a.toUInt16 <<< 8) + b.toUInt16).toUInt32.toNat = 256 * a.toNat + b.toNat := by
  rw [UInt16.toNat_toUInt32, word_eq, toNat_ntohs_word16]

private theorem toNat_last (a : UInt8) : (a.toUInt16 <<< 8).toUInt32.toNat = 256 * a.toNat := by
  simpa using toNat_word a 0

/-- The loop of `calculate_checksum_new` sums the words modulo the width of its accumulator. -/
theorem sumWords_toNat_mod (data : Bytes) (sum : UInt32) :
    (sumWords data sum).toNat = (sum.toNat + wordSum data) % 2 ^ 32 := by
  fun_induction sumWords data sum with
  | case1 sum =>
    have hsum := sum.toNat_lt
    simp only [wordSum]
    omega
  | case2 a sum =>
    rw [UInt32.toNat_add, toNat_last]
    rfl
  | case3 a b rest sum ih =>
    rw [ih, UInt32.toNat_add, toNat_word]
    simp only [wordSum]
    omega

theorem sumWords_toNat (data : Bytes) (sum : UInt32)
    (h : sum.toNat + wordSum data < 2 ^ 32) :
    (sumWords data sum).toNat = sum.toNat + wordSum data := by
  rw [sumWords_toNat_mod, Nat.mod_eq_of_lt h]

/-- The complement of a folded sum, as the code stores it. -/
theorem complement_toNat (sum : UInt32) :
    (~~~ foldCarries sum).toUInt16.toNat = 65535 - canon sum.toNat := by
  have hcanon := canon_le sum.toNat
  rw [UInt32.toNat_toUInt16, UInt32.toNat_not, foldCarries_toNat]
  simp only [UInt32.size]
  omega

/-- Up to 131074 bytes the accumulator cannot overflow and the result is the complement of the
canonical one's-complement sum. -/
theorem calculateChecksumNew_toNat (data : Bytes) (h : data.length ≤ 131074) :
    (calculateChecksumNew data).toNat = 65535 - canon (wordSum data) := by
  have hle := wordSum_le data
  have hsum : (sumWords data 0).toNat = wordSum data := by
    rw [sumWords_toNat data 0 (by simp only [UInt32.reduceToNat]; omega)]
    simp
  rw [calculateChecksumNew, complement_toNat, hsum]

/-- Over whole words the byte loop is the word loop, and it goes on behind them with the
accumulator the word loop leaves, whether or not that has wrapped. -/
theorem sumWords_append (words rest : Bytes) (sum : UInt32) (heven : words.length % 2 = 0) :
    sumWords (words ++ rest) sum = sumWords rest (sumPairs words sum) := by
  induction words using wordSum.induct generalizing sum with
  | case1 => rfl
  | case2 a => simp at heven
  | case3 a b words ih =>
    have hwords : words.length % 2 = 0 := by
      simp only [List.length_cons] at heven
      omega
    rw [List.cons_append, List.cons_append, sumWords, sumPairs, word_eq]
    exact ih _ hwords

/-- An odd byte behind whole words is none of the word loop's business. -/
theorem sumPairs_snoc (words : Bytes) (last : UInt8) (sum : UInt32)
    (heven : words.length % 2 = 0) : sumPairs (words ++ [last]) sum = sumPairs words sum := by
  induction words using wordSum.induct generalizing sum with
  | case1 => rfl
  | case2 a => simp at heven
  | case3 a b words ih =>
    have hwords : words.length % 2 = 0 := by
      simp only [List.length_cons] at heven
      omega
    simp only [List.cons_append, sumPairs]
    exact ih _ hwords

/-- The zero that the byte loop puts behind an odd last byte is the special case behind the
payload loop. -/
theorem sumWords_eq (data : Bytes) (sum : UInt32) :
    sumWords data sum =
      if data.length % 2 = 1
        then sumPairs data sum + ((data.getD (data.length - 1) 0).toUInt16 <<< 8).toUInt32
        else sumPairs data sum := by
  by_cases hodd : data.length % 2 = 1
  · obtain ⟨init, last, rfl⟩ : ∃ init last, data = init ++ [last] := by
      have hne : data ≠ [] := by
        intro hnil
        simp [hnil] at hodd
      exact ⟨data.dropLast, data.getLast hne, (List.dropLast_concat_getLast hne).symm⟩
    have heven : init.length % 2 = 0 := by
      simp only [List.length_append, List.length_singleton] at hodd
      omega
    rw [if_pos hodd, sumWords_append init [last] sum heven, sumPairs_snoc init last sum heven]
    simp [sumWords]
  · have happend := sumWords_append data [] sum (by omega)
    rw [List.append_nil] at happend
    rw [if_neg hodd, happend]
    rfl

/-- The accumulator of `calculate_tcp_checksum` after its three loops and the odd byte. -/
def tcpSum (pseudo header payload : Bytes) : UInt32 :=
  let sum := sumPairs payload (sumPairs header (sumPairs pseudo 0))
  if payload.length % 2 = 1
    then sum + ((payload.getD (payload.length - 1) 0).toUInt16 <<< 8).toUInt32 else sum

theorem calculateTcpChecksum_fst (srcIp dstIp : UInt32) (tcpHeader payload : Bytes) :
    (calculateTcpChecksum srcIp dstIp tcpHeader payload).1 =
      htons (~~~ foldCarries (tcpSum
        (pseudoHeader srcIp dstIp (UInt16.ofNat (tcpHeaderLen tcpHeader + payload.length)))
        (((tcpHeader.set 16 0).set 17 0).take (tcpHeaderLen tcpHeader)) payload)).toUInt16 := rfl

/-- The three loops and the odd byte are one loop over all bytes. -/
theorem tcpSum_eq {pseudo header : Bytes} (payload : Bytes) (hpseudo : pseudo.length % 2 = 0)
    (hheader : header.length % 2 = 0) :
    tcpSum pseudo header payload = sumWords (pseudo ++ header ++ payload) 0 := by
  rw [List.append_assoc, sumWords_append pseudo _ 0 hpseudo,
    sumWords_append header payload _ hheader, sumWords_eq]
  rfl

/-- The loops add up the three parts as long as these fit the accumulator together. -/
theorem tcpSum_toNat {pseudo header payload : Bytes} (hpseudo : pseudo.length % 2 = 0)
    (hheader : header.length % 2 = 0)
    (h : wordSum pseudo + wordSum header + wordSum payload < 2 ^ 32) :
    (tcpSum pseudo header payload).toNat =
      wordSum pseudo + wordSum header + wordSum payload := by
  have hparts : wordSum (pseudo ++ header ++ payload) =
      wordSum pseudo + wordSum header + wordSum payload := by
    rw [List.append_assoc, wordSum_append pseudo _ hpseudo, wordSum_append header _ hheader,
      Nat.add_assoc]
  rw [tcpSum_eq payload hpseudo hheader, sumWords_toNat, hparts]
  · exact Nat.zero_add _
  · rw [hparts, UInt32.toNat_zero]
    omega

/-- With at least three words of header the copy has bytes 10 and 11. -/
theorem calculateIpChecksum_of_ihl {mem : Bytes} {ptr : Nat} (versionIhl : UInt8)
    (hload : load8 mem ptr = .ok versionIhl)
    (hlen : ptr + (versionIhl &&& 0x0F).toNat * 4 ≤ mem.length)
    (hihl : 3 ≤ (versionIhl &&& 0x0F).toNat) :
    calculateIpChecksum mem ptr = .ok (calculateChecksumNew
      ((((mem.drop ptr).take ((versionIhl &&& 0x0F).toNat * 4)).set 10 0).set 11 0)) := by
  have hcopy : ((mem.drop ptr).take ((versionIhl &&& 0x0F).toNat * 4)).length =
      (versionIhl &&& 0x0F).toNat * 4 := by
    simp only [List.length_take, List.length_drop]
    omega
  rw [calculateIpChecksum, hload]
  simp only [bind_ok, loadRange_of_le hlen, store8, hcopy]
  rw [if_pos (by omega)]
  simp only [bind_ok, List.length_set, hcopy]
  rw [if_pos (by omega)]
  rfl

/-- With fewer it writes past the copy. -/
theorem calculateIpChecksum_of_small_ihl {mem : Bytes} {ptr : Nat} {versionIhl : UInt8}
    (hload : load8 mem ptr = .ok versionIhl)
    (hlen : ptr + (versionIhl &&& 0x0F).toNat * 4 ≤ mem.length)
    (hihl : (versionIhl &&& 0x0F).toNat < 3) :
    calculateIpChecksum mem ptr = .error .undefinedBehaviour := by
  have hcopy : ((mem.drop ptr).take ((versionIhl &&& 0x0F).toNat * 4)).length =
      (versionIhl &&& 0x0F).toNat * 4 := by
    simp only [List.length_take, List.length_drop]
    omega
  rw [calculateIpChecksum, hload]
  simp only [bind_ok, loadRange_of_le hlen, store8, hcopy]
  by_cases h10 : 10 < (versionIhl &&& 0x0F).toNat * 4
  · rw [if_pos h10]
    simp only [bind_ok, List.length_set, hcopy]
    rw [if_neg (by omega)]
    rfl
  · rw [if_neg h10]
    rfl

end MyTelnet.Wire.Checksum
