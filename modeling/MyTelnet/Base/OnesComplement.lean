/- module: MyTelnet/Base/OnesComplement
   scope: library
   digest: Sums of big-endian words and their canonical one's-complement representative. -/

import Mathlib.Algebra.GroupWithZero.Nat
import Mathlib.Tactic.Common

set_option autoImplicit false
set_option relaxedAutoImplicit false

namespace MyTelnet.Base.OnesComplement

/-- Sum of the big-endian 16-bit words of a byte string, an odd last byte padded with zero. -/
def wordSum : List UInt8 → Nat
  | [] => 0
  | [a] => 256 * a.toNat
  | a :: b :: rest => (256 * a.toNat + b.toNat) + wordSum rest

/-- The representative of `n` modulo 65535 in 1..65535, and 0 for 0 alone: what adding the
carries back in leaves. -/
def canon (n : Nat) : Nat := if n = 0 then 0 else (n - 1) % 65535 + 1

theorem canon_of_lt {n : Nat} (h : n < 65536) : canon n = n := by
  unfold canon
  split <;> omega

theorem canon_le (n : Nat) : canon n ≤ 65535 := by
  unfold canon
  split <;> omega

/-- `r` stands for `n` modulo 65535, and of the two zeros the first is for 0 alone. -/
structure IsCanonical (n r : Nat) : Prop where
  zero : r = 0 ↔ n = 0
  le : r ≤ 65535
  mod : r % 65535 = n % 65535

theorem isCanonical_canon (n : Nat) : IsCanonical n (canon n) := by
  unfold canon
  by_cases h : n = 0
  · rw [if_pos h]
    constructor <;> omega
  · rw [if_neg h]
    constructor <;> omega

/-- One round of end-around carry keeps the representative. -/
theorem canon_carry (n : Nat) : canon (n % 65536 + n / 65536) = canon n := by
  unfold canon
  have hz : n % 65536 + n / 65536 = 0 ↔ n = 0 := by omega
  by_cases h : n = 0
  · simp [h]
  · rw [if_neg (by rwa [hz]), if_neg h]
    omega

/-- The complement of the representative fills the sum up to all ones. -/
theorem canon_complement (n : Nat) : canon (n + (65535 - canon n)) = 65535 := by
  have hle := canon_le n
  unfold canon at hle ⊢
  by_cases h : n = 0
  · simp [h]
  · rw [if_neg h] at hle ⊢
    rw [if_neg (by omega)]
    omega

/-- A field that fills a sum up to all ones is the complement of the sum, the second zero apart:
the complement of a sum that is not zero is never 65535. -/
theorem complement_iff_fills {sum field : Nat} (hsum : 0 < sum) (hfield : field ≤ 65535) :
    (field = 65535 - canon sum ↔ canon (sum + field) = 65535) ↔
      ¬(field = 65535 ∧ sum % 65535 = 0) := by
  unfold canon
  rw [if_neg (by omega), if_neg (by omega)]
  omega

/-- Two sums that are not zero have one representative exactly when they are congruent. -/
theorem canon_eq_iff {m n : Nat} (hm : 0 < m) (hn : 0 < n) :
    canon m = canon n ↔ m % 65535 = n % 65535 := by
  unfold canon
  rw [if_neg (by omega), if_neg (by omega)]
  omega

theorem wordSum_le (l : List UInt8) : wordSum l ≤ 65535 * ((l.length + 1) / 2) := by
  fun_induction wordSum l with
  | case1 => omega
  | case2 a =>
    have ha := a.toNat_lt
    simp only [List.length_singleton]
    omega
  | case3 a b rest ih =>
    have ha := a.toNat_lt
    have hb := b.toNat_lt
    simp only [List.length_cons]
    omega

/-- Two byte strings are summed one after the other where the first ends at a word. -/
theorem wordSum_append (l rest : List UInt8) (h : l.length % 2 = 0) :
    wordSum (l ++ rest) = wordSum l + wordSum rest := by
  fun_induction wordSum l with
  | case1 => simp
  | case2 a => simp at h
  | case3 a b l ih =>
    have hl : l.length % 2 = 0 := by
      simp only [List.length_cons] at h
      omega
    simp only [List.cons_append, wordSum, ih hl]
    omega

/-- Word `k` of a byte string, and the byte string with that word replaced. -/
def wordAt (l : List UInt8) (k : Nat) : Nat :=
  256 * (l.getD (2 * k) 0).toNat + (l.getD (2 * k + 1) 0).toNat

def setWord (l : List UInt8) (k : Nat) (hi lo : UInt8) : List UInt8 :=
  (l.set (2 * k) hi).set (2 * k + 1) lo

@[simp] theorem length_setWord (l : List UInt8) (k : Nat) (hi lo : UInt8) :
    (setWord l k hi lo).length = l.length := by
  simp [setWord]

section SetWord

variable {l : List UInt8} {k : Nat} {hi lo : UInt8}

theorem getD_setWord_of_ne (i : Nat) (h : i / 2 ≠ k) :
    (setWord l k hi lo).getD i 0 = l.getD i 0 := by
  rw [setWord, List.getD, List.getD, List.getElem?_set_ne (by omega),
    List.getElem?_set_ne (by omega)]

theorem getD_setWord_hi (h : 2 * k + 1 < l.length) : (setWord l k hi lo).getD (2 * k) 0 = hi := by
  rw [setWord, List.getD, List.getElem?_set_ne (by omega), List.getElem?_set_self (by omega)]
  rfl

theorem getD_setWord_lo (h : 2 * k + 1 < l.length) :
    (setWord l k hi lo).getD (2 * k + 1) 0 = lo := by
  rw [setWord, List.getD, List.getElem?_set_self (by rw [List.length_set]; omega)]
  rfl

theorem wordAt_setWord_self (h : 2 * k + 1 < l.length) :
    wordAt (setWord l k hi lo) k = 256 * hi.toNat + lo.toNat := by
  rw [wordAt, getD_setWord_hi h, getD_setWord_lo h]

theorem wordAt_setWord_of_ne {j : Nat} (h : j ≠ k) : wordAt (setWord l k hi lo) j = wordAt l j := by
  rw [wordAt, wordAt, getD_setWord_of_ne _ (by omega), getD_setWord_of_ne _ (by omega)]

end SetWord

/-- A replaced word goes out of the sum and the new one comes in. -/
theorem wordSum_setWord (l : List UInt8) (k : Nat) (hi lo : UInt8)
    (h : 2 * k + 1 < l.length) :
    wordSum (setWord l k hi lo) + wordAt l k = wordSum l + (256 * hi.toNat + lo.toNat) := by
  induction l using wordSum.induct generalizing k with
  | case1 => simp at h
  | case2 a => simp at h
  | case3 a b rest ih =>
    cases k with
    | zero =>
      simp only [setWord, wordAt, wordSum, Nat.mul_zero, Nat.zero_add, List.set_cons_zero,
        List.set_cons_succ, List.getD_cons_zero, List.getD_cons_succ]
      omega
    | succ k =>
      have hrest : 2 * k + 1 < rest.length := by
        simp only [List.length_cons] at h
        omega
      have hset : setWord (a :: b :: rest) (k + 1) hi lo = a :: b :: setWord rest k hi lo := rfl
      have hword : wordAt (a :: b :: rest) (k + 1) = wordAt rest k := rfl
      have hrec := ih k hrest
      rw [hset, hword, wordSum, wordSum]
      omega

theorem wordAt_le_wordSum (l : List UInt8) (k : Nat) (h : 2 * k + 1 < l.length) :
    wordAt l k ≤ wordSum l := by
  have hset := wordSum_setWord l k 0 0 h
  simp only [UInt8.toNat_zero] at hset
  omega

/-- A byte string filled up with a zero byte to whole words. -/
def padded (l : List UInt8) : List UInt8 := if l.length % 2 = 0 then l else l ++ [0]

theorem wordSum_snoc_zero (l : List UInt8) : wordSum (l ++ [0]) = wordSum l := by
  fun_induction wordSum l with
  | case1 => simp [wordSum]
  | case2 a => simp [wordSum]
  | case3 a b l ih => simp only [List.cons_append, wordSum, ih]

theorem wordSum_padded (l : List UInt8) : wordSum (padded l) = wordSum l := by
  unfold padded
  split
  · rfl
  · exact wordSum_snoc_zero l

/-- One's-complement addition of two words: a carry out of the word comes back in at its end. -/
def onesAdd (a b : Nat) : Nat := if a + b < 65536 then a + b else a + b - 65535

/-- The one's-complement sum of the big-endian 16-bit words of a byte string. -/
def onesSum : List UInt8 → Nat
  | [] => 0
  | [a] => 256 * a.toNat
  | a :: b :: rest => onesAdd (256 * a.toNat + b.toNat) (onesSum rest)

theorem onesAdd_canon {m : Nat} (hm : m ≤ 65535) (n : Nat) :
    onesAdd m (canon n) = canon (m + n) := by
  unfold onesAdd canon
  by_cases hn : n = 0
  · subst hn
    by_cases hz : m = 0
    · simp [hz]
    · simp only [if_true, hz, Nat.add_zero, if_false]
      rw [if_pos (by omega)]
      omega
  · have hmn : m + n ≠ 0 := by omega
    rw [if_neg hn, if_neg hmn]
    split <;> omega

/-- The big-endian 16-bit words of a byte string, an odd last byte padded with zero. -/
def words : List UInt8 → List Nat
  | [] => []
  | [a] => [256 * a.toNat]
  | a :: b :: rest => (256 * a.toNat + b.toNat) :: words rest

theorem sum_words (l : List UInt8) : (words l).sum = wordSum l := by
  fun_induction words l with
  | case1 => simp [wordSum]
  | case2 a => simp [wordSum]
  | case3 a b rest ih => rw [List.sum_cons, ih, wordSum]

theorem words_take (l : List UInt8) (k : Nat) : words (l.take (2 * k)) = (words l).take k := by
  induction l using words.induct generalizing k with
  | case1 => simp [words]
  | case2 a =>
    cases k with
    | zero => simp [words]
    | succ k =>
      have htake : [a].take (2 * (k + 1)) = [a] := List.take_of_length_le (by simp; omega)
      simp [htake, words]
  | case3 a b rest ih =>
    cases k with
    | zero => simp [words]
    | succ k =>
      have htake : (a :: b :: rest).take (2 * (k + 1)) = a :: b :: rest.take (2 * k) := rfl
      rw [htake, words, ih, words, List.take_succ_cons]

/-- The order of the words does not matter to their sum. -/
theorem wordSum_eq_of_perm {l l' : List UInt8} (h : (words l).Perm (words l')) :
    wordSum l = wordSum l' := by
  rw [← sum_words, ← sum_words]
  exact h.sum_nat

theorem wordSum_eq_zero_iff (l : List UInt8) : wordSum l = 0 ↔ ∀ b ∈ l, b = 0 := by
  have hbyte : ∀ b : UInt8, b.toNat = 0 ↔ b = 0 := by
    intro b
    exact UInt8.toNat_inj (b := 0)
  induction l using wordSum.induct with
  | case1 => simp [wordSum]
  | case2 a =>
    rw [List.forall_mem_singleton, ← hbyte, wordSum]
    omega
  | case3 a b rest ih =>
    have hrest : wordSum rest = 0 ↔ ∀ b ∈ rest, b = 0 := ih
    rw [List.forall_mem_cons, List.forall_mem_cons, ← hrest, ← hbyte, ← hbyte, wordSum]
    omega

theorem wordSum_append_zeros (l : List UInt8) (n : Nat) :
    wordSum (l ++ List.replicate n 0) = wordSum l := by
  induction n with
  | zero => simp
  | succ n ih => rw [List.replicate_succ', ← List.append_assoc, wordSum_snoc_zero, ih]

/-- Adding the carries back in at the end comes to the same as adding them word by word. -/
theorem onesSum_eq (l : List UInt8) : onesSum l = canon (wordSum l) := by
  fun_induction onesSum l with
  | case1 => rfl
  | case2 a =>
    have ha := a.toNat_lt
    exact (canon_of_lt (by omega)).symm
  | case3 a b rest ih =>
    have ha := a.toNat_lt
    have hb := b.toNat_lt
    rw [ih, onesAdd_canon (by omega)]
    rfl

/-- A field that holds the complement of the sum taken with the field cleared makes the whole
sum all ones. -/
theorem onesSum_checked {pre : List UInt8} (post : List UInt8) {hi lo : UInt8}
    (heven : pre.length % 2 = 0)
    (hfield : 256 * hi.toNat + lo.toNat = 65535 - canon (wordSum (pre ++ 0 :: 0 :: post))) :
    onesSum (pre ++ hi :: lo :: post) = 65535 := by
  have hcleared : wordSum (pre ++ 0 :: 0 :: post) = wordSum pre + wordSum post := by
    rw [wordSum_append pre _ heven, wordSum]
    simp
  have hfilled : wordSum (pre ++ hi :: lo :: post) =
      wordSum (pre ++ 0 :: 0 :: post) + (256 * hi.toNat + lo.toNat) := by
    rw [hcleared, wordSum_append pre _ heven, wordSum]
    omega
  rw [onesSum_eq, hfilled, hfield]
  exact canon_complement _

end MyTelnet.Base.OnesComplement
