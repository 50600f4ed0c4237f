/- module: MyTelnet/Base/ByteOrder
   scope: library
   digest: Words of a little-endian host, their bytes in memory and the network byte order. -/

import Mathlib.Algebra.Group.Nat.Defs
import Mathlib.Tactic.Common

set_option autoImplicit false
set_option relaxedAutoImplicit false

namespace MyTelnet.Base.ByteOrder

abbrev Bytes := List UInt8

/-- The low and the high byte of a 16-bit word. -/
def lo16 (x : UInt16) : UInt8 := UInt8.ofNat x.toNat
def hi16 (x : UInt16) : UInt8 := UInt8.ofNat (x.toNat / 256)

/-- The bytes a 16-bit store leaves in memory, lowest address first. -/
def store16 (x : UInt16) : Bytes := [lo16 x, hi16 x]

/-- The value of a 16-bit load. -/
def word16 (b0 b1 : UInt8) : UInt16 := UInt16.ofNat (b0.toNat + 256 * b1.toNat)

/-- Byte `k` of a 32-bit word, counted from the low end. -/
def byte32 (k : Nat) (x : UInt32) : UInt8 := UInt8.ofNat (x.toNat / 256 ^ k)

def store32 (x : UInt32) : Bytes := [byte32 0 x, byte32 1 x, byte32 2 x, byte32 3 x]

def word32 (b0 b1 b2 b3 : UInt8) : UInt32 :=
  UInt32.ofNat (b0.toNat + 256 * b1.toNat + 65536 * b2.toNat + 16777216 * b3.toNat)

/-- Conversion to the network byte order; it is its own inverse. -/
def htons (x : UInt16) : UInt16 := word16 (hi16 x) (lo16 x)
def ntohs (x : UInt16) : UInt16 := htons x

def htonl (x : UInt32) : UInt32 := word32 (byte32 3 x) (byte32 2 x) (byte32 1 x) (byte32 0 x)
def ntohl (x : UInt32) : UInt32 := htonl x

private theorem toNat_word16 (a b : UInt8) : (word16 a b).toNat = a.toNat + 256 * b.toNat := by
  have ha := a.toNat_lt
  have hb := b.toNat_lt
  simp only [word16, UInt16.toNat_ofNat']
  omega

@[simp] theorem lo16_word16 (a b : UInt8) : lo16 (word16 a b) = a := by
  apply UInt8.toNat_inj.mp
  have ha := a.toNat_lt
  simp only [lo16, toNat_word16, UInt8.toNat_ofNat']
  omega

@[simp] theorem hi16_word16 (a b : UInt8) : hi16 (word16 a b) = b := by
  apply UInt8.toNat_inj.mp
  have ha := a.toNat_lt
  have hb := b.toNat_lt
  simp only [hi16, toNat_word16, UInt8.toNat_ofNat']
  omega

@[simp] theorem word16_lo_hi (x : UInt16) : word16 (lo16 x) (hi16 x) = x := by
  apply UInt16.toNat_inj.mp
  have hx := x.toNat_lt
  simp only [toNat_word16, lo16, hi16, UInt8.toNat_ofNat']
  omega

private theorem toNat_word32 (a b c d : UInt8) :
    (word32 a b c d).toNat =
      a.toNat + 256 * b.toNat + 65536 * c.toNat + 16777216 * d.toNat := by
  have ha := a.toNat_lt
  have hb := b.toNat_lt
  have hc := c.toNat_lt
  have hd := d.toNat_lt
  simp only [word32, UInt32.toNat_ofNat']
  omega

@[simp] theorem byte32_word32 (a b c d : UInt8) :
    byte32 0 (word32 a b c d) = a ∧ byte32 1 (word32 a b c d) = b ∧
      byte32 2 (word32 a b c d) = c ∧ byte32 3 (word32 a b c d) = d := by
  have ha := a.toNat_lt
  have hb := b.toNat_lt
  have hc := c.toNat_lt
  have hd := d.toNat_lt
  refine ⟨?_, ?_, ?_, ?_⟩ <;> apply UInt8.toNat_inj.mp <;>
    simp only [byte32, toNat_word32, UInt8.toNat_ofNat'] <;> omega

@[simp] theorem word32_byte32 (x : UInt32) :
    word32 (byte32 0 x) (byte32 1 x) (byte32 2 x) (byte32 3 x) = x := by
  apply UInt32.toNat_inj.mp
  have hx := x.toNat_lt
  simp only [toNat_word32, byte32, UInt8.toNat_ofNat']
  omega

@[simp] theorem ntohs_htons (x : UInt16) : ntohs (htons x) = x := by
  simp [ntohs, htons]

@[simp] theorem ntohl_htonl (x : UInt32) : ntohl (htonl x) = x := by
  simp [ntohl, htonl]

/-- A load followed by `ntohs` reads the two bytes most significant first. -/
theorem toNat_ntohs_word16 (a b : UInt8) :
    (ntohs (word16 a b)).toNat = 256 * a.toNat + b.toNat := by
  simp only [ntohs, htons, hi16_word16, lo16_word16, toNat_word16]
  omega

end MyTelnet.Base.ByteOrder
