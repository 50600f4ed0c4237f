/- module: MyTelnet/Base/Streams
   scope: library
   digest: Slices and prefixes of a byte stream, sequence offsets, and an in-order receiver. -/

import Mathlib.Algebra.Group.Nat.Defs
import Mathlib.Data.List.Infix
import Mathlib.Tactic.Common

set_option autoImplicit false
set_option relaxedAutoImplicit false

namespace MyTelnet.Base.Streams

variable {α : Type*}

/-- `data` is the part of `stream` that starts at `offset`. -/
def SliceAt (stream : List α) (offset : Nat) (data : List α) : Prop :=
  offset ≤ stream.length ∧ data <+: stream.drop offset

theorem SliceAt.append_prefix {got data stream : List α} (h : SliceAt stream got.length data)
    (hgot : got <+: stream) : got ++ data <+: stream := by
  obtain ⟨rest, rfl⟩ := hgot
  have hdata : data <+: rest := by simpa only [List.drop_left] using h.2
  exact (List.prefix_append_right_inj got).mpr hdata

/-- What a receiver that takes only the next bytes has of the stream. -/
structure Receiver (stream : List α) where
  got : List α
  isPrefix : got <+: stream

def Receiver.fresh (stream : List α) : Receiver stream := ⟨[], List.nil_prefix⟩

def Receiver.accept {stream : List α} (r : Receiver stream) (data : List α)
    (h : SliceAt stream r.got.length data) : Receiver stream :=
  ⟨r.got ++ data, h.append_prefix r.isPrefix⟩

theorem Receiver.length_le {stream : List α} (r : Receiver stream) :
    r.got.length ≤ stream.length :=
  r.isPrefix.length_le

/-- Below the size of the sequence space, an offset is known from the sequence number. -/
theorem offset_unique {base : UInt32} {i j : Nat} (hi : i < 2 ^ 32) (hj : j < 2 ^ 32)
    (h : base + UInt32.ofNat i = base + UInt32.ofNat j) : i = j := by
  have hofNat : UInt32.ofNat i = UInt32.ofNat j := by
    have hcancel := congrArg (fun x => x - base) h
    simpa [UInt32.add_comm base, UInt32.add_sub_cancel] using hcancel
  have htoNat := congrArg UInt32.toNat hofNat
  rwa [UInt32.toNat_ofNat_of_lt' hi, UInt32.toNat_ofNat_of_lt' hj] at htoNat

end MyTelnet.Base.Streams
