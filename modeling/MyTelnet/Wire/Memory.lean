/- module: MyTelnet/Wire/Memory
   scope: model
   digest: Checked loads and stores: an index outside its buffer is undefined behaviour. -/

import MyTelnet.Base.ByteOrder

set_option autoImplicit false
set_option relaxedAutoImplicit false

namespace MyTelnet.Wire.Memory

open MyTelnet.Base.ByteOrder

/-- How a C++ computation leaves its normal path. -/
inductive Fault where
  | exception (what : String)
  | undefinedBehaviour
  deriving DecidableEq, Repr

abbrev Checked := Except Fault

@[simp] theorem bind_ok {α β : Type} (a : α) (f : α → Checked β) :
    ((.ok a : Checked α) >>= f) = f a := rfl

@[simp] theorem bind_error {α β : Type} (e : Fault) (f : α → Checked β) :
    ((.error e : Checked α) >>= f) = .error e := rfl

/-- `size_t` subtraction on a 64-bit host: it wraps below zero. -/
def sizeSub (a b : Nat) : Nat := (a + 2 ^ 64 - b) % 2 ^ 64

def load8 (mem : Bytes) (i : Nat) : Checked UInt8 :=
  match mem[i]? with
  | some b => .ok b
  | none => .error .undefinedBehaviour

def load16 (mem : Bytes) (i : Nat) : Checked UInt16 := do
  let b0 ← load8 mem i
  let b1 ← load8 mem (i + 1)
  return word16 b0 b1

def load32 (mem : Bytes) (i : Nat) : Checked UInt32 := do
  let b0 ← load8 mem i
  let b1 ← load8 mem (i + 1)
  let b2 ← load8 mem (i + 2)
  let b3 ← load8 mem (i + 3)
  return word32 b0 b1 b2 b3

/-- The bytes from `i` on, as a range copy reads them one by one. -/
def loadRange (mem : Bytes) (i : Nat) : Nat → Checked Bytes
  | 0 => .ok []
  | n + 1 => do
    let b ← load8 mem i
    let bs ← loadRange mem (i + 1) n
    return b :: bs

def store8 (mem : Bytes) (i : Nat) (b : UInt8) : Checked Bytes :=
  if i < mem.length then .ok (mem.set i b) else .error .undefinedBehaviour

theorem load8_of_lt {mem : Bytes} {i : Nat} (h : i < mem.length) :
    load8 mem i = .ok (mem.getD i 0) := by
  simp [load8, List.getD, List.getElem?_eq_getElem h]

theorem load8_of_ge {mem : Bytes} {i : Nat} (h : mem.length ≤ i) :
    load8 mem i = .error .undefinedBehaviour := by
  simp [load8, List.getElem?_eq_none h]

theorem load16_of_lt {mem : Bytes} {i : Nat} (h : i + 1 < mem.length) :
    load16 mem i = .ok (word16 (mem.getD i 0) (mem.getD (i + 1) 0)) := by
  rw [load16, load8_of_lt (by omega), load8_of_lt h]
  rfl

theorem load32_of_lt {mem : Bytes} {i : Nat} (h : i + 3 < mem.length) :
    load32 mem i = .ok (word32 (mem.getD i 0) (mem.getD (i + 1) 0) (mem.getD (i + 2) 0)
      (mem.getD (i + 3) 0)) := by
  rw [load32, load8_of_lt (by omega), load8_of_lt (by omega), load8_of_lt (by omega),
    load8_of_lt h]
  rfl

/-! Loads behind a prefix. -/

theorem load8_append (pre rest : Bytes) (i : Nat) :
    load8 (pre ++ rest) (pre.length + i) = load8 rest i := by
  have h : (pre ++ rest)[pre.length + i]? = rest[i]? := by
    rw [List.getElem?_append_right (by omega), Nat.add_sub_cancel_left]
  rw [load8, load8, h]

theorem load16_append (pre rest : Bytes) (i : Nat) :
    load16 (pre ++ rest) (pre.length + i) = load16 rest i := by
  simp only [load16, Nat.add_assoc, load8_append]

theorem load32_append (pre rest : Bytes) (i : Nat) :
    load32 (pre ++ rest) (pre.length + i) = load32 rest i := by
  simp only [load32, Nat.add_assoc, load8_append]

/-- A range copy succeeds exactly when the range lies in the buffer. -/
theorem loadRange_eq (mem : Bytes) (i n : Nat) :
    loadRange mem i n =
      if n = 0 ∨ i + n ≤ mem.length then .ok ((mem.drop i).take n)
      else .error .undefinedBehaviour := by
  induction n generalizing i with
  | zero => simp [loadRange]
  | succ n ih =>
    by_cases hi : i < mem.length
    · have hd : mem.drop i = mem.getD i 0 :: mem.drop (i + 1) := by
        rw [List.drop_eq_getElem_cons hi]
        simp [List.getD, List.getElem?_eq_getElem hi]
      rw [loadRange, load8_of_lt hi, ih]
      by_cases hn : n = 0 ∨ i + 1 + n ≤ mem.length
      · rw [if_pos hn, if_pos (by omega), hd]
        rfl
      · rw [if_neg hn, if_neg (by omega)]
        rfl
    · rw [loadRange, load8_of_ge (by omega), if_neg (by omega)]
      rfl

theorem loadRange_of_le {mem : Bytes} {i n : Nat} (h : i + n ≤ mem.length) :
    loadRange mem i n = .ok ((mem.drop i).take n) := by
  rw [loadRange_eq, if_pos (Or.inr h)]

theorem sizeSub_of_le {a b : Nat} (ha : a < 2 ^ 64) (h : b ≤ a) : sizeSub a b = a - b := by
  unfold sizeSub
  omega

/-- The wrapped difference is within `b` of the top of the type. -/
theorem sizeSub_of_lt {a b : Nat} (hb : b < 2 ^ 64) (h : a < b) :
    sizeSub a b = 2 ^ 64 - (b - a) := by
  unfold sizeSub
  omega

end MyTelnet.Wire.Memory
