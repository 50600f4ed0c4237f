/- module: MyTelnet/Http/Strings
   scope: model
   digest: The operations of std::string that the HTTP client uses, on byte strings. -/

import MyTelnet.Base.ByteOrder
import MyTelnet.Base.Search
import MyTelnet.Wire.Memory

set_option autoImplicit false
set_option relaxedAutoImplicit false

namespace MyTelnet.Http.Strings

open MyTelnet.Base.ByteOrder MyTelnet.Base.Search MyTelnet.Wire.Memory

/-- The bytes of an ASCII literal. -/
def ascii (s : String) : Bytes := s.toList.map fun c => c.toNat.toUInt8

def space : UInt8 := 32
def colon : UInt8 := 58
def crlf : Bytes := [13, 10]

/-- `p + k` for a position that may be `npos`, where the sum wraps around; `k` is positive. -/
def after (p : Option Nat) (k : Nat) : Nat :=
  match p with
  | some n => n + k
  | none => k - 1

/-- `s.substr(pos, count)`; the count `npos` is `none`. -/
def substr (s : Bytes) (pos : Nat) (count : Option Nat) : Checked Bytes :=
  if pos > s.length then .error (.exception "std::out_of_range") else
  match count with
  | some n => .ok ((s.drop pos).take n)
  | none => .ok (s.drop pos)

/-- `s.erase(pos, count)`. -/
def erase (s : Bytes) (pos : Nat) (count : Option Nat) : Checked Bytes :=
  if pos > s.length then .error (.exception "std::out_of_range") else
  match count with
  | some n => .ok (s.take pos ++ s.drop (pos + n))
  | none => .ok (s.take pos)

def findFirstNotOf (chars s : Bytes) : Option Nat := s.findIdx? fun c => !chars.contains c

def findLastNotOf (chars s : Bytes) : Option Nat :=
  (s.reverse.findIdx? fun c => !chars.contains c).map (s.length - 1 - ·)

/-- `std::tolower` in the C locale. -/
def toLower (c : UInt8) : UInt8 := if 65 ≤ c ∧ c ≤ 90 then c + 32 else c

/-- `std::isspace` in the C locale. -/
def isSpace (c : UInt8) : Bool := c == space || (9 ≤ c && c ≤ 13)

def isDigit (c : UInt8) : Bool := 48 ≤ c && c ≤ 57

def digitsValue (digits : Bytes) : Nat :=
  digits.foldl (fun n c => 10 * n + (c.toNat - 48)) 0

/-- The sign in front of a number, and what follows it. -/
def takeSign : Bytes → Bool × Bytes
  | [] => (false, [])
  | c :: rest =>
    if c = 45 then (true, rest) else if c = 43 then (false, rest) else (false, c :: rest)

/-- `std::stoi`: blanks, a sign, and the longest run of digits behind them. -/
def stoi (s : Bytes) : Checked Int :=
  let (negative, s) := takeSign (s.dropWhile isSpace)
  let digits := s.takeWhile isDigit
  if digits = [] then .error (.exception "std::invalid_argument") else
  let value : Int := if negative then -(digitsValue digits : Int) else digitsValue digits
  if value < -2147483648 ∨ value > 2147483647 then .error (.exception "std::out_of_range")
  else .ok value

theorem substr_of_le {s : Bytes} {pos : Nat} (n : Nat) (h : pos ≤ s.length) :
    substr s pos (some n) = .ok ((s.drop pos).take n) :=
  if_neg (Nat.not_lt.mpr h)

theorem substr_npos_of_le {s : Bytes} {pos : Nat} (h : pos ≤ s.length) :
    substr s pos none = .ok (s.drop pos) :=
  if_neg (Nat.not_lt.mpr h)

theorem erase_of_le {s : Bytes} {pos : Nat} (n : Nat) (h : pos ≤ s.length) :
    erase s pos (some n) = .ok (s.take pos ++ s.drop (pos + n)) :=
  if_neg (Nat.not_lt.mpr h)

theorem erase_npos_of_le {s : Bytes} {pos : Nat} (h : pos ≤ s.length) :
    erase s pos none = .ok (s.take pos) :=
  if_neg (Nat.not_lt.mpr h)

/-- The part between what comes before it and what comes behind it. -/
theorem substr_middle (a b c : Bytes) :
    substr (a ++ (b ++ c)) a.length (some b.length) = .ok b := by
  have hle : a.length ≤ (a ++ (b ++ c)).length := by
    rw [List.length_append]
    omega
  rw [substr_of_le _ hle, List.drop_left, List.take_left]

theorem substr_tail (a b : Bytes) : substr (a ++ b) a.length none = .ok b := by
  have hle : a.length ≤ (a ++ b).length := by
    rw [List.length_append]
    omega
  rw [substr_npos_of_le hle, List.drop_left]

end MyTelnet.Http.Strings
