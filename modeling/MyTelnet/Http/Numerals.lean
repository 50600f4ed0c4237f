/- module: MyTelnet/Http/Numerals
   scope: specification and proofs
   digest: The texts that std::stoi converts, and their values. -/

import Mathlib.Data.List.TakeWhile
import MyTelnet.Http.Strings

set_option autoImplicit false
set_option relaxedAutoImplicit false

namespace MyTelnet.Http.Numerals

open MyTelnet.Base.ByteOrder MyTelnet.Wire.Memory MyTelnet.Http.Strings

/-- The signs that may stand in front of a number. -/
inductive Sign where
  | none
  | plus
  | minus
  deriving DecidableEq, Repr

def Sign.bytes : Sign → Bytes
  | .none => []
  | .plus => [43]
  | .minus => [45]

def Sign.apply : Sign → Nat → Int
  | .minus, n => -(n : Int)
  | _, n => n

/-- A text that begins with white space, a sign if any, and a run of digits, and the value of
that number. What follows the digits does not matter. -/
inductive Numeral : Bytes → Int → Prop
  | intro (blanks : Bytes) (sign : Sign) (digits rest : Bytes)
      (blanks_ok : ∀ c ∈ blanks, isSpace c = true) (digits_ne : digits ≠ [])
      (digits_ok : ∀ c ∈ digits, isDigit c = true)
      (rest_ok : ∀ c ∈ rest.head?, isDigit c = false) :
      Numeral (blanks ++ sign.bytes ++ digits ++ rest) (sign.apply (digitsValue digits))

/-- The values of an `int` of 32 bits. -/
def IntRange (value : Int) : Prop := -2147483648 ≤ value ∧ value ≤ 2147483647

/-- The digits that `stoi` reads and the value that it gives them. -/
def numberDigits (s : Bytes) : Bytes := (takeSign (s.dropWhile isSpace)).2.takeWhile isDigit

def numberValue (s : Bytes) : Int :=
  if (takeSign (s.dropWhile isSpace)).1 then -(digitsValue (numberDigits s) : Int)
  else digitsValue (numberDigits s)

theorem stoi_eq (s : Bytes) :
    stoi s =
      if numberDigits s = [] then .error (.exception "std::invalid_argument")
      else if numberValue s < -2147483648 ∨ numberValue s > 2147483647
        then .error (.exception "std::out_of_range")
      else .ok (numberValue s) := rfl

/-- The only fault is an exception. -/
theorem stoi_error {s : Bytes} {e : Fault} (h : stoi s = .error e) :
    ∃ what, e = .exception what := by
  rw [stoi_eq] at h
  split at h
  · exact ⟨_, (Except.error.inj h).symm⟩
  split at h
  · exact ⟨_, (Except.error.inj h).symm⟩
  · cases h

private theorem digit_cases {c : UInt8} (h : isDigit c = true) :
    isSpace c = false ∧ c ≠ 45 ∧ c ≠ 43 := by
  have hle : 48 ≤ c ∧ c ≤ 57 := by simpa [isDigit] using h
  have hlow : 48 ≤ c.toNat := UInt8.le_iff_toNat_le.mp hle.1
  have hne : ∀ d : UInt8, d.toNat < 48 → c ≠ d := by
    rintro d hd rfl
    omega
  refine ⟨?_, hne 45 (by decide), hne 43 (by decide)⟩
  have hspace : c ≠ space := hne space (by decide)
  have hhigh : ¬c ≤ 13 := by
    intro h13
    have h13' : c.toNat ≤ 13 := UInt8.le_iff_toNat_le.mp h13
    omega
  simp [isSpace, hspace, hhigh]

/-- A sign, and a digit behind it, are not skipped as white space. -/
theorem dropWhile_blanks {blanks digits : Bytes} (rest : Bytes) (sign : Sign)
    (blanks_ok : ∀ c ∈ blanks, isSpace c = true) (digits_ne : digits ≠ [])
    (digits_ok : ∀ c ∈ digits, isDigit c = true) :
    (blanks ++ sign.bytes ++ digits ++ rest).dropWhile isSpace =
      sign.bytes ++ digits ++ rest := by
  obtain ⟨d, ds, rfl⟩ := List.exists_cons_of_ne_nil digits_ne
  have hd := (digit_cases (digits_ok d List.mem_cons_self)).1
  rw [List.append_assoc, List.append_assoc, List.dropWhile_append_of_pos blanks_ok]
  cases sign with
  | none => simp [Sign.bytes, hd]
  | plus => simp [Sign.bytes, isSpace, space]
  | minus => simp [Sign.bytes, isSpace, space]

/-- What `stoi` reads of a numeral. -/
theorem takeSign_numeral {digits : Bytes} (rest : Bytes) (sign : Sign) (digits_ne : digits ≠ [])
    (digits_ok : ∀ c ∈ digits, isDigit c = true) :
    takeSign (sign.bytes ++ digits ++ rest) = (sign == .minus, digits ++ rest) := by
  obtain ⟨d, ds, rfl⟩ := List.exists_cons_of_ne_nil digits_ne
  obtain ⟨-, hminus, hplus⟩ := digit_cases (digits_ok d List.mem_cons_self)
  cases sign with
  | none => simp [Sign.bytes, takeSign, hminus, hplus]
  | plus => simp [Sign.bytes, takeSign]
  | minus => simp [Sign.bytes, takeSign]

theorem takeWhile_digits {digits rest : Bytes} (digits_ok : ∀ c ∈ digits, isDigit c = true)
    (rest_ok : ∀ c ∈ rest.head?, isDigit c = false) :
    (digits ++ rest).takeWhile isDigit = digits := by
  rw [List.takeWhile_append_of_pos digits_ok]
  cases rest with
  | nil => simp
  | cons c rest =>
    have hc : isDigit c = false := rest_ok c rfl
    simp [hc]

theorem numeral_read {s : Bytes} {value : Int} (h : Numeral s value) :
    numberDigits s ≠ [] ∧ numberValue s = value := by
  cases h with
  | intro blanks sign digits rest blanks_ok digits_ne digits_ok rest_ok =>
    have hdrop := dropWhile_blanks rest sign blanks_ok digits_ne digits_ok
    have hsign := takeSign_numeral rest sign digits_ne digits_ok
    have hdigits : numberDigits (blanks ++ sign.bytes ++ digits ++ rest) = digits := by
      rw [numberDigits, hdrop, hsign]
      exact takeWhile_digits digits_ok rest_ok
    refine ⟨by rwa [hdigits], ?_⟩
    rw [numberValue, hdigits, hdrop, hsign]
    cases sign with
    | none => rfl
    | plus => rfl
    | minus => rfl

theorem takeSign_cut (t : Bytes) :
    ∃ sign : Sign, t = sign.bytes ++ (takeSign t).2 ∧ (takeSign t).1 = (sign == .minus) := by
  cases t with
  | nil => exact ⟨.none, rfl, rfl⟩
  | cons c rest =>
    by_cases hminus : c = 45
    · subst hminus
      exact ⟨.minus, rfl, rfl⟩
    by_cases hplus : c = 43
    · subst hplus
      exact ⟨.plus, rfl, rfl⟩
    · have hsign : takeSign (c :: rest) = (false, c :: rest) := by simp [takeSign, hminus, hplus]
      rw [hsign]
      exact ⟨.none, rfl, rfl⟩

/-- Every text with digits in the right place is a numeral with the value that is read. -/
theorem numeral_of_digits {s : Bytes} (h : numberDigits s ≠ []) : Numeral s (numberValue s) := by
  obtain ⟨sign, hcut, hneg⟩ := takeSign_cut (s.dropWhile isSpace)
  have hs : s = s.takeWhile isSpace ++ sign.bytes ++ numberDigits s ++
      (takeSign (s.dropWhile isSpace)).2.dropWhile isDigit := by
    rw [numberDigits, List.append_assoc, List.append_assoc, List.takeWhile_append_dropWhile,
      ← hcut, List.takeWhile_append_dropWhile]
  have hvalue : numberValue s = sign.apply (digitsValue (numberDigits s)) := by
    rw [numberValue, hneg]
    cases sign with
    | none => rfl
    | plus => rfl
    | minus => rfl
  have hnumeral := Numeral.intro (s.takeWhile isSpace) sign (numberDigits s)
    ((takeSign (s.dropWhile isSpace)).2.dropWhile isDigit)
    (fun c hc => List.mem_takeWhile_imp hc) h (fun c hc => List.mem_takeWhile_imp hc)
    (fun c hc => by
      have hhead := List.head?_dropWhile_not isDigit (takeSign (s.dropWhile isSpace)).2
      rw [Option.mem_def.mp hc] at hhead
      simpa using hhead)
  rw [← hs, ← hvalue] at hnumeral
  exact hnumeral

/-- `std::stoi` converts exactly the numerals whose value an `int` can hold. -/
theorem stoi_ok_iff (s : Bytes) (value : Int) :
    stoi s = .ok value ↔ Numeral s value ∧ IntRange value := by
  rw [stoi_eq]
  constructor
  · intro h
    split at h
    · cases h
    next hdigits =>
      split at h
      · cases h
      next hrange =>
        obtain rfl := Except.ok.inj h
        exact ⟨numeral_of_digits hdigits, by unfold IntRange; omega⟩
  · rintro ⟨hnumeral, hrange⟩
    obtain ⟨hdigits, rfl⟩ := numeral_read hnumeral
    unfold IntRange at hrange
    rw [if_neg hdigits, if_neg (by omega)]

end MyTelnet.Http.Numerals
