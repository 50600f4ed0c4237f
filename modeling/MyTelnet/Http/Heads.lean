/- module: MyTelnet/Http/Heads
   scope: proofs
   digest: What parse_http_response reads off the header block alone. -/

import MyTelnet.Http.Decoding
import MyTelnet.Http.Numerals

set_option autoImplicit false
set_option relaxedAutoImplicit false

namespace MyTelnet.Http.Heads

open MyTelnet.Base.ByteOrder MyTelnet.Base.Search MyTelnet.Wire.Memory
open MyTelnet.Http.Strings MyTelnet.Http.Client MyTelnet.Http.Messages MyTelnet.Http.Decoding
open MyTelnet.Http.Numerals

/-! The status line. -/

/-- The first line of a header block. -/
def statusLineOf (head : Bytes) : Bytes := head.take ((find crlf head).getD head.length)

/-- The text between the first two spaces of a status line, and the text behind the second. -/
def statusFields (line : Bytes) : Option (Bytes × Bytes) :=
  (find [space] line).bind fun i =>
    (find [space] (line.drop (i + 1))).map fun j =>
      ((line.drop (i + 1)).take j, (line.drop (i + 1)).drop (j + 1))

theorem substr_statusLine (head : Bytes) :
    substr head 0 (find crlf head) = .ok (statusLineOf head) := by
  unfold statusLineOf
  cases find crlf head with
  | none => simp [substr]
  | some i => simp [substr]

/-- The header loop from the second line on. With one line only the position wraps to 1. -/
def headersFrom (head : Bytes) : Checked Headers :=
  parseHeaderLines head head.length (after (find crlf head) 2) ∅

/-- The part of `parse_http_response` that looks at the header block: nothing if the status
line lacks a space, otherwise the code, the message and the headers. -/
def parseHead (head : Bytes) : Checked (Option (Int × Bytes × Headers)) :=
  match statusFields (statusLineOf head) with
  | none => .ok none
  | some (codeText, reason) => do
    let statusCode ← stoi codeText
    let headers ← headersFrom head
    return some (statusCode, reason, headers)

/-- The result of `parse_http_response` for the parts of the block and the body behind it. -/
def result (out : HttpResponse) (body : Bytes) :
    Option (Int × Bytes × Headers) → Bool × HttpResponse
  | none => (false, out)
  | some (statusCode, reason, headers) => (true, ⟨statusCode, reason, headers, body⟩)

theorem parse_of_find_none {data : Bytes} (out : HttpResponse)
    (h : find (crlf ++ crlf) data = none) : parseHttpResponse data out = .ok (false, out) := by
  rw [parseHttpResponse, h]

/-! The fields of a status line, by the two searches for a space. -/

section StatusFields

variable {line : Bytes} {i j : Nat}

theorem statusFields_none (h : find [space] line = none) : statusFields line = none := by
  rw [statusFields, h, Option.bind_none]

theorem statusFields_one (h : find [space] line = some i)
    (hcode : find [space] (line.drop (i + 1)) = none) : statusFields line = none := by
  rw [statusFields, h, Option.bind_some, hcode, Option.map_none]

theorem statusFields_two (h : find [space] line = some i)
    (hcode : find [space] (line.drop (i + 1)) = some j) :
    statusFields line = some ((line.drop (i + 1)).take j, (line.drop (i + 1)).drop (j + 1)) := by
  rw [statusFields, h, Option.bind_some, hcode, Option.map_some]

end StatusFields

/-- A block found at the front of the data decides everything but the body. -/
theorem parse_of_find_some {data : Bytes} (out : HttpResponse) {headerEnd : Nat}
    (h : find (crlf ++ crlf) data = some headerEnd) :
    parseHttpResponse data out =
      (parseHead (data.take headerEnd)).map (result out (data.drop (headerEnd + 4))) := by
  have hlen : headerEnd + 4 ≤ data.length := find_length_le h
  have hhead : (data.take headerEnd).length = headerEnd := by
    rw [List.length_take]
    omega
  have hblock : substr data 0 (some headerEnd) = .ok (data.take headerEnd) := by
    rw [substr_of_le headerEnd (Nat.zero_le _), List.drop_zero]
  rw [parseHttpResponse, h]
  dsimp only
  rw [hblock, bind_ok, substr_statusLine, bind_ok, parseHead]
  generalize hhd : data.take headerEnd = head at hhead
  generalize statusLineOf head = line
  cases hversion : find [space] line with
  | none =>
    rw [statusFields_none hversion]
    rfl
  | some i =>
    have hi : i + 1 ≤ line.length := find_length_le hversion
    have hfrom : findFrom [space] line (after (some i) 1) =
        (find [space] (line.drop (i + 1))).map (· + (i + 1)) := if_pos hi
    rw [hfrom]
    cases hcode : find [space] (line.drop (i + 1)) with
    | none =>
      rw [statusFields_one hversion hcode]
      rfl
    | some j =>
      have hj : j + 1 ≤ (line.drop (i + 1)).length := find_length_le hcode
      rw [List.length_drop] at hj
      have hcount : j + (i + 1) - i - 1 = j := by omega
      have hbehind : line.drop (j + (i + 1) + 1) = (line.drop (i + 1)).drop (j + 1) := by
        rw [List.drop_drop]
        congr 1
        omega
      rw [statusFields_two hversion hcode]
      simp only [Option.map_some, hcount, substr_of_le j hi, bind_ok, headersFrom, hhead]
      cases stoi ((line.drop (i + 1)).take j) with
      | error e => rfl
      | ok statusCode =>
        rw [bind_ok, bind_ok, substr_npos_of_le (by omega), bind_ok, hbehind]
        cases parseHeaderLines head headerEnd (after (find crlf head) 2) ∅ with
        | error e => rfl
        | ok headers =>
          rw [bind_ok, if_neg (by omega)]
          rfl

theorem headersFrom_ok (head : Bytes) : ∃ headers, headersFrom head = .ok headers := by
  obtain ⟨headers, h, -⟩ := parseHeaderLines_invariant (P := fun _ => True)
    (fun _ _ _ => trivial) head head.length (after (find crlf head) 2) ∅ trivial
  exact ⟨headers, h⟩

/-- A block without two spaces in its first line is refused; otherwise the status code alone
can fail, with an exception. -/
theorem parseHead_cases (head : Bytes) :
    (statusFields (statusLineOf head) = none ∧ parseHead head = .ok none) ∨
    ∃ codeText reason headers, statusFields (statusLineOf head) = some (codeText, reason) ∧
      headersFrom head = .ok headers ∧
      ((∃ what, stoi codeText = .error (.exception what) ∧
          parseHead head = .error (.exception what)) ∨
        ∃ statusCode, stoi codeText = .ok statusCode ∧
          parseHead head = .ok (some (statusCode, reason, headers))) := by
  obtain ⟨headers, hheaders⟩ := headersFrom_ok head
  unfold parseHead
  cases hfields : statusFields (statusLineOf head) with
  | none => exact .inl ⟨rfl, rfl⟩
  | some fields =>
    obtain ⟨codeText, reason⟩ := fields
    refine .inr ⟨codeText, reason, headers, rfl, hheaders, ?_⟩
    cases hcode : stoi codeText with
    | error e =>
      obtain ⟨what, rfl⟩ := stoi_error hcode
      refine .inl ⟨what, rfl, ?_⟩
      simp only [hcode, bind_error]
    | ok statusCode =>
      refine .inr ⟨statusCode, rfl, ?_⟩
      simp only [hcode, hheaders, bind_ok]
      rfl

/-- The text in the place of the status code, if there is a blank line and the first line in
front of it has two spaces. -/
def statusTextOf (data : Bytes) : Option Bytes :=
  (find (crlf ++ crlf) data).bind fun headerEnd =>
    (statusFields (statusLineOf (data.take headerEnd))).map Prod.fst

/-- The three ways out of `parse_http_response`: no status text, one that `stoi` throws on, and
one that it converts. -/
theorem parse_cases (data : Bytes) (out : HttpResponse) :
    (statusTextOf data = none ∧ parseHttpResponse data out = .ok (false, out)) ∨
    ∃ text, statusTextOf data = some text ∧
      ((∃ what, stoi text = .error (.exception what) ∧
          parseHttpResponse data out = .error (.exception what)) ∨
        ∃ response, stoi text = .ok response.statusCode ∧
          parseHttpResponse data out = .ok (true, response)) := by
  unfold statusTextOf
  cases hfind : find (crlf ++ crlf) data with
  | none => exact .inl ⟨rfl, parse_of_find_none out hfind⟩
  | some headerEnd =>
    rw [parse_of_find_some out hfind, Option.bind_some]
    rcases parseHead_cases (data.take headerEnd) with
      ⟨hfields, hparsed⟩ | ⟨text, reason, headers, hfields, -, hcode⟩
    · rw [hfields, hparsed]
      exact .inl ⟨rfl, rfl⟩
    · rw [hfields]
      refine .inr ⟨text, rfl, ?_⟩
      rcases hcode with ⟨what, hthrown, hparsed⟩ | ⟨statusCode, hvalue, hparsed⟩
      · rw [hparsed]
        exact .inl ⟨what, hthrown, rfl⟩
      · rw [hparsed]
        exact .inr ⟨⟨statusCode, reason, headers, data.drop (headerEnd + 4)⟩, hvalue, rfl⟩

end MyTelnet.Http.Heads
