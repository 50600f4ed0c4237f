/- module: MyTelnet/Http/Stability
   scope: proofs
   digest: Parsing a longer buffer changes nothing but the body. -/

import MyTelnet.Http.Heads

set_option autoImplicit false
set_option relaxedAutoImplicit false

namespace MyTelnet.Http.Stability

open MyTelnet.Base.ByteOrder MyTelnet.Base.Search MyTelnet.Wire.Memory
open MyTelnet.Http.Strings MyTelnet.Http.Client MyTelnet.Http.Heads

/-- Two results of the parser that differ by `more` behind the body only. -/
inductive Extends (more : Bytes) (out out' : HttpResponse) :
    Checked (Bool × HttpResponse) → Checked (Bool × HttpResponse) → Prop
  | accepted (statusCode : Int) (statusMessage : Bytes) (headers : Headers) (body : Bytes) :
      Extends more out out' (.ok (true, ⟨statusCode, statusMessage, headers, body⟩))
        (.ok (true, ⟨statusCode, statusMessage, headers, body ++ more⟩))
  | refused : Extends more out out' (.ok (false, out)) (.ok (false, out'))
  | thrown (what : String) :
      Extends more out out' (.error (.exception what)) (.error (.exception what))

/-- All that the data in front of the blank line decides stays as it is. -/
theorem parse_append {d : Bytes} (more : Bytes) (out out' : HttpResponse) {headerEnd : Nat}
    (h : find (crlf ++ crlf) d = some headerEnd) :
    Extends more out out' (parseHttpResponse d out) (parseHttpResponse (d ++ more) out') := by
  have hlen : headerEnd + 4 ≤ d.length := find_length_le h
  have hhead : (d ++ more).take headerEnd = d.take headerEnd :=
    List.take_append_of_le_length (by omega)
  have hbody : (d ++ more).drop (headerEnd + 4) = d.drop (headerEnd + 4) ++ more :=
    List.drop_append_of_le_length hlen
  rw [parse_of_find_some out h, parse_of_find_some out' (find_append more h), hhead, hbody]
  rcases parseHead_cases (d.take headerEnd) with ⟨-, hparsed⟩ | ⟨_, _, _, -, -, hcode⟩
  · rw [hparsed]
    exact .refused
  · rcases hcode with ⟨what, -, hparsed⟩ | ⟨statusCode, -, hparsed⟩
    · rw [hparsed]
      exact .thrown what
    · rw [hparsed]
      exact .accepted statusCode _ _ _

/-- Once a response is accepted, more data lengthen its body. -/
theorem accepted_append {d : Bytes} (more : Bytes) {out response : HttpResponse}
    (h : parseHttpResponse d out = .ok (true, response)) :
    parseHttpResponse (d ++ more) out =
      .ok (true, { response with body := response.body ++ more }) := by
  cases hfind : find (crlf ++ crlf) d with
  | none =>
    rw [parse_of_find_none out hfind] at h
    cases h
  | some headerEnd =>
    have hextends := parse_append more out out hfind
    rw [h] at hextends
    generalize parseHttpResponse (d ++ more) out = parsed at hextends
    cases hextends
    rfl

/-- Once the status code has thrown it throws again. -/
theorem thrown_append {d : Bytes} (more : Bytes) {out : HttpResponse} {what : String}
    (h : parseHttpResponse d out = .error (.exception what)) :
    parseHttpResponse (d ++ more) out = .error (.exception what) := by
  cases hfind : find (crlf ++ crlf) d with
  | none =>
    rw [parse_of_find_none out hfind] at h
    cases h
  | some headerEnd =>
    have hextends := parse_append more out out hfind
    rw [h] at hextends
    generalize parseHttpResponse (d ++ more) out = parsed at hextends
    cases hextends
    rfl

/-- Whether `d` holds a blank line or not, and whatever follows it. -/
theorem parsing_stable (d s : Bytes) (out out' : HttpResponse) :
    (crlf ++ crlf <:+: d →
      Extends s out out' (parseHttpResponse d out) (parseHttpResponse (d ++ s) out')) ∧
    (¬crlf ++ crlf <:+: d → parseHttpResponse d out = .ok (false, out)) := by
  constructor
  · intro hblank
    cases hfind : find (crlf ++ crlf) d with
    | none => exact absurd hblank ((find_eq_none_iff _ _).mp hfind)
    | some headerEnd => exact parse_append s out out' hfind
  · intro hno
    exact parse_of_find_none out ((find_eq_none_iff _ _).mpr hno)

/-- A body that holds a blank line of its own. -/
theorem parsing_stable_sample :
    Extends (ascii "a: b\r\n\r\nc") ⟨0, [], ∅, []⟩ ⟨0, [], ∅, []⟩
        (parseHttpResponse (ascii "HTTP/1.1 200 OK\r\n\r\n") ⟨0, [], ∅, []⟩)
        (parseHttpResponse (ascii "HTTP/1.1 200 OK\r\n\r\n" ++ ascii "a: b\r\n\r\nc")
          ⟨0, [], ∅, []⟩) ∧
      parseHttpResponse (ascii "HTTP/1.1 200 OK\r\n") ⟨0, [], ∅, []⟩ =
        .ok (false, ⟨0, [], ∅, []⟩) :=
  ⟨(parsing_stable _ _ _ _).1 ⟨ascii "HTTP/1.1 200 OK", [], by decide⟩,
    (parsing_stable _ [] _ ⟨0, [], ∅, []⟩).2
      ((find_eq_none_iff _ _).mp (by decide +kernel))⟩

end MyTelnet.Http.Stability
