/- module: MyTelnet/Http/Safety
   scope: proofs
   digest: The status texts on which parse_http_response throws. -/

import MyTelnet.Http.Heads

set_option autoImplicit false
set_option relaxedAutoImplicit false

namespace MyTelnet.Http.Safety

open MyTelnet.Base.ByteOrder MyTelnet.Base.Search MyTelnet.Wire.Memory
open MyTelnet.Http.Strings MyTelnet.Http.Client MyTelnet.Http.Numerals MyTelnet.Http.Heads

/-- The parser returns without an exception and in range, and leaves the output parameters
alone when it returns false. -/
def Safe (data : Bytes) (out : HttpResponse) : Prop :=
  ∃ ok response, parseHttpResponse data out = .ok (ok, response) ∧ (ok = false → response = out)

/-- If there is a blank line and the first line has two spaces, the text between these begins
with a number that fits an `int`. -/
def StatusConvertible (data : Bytes) : Prop :=
  ∀ text, statusTextOf data = some text → ∃ value, Numeral text value ∧ IntRange value

/-- The conversion of the status code is the only step that can fail. -/
theorem safe_iff (data : Bytes) (out : HttpResponse) :
    Safe data out ↔ StatusConvertible data := by
  unfold Safe StatusConvertible
  rcases parse_cases data out with
    ⟨hnone, hparse⟩ | ⟨text, htext, ⟨what, hthrown, hparse⟩ | ⟨response, hvalue, hparse⟩⟩
  · rw [hparse, hnone]
    apply iff_of_true
    · exact ⟨false, out, rfl, fun _ => rfl⟩
    · intro text htext
      cases htext
  · rw [hparse, htext]
    apply iff_of_false
    · rintro ⟨ok, response, h, -⟩
      cases h
    · intro h
      obtain ⟨value, hvalue⟩ := h text rfl
      rw [(stoi_ok_iff text value).mpr hvalue] at hthrown
      cases hthrown
  · rw [hparse, htext]
    apply iff_of_true
    · refine ⟨true, response, rfl, ?_⟩
      intro h
      cases h
    · intro text' htext'
      obtain rfl := Option.some.inj htext'
      exact ⟨response.statusCode, (stoi_ok_iff text response.statusCode).mp hvalue⟩

/-- A word in the place of the status code. -/
theorem status_word_throws :
    ¬∀ (data : Bytes) (out : HttpResponse), Safe data out := by
  intro h
  obtain ⟨ok, response, hparse, -⟩ :=
    h (ascii "HTTP/1.1 abc OK\r\n\r\n") ⟨0, [], ∅, []⟩
  have hfind : find (crlf ++ crlf) (ascii "HTTP/1.1 abc OK\r\n\r\n") = some 15 := by
    decide +kernel
  have hhead : parseHead ((ascii "HTTP/1.1 abc OK\r\n\r\n").take 15) =
      .error (.exception "std::invalid_argument") := by
    rfl
  rw [parse_of_find_some _ hfind, hhead] at hparse
  cases hparse

end MyTelnet.Http.Safety
