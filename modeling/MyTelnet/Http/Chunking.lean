/- module: MyTelnet/Http/Chunking
   scope: proofs
   digest: What get hands to its callback depends on the chunk that ends the header block. -/

import MyTelnet.Base.Cuttings
import MyTelnet.Http.Decoding

set_option autoImplicit false
set_option relaxedAutoImplicit false

namespace MyTelnet.Http.Chunking

open MyTelnet.Base.ByteOrder MyTelnet.Base.Search MyTelnet.Base.Cuttings MyTelnet.Wire.Memory
open MyTelnet.Http.Strings MyTelnet.Http.Client MyTelnet.Http.Messages MyTelnet.Http.Decoding

/-- One of the header lines gives the length of the body. -/
def HasContentLength (m : Message) : Prop :=
  ∃ line ∈ m.lines, lower line.1 = ascii "content-length" ∧
    strip line.2 = ascii (toString m.body.length)

/-- The number of bytes up to the end of the blank line. -/
def bodyStart (m : Message) : Nat := (m.head ++ (crlf ++ crlf)).length

/-- What the callback gets when the body is `body`. -/
def response (m : Message) (body : Bytes) : HttpResponse :=
  ⟨m.code, m.reason, headersOf m.lines.dropLast, body⟩

/-- The calls of the callback when the connection and the request succeed. -/
def delivered (locals : HttpResponse) (host path : Bytes) (chunks : List Bytes) :
    Checked (List HttpResponse) :=
  (get ⟨true, true, true, chunks⟩ locals host path).map GetResult.callbacks

/-- Both runs call the callback with one and the same response, which has the whole body. -/
def SameWhole (m : Message) (first second : Checked (List HttpResponse)) : Prop :=
  ∃ r, first = .ok [r] ∧ second = .ok [r] ∧ r.body = m.body

/-- The blank line ends in the last chunk. -/
def EndsInLast (m : Message) (cutting : Cutting m.bytes) : Prop :=
  cutting.pieces.dropLast.flatten.length < bodyStart m

theorem bytes_length (m : Message) : m.bytes.length = bodyStart m + m.body.length := by
  rw [m.bytes_eq, List.length_append, bodyStart]

theorem drop_bodyStart (m : Message) : m.bytes.drop (bodyStart m) = m.body := by
  rw [m.bytes_eq, bodyStart, List.drop_left]

/-- The parser on what has arrived of a message. -/
theorem parse_prefix (m : Message) (out : HttpResponse) {data : Bytes} (h : data <+: m.bytes) :
    parseHttpResponse data out =
      if data.length < bodyStart m then .ok (false, out)
      else .ok (true, response m (data.drop (bodyStart m))) := by
  have hfind : find (crlf ++ crlf) m.bytes = some m.head.length := by
    rw [m.bytes_eq]
    exact find_head m m.body
  have hend : m.head.length + (crlf ++ crlf).length = bodyStart m :=
    List.length_append.symm
  have hdata := find_of_prefix h hfind
  rw [hend] at hdata
  by_cases hlt : data.length < bodyStart m
  · rw [if_pos hlt] at hdata
    rw [if_pos hlt, parseHttpResponse, hdata]
  · rw [if_neg hlt]
    have hblock : m.head ++ (crlf ++ crlf) <+: m.bytes := by
      rw [m.bytes_eq]
      exact List.prefix_append _ _
    have hhead : m.head ++ (crlf ++ crlf) <+: data :=
      List.prefix_of_prefix_length_le hblock h (Nat.le_of_not_lt hlt)
    obtain ⟨body, rfl⟩ := hhead
    rw [parse_message, bodyStart, List.drop_left]
    rfl

/-- One pass of the receive loop. -/
theorem receiveLoop_cons (m : Message) (locals : HttpResponse) (buffer chunk : Bytes)
    (chunks : List Bytes) (h : buffer ++ chunk <+: m.bytes) :
    receiveLoop locals buffer (chunk :: chunks) =
      if (buffer ++ chunk).length < bodyStart m then receiveLoop locals (buffer ++ chunk) chunks
      else .ok ⟨true, buffer ++ chunk,
        [response m ((buffer ++ chunk).drop (bodyStart m))]⟩ := by
  rw [receiveLoop, parse_prefix m locals h]
  split
  · rfl
  · rfl

/-- The loop ends with the chunk that reaches the end of the blank line. -/
theorem receiveLoop_reach (m : Message) (locals : HttpResponse) (buffer : Bytes)
    (chunks : List Bytes) (h : buffer ++ chunks.flatten <+: m.bytes) {arrived : Bytes}
    (hreach : reach (bodyStart m) buffer chunks = some arrived) :
    receiveLoop locals buffer chunks =
      .ok ⟨true, arrived, [response m (arrived.drop (bodyStart m))]⟩ := by
  induction chunks generalizing buffer with
  | nil => exact absurd hreach (by simp [reach])
  | cons chunk chunks ih =>
    rw [List.flatten_cons, ← List.append_assoc] at h
    have hchunk : buffer ++ chunk <+: m.bytes := (List.prefix_append _ _).trans h
    rw [receiveLoop_cons m locals buffer chunk chunks hchunk]
    rw [reach] at hreach
    by_cases hhere : bodyStart m ≤ (buffer ++ chunk).length
    · rw [if_pos hhere] at hreach
      obtain rfl := Option.some.inj hreach
      rw [if_neg (Nat.not_lt.mpr hhere)]
    · rw [if_neg hhere] at hreach
      rw [if_pos (Nat.lt_of_not_le hhere)]
      exact ih (buffer ++ chunk) h hreach

theorem delivered_of_receiveLoop {locals : HttpResponse} (host path : Bytes)
    (chunks : List Bytes) {reception : Reception}
    (h : receiveLoop locals [] chunks = .ok reception) :
    delivered locals host path chunks = .ok reception.callbacks := by
  show (do
      let reception ← receiveLoop locals [] chunks
      return (⟨reception.receivedComplete, some (buildHttpRequest (ascii "GET") host path []),
        reception.callbacks⟩ : GetResult) : Checked GetResult).map GetResult.callbacks = _
  rw [h]
  rfl

/-- Every cutting delivers one response, whole exactly if the blank line ends in the last
chunk. -/
theorem delivered_cutting (m : Message) (cutting : Cutting m.bytes) (locals : HttpResponse)
    (host path : Bytes) :
    ∃ body, delivered locals host path cutting.pieces = .ok [response m body] ∧
      (body = m.body ↔ EndsInLast m cutting) := by
  have hpos : ([] : Bytes).length < bodyStart m := by
    rw [bodyStart, List.length_append]
    exact Nat.lt_of_lt_of_le (by decide) (Nat.le_add_left _ _)
  have hflat : [] ++ cutting.pieces.flatten = m.bytes := cutting.flatten_eq
  have hle : bodyStart m ≤ ([] ++ cutting.pieces.flatten).length := by
    rw [hflat, bytes_length]
    exact Nat.le_add_right _ _
  obtain ⟨arrived, hreach, hprefix, hlen, hall⟩ :=
    reach_spec (bodyStart m) [] cutting.pieces cutting.nonempty hpos hle
  rw [hflat] at hprefix hall
  have hloop := receiveLoop_reach m locals [] cutting.pieces
    (by rw [hflat]) hreach
  refine ⟨arrived.drop (bodyStart m), ?_, ?_⟩
  · exact delivered_of_receiveLoop host path cutting.pieces hloop
  · rw [EndsInLast, ← List.nil_append cutting.pieces.dropLast.flatten, ← hall]
    constructor
    · intro hbody
      apply List.IsPrefix.eq_of_length hprefix
      have hdrop := congrArg List.length hbody
      rw [List.length_drop] at hdrop
      rw [bytes_length]
      omega
    · intro hwhole
      rw [hwhole, drop_bodyStart]

/-- Two cuttings of a response give the callback the same call with the whole body exactly if
the blank line ends in the last chunk of both. -/
theorem chunking_iff (m : Message) (cutting cutting' : Cutting m.bytes)
    (locals locals' : HttpResponse) (host path : Bytes) :
    SameWhole m (delivered locals host path cutting.pieces)
        (delivered locals' host path cutting'.pieces) ↔
      EndsInLast m cutting ∧ EndsInLast m cutting' := by
  obtain ⟨body, hfirst, hbody⟩ := delivered_cutting m cutting locals host path
  obtain ⟨body', hsecond, hbody'⟩ := delivered_cutting m cutting' locals' host path
  rw [hfirst, hsecond, ← hbody, ← hbody']
  constructor
  · rintro ⟨r, hr, hr', hwhole⟩
    obtain rfl : response m body = r := (List.cons.inj (Except.ok.inj hr)).1
    have hsame : response m body' = response m body := (List.cons.inj (Except.ok.inj hr')).1
    have heq : body' = body := congrArg HttpResponse.body hsame
    have hfull : body = m.body := hwhole
    exact ⟨hfull, heq.trans hfull⟩
  · rintro ⟨rfl, rfl⟩
    exact ⟨response m m.body, rfl, rfl, rfl⟩

/-- A page of three bytes. -/
def page : Message :=
  okMessage [(ascii "Content-Length", ascii "3")] (ascii "abc") (by unfold NoBreak; decide)

/-- The page in one chunk. -/
def inOne : Cutting page.bytes where
  pieces := [ascii "HTTP/1.1 200 OK\r\nContent-Length: 3\r\n\r\nabc"]
  flatten_eq := by decide
  nonempty := by decide

/-- The page in two chunks, the body apart. -/
def inTwo : Cutting page.bytes where
  pieces := [ascii "HTTP/1.1 200 OK\r\nContent-Length: 3\r\n\r\n", ascii "abc"]
  flatten_eq := by decide
  nonempty := by decide

/-- The second cutting hands an empty page to the callback. -/
theorem page_truncated :
    HasContentLength page ∧
      delivered ⟨0, [], ∅, []⟩ (ascii "lab") [] inTwo.pieces =
        .ok [⟨200, ascii "OK", ∅, []⟩] ∧
      ¬ SameWhole page (delivered ⟨0, [], ∅, []⟩ (ascii "lab") [] inOne.pieces)
        (delivered ⟨0, [], ∅, []⟩ (ascii "lab") [] inTwo.pieces) := by
  have hreach : reach (bodyStart page) [] inTwo.pieces =
      some (ascii "HTTP/1.1 200 OK\r\nContent-Length: 3\r\n\r\n") := by
    decide
  have hempty : (ascii "HTTP/1.1 200 OK\r\nContent-Length: 3\r\n\r\n").drop (bodyStart page) =
      [] := by
    decide
  have hprefix : [] ++ inTwo.pieces.flatten <+: page.bytes := by
    rw [inTwo.flatten_eq, List.nil_append]
  have hloop := receiveLoop_reach page ⟨0, [], ∅, []⟩ [] inTwo.pieces hprefix hreach
  have htwo : delivered ⟨0, [], ∅, []⟩ (ascii "lab") [] inTwo.pieces =
      .ok [⟨200, ascii "OK", ∅, []⟩] := by
    rw [delivered_of_receiveLoop _ _ _ hloop, hempty]
    rfl
  refine ⟨⟨_, List.mem_singleton_self _, by decide, by decide⟩, htwo, ?_⟩
  rintro ⟨r, -, hr, hbody⟩
  rw [htwo] at hr
  obtain rfl := (List.cons.inj (Except.ok.inj hr)).1
  exact absurd hbody (by decide)

end MyTelnet.Http.Chunking
