/- module: MyTelnet/Http/Download
   scope: model and proofs
   digest: download_file, and when it leaves either the whole response or the old file. -/

import MyTelnet.Http.Stability

set_option autoImplicit false
set_option relaxedAutoImplicit false

namespace MyTelnet.Http.Download

open MyTelnet.Base.ByteOrder MyTelnet.Base.Search MyTelnet.Wire.Memory
open MyTelnet.Http.Strings MyTelnet.Http.Client MyTelnet.Http.Numerals MyTelnet.Http.Heads
open MyTelnet.Http.Stability

/-- The callback of `download_file` on what the stream has written so far. -/
def fileCallback (written : Bytes) (response : HttpResponse) : Bytes :=
  if response.statusCode = 200 then written ++ response.body else written

/-- `download_file`: what it returns and the local file it leaves, where `none` is no file. The
stream is opened, and the file cut to nothing, before `get` is called. -/
def downloadFile (opened : Bool) (file : Option Bytes) (t : Transport) (locals : HttpResponse)
    (host path : Bytes) : Checked Bool × Option Bytes :=
  if !opened then (.ok false, file) else
  match get t locals host path with
  | .error e => (.error e, some [])
  | .ok result => (.ok result.returned, some (result.callbacks.foldl fileCallback []))

/-! The receive loop against the whole of what the server delivers. -/

/-- The loop runs through the chunks that complete no header block and ends with the first that
does, unless there is none. -/
theorem receiveLoop_cases (locals : HttpResponse) (buffer : Bytes) (chunks : List Bytes)
    (h : parseHttpResponse buffer locals = .ok (false, locals)) :
    (parseHttpResponse (buffer ++ chunks.flatten) locals = .ok (false, locals) ∧
      receiveLoop locals buffer chunks = .ok ⟨false, buffer ++ chunks.flatten, []⟩) ∨
    ∃ pre last post, chunks = pre ++ last :: post ∧
      parseHttpResponse (buffer ++ pre.flatten) locals = .ok (false, locals) ∧
      ((∃ what, parseHttpResponse (buffer ++ pre.flatten ++ last) locals =
            .error (.exception what) ∧
          receiveLoop locals buffer chunks = .error (.exception what)) ∨
        ∃ response, parseHttpResponse (buffer ++ pre.flatten ++ last) locals =
            .ok (true, response) ∧
          receiveLoop locals buffer chunks =
            .ok ⟨true, buffer ++ pre.flatten ++ last, [response]⟩) := by
  induction chunks generalizing buffer with
  | nil =>
    refine .inl ⟨?_, ?_⟩
    · rwa [List.flatten_nil, List.append_nil]
    · rw [receiveLoop, List.flatten_nil, List.append_nil]
  | cons chunk chunks ih =>
    have hflat : buffer ++ (chunk :: chunks).flatten = buffer ++ chunk ++ chunks.flatten := by
      rw [List.flatten_cons, List.append_assoc]
    rcases parse_cases (buffer ++ chunk) locals with
      ⟨-, hnext⟩ | ⟨-, -, ⟨what, -, hnext⟩ | ⟨response, -, hnext⟩⟩
    · have hloop : receiveLoop locals buffer (chunk :: chunks) =
          receiveLoop locals (buffer ++ chunk) chunks := by
        rw [receiveLoop, hnext]
        rfl
      rw [hloop, hflat]
      rcases ih (buffer ++ chunk) hnext with hall | ⟨pre, last, post, rfl, hpre, hend⟩
      · exact .inl hall
      · refine .inr ⟨chunk :: pre, last, post, rfl, ?_⟩
        have hcons : buffer ++ (chunk :: pre).flatten = buffer ++ chunk ++ pre.flatten := by
          rw [List.flatten_cons, List.append_assoc]
        rw [hcons]
        exact ⟨hpre, hend⟩
    · refine .inr ⟨[], chunk, chunks, rfl, ?_, .inl ⟨what, ?_, ?_⟩⟩
      · rwa [List.flatten_nil, List.append_nil]
      · rwa [List.flatten_nil, List.append_nil]
      · rw [receiveLoop, hnext]
        rfl
    · refine .inr ⟨[], chunk, chunks, rfl, ?_, .inr ⟨response, ?_, ?_⟩⟩
      · rwa [List.flatten_nil, List.append_nil]
      · rwa [List.flatten_nil, List.append_nil]
      · rw [receiveLoop, hnext, List.flatten_nil, List.append_nil]
        rfl

/-- What the server delivers behind the chunk in which the blank line ends. -/
def unread (buffer : Bytes) : List Bytes → Bytes
  | [] => []
  | chunk :: chunks =>
    if (find (crlf ++ crlf) (buffer ++ chunk)).isSome then chunks.flatten
    else unread (buffer ++ chunk) chunks

theorem unread_append (buffer : Bytes) (pre : List Bytes) (last : Bytes) (post : List Bytes)
    (hpre : find (crlf ++ crlf) (buffer ++ pre.flatten) = none)
    (hlast : (find (crlf ++ crlf) (buffer ++ pre.flatten ++ last)).isSome) :
    unread buffer (pre ++ last :: post) = post.flatten := by
  induction pre generalizing buffer with
  | nil =>
    rw [List.flatten_nil, List.append_nil] at hlast
    rw [List.nil_append, unread, if_pos hlast]
  | cons chunk pre ih =>
    rw [List.flatten_cons, ← List.append_assoc] at hpre hlast
    have hnone : find (crlf ++ crlf) (buffer ++ chunk) = none := by
      cases hfind : find (crlf ++ crlf) (buffer ++ chunk) with
      | none => rfl
      | some i =>
        rw [find_append _ hfind] at hpre
        cases hpre
    rw [List.cons_append, unread, hnone, if_neg (by simp)]
    exact ih (buffer ++ chunk) hpre hlast

/-- The chunk that ends the loop is the one in which the blank line ends. -/
theorem unread_of_accepted {pre : List Bytes} {last : Bytes} (post : List Bytes)
    {locals response : HttpResponse}
    (hpre : parseHttpResponse pre.flatten locals = .ok (false, locals))
    (hlast : parseHttpResponse (pre.flatten ++ last) locals = .ok (true, response)) :
    unread [] (pre ++ last :: post) = post.flatten := by
  apply unread_append
  · rw [List.nil_append]
    cases hfind : find (crlf ++ crlf) pre.flatten with
    | none => rfl
    | some headerEnd =>
      have hextends := parse_append last locals locals hfind
      rw [hpre, hlast] at hextends
      cases hextends
  · rw [List.nil_append]
    cases hfind : find (crlf ++ crlf) (pre.flatten ++ last) with
    | none =>
      rw [parse_of_find_none locals hfind] at hlast
      cases hlast
    | some headerEnd => rfl

/-! The result of the download. -/

/-- `true` comes with a response of status 200, whose body the file holds, and `false` with the
old file. The response is all that the server delivers. -/
structure AllOrNothing (delivered : Bytes) (locals : HttpResponse) (file : Option Bytes)
    (result : Checked Bool × Option Bytes) : Prop where
  whole : result.1 = .ok true → ∃ response,
    parseHttpResponse delivered locals = .ok (true, response) ∧ response.statusCode = 200 ∧
      result.2 = some response.body
  nothing : result.1 = .ok false → result.2 = file

/-- `get` comes to its receive loop. -/
def asked (t : Transport) : Bool := t.connected && t.established && t.requestSent

/-- The file could not be opened; or a status text arrives, and if it has a value, this is 200
and nothing arrives behind the chunk with the blank line; or no status text arrives and the
file was there and empty before. -/
def Harmless (opened : Bool) (file : Option Bytes) (t : Transport) : Prop :=
  opened = false ∨
    (∃ text, asked t = true ∧ statusTextOf t.chunks.flatten = some text ∧
      ∀ value, Numeral text value → IntRange value → value = 200 ∧ unread [] t.chunks = []) ∨
    ((asked t = false ∨ statusTextOf t.chunks.flatten = none) ∧ file = some [])

section StatusText

variable {data : Bytes} {out response : HttpResponse} {what : String}

theorem statusText_of_refused (h : parseHttpResponse data out = .ok (false, out)) :
    statusTextOf data = none := by
  rcases parse_cases data out with ⟨hnone, -⟩ | ⟨-, -, ⟨_, -, hparse⟩ | ⟨_, -, hparse⟩⟩
  · exact hnone
  · rw [hparse] at h
    cases h
  · rw [hparse] at h
    cases h

theorem statusText_of_thrown (h : parseHttpResponse data out = .error (.exception what)) :
    ∃ text, statusTextOf data = some text ∧ stoi text = .error (.exception what) := by
  rcases parse_cases data out with
    ⟨-, hparse⟩ | ⟨text, htext, ⟨_, hstoi, hparse⟩ | ⟨_, -, hparse⟩⟩
  · rw [hparse] at h
    cases h
  · rw [hparse] at h
    cases h
    exact ⟨text, htext, hstoi⟩
  · rw [hparse] at h
    cases h

theorem statusText_of_accepted (h : parseHttpResponse data out = .ok (true, response)) :
    ∃ text, statusTextOf data = some text ∧ stoi text = .ok response.statusCode := by
  rcases parse_cases data out with
    ⟨-, hparse⟩ | ⟨text, htext, ⟨_, -, hparse⟩ | ⟨_, hstoi, hparse⟩⟩
  · rw [hparse] at h
    cases h
  · rw [hparse] at h
    cases h
  · rw [hparse] at h
    cases h
    exact ⟨text, htext, hstoi⟩

end StatusText

section Outcomes

variable {t : Transport} (file : Option Bytes) (locals : HttpResponse) (host path : Bytes)

theorem downloadFile_not_opened (t : Transport) :
    downloadFile false file t locals host path = (.ok false, file) := rfl

theorem downloadFile_not_asked (h : asked t = false) :
    downloadFile true file t locals host path = (.ok false, some []) := by
  obtain ⟨connected, established, requestSent, chunks⟩ := t
  cases connected with
  | false => rfl
  | true =>
    cases established with
    | false => rfl
    | true =>
      cases requestSent with
      | false => rfl
      | true => cases h

theorem downloadFile_thrown {e : Fault} (h : asked t = true)
    (hloop : receiveLoop locals [] t.chunks = .error e) :
    downloadFile true file t locals host path = (.error e, some []) := by
  obtain ⟨connected, established, requestSent, chunks⟩ := t
  obtain ⟨⟨rfl, rfl⟩, rfl⟩ : (connected = true ∧ established = true) ∧ requestSent = true := by
    simpa [asked] using h
  simp only [downloadFile, Client.get, hloop, bind_error]
  rfl

theorem downloadFile_received {reception : Reception} (h : asked t = true)
    (hloop : receiveLoop locals [] t.chunks = .ok reception) :
    downloadFile true file t locals host path =
      (.ok reception.receivedComplete, some (reception.callbacks.foldl fileCallback [])) := by
  obtain ⟨connected, established, requestSent, chunks⟩ := t
  obtain ⟨⟨rfl, rfl⟩, rfl⟩ : (connected = true ∧ established = true) ∧ requestSent = true := by
    simpa [asked] using h
  simp only [downloadFile, Client.get, hloop, bind_ok]
  rfl

end Outcomes

/-- With the old file cut to nothing, `false` is harmless if that is what it was. -/
theorem allOrNothing_false (delivered : Bytes) (locals : HttpResponse) (file : Option Bytes) :
    AllOrNothing delivered locals file (.ok false, some []) ↔ file = some [] := by
  constructor
  · intro h
    exact (h.nothing rfl).symm
  · intro h
    refine ⟨?_, fun _ => h.symm⟩
    intro htrue
    cases htrue

/-- A response that ends the loop leaves its body in the file if its status is 200. -/
theorem allOrNothing_accepted {delivered more : Bytes} {locals response : HttpResponse}
    (file : Option Bytes)
    (h : parseHttpResponse delivered locals =
      .ok (true, { response with body := response.body ++ more })) :
    AllOrNothing delivered locals file (.ok true, some ([response].foldl fileCallback [])) ↔
      response.statusCode = 200 ∧ more = [] := by
  constructor
  · intro hall
    obtain ⟨whole, hparse, hstatus, hfile⟩ := hall.whole rfl
    rw [h] at hparse
    obtain rfl := (Prod.mk.inj (Except.ok.inj hparse)).2
    have hstatus' : response.statusCode = 200 := hstatus
    have hbody : fileCallback [] response = response.body ++ more := Option.some.inj hfile
    rw [fileCallback, if_pos hstatus', List.nil_append] at hbody
    exact ⟨hstatus', List.self_eq_append_right.mp hbody⟩
  · rintro ⟨hstatus, rfl⟩
    refine ⟨fun _ => ⟨_, h, hstatus, ?_⟩, ?_⟩
    · show some (fileCallback [] response) = _
      rw [fileCallback, if_pos hstatus, List.nil_append, List.append_nil]
    · intro hfalse
      cases hfalse

section Harmless

variable {file : Option Bytes} {t : Transport} {text : Bytes}

theorem harmless_of_not_asked (h : asked t = false) :
    Harmless true file t ↔ file = some [] := by
  simp [Harmless, h]

theorem harmless_of_no_text (h : asked t = true) (hnone : statusTextOf t.chunks.flatten = none) :
    Harmless true file t ↔ file = some [] := by
  simp only [Harmless, h, hnone]
  simp

theorem harmless_of_text (h : asked t = true) (htext : statusTextOf t.chunks.flatten = some text) :
    Harmless true file t ↔
      ∀ value, Numeral text value → IntRange value → value = 200 ∧ unread [] t.chunks = [] := by
  simp only [Harmless, h, htext]
  simp

/-- A text that throws has no value. -/
theorem harmless_of_thrown {what : String} (hstoi : stoi text = .error (.exception what)) :
    ∀ value, Numeral text value → IntRange value → value = 200 ∧ unread [] t.chunks = [] := by
  intro value hnumeral hrange
  rw [(stoi_ok_iff text value).mpr ⟨hnumeral, hrange⟩] at hstoi
  cases hstoi

/-- A text that is converted has one value. -/
theorem harmless_of_value {code : Int} (hstoi : stoi text = .ok code) :
    (∀ value, Numeral text value → IntRange value → value = 200 ∧ unread [] t.chunks = []) ↔
      code = 200 ∧ unread [] t.chunks = [] := by
  constructor
  · intro h
    obtain ⟨hnumeral, hrange⟩ := (stoi_ok_iff text code).mp hstoi
    exact h code hnumeral hrange
  · intro h value hnumeral hrange
    have hsame := (stoi_ok_iff text value).mpr ⟨hnumeral, hrange⟩
    obtain rfl := Except.ok.inj (hstoi.symm.trans hsame)
    exact h

end Harmless

/-- When the download leaves the whole response or the old file. -/
theorem allOrNothing_iff (opened : Bool) (file : Option Bytes) (t : Transport)
    (locals : HttpResponse) (host path : Bytes) :
    AllOrNothing t.chunks.flatten locals file (downloadFile opened file t locals host path) ↔
      Harmless opened file t := by
  cases opened with
  | false =>
    rw [downloadFile_not_opened]
    refine iff_of_true ⟨?_, fun _ => rfl⟩ (.inl rfl)
    intro htrue
    cases htrue
  | true =>
    cases hasked : asked t with
    | false =>
      rw [downloadFile_not_asked file locals host path hasked, allOrNothing_false,
        harmless_of_not_asked hasked]
    | true =>
      have hempty : parseHttpResponse [] locals = .ok (false, locals) := rfl
      rcases receiveLoop_cases locals [] t.chunks hempty with
        ⟨hparse, hloop⟩ | ⟨pre, last, post, hchunks, hpre, hend⟩
      · rw [List.nil_append] at hparse
        have hnone := statusText_of_refused hparse
        rw [downloadFile_received file locals host path hasked hloop,
          harmless_of_no_text hasked hnone]
        exact allOrNothing_false _ locals file
      · rw [List.nil_append] at hpre hend
        have hwhole : t.chunks.flatten = pre.flatten ++ last ++ post.flatten := by
          rw [hchunks, List.flatten_append, List.flatten_cons, List.append_assoc]
        rcases hend with ⟨what, hparse, hloop⟩ | ⟨response, hparse, hloop⟩
        · obtain ⟨text, htext, hstoi⟩ := statusText_of_thrown (thrown_append post.flatten hparse)
          rw [← hwhole] at htext
          rw [downloadFile_thrown file locals host path hasked hloop,
            harmless_of_text hasked htext]
          refine iff_of_true ⟨?_, ?_⟩ (harmless_of_thrown hstoi)
          · intro htrue
            cases htrue
          · intro hfalse
            cases hfalse
        · have haccepted := accepted_append post.flatten hparse
          obtain ⟨text, htext, hstoi⟩ := statusText_of_accepted haccepted
          have hunread := unread_of_accepted post hpre hparse
          rw [← hwhole] at haccepted htext
          rw [← hchunks] at hunread
          rw [downloadFile_received file locals host path hasked hloop,
            allOrNothing_accepted file haccepted, harmless_of_text hasked htext,
            harmless_of_value hstoi, hunread]

/-- A connection that is refused: the old file is gone. -/
theorem refused_connection_truncates :
    ¬∀ (opened : Bool) (file : Option Bytes) (t : Transport) (locals : HttpResponse)
      (host path : Bytes), AllOrNothing t.chunks.flatten locals file
        (downloadFile opened file t locals host path) := by
  intro h
  have hlost := (h true (some (ascii "old")) ⟨false, false, false, []⟩ ⟨0, [], ∅, []⟩
    (ascii "lab") []).nothing rfl
  exact absurd hlost (by decide)

end MyTelnet.Http.Download
