/- module: MyTelnet/Http/Client
   scope: model
   digest: build_http_request, parse_http_response and the receive loop of HttpClient::get. -/

import Mathlib.Data.Finmap
import MyTelnet.Http.Strings

set_option autoImplicit false
set_option relaxedAutoImplicit false

namespace MyTelnet.Http.Client

open MyTelnet.Base.ByteOrder MyTelnet.Base.Search MyTelnet.Wire.Memory MyTelnet.Http.Strings

/-- The headers map. -/
abbrev Headers := Finmap fun _ : Bytes => Bytes

/-- The output parameters of `parse_http_response`, which are what the callback gets. -/
structure HttpResponse where
  statusCode : Int
  statusMessage : Bytes
  headers : Headers
  body : Bytes
  deriving DecidableEq

/-- `build_http_request`; `headers` lists the user's map in its order. -/
def buildHttpRequest (method host path : Bytes) (headers : List (Bytes × Bytes)) : Bytes :=
  method ++ ascii " " ++ (if path = [] then ascii "/" else path) ++ ascii " HTTP/1.1" ++ crlf ++
    ascii "Host: " ++ host ++ crlf ++
    ascii "Connection: close" ++ crlf ++
    ascii "User-Agent: MyTelnet/1.0" ++ crlf ++
    headers.flatMap (fun header => header.1 ++ ascii ": " ++ header.2 ++ crlf) ++ crlf

def blanks : Bytes := ascii " \t"

/-- The body of the header loop on one line. -/
def parseHeaderLine (line : Bytes) (headers : Headers) : Checked Headers :=
  match find [colon] line with
  | none => .ok headers
  | some i => do
    let name ← substr line 0 (some i)
    let value ← substr line (i + 1) none
    let value ← erase value 0 (findFirstNotOf blanks value)
    let value ← erase value (after (findLastNotOf blanks value) 1) none
    return headers.insert (name.map toLower) value

/-- The header loop from `pos` on. -/
def parseHeaderLines (headersStr : Bytes) (headerEnd pos : Nat) (headers : Headers) :
    Checked Headers :=
  if pos < headerEnd then
    match hfind : findFrom crlf headersStr pos with
    | none => .ok headers
    | some lineEnd => do
      let line ← substr headersStr pos (some (lineEnd - pos))
      let headers ← parseHeaderLine line headers
      parseHeaderLines headersStr headerEnd (lineEnd + 2) headers
  else .ok headers
termination_by headerEnd - pos
decreasing_by
  have hle := findFrom_le hfind
  omega

/-- `parse_http_response`, from the values of its output parameters to those it leaves. -/
def parseHttpResponse (data : Bytes) (out : HttpResponse) : Checked (Bool × HttpResponse) :=
  match find (crlf ++ crlf) data with
  | none => .ok (false, out)
  | some headerEnd => do
    let headersStr ← substr data 0 (some headerEnd)
    let lineEnd := find crlf headersStr
    let statusLine ← substr headersStr 0 lineEnd
    let versionEnd := find [space] statusLine
    let statusCodeEnd := findFrom [space] statusLine (after versionEnd 1)
    match versionEnd, statusCodeEnd with
    | some versionEnd, some statusCodeEnd =>
      let statusCodeStr ← substr statusLine (versionEnd + 1)
        (some (statusCodeEnd - versionEnd - 1))
      let statusCode ← stoi statusCodeStr
      let statusMessage ← substr statusLine (statusCodeEnd + 1) none
      let headers ← parseHeaderLines headersStr headerEnd (after lineEnd 2) ∅
      if headerEnd + 4 > data.length then .error .undefinedBehaviour else
      return (true, ⟨statusCode, statusMessage, headers, data.drop (headerEnd + 4)⟩)
    | _, _ => return (false, out)

/-- What the receive loop of `get` leaves: `received_complete`, the response buffer and the
calls of the callback. -/
structure Reception where
  receivedComplete : Bool
  responseBuffer : Bytes
  callbacks : List HttpResponse
  deriving DecidableEq

/-- The receive loop of `get`. `chunks` are the vectors that `wait_for_data` returns; when they
are used up it times out. The locals of a pass are fresh and come in through `locals`. -/
def receiveLoop (locals : HttpResponse) (buffer : Bytes) : List Bytes → Checked Reception
  | [] => .ok ⟨false, buffer, []⟩
  | chunk :: chunks => do
    let buffer := buffer ++ chunk
    let (parsed, response) ← parseHttpResponse buffer locals
    if parsed then return ⟨true, buffer, [response]⟩
    else receiveLoop locals buffer chunks

/-- How the calls that `get` makes of its TCP stack turn out. -/
structure Transport where
  connected : Bool
  established : Bool
  requestSent : Bool
  chunks : List Bytes

/-- What `get` returns, the request it passes to `send_data` and its calls of the callback. -/
structure GetResult where
  returned : Bool
  request : Option Bytes
  callbacks : List HttpResponse
  deriving DecidableEq

/-- `HttpClient::get`, with a callback installed. -/
def get (t : Transport) (locals : HttpResponse) (host path : Bytes) : Checked GetResult :=
  if !t.connected then .ok ⟨false, none, []⟩ else
  if !t.established then .ok ⟨false, none, []⟩ else
  let request := buildHttpRequest (ascii "GET") host path []
  if !t.requestSent then .ok ⟨false, some request, []⟩ else do
  let reception ← receiveLoop locals [] t.chunks
  return ⟨reception.receivedComplete, some request, reception.callbacks⟩

end MyTelnet.Http.Client
