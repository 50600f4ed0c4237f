/- module: MyTelnet/Http/Requests
   scope: specification and proofs
   digest: A reader of requests, and which requests of build_http_request it gives back. -/

import MyTelnet.Base.Blocks
import MyTelnet.Http.Messages

set_option autoImplicit false
set_option relaxedAutoImplicit false

namespace MyTelnet.Http.Requests

open MyTelnet.Base.ByteOrder MyTelnet.Base.Search MyTelnet.Base.Blocks
open MyTelnet.Http.Strings MyTelnet.Http.Client MyTelnet.Http.Messages

/-- What a server reads from a request. -/
structure Request where
  method : Bytes
  target : Bytes
  version : Bytes
  fields : List (Bytes × Bytes)
  deriving DecidableEq

/-- Three parts with a space between them. -/
def readRequestLine (line : Bytes) : Option (Bytes × Bytes × Bytes) :=
  match line.splitOn space with
  | [method, target, version] => some (method, target, version)
  | _ => none

/-- A name up to the first colon, and the value behind it without the blanks around that. -/
def readField (line : Bytes) : Option (Bytes × Bytes) :=
  (find [colon] line).map fun i => (line.take i, strip (line.drop (i + 1)))

/-- The lines of a head. -/
def readLines : List Bytes → Option Request
  | [] => none
  | line :: lines => do
    let (method, target, version) ← readRequestLine line
    let fields ← lines.mapM readField
    return ⟨method, target, version, fields⟩

/-- A request, and what stands behind its blank line. -/
def readRequest (data : Bytes) : Option (Request × Bytes) := do
  let (lines, rest) ← readBlock crlf data
  let request ← readLines lines
  return (request, rest)

/-- The request that `build_http_request` means. -/
def requestOf (method host path : Bytes) (headers : List (Bytes × Bytes)) : Request :=
  { method := method, target := if path = [] then ascii "/" else path, version := ascii "HTTP/1.1",
    fields := (ascii "Host", strip host) :: (ascii "Connection", ascii "close") ::
      (ascii "User-Agent", ascii "MyTelnet/1.0") ::
        headers.map fun header => (header.1, strip header.2) }

/-- No part ends the line that it stands in, or the part of that line. -/
structure Sendable (method host path : Bytes) (headers : List (Bytes × Bytes)) : Prop where
  method_ok : space ∉ method ∧ ¬ crlf <:+: method
  path_ok : space ∉ path ∧ ¬ crlf <:+: path
  host_ok : ¬ crlf <:+: host
  headers_ok : ∀ header ∈ headers,
    colon ∉ header.1 ∧ ¬ crlf <:+: header.1 ∧ ¬ crlf <:+: header.2

/-! The lines of a request. -/

def requestLine (method path : Bytes) : Bytes :=
  method ++ ascii " " ++ (if path = [] then ascii "/" else path) ++ ascii " HTTP/1.1"

/-- The fields with the values as they are written. -/
def writtenFields (host : Bytes) (headers : List (Bytes × Bytes)) : List (Bytes × Bytes) :=
  (ascii "Host", host) :: (ascii "Connection", ascii "close") ::
    (ascii "User-Agent", ascii "MyTelnet/1.0") :: headers

def fieldLines (host : Bytes) (headers : List (Bytes × Bytes)) : List Bytes :=
  (writtenFields host headers).map headerLine

theorem buildHttpRequest_eq (method host path : Bytes) (headers : List (Bytes × Bytes)) :
    buildHttpRequest method host path headers =
      writeBlock crlf (requestLine method path :: fieldLines host headers) := by
  simp only [buildHttpRequest, writeBlock, requestLine, fieldLines, writtenFields, headerLine,
    List.flatMap_cons, List.map_cons, List.flatMap_map, List.append_assoc]
  rfl

theorem crlf_requestLine (method path : Bytes) :
    ¬ crlf <:+: requestLine method path ↔ ¬ crlf <:+: method ∧ ¬ crlf <:+: path := by
  have hline : requestLine method path = method ++ space ::
      ((if path = [] then ascii "/" else path) ++ space :: ascii "HTTP/1.1") := by
    simp only [requestLine, List.append_assoc]
    rfl
  have hversion : ¬ crlf <:+: ascii "HTTP/1.1" := by decide
  have htarget : crlf <:+: (if path = [] then ascii "/" else path) ↔ crlf <:+: path := by
    split
    · next hnil =>
      rw [hnil]
      decide
    · rfl
  rw [hline, crlf, mark_infix_middle (by decide) (by decide),
    mark_infix_middle (by decide) (by decide), ← crlf, htarget, not_or, not_or]
  simp [hversion]

theorem crlf_headerLine (header : Bytes × Bytes) :
    ¬ crlf <:+: headerLine header ↔ ¬ crlf <:+: header.1 ∧ ¬ crlf <:+: header.2 := by
  have hline : headerLine header = header.1 ++ colon :: ([] ++ space :: header.2) := by
    simp only [headerLine, List.append_assoc]
    rfl
  have hnil : ¬ crlf <:+: [] := by decide
  rw [hline, crlf, mark_infix_middle (by decide) (by decide),
    mark_infix_middle (by decide) (by decide), ← crlf, not_or, not_or]
  simp [hnil]

/-! What is read from a line. -/

theorem notMem_of_splitOn {x : UInt8} {s : Bytes} (h : (s.splitOn x).length = 1) : x ∉ s := by
  intro hmem
  obtain ⟨a, b, rfl⟩ := List.append_of_mem hmem
  have ha := List.length_pos_iff.mpr (List.splitOn_ne_nil x a)
  have hb := List.length_pos_iff.mpr (List.splitOn_ne_nil x b)
  rw [List.splitOn_append_cons_self, List.length_append] at h
  omega

theorem readRequestLine_iff (method target : Bytes) {version : Bytes} (h : space ∉ version) :
    readRequestLine (method ++ space :: (target ++ space :: version)) =
        some (method, target, version) ↔ space ∉ method ∧ space ∉ target := by
  constructor
  · intro hread
    have hparts : (method ++ space :: (target ++ space :: version)).splitOn space =
        [method, target, version] := by
      rw [readRequestLine] at hread
      split at hread
      · next hsplit =>
        cases hread
        exact hsplit
      · cases hread
    rw [List.splitOn_append_cons_self, List.splitOn_append_cons_self] at hparts
    have hlen := congrArg List.length hparts
    have hmethod := List.length_pos_iff.mpr (List.splitOn_ne_nil space method)
    have htarget := List.length_pos_iff.mpr (List.splitOn_ne_nil space target)
    have hversion := List.length_pos_iff.mpr (List.splitOn_ne_nil space version)
    simp only [List.length_append, List.length_cons, List.length_nil] at hlen
    exact ⟨notMem_of_splitOn (by omega), notMem_of_splitOn (by omega)⟩
  · rintro ⟨hmethod, htarget⟩
    rw [readRequestLine, List.splitOn_append_cons_self_of_not_mem hmethod,
      List.splitOn_append_cons_self_of_not_mem htarget, List.splitOn_eq_singleton h]

theorem strip_space (value : Bytes) : strip (space :: value) = strip value := rfl

theorem readField_iff (name value : Bytes) :
    readField (headerLine (name, value)) = some (name, strip value) ↔ colon ∉ name := by
  have hline : headerLine (name, value) = name ++ [colon] ++ space :: value := by
    simp only [headerLine, List.append_assoc]
    rfl
  rw [hline, readField]
  constructor
  · intro hread
    obtain ⟨i, hfind, hfield⟩ := Option.map_eq_some_iff.mp hread
    have hname := not_mem_take_find hfind
    rw [(Prod.mk.inj hfield).1] at hname
    exact hname
  · intro hname
    have hdrop : (name ++ [colon] ++ space :: value).drop (name.length + 1) = space :: value := by
      rw [show name.length + 1 = (name ++ [colon]).length by simp, List.drop_left]
    rw [find_append_pattern [] (space :: value) hname, Option.map_some, hdrop, List.append_assoc,
      List.take_left, strip_space]

theorem mapM_readField_length {lines : List Bytes} {fields : List (Bytes × Bytes)}
    (h : lines.mapM readField = some fields) : fields.length = lines.length := by
  induction lines generalizing fields with
  | nil =>
    cases h
    rfl
  | cons line lines ih =>
    simp only [List.mapM_cons, Option.bind_eq_bind, Option.bind_eq_some_iff] at h
    obtain ⟨field, -, more, hmore, hfields⟩ := h
    cases hfields
    rw [List.length_cons, List.length_cons, ih hmore]

theorem mapM_readField_iff (headers : List (Bytes × Bytes)) :
    (headers.map headerLine).mapM readField =
        some (headers.map fun header => (header.1, strip header.2)) ↔
      ∀ header ∈ headers, colon ∉ header.1 := by
  induction headers with
  | nil => simp
  | cons header headers ih =>
    rw [List.forall_mem_cons, ← readField_iff header.1 header.2, ← ih, List.map_cons,
      List.map_cons, List.mapM_cons]
    simp only [Option.bind_eq_bind, Option.bind_eq_some_iff]
    constructor
    · rintro ⟨field, hfield, more, hmore, heq⟩
      cases heq
      exact ⟨hfield, hmore⟩
    · rintro ⟨hfield, hmore⟩
      exact ⟨_, hfield, _, hmore, rfl⟩

theorem requestOf_fields (method host path : Bytes) (headers : List (Bytes × Bytes)) :
    (requestOf method host path headers).fields =
      (writtenFields host headers).map fun header => (header.1, strip header.2) := by
  have hclose : strip (ascii "close") = ascii "close" := by decide
  have hagent : strip (ascii "MyTelnet/1.0") = ascii "MyTelnet/1.0" := by decide
  simp only [requestOf, writtenFields, List.map_cons, hclose, hagent]

theorem colon_writtenFields (host : Bytes) (headers : List (Bytes × Bytes)) :
    (∀ header ∈ writtenFields host headers, colon ∉ header.1) ↔
      ∀ header ∈ headers, colon ∉ header.1 := by
  have hhost : colon ∉ ascii "Host" := by decide
  have hconnection : colon ∉ ascii "Connection" := by decide
  have hagent : colon ∉ ascii "User-Agent" := by decide
  simp only [writtenFields, List.forall_mem_cons, hhost, hconnection, hagent, not_false_eq_true,
    true_and]

theorem readRequestLine_built (method path : Bytes) :
    readRequestLine (requestLine method path) =
        some (method, if path = [] then ascii "/" else path, ascii "HTTP/1.1") ↔
      space ∉ method ∧ space ∉ path := by
  have hline : requestLine method path = method ++ space ::
      ((if path = [] then ascii "/" else path) ++ space :: ascii "HTTP/1.1") := by
    simp only [requestLine, List.append_assoc]
    rfl
  have htarget : space ∈ (if path = [] then ascii "/" else path) ↔ space ∈ path := by
    split
    · next hnil =>
      rw [hnil]
      decide
    · rfl
  rw [hline, readRequestLine_iff method _ (by decide), htarget]

theorem readLines_iff (method host path : Bytes) (headers : List (Bytes × Bytes)) :
    readLines (requestLine method path :: fieldLines host headers) =
        some (requestOf method host path headers) ↔
      (space ∉ method ∧ space ∉ path) ∧ ∀ header ∈ headers, colon ∉ header.1 := by
  rw [← readRequestLine_built, ← colon_writtenFields host, ← mapM_readField_iff,
    ← requestOf_fields method host path headers]
  simp only [readLines, Option.bind_eq_bind, Option.bind_eq_some_iff]
  constructor
  · rintro ⟨⟨method', target, version⟩, hline, fields, hfields, heq⟩
    cases heq
    exact ⟨hline, hfields⟩
  · rintro ⟨hline, hfields⟩
    exact ⟨_, hline, _, hfields, rfl⟩

theorem unbroken_iff (method host path : Bytes) (headers : List (Bytes × Bytes)) :
    (∀ line ∈ requestLine method path :: fieldLines host headers, line ≠ [] ∧ ¬ crlf <:+: line) ↔
      (¬ crlf <:+: method ∧ ¬ crlf <:+: path) ∧ ¬ crlf <:+: host ∧
        ∀ header ∈ headers, ¬ crlf <:+: header.1 ∧ ¬ crlf <:+: header.2 := by
  have hline : requestLine method path ≠ [] := by simp [requestLine, ascii]
  have hname (header : Bytes × Bytes) : headerLine header ≠ [] := by simp [headerLine, ascii]
  have hhost : ¬ crlf <:+: ascii "Host" := by decide
  have hconnection : ¬ crlf <:+: ascii "Connection" := by decide
  have hclose : ¬ crlf <:+: ascii "close" := by decide
  have hagent : ¬ crlf <:+: ascii "User-Agent" := by decide
  have hversion : ¬ crlf <:+: ascii "MyTelnet/1.0" := by decide
  simp only [fieldLines, List.forall_mem_cons, List.forall_mem_map, writtenFields, hline, hname,
    crlf_requestLine, crlf_headerLine, hhost, hconnection, hclose, hagent, hversion, ne_eq,
    not_false_eq_true, true_and, and_true]

theorem readLines_length {lines : List Bytes} {request : Request}
    (h : readLines lines = some request) : lines.length = request.fields.length + 1 := by
  cases lines with
  | nil => cases h
  | cons line lines =>
    simp only [readLines, Option.bind_eq_bind, Option.bind_eq_some_iff] at h
    obtain ⟨parts, -, fields, hfields, heq⟩ := h
    cases heq
    rw [List.length_cons, mapM_readField_length hfields]

/-- A request is read back as it is meant exactly if no method or path has a space, no name a
colon and nothing a line end inside. -/
theorem request_read_iff (method host path : Bytes) (headers : List (Bytes × Bytes)) :
    readRequest (buildHttpRequest method host path headers) =
        some (requestOf method host path headers, []) ↔
      Sendable method host path headers := by
  have hne : (13 : UInt8) ≠ 10 := by decide
  have hwrite := readBlock_write_iff hne (requestLine method path :: fieldLines host headers)
  rw [← crlf, unbroken_iff] at hwrite
  rw [buildHttpRequest_eq]
  constructor
  · intro hread
    simp only [readRequest, Option.bind_eq_bind, Option.bind_eq_some_iff] at hread
    obtain ⟨⟨lines, rest⟩, hblock, request, hlines, heq⟩ := hread
    cases heq
    -- The number of fields shows that no line was cut.
    have hlength : lines.length = (requestLine method path :: fieldLines host headers).length := by
      rw [readLines_length hlines, requestOf_fields, List.length_map, List.length_cons, fieldLines,
        List.length_map]
    obtain rfl : lines = requestLine method path :: fieldLines host headers := by
      rcases readBlock_length hne hblock with hsame | hlong
      · exact hsame
      · omega
    obtain ⟨⟨hmethod, hpath⟩, hhost, hheaders⟩ := hwrite.mp hblock
    obtain ⟨⟨hmethod', hpath'⟩, hnames⟩ := (readLines_iff method host path headers).mp hlines
    exact ⟨⟨hmethod', hmethod⟩, ⟨hpath', hpath⟩, hhost,
      fun header hheader => ⟨hnames header hheader, hheaders header hheader⟩⟩
  · rintro ⟨hmethod, hpath, hhost, hheaders⟩
    have hblock := hwrite.mpr ⟨⟨hmethod.2, hpath.2⟩, hhost, fun header hheader =>
      (hheaders header hheader).2⟩
    have hlines := (readLines_iff method host path headers).mpr ⟨⟨hmethod.1, hpath.1⟩,
      fun header hheader => (hheaders header hheader).1⟩
    simp only [readRequest, hblock, Option.bind_eq_bind, Option.bind_some, hlines]
    rfl

end MyTelnet.Http.Requests
