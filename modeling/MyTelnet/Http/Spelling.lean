/- module: MyTelnet/Http/Spelling
   scope: proofs
   digest: The case of field names and the blanks around values do not reach the headers map. -/

import MyTelnet.Http.Heads

set_option autoImplicit false
set_option relaxedAutoImplicit false

namespace MyTelnet.Http.Spelling

open MyTelnet.Base.ByteOrder MyTelnet.Base.Search MyTelnet.Wire.Memory
open MyTelnet.Http.Strings MyTelnet.Http.Client MyTelnet.Http.Messages MyTelnet.Http.Decoding
open MyTelnet.Http.Heads

/-- A response as its lines. The status line is any line, and a header line need not hold a
field. -/
structure PlainResponse where
  statusLine : Bytes
  lines : List Bytes
  body : Bytes
  statusLine_ok : ¬ crlf <:+: statusLine
  lines_ok : ∀ line ∈ lines, line ≠ [] ∧ NoBreak line

def PlainResponse.head (m : PlainResponse) : Bytes := crlf.intercalate (m.statusLine :: m.lines)

def PlainResponse.bytes (m : PlainResponse) : Bytes := m.head ++ (crlf ++ crlf) ++ m.body

/-- Two lines without a colon that are the same, or two fields whose names differ in the case
of letters and whose values differ in the blanks at their ends. -/
inductive SameField : Bytes → Bytes → Prop
  | plain (line : Bytes) (h : colon ∉ line) : SameField line line
  | field (name value name' value' : Bytes) (hname : colon ∉ name) (hname' : colon ∉ name')
      (hlower : lower name = lower name') (hstrip : strip value = strip value') :
      SameField (name ++ [colon] ++ value) (name' ++ [colon] ++ value')

structure Respelled (m m' : PlainResponse) : Prop where
  statusLine : m.statusLine = m'.statusLine
  body : m.body = m'.body
  lines : List.Forall₂ SameField m.lines m'.lines

/-- What the headers map holds. -/
structure TidyEntry (name value : Bytes) : Prop where
  lower : ∀ c ∈ name, ¬(65 ≤ c ∧ c ≤ 90)
  colon : colon ∉ name
  leading : ∀ c ∈ value.head?, c ≠ 32 ∧ c ≠ 9
  trailing : ∀ c ∈ value.getLast?, c ≠ 32 ∧ c ≠ 9

def Tidy (headers : Headers) : Prop :=
  ∀ name value, headers.lookup name = some value → TidyEntry name value

/-! One line. -/

theorem fieldOf_field {name : Bytes} (value : Bytes) (h : colon ∉ name) :
    fieldOf (name ++ [colon] ++ value) = some (lower name, strip value) := by
  have hfind : find [colon] (name ++ [colon] ++ value) = some name.length :=
    find_append_pattern [] value h
  have htake : (name ++ [colon] ++ value).take name.length = name := by
    rw [List.append_assoc, List.take_left]
  have hdrop : (name ++ [colon] ++ value).drop (name.length + 1) = value := by
    rw [← List.length_singleton (a := colon), ← List.length_append, List.drop_left]
  rw [fieldOf, hfind, Option.map_some, htake, hdrop]

theorem SameField.fieldOf_eq {line line' : Bytes} (h : SameField line line') :
    fieldOf line = fieldOf line' := by
  cases h with
  | plain h => rfl
  | field name value name' value' hname hname' hlower hstrip =>
    rw [fieldOf_field value hname, fieldOf_field value' hname', hlower, hstrip]

/-- The map depends on the fields alone. -/
theorem foldl_storeLine_congr {lines lines' : List Bytes}
    (h : List.Forall₂ SameField lines lines') (headers : Headers) :
    lines.dropLast.foldl storeLine headers = lines'.dropLast.foldl storeLine headers := by
  induction h generalizing headers with
  | nil => rfl
  | @cons line line' lines lines' hline hlines ih =>
    cases hlines with
    | nil => rfl
    | @cons next next' lines lines' hnext hlines =>
      have hstore : storeLine headers line = storeLine headers line' := by
        rw [storeLine, storeLine, hline.fieldOf_eq]
      rw [List.dropLast_cons_cons, List.dropLast_cons_cons, List.foldl_cons, List.foldl_cons,
        hstore]
      exact ih _

/-! The block. -/

section Block

variable (m : PlainResponse)

/-- The block is the status line and a block whose first line is empty. -/
theorem head_eq : m.head = m.statusLine ++ crlf.intercalate ([] :: m.lines) := by
  unfold PlainResponse.head
  cases m.lines with
  | nil => simp
  | cons line lines =>
    rw [List.intercalate_cons_cons, List.intercalate_cons_cons, List.nil_append,
      List.append_assoc]

theorem find_head_end :
    find (crlf ++ crlf) m.bytes = some m.head.length := by
  have hblank := find_blank_line [] m.lines m.body
    (fun line hline => by
      rcases List.mem_cons.mp hline with rfl | hline
      · exact List.not_mem_nil
      · exact (m.lines_ok line hline).2.1)
    (fun line hline => (m.lines_ok line hline).1)
  have hfirst : ∃ rest, crlf.intercalate ([] :: m.lines) ++ (crlf ++ crlf) ++ m.body =
      13 :: rest := by
    cases m.lines with
    | nil => exact ⟨_, rfl⟩
    | cons line lines =>
      rw [List.intercalate_cons_cons]
      exact ⟨_, rfl⟩
  obtain ⟨rest, hrest⟩ := hfirst
  have hbytes : m.bytes = m.statusLine ++ 13 :: rest := by
    rw [PlainResponse.bytes, head_eq, ← hrest]
    simp only [List.append_assoc]
  rw [hrest] at hblank
  have hskip : find (crlf ++ crlf) (m.statusLine ++ 13 :: rest) =
      (find (crlf ++ crlf) (13 :: rest)).map (· + m.statusLine.length) :=
    find_append_of_not_infix [13, 10] rest (by decide) m.statusLine_ok
  rw [hbytes, hskip, hblank, Option.map_some, head_eq, List.length_append, Nat.add_comm]

theorem find_line_end {line : Bytes} {lines : List Bytes} (h : m.lines = line :: lines) :
    find crlf m.head = some m.statusLine.length := by
  have hhead : m.head = m.statusLine ++ 13 :: (10 :: crlf.intercalate (line :: lines)) := by
    rw [head_eq, h, List.intercalate_cons_cons]
    rfl
  have hhere : find crlf (13 :: (10 :: crlf.intercalate (line :: lines))) = some 0 :=
    find_zero ⟨_, rfl⟩
  have hskip : find crlf (m.statusLine ++ 13 :: (10 :: crlf.intercalate (line :: lines))) =
      (find crlf (13 :: (10 :: crlf.intercalate (line :: lines)))).map (· + m.statusLine.length) :=
    find_append_of_not_infix [] _ (by decide) m.statusLine_ok
  rw [hhead, hskip, hhere, Option.map_some, Nat.zero_add]

theorem head_of_no_lines (h : m.lines = []) : m.head = m.statusLine := by
  rw [PlainResponse.head, h, List.intercalate_singleton]

theorem statusLineOf_head : statusLineOf m.head = m.statusLine := by
  unfold statusLineOf
  cases hlines : m.lines with
  | nil =>
    have hnone := (find_eq_none_iff crlf m.statusLine).mpr m.statusLine_ok
    rw [head_of_no_lines m hlines, hnone, Option.getD_none, List.take_length]
  | cons line lines =>
    rw [find_line_end m hlines, Option.getD_some, head_eq, List.take_left]

/-- All header lines but the last are stored; where there is none, the scan from the wrapped
position 1 finds no line end. -/
theorem headersFrom_head : headersFrom m.head = .ok (m.lines.dropLast.foldl storeLine ∅) := by
  unfold headersFrom
  cases hlines : m.lines with
  | nil =>
    have hnone := (find_eq_none_iff crlf m.statusLine).mpr m.statusLine_ok
    have hscan : findFrom crlf m.statusLine 1 = none := by
      have hdrop : ¬ crlf <:+: m.statusLine.drop 1 := by
        intro hin
        exact m.statusLine_ok (hin.trans (List.drop_suffix 1 _).isInfix)
      rw [findFrom, (find_eq_none_iff _ _).mpr hdrop]
      split
      · rfl
      · rfl
    rw [head_of_no_lines m hlines, hnone]
    exact parseHeaderLines_done ∅ hscan
  | cons line lines =>
    have hhead : m.head = m.statusLine ++ crlf ++ crlf.intercalate (line :: lines) := by
      rw [PlainResponse.head, hlines, List.intercalate_cons_cons]
    have hblock := parseHeaderLines_block (m.statusLine ++ crlf) (line :: lines) ∅
      (fun l hl => (m.lines_ok l (hlines ▸ hl)).2.1)
    have hpos : (m.statusLine ++ crlf).length = m.statusLine.length + 2 := List.length_append
    rw [← hhead, hpos] at hblock
    rw [find_line_end m hlines]
    exact hblock

theorem parse_plain (out : HttpResponse) :
    parseHttpResponse m.bytes out = (parseHead m.head).map (result out m.body) := by
  have htake : m.bytes.take m.head.length = m.head := by
    rw [PlainResponse.bytes, List.append_assoc, List.take_left]
  have hdrop : m.bytes.drop (m.head.length + 4) = m.body := by
    have hlen : (m.head ++ (crlf ++ crlf)).length = m.head.length + 4 := List.length_append
    rw [PlainResponse.bytes, ← hlen, List.drop_left]
  rw [parse_of_find_some out (find_head_end m), htake, hdrop]

end Block

/-! The entries. -/

theorem toLower_notUpper (c : UInt8) : ¬(65 ≤ toLower c ∧ toLower c ≤ 90) := by
  have hc := c.toNat_lt
  simp only [toLower, UInt8.le_iff_toNat_le, UInt8.reduceToNat]
  split
  · next h =>
    rw [UInt8.toNat_add]
    simp only [UInt8.reduceToNat]
    omega
  · assumption

theorem toLower_eq_colon {c : UInt8} (h : toLower c = colon) : c = colon := by
  unfold toLower at h
  split at h
  · next hupper =>
    have hsum := congrArg UInt8.toNat h
    simp only [UInt8.le_iff_toNat_le, UInt8.reduceToNat] at hupper
    rw [UInt8.toNat_add, show colon.toNat = 58 from rfl] at hsum
    simp only [UInt8.reduceToNat] at hsum
    omega
  · exact h

theorem isBlank_false {c : UInt8} (h : isBlank c = false) : c ≠ 32 ∧ c ≠ 9 := by
  constructor
  · rintro rfl
    exact absurd h (by decide)
  · rintro rfl
    exact absurd h (by decide)

theorem strip_head (value : Bytes) : ∀ c ∈ (strip value).head?, isBlank c = false := by
  intro c hc
  have hprefix : strip value <+: value.dropWhile isBlank := List.rdropWhile_prefix _ _
  have hhead := List.head?_dropWhile_not isBlank value
  obtain ⟨rest, hrest⟩ := hprefix
  cases hstrip : strip value with
  | nil =>
    rw [hstrip] at hc
    cases hc
  | cons d tail =>
    rw [hstrip] at hc hrest
    obtain rfl : d = c := Option.some.inj hc
    rw [← hrest] at hhead
    simpa using hhead

theorem strip_getLast (value : Bytes) : ∀ c ∈ (strip value).getLast?, isBlank c = false := by
  intro c hc
  have hne : strip value ≠ [] := by
    intro hnil
    rw [hnil] at hc
    cases hc
  have hlast := List.rdropWhile_last_not isBlank (value.dropWhile isBlank) hne
  rw [List.getLast?_eq_some_getLast hne] at hc
  obtain rfl := Option.some.inj hc
  simpa [strip] using hlast

theorem tidyEntry_fieldOf {line name value : Bytes} (h : fieldOf line = some (name, value)) :
    TidyEntry name value := by
  obtain ⟨i, hi, hfield⟩ := Option.map_eq_some_iff.mp h
  obtain ⟨rfl, rfl⟩ := Prod.mk.inj hfield
  constructor
  · intro c hc
    obtain ⟨d, -, rfl⟩ := List.mem_map.mp hc
    exact toLower_notUpper d
  · intro hcolon
    obtain ⟨d, hd, hlower⟩ := List.mem_map.mp hcolon
    rw [toLower_eq_colon hlower] at hd
    exact not_mem_take_find hi hd
  · intro c hc
    exact isBlank_false (strip_head _ c hc)
  · intro c hc
    exact isBlank_false (strip_getLast _ c hc)

/-- A stored line leaves the map tidy. -/
theorem tidy_storeLine (headers : Headers) (line : Bytes) (h : Tidy headers) :
    Tidy (storeLine headers line) := by
  unfold storeLine
  cases hfield : fieldOf line with
  | none => exact h
  | some field =>
    intro name value hlookup
    by_cases hname : name = field.1
    · subst hname
      rw [Finmap.lookup_insert] at hlookup
      obtain rfl := Option.some.inj hlookup
      exact tidyEntry_fieldOf hfield
    · rw [Finmap.lookup_insert_of_ne _ hname] at hlookup
      exact h name value hlookup

/-- The map of every accepted response is tidy. -/
theorem tidy_parse {data : Bytes} {out response : HttpResponse}
    (h : parseHttpResponse data out = .ok (true, response)) : Tidy response.headers := by
  cases hfind : find (crlf ++ crlf) data with
  | none =>
    rw [parse_of_find_none out hfind] at h
    cases h
  | some headerEnd =>
    rw [parse_of_find_some out hfind] at h
    rcases parseHead_cases (data.take headerEnd) with
      ⟨-, hparsed⟩ | ⟨_, reason, headers, -, hheaders, hcode⟩
    · rw [hparsed] at h
      cases h
    · have htidy : Tidy headers := by
        obtain ⟨headers', hloop, htidy⟩ := parseHeaderLines_invariant (P := Tidy) tidy_storeLine
          (data.take headerEnd) (data.take headerEnd).length
          (after (find crlf (data.take headerEnd)) 2) ∅
          (fun name value hlookup => by
            rw [Finmap.lookup_empty] at hlookup
            cases hlookup)
        obtain rfl := Except.ok.inj (hheaders.symm.trans hloop)
        exact htidy
      rcases hcode with ⟨what, -, hparsed⟩ | ⟨statusCode, -, hparsed⟩
      · rw [hparsed] at h
        cases h
      · rw [hparsed] at h
        obtain ⟨-, rfl⟩ := Prod.mk.inj (Except.ok.inj h)
        exact htidy

/-- Two spellings of a response come to the same result, and the map it holds is tidy. -/
theorem spelling_insensitive (m m' : PlainResponse) (h : Respelled m m') (out : HttpResponse) :
    parseHttpResponse m.bytes out = parseHttpResponse m'.bytes out ∧
      ∀ response, parseHttpResponse m.bytes out = .ok (true, response) →
        Tidy response.headers := by
  constructor
  · have hhead : parseHead m.head = parseHead m'.head := by
      rw [parseHead, parseHead, statusLineOf_head, statusLineOf_head, headersFrom_head,
        headersFrom_head, foldl_storeLine_congr h.lines, h.statusLine]
    rw [parse_plain, parse_plain, hhead, h.body]
  · intro response hparse
    exact tidy_parse hparse

/-- A `200 OK` with three bytes of body. -/
def okPlain (lines : List Bytes) (h : ∀ line ∈ lines, line ≠ [] ∧ NoBreak line) :
    PlainResponse where
  statusLine := ascii "HTTP/1.1 200 OK"
  lines := lines
  body := ascii "abc"
  statusLine_ok := (find_eq_none_iff _ _).mp (by decide +kernel)
  lines_ok := h

/-- A field, an empty value and a line without a colon, spelled in two ways. -/
def firstSpelling : PlainResponse :=
  okPlain [ascii "Server: lab", ascii "X: \t", ascii "plain"] (by unfold NoBreak; decide)

def secondSpelling : PlainResponse :=
  okPlain [ascii "SERVER:lab\t ", ascii "x:", ascii "plain"] (by unfold NoBreak; decide)

theorem spelling_insensitive_sample :
    parseHttpResponse firstSpelling.bytes ⟨0, [], ∅, []⟩ =
        parseHttpResponse secondSpelling.bytes ⟨0, [], ∅, []⟩ ∧
      ∀ response, parseHttpResponse firstSpelling.bytes ⟨0, [], ∅, []⟩ = .ok (true, response) →
        Tidy response.headers :=
  spelling_insensitive firstSpelling secondSpelling
    { statusLine := rfl
      body := rfl
      lines := .cons
        (.field (ascii "Server") (ascii " lab") (ascii "SERVER") (ascii "lab\t ") (by decide)
          (by decide) (by decide) (by decide))
        (.cons
          (.field (ascii "X") (ascii " \t") (ascii "x") [] (by decide) (by decide) (by decide)
            (by decide))
          (.cons (.plain (ascii "plain") (by decide)) .nil)) }
    ⟨0, [], ∅, []⟩

end MyTelnet.Http.Spelling
