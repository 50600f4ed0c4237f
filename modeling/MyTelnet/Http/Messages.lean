/- module: MyTelnet/Http/Messages
   scope: specification
   digest: Well-formed responses, their bytes, and where the header block of one ends. -/

import Mathlib.Data.List.DropRight
import MyTelnet.Http.Client

set_option autoImplicit false
set_option relaxedAutoImplicit false

namespace MyTelnet.Http.Messages

open MyTelnet.Base.ByteOrder MyTelnet.Base.Search MyTelnet.Wire.Memory
open MyTelnet.Http.Strings MyTelnet.Http.Client

/-- Free of CR and LF. -/
def NoBreak (s : Bytes) : Prop := 13 ∉ s ∧ 10 ∉ s

/-- A response as the server means it. The fields behind `body` say that it is well formed. -/
structure Message where
  version : Bytes
  code : Nat
  reason : Bytes
  lines : List (Bytes × Bytes)
  body : Bytes
  version_ok : NoBreak version ∧ space ∉ version
  code_lt : code < 1000
  reason_ok : NoBreak reason
  lines_ok : ∀ line ∈ lines, line.1 ≠ [] ∧ colon ∉ line.1 ∧ NoBreak line.1 ∧ NoBreak line.2

/-- A `200 OK` of HTTP/1.1. -/
def okMessage (lines : List (Bytes × Bytes)) (body : Bytes)
    (lines_ok : ∀ line ∈ lines,
      line.1 ≠ [] ∧ colon ∉ line.1 ∧ NoBreak line.1 ∧ NoBreak line.2) : Message where
  version := ascii "HTTP/1.1"
  code := 200
  reason := ascii "OK"
  lines := lines
  body := body
  version_ok := by
    unfold NoBreak
    decide
  code_lt := by decide
  reason_ok := by
    unfold NoBreak
    decide
  lines_ok := lines_ok

def digit (d : Nat) : UInt8 := UInt8.ofNat (48 + d)

/-- Three decimal digits. -/
def codeDigits (n : Nat) : Bytes := [digit (n / 100), digit (n / 10 % 10), digit (n % 10)]

def Message.statusLine (m : Message) : Bytes :=
  m.version ++ ascii " " ++ codeDigits m.code ++ ascii " " ++ m.reason

def headerLine (line : Bytes × Bytes) : Bytes := line.1 ++ ascii ": " ++ line.2

/-- The bytes of a message on the wire. -/
def Message.bytes (m : Message) : Bytes :=
  m.statusLine ++ crlf ++ m.lines.flatMap (fun line => headerLine line ++ crlf) ++ crlf ++ m.body

/-- The header block: all lines, without the line end of the last one. -/
def Message.head (m : Message) : Bytes :=
  crlf.intercalate (m.statusLine :: m.lines.map headerLine)

def isBlank (c : UInt8) : Bool := blanks.contains c

/-- A field value without the spaces and tabs around it. -/
def strip (value : Bytes) : Bytes := (value.dropWhile isBlank).rdropWhile isBlank

def lower (name : Bytes) : Bytes := name.map toLower

/-- The map with one entry for each line, a later line overwriting an earlier one. -/
def headersOf (lines : List (Bytes × Bytes)) : Headers :=
  lines.foldl (fun headers line => headers.insert (lower line.1) (strip line.2)) ∅

theorem intercalate_flatMap {α : Type} (sep : List α) (first : List α) (lines : List (List α)) :
    sep.intercalate (first :: lines) ++ sep =
      first ++ sep ++ lines.flatMap (fun line => line ++ sep) := by
  induction lines generalizing first with
  | nil => simp
  | cons line lines ih =>
    rw [List.intercalate_cons_cons, List.flatMap_cons, List.append_assoc, ih]

theorem Message.bytes_eq (m : Message) : m.bytes = m.head ++ (crlf ++ crlf) ++ m.body := by
  have hlines : m.lines.flatMap (fun line => headerLine line ++ crlf) =
      (m.lines.map headerLine).flatMap (fun line => line ++ crlf) := by
    rw [List.flatMap_map]
  have hhead := intercalate_flatMap crlf m.statusLine (m.lines.map headerLine)
  rw [Message.bytes, hlines, ← hhead, Message.head]
  simp only [List.append_assoc]

/-- The first blank line of a block of non-empty lines is the one behind it. -/
theorem find_blank_line (first : Bytes) (lines : List Bytes) (rest : Bytes)
    (hcr : ∀ line ∈ first :: lines, 13 ∉ line) (hne : ∀ line ∈ lines, line ≠ []) :
    find (crlf ++ crlf) (crlf.intercalate (first :: lines) ++ (crlf ++ crlf) ++ rest) =
      some (crlf.intercalate (first :: lines)).length := by
  induction lines generalizing first with
  | nil =>
    have hfirst : 13 ∉ first := hcr first List.mem_cons_self
    rw [List.intercalate_singleton]
    exact find_append_pattern [10, 13, 10] rest hfirst
  | cons next lines ih =>
    have hfirst : 13 ∉ first := hcr first List.mem_cons_self
    have hnext : 13 ∉ next := hcr next (by simp)
    have hrest := ih next (fun line hl => hcr line (List.mem_cons_of_mem _ hl))
      (fun line hl => hne line (List.mem_cons_of_mem _ hl))
    obtain ⟨c, tail, rfl⟩ := List.exists_cons_of_ne_nil (hne next List.mem_cons_self)
    have hc : (13 : UInt8) ≠ c := fun heq => hnext (heq ▸ List.mem_cons_self)
    obtain ⟨block, hblock⟩ : ∃ block, crlf.intercalate ((c :: tail) :: lines) = c :: block := by
      cases lines with
      | nil => exact ⟨tail, List.intercalate_singleton⟩
      | cons line lines => exact ⟨_, List.intercalate_cons_cons⟩
    rw [hblock] at hrest
    rw [List.intercalate_cons_cons, hblock]
    generalize htext : block ++ (crlf ++ crlf) ++ rest = text
    have hwhole : first ++ crlf ++ c :: block ++ (crlf ++ crlf) ++ rest =
        first ++ (13 :: 10 :: c :: text) := by
      rw [← htext]
      simp [crlf]
    have hskip : find (crlf ++ crlf) (first ++ (13 :: 10 :: c :: text)) =
        (find (crlf ++ crlf) (13 :: 10 :: c :: text)).map (· + first.length) :=
      find_append_of_not_mem [10, 13, 10] _ hfirst
    have hno₁ : ¬ (crlf ++ crlf) <+: 13 :: 10 :: c :: text := by
      intro hpre
      have htwo := (List.cons_prefix_cons.mp (List.cons_prefix_cons.mp hpre).2).2
      exact hc (List.cons_prefix_cons.mp htwo).1
    have hno₂ : ¬ (crlf ++ crlf) <+: 10 :: c :: text := by
      intro hpre
      have h : (13 : UInt8) = 10 := (List.cons_prefix_cons.mp hpre).1
      exact absurd h (by decide)
    have htail : find (crlf ++ crlf) (c :: text) = some (c :: block).length := by
      rw [← htext]
      exact hrest
    rw [hwhole, hskip, find_cons hno₁, find_cons hno₂, htail]
    simp only [Option.map_some, List.length_append, crlf, List.length_cons, List.length_nil]
    congr 1
    omega

end MyTelnet.Http.Messages
