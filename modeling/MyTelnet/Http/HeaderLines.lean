/- module: MyTelnet/Http/HeaderLines
   scope: proofs
   digest: parse_http_response undoes the encoding of a response that has no header line. -/

import MyTelnet.Http.Decoding

set_option autoImplicit false
set_option relaxedAutoImplicit false

namespace MyTelnet.Http.HeaderLines

open MyTelnet.Base.ByteOrder MyTelnet.Wire.Memory
open MyTelnet.Http.Strings MyTelnet.Http.Client MyTelnet.Http.Messages MyTelnet.Http.Decoding

/-- The names of the lines are distinct up to ASCII case. -/
def DistinctNames (lines : List (Bytes × Bytes)) : Prop :=
  (lines.map fun line => lower line.1).Nodup

/-- The map has an entry for every line, and no other. -/
structure HoldsExactly (headers : Headers) (lines : List (Bytes × Bytes)) : Prop where
  entry : ∀ line ∈ lines, headers.lookup (lower line.1) = some (strip line.2)
  only : ∀ name, name ∈ headers → ∃ line ∈ lines, lower line.1 = name

/-- The parser returned true and gave back the parts of the message. -/
def Decoded (m : Message) (result : Checked (Bool × HttpResponse)) : Prop :=
  ∃ headers, result = .ok (true, ⟨m.code, m.reason, headers, m.body⟩) ∧
    HoldsExactly headers m.lines

theorem headersOf_snoc (lines : List (Bytes × Bytes)) (line : Bytes × Bytes) :
    headersOf (lines ++ [line]) = (headersOf lines).insert (lower line.1) (strip line.2) := by
  rw [headersOf, List.foldl_append]
  rfl

theorem distinctNames_snoc {lines : List (Bytes × Bytes)} {line : Bytes × Bytes}
    (h : DistinctNames (lines ++ [line])) :
    DistinctNames lines ∧ ∀ l ∈ lines, lower l.1 ≠ lower line.1 := by
  rw [DistinctNames, List.map_append, List.nodup_append] at h
  obtain ⟨hlines, -, hdisjoint⟩ := h
  refine ⟨hlines, ?_⟩
  intro l hl
  exact hdisjoint _ (List.mem_map_of_mem hl) _ (by simp)

/-- Lines with distinct names are all kept. -/
theorem holdsExactly_headersOf (lines : List (Bytes × Bytes)) (h : DistinctNames lines) :
    HoldsExactly (headersOf lines) lines := by
  induction lines using List.reverseRecOn with
  | nil =>
    constructor
    · intro line hline
      exact absurd hline List.not_mem_nil
    · intro name hname
      exact absurd hname Finmap.notMem_empty
  | append_singleton lines line ih =>
    obtain ⟨hlines, hnew⟩ := distinctNames_snoc h
    have hold := ih hlines
    rw [headersOf_snoc]
    constructor
    · intro l hl
      rcases List.mem_append.mp hl with hl | hl
      · rw [Finmap.lookup_insert_of_ne _ (hnew l hl)]
        exact hold.entry l hl
      · obtain rfl := List.mem_singleton.mp hl
        exact Finmap.lookup_insert _
    · intro name hname
      rcases Finmap.mem_insert.mp hname with rfl | hname
      · exact ⟨line, List.mem_append_right _ (List.mem_singleton_self line), rfl⟩
      · obtain ⟨l, hl, hlower⟩ := hold.only name hname
        exact ⟨l, List.mem_append_left _ hl, hlower⟩

/-- What the parser makes of the bytes of a message. -/
theorem parse_bytes (m : Message) (out : HttpResponse) :
    parseHttpResponse m.bytes out =
      .ok (true, ⟨m.code, m.reason, headersOf m.lines.dropLast, m.body⟩) := by
  rw [m.bytes_eq]
  exact parse_message m m.body out

/-- The entry of the last line is the one that is missing. -/
theorem last_line_missing {lines : List (Bytes × Bytes)} {line : Bytes × Bytes}
    (h : DistinctNames (lines ++ [line])) : lower line.1 ∉ headersOf lines := by
  obtain ⟨hlines, hnew⟩ := distinctNames_snoc h
  intro hmem
  obtain ⟨l, hl, hlower⟩ := (holdsExactly_headersOf lines hlines).only _ hmem
  exact hnew l hl hlower

/-- Only a response without header lines comes back whole. -/
theorem decoded_iff (m : Message) (out : HttpResponse) (h : DistinctNames m.lines) :
    Decoded m (parseHttpResponse m.bytes out) ↔ m.lines = [] := by
  rw [parse_bytes]
  constructor
  · rintro ⟨headers, hresult, hholds⟩
    obtain rfl : headersOf m.lines.dropLast = headers := by
      injection hresult with hpair
      injection hpair with _ hresponse
      injection hresponse
    by_contra hne
    obtain ⟨lines, line, hlines⟩ : ∃ lines line, m.lines = lines ++ [line] :=
      ⟨m.lines.dropLast, m.lines.getLast hne, (List.dropLast_append_getLast hne).symm⟩
    rw [hlines] at h hholds
    rw [List.dropLast_concat] at hholds
    have hentry := hholds.entry line (List.mem_append_right _ (List.mem_singleton_self line))
    exact last_line_missing h (Finmap.mem_of_lookup_eq_some hentry)
  · intro hnil
    refine ⟨_, rfl, ?_⟩
    rw [hnil]
    exact holdsExactly_headersOf [] List.nodup_nil

private def blank : HttpResponse := ⟨0, [], ∅, []⟩

/-- A response whose only header line names the server. -/
def onlyLine : Message :=
  okMessage [(ascii "Server", ascii "lab")] [] (by unfold NoBreak; decide)

theorem decoded_iff_onlyLine :
    DistinctNames onlyLine.lines ∧
      (Decoded onlyLine (parseHttpResponse onlyLine.bytes blank) ↔ onlyLine.lines = []) :=
  ⟨List.nodup_singleton _, decoded_iff onlyLine blank (List.nodup_singleton _)⟩

/-- The only header line of a response is lost. -/
theorem onlyLine_lost :
    onlyLine.bytes = ascii "HTTP/1.1 200 OK\r\nServer: lab\r\n\r\n" ∧
      DistinctNames onlyLine.lines ∧
      ¬ Decoded onlyLine (parseHttpResponse onlyLine.bytes blank) := by
  refine ⟨by decide, List.nodup_singleton _, ?_⟩
  rw [parse_bytes]
  rintro ⟨headers, hresult, hholds⟩
  obtain rfl : (∅ : Headers) = headers := by
    injection hresult with hpair
    injection hpair with _ hresponse
    injection hresponse
  have hentry := hholds.entry _ (List.mem_singleton_self _)
  rw [Finmap.lookup_empty] at hentry
  exact absurd hentry (by simp)

end MyTelnet.Http.HeaderLines
