/- module: MyTelnet/Http/Decoding
   scope: proofs
   digest: What parse_http_response makes of a well-formed response. -/

import MyTelnet.Http.Messages

set_option autoImplicit false
set_option relaxedAutoImplicit false

namespace MyTelnet.Http.Decoding

open MyTelnet.Base.ByteOrder MyTelnet.Base.Search MyTelnet.Wire.Memory
open MyTelnet.Http.Strings MyTelnet.Http.Client MyTelnet.Http.Messages

/-! The status code. -/

private theorem digit_facts : ∀ d < 10, isSpace (digit d) = false ∧ isDigit (digit d) = true ∧
    (digit d).toNat = 48 + d ∧ digit d ≠ 45 ∧ digit d ≠ 43 := by
  decide

theorem stoi_codeDigits {n : Nat} (h : n < 1000) : stoi (codeDigits n) = .ok (n : Int) := by
  obtain ⟨hs, hd₁, hv₁, hminus, hplus⟩ := digit_facts (n / 100) (by omega)
  obtain ⟨-, hd₂, hv₂, -⟩ := digit_facts (n / 10 % 10) (by omega)
  obtain ⟨-, hd₃, hv₃, -⟩ := digit_facts (n % 10) (by omega)
  have hsign : takeSign ((codeDigits n).dropWhile isSpace) = (false, codeDigits n) := by
    rw [codeDigits, List.dropWhile_cons_of_neg (by rw [hs]; exact Bool.false_ne_true), takeSign,
      if_neg hminus, if_neg hplus]
  have hall : (codeDigits n).takeWhile isDigit = codeDigits n := by
    simp only [codeDigits, List.takeWhile_cons, hd₁, hd₂, hd₃, if_true, List.takeWhile_nil]
  have hvalue : digitsValue (codeDigits n) = n := by
    simp only [digitsValue, codeDigits, List.foldl_cons, List.foldl_nil, hv₁, hv₂, hv₃]
    omega
  have hne : codeDigits n ≠ [] := List.cons_ne_nil _ _
  rw [stoi, hsign]
  simp only [hall, hvalue, hne, if_false, Bool.false_eq_true]
  rw [if_neg (by omega)]

theorem isDigit_of_mem_codeDigits {c : UInt8} {n : Nat} (h : n < 1000)
    (hmem : c ∈ codeDigits n) : isDigit c = true := by
  obtain ⟨-, hd₁, -⟩ := digit_facts (n / 100) (by omega)
  obtain ⟨-, hd₂, -⟩ := digit_facts (n / 10 % 10) (by omega)
  obtain ⟨-, hd₃, -⟩ := digit_facts (n % 10) (by omega)
  simp only [codeDigits, List.mem_cons, List.not_mem_nil, or_false] at hmem
  rcases hmem with rfl | rfl | rfl
  · exact hd₁
  · exact hd₂
  · exact hd₃

theorem space_notMem_codeDigits {n : Nat} (h : n < 1000) : space ∉ codeDigits n := by
  intro hmem
  exact absurd (isDigit_of_mem_codeDigits h hmem) (by decide)

/-! Field values. -/

private theorem drop_first {p : UInt8 → Bool} (s : Bytes) :
    (match s.findIdx? (fun c => !p c) with
      | some i => s.drop i
      | none => []) = s.dropWhile p := by
  induction s with
  | nil => rfl
  | cons c s ih =>
    cases hc : p c with
    | true =>
      rw [List.findIdx?_cons, List.dropWhile_cons_of_pos hc, ← ih]
      cases hidx : s.findIdx? (fun c => !p c) with
      | none => simp [hc]
      | some i => simp [hc]
    | false =>
      have hneg : ¬ p c = true := by
        rw [hc]
        exact Bool.false_ne_true
      rw [List.findIdx?_cons, List.dropWhile_cons_of_neg hneg]
      simp [hc]

theorem erase_leading (s : Bytes) :
    erase s 0 (findFirstNotOf blanks s) = .ok (s.dropWhile isBlank) := by
  have hdrop := drop_first (p := isBlank) s
  rw [← hdrop]
  show erase s 0 (s.findIdx? fun c => !isBlank c) = _
  cases s.findIdx? (fun c => !isBlank c) with
  | none =>
    rw [erase_npos_of_le (Nat.zero_le _), List.take_zero]
  | some i =>
    rw [erase_of_le i (Nat.zero_le _), List.take_zero, List.nil_append, Nat.zero_add]

theorem erase_trailing (s : Bytes) :
    erase s (after (findLastNotOf blanks s) 1) none = .ok (s.rdropWhile isBlank) := by
  have hdrop := drop_first (p := isBlank) s.reverse
  rw [List.rdropWhile, ← hdrop]
  show erase s (after ((s.reverse.findIdx? (fun c => !isBlank c)).map (s.length - 1 - ·)) 1)
    none = _
  cases hidx : s.reverse.findIdx? (fun c => !isBlank c) with
  | none =>
    show erase s 0 none = .ok []
    rw [erase_npos_of_le (Nat.zero_le _), List.take_zero]
  | some i =>
    have hlt : i < s.length := by
      have h := (List.findIdx?_eq_some_iff_getElem.mp hidx).1
      simpa using h
    have hpos : s.length - 1 - i + 1 = s.length - i := by omega
    have htake : (s.reverse.drop i).reverse = s.take (s.length - i) := by
      rw [List.drop_reverse, List.reverse_reverse]
    show erase s (s.length - 1 - i + 1) none = .ok (s.reverse.drop i).reverse
    rw [hpos, erase_npos_of_le (Nat.sub_le _ _), htake]

/-! Header lines. -/

/-- The field that a line holds: the lower-case name in front of the first colon, and the value
behind it without the blanks at its ends. -/
def fieldOf (line : Bytes) : Option (Bytes × Bytes) :=
  (find [colon] line).map fun i => (lower (line.take i), strip (line.drop (i + 1)))

/-- One pass of the header loop; a line without a colon is skipped. -/
def storeLine (headers : Headers) (line : Bytes) : Headers :=
  match fieldOf line with
  | none => headers
  | some (name, value) => headers.insert name value

theorem parseHeaderLine_eq (line : Bytes) (headers : Headers) :
    parseHeaderLine line headers = .ok (storeLine headers line) := by
  rw [parseHeaderLine, storeLine, fieldOf]
  cases hcolon : find [colon] line with
  | none => rfl
  | some i =>
    have hi : i + 1 ≤ line.length := find_length_le hcolon
    simp only [substr_of_le i (Nat.zero_le _), substr_npos_of_le hi, bind_ok, erase_leading,
      erase_trailing, List.drop_zero]
    rfl

theorem storeLine_headerLine (line : Bytes × Bytes) (headers : Headers)
    (hcolon : colon ∉ line.1) :
    storeLine headers (headerLine line) = headers.insert (lower line.1) (strip line.2) := by
  obtain ⟨name, value⟩ := line
  have hline : headerLine (name, value) = name ++ [colon] ++ (space :: value) := by
    show name ++ [colon, space] ++ value = _
    simp only [List.append_assoc, List.cons_append, List.nil_append]
  have hfind : find [colon] (name ++ [colon] ++ (space :: value)) = some name.length :=
    find_append_pattern [] (space :: value) hcolon
  have hname : (name ++ [colon] ++ (space :: value)).take name.length = name := by
    rw [List.append_assoc, List.take_left]
  have hvalue : (name ++ [colon] ++ (space :: value)).drop (name.length + 1) = space :: value := by
    rw [← List.length_singleton (a := colon), ← List.length_append, List.drop_left]
  have hblank : strip (space :: value) = strip value := by
    rw [strip, List.dropWhile_cons_of_pos (by decide), strip]
  rw [storeLine, fieldOf, hline, hfind, Option.map_some, hname, hvalue, hblank]

theorem parseHeaderLines_done {headersStr : Bytes} {headerEnd pos : Nat} (headers : Headers)
    (hnone : findFrom crlf headersStr pos = none) :
    parseHeaderLines headersStr headerEnd pos headers = .ok headers := by
  rw [parseHeaderLines]
  split
  · split
    · rfl
    · next hsome =>
      rw [hnone] at hsome
      exact absurd hsome (by simp)
  · rfl

theorem parseHeaderLines_next {headersStr line : Bytes} {headerEnd pos lineEnd : Nat}
    (headers : Headers) (hpos : pos < headerEnd)
    (hfind : findFrom crlf headersStr pos = some lineEnd)
    (hline : substr headersStr pos (some (lineEnd - pos)) = .ok line) :
    parseHeaderLines headersStr headerEnd pos headers =
      parseHeaderLines headersStr headerEnd (lineEnd + 2) (storeLine headers line) := by
  rw [parseHeaderLines, if_pos hpos]
  split
  · next hnone =>
    rw [hnone] at hfind
    exact absurd hfind (by simp)
  · next lineEnd' hsome =>
    obtain rfl : lineEnd' = lineEnd := Option.some.inj (hsome.symm.trans hfind)
    rw [hline, bind_ok, parseHeaderLine_eq, bind_ok]

/-- The loop never fails, and what every stored line preserves holds of the map it leaves. -/
theorem parseHeaderLines_invariant {P : Headers → Prop}
    (keep : ∀ headers line, P headers → P (storeLine headers line)) (headersStr : Bytes)
    (headerEnd pos : Nat) (headers : Headers) (h : P headers) :
    ∃ headers', parseHeaderLines headersStr headerEnd pos headers = .ok headers' ∧
      P headers' := by
  induction hn : headerEnd - pos using Nat.strong_induction_on generalizing pos headers with
  | _ n ih =>
    by_cases hpos : pos < headerEnd
    · cases hfind : findFrom crlf headersStr pos with
      | none => exact ⟨headers, parseHeaderLines_done headers hfind, h⟩
      | some lineEnd =>
        have hle := findFrom_le hfind
        rw [parseHeaderLines_next headers hpos hfind (substr_of_le _ (by omega))]
        exact ih (headerEnd - (lineEnd + 2)) (by omega) (lineEnd + 2) _ (keep headers _ h) rfl
    · refine ⟨headers, ?_, h⟩
      rw [parseHeaderLines, if_neg hpos]

/-- The loop on a block of lines stores all but the last, behind which it finds no line end. -/
theorem parseHeaderLines_block (pre : Bytes) (lines : List Bytes) (headers : Headers)
    (hcr : ∀ line ∈ lines, 13 ∉ line) :
    parseHeaderLines (pre ++ crlf.intercalate lines) (pre ++ crlf.intercalate lines).length
        pre.length headers = .ok (lines.dropLast.foldl storeLine headers) := by
  induction lines generalizing pre headers with
  | nil =>
    apply parseHeaderLines_done
    rw [findFrom_append]
    rfl
  | cons line lines ih =>
    have hline13 := hcr line List.mem_cons_self
    cases lines with
    | nil =>
      have hnone : find crlf line = none := find_eq_none_of_not_mem [10] hline13
      apply parseHeaderLines_done
      rw [List.intercalate_singleton, findFrom_append, hnone, Option.map_none]
    | cons next lines =>
      have hrest := ih (pre ++ line ++ crlf) (storeLine headers line)
        (fun l hl => hcr l (List.mem_cons_of_mem line hl))
      rw [List.intercalate_cons_cons]
      generalize crlf.intercalate (next :: lines) = tail at hrest ⊢
      have hwhole : pre ++ (line ++ crlf ++ tail) = pre ++ line ++ crlf ++ tail := by
        simp only [List.append_assoc]
      have hfind : findFrom crlf (pre ++ (line ++ crlf ++ tail)) pre.length =
          some (line.length + pre.length) := by
        have hhere : find crlf (line ++ crlf ++ tail) = some line.length :=
          find_append_pattern [10] tail hline13
        rw [findFrom_append, hhere, Option.map_some]
      have hline : substr (pre ++ (line ++ crlf ++ tail)) pre.length
          (some (line.length + pre.length - pre.length)) = .ok line := by
        rw [Nat.add_sub_cancel, List.append_assoc line]
        exact substr_middle pre line (crlf ++ tail)
      have hpos : pre.length < (pre ++ (line ++ crlf ++ tail)).length := by
        simp only [List.length_append, crlf, List.length_cons, List.length_nil]
        omega
      have hnext : line.length + pre.length + 2 = (pre ++ line ++ crlf).length := by
        simp only [List.length_append, crlf, List.length_cons, List.length_nil]
        omega
      rw [parseHeaderLines_next headers hpos hfind hline, hnext, hwhole, hrest,
        List.dropLast_cons_of_ne_nil (List.cons_ne_nil _ _), List.foldl_cons]

theorem headerLine_noCr {line : Bytes × Bytes} (hname : NoBreak line.1)
    (hvalue : NoBreak line.2) : 13 ∉ headerLine line := by
  intro hmem
  rw [headerLine, List.mem_append, List.mem_append] at hmem
  rcases hmem with (hmem | hmem) | hmem
  · exact hname.1 hmem
  · exact absurd hmem (by decide)
  · exact hvalue.1 hmem

theorem foldl_storeLine (lines : List (Bytes × Bytes)) (headers : Headers)
    (hok : ∀ line ∈ lines, colon ∉ line.1) :
    (lines.map headerLine).foldl storeLine headers =
      lines.foldl (fun headers line => headers.insert (lower line.1) (strip line.2)) headers := by
  induction lines generalizing headers with
  | nil => rfl
  | cons line lines ih =>
    rw [List.map_cons, List.foldl_cons, List.foldl_cons,
      storeLine_headerLine line headers (hok line List.mem_cons_self)]
    exact ih _ (fun l hl => hok l (List.mem_cons_of_mem line hl))

/-- The loop on the lines of a message. -/
theorem parseHeaderLines_intercalate (pre : Bytes) (lines : List (Bytes × Bytes))
    (headers : Headers)
    (hok : ∀ line ∈ lines, colon ∉ line.1 ∧ NoBreak line.1 ∧ NoBreak line.2) :
    parseHeaderLines (pre ++ crlf.intercalate (lines.map headerLine))
        (pre ++ crlf.intercalate (lines.map headerLine)).length pre.length headers =
      .ok (lines.dropLast.foldl
        (fun headers line => headers.insert (lower line.1) (strip line.2)) headers) := by
  have hcr : ∀ line ∈ lines.map headerLine, 13 ∉ line := by
    intro line hline
    obtain ⟨l, hl, rfl⟩ := List.mem_map.mp hline
    exact headerLine_noCr (hok l hl).2.1 (hok l hl).2.2
  rw [parseHeaderLines_block pre _ headers hcr, ← List.map_dropLast,
    foldl_storeLine _ headers fun l hl => (hok l (List.dropLast_subset lines hl)).1]

/-! The status line. -/

theorem statusLine_noCr (m : Message) : 13 ∉ m.statusLine := by
  intro hmem
  simp only [Message.statusLine, List.mem_append] at hmem
  rcases hmem with (((hmem | hmem) | hmem) | hmem) | hmem
  · exact m.version_ok.1.1 hmem
  · exact absurd hmem (by decide)
  · exact absurd (isDigit_of_mem_codeDigits m.code_lt hmem) (by decide)
  · exact absurd hmem (by decide)
  · exact m.reason_ok.1 hmem

theorem headerLines_noCr (m : Message) :
    ∀ line ∈ m.statusLine :: m.lines.map headerLine, 13 ∉ line := by
  intro line hline
  rcases List.mem_cons.mp hline with rfl | hline
  · exact statusLine_noCr m
  · obtain ⟨l, hl, rfl⟩ := List.mem_map.mp hline
    obtain ⟨-, -, hname, hvalue⟩ := m.lines_ok l hl
    exact headerLine_noCr hname hvalue

theorem headerLines_ne_nil (m : Message) : ∀ line ∈ m.lines.map headerLine, line ≠ [] := by
  intro line hline hnil
  obtain ⟨l, hl, rfl⟩ := List.mem_map.mp hline
  have hname := (m.lines_ok l hl).1
  rw [headerLine, List.append_assoc, List.append_eq_nil_iff] at hnil
  exact hname hnil.1

/-- The header block ends where `parse_http_response` looks for its end. -/
theorem find_head (m : Message) (body : Bytes) :
    find (crlf ++ crlf) (m.head ++ (crlf ++ crlf) ++ body) = some m.head.length :=
  find_blank_line m.statusLine (m.lines.map headerLine) body (headerLines_noCr m)
    (headerLines_ne_nil m)

/-- The two spaces of a status line and the fields they delimit. -/
theorem statusLine_fields (m : Message) :
    find [space] m.statusLine = some m.version.length ∧
      findFrom [space] m.statusLine (m.version.length + 1) = some (m.version.length + 4) ∧
      substr m.statusLine (m.version.length + 1) (some 3) = .ok (codeDigits m.code) ∧
      substr m.statusLine (m.version.length + 5) none = .ok m.reason := by
  have hfirst : m.statusLine =
      m.version ++ [space] ++ (codeDigits m.code ++ ([space] ++ m.reason)) := by
    show m.version ++ [space] ++ codeDigits m.code ++ [space] ++ m.reason = _
    simp only [List.append_assoc]
  have hlen : (m.version ++ [space]).length = m.version.length + 1 := by
    rw [List.length_append, List.length_singleton]
  have hspace := find_append_pattern [] m.reason (space_notMem_codeDigits m.code_lt)
  refine ⟨?_, ?_, ?_, ?_⟩
  · rw [hfirst]
    exact find_append_pattern [] _ m.version_ok.2
  · rw [hfirst, ← hlen, findFrom_append, ← List.append_assoc (codeDigits m.code), hspace,
      Option.map_some, hlen]
    show some (3 + (m.version.length + 1)) = some (m.version.length + 4)
    rw [Nat.add_comm 3]
  · rw [hfirst, ← hlen]
    exact substr_middle (m.version ++ [space]) (codeDigits m.code) ([space] ++ m.reason)
  · have htail := substr_tail (m.version ++ [space] ++ codeDigits m.code ++ [space]) m.reason
    have hpre : (m.version ++ [space] ++ codeDigits m.code ++ [space]).length =
        m.version.length + 5 := by
      simp only [List.length_append, codeDigits, List.length_cons, List.length_nil]
    rw [hpre] at htail
    exact htail

/-- The status line is what precedes the first line end, and the header loop runs on what
follows it. -/
theorem head_lines (m : Message) :
    substr m.head 0 (find crlf m.head) = .ok m.statusLine ∧
      parseHeaderLines m.head m.head.length (after (find crlf m.head) 2) ∅ =
        .ok (headersOf m.lines.dropLast) := by
  have hcr := statusLine_noCr m
  cases hlines : m.lines with
  | nil =>
    have hhead : m.head = m.statusLine := by
      rw [Message.head, hlines, List.map_nil, List.intercalate_singleton]
    have hnone : find crlf m.statusLine = none := find_eq_none_of_not_mem [10] hcr
    have hfrom : findFrom crlf m.statusLine 1 = none := by
      have hdrop : 13 ∉ m.statusLine.drop 1 := fun hmem => hcr (List.mem_of_mem_drop hmem)
      have hrest : find crlf (m.statusLine.drop 1) = none := find_eq_none_of_not_mem [10] hdrop
      rw [findFrom, hrest]
      split <;> rfl
    rw [hhead, hnone]
    exact ⟨substr_tail [] m.statusLine, parseHeaderLines_done ∅ hfrom⟩
  | cons line lines =>
    have hhead : m.head = m.statusLine ++ crlf ++ crlf.intercalate (m.lines.map headerLine) := by
      rw [Message.head, hlines, List.map_cons, List.intercalate_cons_cons]
    have hfind : find crlf m.head = some m.statusLine.length := by
      rw [hhead]
      exact find_append_pattern [10] _ hcr
    have hok : ∀ l ∈ m.lines, colon ∉ l.1 ∧ NoBreak l.1 ∧ NoBreak l.2 :=
      fun l hl => (m.lines_ok l hl).2
    have hloop := parseHeaderLines_intercalate (m.statusLine ++ crlf) m.lines ∅ hok
    have hpos : (m.statusLine ++ crlf).length = m.statusLine.length + 2 :=
      List.length_append
    rw [← hhead, hpos, hlines] at hloop
    rw [hfind]
    refine ⟨?_, hloop⟩
    rw [hhead, List.append_assoc]
    exact substr_middle [] m.statusLine _

/-- Every well-formed response is accepted, with its code, its reason, all its header lines
but the last and its body. -/
theorem parse_message (m : Message) (body : Bytes) (out : HttpResponse) :
    parseHttpResponse (m.head ++ (crlf ++ crlf) ++ body) out =
      .ok (true, ⟨m.code, m.reason, headersOf m.lines.dropLast, body⟩) := by
  obtain ⟨hversion, hcodeEnd, hcode, hreason⟩ := statusLine_fields m
  obtain ⟨hstatus, hheaders⟩ := head_lines m
  have hblock : substr (m.head ++ (crlf ++ crlf) ++ body) 0 (some m.head.length) =
      .ok m.head := by
    rw [List.append_assoc]
    exact substr_middle [] m.head _
  have hafter : after (some m.version.length) 1 = m.version.length + 1 := rfl
  have hthree : m.version.length + 4 - m.version.length - 1 = 3 := by omega
  have hlen : (m.head ++ (crlf ++ crlf)).length = m.head.length + 4 := List.length_append
  have hbody : (m.head ++ (crlf ++ crlf) ++ body).drop (m.head.length + 4) = body := by
    rw [← hlen, List.drop_left]
  have hend : ¬ m.head.length + 4 > (m.head ++ (crlf ++ crlf) ++ body).length := by
    rw [List.length_append, hlen]
    omega
  rw [parseHttpResponse, find_head]
  simp only [hblock, hstatus, hversion, hafter, hcodeEnd, hthree, hcode, hreason, hheaders,
    stoi_codeDigits m.code_lt, bind, Except.bind, if_neg hend, hbody]
  rfl

end MyTelnet.Http.Decoding
