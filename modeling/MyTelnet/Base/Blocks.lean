/- module: MyTelnet/Base/Blocks
   scope: library
   digest: Blocks of lines that end with an empty line: which of them a reader gives back. -/

import MyTelnet.Base.Search

set_option autoImplicit false
set_option relaxedAutoImplicit false

namespace MyTelnet.Base.Blocks

open MyTelnet.Base.Search

variable {α : Type*}

/-- The text of a block. -/
def writeBlock (mark : List α) (lines : List (List α)) : List α :=
  lines.flatMap (· ++ mark) ++ mark

theorem writeBlock_cons (mark line : List α) (lines : List (List α)) :
    writeBlock mark (line :: lines) = line ++ mark ++ writeBlock mark lines := by
  rw [writeBlock, List.flatMap_cons, List.append_assoc]
  rfl

theorem writeBlock_ne (c : α) (mark : List α) (lines : List (List α)) :
    writeBlock (c :: mark) lines ≠ [] := by
  simp [writeBlock]

/-- A mark does not reach across a symbol that is not in it. -/
theorem mark_infix_middle {c d x : α} (hc : x ≠ c) (hd : x ≠ d) (a b : List α) :
    [c, d] <:+: a ++ x :: b ↔ [c, d] <:+: a ∨ [c, d] <:+: b := by
  induction a with
  | nil =>
    have hpre : ¬ [c, d] <+: x :: b := fun h => hc (List.cons_prefix_cons.mp h).1.symm
    simp [List.infix_cons_iff, hpre]
  | cons y a ih =>
    have hpre : [c, d] <+: y :: (a ++ x :: b) ↔ [c, d] <+: y :: a := by
      rw [List.cons_prefix_cons, List.cons_prefix_cons]
      cases a with
      | nil => simp [hd.symm]
      | cons z a => simp
    rw [List.cons_append, List.infix_cons_iff, List.infix_cons_iff, hpre, ih, or_assoc]

variable [DecidableEq α]

/-- The lines up to the first empty one, and what stands behind that. `mark` ends a line. -/
def readBlock (mark s : List α) : Option (List (List α) × List α) :=
  match hfind : find mark s with
  | none => none
  | some 0 => some ([], s.drop mark.length)
  | some (i + 1) =>
    (readBlock mark (s.drop (i + 1 + mark.length))).map fun block =>
      (s.take (i + 1) :: block.1, block.2)
termination_by s.length
decreasing_by
  have hle := find_length_le hfind
  rw [List.length_drop]
  omega

section Mark

variable {c d : α}

theorem readBlock_empty (mark s : List α) : readBlock mark (mark ++ s) = some ([], s) := by
  rw [readBlock]
  split
  · next hfind =>
    rw [find_zero (List.prefix_append mark s)] at hfind
    cases hfind
  · rw [List.drop_left]
  · next i hfind =>
    rw [find_zero (List.prefix_append mark s)] at hfind
    cases hfind

theorem find_line (hne : c ≠ d) {line : List α} (h : ¬ [c, d] <:+: line) (s : List α) :
    find [c, d] (line ++ [c, d] ++ s) = some line.length := by
  have hhere : find [c, d] (c :: d :: s) = some 0 := find_zero (List.prefix_append [c, d] s)
  have hskip := find_append_of_not_infix [] (d :: s) hne h
  rw [hhere, Option.map_some, Nat.zero_add] at hskip
  rw [List.append_assoc]
  exact hskip

/-- A line without a mark inside is read as it is. -/
theorem readBlock_line (hne : c ≠ d) {line : List α} (hline : line ≠ [])
    (h : ¬ [c, d] <:+: line) (s : List α) :
    readBlock [c, d] (line ++ [c, d] ++ s) =
      (readBlock [c, d] s).map fun block => (line :: block.1, block.2) := by
  have hfind := find_line hne h s
  have hpos := List.length_pos_iff.mpr hline
  rw [readBlock]
  split
  · next hnone =>
    rw [hfind] at hnone
    cases hnone
  · next hzero =>
    rw [hfind] at hzero
    have hlen := Option.some.inj hzero
    omega
  · next i hsome =>
    rw [hfind] at hsome
    have hlen : line.length = i + 1 := Option.some.inj hsome
    rw [← hlen]
    have hdrop : (line ++ [c, d] ++ s).drop (line.length + [c, d].length) = s := by
      rw [← List.length_append, List.drop_left]
    have htake : (line ++ [c, d] ++ s).take line.length = line := by
      rw [List.append_assoc, List.take_left]
    rw [hdrop, htake]

/-- A line has no mark inside, or is cut at its first mark. -/
theorem line_cases (c d : α) (line : List α) :
    ¬ [c, d] <:+: line ∨ ∃ a b, line = a ++ [c, d] ++ b ∧ ¬ [c, d] <:+: a := by
  induction line with
  | nil =>
    left
    rw [List.infix_nil]
    exact List.cons_ne_nil c [d]
  | cons x line ih =>
    by_cases hpre : [c, d] <+: x :: line
    · obtain ⟨b, hb⟩ := hpre
      refine .inr ⟨[], b, hb.symm, ?_⟩
      rw [List.infix_nil]
      exact List.cons_ne_nil c [d]
    · rcases ih with hno | ⟨a, b, rfl, ha⟩
      · left
        rw [List.infix_cons_iff, not_or]
        exact ⟨hpre, hno⟩
      · refine .inr ⟨x :: a, b, rfl, ?_⟩
        rw [List.infix_cons_iff, not_or]
        refine ⟨?_, ha⟩
        rintro ⟨rest, hrest⟩
        refine hpre ⟨rest ++ [c, d] ++ b, ?_⟩
        rw [← List.append_assoc, ← List.append_assoc, hrest]
        rfl

/-- The ways a block is read whose first line is `line`. -/
theorem readBlock_cases (hne : c ≠ d) (line : List α) (lines : List (List α)) :
    (line ≠ [] ∧ ¬ [c, d] <:+: line ∧ readBlock [c, d] (writeBlock [c, d] (line :: lines)) =
        (readBlock [c, d] (writeBlock [c, d] lines)).map fun block => (line :: block.1, block.2)) ∨
      (∃ rest, rest ≠ [] ∧ (line = [] ∨ [c, d] <:+: line) ∧
        readBlock [c, d] (writeBlock [c, d] (line :: lines)) = some ([], rest)) ∨
      ∃ a b, a ≠ [] ∧ line = a ++ [c, d] ++ b ∧
        readBlock [c, d] (writeBlock [c, d] (line :: lines)) =
          (readBlock [c, d] (writeBlock [c, d] (b :: lines))).map fun block =>
            (a :: block.1, block.2) := by
  rw [writeBlock_cons]
  rcases line_cases c d line with hno | ⟨a, b, rfl, ha⟩
  · by_cases hline : line = []
    · refine .inr (.inl ⟨_, writeBlock_ne c [d] lines, .inl hline, ?_⟩)
      rw [hline]
      exact readBlock_empty [c, d] _
    · exact .inl ⟨hline, hno, readBlock_line hne hline hno _⟩
  · have htext : a ++ [c, d] ++ b ++ [c, d] ++ writeBlock [c, d] lines =
        a ++ [c, d] ++ writeBlock [c, d] (b :: lines) := by
      rw [writeBlock_cons]
      simp only [List.append_assoc]
    rw [htext]
    by_cases hnil : a = []
    · refine .inr (.inl ⟨_, writeBlock_ne c [d] (b :: lines), .inr ⟨a, b, rfl⟩, ?_⟩)
      rw [hnil]
      exact readBlock_empty [c, d] _
    · exact .inr (.inr ⟨a, b, hnil, rfl, readBlock_line hne hnil ha _⟩)

theorem readBlock_nil (mark : List α) : readBlock mark (writeBlock mark []) = some ([], []) := by
  have hread := readBlock_empty mark []
  rw [List.append_nil] at hread
  exact hread

/-- A block is read as written, unless it is read as more lines or ends too early. -/
theorem readBlock_length (hne : c ≠ d) {lines lines' : List (List α)}
    (h : readBlock [c, d] (writeBlock [c, d] lines) = some (lines', [])) :
    lines' = lines ∨ lines.length < lines'.length := by
  induction hn : (writeBlock [c, d] lines).length using Nat.strong_induction_on
    generalizing lines lines' with
  | _ n ih =>
    cases lines with
    | nil =>
      rw [readBlock_nil] at h
      cases h
      exact .inl rfl
    | cons line lines =>
      rw [writeBlock_cons] at hn
      rcases readBlock_cases hne line lines with
        ⟨-, -, hread⟩ | ⟨rest, hrest, -, hread⟩ | ⟨a, b, hnil, rfl, hread⟩
      · rw [hread, Option.map_eq_some_iff] at h
        obtain ⟨⟨more, rest⟩, hmore, heq⟩ := h
        cases heq
        have hlt : (writeBlock [c, d] lines).length < n := by
          simp only [List.length_append, List.length_cons, List.length_nil] at hn
          omega
        rcases ih _ hlt hmore rfl with rfl | hlong
        · exact .inl rfl
        · exact .inr (Nat.succ_lt_succ hlong)
      · rw [hread] at h
        cases h
        exact absurd rfl hrest
      · rw [hread, Option.map_eq_some_iff] at h
        obtain ⟨⟨more, rest⟩, hmore, heq⟩ := h
        cases heq
        have hlt : (writeBlock [c, d] (b :: lines)).length < n := by
          rw [writeBlock_cons]
          simp only [List.length_append, List.length_cons, List.length_nil] at hn ⊢
          omega
        right
        rcases ih _ hlt hmore rfl with rfl | hlong
        · exact Nat.lt_succ_self _
        · exact Nat.lt_succ_of_lt hlong

/-- Exactly blocks of non-empty lines without a mark inside are read as written. -/
theorem readBlock_write_iff (hne : c ≠ d) (lines : List (List α)) :
    readBlock [c, d] (writeBlock [c, d] lines) = some (lines, []) ↔
      ∀ line ∈ lines, line ≠ [] ∧ ¬ [c, d] <:+: line := by
  induction lines with
  | nil => simp [readBlock_nil]
  | cons line lines ih =>
    rw [List.forall_mem_cons, ← ih]
    rcases readBlock_cases hne line lines with
      ⟨hline, hno, hread⟩ | ⟨rest, hrest, hbroken, hread⟩ | ⟨a, b, hnil, rfl, hread⟩
    · rw [hread, Option.map_eq_some_iff]
      constructor
      · rintro ⟨⟨more, rest⟩, hmore, heq⟩
        cases heq
        exact ⟨⟨hline, hno⟩, hmore⟩
      · rintro ⟨-, hlines⟩
        exact ⟨_, hlines, rfl⟩
    · rw [hread]
      constructor
      · intro h
        cases h
      · rintro ⟨⟨hline, hno⟩, -⟩
        exact absurd hbroken (not_or.mpr ⟨hline, hno⟩)
    · rw [hread, Option.map_eq_some_iff]
      constructor
      · rintro ⟨⟨more, rest⟩, -, heq⟩
        have hsame : a = a ++ [c, d] ++ b := (List.cons.inj (Prod.mk.inj heq).1).1
        have hlen := congrArg List.length hsame
        simp only [List.length_append, List.length_cons, List.length_nil] at hlen
        omega
      · rintro ⟨⟨-, hno⟩, -⟩
        exact absurd ⟨a, b, rfl⟩ hno

end Mark

end MyTelnet.Base.Blocks
