/- module: MyTelnet/Base/Search
   scope: library
   digest: The first occurrence of a pattern in a list. -/

import Mathlib.Data.List.Infix
import Mathlib.Tactic.Common

set_option autoImplicit false
set_option relaxedAutoImplicit false

namespace MyTelnet.Base.Search

variable {α : Type*} [DecidableEq α]

/-- The position of the first occurrence of `pat`. -/
def find (pat : List α) : List α → Option Nat
  | [] => if pat.isPrefixOf [] then some 0 else none
  | c :: s => if pat.isPrefixOf (c :: s) then some 0 else (find pat s).map (· + 1)

/-- The first occurrence at `pos` or later. -/
def findFrom (pat s : List α) (pos : Nat) : Option Nat :=
  if pos ≤ s.length then (find pat (s.drop pos)).map (· + pos) else none

theorem find_zero {pat s : List α} (h : pat <+: s) : find pat s = some 0 := by
  have hb : pat.isPrefixOf s = true := List.isPrefixOf_iff_prefix.mpr h
  cases s with
  | nil => rw [find, if_pos hb]
  | cons c s => rw [find, if_pos hb]

theorem find_cons {pat : List α} {c : α} {s : List α} (h : ¬ pat <+: c :: s) :
    find pat (c :: s) = (find pat s).map (· + 1) := by
  have hb : ¬ pat.isPrefixOf (c :: s) = true := by
    rw [List.isPrefixOf_iff_prefix]
    exact h
  rw [find, if_neg hb]

/-- The whole pattern lies behind the position found. -/
theorem find_length_le {pat s : List α} {i : Nat} (h : find pat s = some i) :
    i + pat.length ≤ s.length := by
  induction s generalizing i with
  | nil =>
    rw [find] at h
    split at h
    · next hpre =>
      obtain rfl := Option.some.inj h
      have hle := (List.isPrefixOf_iff_prefix.mp hpre).length_le
      simpa using hle
    · exact absurd h (by simp)
  | cons c s ih =>
    rw [find] at h
    split at h
    · next hpre =>
      obtain rfl := Option.some.inj h
      have hle := (List.isPrefixOf_iff_prefix.mp hpre).length_le
      simpa using hle
    · obtain ⟨j, hj, rfl⟩ := Option.map_eq_some_iff.mp h
      have hle := ih hj
      rw [List.length_cons]
      omega

theorem findFrom_le {pat s : List α} {pos i : Nat} (h : findFrom pat s pos = some i) :
    pos ≤ i ∧ i + pat.length ≤ s.length := by
  unfold findFrom at h
  split at h
  · next hpos =>
    obtain ⟨j, hj, rfl⟩ := Option.map_eq_some_iff.mp h
    have hle := find_length_le hj
    rw [List.length_drop] at hle
    omega
  · exact absurd h (by simp)

theorem findFrom_append (pat pre s : List α) :
    findFrom pat (pre ++ s) pre.length = (find pat s).map (· + pre.length) := by
  have hle : pre.length ≤ (pre ++ s).length := by
    rw [List.length_append]
    omega
  rw [findFrom, if_pos hle, List.drop_left]

/-- A pattern does not begin where its first symbol does not stand. -/
theorem find_append_of_not_mem {c : α} {a : List α} (pat s : List α) (h : c ∉ a) :
    find (c :: pat) (a ++ s) = (find (c :: pat) s).map (· + a.length) := by
  induction a with
  | nil => simp
  | cons b a ih =>
    have hne : c ≠ b := fun heq => h (heq ▸ List.mem_cons_self)
    have hmem : c ∉ a := fun hin => h (List.mem_cons_of_mem b hin)
    have hpre : ¬ (c :: pat) <+: b :: (a ++ s) := by
      intro hpre
      exact hne (List.cons_prefix_cons.mp hpre).1
    rw [List.cons_append, find_cons hpre, ih hmem, Option.map_map, List.length_cons]
    rfl

theorem find_eq_none_of_not_mem {c : α} {a : List α} (pat : List α) (h : c ∉ a) :
    find (c :: pat) a = none := by
  have hempty : find (c :: pat) ([] : List α) = none := rfl
  have happend := find_append_of_not_mem pat [] h
  rw [List.append_nil, hempty] at happend
  exact happend

theorem find_append_pattern {c : α} {a : List α} (pat s : List α) (h : c ∉ a) :
    find (c :: pat) (a ++ (c :: pat) ++ s) = some a.length := by
  have hhere : find (c :: pat) ((c :: pat) ++ s) = some 0 := find_zero (List.prefix_append _ _)
  rw [List.append_assoc, find_append_of_not_mem pat _ h, hhere, Option.map_some, Nat.zero_add]

/-- Cutting a text shows the occurrence as soon as it is complete, and not before. -/
theorem find_of_prefix {pat d s : List α} {i : Nat} (hd : d <+: s) (h : find pat s = some i) :
    find pat d = if d.length < i + pat.length then none else some i := by
  induction s generalizing d i with
  | nil =>
    obtain rfl := List.prefix_nil.mp hd
    have hle := find_length_le h
    rw [List.length_nil] at hle
    rw [h, if_neg (by rw [List.length_nil]; omega)]
  | cons c s ih =>
    by_cases hpre : pat <+: c :: s
    · obtain rfl : 0 = i := Option.some.inj ((find_zero hpre).symm.trans h)
      rw [Nat.zero_add]
      split
      · next hlt =>
        cases hfind : find pat d with
        | none => rfl
        | some j =>
          have hle := find_length_le hfind
          omega
      · next hge =>
        exact find_zero (List.prefix_of_prefix_length_le hpre hd (by omega))
    · rw [find_cons hpre] at h
      obtain ⟨j, hj, rfl⟩ := Option.map_eq_some_iff.mp h
      cases d with
      | nil =>
        have hpos : pat ≠ [] := by
          intro hnil
          exact hpre (hnil ▸ List.nil_prefix)
        have hlen : 0 < pat.length := List.length_pos_iff.mpr hpos
        have hno : ¬ pat.isPrefixOf ([] : List α) = true := by
          rw [List.isPrefixOf_iff_prefix, List.prefix_nil]
          exact hpos
        rw [find, if_neg hno, if_pos (by rw [List.length_nil]; omega)]
      | cons b d =>
        obtain ⟨rfl, hd'⟩ := List.cons_prefix_cons.mp hd
        have hpre' : ¬ pat <+: b :: d := by
          intro hno
          exact hpre (hno.trans hd)
        rw [find_cons hpre', ih hd' hj, List.length_cons]
        by_cases hlt : d.length < j + pat.length
        · rw [if_pos hlt, if_pos (by omega)]
          rfl
        · rw [if_neg hlt, if_neg (by omega)]
          rfl

/-- A pattern whose first two symbols differ and do not stand together in `a` begins behind `a`,
also where `a` ends in the first of them. -/
theorem find_append_of_not_infix {c d : α} {a : List α} (pat s : List α) (hne : c ≠ d)
    (h : ¬ [c, d] <:+: a) :
    find (c :: d :: pat) (a ++ c :: s) = (find (c :: d :: pat) (c :: s)).map (· + a.length) := by
  induction a with
  | nil => simp
  | cons b a ih =>
    have htail : ¬ [c, d] <:+: a := fun hin => h (List.infix_cons_iff.mpr (.inr hin))
    have hpre : ¬ (c :: d :: pat) <+: b :: (a ++ c :: s) := by
      intro hpre
      obtain ⟨rfl, hrest⟩ := List.cons_prefix_cons.mp hpre
      cases a with
      | nil => exact hne (List.cons_prefix_cons.mp hrest).1.symm
      | cons e a =>
        obtain rfl := (List.cons_prefix_cons.mp hrest).1
        exact h ⟨[], a, rfl⟩
    rw [List.cons_append, find_cons hpre, ih htail, Option.map_map, List.length_cons]
    rfl

/-- The symbol looked for does not stand in front of the place where it is found. -/
theorem not_mem_take_find {c : α} {s : List α} {i : Nat} (h : find [c] s = some i) :
    c ∉ s.take i := by
  induction s generalizing i with
  | nil => simp
  | cons b s ih =>
    by_cases hpre : [c] <+: b :: s
    · obtain rfl : 0 = i := Option.some.inj ((find_zero hpre).symm.trans h)
      simp
    · rw [find_cons hpre] at h
      obtain ⟨j, hj, rfl⟩ := Option.map_eq_some_iff.mp h
      rw [List.take_succ_cons, List.mem_cons]
      rintro (rfl | hin)
      · exact hpre (List.cons_prefix_cons.mpr ⟨rfl, List.nil_prefix⟩)
      · exact ih hj hin

theorem find_eq_none_iff (pat s : List α) : find pat s = none ↔ ¬ pat <:+: s := by
  induction s with
  | nil =>
    rw [find, List.infix_nil, ← List.prefix_nil, ← List.isPrefixOf_iff_prefix]
    split
    · next h => simp [h]
    · next h => simp [h]
  | cons c s ih =>
    by_cases hpre : pat <+: c :: s
    · rw [find_zero hpre]
      simp [hpre.isInfix]
    · rw [find_cons hpre, Option.map_eq_none_iff, ih, List.infix_cons_iff]
      simp [hpre]

/-- A pattern found is found at the same place in any longer text. -/
theorem find_append {pat d : List α} {i : Nat} (s : List α) (h : find pat d = some i) :
    find pat (d ++ s) = some i := by
  cases hlong : find pat (d ++ s) with
  | none =>
    have hno := (find_eq_none_iff pat (d ++ s)).mp hlong
    have hin : pat <:+: d := by
      by_contra hd
      rw [(find_eq_none_iff pat d).mpr hd] at h
      cases h
    exact absurd (hin.trans (List.prefix_append d s).isInfix) hno
  | some j =>
    have hcut := find_of_prefix (List.prefix_append d s) hlong
    rw [h] at hcut
    split at hcut
    · cases hcut
    · exact hcut.symm

end MyTelnet.Base.Search
