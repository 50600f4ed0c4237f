/- module: MyTelnet/Base/Grammars
   scope: library
   digest: Regular expressions over single letters: repetition, option and what they match. -/

import Mathlib.Computability.RegularExpressions

set_option autoImplicit false
set_option relaxedAutoImplicit false

namespace MyTelnet.Base.Grammars

open RegularExpression

variable {α : Type*}

/-- One or more times. -/
def oneOrMore (p : RegularExpression α) : RegularExpression α := p * star p

/-- At most once. -/
def atMostOnce (p : RegularExpression α) : RegularExpression α := 1 + p

/-- A letter of a word stands behind a part that does not have it. -/
theorem append_eq_split {x y before after : List α} {a : α}
    (h : x ++ y = before ++ a :: after) (hx : a ∉ x) : ∃ rest, before = x ++ rest ∧
      y = rest ++ a :: after := by
  rcases List.append_eq_append_iff.mp h with ⟨rest, hb, hy⟩ | ⟨rest, hx', hy⟩
  · exact ⟨rest, hb, hy⟩
  · cases rest with
    | nil => exact ⟨[], by rw [hx', List.append_nil, List.append_nil], hy.symm⟩
    | cons b rest =>
      obtain ⟨rfl, -⟩ := List.cons.inj hy
      exact absurd (by rw [hx']; simp) hx

/-- The words all of whose letters are in `P`. -/
theorem mem_kstar_letters {l : Language α} {P : α → Prop} (hl : ∀ w, w ∈ l ↔ ∃ a, P a ∧ w = [a])
    (w : List α) : w ∈ KStar.kstar l ↔ ∀ a ∈ w, P a := by
  rw [Language.mem_kstar]
  constructor
  · rintro ⟨pieces, rfl, hpieces⟩ a ha
    obtain ⟨piece, hmem, hin⟩ := List.mem_flatten.mp ha
    obtain ⟨b, hb, rfl⟩ := (hl piece).mp (hpieces piece hmem)
    rw [List.mem_singleton.mp hin]
    exact hb
  · intro h
    refine ⟨w.map fun a => [a], ?_, ?_⟩
    · induction w with
      | nil => rfl
      | cons a w ih =>
        rw [List.forall_mem_cons] at h
        rw [List.map_cons, List.flatten_cons, ← ih h.2]
        rfl
    · intro piece hmem
      obtain ⟨a, ha, rfl⟩ := List.mem_map.mp hmem
      exact (hl [a]).mpr ⟨a, h a ha, rfl⟩

theorem mem_star_char_add_char (a b : α) (w : List α) :
    w ∈ (star (char a + char b)).matches' ↔ ∀ x ∈ w, x = a ∨ x = b := by
  rw [matches'_star]
  apply mem_kstar_letters
  intro v
  rw [matches'_add, Language.mem_add, matches'_char, matches'_char]
  constructor
  · rintro (h | h)
    · exact ⟨a, .inl rfl, h⟩
    · exact ⟨b, .inr rfl, h⟩
  · rintro ⟨x, rfl | rfl, rfl⟩
    · exact .inl rfl
    · exact .inr rfl

theorem mem_star_char (a : α) (w : List α) :
    w ∈ (star (char a)).matches' ↔ ∀ x ∈ w, x = a := by
  rw [matches'_star]
  apply mem_kstar_letters
  intro v
  rw [matches'_char]
  constructor
  · intro h
    exact ⟨a, rfl, h⟩
  · rintro ⟨x, rfl, rfl⟩
    rfl

theorem mem_atMostOnce (p : RegularExpression α) (w : List α) :
    w ∈ (atMostOnce p).matches' ↔ w = [] ∨ w ∈ p.matches' := by
  rw [atMostOnce, matches'_add, Language.mem_add, matches'_epsilon, Language.mem_one]

theorem mem_oneOrMore_char (a : α) (w : List α) :
    w ∈ (oneOrMore (char a)).matches' ↔ w ≠ [] ∧ ∀ x ∈ w, x = a := by
  rw [oneOrMore, matches'_mul, matches'_char, Language.mem_mul]
  constructor
  · rintro ⟨u, rfl, v, hv, rfl⟩
    rw [List.singleton_append, List.forall_mem_cons]
    exact ⟨by simp, rfl, (mem_star_char a v).mp hv⟩
  · rintro ⟨hne, hall⟩
    cases w with
    | nil => exact absurd rfl hne
    | cons b v =>
      rw [List.forall_mem_cons] at hall
      obtain ⟨rfl, hv⟩ := hall
      exact ⟨[b], rfl, v, (mem_star_char b v).mpr hv, rfl⟩

end MyTelnet.Base.Grammars
