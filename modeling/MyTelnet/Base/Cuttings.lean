/- module: MyTelnet/Base/Cuttings
   scope: library
   digest: A text that arrives in pieces, and how much of it is there at a given length. -/

import Mathlib.Data.List.Infix
import Mathlib.Tactic.Common

set_option autoImplicit false
set_option relaxedAutoImplicit false

namespace MyTelnet.Base.Cuttings

variable {α : Type*}

/-- A text in non-empty pieces. -/
structure Cutting (text : List α) where
  pieces : List (List α)
  flatten_eq : pieces.flatten = text
  nonempty : ∀ piece ∈ pieces, piece ≠ []

/-- What has arrived when it first has length `n`, behind a buffer that came before. -/
def reach (n : Nat) (buffer : List α) : List (List α) → Option (List α)
  | [] => none
  | piece :: pieces =>
    if n ≤ (buffer ++ piece).length then some (buffer ++ piece)
    else reach n (buffer ++ piece) pieces

/-- The length `n` is reached, and it takes all pieces exactly if those before the last
do not reach it. -/
theorem reach_spec (n : Nat) (buffer : List α) (pieces : List (List α))
    (hne : ∀ piece ∈ pieces, piece ≠ []) (hbuffer : buffer.length < n)
    (hn : n ≤ (buffer ++ pieces.flatten).length) :
    ∃ arrived, reach n buffer pieces = some arrived ∧ arrived <+: buffer ++ pieces.flatten ∧
      n ≤ arrived.length ∧
      (arrived = buffer ++ pieces.flatten ↔ (buffer ++ pieces.dropLast.flatten).length < n) := by
  induction pieces generalizing buffer with
  | nil =>
    rw [List.flatten_nil, List.append_nil] at hn
    exact absurd hbuffer (Nat.not_lt.mpr hn)
  | cons piece pieces ih =>
    have hflat : buffer ++ (piece :: pieces).flatten = buffer ++ piece ++ pieces.flatten := by
      rw [List.flatten_cons, List.append_assoc]
    rw [hflat] at hn ⊢
    by_cases hhere : n ≤ (buffer ++ piece).length
    · refine ⟨buffer ++ piece, ?_, List.prefix_append _ _, hhere, ?_⟩
      · rw [reach, if_pos hhere]
      · cases pieces with
        | nil =>
          rw [List.flatten_nil, List.append_nil, List.dropLast_singleton, List.flatten_nil,
            List.append_nil]
          exact iff_of_true rfl hbuffer
        | cons next pieces =>
          have hnext : next ≠ [] := hne next (by simp)
          have hpos : 0 < next.length := List.length_pos_iff.mpr hnext
          rw [List.dropLast_cons_of_ne_nil (List.cons_ne_nil _ _)]
          refine iff_of_false ?_ ?_
          · intro heq
            have hlen := congrArg List.length heq
            simp only [List.flatten_cons, List.length_append] at hlen
            omega
          · rw [List.flatten_cons, ← List.append_assoc, List.length_append]
            omega
    · have hlt : (buffer ++ piece).length < n := Nat.lt_of_not_le hhere
      have hpieces : pieces ≠ [] := by
        intro hnil
        rw [hnil, List.flatten_nil, List.append_nil] at hn
        exact hhere hn
      obtain ⟨arrived, hreach, hprefix, hlen, hall⟩ :=
        ih (buffer ++ piece) (fun p hp => hne p (List.mem_cons_of_mem _ hp)) hlt hn
      refine ⟨arrived, ?_, hprefix, hlen, ?_⟩
      · rw [reach, if_neg hhere]
        exact hreach
      · rw [hall, List.dropLast_cons_of_ne_nil hpieces, List.flatten_cons,
          List.append_assoc]

end MyTelnet.Base.Cuttings
