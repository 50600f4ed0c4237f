/- module: MyTelnet/Base/Sections
   scope: library
   digest: A record cut at its markers, and properties of its sections kept as the record grows. -/

import Mathlib.Data.List.Basic

set_option autoImplicit false
set_option relaxedAutoImplicit false

namespace MyTelnet.Base.Sections

variable {α : Type*}

/-- What follows the last marker of a record, and the whole record where there is none. -/
def lastSection (mark : α → Bool) (record : List α) : List α :=
  (record.splitOnP mark).getLastD []

theorem lastSection_eq {mark : α → Bool} {record : List α} {past : List (List α)}
    {current : List α} (h : record.splitOnP mark = past ++ [current]) :
    lastSection mark record = current := by
  rw [lastSection, h, List.getLastD_concat]

/-- Events that are no markers go to the last section. -/
theorem splitOnP_append {mark : α → Bool} {record more : List α} {past : List (List α)}
    {current : List α} (h : record.splitOnP mark = past ++ [current])
    (hmore : ∀ a ∈ more, mark a = false) :
    (record ++ more).splitOnP mark = past ++ [current ++ more] := by
  induction record generalizing past current with
  | nil =>
    rw [List.nil_append, List.splitOnP_eq_singleton hmore]
    cases past with
    | nil =>
      obtain rfl : [] = current := by simpa using h
      rfl
    | cons piece past => simp at h
  | cons a record ih =>
    rw [List.cons_append, List.splitOnP_cons_eq_if_modifyHead]
    rw [List.splitOnP_cons_eq_if_modifyHead] at h
    split at h
    · next ha =>
      rw [if_pos ha]
      cases past with
      | nil => simp at h
      | cons piece past =>
        obtain ⟨rfl, hrest⟩ := List.cons.inj h
        rw [ih hrest, List.cons_append]
    · next ha =>
      rw [if_neg ha]
      cases hs : record.splitOnP mark with
      | nil => exact absurd hs (List.splitOnP_ne_nil mark record)
      | cons head rest =>
        rw [hs, List.modifyHead_cons] at h
        cases past with
        | nil =>
          obtain ⟨rfl, rfl⟩ : a :: head = current ∧ rest = [] := by simpa using h
          have hlast : record.splitOnP mark = [] ++ [head] := hs
          rw [ih hlast]
          rfl
        | cons piece past =>
          obtain ⟨rfl, rfl⟩ := List.cons.inj h
          have hlast : record.splitOnP mark = (head :: past) ++ [current] := hs
          rw [ih hlast]
          rfl

theorem lastSection_append {mark : α → Bool} (record : List α) {more : List α}
    (hmore : ∀ a ∈ more, mark a = false) :
    lastSection mark (record ++ more) = lastSection mark record ++ more := by
  have hne := List.splitOnP_ne_nil mark record
  have hsplit := (List.dropLast_append_getLast hne).symm
  rw [lastSection_eq (splitOnP_append hsplit hmore), lastSection_eq hsplit]

/-- A marker starts an empty section. -/
theorem lastSection_mark {mark : α → Bool} (record : List α) {a : α} (ha : mark a = true) :
    lastSection mark (record ++ [a]) = [] := by
  apply lastSection_eq
  rw [List.splitOnP_append_cons record [] ha, List.splitOnP_nil]

/-- A property of every finished section, and one of the section under way. -/
def Recorded (mark : α → Bool) (P Q : List α → Prop) (record : List α) : Prop :=
  ∃ past current, record.splitOnP mark = past ++ [current] ∧ (∀ piece ∈ past, P piece) ∧
    Q current

section Recorded

variable {mark : α → Bool} {P Q Q' : List α → Prop} {record more : List α}

theorem Recorded.start (h : Q []) : Recorded mark P Q [] :=
  ⟨[], [], rfl, by simp, h⟩

theorem Recorded.append (h : Recorded mark P Q record) (hmore : ∀ a ∈ more, mark a = false)
    (hnext : ∀ current, Q current → Q' (current ++ more)) :
    Recorded mark P Q' (record ++ more) := by
  obtain ⟨past, current, hs, hpast, hcurrent⟩ := h
  exact ⟨past, current ++ more, splitOnP_append hs hmore, hpast, hnext current hcurrent⟩

/-- A marker finishes the section under way and starts an empty one. -/
theorem Recorded.snocMark {a : α} (h : Recorded mark P Q record) (ha : mark a = true)
    (hdone : ∀ current, Q current → P current) (hnext : Q' []) :
    Recorded mark P Q' (record ++ [a]) := by
  obtain ⟨past, current, hs, hpast, hcurrent⟩ := h
  refine ⟨past ++ [current], [], ?_, ?_, hnext⟩
  · rw [List.splitOnP_append_cons record [] ha, hs, List.splitOnP_nil]
  · intro piece hmem
    rcases List.mem_append.mp hmem with hmem | hmem
    · exact hpast piece hmem
    · rw [List.mem_singleton.mp hmem]
      exact hdone current hcurrent

theorem Recorded.forall (h : Recorded mark P Q record)
    (hdone : ∀ current, Q current → P current) : ∀ piece ∈ record.splitOnP mark, P piece := by
  obtain ⟨past, current, hs, hpast, hcurrent⟩ := h
  intro piece hmem
  rw [hs] at hmem
  rcases List.mem_append.mp hmem with hmem | hmem
  · exact hpast piece hmem
  · rw [List.mem_singleton.mp hmem]
    exact hdone current hcurrent

theorem Recorded.last (h : Recorded mark P Q record) : Q (lastSection mark record) := by
  obtain ⟨past, current, hs, -, hcurrent⟩ := h
  rw [lastSection_eq hs]
  exact hcurrent

end Recorded

end MyTelnet.Base.Sections
