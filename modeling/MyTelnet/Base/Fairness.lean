/- module: MyTelnet/Base/Fairness
   scope: library
   digest: A measure that some kind of action always brings down reaches zero in fair rounds. -/

import MyTelnet.Base.Runs

set_option autoImplicit false
set_option relaxedAutoImplicit false

namespace MyTelnet.Base.Fairness

open MyTelnet.Base.Runs

variable {σ α κ : Type*}

/-- The goal is kept once it is reached. Until then the measure never grows, and some kind of
action helps, in that it brings the measure down, and goes on helping until the measure comes
down. -/
structure Descent (step : σ → α → σ) (Inv : σ → Prop) (allowed : α → Prop) (kind : α → Option κ)
    (measure : σ → Nat) (Helps : σ → κ → Prop) (Goal : σ → Prop) : Prop where
  keep : ∀ s a, Inv s → allowed a → Inv (step s a)
  rest : ∀ s a, Inv s → allowed a → Goal s → Goal (step s a)
  mono : ∀ s a, Inv s → allowed a → measure (step s a) ≤ measure s
  zero : ∀ s, Inv s → measure s = 0 → Goal s
  helps : ∀ s, Inv s → ¬ Goal s → ∃ k, Helps s k
  falls : ∀ s a k, Inv s → allowed a → Helps s k → kind a = some k →
    measure (step s a) < measure s
  stays : ∀ s a k, Inv s → allowed a → Helps s k →
    measure (step s a) < measure s ∨ Helps (step s a) k

/-- Actions in which every kind occurs. -/
def Fair (allowed : α → Prop) (kind : α → Option κ) (round : List α) : Prop :=
  (∀ a ∈ round, allowed a) ∧ ∀ k, ∃ a ∈ round, kind a = some k

section Rounds

variable {step : σ → α → σ} {Inv : σ → Prop} {allowed : α → Prop} {kind : α → Option κ}
variable {measure : σ → Nat} {Helps : σ → κ → Prop} {Goal : σ → Prop} {s : σ}

theorem Descent.run_keep (h : Descent step Inv allowed kind measure Helps Goal) (hs : Inv s)
    {acts : List α} (hacts : ∀ a ∈ acts, allowed a) :
    Inv (run step s acts) ∧ measure (run step s acts) ≤ measure s := by
  induction acts generalizing s with
  | nil => exact ⟨hs, Nat.le_refl _⟩
  | cons a acts ih =>
    rw [List.forall_mem_cons] at hacts
    obtain ⟨hinv, hle⟩ := ih (h.keep s a hs hacts.1) hacts.2
    exact ⟨hinv, hle.trans (h.mono s a hs hacts.1)⟩

theorem Descent.run_falls (h : Descent step Inv allowed kind measure Helps Goal) (hs : Inv s) {k : κ}
    (hk : Helps s k) {acts : List α} (hacts : ∀ a ∈ acts, allowed a)
    (hkind : ∃ a ∈ acts, kind a = some k) : measure (run step s acts) < measure s := by
  induction acts generalizing s with
  | nil => simp at hkind
  | cons a acts ih =>
    rw [List.forall_mem_cons] at hacts
    have hinv := h.keep s a hs hacts.1
    have hrest := (h.run_keep hinv hacts.2).2
    by_cases ha : kind a = some k
    · exact hrest.trans_lt (h.falls s a k hs hacts.1 hk ha)
    · rcases h.stays s a k hs hacts.1 hk with hlt | hstill
      · exact hrest.trans_lt hlt
      · have hkind' : ∃ b ∈ acts, kind b = some k := by simpa [ha] using hkind
        exact (ih hinv hstill hacts.2 hkind').trans_le (h.mono s a hs hacts.1)

theorem Descent.run_rest (h : Descent step Inv allowed kind measure Helps Goal) (hs : Inv s)
    (hgoal : Goal s) {acts : List α} (hacts : ∀ a ∈ acts, allowed a) : Goal (run step s acts) := by
  induction acts generalizing s with
  | nil => exact hgoal
  | cons a acts ih =>
    rw [List.forall_mem_cons] at hacts
    exact ih (h.keep s a hs hacts.1) (h.rest s a hs hacts.1 hgoal) hacts.2

/-- As many fair rounds as the measure counts reach the goal. -/
theorem Descent.rounds (h : Descent step Inv allowed kind measure Helps Goal) (hs : Inv s)
    {rounds : List (List α)} (hfair : ∀ round ∈ rounds, Fair allowed kind round)
    (hlong : measure s ≤ rounds.length) : Goal (run step s rounds.flatten) := by
  induction rounds generalizing s with
  | nil => exact h.zero s hs (Nat.le_zero.mp hlong)
  | cons round rounds ih =>
    rw [List.forall_mem_cons] at hfair
    obtain ⟨⟨hallowed, hkinds⟩, hrest⟩ := hfair
    obtain ⟨hinv, hle⟩ := h.run_keep hs hallowed
    rw [List.flatten_cons, run_append]
    rw [List.length_cons] at hlong
    by_cases hgoal : Goal s
    · have hall : ∀ a ∈ rounds.flatten, allowed a := by
        intro a ha
        obtain ⟨round', hround, ha⟩ := List.mem_flatten.mp ha
        exact (hrest round' hround).1 a ha
      exact h.run_rest hinv (h.run_rest hs hgoal hallowed) hall
    · obtain ⟨k, hk⟩ := h.helps s hs hgoal
      have hlt := h.run_falls hs hk hallowed (hkinds k)
      exact ih hinv hrest (by omega)

end Rounds

/-! A budget that some actions are paid from and the output of others fills up. -/

section Spending

variable {β : Type*} {step : σ → α → σ} {budget : σ → Nat} {pays : α → Bool} {out : σ → α → List β}
variable {rate : Nat}

/-- A run spends what it starts with and gets on the way, unless it runs out before its end. -/
theorem run_spends (Inv : σ → Prop) (keep : ∀ s a, Inv s → Inv (step s a))
    (spent : ∀ s a, Inv s → budget s = 0 → budget (step s a) = 0)
    (spend : ∀ s a, Inv s → budget s ≠ 0 →
      budget (step s a) + (if pays a then 1 else 0) ≤ budget s + rate * (out s a).length)
    {s : σ} (hs : Inv s) (acts : List α) :
    budget (run step s acts) = 0 ∨ budget (run step s acts) + acts.countP pays ≤
      budget s + rate * (collect step out s acts).length := by
  induction acts generalizing s with
  | nil => exact .inr (Nat.le_add_right _ _)
  | cons a acts ih =>
    have hinv := keep s a hs
    rcases ih hinv with hzero | hrest
    · exact .inl hzero
    · by_cases hover : budget s = 0
      · left
        have hkeep : ∀ s a, (Inv s ∧ budget s = 0) → True →
            Inv (step s a) ∧ budget (step s a) = 0 :=
          fun s a h _ => ⟨keep s a h.1, spent s a h.1 h.2⟩
        exact (run_invariant hkeep ⟨hs, hover⟩ (eachStep_of_forall fun _ _ => trivial)).2
      · right
        have hfirst := spend s a hs hover
        rw [List.countP_cons, collect, List.length_append, Nat.mul_add, run_cons]
        omega

theorem length_collect_ite (p : α → Bool) (b : β) (s : σ) (acts : List α) :
    (collect step (fun _ a => if p a then [b] else []) s acts).length = acts.countP p := by
  induction acts generalizing s with
  | nil => rfl
  | cons a acts ih =>
    rw [collect, List.length_append, ih, List.countP_cons]
    split <;> simp [Nat.add_comm]

end Spending

end MyTelnet.Base.Fairness
