/- module: MyTelnet/Base/Trails
   scope: library
   digest: The values that an observation takes along a run, and their number in a ranked graph. -/

import Mathlib.Data.List.Chain
import MyTelnet.Base.Runs

set_option autoImplicit false
set_option relaxedAutoImplicit false

namespace MyTelnet.Base.Trails

open MyTelnet.Base.Runs

variable {σ α β : Type*} [DecidableEq β]

/-- The value to which a step changes the observation. -/
def changes (step : σ → α → σ) (view : σ → β) (s : σ) (a : α) : List β :=
  if view (step s a) = view s then [] else [view (step s a)]

/-- The values of the observation along a run, each as long as it lasts counted once. -/
def trail (step : σ → α → σ) (view : σ → β) (s : σ) (acts : List α) : List β :=
  view s :: collect step (changes step view) s acts

variable {step : σ → α → σ} {view : σ → β} {s : σ} {a : α} {acts : List α}

theorem trail_cons_same (h : view (step s a) = view s) :
    trail step view s (a :: acts) = trail step view (step s a) acts := by
  rw [trail, trail, collect, changes, if_pos h, List.nil_append, h]

theorem trail_cons_moved (h : view (step s a) ≠ view s) :
    trail step view s (a :: acts) = view s :: trail step view (step s a) acts := by
  rw [trail, trail, collect, changes, if_neg h, List.singleton_append]

theorem trail_getLast? : (trail step view s acts).getLast? = some (view (run step s acts)) := by
  induction acts generalizing s with
  | nil => rfl
  | cons a acts ih =>
    by_cases h : view (step s a) = view s
    · rw [trail_cons_same h, run_cons]
      exact ih
    · rw [trail_cons_moved h, run_cons, ← ih]
      rfl

/-- Where each step stays or follows an edge, a run walks along the graph. -/
theorem trail_isChain {Edge : β → β → Prop} {Inv : σ → Prop} {C : σ → α → Prop}
    (keep : ∀ s a, Inv s → C s a → Inv (step s a))
    (moves : ∀ s a, Inv s → C s a →
      view (step s a) = view s ∨ Edge (view s) (view (step s a)))
    (hs : Inv s) (hC : EachStep step C s acts) : (trail step view s acts).IsChain Edge := by
  induction acts generalizing s with
  | nil => exact List.isChain_singleton _
  | cons a acts ih =>
    have htail := ih (keep s a hs hC.1) hC.2
    by_cases h : view (step s a) = view s
    · rw [trail_cons_same h]
      exact htail
    · rw [trail_cons_moved h]
      have hedge := (moves s a hs hC.1).resolve_left h
      rw [trail] at htail ⊢
      exact List.isChain_cons_cons.mpr ⟨hedge, htail⟩

omit [DecidableEq β] in
/-- A walk that climbs with every edge is no longer than the height that is left. -/
theorem length_of_ranked {Edge : β → β → Prop} {rank : β → Nat} {top : Nat}
    (climbs : ∀ b b', Edge b b' → rank b < rank b' ∧ rank b' ≤ top) {b : β} {walk : List β}
    (hb : rank b ≤ top) (h : (b :: walk).IsChain Edge) : walk.length + rank b ≤ top := by
  induction walk generalizing b with
  | nil => simpa using hb
  | cons b' walk ih =>
    obtain ⟨hedge, htail⟩ := List.isChain_cons_cons.mp h
    obtain ⟨hlt, htop⟩ := climbs b b' hedge
    have hrest := ih htop htail
    rw [List.length_cons]
    omega

end MyTelnet.Base.Trails
