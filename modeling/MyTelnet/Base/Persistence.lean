/- module: MyTelnet/Base/Persistence
   scope: library
   digest: Readers of a buffer whose results outlast whatever is put behind it. -/

import Mathlib.Tactic.Common

set_option autoImplicit false
set_option relaxedAutoImplicit false

namespace MyTelnet.Base.Persistence

variable {α ε β γ : Type}

/-- A result once reached stays as it is when the buffer grows at its end. -/
def Persistent (f : List α → Except ε β) : Prop :=
  ∀ mem more result, f mem = .ok result → f (mem ++ more) = .ok result

theorem persistent_ok (result : β) : Persistent fun _ : List α => (.ok result : Except ε β) :=
  fun _ _ _ h => h

theorem persistent_error (e : ε) : Persistent fun _ : List α => (.error e : Except ε β) :=
  fun _ _ _ h => h

theorem persistent_getElem? (absent : ε) (i : Nat) :
    Persistent fun mem : List α => mem[i]?.elim (.error absent) .ok := by
  intro mem more result h
  dsimp only at h ⊢
  cases hi : mem[i]? with
  | none =>
    rw [hi] at h
    cases h
  | some a =>
    rw [hi] at h
    have hlt : i < mem.length := (List.getElem?_eq_some_iff.mp hi).1
    rw [List.getElem?_append_left hlt, hi]
    exact h

theorem Persistent.bind {f : List α → Except ε β} {g : β → List α → Except ε γ}
    (hf : Persistent f) (hg : ∀ b, Persistent (g b)) :
    Persistent fun mem => f mem >>= fun b => g b mem := by
  intro mem more result h
  dsimp only at h ⊢
  cases hfirst : f mem with
  | error e =>
    rw [hfirst] at h
    cases h
  | ok b =>
    rw [hfirst] at h
    rw [hf mem more b hfirst]
    exact hg b mem more result h

/-- A test that does not look at the buffer. -/
theorem Persistent.ite {p : Prop} [Decidable p] {f g : List α → Except ε β} (hf : Persistent f)
    (hg : Persistent g) : Persistent fun mem => if p then f mem else g mem := by
  by_cases hp : p
  · simpa only [if_pos hp] using hf
  · simpa only [if_neg hp] using hg

/-- Two computations that differ in what follows their first step only. -/
theorem bind_eq_ok_of {x : Except ε β} {f : β → Except ε γ} {g : β → Except ε α} {c : γ} {a : α}
    (h : x >>= f = .ok c) (hrest : ∀ b, f b = .ok c → g b = .ok a) : x >>= g = .ok a := by
  cases x with
  | error e => cases h
  | ok b => exact hrest b h

end MyTelnet.Base.Persistence
