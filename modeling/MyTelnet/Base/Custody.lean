/- module: MyTelnet/Base/Custody
   scope: library
   digest: Traces of calls that acquire, use and release resources, and what a safe one balances. -/

import Mathlib.Data.List.Perm.Basic
import MyTelnet.Base.Runs

set_option autoImplicit false
set_option relaxedAutoImplicit false

namespace MyTelnet.Base.Custody

open MyTelnet.Base.Runs

variable {ρ : Type*}

inductive Call (ρ : Type*) where
  | acquire (r : ρ)
  | use (r : ρ)
  | release (r : ρ)
  deriving DecidableEq

/-- The resources held, latest first, and those ever acquired. -/
structure Holdings (ρ : Type*) where
  held : List ρ
  seen : List ρ

def Holdings.empty : Holdings ρ := ⟨[], []⟩

/-- The resource of an `acquire` call. -/
def Call.acquired? : Call ρ → Option ρ
  | .acquire r => some r
  | _ => none

/-- The resource of a `release` call. -/
def Call.released? : Call ρ → Option ρ
  | .release r => some r
  | _ => none

section Monitor

variable [DecidableEq ρ]

def Holdings.after (c : Holdings ρ) : Call ρ → Holdings ρ
  | .acquire r => ⟨r :: c.held, r :: c.seen⟩
  | .use _ => c
  | .release r => ⟨c.held.erase r, c.seen⟩

/-- A call acquires what nobody acquired before, and uses or releases what is held. -/
def Holdings.Respects (c : Holdings ρ) : Call ρ → Prop
  | .acquire r => r ∉ c.seen
  | .use r | .release r => r ∈ c.held

/-- What is in custody after a trace. -/
abbrev custody (calls : List (Call ρ)) : Holdings ρ := run Holdings.after Holdings.empty calls

/-- Each call of the trace respects the custody it finds. -/
def Safe (calls : List (Call ρ)) : Prop :=
  EachStep Holdings.after Holdings.Respects Holdings.empty calls

theorem custody_append (calls more : List (Call ρ)) :
    custody (calls ++ more) = run Holdings.after (custody calls) more :=
  run_append _ _ _ _

theorem safe_append (calls more : List (Call ρ)) :
    Safe (calls ++ more) ↔
      Safe calls ∧ EachStep Holdings.after Holdings.Respects (custody calls) more :=
  eachStep_append _ _ _ _ _

/-- Uses leave the custody as it is. -/
theorem after_uses (c : Holdings ρ) (r : ρ) (n : Nat) :
    run Holdings.after c (List.replicate n (.use r)) = c := by
  induction n with
  | zero => rfl
  | succ n ih => exact ih

theorem respects_uses {c : Holdings ρ} {r : ρ} (h : r ∈ c.held) (n : Nat) :
    EachStep Holdings.after Holdings.Respects c (List.replicate n (.use r)) := by
  induction n with
  | zero => trivial
  | succ n ih => exact ⟨h, ih⟩

/-- A resource stays in custody as long as nobody releases it. -/
theorem held_of_unreleased {c : Holdings ρ} {r : ρ} {calls : List (Call ρ)} (h : r ∈ c.held)
    (hno : Call.release r ∉ calls) : r ∈ (run Holdings.after c calls).held := by
  induction calls generalizing c with
  | nil => exact h
  | cons call calls ih =>
    rw [List.mem_cons, not_or] at hno
    apply ih _ hno.2
    cases call with
    | acquire r' => exact List.mem_cons_of_mem r' h
    | use r' => exact h
    | release r' =>
      have hne : r ≠ r' := fun heq => hno.1 (by rw [heq])
      exact (List.mem_erase_of_ne hne).mpr h

theorem seen_of_held (calls : List (Call ρ)) :
    ∀ r ∈ (custody calls).held, r ∈ (custody calls).seen := by
  have keep (c : Holdings ρ) (call : Call ρ) (hc : ∀ r ∈ c.held, r ∈ c.seen) :
      True → ∀ r ∈ (c.after call).held, r ∈ (c.after call).seen := by
    intro _ r hr
    cases call with
    | acquire r' =>
      rcases List.mem_cons.mp hr with rfl | hr
      · exact List.mem_cons_self
      · exact List.mem_cons_of_mem _ (hc r hr)
    | use r' => exact hc r hr
    | release r' => exact hc r (List.mem_of_mem_erase hr)
  exact run_invariant keep (by simp [Holdings.empty]) (eachStep_of_forall fun _ _ => trivial)

theorem seen_of_acquired {calls : List (Call ρ)} {r : ρ} (h : Call.acquire r ∈ calls) :
    r ∈ (custody calls).seen := by
  have keep (c : Holdings ρ) (call : Call ρ) (hc : r ∈ c.seen) : True → r ∈ (c.after call).seen := by
    intro _
    cases call with
    | acquire r' => exact List.mem_cons_of_mem _ hc
    | use r' | release r' => exact hc
  obtain ⟨pre, post, rfl⟩ := List.append_of_mem h
  rw [custody_append, run_cons]
  exact run_invariant keep List.mem_cons_self (eachStep_of_forall fun _ _ => trivial)

/-- A trace does not mind what was acquired before it, if it is nothing that it acquires. -/
theorem respects_of_seen {c d : Holdings ρ} {calls : List (Call ρ)} (hheld : d.held = c.held)
    (hseen : ∀ r, Call.acquire r ∈ calls → r ∈ d.seen → r ∈ c.seen)
    (h : EachStep Holdings.after Holdings.Respects c calls) :
    EachStep Holdings.after Holdings.Respects d calls ∧
      (run Holdings.after d calls).held = (run Holdings.after c calls).held := by
  induction calls generalizing c d with
  | nil => exact ⟨trivial, hheld⟩
  | cons call calls ih =>
    obtain ⟨hfirst, hrest⟩ := h
    have hcall : d.Respects call := by
      cases call with
      | acquire r => exact fun hin => hfirst (hseen r List.mem_cons_self hin)
      | use r | release r =>
        show r ∈ d.held
        rw [hheld]
        exact hfirst
    have hafter : (d.after call).held = (c.after call).held := by
      cases call <;> simp [Holdings.after, hheld]
    have hlater : ∀ r, Call.acquire r ∈ calls →
        r ∈ (d.after call).seen → r ∈ (c.after call).seen := by
      intro r hr hin
      have hbefore := hseen r (List.mem_cons_of_mem _ hr)
      cases call with
      | acquire r' =>
        rcases List.mem_cons.mp hin with rfl | hin
        · exact List.mem_cons_self
        · exact List.mem_cons_of_mem _ (hbefore hin)
      | use r' | release r' => exact hbefore hin
    obtain ⟨hsteps, hend⟩ := ih hafter hlater hrest
    exact ⟨⟨hcall, hsteps⟩, hend⟩

/-- What a safe trace has released and what it still holds is what it acquired, each once. -/
theorem custody_balance {c : Holdings ρ} {calls : List (Call ρ)}
    (h : EachStep Holdings.after Holdings.Respects c calls) :
    (calls.filterMap Call.released? ++ (run Holdings.after c calls).held).Perm
      (calls.filterMap Call.acquired? ++ c.held) ∧
    (c.seen.Nodup → (calls.filterMap Call.acquired?).Nodup ∧
      ∀ r ∈ calls.filterMap Call.acquired?, r ∉ c.seen) := by
  induction calls generalizing c with
  | nil => exact ⟨.refl _, fun _ => ⟨.nil, by simp⟩⟩
  | cons call calls ih =>
    obtain ⟨hperm, hnodup⟩ := ih h.2
    cases call with
    | acquire r =>
      have hfresh : r ∉ c.seen := h.1
      refine ⟨hperm.trans List.perm_middle, ?_⟩
      intro hseen
      obtain ⟨hrest, hnew⟩ := hnodup (List.nodup_cons.mpr ⟨hfresh, hseen⟩)
      refine ⟨List.nodup_cons.mpr ⟨fun hin => hnew r hin List.mem_cons_self, hrest⟩, ?_⟩
      intro r' hin hseen'
      rcases List.mem_cons.mp hin with rfl | hin
      · exact hfresh hseen'
      · exact hnew r' hin (List.mem_cons_of_mem _ hseen')
    | use r => exact ⟨hperm, hnodup⟩
    | release r =>
      have hheld : r ∈ c.held := h.1
      refine ⟨?_, hnodup⟩
      have hback : (r :: (calls.filterMap Call.acquired? ++ c.held.erase r)).Perm
          (calls.filterMap Call.acquired? ++ c.held) :=
        List.perm_middle.symm.trans ((List.perm_cons_erase hheld).symm.append_left _)
      exact (hperm.cons r).trans hback

/-- A safe trace, what it holds at its end, and a predicate that covers all it has acquired. -/
structure Kept (calls : List (Call ρ)) (held : List ρ) (known : ρ → Prop) : Prop where
  safe : Safe calls
  held : (custody calls).held = held
  known : ∀ r ∈ (custody calls).seen, known r

section Kept

variable {calls : List (Call ρ)} {held : List ρ} {known known' : ρ → Prop} {r : ρ}

theorem Kept.nil (known : ρ → Prop) : Kept [] [] known :=
  ⟨trivial, rfl, by simp [custody, Holdings.empty]⟩

theorem Kept.uses (h : Kept calls held known) (hr : r ∈ held) (n : Nat) :
    Kept (calls ++ List.replicate n (.use r)) held known := by
  have hheld : r ∈ (custody calls).held := by rwa [h.held]
  refine ⟨(safe_append _ _).mpr ⟨h.safe, respects_uses hheld n⟩, ?_, ?_⟩
  · rw [custody_append, after_uses, h.held]
  · rw [custody_append, after_uses]
    exact h.known

theorem Kept.use (h : Kept calls held known) (hr : r ∈ held) :
    Kept (calls ++ [.use r]) held known :=
  h.uses hr 1

theorem Kept.acquire (h : Kept calls held known) (hnew : ¬ known r)
    (hle : ∀ r', known r' → known' r') (hr : known' r) :
    Kept (calls ++ [.acquire r]) (r :: held) known' := by
  have hfresh : r ∉ (custody calls).seen := fun hin => hnew (h.known r hin)
  refine ⟨(safe_append _ _).mpr ⟨h.safe, hfresh, trivial⟩, ?_, ?_⟩
  · rw [custody_append, run_cons, run_nil, Holdings.after, h.held]
  · intro r' hin
    rw [custody_append, run_cons, run_nil, Holdings.after, List.mem_cons] at hin
    rcases hin with rfl | hin
    · exact hr
    · exact hle r' (h.known r' hin)

theorem Kept.release (h : Kept calls (r :: held) known) :
    Kept (calls ++ [.release r]) held known := by
  have hheld : r ∈ (custody calls).held := by rw [h.held]; exact List.mem_cons_self
  refine ⟨(safe_append _ _).mpr ⟨h.safe, hheld, trivial⟩, ?_, ?_⟩
  · rw [custody_append, run_cons, run_nil, Holdings.after, h.held, List.erase_cons_head]
  · rw [custody_append]
    exact h.known

end Kept

/-- Each resource of the trace is acquired once, released once, and used only in between. -/
structure Balanced (calls : List (Call ρ)) : Prop where
  safe : Safe calls
  once : (calls.filterMap Call.acquired?).Nodup
  released : (calls.filterMap Call.released?).Perm (calls.filterMap Call.acquired?)

theorem balanced_iff (calls : List (Call ρ)) :
    Balanced calls ↔ Safe calls ∧ (custody calls).held = [] := by
  constructor
  · rintro ⟨hsafe, -, hreleased⟩
    refine ⟨hsafe, ?_⟩
    have hlength := (custody_balance hsafe).1.length_eq
    rw [List.length_append, List.length_append, hreleased.length_eq] at hlength
    exact List.length_eq_zero_iff.mp (Nat.add_left_cancel hlength)
  · rintro ⟨hsafe, hempty⟩
    obtain ⟨hperm, hnodup⟩ := custody_balance hsafe
    refine ⟨hsafe, (hnodup .nil).1, ?_⟩
    rw [hempty] at hperm
    simpa [Holdings.empty] using hperm

/-- Behind a balanced trace a safe one of other resources is safe, and holds what it holds. -/
theorem Balanced.append {pre calls : List (Call ρ)} (hpre : Balanced pre) (h : Safe calls)
    (hother : ∀ r ∈ (custody pre).seen, Call.acquire r ∉ calls) :
    Safe (pre ++ calls) ∧ (custody (pre ++ calls)).held = (custody calls).held := by
  obtain ⟨hsafe, hempty⟩ := (balanced_iff pre).mp hpre
  obtain ⟨hsteps, hheld⟩ := respects_of_seen (d := custody pre) hempty
    (fun r hr hin => absurd hr (hother r hin)) h
  refine ⟨(safe_append _ _).mpr ⟨hsafe, hsteps⟩, ?_⟩
  rw [custody_append]
  exact hheld

end Monitor

end MyTelnet.Base.Custody
