/- module: MyTelnet/Base/Runs
   scope: library
   digest: Runs of a deterministic step function, with step conditions and erasure of idle steps. -/

import Mathlib.Data.List.Infix

set_option autoImplicit false
set_option relaxedAutoImplicit false

namespace MyTelnet.Base.Runs

variable {σ α : Type*}

/-- The state after a finite sequence of actions. -/
def run (step : σ → α → σ) (s : σ) (acts : List α) : σ := acts.foldl step s

/-- Every action of the run meets `C` in the state it starts from. -/
def EachStep (step : σ → α → σ) (C : σ → α → Prop) : σ → List α → Prop
  | _, [] => True
  | s, a :: acts => C s a ∧ EachStep step C (step s a) acts

@[simp] theorem run_nil (step : σ → α → σ) (s : σ) : run step s [] = s := rfl

@[simp] theorem run_cons (step : σ → α → σ) (s : σ) (a : α) (acts : List α) :
    run step s (a :: acts) = run step (step s a) acts := rfl

theorem run_append (step : σ → α → σ) (s : σ) (acts more : List α) :
    run step s (acts ++ more) = run step (run step s acts) more :=
  List.foldl_append

theorem run_snoc (step : σ → α → σ) (s : σ) (acts : List α) (a : α) :
    run step s (acts ++ [a]) = step (run step s acts) a := by
  rw [run_append, run_cons, run_nil]

@[simp] theorem eachStep_nil (step : σ → α → σ) (C : σ → α → Prop) (s : σ) :
    EachStep step C s [] := trivial

@[simp] theorem eachStep_cons (step : σ → α → σ) (C : σ → α → Prop) (s : σ) (a : α)
    (acts : List α) :
    EachStep step C s (a :: acts) ↔ C s a ∧ EachStep step C (step s a) acts := Iff.rfl

instance decidableEachStep (step : σ → α → σ) (C : σ → α → Prop) [∀ s a, Decidable (C s a)] :
    ∀ s acts, Decidable (EachStep step C s acts)
  | _, [] => .isTrue trivial
  | s, a :: acts =>
    have := decidableEachStep step C (step s a) acts
    inferInstanceAs (Decidable (C s a ∧ EachStep step C (step s a) acts))

theorem eachStep_append (step : σ → α → σ) (C : σ → α → Prop) (s : σ) (acts more : List α) :
    EachStep step C s (acts ++ more) ↔
      EachStep step C s acts ∧ EachStep step C (run step s acts) more := by
  induction acts generalizing s with
  | nil => simp
  | cons a acts ih => simp [ih, and_assoc]

theorem EachStep.of_prefix {step : σ → α → σ} {C : σ → α → Prop} {s : σ} {pre acts : List α}
    (hp : pre <+: acts) (h : EachStep step C s acts) : EachStep step C s pre := by
  obtain ⟨more, rfl⟩ := hp
  exact ((eachStep_append step C s pre more).mp h).1

theorem EachStep.and {step : σ → α → σ} {C D : σ → α → Prop} {s : σ} {acts : List α}
    (h : EachStep step C s acts) (h' : EachStep step D s acts) :
    EachStep step (fun t a => C t a ∧ D t a) s acts := by
  induction acts generalizing s with
  | nil => trivial
  | cons a acts ih => exact ⟨⟨h.1, h'.1⟩, ih h.2 h'.2⟩

theorem EachStep.imp {step : σ → α → σ} {C D : σ → α → Prop} {s : σ} {acts : List α}
    (h : EachStep step C s acts) (himp : ∀ s a, C s a → D s a) : EachStep step D s acts := by
  induction acts generalizing s with
  | nil => trivial
  | cons a acts ih => exact ⟨himp s a h.1, ih h.2⟩

theorem eachStep_of_forall {step : σ → α → σ} {p : α → Prop} {s : σ} {acts : List α}
    (h : ∀ a ∈ acts, p a) : EachStep step (fun _ a => p a) s acts := by
  induction acts generalizing s with
  | nil => trivial
  | cons a acts ih =>
    rw [List.forall_mem_cons] at h
    exact ⟨h.1, ih h.2⟩

/-- The condition at every split of the run, which is how statements about a run read it. -/
theorem eachStep_iff (step : σ → α → σ) (C : σ → α → Prop) (s : σ) (acts : List α) :
    EachStep step C s acts ↔ ∀ pre a, pre ++ [a] <+: acts → C (run step s pre) a := by
  induction acts generalizing s with
  | nil => simp
  | cons b acts ih =>
    rw [eachStep_cons, ih]
    constructor
    · rintro ⟨hb, htail⟩ pre a hp
      cases pre with
      | nil =>
        have hab : a = b := by simpa using hp
        exact hab ▸ hb
      | cons c pre =>
        rw [List.cons_append, List.cons_prefix_cons] at hp
        obtain ⟨rfl, hrest⟩ := hp
        exact htail pre a hrest
    · intro h
      refine ⟨h [] b (by simp), ?_⟩
      intro pre a hp
      exact h (b :: pre) a (List.cons_prefix_cons.mpr ⟨rfl, hp⟩)

/-- The induction behind every invariant: kept by the steps that meet `C`, it holds at the end
of a run all of whose steps do. -/
theorem run_invariant {step : σ → α → σ} {C : σ → α → Prop} {Inv : σ → Prop}
    (keep : ∀ s a, Inv s → C s a → Inv (step s a)) {s : σ} {acts : List α}
    (h0 : Inv s) (hC : EachStep step C s acts) : Inv (run step s acts) := by
  induction acts generalizing s with
  | nil => exact h0
  | cons a acts ih => exact ih (keep s a h0 hC.1) hC.2

/-- Where a step keeps `Inv` exactly if it meets `C`, a run keeps `Inv` in every state it reaches
exactly if all its steps meet `C`. `Amb` holds without any condition. -/
theorem invariant_iff_eachStep {step : σ → α → σ} {Amb Inv : σ → Prop} {C : σ → α → Prop}
    {p : α → Prop} (amb : ∀ s a, Amb s → p a → Amb (step s a))
    (exact : ∀ s a, Amb s → p a → Inv s → (Inv (step s a) ↔ C s a))
    {s : σ} {acts : List α} (hs : Amb s) (h0 : Inv s) (hp : ∀ a ∈ acts, p a) :
    (∀ pre, pre <+: acts → Inv (run step s pre)) ↔ EachStep step C s acts := by
  induction acts generalizing s with
  | nil =>
    refine ⟨fun _ => trivial, ?_⟩
    intro _ pre hpre
    rw [List.prefix_nil.mp hpre]
    exact h0
  | cons a acts ih =>
    rw [List.forall_mem_cons] at hp
    have hstep := exact s a hs hp.1 h0
    constructor
    · intro h
      have h1 : Inv (step s a) := h [a] (by simp)
      refine ⟨hstep.mp h1, (ih (amb s a hs hp.1) h1 hp.2).mp fun pre hpre => ?_⟩
      exact h (a :: pre) (List.cons_prefix_cons.mpr ⟨rfl, hpre⟩)
    · rintro ⟨hC, htail⟩ pre hpre
      cases pre with
      | nil => exact h0
      | cons b pre =>
        obtain ⟨rfl, hrest⟩ := List.cons_prefix_cons.mp hpre
        exact (ih (amb s b hs hp.1) (hstep.mpr hC) hp.2).mpr htail pre hrest

/-- What the steps of a run put out, in order. -/
def collect {β : Type*} (step : σ → α → σ) (out : σ → α → List β) : σ → List α → List β
  | _, [] => []
  | s, a :: acts => out s a ++ collect step out (step s a) acts

theorem collect_eq_nil {β : Type*} {step : σ → α → σ} {out : σ → α → List β} {acts : List α}
    (h : ∀ s, ∀ a ∈ acts, out s a = []) (s : σ) : collect step out s acts = [] := by
  induction acts generalizing s with
  | nil => rfl
  | cons a acts ih =>
    rw [collect, h s a (by simp), List.nil_append]
    exact ih (fun s b hb => h s b (by simp [hb])) _

/-- The induction behind an invariant of the state and of what the run has put out so far. -/
theorem collect_invariant {β : Type*} {step : σ → α → σ} {out : σ → α → List β}
    {Inv : σ → List β → Prop}
    (keep : ∀ s a outs, Inv s outs → Inv (step s a) (outs ++ out s a)) {s : σ} {acts : List α}
    {outs : List β} (h : Inv s outs) : Inv (run step s acts) (outs ++ collect step out s acts) := by
  induction acts generalizing s outs with
  | nil => simpa [collect] using h
  | cons a acts ih =>
    rw [collect, ← List.append_assoc]
    exact ih (keep s a outs h)

/-- Where each step passes on what it takes in or keeps it for the next, so does a run. -/
theorem collect_balance {β : Type*} {step : σ → α → σ} {taken passed : σ → α → List β}
    {kept : σ → List β} {Inv : σ → Prop} {C : σ → α → Prop}
    (keep : ∀ s a, Inv s → C s a → Inv (step s a))
    (balance : ∀ s a, Inv s → C s a → kept s ++ taken s a = passed s a ++ kept (step s a))
    {s : σ} {acts : List α} (hs : Inv s) (hC : EachStep step C s acts) :
    kept s ++ collect step taken s acts =
      collect step passed s acts ++ kept (run step s acts) := by
  induction acts generalizing s with
  | nil => simp [collect]
  | cons a acts ih =>
    rw [collect, collect, ← List.append_assoc, balance s a hs hC.1, List.append_assoc,
      ih (keep s a hs hC.1) hC.2, List.append_assoc]
    rfl

/-- `kept` is `acts` with some of its `drop` actions deleted. -/
inductive Erased (drop : α → Prop) : List α → List α → Prop
  | nil : Erased drop [] []
  | keep (a : α) {acts kept : List α} (tail : Erased drop acts kept) :
      Erased drop (a :: acts) (a :: kept)
  | erase {a : α} {acts kept : List α} (here : drop a) (tail : Erased drop acts kept) :
      Erased drop (a :: acts) kept

theorem Erased.refl (drop : α → Prop) (acts : List α) : Erased drop acts acts := by
  induction acts with
  | nil => exact .nil
  | cons a acts ih => exact .keep a ih

theorem Erased.last {drop : α → Prop} {a : α} (h : drop a) (acts : List α) :
    Erased drop (acts ++ [a]) acts := by
  induction acts with
  | nil => exact .erase h .nil
  | cons b acts ih => exact .keep b ih

/-- Deleting actions that do nothing where they stand leaves the final state. -/
theorem run_erased {step : σ → α → σ} {drop : α → Prop} {s : σ} {acts kept : List α}
    (hidle : EachStep step (fun t a => drop a → step t a = t) s acts)
    (h : Erased drop acts kept) : run step s kept = run step s acts := by
  induction h generalizing s with
  | nil => rfl
  | keep a _ ih => exact ih hidle.2
  | erase here _ ih =>
    have hnext := ih hidle.2
    rw [hidle.1 here] at hnext
    rw [run_cons, hidle.1 here]
    exact hnext

/-- An observation that sees every `drop` action outside `C`, while those in `C` do nothing,
cannot tell the states of a run from those of its erasures exactly if all its `drop` actions
are in `C`. -/
theorem erasable_iff_eachStep {ω : Type*} {step : σ → α → σ} {Amb : σ → Prop} {p drop : α → Prop}
    {C : σ → α → Prop} {obs : σ → ω} (amb : ∀ s a, Amb s → p a → Amb (step s a))
    (idle : ∀ s a, Amb s → drop a → C s a → step s a = s)
    (seen : ∀ s a, Amb s → drop a → ¬ C s a → obs (step s a) ≠ obs s)
    {s : σ} {acts : List α} (hs : Amb s) (hp : ∀ a ∈ acts, p a) :
    (∀ pre kept, pre <+: acts → Erased drop pre kept →
        obs (run step s pre) = obs (run step s kept)) ↔
      EachStep step (fun t a => drop a → C t a) s acts := by
  have hamb : ∀ pre, pre <+: acts → Amb (run step s pre) := fun pre hpre =>
    run_invariant amb hs (eachStep_of_forall fun a ha => hp a (hpre.subset ha))
  rw [eachStep_iff]
  constructor
  · intro h pre a hpre hdrop
    by_contra hno
    have hpre' : pre <+: acts := (List.prefix_append pre [a]).trans hpre
    have heq := h (pre ++ [a]) pre hpre (Erased.last hdrop pre)
    rw [run_snoc] at heq
    exact seen _ a (hamb pre hpre') hdrop hno heq
  · intro h pre kept hpre herased
    have hidle : EachStep step (fun t a => drop a → step t a = t) s pre := by
      rw [eachStep_iff]
      intro pre' a hpre' hdrop
      have hin := hpre'.trans hpre
      have hin' : pre' <+: acts := (List.prefix_append pre' [a]).trans hin
      exact idle _ a (hamb pre' hin') hdrop (h pre' a hin hdrop)
    rw [run_erased hidle herased]

end MyTelnet.Base.Runs
