/- module: MyTelnet/Base/Pipes
   scope: library
   digest: A byte pipe whose content is conserved, and chunks labelled by where they start in it. -/

import Mathlib.Data.List.Basic
import Mathlib.Tactic.Common

set_option autoImplicit false
set_option relaxedAutoImplicit false

namespace MyTelnet.Base.Pipes

variable {α β : Type*}

/-- A lossless one-way pipe: what went in is what came out and, behind it, what is on its way. -/
structure Pipe (α : Type*) where
  sent : List α
  delivered : List α
  inFlight : List (List α)
  conserved : sent = delivered ++ inFlight.flatten

def Pipe.empty (α : Type*) : Pipe α := ⟨[], [], [], rfl⟩

def Pipe.push (p : Pipe α) (chunk : List α) : Pipe α :=
  ⟨p.sent ++ chunk, p.delivered, p.inFlight ++ [chunk], by
    rw [p.conserved, List.append_assoc, List.flatten_append, List.flatten_singleton]⟩

def Pipe.shift (p : Pipe α) {chunk : List α} {rest : List (List α)}
    (h : p.inFlight = chunk :: rest) : Pipe α :=
  ⟨p.sent, p.delivered ++ chunk, rest, by
    rw [p.conserved, h, List.flatten_cons, List.append_assoc]⟩

@[simp] theorem Pipe.push_sent (p : Pipe α) (chunk : List α) :
    (p.push chunk).sent = p.sent ++ chunk := rfl
@[simp] theorem Pipe.push_delivered (p : Pipe α) (chunk : List α) :
    (p.push chunk).delivered = p.delivered := rfl
@[simp] theorem Pipe.push_inFlight (p : Pipe α) (chunk : List α) :
    (p.push chunk).inFlight = p.inFlight ++ [chunk] := rfl

theorem Pipe.length_eq (p : Pipe α) :
    p.sent.length = p.delivered.length + p.inFlight.flatten.length := by
  rw [p.conserved, List.length_append]

/-- Every item is at the position where those before it end, the first one at `pos`. -/
def Labelled (placed : Nat → β → Prop) (content : β → List α) : Nat → List β → Prop
  | _, [] => True
  | pos, item :: items =>
    placed pos item ∧ Labelled placed content (pos + (content item).length) items

theorem labelled_snoc (placed : Nat → β → Prop) (content : β → List α) (pos : Nat)
    (items : List β) (item : β) :
    Labelled placed content pos (items ++ [item]) ↔
      Labelled placed content pos items ∧
        placed (pos + (items.map content).flatten.length) item := by
  induction items generalizing pos with
  | nil => simp [Labelled]
  | cons first items ih => simp [Labelled, ih, and_assoc, Nat.add_assoc]

end MyTelnet.Base.Pipes
