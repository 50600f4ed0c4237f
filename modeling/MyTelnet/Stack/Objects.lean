/- module: MyTelnet/Stack/Objects
   scope: proofs
   digest: What happened to each connection object of a run, and invariants of its record. -/

import MyTelnet.Base.Sections
import MyTelnet.Stack.Moves

set_option autoImplicit false
set_option relaxedAutoImplicit false

namespace MyTelnet.Stack.Objects

open MyTelnet.Base.ByteOrder MyTelnet.Base.Runs MyTelnet.Base.Sections MyTelnet.Wire.Layers
open MyTelnet.Stack.State MyTelnet.Stack.Run MyTelnet.Stack.Frames MyTelnet.Stack.Moves

/-- A stack that has done nothing yet, whatever its addresses and handlers. -/
structure Unused (s : TcpStack) : Prop where
  connection : s.currentConnection = none
  queue : s.dataQueue = []
  trace : s.trace = []

def isOpened (e : Event) : Bool := e == .opened

/-- The records of the connection objects, oldest first: what happened from the creation of each
up to that of the next. -/
def objects (s : TcpStack) : List (List Event) := (s.trace.splitOnP isOpened).tail

/-- The record of the latest connection object. -/
def latestObject (s : TcpStack) : List Event := lastSection isOpened s.trace

theorem notice_unopened {installed : Bool} {e : Event} (he : isOpened e = false) :
    ∀ e' ∈ notice installed e, isOpened e' = false := by
  intro e' hmem
  cases installed with
  | true => rwa [List.mem_singleton.mp hmem]
  | false => simp [notice] at hmem

theorem Sent.unopened {conn conn' : TcpConnection} {flags : UInt16} {payload : Bytes}
    {events : List Event} (h : Sent conn flags payload events conn') :
    ∀ e ∈ events, isOpened e = false := by
  cases h with
  | failed => simp
  | injected => simp [isOpened]

theorem Move.unopened {s : TcpStack} {conn conn' : TcpConnection} {a : Action}
    {events : List Event} (h : Move s conn a events conn') :
    ∀ e ∈ events, isOpened e = false := by
  cases h with
  | idle | unsent | dropped | ignored | unanswered | finAcked => simp
  | popped | sentData | finSent => simp [isOpened]
  | resentSyn state sends => exact Sent.unopened sends
  | opened =>
    rw [List.forall_mem_cons]
    exact ⟨rfl, notice_unopened rfl⟩
  | data matched state flags payload sends =>
    rw [List.forall_mem_append, List.forall_mem_cons]
    exact ⟨Sent.unopened sends, rfl, notice_unopened rfl⟩
  | passiveClose matched state flags acks fins =>
    rw [List.forall_mem_append, List.forall_mem_cons]
    exact ⟨⟨rfl, Sent.unopened acks⟩, Sent.unopened fins⟩
  | activeClose matched state flags acks =>
    rw [List.forall_mem_append, List.forall_mem_cons]
    exact ⟨⟨rfl, Sent.unopened acks⟩, notice_unopened rfl⟩
  | finalAck => exact notice_unopened rfl

/-- `P` of the records of finished objects and `Q` of the latest one, given its connection, are
kept by every move. `Amb` is what the moves may rely on. -/
structure ObjectInvariant (Amb : TcpStack → Prop) (P : List Event → Prop)
    (Q : Option TcpConnection → List Event → Prop) : Prop where
  amb : ∀ s a, Amb s → Amb (step s a)
  done : ∀ connection record, Q connection record → P record
  absent : Q none []
  taken : ∀ record data, Q none record → Q none (record ++ [.taken data])
  connected : ∀ conn frame, FrameOf conn tcpSyn [] frame →
    Q (some { conn with seqNum := conn.seqNum + 1, state := .synSent }) [.injected frame]
  moved : ∀ s conn a events conn' record, Amb s → Move s conn a events conn' →
    Q (some conn) record → Q (some conn') (record ++ events)

section Invariant

variable {Amb : TcpStack → Prop} {P : List Event → Prop}
variable {Q : Option TcpConnection → List Event → Prop} {s : TcpStack}

/-- The records so far meet the invariant. -/
def Kept (P : List Event → Prop) (Q : Option TcpConnection → List Event → Prop) (s : TcpStack) :
    Prop :=
  Recorded isOpened P (Q s.currentConnection) s.trace

theorem ObjectInvariant.takes (h : ObjectInvariant Amb P Q) {record events : List Event}
    (hq : Q none record) (htaken : ∀ e ∈ events, ∃ data, e = .taken data) :
    Q none (record ++ events) := by
  induction events generalizing record with
  | nil =>
    rw [List.append_nil]
    exact hq
  | cons e events ih =>
    rw [List.forall_mem_cons] at htaken
    obtain ⟨⟨data, rfl⟩, hrest⟩ := htaken
    rw [List.append_cons]
    exact ih (h.taken record data hq) hrest

theorem ObjectInvariant.step (h : ObjectInvariant Amb P Q) (a : Action) (hamb : Amb s)
    (hs : Kept P Q s) : Kept P Q (Run.step s a) := by
  obtain ⟨connection, events, hstage, hconn, htrace⟩ := step_stage s a
  unfold Kept at hs ⊢
  rw [hconn, htrace]
  have hdone := h.done s.currentConnection
  cases hstage with
  | moved installed keeps move =>
    rw [installed] at hs
    apply Recorded.append hs (Move.unopened move)
    intro record hq
    exact h.moved s _ a events _ record hamb move hq
  | alone absent keeps taken =>
    rw [absent] at hs
    apply Recorded.append hs
    · intro e hmem
      obtain ⟨data, rfl⟩ := taken e hmem
      rfl
    · intro record hq
      exact h.takes hq taken
  | refused =>
    rw [List.append_nil]
    exact hs
  | failed => exact Recorded.snocMark hs rfl hdone h.absent
  | @connected _ _ _ _ _ _ conn frame handle built =>
    have hopened : Recorded isOpened P (· = []) (s.trace ++ [.opened]) :=
      Recorded.snocMark hs rfl hdone rfl
    rw [List.append_cons]
    apply Recorded.append hopened
    · simp [isOpened]
    · rintro record rfl
      exact h.connected conn frame built

theorem ObjectInvariant.run (h : ObjectInvariant Amb P Q) (hs : Unused s) (hamb : Amb s)
    (acts : List Action) : Amb (runStack s acts) ∧ Kept P Q (runStack s acts) := by
  have hstart : Kept P Q s := by
    unfold Kept
    rw [hs.connection, hs.trace]
    exact Recorded.start h.absent
  have hkeep : ∀ t a, Amb t ∧ Kept P Q t → True → Amb (Run.step t a) ∧ Kept P Q (Run.step t a) := by
    rintro t a ⟨ht, hk⟩ -
    exact ⟨h.amb t a ht, h.step a ht hk⟩
  exact run_invariant hkeep ⟨hamb, hstart⟩ (eachStep_of_forall fun _ _ => trivial)

/-- What a kept invariant says of all the objects. -/
theorem ObjectInvariant.objects (h : ObjectInvariant Amb P Q) (hs : Kept P Q s) :
    ∀ record ∈ objects s, P record := by
  intro record hmem
  exact Recorded.forall hs (h.done _) record (List.mem_of_mem_tail hmem)

/-- What it says of the latest one. -/
theorem Kept.latest (hs : Kept P Q s) : Q s.currentConnection (latestObject s) :=
  Recorded.last hs

end Invariant

end MyTelnet.Stack.Objects
