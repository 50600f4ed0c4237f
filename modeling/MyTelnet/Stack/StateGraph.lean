/- module: MyTelnet/Stack/StateGraph
   scope: proofs
   digest: The walk of a connection through its states, and what stays the same on the way. -/

import MyTelnet.Base.Trails
import MyTelnet.Stack.Moves

set_option autoImplicit false
set_option relaxedAutoImplicit false

namespace MyTelnet.Stack.StateGraph

open MyTelnet.Base.ByteOrder MyTelnet.Base.Runs MyTelnet.Base.Trails MyTelnet.Wire.Layers
open MyTelnet.Stack.State MyTelnet.Stack.Send MyTelnet.Stack.Operations MyTelnet.Stack.Run
open MyTelnet.Stack.Effects MyTelnet.Stack.Handshake MyTelnet.Stack.Steps MyTelnet.Stack.Moves

/-- The changes of state that one operation can make. `CLOSE_WAIT` and `TIME_WAIT` are passed
within a call of `process_packet`, and nothing enters `CLOSING`. -/
inductive Edge : TcpState → TcpState → Prop
  | handshake : Edge .synSent .established
  | activeClose : Edge .established .finWait1
  | passiveClose : Edge .established .lastAck
  | finAcked : Edge .finWait1 .finWait2
  | ended {state : TcpState} (before : state ∈ [.synSent, .finWait1, .finWait2, .lastAck]) :
      Edge state .closed

/-- The states between operations. -/
def Walked (state : TcpState) : Prop :=
  state ∈ [.synSent, .established, .finWait1, .finWait2, .lastAck, .closed]

/-- How far a connection has come. -/
def rank : TcpState → Nat
  | .synSent => 0
  | .established => 1
  | .finWait1 => 2
  | .finWait2 | .lastAck => 3
  | _ => 4

theorem Edge.climbs (state state' : TcpState) (h : Edge state state') :
    rank state < rank state' ∧ rank state' ≤ 4 := by
  cases h with
  | ended before => cases state <;> simp_all [rank]
  | _ => decide

theorem Edge.walked {state state' : TcpState} (h : Edge state state') : Walked state' := by
  cases h <;> simp [Walked]

theorem edge_or_closed {state : TcpState} (h : Walked state) (hest : state ≠ .established) :
    .closed = state ∨ Edge state .closed := by
  cases state with
  | closed => exact .inl rfl
  | synSent | finWait1 | finWait2 | lastAck => exact .inr (.ended (by simp))
  | established => exact absurd rfl hest
  | closeWait | timeWait | closing => simp [Walked] at h

/-- What a connection is from `connect` on. -/
def identity (conn : TcpConnection) : UInt32 × UInt16 × UInt32 × UInt16 :=
  (conn.localIp, conn.localPort, conn.remoteIp, conn.windowSize)

theorem identity_advanceSeq (conn : TcpConnection) (flags : UInt16) (payload : Bytes) :
    identity (advanceSeq conn flags payload) = identity conn := by
  rw [advanceSeq_same conn flags payload]
  rfl

theorem Sent.identity {conn conn' : TcpConnection} {flags : UInt16} {payload : Bytes}
    {events : List Event} (h : Sent conn flags payload events conn') :
    identity conn' = identity conn := by
  cases h with
  | failed => rfl
  | injected => exact identity_advanceSeq conn flags payload

section Moves

variable {s : TcpStack} {conn conn' : TcpConnection} {a : Action} {events : List Event}

theorem Move.identity (h : Move s conn a events conn') : identity conn' = identity conn := by
  cases h with
  | resentSyn state sends => exact Sent.identity sends
  | sentData => exact identity_advanceSeq conn _ _
  | data matched state flags payload sends =>
    have hsent := Sent.identity sends
    exact hsent
  | passiveClose matched state flags acks fins =>
    have hacked := Sent.identity acks
    have hfinned := Sent.identity fins
    exact hfinned.trans hacked
  | activeClose matched state flags acks =>
    have hacked := Sent.identity acks
    exact hacked
  | _ => rfl

/-- Each move stays in its state or follows an edge. -/
theorem Move.edge (h : Move s conn a events conn') (hw : Walked conn.state) :
    conn'.state = conn.state ∨ Edge conn.state conn'.state := by
  cases h with
  | idle | popped | unsent | ignored | unanswered => exact .inl rfl
  | resentSyn state sends => exact .inl (Sent.state sends)
  | sentData =>
    rw [advanceSeq_same conn _ _]
    exact .inl rfl
  | finSent state =>
    rw [state]
    exact .inr .activeClose
  | dropped state => exact edge_or_closed hw state
  | opened matched state =>
    rw [state]
    exact .inr .handshake
  | data matched state flags payload sends =>
    have hsent := Sent.state sends
    exact .inl hsent
  | passiveClose matched state =>
    rw [state]
    exact .inr .passiveClose
  | finAcked matched state =>
    rw [state]
    exact .inr .finAcked
  | activeClose matched state =>
    apply edge_or_closed hw
    rcases state with ⟨h, -⟩ | h
    · simp [h]
    · simp [h]
  | finalAck matched state =>
    apply edge_or_closed hw
    simp [state]

end Moves

/-! A whole life. -/

/-- The object that a successful `connect` leaves has come to `s`. -/
def Continues (conn : TcpConnection) (s : TcpStack) : Prop :=
  ∃ conn', s.currentConnection = some conn' ∧ identity conn' = identity conn ∧ Walked conn'.state

theorem Continues.step {conn : TcpConnection} {s : TcpStack} {a : Action} (h : Continues conn s)
    (ha : a.keepsConnection = true) :
    Continues conn (step s a) ∧ (getConnectionState (step s a) = getConnectionState s ∨
      Edge (getConnectionState s) (getConnectionState (step s a))) := by
  obtain ⟨conn₁, hc₁, hsame, hwalked⟩ := h
  obtain ⟨events, conn₂, hmove, hc₂, -⟩ := step_moves hc₁ ha
  have hedge := Move.edge hmove hwalked
  rw [getConnectionState_some hc₁, getConnectionState_some hc₂]
  refine ⟨⟨conn₂, hc₂, (Move.identity hmove).trans hsame, ?_⟩, hedge⟩
  rcases hedge with hstay | hedge
  · rw [hstay]
    exact hwalked
  · exact hedge.walked

/-- Whatever is received and called, a connection keeps its identity, walks along the edges and is
in at most five states. -/
theorem connection_walks {s : TcpStack} {conn : TcpConnection} {acts : List Action}
    (hc : s.currentConnection = some conn) (hstate : conn.state = .synSent)
    (ha : ∀ a ∈ acts, a.keepsConnection = true) :
    Continues conn (runStack s acts) ∧
      (trail step getConnectionState s acts).IsChain Edge ∧
      (trail step getConnectionState s acts).getLast? =
        some (getConnectionState (runStack s acts)) ∧
      (trail step getConnectionState s acts).length ≤ 5 := by
  have hstart : Continues conn s := ⟨conn, hc, rfl, by simp [hstate, Walked]⟩
  have hkeeps : EachStep step (fun _ a => a.keepsConnection = true) s acts :=
    eachStep_of_forall ha
  have hchain : (trail step getConnectionState s acts).IsChain Edge :=
    trail_isChain (fun _ _ h h' => (h.step h').1) (fun _ _ h h' => (h.step h').2) hstart hkeeps
  refine ⟨run_invariant (fun _ _ h h' => (h.step h').1) hstart hkeeps, hchain, trail_getLast?, ?_⟩
  have hlow : rank (getConnectionState s) = 0 := by
    rw [getConnectionState_some hc, hstate]
    rfl
  have hlength := length_of_ranked Edge.climbs (by rw [hlow]; exact Nat.zero_le 4) hchain
  rw [hlow] at hlength
  exact Nat.succ_le_succ hlength

theorem connection_walks_sample :
    Continues sampleConnection (runStack sampleAttempt [sampleReply, .closeConnection 54]) ∧
      (trail step getConnectionState sampleAttempt
        [sampleReply, .closeConnection 54]).IsChain Edge ∧
      (trail step getConnectionState sampleAttempt [sampleReply, .closeConnection 54]).getLast? =
        some (getConnectionState (runStack sampleAttempt [sampleReply, .closeConnection 54])) ∧
      (trail step getConnectionState sampleAttempt
        [sampleReply, .closeConnection 54]).length ≤ 5 :=
  connection_walks (by decide +kernel) rfl (by decide)

end MyTelnet.Stack.StateGraph
