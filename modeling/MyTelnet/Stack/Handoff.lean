/- module: MyTelnet/Stack/Handoff
   scope: proofs
   digest: From the capture thread to the user: what wait_for_data returns, and from which connection. -/

import MyTelnet.Stack.Moves
import MyTelnet.Stack.Stream

set_option autoImplicit false
set_option relaxedAutoImplicit false

namespace MyTelnet.Stack.Handoff

open MyTelnet.Base.ByteOrder MyTelnet.Base.Runs MyTelnet.Wire.Layers
open MyTelnet.Stack.State MyTelnet.Stack.Operations MyTelnet.Stack.Receive MyTelnet.Stack.Run
open MyTelnet.Stack.Effects MyTelnet.Stack.Reactions MyTelnet.Stack.Steps
open MyTelnet.Stack.Handshake MyTelnet.Stack.Stream MyTelnet.Stack.Moves

/-- The vector that a call of `wait_for_data` returns. -/
def returned (s : TcpStack) : Action → List Bytes
  | .waitForData => (waitForData s).2.toList
  | _ => []

/-- The payload of an arriving packet that is data of the established connection. -/
def arrived (s : TcpStack) : Action → List Bytes
  | .processPacket packet _ =>
    match packet.tcp with
    | some tcp =>
      if getConnectionState s == .established && isPacketForConnection s packet && tcp.isPsh &&
          tcp.isAck && !tcp.payload.isEmpty
        then [tcp.payload] else []
    | none => []
  | _ => []

/-- The payload that the reaction pushes is the one that the packet's flags promise. -/
theorem pushed_eq (state : TcpState) (tcp : TcpParser) :
    (reactionOf state tcp).pushed tcp =
      if state == .established && tcp.isPsh && tcp.isAck && !tcp.payload.isEmpty
        then [tcp.payload] else [] := by
  cases hr : reactionOf state tcp with
  | data =>
    obtain ⟨hs, ⟨hpsh, hack⟩, hpayload⟩ := reactionOf_takesData hr
    simp [Reaction.pushed, hs, hpsh, hack, hpayload]
  | _ =>
    have hno :
        (state == .established && tcp.isPsh && tcp.isAck && !tcp.payload.isEmpty) = false := by
      by_contra hyes
      simp only [Bool.not_eq_false, Bool.and_eq_true, beq_iff_eq, Bool.not_eq_true',
        List.isEmpty_eq_false_iff] at hyes
      obtain ⟨⟨⟨hs, hpsh⟩, hack⟩, hpayload⟩ := hyes
      have hpos : tcp.payloadLength > 0 := List.length_pos_iff.mpr hpayload
      rw [hs] at hr
      simp only [reactionOf, hpsh, hack, Bool.and_self, if_true, if_pos hpos] at hr
      exact absurd hr (by simp)
    rw [hno]
    rfl

theorem arrived_processPacket (s : TcpStack) (packet : Packet) (sent : Nat → Int) :
    (processPacket s packet sent).dataQueue =
      s.dataQueue ++ arrived s (.processPacket packet sent) := by
  cases hr : received s packet with
  | none =>
    have hnone : arrived s (.processPacket packet sent) = [] := by
      cases ht : packet.tcp with
      | none => simp [arrived, ht]
      | some tcp =>
        have hno : isPacketForConnection s packet = false := by
          by_contra hyes
          rw [Bool.not_eq_false] at hyes
          obtain ⟨ip, tcp', conn, -, -, hc⟩ := isPacketForConnection_some hyes
          simp [received, hyes, hc, ht] at hr
        simp [arrived, ht, hno]
    rw [processPacket_none sent hr, hnone, List.append_nil]
  | some pair =>
    obtain ⟨conn, tcp⟩ := pair
    obtain ⟨hmatch, hc, ht⟩ := received_some hr
    rw [processPacket_received sent hr, perform_dataQueue s tcp sent _ hc, pushed_eq]
    simp only [arrived, ht, hmatch, getConnectionState_some hc, Bool.and_true]

/-- The other operations leave the queue alone. -/
theorem step_dataQueue_local {s : TcpStack} {a : Action} (ha : a.keepsConnection = true)
    (hwait : a ≠ .waitForData) (hpacket : ∀ packet sent, a ≠ .processPacket packet sent) :
    (step s a).dataQueue = s.dataQueue := by
  cases hc : s.currentConnection with
  | none =>
    rcases step_alone hc ha with h | ⟨data, rest, h, -⟩
    · exact congrArg (·.dataQueue) h
    · exact absurd h hwait
  | some conn =>
    have houtcome := step_outcome hc ha
    generalize step s a = s' at houtcome
    cases houtcome with
    | popped => exact absurd rfl hwait
    | @reacted packet sent => exact absurd rfl (hpacket packet sent)
    | idle => rfl
    | resentSyn | sentData | finNotSent | finSent | dropped => simp

/-- What a step takes from the front of the queue and puts at its end. -/
theorem handoff_step (s : TcpStack) (a : Action) :
    returned s a ++ (step s a).dataQueue = s.dataQueue ++ arrived s a := by
  cases a with
  | connect remoteIp remotePort localPort iss filterSet sent =>
    have hqueue : (connect s remoteIp remotePort localPort iss filterSet sent).1.dataQueue =
        s.dataQueue := by
      rcases connect_cases s remoteIp remotePort localPort iss filterSet sent with
        h | ⟨id, h⟩ | ⟨-, h⟩
      · rw [h]
      · rw [h]
        rfl
      · rw [h]
        rfl
    exact hqueue.trans (List.append_nil _).symm
  | waitForData =>
    cases hq : s.dataQueue with
    | nil => simp [returned, arrived, step, waitForData, hq]
    | cons data rest => simp [returned, arrived, step, waitForData, hq]
  | processPacket packet sent => exact arrived_processPacket s packet sent
  | waitForConnectionPass | sendData | closeConnection =>
    apply Eq.trans _ (List.append_nil _).symm
    exact step_dataQueue_local rfl (by simp) (by simp)

/-- What was returned, and behind it the queue, is what was there and what arrived. -/
theorem handoff_run (s : TcpStack) (acts : List Action) :
    collect step returned s acts ++ (runStack s acts).dataQueue =
      s.dataQueue ++ collect step arrived s acts := by
  induction acts generalizing s with
  | nil => exact (List.append_nil _).symm
  | cons a acts ih =>
    rw [collect, collect, List.append_assoc]
    show returned s a ++ (collect step returned (step s a) acts ++
      (runStack (step s a) acts).dataQueue) = _
    rw [ih, ← List.append_assoc, handoff_step, List.append_assoc]

theorem collect_arrived_ne_nil (s : TcpStack) (acts : List Action) :
    ∀ v ∈ collect step arrived s acts, v ≠ [] := by
  induction acts generalizing s with
  | nil => simp [collect]
  | cons a acts ih =>
    rw [collect, List.forall_mem_append]
    refine ⟨?_, ih (step s a)⟩
    intro v hv
    cases a with
    | processPacket packet sent =>
      simp only [arrived] at hv
      split at hv
      · split at hv
        · next h =>
          obtain rfl := List.mem_singleton.mp hv
          simp only [Bool.and_eq_true, Bool.not_eq_true', List.isEmpty_eq_false_iff] at h
          exact h.2
        · simp at hv
      · simp at hv
    | _ => simp [arrived] at hv

/-- In every run of a stack whose queue is empty at first, the vectors that `wait_for_data`
returns and the queue behind them are the payloads that arrived, in order, and none is empty. -/
theorem handoff_lossless {s : TcpStack} (h : s.dataQueue = []) (acts : List Action) :
    collect step returned s acts ++ (runStack s acts).dataQueue = collect step arrived s acts ∧
      ∀ v ∈ collect step returned s acts ++ (runStack s acts).dataQueue, v ≠ [] := by
  have hrun := handoff_run s acts
  rw [h, List.nil_append] at hrun
  rw [hrun]
  exact ⟨rfl, collect_arrived_ne_nil s acts⟩

def sampleArrivals : List Action :=
  [.connect 0x0A000009 80 40000 1000 true 54, sampleReply,
    arrival (sampleData 5001 [0x61, 0x62]), arrival (sampleData 5003 [0x63]), .waitForData]

theorem handoff_lossless_sample :
    collect step returned sampleClient sampleArrivals ++
        (runStack sampleClient sampleArrivals).dataQueue =
      collect step arrived sampleClient sampleArrivals ∧
    ∀ v ∈ collect step returned sampleClient sampleArrivals ++
      (runStack sampleClient sampleArrivals).dataQueue, v ≠ [] :=
  handoff_lossless rfl sampleArrivals

example : collect step returned sampleClient sampleArrivals = [[0x61, 0x62]] ∧
    (runStack sampleClient sampleArrivals).dataQueue = [[0x63]] := by
  decide +kernel

/-! Data and connections. -/

/-- The action is a `connect` that succeeds. -/
def connects (s : TcpStack) : Action → Bool
  | .connect remoteIp remotePort localPort iss filterSet sent =>
    (connect s remoteIp remotePort localPort iss filterSet sent).2
  | _ => false

/-- Whenever `wait_for_data` is called between a successful `connect` and the next one, the vector
it returns, if any, arrived in between. -/
def NoCrossing (s : TcpStack) (acts : List Action) : Prop :=
  ∀ pre c mid, pre ++ c :: mid <+: acts → connects (runStack s pre) c = true →
    EachStep step (fun t a => connects t a = false) (runStack s (pre ++ [c])) mid →
    ∀ v, (waitForData (runStack s (pre ++ c :: mid))).2 = some v →
      v ∈ collect step arrived (runStack s (pre ++ [c])) mid

/-- The `connect`, if it succeeds, finds `data_queue_` empty. -/
def ConnectsEmpty (s : TcpStack) (a : Action) : Prop := connects s a = true → s.dataQueue = []

theorem waitForData_some {s : TcpStack} {v : Bytes} (h : (waitForData s).2 = some v) :
    v ∈ s.dataQueue := by
  cases hq : s.dataQueue with
  | nil => simp [waitForData, hq] at h
  | cons data rest =>
    simp only [waitForData, hq, Option.some.injEq] at h
    rw [← h]
    exact List.mem_cons_self

theorem connects_dataQueue {s : TcpStack} {a : Action} (h : connects s a = true) :
    (step s a).dataQueue = s.dataQueue := by
  have hstep := handoff_step s a
  cases a with
  | connect => exact hstep.trans (List.append_nil _)
  | _ => simp [connects] at h

/-- In every run, data stays with its connection exactly if every `connect` that succeeds finds
the queue empty. -/
theorem noCrossing_iff (s : TcpStack) (acts : List Action) :
    NoCrossing s acts ↔ EachStep step ConnectsEmpty s acts := by
  rw [eachStep_iff]
  constructor
  · intro h pre c hpre hconnects
    cases hq : (runStack s pre).dataQueue with
    | nil => rfl
    | cons v rest =>
      have hqueue : (runStack s (pre ++ [c])).dataQueue = v :: rest := by
        rw [runStack_snoc, connects_dataQueue hconnects, hq]
      have hv := h pre c [] hpre hconnects trivial v (by simp [waitForData, hqueue])
      exact absurd hv (by simp [collect])
  · intro h pre c mid hpre hconnects _ v hv
    have hfirst : pre ++ [c] <+: acts := by
      apply List.IsPrefix.trans _ hpre
      exact ⟨mid, by simp⟩
    have hempty : (runStack s (pre ++ [c])).dataQueue = [] := by
      rw [runStack_snoc, connects_dataQueue hconnects]
      exact h pre c hfirst hconnects
    have hrun := handoff_run (runStack s (pre ++ [c])) mid
    have hsplit : runStack s (pre ++ c :: mid) = runStack (runStack s (pre ++ [c])) mid := by
      rw [List.append_cons]
      exact run_append step s (pre ++ [c]) mid
    rw [hempty, List.nil_append] at hrun
    rw [← hrun, ← hsplit]
    exact List.mem_append_right _ (waitForData_some hv)

/-- Two requests: the first connection is left with a vector in the queue. -/
def sampleRequests : List Action :=
  [.connect 0x0A000009 80 40000 1000 true 54, sampleReply, arrival (sampleData 5001 [0x61, 0x62]),
    .closeConnection 54, .connect 0x0A000009 80 40001 2000 true 54]

/-- The second connection returns what arrived on the first. -/
theorem stale_vector_returned : ¬ NoCrossing sampleClient sampleRequests := by
  intro h
  have hv := h (sampleRequests.take 4) (.connect 0x0A000009 80 40001 2000 true 54) []
    (List.prefix_refl _) (by decide +kernel) trivial [0x61, 0x62] (by decide +kernel)
  exact absurd hv (by simp [collect])

end MyTelnet.Stack.Handoff
