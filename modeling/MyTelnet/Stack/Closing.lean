/- module: MyTelnet/Stack/Closing
   scope: proofs
   digest: What a connection has received before it leaves the states that wait for the close. -/

import MyTelnet.Stack.Ledger

set_option autoImplicit false
set_option relaxedAutoImplicit false

namespace MyTelnet.Stack.Closing

open MyTelnet.Base.ByteOrder MyTelnet.Base.Runs MyTelnet.Wire.Layers
open MyTelnet.Stack.State MyTelnet.Stack.Run MyTelnet.Stack.Frames MyTelnet.Stack.Reactions
open MyTelnet.Stack.Steps MyTelnet.Stack.Handshake MyTelnet.Stack.Stream MyTelnet.Stack.Moves
open MyTelnet.Stack.Grammar MyTelnet.Stack.Ledger

/-- Our FIN was injected between the two moments. -/
def FinSent (s₀ s : TcpStack) : Prop := ∃ frame ∈ framesSince s₀ s, isFinFrame frame = true

/-- `is_packet_for_connection` has admitted a segment in `P` at a moment when our FIN had been
injected. -/
def SeenSinceFin (P : TcpConnection → TcpParser → Prop) (s : TcpStack) (acts : List Action) :
    Prop :=
  ∃ pre packet sent conn tcp, pre ++ [.processPacket packet sent] <+: acts ∧
    received (runStack s pre) packet = some (conn, tcp) ∧ FinSent s (runStack s pre) ∧ P conn tcp

/-- `is_packet_for_connection` has admitted a FIN, which by its relaxed rules may be of another
four-tuple. -/
def PeerFinSeen (s : TcpStack) (acts : List Action) : Prop :=
  ∃ pre packet sent conn tcp, pre ++ [.processPacket packet sent] <+: acts ∧
    received (runStack s pre) packet = some (conn, tcp) ∧ tcp.isFin = true

/-- The connection is considered closed only after our FIN has been answered by an admitted segment
in `covers` and an admitted FIN has come, or by a step in `excused`. -/
structure ClosesAnswered (covers : TcpConnection → TcpParser → Prop) (excused : Action → Prop)
    (s : TcpStack) (acts : List Action) : Prop where
  finWait2 : ∀ pre a, pre ++ [a] <+: acts → FinSent s (runStack s pre) →
    getConnectionState (runStack s pre) = .finWait1 →
    getConnectionState (runStack s (pre ++ [a])) = .finWait2 → SeenSinceFin covers s (pre ++ [a])
  closed : ∀ pre a, pre ++ [a] <+: acts → ¬ excused a → FinSent s (runStack s pre) →
    getConnectionState (runStack s pre) ∈ [TcpState.finWait1, .finWait2, .lastAck] →
    getConnectionState (runStack s (pre ++ [a])) = .closed → SeenSinceFin covers s (pre ++ [a])
  peerFin : ∀ pre a, pre ++ [a] <+: acts → ¬ excused a → FinSent s (runStack s pre) →
    getConnectionState (runStack s pre) ∈ [TcpState.finWait1, .finWait2] →
    getConnectionState (runStack s (pre ++ [a])) = .closed → PeerFinSeen s (pre ++ [a])

/-- A segment with the ACK flag, whatever it acknowledges. -/
def carriesAck (_ : TcpConnection) (tcp : TcpParser) : Prop := tcp.isAck = true

/-- A segment that acknowledges everything up to `seq_num`. -/
def coversFin (conn : TcpConnection) (tcp : TcpParser) : Prop :=
  tcp.isAck = true ∧ tcp.ackNumber = conn.seqNum

def isClose (a : Action) : Prop := ∃ sent, a = .closeConnection sent

theorem SeenSinceFin.mono {P : TcpConnection → TcpParser → Prop} {s : TcpStack}
    {acts acts' : List Action} (h : SeenSinceFin P s acts) (hp : acts <+: acts') :
    SeenSinceFin P s acts' := by
  obtain ⟨pre, packet, sent, conn, tcp, hpre, hrest⟩ := h
  exact ⟨pre, packet, sent, conn, tcp, hpre.trans hp, hrest⟩

/-- The last step receives such a segment. -/
theorem SeenSinceFin.last {P : TcpConnection → TcpParser → Prop} {s : TcpStack}
    {pre : List Action} {packet : Packet} {sent : Nat → Int} {conn : TcpConnection}
    {tcp : TcpParser} (hr : received (runStack s pre) packet = some (conn, tcp))
    (hfin : FinSent s (runStack s pre)) (hP : P conn tcp) :
    SeenSinceFin P s (pre ++ [.processPacket packet sent]) :=
  ⟨pre, packet, sent, conn, tcp, List.prefix_refl _, hr, hfin, hP⟩

/-- What a run knows of its close: in FIN_WAIT_1 our FIN is out, in FIN_WAIT_2 an ACK has come
since. `frames` are those injected since the start. -/
structure Waiting (s₀ : TcpStack) (pre : List Action) (conn : TcpConnection)
    (sent : List Bytes) : Prop where
  connection : (runStack s₀ pre).currentConnection = some conn
  injected : injectedFrames (runStack s₀ pre) = injectedFrames s₀ ++ sent
  finWait1 : conn.state = .finWait1 → FinSent s₀ (runStack s₀ pre)
  finWait2 : conn.state = .finWait2 → SeenSinceFin carriesAck s₀ pre

theorem Waiting.snoc {s₀ : TcpStack} {pre : List Action} {conn : TcpConnection}
    {sent : List Bytes} {a : Action} (h : Waiting s₀ pre conn sent)
    (ha : a.keepsConnection = true) :
    ∃ conn' sent', Waiting s₀ (pre ++ [a]) conn' sent' ∧
      ∃ events, Move (runStack s₀ pre) conn a events conn' := by
  obtain ⟨events, conn', hmove, hconn, htrace⟩ := step_moves h.connection ha
  have hinj : injectedFrames (step (runStack s₀ pre) a) =
      injectedFrames s₀ ++ (sent ++ frames events) := by
    rw [injectedFrames_of_trace htrace, h.injected, List.append_assoc]
  have hold (hfin : FinSent s₀ (runStack s₀ pre)) : FinSent s₀ (step (runStack s₀ pre) a) := by
    obtain ⟨frame, hmem, hf⟩ := hfin
    rw [framesSince_eq h.injected] at hmem
    refine ⟨frame, ?_, hf⟩
    rw [framesSince_eq hinj]
    exact List.mem_append_left _ hmem
  have hprefix : pre <+: pre ++ [a] := List.prefix_append pre [a]
  -- a move that stays in its state keeps what is known of it
  have hstays (hstate : conn'.state = conn.state) :
      (conn'.state = .finWait1 → FinSent s₀ (step (runStack s₀ pre) a)) ∧
        (conn'.state = .finWait2 → SeenSinceFin carriesAck s₀ (pre ++ [a])) := by
    rw [hstate]
    exact ⟨fun hs => hold (h.finWait1 hs), fun hs => (h.finWait2 hs).mono hprefix⟩
  have hknown : (conn'.state = .finWait1 → FinSent s₀ (step (runStack s₀ pre) a)) ∧
      (conn'.state = .finWait2 → SeenSinceFin carriesAck s₀ (pre ++ [a])) := by
    cases hmove with
    | idle | popped | unsent | ignored | unanswered => exact hstays rfl
    | resentSyn state sends => exact hstays (Sent.state sends)
    | @sentData data _ frame state result built =>
      apply hstays
      rw [Effects.advanceSeq_same conn (tcpPsh ||| tcpAck) data]
    | data matched state flags payload sends =>
      have hsame := Sent.state sends
      exact hstays hsame
    | @finSent _ frame state built =>
      refine ⟨fun _ => ?_, by simp⟩
      refine ⟨frame, ?_, ?_⟩
      · rw [framesSince_eq hinj]
        exact List.mem_append_right _ (List.mem_singleton.mpr rfl)
      · rw [isFinFrame_flags built.flags]
        rfl
    | dropped | opened | passiveClose | activeClose | finalAck => exact ⟨by simp, by simp⟩
    | finAcked matched state flags =>
      exact ⟨by simp, fun _ => .last matched (h.finWait1 state) flags⟩
  rw [← runStack_snoc] at hconn hinj hknown
  exact ⟨conn', _, ⟨hconn, hinj, hknown.1, hknown.2⟩, events, hmove⟩

theorem waiting_run {s : TcpStack} {conn : TcpConnection} {acts : List Action}
    (hc : s.currentConnection = some conn)
    (hs : conn.state = .synSent ∨ conn.state = .established)
    (ha : ∀ a ∈ acts, a.keepsConnection = true) : ∃ conn' sent, Waiting s acts conn' sent := by
  induction acts using List.reverseRecOn with
  | nil =>
    refine ⟨conn, [], hc, (List.append_nil _).symm, ?_, ?_⟩
    · rcases hs with hs | hs <;> simp [hs]
    · rcases hs with hs | hs <;> simp [hs]
  | append_singleton pre a ih =>
    rw [List.forall_mem_append] at ha
    obtain ⟨conn₁, sent₁, h₁⟩ := ih ha.1
    obtain ⟨conn₂, sent₂, h₂, -⟩ := h₁.snoc (ha.2 a (by simp))
    exact ⟨conn₂, sent₂, h₂⟩

/-- The way from FIN_WAIT_1 to FIN_WAIT_2. -/
theorem Move.to_finWait2 {s : TcpStack} {conn conn' : TcpConnection} {a : Action}
    {events : List Event} (h : Move s conn a events conn') (hs : conn.state = .finWait1)
    (hs' : conn'.state = .finWait2) :
    ∃ packet sent tcp, a = .processPacket packet sent ∧ received s packet = some (conn, tcp) ∧
      tcp.isAck = true := by
  have hmoved (hsame : conn'.state = conn.state) : False := by
    rw [hsame, hs] at hs'
    exact absurd hs' (by simp)
  cases h with
  | idle | popped | unsent | ignored | unanswered => exact (hmoved rfl).elim
  | resentSyn state sends => exact (hmoved (Sent.state sends)).elim
  | sentData state | finSent state | opened _ state | data _ state | passiveClose _ state =>
    exact absurd (hs.symm.trans state) (by simp)
  | dropped | activeClose | finalAck => simp at hs'
  | @finAcked packet sent tcp matched state flags => exact ⟨packet, sent, tcp, rfl, matched, flags⟩

/-- The ways from the states that wait for the close to CLOSED. -/
theorem Move.to_closed {s : TcpStack} {conn conn' : TcpConnection} {a : Action}
    {events : List Event} (h : Move s conn a events conn')
    (hs : conn.state ∈ [TcpState.finWait1, .finWait2, .lastAck]) (hs' : conn'.state = .closed) :
    isClose a ∨ ∃ packet sent tcp, a = .processPacket packet sent ∧
      received s packet = some (conn, tcp) ∧ (conn.state ≠ .finWait2 → tcp.isAck = true) ∧
      (conn.state ≠ .lastAck → tcp.isFin = true) := by
  have hmoved (hsame : conn'.state = conn.state) : False := by
    rw [← hsame, hs'] at hs
    simp at hs
  have hstate {state : TcpState} (h : conn.state = state)
      (hne : state ∉ [TcpState.finWait1, .finWait2, .lastAck]) : False := hne (h ▸ hs)
  cases h with
  | idle | popped | unsent | ignored | unanswered => exact (hmoved rfl).elim
  | resentSyn state sends => exact (hmoved (Sent.state sends)).elim
  | sentData state | finSent state | opened _ state | data _ state | passiveClose _ state =>
    exact (hstate state (by simp)).elim
  | dropped => exact .inl ⟨_, rfl⟩
  | finAcked => simp at hs'
  | @activeClose packet sent tcp ack conn' matched state flags =>
    right
    refine ⟨packet, sent, tcp, rfl, matched, ?_, fun _ => flags⟩
    intro hne
    rcases state with ⟨-, hack⟩ | h
    · exact hack
    · exact absurd h hne
  | @finalAck packet sent tcp matched state flags =>
    right
    exact ⟨packet, sent, tcp, rfl, matched, fun _ => flags, fun hne => absurd state hne⟩

/-- An ACK that left the server before our FIN, which is at 1001, arrived. -/
def sampleStaleAck : Packet := sampleSegment 0x0A000009 40000 5001 1001 tcpAck []

end MyTelnet.Stack.Closing
