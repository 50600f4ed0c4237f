/- module: MyTelnet/Stack/Resets
   scope: model and proofs
   digest: Which valid resets end the connection silently. -/

import MyTelnet.Stack.Consumption
import MyTelnet.Stack.Objects

set_option autoImplicit false
set_option relaxedAutoImplicit false

namespace MyTelnet.Stack.Resets

open MyTelnet.Base.ByteOrder MyTelnet.Base.Runs MyTelnet.Base.Sections MyTelnet.Wire.Layers
open MyTelnet.Stack.State MyTelnet.Stack.Send MyTelnet.Stack.Operations MyTelnet.Stack.Receive
open MyTelnet.Stack.Run MyTelnet.Stack.Frames MyTelnet.Stack.Effects MyTelnet.Stack.Reactions
open MyTelnet.Stack.Steps MyTelnet.Stack.Handshake MyTelnet.Stack.Stream MyTelnet.Stack.Moves
open MyTelnet.Stack.Objects MyTelnet.Stack.Grammar MyTelnet.Stack.Consumption

/-- The ISS of the latest connection object: the number of the first frame that it sent. -/
def issOf (s : TcpStack) : Option UInt32 := (frames (latestObject s)).head?.map frameSeq

/-- A reset of the connection's four-tuple with the number that makes it acceptable. -/
structure ValidReset (s : TcpStack) (conn : TcpConnection) (packet : Packet) (tcp : TcpParser) :
    Prop where
  installed : s.currentConnection = some conn
  opened : conn.state ≠ .closed
  segment : packet.tcp = some tcp
  fourTuple : isFourTuple conn packet = true
  rst : tcp.isRst = true
  number : if conn.state = .synSent then (issOf s).map (· + 1) = some tcp.ackNumber
    else tcp.sequenceNumber = conn.ackNum

/-- The connection is CLOSED, and neither the queue nor the network has seen anything. -/
structure ClosedSilently (s s' : TcpStack) : Prop where
  closed : s'.currentConnection.map (·.state) = some .closed
  queue : s'.dataQueue = s.dataQueue
  injected : injectedFrames s' = injectedFrames s

/-- The reset reaches CLOSED through the branch of another flag: as the final ACK in LAST_ACK, or
as a FIN whose own ACK cannot be sent. -/
def ClosesByOtherFlag (s : TcpStack) (conn : TcpConnection) (tcp : TcpParser) (sent : Nat → Int) :
    Prop :=
  conn.state = .lastAck ∧ tcp.isAck = true ∨
    (conn.state = .finWait1 ∧ tcp.isAck = true ∨ conn.state = .finWait2) ∧ tcp.isFin = true ∧
      (sent 0 = -1 ∨ s.pcapHandle = false)

/-! The first frame of an object stays its first, and a `connect` that succeeds has sent it at its
ISS. -/

theorem issOf_step {s : TcpStack} {conn : TcpConnection} {a : Action} {iss : UInt32}
    (hc : s.currentConnection = some conn) (ha : a.keepsConnection = true)
    (h : issOf s = some iss) : issOf (step s a) = some iss := by
  obtain ⟨events, conn', hmove, -, htrace⟩ := step_moves hc ha
  have hlatest : latestObject (step s a) = latestObject s ++ events := by
    rw [latestObject, htrace, lastSection_append s.trace (Move.unopened hmove)]
    rfl
  rw [issOf] at h ⊢
  rw [hlatest, frames_append]
  cases hframes : frames (latestObject s) with
  | nil =>
    rw [hframes] at h
    cases h
  | cons frame rest =>
    rw [hframes] at h
    exact h

theorem issOf_connecting (s : TcpStack) (conn : TcpConnection) :
    issOf (connecting s conn) = some conn.seqNum := by
  have hlatest : latestObject (connecting s conn) =
      [.injected (buildFrame (log (setConnection s (some conn)) .opened) conn (s.ipId + 1)
        tcpSyn [])] := by
    show lastSection isOpened (s.trace ++ [.opened] ++ [_]) = _
    rw [lastSection_append _ (by simp [isOpened]), lastSection_mark s.trace rfl]
    rfl
  rw [issOf, hlatest]
  exact congrArg some (frameSeq_buildFrame _ conn _ tcpSyn [])

/-- What is read off the first frame is the number that `connect` drew. -/
theorem issOf_connect {s s' : TcpStack} {remoteIp : UInt32} {remotePort localPort : UInt16}
    {iss : UInt32} {filterSet : Bool} {sent : Int} {acts : List Action}
    (h : connect s remoteIp remotePort localPort iss filterSet sent = (s', true))
    (ha : ∀ a ∈ acts, a.keepsConnection = true) : issOf (runStack s' acts) = some iss := by
  obtain ⟨-, rfl⟩ := connect_ok h
  have hkeep : ∀ t a, ((∃ conn, t.currentConnection = some conn) ∧ issOf t = some iss) →
      a.keepsConnection = true →
      (∃ conn, (step t a).currentConnection = some conn) ∧ issOf (step t a) = some iss := by
    rintro t a ⟨⟨conn, hc⟩, hiss⟩ hkeeps
    obtain ⟨events, conn', -, hc', -⟩ := step_moves hc hkeeps
    exact ⟨⟨conn', hc'⟩, issOf_step hc hkeeps hiss⟩
  exact (run_invariant hkeep ⟨⟨_, rfl⟩, issOf_connecting s _⟩ (eachStep_of_forall ha)).2

section Step

variable {s : TcpStack} {conn : TcpConnection} {packet : Packet} {tcp : TcpParser}
variable (sent : Nat → Int)

theorem reactionOf_eq_finalAck (state : TcpState) (tcp : TcpParser) :
    reactionOf state tcp = .finalAck ↔ state = .lastAck ∧ tcp.isAck = true := by
  constructor
  · exact reactionOf_finalAck
  · rintro ⟨rfl, hack⟩
    simp [reactionOf, hack]

theorem reactionOf_eq_activeClose (state : TcpState) (tcp : TcpParser) :
    reactionOf state tcp = .activeClose ↔
      (state = .finWait1 ∧ tcp.isAck = true ∨ state = .finWait2) ∧ tcp.isFin = true := by
  constructor
  · exact reactionOf_activeClose
  · rintro ⟨⟨rfl, hack⟩ | rfl, hfin⟩
    · simp [reactionOf, hack, hfin]
    · simp [reactionOf, hfin]

/-- Only two branches end in CLOSED. -/
theorem reacted_closed {acked : Bool} {r : Reaction} (hopen : conn.state ≠ .closed)
    (h : (reacted conn tcp acked r).state = .closed) : r = .finalAck ∨ r = .activeClose := by
  cases r with
  | finalAck => exact .inl rfl
  | activeClose => exact .inr rfl
  | ignore | data => exact absurd h hopen
  | passiveClose | finAcked => cases h
  | synAck =>
    cases acked with
    | true => cases h
    | false => exact absurd h hopen

theorem finishClose_silent (hc : s.currentConnection = some conn) :
    ClosedSilently s (finishClose s) := by
  refine ⟨?_, ?_, ?_⟩
  · rw [finishClose_currentConnection, hc]
    rfl
  · exact callback_dataQueue _ _ _
  · exact history_callback _ _ _ rfl

theorem Sent.frames_eq_nil {conn' : TcpConnection} {flags : UInt16} {payload : Bytes}
    {events : List Event} (h : Sent conn flags payload events conn') :
    frames events = [] ↔ events = [] := by
  cases h with
  | failed => simp [frames]
  | injected => simp [frames, Event.frame?]

/-- The branch of a FIN injects its ACK whenever it can. -/
theorem acknowledgeFin_silent_iff (hr : received s packet = some (conn, tcp)) :
    ClosedSilently s (acknowledgeFin s tcp sent) ↔ sent 0 = -1 ∨ s.pcapHandle = false := by
  have hc := (received_some hr).2.1
  obtain ⟨ack, conn', hacks, hlost, hconn, htrace⟩ := activeClose_effect sent hr
  have hnotice : frames (notice s.onConnectionClosed .onConnectionClosed) = [] := frames_notice rfl
  have hframes : frames (.receivedFin :: ack ++ notice s.onConnectionClosed .onConnectionClosed) =
      frames ack := by
    show frames (ack ++ notice s.onConnectionClosed .onConnectionClosed) = frames ack
    rw [frames_append, hnotice, List.append_nil]
  have hinjected := injectedFrames_of_trace htrace
  rw [hframes] at hinjected
  rw [← hlost, ← Sent.frames_eq_nil hacks]
  constructor
  · intro h
    have hsame := h.injected
    rwa [hinjected, List.append_right_eq_self] at hsame
  · intro hquiet
    refine ⟨by rw [hconn, Option.map_some], ?_, by rw [hinjected, hquiet, List.append_nil]⟩
    rw [acknowledgeFin_eq, callback_dataQueue, setState_dataQueue, setState_dataQueue]
    exact sendTcpPacket_dataQueue _ _ _ _

/-- The step lemma: what is left of a segment of the connection, by the branch it takes. -/
theorem closedSilently_iff (hr : received s packet = some (conn, tcp))
    (hopen : conn.state ≠ .closed) :
    ClosedSilently s (processPacket s packet sent) ↔
      ClosesByOtherFlag s conn tcp sent := by
  have hc := (received_some hr).2.1
  rw [processPacket_received sent hr, ClosesByOtherFlag, ← reactionOf_eq_finalAck,
    ← and_assoc, ← reactionOf_eq_activeClose]
  constructor
  · intro h
    obtain ⟨acked, seqNum, hconn, -⟩ :=
      perform_currentConnection s tcp sent (reactionOf conn.state tcp) hc
    have hclosed := h.closed
    rw [hconn, Option.map_some, Option.some.injEq] at hclosed
    rcases reacted_closed hopen hclosed with hlast | hactive
    · exact .inl hlast
    · rw [hactive] at h
      exact .inr ⟨hactive, (acknowledgeFin_silent_iff sent hr).mp h⟩
  · rintro (hlast | ⟨hactive, hlost⟩)
    · rw [hlast]
      exact finishClose_silent hc
    · rw [hactive]
      exact (acknowledgeFin_silent_iff sent hr).mpr hlost

end Step

/-- From every state and in every run, the valid resets end the connection silently exactly if all
of them come to CLOSED by another of their flags. -/
theorem resets_end_iff (s : TcpStack) (acts : List Action) :
    (∀ pre packet sent conn tcp, pre ++ [.processPacket packet sent] <+: acts →
        ValidReset (runStack s pre) conn packet tcp →
        ClosedSilently (runStack s pre) (runStack s (pre ++ [.processPacket packet sent]))) ↔
      EachStep step (fun t a => ∀ packet sent conn tcp, a = .processPacket packet sent →
        ValidReset t conn packet tcp → ClosesByOtherFlag t conn tcp sent) s acts := by
  rw [eachStep_iff]
  constructor
  · rintro h pre a hpre packet sent conn tcp rfl hreset
    have hclosed := h pre packet sent conn tcp hpre hreset
    rw [runStack_snoc] at hclosed
    have hr := received_fourTuple hreset.installed hreset.segment hreset.fourTuple
    exact (closedSilently_iff sent hr hreset.opened).mp hclosed
  · intro h pre packet sent conn tcp hpre hreset
    have hr := received_fourTuple hreset.installed hreset.segment hreset.fourTuple
    rw [runStack_snoc]
    exact (closedSilently_iff sent hr hreset.opened).mpr
      (h pre _ hpre packet sent conn tcp rfl hreset)

/-- The server's reset of the connection that the client has opened. -/
def sampleReset : Packet := sampleSegment 0x0A000009 40000 5001 1001 (tcpRst ||| tcpAck) []

/-- The reset changes nothing at all. -/
theorem reset_ignored :
    ¬ ∀ pre packet sent conn tcp,
        pre ++ [.processPacket packet sent] <+: [sampleConnect, sampleReply, arrival sampleReset] →
        ValidReset (runStack sampleClient pre) conn packet tcp →
        ClosedSilently (runStack sampleClient pre)
          (runStack sampleClient (pre ++ [.processPacket packet sent])) := by
  intro h
  have hvalid : ValidReset (runStack sampleClient [sampleConnect, sampleReply])
      sampleOpenedConnection sampleReset
      ⟨80, 40000, 5001, 1001, 5, tcpRst ||| tcpAck, 8192, []⟩ :=
    ⟨by decide +kernel, by decide, rfl, by decide, by decide, rfl⟩
  have hsilent := h [sampleConnect, sampleReply] sampleReset (fun _ => 54) _ _
    (List.prefix_refl _) hvalid
  exact absurd hsilent.closed (by decide +kernel)

end MyTelnet.Stack.Resets
