/- module: MyTelnet/Stack/Echoes
   scope: model and proofs
   digest: A stack whose interface shows it its own frames runs as if it did not see them. -/

import MyTelnet.Stack.Objects
import MyTelnet.Stack.RoundTrip
import MyTelnet.Stack.StateGraph

set_option autoImplicit false
set_option relaxedAutoImplicit false

namespace MyTelnet.Stack.Echoes

open MyTelnet.Base.ByteOrder MyTelnet.Base.Runs MyTelnet.Wire.Memory MyTelnet.Wire.Layers
open MyTelnet.Wire.Parsers MyTelnet.Stack.State MyTelnet.Stack.Send MyTelnet.Stack.Operations
open MyTelnet.Stack.Receive MyTelnet.Stack.Run MyTelnet.Stack.Frames MyTelnet.Stack.RoundTrip
open MyTelnet.Stack.Reactions MyTelnet.Stack.Handshake MyTelnet.Stack.Moves MyTelnet.Stack.Objects
open MyTelnet.Stack.StateGraph

/-- A step of a stack on an interface that also captures what it sends. `echo` shows the stack the
`k`-th frame that it has injected so far, with what the link added to it. -/
inductive Looped where
  | own (a : Action)
  | echo (k : Nat) (padding : Bytes) (sent : Nat → Int)

def stepLooped (outcome : Checked TcpStack) : Looped → Checked TcpStack
  | .own a => outcome.map fun s => step s a
  | .echo k padding sent => outcome.bind fun s =>
    match (injectedFrames s)[k]? with
    | some frame => capture s (frame ++ padding) sent
    | none => .ok s

def Looped.action? : Looped → Option Action
  | .own a => some a
  | .echo .. => none

/-- Connections to other hosts only, and data that an IP packet can hold. -/
def Outbound (localIp : UInt32) : Action → Prop
  | .connect remoteIp .. => remoteIp ≠ localIp
  | .sendData data _ => data.length ≤ 65495
  | _ => True

/-- A frame of a connection of this host to another one. -/
def OwnFrame (localIp : UInt32) (frame : Bytes) : Prop :=
  ∃ conn flags payload, FrameOf conn flags payload frame ∧ conn.remoteIp ≠ localIp ∧
    flags &&& 0x3F = flags ∧ payload.length ≤ 65495

/-- The connection leads away from the host, and so does every frame sent so far. -/
structure Away (localIp : UInt32) (s : TcpStack) : Prop where
  host : s.localIp = localIp
  connection : ∀ conn, s.currentConnection = some conn →
    conn.localIp = localIp ∧ conn.remoteIp ≠ localIp
  frames : ∀ frame ∈ injectedFrames s, OwnFrame localIp frame

section Echo

variable {localIp : UInt32} {s : TcpStack}

/-- Each rule of `is_packet_for_connection` wants a packet to the local host. -/
theorem isPacketForConnection_elsewhere {packet : Packet} {ip : Ipv4Parser}
    (h : Away localIp s) (hip : packet.ipv4 = some ip) (hdest : ip.destIp ≠ localIp) :
    isPacketForConnection s packet = false := by
  cases hc : s.currentConnection with
  | none => simp [isPacketForConnection, hc]
  | some conn =>
    have hlocal : (ip.destIp == conn.localIp) = false := by
      rw [(h.connection conn hc).1]
      exact beq_false_of_ne hdest
    cases ht : packet.tcp <;> simp [isPacketForConnection, hip, ht, hc, hlocal]

theorem capture_ownFrame (h : Away localIp s) {frame : Bytes} (hframe : OwnFrame localIp frame)
    (padding : Bytes) (sent : Nat → Int) : capture s (frame ++ padding) sent = .ok s := by
  obtain ⟨conn, flags, payload, ⟨t, id, rfl⟩, haway, hflags, hlen⟩ := hframe
  have hcapture := captureFrame_captured t conn id flags payload padding hflags hlen
  rw [captured] at hcapture
  have hunmatched : isPacketForConnection s
      ⟨some (sentIpv4 conn payload), some (sentTcp conn flags payload)⟩ = false :=
    isPacketForConnection_elsewhere h rfl haway
  have hreceived : received s
      ⟨some (sentIpv4 conn payload), some (sentTcp conn flags payload)⟩ = none := by
    rw [received, hunmatched]
    rfl
  simp only [capture, hcapture, processPacket_none sent hreceived]

end Echo

/-! Every operation keeps the frames of the stack leading away. -/

/-- The frames that a record adds are of this connection, up to its counters. -/
def SentAlong (conn : TcpConnection) (a : Action) (events : List Event) : Prop :=
  ∀ frame ∈ frames events, ∃ conn₁ flags payload, FrameOf conn₁ flags payload frame ∧
    identity conn₁ = identity conn ∧ flags &&& 0x3F = flags ∧
    (payload = [] ∨ ∃ sent, a = .sendData payload sent)

section Sending

variable {conn conn' : TcpConnection} {a : Action} {events more : List Event}

theorem SentAlong.quiet (h : frames events = []) : SentAlong conn a events := by
  intro frame hmem
  rw [h] at hmem
  cases hmem

theorem SentAlong.append (h : SentAlong conn a events) (h' : SentAlong conn a more) :
    SentAlong conn a (events ++ more) := by
  intro frame hmem
  rw [frames_append] at hmem
  exact (List.mem_append.mp hmem).elim (h frame) (h' frame)

theorem SentAlong.injected {conn₁ : TcpConnection} {flags : UInt16} {payload frame : Bytes}
    (built : FrameOf conn₁ flags payload frame) (hsame : identity conn₁ = identity conn)
    (hflags : flags &&& 0x3F = flags) (hp : payload = [] ∨ ∃ sent, a = .sendData payload sent)
    (hrest : frames events = []) : SentAlong conn a (.injected frame :: events) := by
  intro frame' hmem
  have hone : frames (.injected frame :: events) = frame :: frames events := rfl
  rw [hone, hrest] at hmem
  rw [List.mem_singleton.mp hmem]
  exact ⟨conn₁, flags, payload, built, hsame, hflags, hp⟩

theorem Sent.sentAlong {conn₁ : TcpConnection} {flags : UInt16}
    (h : Sent conn₁ flags [] events conn') (hsame : identity conn₁ = identity conn)
    (hflags : flags &&& 0x3F = flags) : SentAlong conn a events := by
  cases h with
  | failed => exact .quiet rfl
  | injected built => exact .injected built hsame hflags (.inl rfl) rfl

theorem Move.sentAlong {s : TcpStack} (h : Move s conn a events conn') :
    SentAlong conn a events := by
  cases h with
  | idle | popped | unsent | dropped | ignored | unanswered | finAcked => exact .quiet rfl
  | resentSyn state sends => exact Sent.sentAlong sends rfl (by decide)
  | sentData state result built => exact .injected built rfl (by decide) (.inr ⟨_, rfl⟩) rfl
  | finSent state built => exact .injected built rfl (by decide) (.inl rfl) rfl
  | opened matched state flags answered built =>
    exact .injected built rfl (by decide) (.inl rfl) (frames_notice rfl)
  | @data packet sent tcp ack conn' matched state flags payload sends =>
    have hacked : SentAlong conn (.processPacket packet sent) ack :=
      Sent.sentAlong sends rfl (by decide)
    have hnoticed : frames (.queued tcp.payload ::
        notice s.onDataReceived (.onDataReceived tcp.payload)) = [] := frames_notice rfl
    exact hacked.append (.quiet hnoticed)
  | @passiveClose packet sent tcp ack fin conn₁ conn₂ matched state flags acks fins =>
    have hacked : SentAlong conn (.processPacket packet sent) ack :=
      Sent.sentAlong acks rfl (by decide)
    have hsame : identity conn₁ = identity conn := by
      have hsent := Sent.identity acks
      exact hsent
    have hfinned : SentAlong conn (.processPacket packet sent) fin :=
      Sent.sentAlong fins hsame (by decide)
    exact hacked.append hfinned
  | @activeClose packet sent tcp ack conn' matched state flags acks =>
    have hacked : SentAlong conn (.processPacket packet sent) ack :=
      Sent.sentAlong acks rfl (by decide)
    exact hacked.append (.quiet (frames_notice rfl))
  | finalAck => exact .quiet (frames_notice rfl)

end Sending

theorem SentAlong.ownFrames {localIp : UInt32} {conn : TcpConnection} {a : Action}
    {events : List Event} (h : SentAlong conn a events) (haway : conn.remoteIp ≠ localIp)
    (ha : Outbound localIp a) : ∀ frame ∈ frames events, OwnFrame localIp frame := by
  intro frame hmem
  obtain ⟨conn₁, flags, payload, built, hsame, hflags, hpayload⟩ := h frame hmem
  have hremote : conn₁.remoteIp = conn.remoteIp := congrArg (·.2.2.1) hsame
  refine ⟨conn₁, flags, payload, built, hremote ▸ haway, hflags, ?_⟩
  rcases hpayload with rfl | ⟨sent, rfl⟩
  · exact Nat.zero_le _
  · exact ha

section Steps

variable {localIp : UInt32} {s : TcpStack} {a : Action}

theorem step_localIp (s : TcpStack) (a : Action) : (step s a).localIp = s.localIp :=
  congrArg (·.localIp) (step_settings s a)

theorem Away.keeps (h : Away localIp s) (ha : Outbound localIp a)
    (hkeeps : a.keepsConnection = true) : Away localIp (step s a) := by
  obtain ⟨connection, events, hstage, hconn, htrace⟩ := step_stage s a
  refine ⟨(step_localIp s a).trans h.host, ?_, ?_⟩
  · intro conn hc
    rw [hconn] at hc
    cases hstage with
    | moved installed keeps move =>
      obtain rfl := Option.some.inj hc
      have hsame := Move.identity move
      have hbefore := h.connection _ installed
      refine ⟨(congrArg (·.1) hsame).trans hbefore.1, ?_⟩
      intro heq
      exact hbefore.2 ((congrArg (·.2.2.1) hsame).symm.trans heq)
    | alone => cases hc
    | refused | failed | connected => cases hkeeps
  · rw [injectedFrames_of_trace htrace, List.forall_mem_append]
    refine ⟨h.frames, ?_⟩
    cases hstage with
    | moved installed keeps move =>
      exact (Move.sentAlong move).ownFrames (h.connection _ installed).2 ha
    | alone absent keeps taken =>
      intro frame hmem
      obtain ⟨e, he, hframe⟩ := List.mem_filterMap.mp hmem
      obtain ⟨data, rfl⟩ := taken e he
      cases hframe
    | refused | failed | connected => cases hkeeps

theorem Away.connect {remoteIp : UInt32} (h : Away localIp s) (haway : remoteIp ≠ localIp)
    (remotePort localPort : UInt16) (iss : UInt32) (filterSet : Bool) (sent : Int) :
    Away localIp (Operations.connect s remoteIp remotePort localPort iss filterSet sent).1 := by
  rcases connect_cases s remoteIp remotePort localPort iss filterSet sent with
    hnone | ⟨id, hfailed⟩ | ⟨-, hconnecting⟩
  · rw [hnone]
    exact h
  · rw [hfailed]
    refine ⟨h.host, by simp, ?_⟩
    simpa [Event.frame?] using h.frames
  · rw [hconnecting]
    refine ⟨h.host, ?_, ?_⟩
    · intro conn hc
      obtain rfl := Option.some.inj hc
      exact ⟨h.host, haway⟩
    · let conn := newConnection s remoteIp remotePort localPort iss
      let opened := log (setConnection s (some conn)) .opened
      have hframes : injectedFrames (connecting s conn) =
          injectedFrames s ++ [buildFrame opened conn (s.ipId + 1) tcpSyn []] := by
        simp [connecting, Effects.afterSend, Event.frame?, opened]
        rfl
      show ∀ frame ∈ injectedFrames (connecting s conn), OwnFrame localIp frame
      rw [hframes, List.forall_mem_append, List.forall_mem_singleton]
      exact ⟨h.frames, conn, tcpSyn, [], ⟨opened, s.ipId + 1, rfl⟩, haway, by decide, by simp⟩

theorem Away.step (h : Away localIp s) (ha : Outbound localIp a) : Away localIp (step s a) := by
  cases a with
  | connect remoteIp remotePort localPort iss filterSet sent =>
    exact h.connect ha remotePort localPort iss filterSet sent
  | _ => exact h.keeps ha rfl

end Steps

/-- The SYN and the ACK of a handshake come back. -/
def sampleLoop : List Looped :=
  [.own (.connect 0x0A000009 80 40000 1000 true 54), .echo 0 [0] (fun _ => 54), .own sampleReply,
    .echo 1 [] (fun _ => 54)]

end MyTelnet.Stack.Echoes
