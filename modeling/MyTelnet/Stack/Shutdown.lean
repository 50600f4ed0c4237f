/- module: MyTelnet/Stack/Shutdown
   scope: model and proofs
   digest: Two stacks that close their connection both end in CLOSED once the channels are empty. -/

import MyTelnet.Stack.Grammar
import MyTelnet.Stack.TwoStacks

set_option autoImplicit false
set_option relaxedAutoImplicit false

namespace MyTelnet.Stack.Shutdown

open MyTelnet.Base.ByteOrder MyTelnet.Base.Runs MyTelnet.Wire.Layers MyTelnet.Stack.State
open MyTelnet.Stack.Send MyTelnet.Stack.Operations MyTelnet.Stack.Receive MyTelnet.Stack.Run
open MyTelnet.Stack.Frames MyTelnet.Stack.RoundTrip MyTelnet.Stack.Effects
open MyTelnet.Stack.Reactions MyTelnet.Stack.Steps MyTelnet.Stack.Handshake
open MyTelnet.Stack.TwoStacks MyTelnet.Stack.Moves MyTelnet.Stack.Grammar

/-! The exchange in the abstract: what matters of a frame and of an end. -/

inductive Signal where
  | data (filled : Bool)
  | ack
  | fin
  deriving DecidableEq, Repr

/-- An end of the connection, with the signals in its channel, oldest first. `called` says whether
its user has called `close_connection`. -/
structure Phase where
  state : TcpState
  out : List Signal
  called : Bool

/-- The state that a signal leads to, and the signals that answer it. -/
def respond : TcpState → Signal → TcpState × List Signal
  | .established, .data true => (.established, [.ack])
  | .established, .fin => (.lastAck, [.ack, .fin])
  | .finWait1, .fin => (.closed, [.ack])
  | .finWait1, _ => (.finWait2, [])
  | .finWait2, .fin => (.closed, [.ack])
  | .lastAck, _ => (.closed, [])
  | state, _ => (state, [])

def Phase.send (x : Phase) (filled : Bool) : Phase :=
  if x.state = .established then { x with out := x.out ++ [.data filled] } else x

def Phase.close (x : Phase) : Phase :=
  if x.state = .established then ⟨.finWait1, x.out ++ [.fin], true⟩ else ⟨.closed, x.out, true⟩

def Phase.take (x : Phase) (signal : Signal) : Phase :=
  { x with state := (respond x.state signal).1, out := x.out ++ (respond x.state signal).2 }

/-- An end that has sent its FIN on its own account and waits for the other's. -/
def Phase.Waiting (x : Phase) : Prop := x.state = .finWait1 ∨ x.state = .finWait2

/-- What the end `x` can rely on: a waiting end has its FIN on the way to an open end, or is to
receive the other's; an end in LAST_ACK is to receive an answer. -/
structure Assured (x y : Phase) : Prop where
  states : x.state = .established ∨ x.Waiting ∨ x.state = .lastAck ∨ x.state = .closed
  opened : x.state = .established →
    .fin ∉ x.out ∧ x.called = false ∧ (y.state = .established ∨ y.Waiting)
  waiting : x.Waiting → x.called = true ∧
    (y.state = .established ∧ .fin ∈ x.out ∨ y.state ≠ .established ∧ .fin ∈ y.out)
  answered : x.state = .lastAck → y.Waiting ∨ y.state = .closed ∧ y.out ≠ []

/-- The invariant of the exchange. -/
structure Closing (x y : Phase) : Prop where
  left : Assured x y
  right : Assured y x

theorem Closing.swap {x y : Phase} (h : Closing x y) : Closing y x := ⟨h.right, h.left⟩

theorem Closing.start {x y : Phase} (hx : x.state = .established) (hy : y.state = .established)
    (hox : x.out = []) (hoy : y.out = []) (hcx : x.called = false) (hcy : y.called = false) :
    Closing x y := by
  have hside {u v : Phase} (hu : u.state = .established) (hv : v.state = .established)
      (ho : u.out = []) (hc : u.called = false) : Assured u v :=
    ⟨.inl hu, fun _ => ⟨by simp [ho], hc, .inl hv⟩, fun h => absurd h (by simp [Phase.Waiting, hu]),
      fun h => absurd h (by simp [hu])⟩
  exact ⟨hside hx hy hox hcx, hside hy hx hoy hcy⟩

/-- Neither end is stranded: with the channels empty and a close begun, both are closed. -/
theorem Closing.settled {x y : Phase} (h : Closing x y) (hx : x.out = []) (hy : y.out = [])
    (hcalled : x.called = true ∨ y.called = true) : x.state = .closed ∧ y.state = .closed := by
  have hside {u v : Phase} (hu : Assured u v) (ho : u.out = []) (ho' : v.out = []) :
      ¬ u.Waiting := by
    intro hw
    have hfin := (hu.waiting hw).2
    simp [ho, ho'] at hfin
  have hleft := hside h.left hx hy
  have hright := hside h.right hy hx
  have hlast {u v : Phase} (hu : Assured u v) (hv : ¬ v.Waiting) (ho : v.out = []) :
      u.state ≠ .lastAck := by
    intro hs
    rcases hu.answered hs with hw | ⟨-, hne⟩
    · exact hv hw
    · exact hne ho
  have hl₁ := hlast h.left hright hy
  have hl₂ := hlast h.right hleft hx
  have hopen {u v : Phase} (hu : Assured u v) (hv : Assured v u) (hw : ¬ v.Waiting)
      (hc : u.called = true ∨ v.called = true) : u.state ≠ .established := by
    intro hs
    obtain ⟨-, hno, hother⟩ := hu.opened hs
    have hvs := hother.resolve_right hw
    obtain ⟨-, hno', -⟩ := hv.opened hvs
    simp [hno, hno'] at hc
  have ho₁ := hopen h.left h.right hright hcalled
  have ho₂ := hopen h.right h.left hleft hcalled.symm
  have hs₁ := h.left.states
  have hs₂ := h.right.states
  simp only [ho₁, hleft, hl₁, false_or] at hs₁
  simp only [ho₂, hright, hl₂, false_or] at hs₂
  exact ⟨hs₁, hs₂⟩

theorem Phase.Waiting.ne {x : Phase} (h : x.Waiting) :
    x.state ≠ .established ∧ x.state ≠ .lastAck := by
  rcases h with h | h
  · simp [h]
  · simp [h]

section Steps

variable {x y x' y' : Phase}

/-- An open end stays open, and sends no FIN; the other's FIN stays in its channel. -/
theorem Closing.stays (h : Closing x y) (hx : x.state = .established)
    (hx' : x'.state = .established) (hcx : x'.called = x.called)
    (hox : .fin ∈ x'.out ↔ .fin ∈ x.out) (hy : y'.state = y.state) (hcy : y'.called = y.called)
    (hoy : .fin ∈ y'.out ↔ .fin ∈ y.out) : Closing x' y' := by
  obtain ⟨hno, hcall, hother⟩ := h.left.opened hx
  have hwait : y'.Waiting ↔ y.Waiting := by rw [Phase.Waiting, hy, Phase.Waiting]
  constructor
  · refine ⟨.inl hx', ?_, ?_, ?_⟩
    · intro _
      rw [hox, hcx, hy, hwait]
      exact ⟨hno, hcall, hother⟩
    · intro hw
      exact absurd hx' hw.ne.1
    · intro hl
      exact absurd (hl.symm.trans hx') (by simp)
  · refine ⟨?_, ?_, ?_, ?_⟩
    · rw [hy, hwait]
      exact h.right.states
    · rw [hy, hoy, hcy]
      intro hs
      exact ⟨(h.right.opened hs).1, (h.right.opened hs).2.1, .inl hx'⟩
    · rw [hwait]
      intro hw
      obtain ⟨hcalled, hfin⟩ := h.right.waiting hw
      rw [hcy, hoy]
      refine ⟨hcalled, .inl ⟨hx', ?_⟩⟩
      rcases hfin with ⟨-, hfin⟩ | ⟨hne, -⟩
      · exact hfin
      · exact absurd hx hne
    · intro hl
      rw [hy] at hl
      rcases hother with hs | hw
      · exact absurd (hl.symm.trans hs) (by simp)
      · exact absurd hl hw.ne.2

/-- A waiting end waits on, as long as the FIN it waits for stays in its channel. -/
theorem Closing.waits (h : Closing x y) (hx : x.Waiting) (hx' : x'.Waiting)
    (hcx : x'.called = x.called) (hox : x'.out = x.out) (hy : y'.state = y.state)
    (hcy : y'.called = y.called) (hoy : .fin ∈ y'.out ↔ .fin ∈ y.out) : Closing x' y' := by
  have hwait : y'.Waiting ↔ y.Waiting := by rw [Phase.Waiting, hy, Phase.Waiting]
  constructor
  · refine ⟨.inr (.inl hx'), ?_, ?_, ?_⟩
    · intro hs
      exact absurd hs hx'.ne.1
    · intro _
      rw [hcx, hox, hy, hoy]
      exact h.left.waiting hx
    · intro hl
      exact absurd hl hx'.ne.2
  · refine ⟨?_, ?_, ?_, ?_⟩
    · rw [hy, hwait]
      exact h.right.states
    · rw [hy, hoy, hcy]
      intro hs
      exact ⟨(h.right.opened hs).1, (h.right.opened hs).2.1, .inr hx'⟩
    · rw [hwait, hcy, hox]
      intro hw
      obtain ⟨hcalled, hfin⟩ := h.right.waiting hw
      refine ⟨hcalled, .inr ⟨hx'.ne.1, ?_⟩⟩
      rcases hfin with ⟨hs, -⟩ | ⟨-, hfin⟩
      · exact absurd hs hx.ne.1
      · exact hfin
    · intro _
      exact .inl hx'

/-- An end that was not open is closed, and its FIN stays in its channel. -/
theorem Closing.finishes (h : Closing x y) (hx : x.state ≠ .established)
    (hx' : x'.state = .closed) (hox : .fin ∈ x.out → .fin ∈ x'.out) (hy : y'.state = y.state)
    (hcy : y'.called = y.called) (hopen : y.state ≠ .established)
    (hlast : y.state = .lastAck → x'.out ≠ []) : Closing x' y' := by
  have hwait : y'.Waiting ↔ y.Waiting := by rw [Phase.Waiting, hy, Phase.Waiting]
  constructor
  · refine ⟨.inr (.inr (.inr hx')), ?_, ?_, ?_⟩
    · intro hs
      exact absurd (hs.symm.trans hx') (by simp)
    · intro hw
      exact absurd hx' (by rcases hw with hw | hw <;> simp [hw])
    · intro hl
      exact absurd (hl.symm.trans hx') (by simp)
  · refine ⟨?_, ?_, ?_, ?_⟩
    · rw [hy, hwait]
      exact h.right.states
    · rw [hy]
      intro hs
      exact absurd hs hopen
    · rw [hwait, hcy]
      intro hw
      obtain ⟨hcalled, hfin⟩ := h.right.waiting hw
      refine ⟨hcalled, .inr ⟨by simp [hx'], hox ?_⟩⟩
      rcases hfin with ⟨hs, -⟩ | ⟨-, hfin⟩
      · exact absurd hs hx
      · exact hfin
    · rw [hy]
      intro hl
      exact .inr ⟨hx', hlast hl⟩

end Steps

theorem Closing.send {x y : Phase} (h : Closing x y) (filled : Bool) :
    Closing (x.send filled) y := by
  unfold Phase.send
  split
  · next hs => exact h.stays hs hs rfl (by simp) rfl rfl Iff.rfl
  · exact h

/-- An end that is neither open nor waiting faces an end that is not open, and that has an answer
to come if it is in LAST_ACK. -/
theorem Closing.past {x y : Phase} (h : Closing x y) (hs : x.state ≠ .established)
    (hw : ¬ x.Waiting) : y.state ≠ .established ∧ (y.state = .lastAck → x.out ≠ []) := by
  constructor
  · intro hy
    exact (h.right.opened hy).2.2.elim hs hw
  · intro hl
    exact ((h.right.answered hl).resolve_left hw).2

theorem Closing.close {x y : Phase} (h : Closing x y) (hcalled : x.called = false) :
    Closing x.close y := by
  unfold Phase.close
  split
  · next hs =>
    obtain ⟨-, -, hother⟩ := h.left.opened hs
    constructor
    · refine ⟨.inr (.inl (.inl rfl)), by simp, ?_, by simp⟩
      intro _
      refine ⟨rfl, ?_⟩
      rcases hother with hy | hw
      · exact .inl ⟨hy, by simp⟩
      · refine .inr ⟨hw.ne.1, ?_⟩
        rcases (h.right.waiting hw).2 with ⟨-, hfin⟩ | ⟨hne, -⟩
        · exact hfin
        · exact absurd hs hne
    · refine ⟨h.right.states, ?_, ?_, ?_⟩
      · intro hy
        exact ⟨(h.right.opened hy).1, (h.right.opened hy).2.1, .inr (.inl rfl)⟩
      · intro hw
        exact ⟨(h.right.waiting hw).1, .inr ⟨by simp, by simp⟩⟩
      · intro _
        exact .inl (.inl rfl)
  · next hs =>
    have hw : ¬ x.Waiting := by
      intro hw
      exact absurd (h.left.waiting hw).1 (by simp [hcalled])
    obtain ⟨hopen, hlast⟩ := h.past hs hw
    exact h.finishes hs rfl (fun hfin => hfin) rfl rfl hopen hlast

/-- An open end answers the FIN of a waiting one with its own. -/
theorem Closing.accepts {x y : Phase} (h : Closing x y) (hy : y.Waiting) (rest : List Signal) :
    Closing ⟨.lastAck, x.out ++ [.ack, .fin], x.called⟩ { y with out := rest } := by
  constructor
  · exact ⟨.inr (.inr (.inl rfl)), by simp, by simp [Phase.Waiting], fun _ => .inl hy⟩
  · refine ⟨h.right.states, ?_, ?_, ?_⟩
    · intro hs
      exact absurd hs hy.ne.1
    · intro _
      exact ⟨(h.right.waiting hy).1, .inr ⟨by simp, by simp⟩⟩
    · intro hl
      exact absurd hl hy.ne.2

/-- One step of a channel: its head signal is taken. -/
theorem Closing.take {x y : Phase} {signal : Signal} {rest : List Signal} (h : Closing x y)
    (hout : y.out = signal :: rest) : Closing (x.take signal) { y with out := rest } := by
  have hkeep (hne : signal ≠ .fin) : .fin ∈ rest ↔ .fin ∈ y.out := by
    rw [hout, List.mem_cons]
    simp [Ne.symm hne]
  have hopen (hfin : signal = .fin) : y.state ≠ .established := by
    intro hy
    exact (h.right.opened hy).1 (by simp [hout, hfin])
  rcases h.left.states with hs | hw | hs | hs
  · by_cases hfin : signal = .fin
    · subst hfin
      have hyw : y.Waiting := (h.left.opened hs).2.2.resolve_left (hopen rfl)
      have hx' : x.take .fin = ⟨.lastAck, x.out ++ [.ack, .fin], x.called⟩ := by
        simp [Phase.take, hs, respond]
      rw [hx']
      exact h.accepts hyw rest
    · have hx' : (x.take signal).state = x.state ∧
          (.fin ∈ (x.take signal).out ↔ .fin ∈ x.out) := by
        cases signal with
        | data filled => cases filled <;> simp [Phase.take, hs, respond]
        | ack => simp [Phase.take, hs, respond]
        | fin => exact absurd rfl hfin
      exact h.stays hs (hx'.1.trans hs) rfl hx'.2 rfl rfl (hkeep hfin)
  · by_cases hfin : signal = .fin
    · subst hfin
      have hx' : x.take .fin = ⟨.closed, x.out ++ [.ack], x.called⟩ := by
        rcases hw with hs | hs
        · simp [Phase.take, hs, respond]
        · simp [Phase.take, hs, respond]
      rw [hx']
      exact h.finishes hw.ne.1 rfl (by simp) rfl rfl (hopen rfl) (by simp)
    · have hx' : x.take signal = ⟨.finWait2, x.out, x.called⟩ := by
        rcases hw with hs | hs <;> cases signal <;> simp_all [Phase.take, respond]
      rw [hx']
      exact h.waits hw (.inr rfl) rfl rfl rfl rfl (hkeep hfin)
  · have hx' : x.take signal = ⟨.closed, x.out, x.called⟩ := by
      cases signal <;> simp [Phase.take, hs, respond]
    have hnot : x.state ≠ .established ∧ ¬ x.Waiting := by simp [hs, Phase.Waiting]
    obtain ⟨hpast, hlast⟩ := h.past hnot.1 hnot.2
    rw [hx']
    exact h.finishes hnot.1 rfl (fun hfin => hfin) rfl rfl hpast hlast
  · have hx' : x.take signal = x := by
      cases x
      cases signal <;> simp_all [Phase.take, respond]
    have hnot : x.state ≠ .established ∧ ¬ x.Waiting := by simp [hs, Phase.Waiting]
    obtain ⟨hpast, hlast⟩ := h.past hnot.1 hnot.2
    rw [hx']
    exact h.finishes hnot.1 hs (fun hfin => hfin) rfl rfl hpast hlast

/-! The stacks: what an end and its frames show of the exchange. -/

def signalOf (frame : Bytes) : Signal :=
  if frameFlags frame &&& tcpFin != 0 then .fin
  else if frameFlags frame &&& tcpPsh != 0 then .data !(framePayload frame).isEmpty
  else .ack

/-- A frame that the connection has sent since it was established. -/
def Genuine (conn : TcpConnection) (frame : Bytes) : Prop :=
  ∃ c flags payload, SameAddresses conn c ∧ FrameOf c flags payload frame ∧
    (flags = pshAck ∧ payload.length ≤ 65495 ∨ (flags = tcpAck ∨ flags = finAck) ∧ payload = [])

theorem Genuine.congr {conn conn' : TcpConnection} {frame : Bytes} (h : Genuine conn frame)
    (hsame : SameAddresses conn conn') : Genuine conn' frame := by
  obtain ⟨c, flags, payload, hc, hbuilt, hkind⟩ := h
  have hc' : SameAddresses conn' c := ⟨hc.localIp.trans hsame.localIp.symm,
    hc.localPort.trans hsame.localPort.symm, hc.remoteIp.trans hsame.remoteIp.symm,
    hc.remotePort.trans hsame.remotePort.symm⟩
  exact ⟨c, flags, payload, hc', hbuilt, hkind⟩

section Signals

variable {conn : TcpConnection} {payload frame : Bytes}

theorem signalOf_data (h : FrameOf conn pshAck payload frame) :
    signalOf frame = .data !payload.isEmpty := by
  rw [signalOf, h.flags, h.payload]
  rfl

theorem signalOf_ack (h : FrameOf conn tcpAck payload frame) : signalOf frame = .ack := by
  rw [signalOf, h.flags]
  rfl

theorem signalOf_fin (h : FrameOf conn finAck payload frame) : signalOf frame = .fin := by
  rw [signalOf, h.flags]
  rfl

theorem Genuine.ack (h : FrameOf conn tcpAck [] frame) : Genuine conn frame :=
  ⟨conn, tcpAck, [], SameAddresses.refl conn, h, .inr ⟨.inl rfl, rfl⟩⟩

theorem Genuine.fin (h : FrameOf conn finAck [] frame) : Genuine conn frame :=
  ⟨conn, finAck, [], SameAddresses.refl conn, h, .inr ⟨.inr rfl, rfl⟩⟩

end Signals

/-- What a reaction comes to in the exchange. -/
def answerOf (state : TcpState) : Reaction → TcpState × List Signal
  | .ignore => (state, [])
  | .synAck => (.established, [.ack])
  | .data => (state, [.ack])
  | .passiveClose => (.lastAck, [.ack, .fin])
  | .finAcked => (.finWait2, [])
  | .activeClose => (.closed, [.ack])
  | .finalAck => (.closed, [])

section Selected

variable {c : TcpConnection} {payload frame : Bytes} {state : TcpState}

/-- The signal of a data frame selects the branch that its flags select. -/
theorem respond_data (h : FrameOf c pshAck payload frame) (hsyn : state ≠ .synSent) :
    respond state (signalOf frame) =
      answerOf state (reactionOf state (sentTcp c pshAck payload)) := by
  obtain ⟨hpsh, hack, hfin⟩ := sentData_flags c payload
  have hlen : (sentTcp c pshAck payload).payloadLength = payload.length := rfl
  rw [signalOf_data h]
  cases state <;> cases payload <;> simp_all [reactionOf, respond, answerOf]

theorem respond_ack (h : FrameOf c tcpAck [] frame) (hsyn : state ≠ .synSent) :
    respond state (signalOf frame) = answerOf state (reactionOf state (sentTcp c tcpAck [])) := by
  obtain ⟨hpsh, hack, hfin⟩ := sentAck_flags c []
  rw [signalOf_ack h]
  cases state <;> simp_all [reactionOf, respond, answerOf]

theorem respond_fin (h : FrameOf c finAck [] frame) (hsyn : state ≠ .synSent) :
    respond state (signalOf frame) = answerOf state (reactionOf state (sentTcp c finAck [])) := by
  obtain ⟨hpsh, hack, hfin⟩ := sentFin_flags c []
  rw [signalOf_fin h]
  cases state <;> simp_all [reactionOf, respond, answerOf]

end Selected

/-- An end holds the connection, can send, and has only frames of it in its channel. -/
structure Shows (e : Endpoint) (conn : TcpConnection) : Prop where
  connection : e.stack.currentConnection = some conn
  handle : e.stack.pcapHandle = true
  frames : ∀ frame ∈ e.out, Genuine conn frame

def phase (e : Endpoint) (conn : TcpConnection) (called : Bool) : Phase :=
  ⟨conn.state, e.out.map signalOf, called⟩

/-- An operation that succeeds in all it sends: the connection it leaves, and its frames. -/
structure Answers (s : TcpStack) (conn : TcpConnection) (s' : TcpStack) (conn' : TcpConnection)
    (new : List Bytes) : Prop where
  connection : s'.currentConnection = some conn'
  handle : s'.pcapHandle = true
  addresses : SameAddresses conn conn'
  since : framesSince s s' = new
  genuine : ∀ frame ∈ new, Genuine conn' frame

theorem Shows.run {e : Endpoint} {conn conn' : TcpConnection} {s' : TcpStack} {new : List Bytes}
    (h : Shows e conn) (ha : Answers e.stack conn s' conn' new) :
    Shows (e.run s') conn' ∧ (e.run s').out = e.out ++ new := by
  have hout : (e.run s').out = e.out ++ new := congrArg (e.out ++ ·) ha.since
  refine ⟨⟨ha.connection, ha.handle, ?_⟩, hout⟩
  rw [hout, List.forall_mem_append]
  exact ⟨fun frame hf => (h.frames frame hf).congr ha.addresses, ha.genuine⟩

theorem SameAddresses.advanceSeq (conn : TcpConnection) (flags : UInt16) (payload : Bytes) :
    SameAddresses conn (advanceSeq conn flags payload) := by
  rw [advanceSeq_same conn flags payload]
  exact ⟨rfl, rfl, rfl, rfl⟩

theorem Sent.addresses {conn conn' : TcpConnection} {flags : UInt16} {payload : Bytes}
    {events : List Event} (h : Sent conn flags payload events conn') :
    SameAddresses conn conn' := by
  cases h with
  | failed => exact SameAddresses.refl conn
  | injected => exact SameAddresses.advanceSeq conn flags payload

theorem Sent.built {conn conn' : TcpConnection} {flags : UInt16} {payload : Bytes}
    {events : List Event} (h : Sent conn flags payload events conn') (hne : events ≠ []) :
    ∃ frame, FrameOf conn flags payload frame ∧ events = [.injected frame] := by
  cases h with
  | failed => exact absurd rfl hne
  | injected built => exact ⟨_, built, rfl⟩

section Operations

variable {s : TcpStack} {conn : TcpConnection}

theorem Answers.idle (hc : s.currentConnection = some conn) (hp : s.pcapHandle = true) :
    Answers s conn s conn [] :=
  ⟨hc, hp, SameAddresses.refl conn, framesSince_self s, by simp⟩

/-- Only an open connection sends data. -/
theorem sendData_answers (hc : s.currentConnection = some conn) (hp : s.pcapHandle = true)
    {data : Bytes} {sent : Int} (hlen : data.length ≤ 65495) (hs : sent ≠ -1) :
    ∃ conn' new, Answers s conn (sendData s data sent).1 conn' new ∧ conn'.state = conn.state ∧
      new.map signalOf =
        if conn.state = .established then [.data !data.isEmpty] else [] := by
  by_cases hest : conn.state = .established
  · let frame : Bytes := buildFrame s conn (s.ipId + 1) pshAck data
    have hbuilt : FrameOf conn pshAck data frame := ⟨s, s.ipId + 1, rfl⟩
    have hsame := SameAddresses.advanceSeq conn pshAck data
    have hgenuine : Genuine conn frame :=
      ⟨conn, pshAck, data, SameAddresses.refl conn, hbuilt, .inl ⟨rfl, hlen⟩⟩
    refine ⟨advanceSeq conn pshAck data, [frame], ?_, ?_, ?_⟩
    · rw [sendData_ready ⟨hc, hp, hest⟩ data hs]
      refine ⟨rfl, hp, hsame, framesSince_afterSend s conn pshAck data, ?_⟩
      intro f hf
      rw [List.mem_singleton.mp hf]
      exact hgenuine.congr hsame
    · rw [advanceSeq_same conn pshAck data]
    · rw [if_pos hest, List.map_singleton, signalOf_data hbuilt]
  · rw [sendData_elsewhere data sent hc hest, if_neg hest]
    exact ⟨conn, [], .idle hc hp, rfl, rfl⟩

theorem closeConnection_answers (hc : s.currentConnection = some conn)
    (hp : s.pcapHandle = true) {sent : Int} (hs : sent ≠ -1) :
    ∃ conn' new, Answers s conn (closeConnection s sent).1 conn' new ∧
      conn'.state = (if conn.state = .established then .finWait1 else .closed) ∧
      new.map signalOf = if conn.state = .established then [.fin] else [] := by
  have hstate := getConnectionState_some hc
  by_cases hest : conn.state = .established
  · let frame : Bytes := buildFrame s conn (s.ipId + 1) finAck []
    have hbuilt : FrameOf conn finAck [] frame := ⟨s, s.ipId + 1, rfl⟩
    have hsame := SameAddresses.advanceSeq conn finAck []
    have hclose : (closeConnection s sent).1 =
        setState (afterSend s conn finAck []) .finWait1 := by
      simp [closeConnection, hc, hstate, hest, sendTcpPacket_ok finAck [] hc hp hs]
    refine ⟨{ advanceSeq conn finAck [] with state := .finWait1 }, [frame], ?_, ?_, ?_⟩
    · rw [hclose]
      refine ⟨rfl, hp, ?_, framesSince_afterSend s conn finAck [], ?_⟩
      · exact ⟨hsame.localIp, hsame.localPort, hsame.remoteIp, hsame.remotePort⟩
      · intro f hf
        rw [List.mem_singleton.mp hf]
        exact (Genuine.fin hbuilt).congr
          ⟨hsame.localIp, hsame.localPort, hsame.remoteIp, hsame.remotePort⟩
    · rw [if_pos hest]
    · rw [if_pos hest, List.map_singleton, signalOf_fin hbuilt]
  · rw [if_neg hest, if_neg hest]
    by_cases hclosed : conn.state = .closed
    · have hno : (closeConnection s sent).1 = s := by
        simp [closeConnection, hstate, hclosed]
      rw [hno]
      exact ⟨conn, [], .idle hc hp, hclosed, rfl⟩
    · have hno : (closeConnection s sent).1 = setState s .closed := by
        simp [closeConnection, hc, hstate, hest, hclosed]
      rw [hno]
      refine ⟨{ conn with state := .closed }, [], ⟨?_, hp, ⟨rfl, rfl, rfl, rfl⟩, ?_, by simp⟩,
        rfl, rfl⟩
      · rw [setState_currentConnection, hc, Option.map_some]
      · exact framesSince_self s

section Reactions

variable {packet : Packet} {tcp : TcpParser} {sent : Nat → Int}

theorem takeData_answers (hc : s.currentConnection = some conn) (hp : s.pcapHandle = true)
    (hs : ∀ n, sent n ≠ -1) :
    ∃ conn' new, Answers s conn (takeData s tcp sent) conn' new ∧ conn'.state = conn.state ∧
      new.map signalOf = [.ack] := by
  let acked : TcpConnection :=
    { conn with ackNum := tcp.sequenceNumber + UInt32.ofNat tcp.payloadLength }
  obtain ⟨s', id, hsince⟩ := framesSince_takeData tcp hc hp (hs 0)
  have hbuilt : FrameOf acked tcpAck [] (buildFrame s' acked id tcpAck []) := ⟨s', id, rfl⟩
  have hhandle : (takeData s tcp sent).pcapHandle = true :=
    (perform_pcapHandle s tcp sent .data hc).trans hp
  refine ⟨acked, [buildFrame s' acked id tcpAck []],
    ⟨?_, hhandle, ⟨rfl, rfl, rfl, rfl⟩, hsince, ?_⟩, rfl, ?_⟩
  · rw [takeData_currentConnection, hc]
    rfl
  · intro f hf
    rw [List.mem_singleton.mp hf]
    exact Genuine.ack hbuilt
  · rw [List.map_singleton, signalOf_ack hbuilt]

theorem passiveClose_answers (hr : received s packet = some (conn, tcp))
    (hp : s.pcapHandle = true) (hs : ∀ n, sent n ≠ -1) :
    ∃ conn' new, Answers s conn (passiveClose s tcp sent) conn' new ∧
      conn'.state = .lastAck ∧ new.map signalOf = [.ack, .fin] := by
  have hsends (n : Nat) : ¬ (sent n = -1 ∨ s.pcapHandle = false) := by simp [hs n, hp]
  have hhandle : (passiveClose s tcp sent).pcapHandle = true :=
    (perform_pcapHandle s tcp sent .passiveClose (received_some hr).2.1).trans hp
  obtain ⟨ack, fin, conn₁, conn₂, hacks, hfins, hfailed, hlost, hconn, htrace⟩ :=
    passiveClose_effect sent hr
  have hsame₁ := Sent.addresses hacks
  have hsame₂ := Sent.addresses hfins
  obtain ⟨a, ha, rfl⟩ := Sent.built hacks (hlost.not.mpr (hsends 0))
  obtain ⟨f, hf, rfl⟩ := Sent.built hfins (hfailed.not.mpr (hsends 1))
  -- sending has changed no address on the way
  have hlast : SameAddresses { conn₁ with state := .closeWait } { conn₂ with state := .lastAck } :=
    ⟨hsame₂.localIp, hsame₂.localPort, hsame₂.remoteIp, hsame₂.remotePort⟩
  have hacked : SameAddresses { conn with ackNum := tcp.sequenceNumber + 1 }
      { conn₂ with state := .lastAck } :=
    ⟨hlast.localIp.trans hsame₁.localIp, hlast.localPort.trans hsame₁.localPort,
      hlast.remoteIp.trans hsame₁.remoteIp, hlast.remotePort.trans hsame₁.remotePort⟩
  have hsame : SameAddresses conn { conn₂ with state := .lastAck } :=
    ⟨hacked.localIp, hacked.localPort, hacked.remoteIp, hacked.remotePort⟩
  refine ⟨{ conn₂ with state := .lastAck }, [a, f], ⟨hconn, hhandle, hsame, ?_, ?_⟩, rfl, ?_⟩
  · exact framesSince_eq (injectedFrames_of_trace htrace)
  · rw [List.forall_mem_cons, List.forall_mem_singleton]
    exact ⟨(Genuine.ack ha).congr hacked, (Genuine.fin hf).congr hlast⟩
  · rw [List.map_cons, List.map_singleton, signalOf_ack ha, signalOf_fin hf]

theorem acknowledgeFin_answers (hr : received s packet = some (conn, tcp))
    (hp : s.pcapHandle = true) (hs : ∀ n, sent n ≠ -1) :
    ∃ conn' new, Answers s conn (acknowledgeFin s tcp sent) conn' new ∧
      conn'.state = .closed ∧ new.map signalOf = [.ack] := by
  have hsends : ¬ (sent 0 = -1 ∨ s.pcapHandle = false) := by simp [hs 0, hp]
  have hhandle : (acknowledgeFin s tcp sent).pcapHandle = true :=
    (perform_pcapHandle s tcp sent .activeClose (received_some hr).2.1).trans hp
  obtain ⟨ack, conn₁, hacks, hlost, hconn, htrace⟩ := activeClose_effect sent hr
  have hsame₁ := Sent.addresses hacks
  obtain ⟨a, ha, rfl⟩ := Sent.built hacks (hlost.not.mpr hsends)
  have hacked : SameAddresses { conn with ackNum := tcp.sequenceNumber + 1 }
      { conn₁ with state := .closed } :=
    ⟨hsame₁.localIp, hsame₁.localPort, hsame₁.remoteIp, hsame₁.remotePort⟩
  have hsame : SameAddresses conn { conn₁ with state := .closed } :=
    ⟨hacked.localIp, hacked.localPort, hacked.remoteIp, hacked.remotePort⟩
  have hframes : frames (.receivedFin :: [.injected a] ++
      notice s.onConnectionClosed .onConnectionClosed) = [a] := by
    rw [frames_append, frames_notice rfl]
    rfl
  refine ⟨{ conn₁ with state := .closed }, [a], ⟨hconn, hhandle, hsame, ?_, ?_⟩, rfl, ?_⟩
  · rw [← hframes]
    exact framesSince_eq (injectedFrames_of_trace htrace)
  · intro f hf
    rw [List.mem_singleton.mp hf]
    exact (Genuine.ack ha).congr hacked
  · rw [List.map_singleton, signalOf_ack ha]

/-- The branches that only move the state. -/
theorem setState_answers {s' : TcpStack} {state : TcpState} (hp : s'.pcapHandle = true)
    (hc : s'.currentConnection = some { conn with state := state })
    (hinj : injectedFrames s' = injectedFrames s) :
    Answers s conn s' { conn with state := state } [] := by
  refine ⟨hc, hp, ⟨rfl, rfl, rfl, rfl⟩, ?_, by simp⟩
  apply framesSince_eq
  rw [hinj, List.append_nil]

/-- A segment is answered as the exchange has it. -/
theorem perform_answers (hr : received s packet = some (conn, tcp)) (hp : s.pcapHandle = true)
    (hs : ∀ n, sent n ≠ -1) (hsyn : conn.state ≠ .synSent) :
    ∃ conn' new, Answers s conn (perform s tcp sent (reactionOf conn.state tcp)) conn' new ∧
      (conn'.state, new.map signalOf) = answerOf conn.state (reactionOf conn.state tcp) := by
  have hc := (received_some hr).2.1
  cases hreact : reactionOf conn.state tcp with
  | ignore => exact ⟨conn, [], .idle hc hp, rfl⟩
  | synAck => exact absurd (reactionOf_synAck hreact).1 hsyn
  | data =>
    obtain ⟨conn', new, hans, hstate, hsignals⟩ := takeData_answers hc hp hs
    exact ⟨conn', new, hans, by rw [hstate, hsignals]; rfl⟩
  | passiveClose =>
    obtain ⟨conn', new, hans, hstate, hsignals⟩ := passiveClose_answers hr hp hs
    exact ⟨conn', new, hans, by rw [hstate, hsignals]; rfl⟩
  | finAcked =>
    refine ⟨{ conn with state := .finWait2 }, [], setState_answers hp ?_ rfl, rfl⟩
    rw [perform, setState_currentConnection, hc, Option.map_some]
  | activeClose =>
    obtain ⟨conn', new, hans, hstate, hsignals⟩ := acknowledgeFin_answers hr hp hs
    exact ⟨conn', new, hans, by rw [hstate, hsignals]; rfl⟩
  | finalAck =>
    refine ⟨{ conn with state := .closed }, [], setState_answers ?_ ?_ ?_, rfl⟩
    · exact (perform_pcapHandle s tcp sent .finalAck hc).trans hp
    · rw [perform, finishClose_currentConnection, hc, Option.map_some]
    · exact history_callback _ _ _ rfl

end Reactions

/-- The capture path on a frame of the peer. -/
theorem capture_answers {peer : TcpConnection} {frame : Bytes} {sent : Nat → Int}
    (hc : s.currentConnection = some conn) (hp : s.pcapHandle = true) (hm : Mirrored conn peer)
    (hframe : Genuine peer frame) (hs : ∀ n, sent n ≠ -1) (hsyn : conn.state ≠ .synSent) :
    ∃ s' conn' new, capture s frame sent = .ok s' ∧ Answers s conn s' conn' new ∧
      (conn'.state, new.map signalOf) = respond conn.state (signalOf frame) := by
  obtain ⟨c, flags, payload, hsame, hbuilt, hkind⟩ := hframe
  have hwhole := hbuilt
  obtain ⟨s₀, id, rfl⟩ := hbuilt
  have hmc : Mirrored conn c := (hm.swap.congr hsame).swap
  have hflags : flags &&& 0x3F = flags := by
    rcases hkind with ⟨rfl, -⟩ | ⟨rfl | rfl, -⟩ <;> decide
  have hlen : payload.length ≤ 65495 := by
    rcases hkind with ⟨-, hlen⟩ | ⟨-, rfl⟩
    · exact hlen
    · simp
  have hr : received s ⟨some (sentIpv4 c payload), some (sentTcp c flags payload)⟩ =
      some (conn, sentTcp c flags payload) := received_mirrored hc hmc
  have hrespond : respond conn.state (signalOf (buildFrame s₀ c id flags payload)) =
      answerOf conn.state (reactionOf conn.state (sentTcp c flags payload)) := by
    rcases hkind with ⟨rfl, -⟩ | ⟨rfl | rfl, rfl⟩
    · exact respond_data hwhole hsyn
    · exact respond_ack hwhole hsyn
    · exact respond_fin hwhole hsyn
  obtain ⟨conn', new, hans, hanswer⟩ := perform_answers hr hp hs hsyn
  rw [← processPacket_received sent hr] at hans
  rw [hrespond]
  exact ⟨_, conn', new, capture_built s₀ s c id sent hflags hlen, hans, hanswer⟩

end Operations

/-! Two stacks, each with a channel to the other. -/

/-- What happens at an end: a call of `close_connection`, or a step of a transfer. -/
inductive EndStep where
  | close (sent : Int)
  | transfer (a : EndAction)

def EndStep.Lossless : EndStep → Prop
  | .close sent => sent ≠ -1
  | .transfer a => a.Lossless

def EndStep.isClose : EndStep → Bool
  | .close _ => true
  | .transfer _ => false

def shutdownLeft (p : Pair) : EndStep → Pair
  | .close sent => { p with left := p.left.run (closeConnection p.left.stack sent).1 }
  | .transfer a => stepLeft p a

def stepShutdown (p : Pair) : Side × EndStep → Pair
  | (.left, a) => shutdownLeft p a
  | (.right, a) => (shutdownLeft p.swap a).swap

/-- The step is a call of `close_connection` at this end. -/
def closesAt (side : Side) (a : Side × EndStep) : Bool := a.1 == side && a.2.isClose

/-- How often the user of an end has called `close_connection`. -/
def calls (side : Side) (acts : List (Side × EndStep)) : Nat := acts.countP (closesAt side)

/-- The pair realises the exchange. -/
def Shutting (called called' : Bool) (p : Pair) : Prop :=
  ∃ cl cr, Shows p.left cl ∧ Shows p.right cr ∧ Mirrored cl cr ∧
    Closing (phase p.left cl called) (phase p.right cr called')

theorem Shutting.swap {called called' : Bool} {p : Pair} (h : Shutting called called' p) :
    Shutting called' called p.swap := by
  obtain ⟨cl, cr, hl, hr, hm, hclosing⟩ := h
  exact ⟨cr, cl, hr, hl, hm.swap, hclosing.swap⟩

section Pairs

variable {called called' : Bool} {p : Pair}

theorem Shutting.close (h : Shutting called called' p) {sent : Int} (hs : sent ≠ -1)
    (hfirst : called = false) : Shutting true called' (shutdownLeft p (.close sent)) := by
  obtain ⟨cl, cr, hl, hr, hm, hclosing⟩ := h
  obtain ⟨conn', new, hans, hstate, hsignals⟩ :=
    closeConnection_answers hl.connection hl.handle hs
  obtain ⟨hshows, hout⟩ := hl.run hans
  refine ⟨conn', cr, hshows, hr, hm.congr hans.addresses, ?_⟩
  have hphase : phase (p.left.run (closeConnection p.left.stack sent).1) conn' true =
      (phase p.left cl called).close := by
    rw [phase, hout, List.map_append, hsignals, hstate, Phase.close]
    by_cases hest : cl.state = .established
    · simp [phase, hest]
    · simp [phase, hest]
  show Closing (phase (p.left.run (closeConnection p.left.stack sent).1) conn' true) _
  rw [hphase]
  exact hclosing.close hfirst

theorem Shutting.sendData (h : Shutting called called' p) {data : Bytes} {sent : Int}
    (hlen : data.length ≤ 65495) (hs : sent ≠ -1) :
    Shutting called called' (stepLeft p (.sendData data sent)) := by
  obtain ⟨cl, cr, hl, hr, hm, hclosing⟩ := h
  obtain ⟨conn', new, hans, hstate, hsignals⟩ :=
    sendData_answers hl.connection hl.handle hlen hs
  obtain ⟨hshows, hout⟩ := hl.run hans
  refine ⟨conn', cr, ⟨hshows.connection, hshows.handle, hshows.frames⟩, hr,
    hm.congr hans.addresses, ?_⟩
  have hphase : phase (p.left.run (Operations.sendData p.left.stack data sent).1) conn' called =
      (phase p.left cl called).send !data.isEmpty := by
    rw [phase, hout, List.map_append, hsignals, hstate, Phase.send]
    by_cases hest : cl.state = .established
    · simp [phase, hest]
    · simp [phase, hest]
  show Closing (phase (p.left.run (Operations.sendData p.left.stack data sent).1) conn' called) _
  rw [hphase]
  exact hclosing.send _

theorem Shutting.waitForData (h : Shutting called called' p) :
    Shutting called called' (stepLeft p .waitForData) := by
  obtain ⟨cl, cr, hl, hr, hm, hclosing⟩ := h
  obtain ⟨hconn, hp, hsince, -⟩ := waitForData_effect p.left.stack
  have hans : Answers p.left.stack cl (Operations.waitForData p.left.stack).1 cl [] :=
    ⟨hconn.trans hl.connection, hp.trans hl.handle, SameAddresses.refl cl, hsince, by simp⟩
  obtain ⟨hshows, hout⟩ := hl.run hans
  refine ⟨cl, cr, ⟨hshows.connection, hshows.handle, hshows.frames⟩, hr, hm, ?_⟩
  have hphase : phase (p.left.run (Operations.waitForData p.left.stack).1) cl called =
      phase p.left cl called := by
    rw [phase, hout, List.append_nil, phase]
  show Closing (phase (p.left.run (Operations.waitForData p.left.stack).1) cl called) _
  rw [hphase]
  exact hclosing

/-- The left end on a frame from the right. -/
theorem Shutting.answers (h : Shutting called called' p) {sent : Nat → Int}
    (hs : ∀ n, sent n ≠ -1) {frame : Bytes} (hmem : frame ∈ p.right.out) :
    ∃ cl cr, Shows p.left cl ∧ Shows p.right cr ∧ Mirrored cl cr ∧
      Closing (phase p.left cl called) (phase p.right cr called') ∧
      ∃ s conn' new, capture p.left.stack frame sent = .ok s ∧
        Answers p.left.stack cl s conn' new ∧
        (conn'.state, new.map signalOf) = respond cl.state (signalOf frame) := by
  obtain ⟨cl, cr, hl, hr, hm, hclosing⟩ := h
  have hsyn : cl.state ≠ .synSent := by
    intro hsyn
    have hstates := hclosing.left.states
    simp [phase, Phase.Waiting, hsyn] at hstates
  exact ⟨cl, cr, hl, hr, hm, hclosing,
    capture_answers hl.connection hl.handle hm (hr.frames frame hmem) hs hsyn⟩

theorem Shutting.receive (h : Shutting called called' p) {sent : Nat → Int}
    (hs : ∀ n, sent n ≠ -1) : Shutting called called' (stepLeft p (.receive sent)) := by
  cases hout : p.right.out with
  | nil =>
    rw [stepLeft, hout]
    exact h
  | cons frame rest =>
    have hmem : frame ∈ p.right.out := by
      rw [hout]
      exact List.mem_cons_self
    obtain ⟨cl, cr, hl, hr, hm, hclosing, s, conn', new, hcapture, hans, hrespond⟩ :=
      h.answers hs hmem
    obtain ⟨hshows, hleft⟩ := hl.run hans
    rw [receive_ok hout hcapture]
    have hrest : Shows { p.right with out := rest } cr := by
      refine ⟨hr.connection, hr.handle, ?_⟩
      intro f hf
      exact hr.frames f (by rw [hout]; exact List.mem_cons_of_mem _ hf)
    refine ⟨conn', cr, hshows, hrest, hm.congr hans.addresses, ?_⟩
    have hphase : phase (p.left.run s) conn' called =
        (phase p.left cl called).take (signalOf frame) := by
      have hanswer : respond (phase p.left cl called).state (signalOf frame) =
          (conn'.state, new.map signalOf) := hrespond.symm
      rw [phase, hleft, List.map_append, Phase.take, hanswer]
      rfl
    have hhead : (phase p.right cr called').out = signalOf frame :: rest.map signalOf := by
      rw [phase, hout, List.map_cons]
    show Closing (phase (p.left.run s) conn' called) _
    rw [hphase]
    exact hclosing.take hhead

theorem Shutting.left (h : Shutting called called' p) {a : EndStep} (ha : a.Lossless)
    (hfirst : a.isClose = true → called = false) :
    Shutting (called || a.isClose) called' (shutdownLeft p a) := by
  cases a with
  | close sent =>
    rw [EndStep.isClose, Bool.or_true]
    exact h.close ha (hfirst rfl)
  | transfer a =>
    rw [EndStep.isClose, Bool.or_false]
    cases a with
    | sendData data sent => exact h.sendData ha.1 ha.2
    | waitForData => exact h.waitForData
    | receive sent => exact h.receive ha

theorem Shutting.left_faulty (h : Shutting called called' p) {a : EndStep} (ha : a.Lossless) :
    (shutdownLeft p a).faulty = p.faulty := by
  cases a with
  | close sent => rfl
  | transfer a =>
    apply stepLeft_faulty
    rintro sent rfl frame hmem
    obtain ⟨-, -, -, -, -, -, s, -, -, hcapture, -⟩ := h.answers ha hmem
    exact ⟨s, hcapture⟩

theorem Shutting.faulty (h : Shutting called called' p) {a : Side × EndStep}
    (ha : a.2.Lossless) : (stepShutdown p a).faulty = p.faulty := by
  obtain ⟨side, a⟩ := a
  cases side with
  | left => exact h.left_faulty ha
  | right => exact h.swap.left_faulty ha

/-- One step of the pair, at either end. -/
theorem Shutting.step (h : Shutting called called' p) {a : Side × EndStep} (ha : a.2.Lossless)
    (hleft : closesAt .left a = true → called = false)
    (hright : closesAt .right a = true → called' = false) :
    Shutting (called || closesAt .left a) (called' || closesAt .right a) (stepShutdown p a) := by
  obtain ⟨side, a⟩ := a
  cases side with
  | left =>
    have hnot : closesAt .right (.left, a) = false := rfl
    rw [hnot, Bool.or_false]
    exact h.left ha hleft
  | right =>
    have hnot : closesAt .left (.right, a) = false := rfl
    rw [hnot, Bool.or_false]
    exact (h.swap.left ha hright).swap

end Pairs

theorem Shutting.steps {p : Pair} (h : Shutting false false p) {acts : List (Side × EndStep)}
    (ha : ∀ a ∈ acts, a.2.Lossless) (hone : ∀ side, calls side acts ≤ 1) :
    Shutting (acts.any (closesAt .left)) (acts.any (closesAt .right))
      (run stepShutdown p acts) ∧ (run stepShutdown p acts).faulty = p.faulty := by
  induction acts using List.reverseRecOn with
  | nil => exact ⟨h, rfl⟩
  | append_singleton acts a ih =>
    rw [List.forall_mem_append, List.forall_mem_singleton] at ha
    have hcalls (side : Side) : calls side (acts ++ [a]) =
        calls side acts + calls side [a] := List.countP_append
    obtain ⟨hbefore, hfaulty⟩ : Shutting (acts.any (closesAt .left)) (acts.any (closesAt .right))
        (run stepShutdown p acts) ∧ (run stepShutdown p acts).faulty = p.faulty := by
      apply ih ha.1
      intro side
      have hall := hone side
      rw [hcalls] at hall
      omega
    -- a call in this step is the first of its end
    have hfirst (side : Side) (hcloses : closesAt side a = true) :
        acts.any (closesAt side) = false := by
      have hall := hone side
      have hlast : calls side [a] = 1 := List.countP_singleton.trans (if_pos hcloses)
      have hnone : acts.countP (closesAt side) = 0 := by
        rw [hcalls, hlast] at hall
        unfold calls at hall
        omega
      rw [List.any_eq_false]
      intro b hb
      exact List.countP_eq_zero.mp hnone b hb
    have hany (side : Side) : (acts ++ [a]).any (closesAt side) =
        (acts.any (closesAt side) || closesAt side a) := by
      rw [List.any_append, List.any_cons, List.any_nil, Bool.or_false]
    rw [run_snoc, hany, hany]
    exact ⟨hbefore.step ha.2 (hfirst .left) (hfirst .right), (hbefore.faulty ha.2).trans hfaulty⟩

/-- Once a close has been called and the channels are empty, both connections are closed, in
whatever order the two users and the deliveries took their steps. -/
theorem shutdown_completes {p : Pair} {cl cr : TcpConnection} (hl : Ready p.left.stack cl)
    (hr : Ready p.right.stack cr) (hm : Mirrored cl cr) (hol : p.left.out = [])
    (hor : p.right.out = []) {acts : List (Side × EndStep)} (ha : ∀ a ∈ acts, a.2.Lossless)
    (hone : ∀ side, calls side acts ≤ 1) (hsome : ∃ side, calls side acts ≠ 0)
    (hempty : (run stepShutdown p acts).left.out = [])
    (hempty' : (run stepShutdown p acts).right.out = []) :
    (run stepShutdown p acts).left.stack.currentConnection.map (·.state) = some .closed ∧
      (run stepShutdown p acts).right.stack.currentConnection.map (·.state) = some .closed ∧
      (run stepShutdown p acts).faulty = p.faulty := by
  have hstart : Shutting false false p := by
    refine ⟨cl, cr, ⟨hl.connection, hl.handle, by simp [hol]⟩,
      ⟨hr.connection, hr.handle, by simp [hor]⟩, hm, ?_⟩
    exact Closing.start hl.state hr.state (by simp [phase, hol]) (by simp [phase, hor]) rfl rfl
  obtain ⟨⟨cl', cr', hl', hr', -, hclosing⟩, hfaulty⟩ := hstart.steps ha hone
  have hcalled : acts.any (closesAt .left) = true ∨ acts.any (closesAt .right) = true := by
    obtain ⟨side, hside⟩ := hsome
    have hany : acts.any (closesAt side) = true := by
      rw [List.any_eq_true]
      exact List.countP_pos_iff.mp (Nat.pos_of_ne_zero hside)
    cases side with
    | left => exact .inl hany
    | right => exact .inr hany
  obtain ⟨hleft, hright⟩ := hclosing.settled (by simp [phase, hempty]) (by simp [phase, hempty'])
    hcalled
  refine ⟨?_, ?_, hfaulty⟩
  · rw [hl'.connection, Option.map_some]
    exact congrArg some hleft
  · rw [hr'.connection, Option.map_some]
    exact congrArg some hright

/-- Data and a close on the left, answered on the right. -/
def sampleShutdown : List (Side × EndStep) :=
  [(.left, .transfer (.sendData [0x68] 55)), (.left, .close 54),
    (.right, .transfer (.receive fun _ => 54)), (.right, .transfer (.receive fun _ => 54)),
    (.left, .transfer (.receive fun _ => 54)), (.left, .transfer (.receive fun _ => 54)),
    (.left, .transfer (.receive fun _ => 54)), (.right, .transfer (.receive fun _ => 54))]

theorem shutdown_completes_sample :
    (run stepShutdown samplePair sampleShutdown).left.stack.currentConnection.map (·.state) =
        some .closed ∧
      (run stepShutdown samplePair sampleShutdown).right.stack.currentConnection.map (·.state) =
        some .closed ∧
      (run stepShutdown samplePair sampleShutdown).faulty = false := by
  have hl : Ready samplePair.left.stack sampleLeft := ⟨rfl, rfl, rfl⟩
  have hr : Ready samplePair.right.stack sampleRight := ⟨rfl, rfl, rfl⟩
  have hone : ∀ side, calls side sampleShutdown ≤ 1 := by
    intro side
    cases side with
    | left => decide
    | right => decide
  exact shutdown_completes hl hr ⟨rfl, rfl, rfl, rfl⟩ rfl rfl
    (by simp [sampleShutdown, EndStep.Lossless, EndAction.Lossless]) hone
    ⟨.left, by decide⟩ (by decide +kernel) (by decide +kernel)

end MyTelnet.Stack.Shutdown
