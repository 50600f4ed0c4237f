/- module: MyTelnet/Stack/TwoStacks
   scope: model and proofs
   digest: Two stacks joined by a lossless channel in each direction transfer a byte stream. -/

import MyTelnet.Base.Pipes
import MyTelnet.Stack.Handshake
import MyTelnet.Stack.RoundTrip

set_option autoImplicit false
set_option relaxedAutoImplicit false

namespace MyTelnet.Stack.TwoStacks

open MyTelnet.Base.ByteOrder MyTelnet.Base.Runs MyTelnet.Base.Pipes MyTelnet.Wire.Layers
open MyTelnet.Wire.Parsers MyTelnet.Stack.State MyTelnet.Stack.Send MyTelnet.Stack.Operations
open MyTelnet.Stack.Receive MyTelnet.Stack.Run MyTelnet.Stack.Frames MyTelnet.Stack.RoundTrip
open MyTelnet.Stack.Effects MyTelnet.Stack.Reactions MyTelnet.Stack.Steps
open MyTelnet.Stack.Handshake

/-- One stack, the channel that leads away from it with its frames in flight, oldest first, and
what its user has passed to `send_data` and got from `wait_for_data`. -/
structure Endpoint where
  stack : TcpStack
  out : List Bytes
  sent : Bytes
  popped : Bytes

/-- The endpoint after an operation of its stack: the frames it injected enter the channel. -/
def Endpoint.run (e : Endpoint) (s : TcpStack) : Endpoint :=
  { e with stack := s, out := e.out ++ framesSince e.stack s }

/-- `faulty` is set by a frame that the capture path treats with undefined behaviour. From then on
the pair says nothing about the code. -/
structure Pair where
  left : Endpoint
  right : Endpoint
  faulty : Bool := false

def Pair.swap (p : Pair) : Pair := ⟨p.right, p.left, p.faulty⟩

/-- What happens at an endpoint. `receive` takes the head frame of the other's channel. -/
inductive EndAction where
  | sendData (data : Bytes) (sent : Int)
  | waitForData
  | receive (sent : Nat → Int)

inductive Side where
  | left
  | right
  deriving DecidableEq, Repr

def stepLeft (p : Pair) : EndAction → Pair
  | .sendData data sent =>
    { p with left :=
      { p.left.run (sendData p.left.stack data sent).1 with sent := p.left.sent ++ data } }
  | .waitForData =>
    let (s, result) := waitForData p.left.stack
    { p with left := { p.left.run s with popped := p.left.popped ++ result.getD [] } }
  | .receive sent =>
    match p.right.out with
    | [] => p
    | frame :: rest =>
      match capture p.left.stack frame sent with
      | .ok s => { p with left := p.left.run s, right := { p.right with out := rest } }
      | .error _ => { p with faulty := true }

def stepPair (p : Pair) : Side × EndAction → Pair
  | (.left, a) => stepLeft p a
  | (.right, a) => (stepLeft p.swap a).swap

/-- Payloads of at most 65495 bytes, and no injection fails. -/
def EndAction.Lossless : EndAction → Prop
  | .sendData data sent => data.length ≤ 65495 ∧ sent ≠ -1
  | .waitForData => True
  | .receive sent => ∀ n, sent n ≠ -1

/-- The bytes on their way from an endpoint. -/
def Endpoint.inFlight (e : Endpoint) : Bytes := (e.out.map framePayload).flatten

/-- The bytes that have arrived at an endpoint, popped or not. -/
def Endpoint.delivered (e : Endpoint) : Bytes := e.popped ++ e.stack.dataQueue.flatten

/-- An endpoint with an established connection and nothing sent, queued or in flight. -/
structure Fresh (e : Endpoint) (conn : TcpConnection) : Prop where
  connection : e.stack.currentConnection = some conn
  handle : e.stack.pcapHandle = true
  state : conn.state = .established
  queue : e.stack.dataQueue = []
  out : e.out = []
  sent : e.sent = []
  popped : e.popped = []

/-- Two connections that are each other's peer. -/
structure Mirrored (conn conn' : TcpConnection) : Prop where
  localIp : conn'.localIp = conn.remoteIp
  localPort : conn'.localPort = conn.remotePort
  remoteIp : conn'.remoteIp = conn.localIp
  remotePort : conn'.remotePort = conn.localPort

theorem Mirrored.swap {conn conn' : TcpConnection} (h : Mirrored conn conn') :
    Mirrored conn' conn :=
  ⟨h.remoteIp.symm, h.remotePort.symm, h.localIp.symm, h.localPort.symm⟩

/-! The invariant. -/

/-- A frame that the connection sent at some time: data, or a pure ACK. -/
def SentBy (conn : TcpConnection) (frame : Bytes) : Prop :=
  ∃ s c id flags payload, frame = buildFrame s c id flags payload ∧
    c.localIp = conn.localIp ∧ c.localPort = conn.localPort ∧ c.remoteIp = conn.remoteIp ∧
    c.remotePort = conn.remotePort ∧
    (flags = tcpPsh ||| tcpAck ∧ payload.length ≤ 65495 ∨ flags = tcpAck ∧ payload = [])

/-- The frame stands at this position of the byte stream numbered from `base`. -/
def PlacedAt (base : UInt32) (pos : Nat) (frame : Bytes) : Prop :=
  frameSeq frame = base + UInt32.ofNat pos

/-- The direction from `x` to `y` realises the abstract pipe. -/
structure Flow (base : UInt32) (pipe : Pipe UInt8) (x y : Endpoint) (cx cy : TcpConnection) :
    Prop where
  sent : x.sent = pipe.sent
  delivered : y.delivered = pipe.delivered
  inFlight : x.out.map framePayload = pipe.inFlight
  seqNum : cx.seqNum = base + UInt32.ofNat pipe.sent.length
  ackNum : cy.ackNum = base + UInt32.ofNat pipe.delivered.length
  placed : Labelled (PlacedAt base) framePayload pipe.delivered.length x.out
  frames : ∀ frame ∈ x.out, SentBy cx frame

/-- A stack ready to transfer. -/
structure Ready (s : TcpStack) (conn : TcpConnection) : Prop where
  connection : s.currentConnection = some conn
  handle : s.pcapHandle = true
  state : conn.state = .established

/-- The invariant of the pair: both ends ready, mirrored, and a pipe in each direction. -/
def Transferring (base base' : UInt32) (p : Pair) : Prop :=
  ∃ cl cr pipe pipe', Ready p.left.stack cl ∧ Ready p.right.stack cr ∧ Mirrored cl cr ∧
    Flow base pipe p.left p.right cl cr ∧ Flow base' pipe' p.right p.left cr cl

theorem Transferring.swap {base base' : UInt32} {p : Pair} (h : Transferring base base' p) :
    Transferring base' base p.swap := by
  obtain ⟨cl, cr, pipe, pipe', hl, hr, hm, hf, hf'⟩ := h
  exact ⟨cr, cl, pipe', pipe, hr, hl, hm.swap, hf', hf⟩

/-- Two versions of a connection with the same addresses. -/
structure SameAddresses (conn conn' : TcpConnection) : Prop where
  localIp : conn'.localIp = conn.localIp
  localPort : conn'.localPort = conn.localPort
  remoteIp : conn'.remoteIp = conn.remoteIp
  remotePort : conn'.remotePort = conn.remotePort

theorem SameAddresses.refl (conn : TcpConnection) : SameAddresses conn conn :=
  ⟨rfl, rfl, rfl, rfl⟩

theorem SentBy.congr {conn conn' : TcpConnection} {frame : Bytes} (h : SentBy conn frame)
    (hsame : SameAddresses conn conn') : SentBy conn' frame := by
  obtain ⟨s, c, id, flags, payload, hframe, h₁, h₂, h₃, h₄, hflags⟩ := h
  exact ⟨s, c, id, flags, payload, hframe, h₁.trans hsame.localIp.symm,
    h₂.trans hsame.localPort.symm, h₃.trans hsame.remoteIp.symm, h₄.trans hsame.remotePort.symm,
    hflags⟩

theorem Mirrored.congr {conn conn' other : TcpConnection} (h : Mirrored conn other)
    (hsame : SameAddresses conn conn') : Mirrored conn' other :=
  ⟨h.localIp.trans hsame.remoteIp.symm, h.localPort.trans hsame.remotePort.symm,
    h.remoteIp.trans hsame.localIp.symm, h.remotePort.trans hsame.localPort.symm⟩

section Flows

variable {base : UInt32} {pipe : Pipe UInt8} {x x' y y' : Endpoint}
variable {cx cx' cy cy' : TcpConnection}

/-- The sender puts one frame, at its `seq_num`, into the channel. -/
theorem Flow.push (h : Flow base pipe x y cx cy) {frame : Bytes}
    (hout : x'.out = x.out ++ [frame]) (hsent : x'.sent = x.sent ++ framePayload frame)
    (hseq : frameSeq frame = cx.seqNum) (hframe : SentBy cx' frame)
    (hsame : SameAddresses cx cx')
    (hnext : cx'.seqNum = cx.seqNum + UInt32.ofNat (framePayload frame).length) :
    Flow base (pipe.push (framePayload frame)) x' y cx' cy := by
  refine ⟨?_, h.delivered, ?_, ?_, h.ackNum, ?_, ?_⟩
  · rw [hsent, h.sent, Pipe.push_sent]
  · rw [hout, List.map_append, h.inFlight, Pipe.push_inFlight]
    rfl
  · rw [hnext, h.seqNum, Pipe.push_sent, List.length_append, UInt32.ofNat_add, UInt32.add_assoc]
  · rw [hout, labelled_snoc]
    refine ⟨h.placed, ?_⟩
    rw [PlacedAt, hseq, h.seqNum, h.inFlight, Pipe.push_delivered, ← pipe.length_eq]
  · intro f hf
    rw [hout, List.mem_append] at hf
    rcases hf with hf | hf
    · exact (h.frames f hf).congr hsame
    · rw [List.mem_singleton.mp hf]
      exact hframe

/-- The receiver takes the head frame out of the channel. -/
theorem Flow.shift (h : Flow base pipe x y cx cy) {frame : Bytes} {rest : List Bytes}
    (hout : x.out = frame :: rest)
    (hin : pipe.inFlight = framePayload frame :: rest.map framePayload)
    (hdelivered : y'.delivered = y.delivered ++ framePayload frame)
    (hack : cy'.ackNum = cy.ackNum + UInt32.ofNat (framePayload frame).length) :
    Flow base (pipe.shift hin) { x with out := rest } y' cx cy' := by
  have hplaced := h.placed
  rw [hout] at hplaced
  refine ⟨h.sent, ?_, rfl, h.seqNum, ?_, ?_, ?_⟩
  · rw [hdelivered, h.delivered]
    rfl
  · rw [hack, h.ackNum, UInt32.add_assoc, ← UInt32.ofNat_add]
    simp [Pipe.shift]
  · simpa [Pipe.shift] using hplaced.2
  · intro f hf
    exact h.frames f (by rw [hout]; exact List.mem_cons_of_mem _ hf)

theorem Flow.congr (h : Flow base pipe x y cx cy) (hsent : x'.sent = x.sent)
    (hout : x'.out = x.out) (hdelivered : y'.delivered = y.delivered)
    (hsame : SameAddresses cx cx') (hseq : cx'.seqNum = cx.seqNum)
    (hack : cy'.ackNum = cy.ackNum) : Flow base pipe x' y' cx' cy' := by
  refine ⟨hsent.trans h.sent, hdelivered.trans h.delivered, by rw [hout]; exact h.inFlight,
    hseq.trans h.seqNum, hack.trans h.ackNum, by rw [hout]; exact h.placed, ?_⟩
  rw [hout]
  intro f hf
  exact (h.frames f hf).congr hsame

end Flows

/-! The operations of an endpoint that is ready. -/

theorem framesSince_self (s : TcpStack) : framesSince s s = [] := List.drop_length

theorem sendData_ready {s : TcpStack} {conn : TcpConnection} (h : Ready s conn) (data : Bytes)
    {sent : Int} (hs : sent ≠ -1) :
    (sendData s data sent).1 = afterSend s conn (tcpPsh ||| tcpAck) data := by
  rw [sendData_established data sent h.connection h.state,
    sendTcpPacket_ok _ _ h.connection h.handle hs]

theorem framesSince_afterSend (s : TcpStack) (conn : TcpConnection) (flags : UInt16)
    (payload : Bytes) :
    framesSince s (afterSend s conn flags payload) =
      [buildFrame s conn (s.ipId + 1) flags payload] :=
  framesSince_eq (by simp [afterSend, Event.frame?])

theorem waitForData_effect (s : TcpStack) :
    (waitForData s).1.currentConnection = s.currentConnection ∧
      (waitForData s).1.pcapHandle = s.pcapHandle ∧
      framesSince s (waitForData s).1 = [] ∧
      (waitForData s).2.getD [] ++ (waitForData s).1.dataQueue.flatten =
        s.dataQueue.flatten := by
  cases hq : s.dataQueue with
  | nil => simp [waitForData, hq, framesSince_self]
  | cons data rest =>
    refine ⟨by simp [waitForData, hq], by simp [waitForData, hq], ?_, by simp [waitForData, hq]⟩
    exact framesSince_eq (by simp [waitForData, hq, Event.frame?])

/-- The capture path hands a frame of the peer on to `process_packet` as it was sent. -/
theorem capture_built (s t : TcpStack) (c : TcpConnection) (id : UInt16) {flags : UInt16}
    {payload : Bytes} (sent : Nat → Int) (hflags : flags &&& 0x3F = flags)
    (hlen : payload.length ≤ 65495) :
    capture t (buildFrame s c id flags payload) sent =
      .ok (processPacket t ⟨some (sentIpv4 c payload), some (sentTcp c flags payload)⟩ sent) := by
  have hcapture := captureFrame_captured s c id flags payload [] hflags hlen
  rw [captured, List.append_nil] at hcapture
  rw [capture, hcapture]

theorem received_mirrored {s : TcpStack} {conn c : TcpConnection} {flags : UInt16}
    {payload : Bytes} (hc : s.currentConnection = some conn) (hm : Mirrored conn c) :
    received s ⟨some (sentIpv4 c payload), some (sentTcp c flags payload)⟩ =
      some (conn, sentTcp c flags payload) := by
  have hmatch : isPacketForConnection s
      ⟨some (sentIpv4 c payload), some (sentTcp c flags payload)⟩ = true := by
    simp [isPacketForConnection, hc, sentIpv4, sentTcp, hm.localIp, hm.localPort, hm.remoteIp,
      hm.remotePort]
  simp only [received, hmatch, if_true, hc]

/-- The data branch with its ACK sent. -/
theorem framesSince_takeData {s : TcpStack} {conn : TcpConnection} (tcp : TcpParser)
    {sent : Nat → Int} (hc : s.currentConnection = some conn) (hp : s.pcapHandle = true)
    (hs : sent 0 ≠ -1) :
    ∃ s' id, framesSince s (takeData s tcp sent) = [buildFrame s'
      { conn with ackNum := tcp.sequenceNumber + UInt32.ofNat tcp.payloadLength }
      id tcpAck []] := by
  let s₁ : TcpStack := modifyConnection s fun conn =>
    { conn with ackNum := tcp.sequenceNumber + UInt32.ofNat tcp.payloadLength }
  have hc₁ : s₁.currentConnection = some
      { conn with ackNum := tcp.sequenceNumber + UInt32.ofNat tcp.payloadLength } := by
    simp [s₁, hc]
  refine ⟨s₁, s₁.ipId + 1, framesSince_eq ?_⟩
  rw [takeData_eq]
  apply (history_callback _ _ _ rfl).trans
  have hacked : dataAcked s tcp sent = afterSend s₁ _ tcpAck [] :=
    congrArg Prod.fst (sendTcpPacket_ok tcpAck [] hc₁ hp hs)
  rw [pushData, history_log, history_setQueue, hacked, afterSend, history_log,
    history_setConnection, history_setIpId]
  exact List.append_nil _

theorem reactionOf_sentData (c : TcpConnection) (payload : Bytes) :
    reactionOf .established (sentTcp c (tcpPsh ||| tcpAck) payload) =
      if payload.length > 0 then .data else .ignore := by
  obtain ⟨hpsh, hack, -⟩ := sentData_flags c payload
  simp only [reactionOf, hpsh, hack, Bool.and_self, if_true]
  rfl

theorem reactionOf_sentAck (c : TcpConnection) (payload : Bytes) :
    reactionOf .established (sentTcp c tcpAck payload) = .ignore := by
  obtain ⟨hpsh, -, hfin⟩ := sentAck_flags c payload
  simp only [reactionOf, hpsh, hfin, Bool.false_and, Bool.false_eq_true, if_false]

/-- What an end does with a frame of its peer: a pure ACK and an empty data frame do nothing, and
data is queued, acknowledged up to its end and answered with an ACK. -/
theorem capture_ready {t : TcpStack} {conn peer : TcpConnection} {frame : Bytes}
    {sent : Nat → Int} (h : Ready t conn) (hm : Mirrored conn peer) (hframe : SentBy peer frame)
    (hs : ∀ n, sent n ≠ -1) :
    ∃ t', capture t frame sent = .ok t' ∧
      (framePayload frame = [] ∧ t' = t ∨
        ∃ conn' ack, conn' = { conn with
            ackNum := frameSeq frame + UInt32.ofNat (framePayload frame).length } ∧
          t'.currentConnection = some conn' ∧ t'.pcapHandle = true ∧
          t'.dataQueue = t.dataQueue ++ [framePayload frame] ∧ framesSince t t' = [ack] ∧
          framePayload ack = [] ∧ frameSeq ack = conn.seqNum ∧ SentBy conn' ack) := by
  obtain ⟨s, c, id, flags, payload, rfl, h₁, h₂, h₃, h₄, hflags⟩ := hframe
  have hmc : Mirrored conn c := ⟨h₁.trans hm.localIp, h₂.trans hm.localPort,
    h₃.trans hm.remoteIp, h₄.trans hm.remotePort⟩
  rw [framePayload_buildFrame, frameSeq_buildFrame]
  rcases hflags with ⟨rfl, hlen⟩ | ⟨rfl, rfl⟩
  · refine ⟨_, capture_built s t c id sent rfl hlen, ?_⟩
    rw [processPacket_received sent (received_mirrored h.connection hmc), h.state]
    rw [reactionOf_sentData]
    by_cases hpay : payload.length > 0
    · right
      rw [if_pos hpay]
      obtain ⟨s', id', hsince⟩ := framesSince_takeData (sentTcp c (tcpPsh ||| tcpAck) payload)
        h.connection h.handle (hs 0)
      refine ⟨_, _, rfl, ?_, ?_, ?_, hsince, framePayload_buildFrame _ _ _ _ _,
        frameSeq_buildFrame _ _ _ _ _, ⟨_, _, _, _, _, rfl, rfl, rfl, rfl, rfl, .inr ⟨rfl, rfl⟩⟩⟩
      · rw [perform, takeData_currentConnection, h.connection, Option.map_some, ← h.state]
        rfl
      · exact (perform_pcapHandle _ _ _ .data h.connection).trans h.handle
      · exact perform_dataQueue _ _ _ .data h.connection
    · rw [if_neg hpay]
      exact .inl ⟨List.eq_nil_of_length_eq_zero (by omega), rfl⟩
  · refine ⟨_, capture_built s t c id sent rfl (by simp), ?_⟩
    rw [processPacket_received sent (received_mirrored h.connection hmc), h.state]
    rw [reactionOf_sentAck]
    exact .inl ⟨rfl, rfl⟩

theorem Transferring.sendData {base base' : UInt32} {p : Pair}
    (h : Transferring base base' p) {data : Bytes} {sent : Int} (hlen : data.length ≤ 65495)
    (hs : sent ≠ -1) : Transferring base base' (stepLeft p (.sendData data sent)) := by
  obtain ⟨cl, cr, pipe, pipe', hl, hr, hm, hf, hf'⟩ := h
  have hrun := sendData_ready hl data hs
  have hadv := advanceSeq_data cl data
  have hsame : SameAddresses cl { cl with seqNum := cl.seqNum + UInt32.ofNat data.length } :=
    ⟨rfl, rfl, rfl, rfl⟩
  generalize hframe : buildFrame p.left.stack cl (p.left.stack.ipId + 1) (tcpPsh ||| tcpAck) data =
    frame
  have hpay : framePayload frame = data := by rw [← hframe, framePayload_buildFrame]
  have hseq : frameSeq frame = cl.seqNum := by rw [← hframe, frameSeq_buildFrame]
  have hsince : framesSince p.left.stack (Operations.sendData p.left.stack data sent).1 =
      [frame] := by
    rw [hrun, framesSince_afterSend, hframe]
  refine ⟨{ cl with seqNum := cl.seqNum + UInt32.ofNat data.length }, cr,
    pipe.push (framePayload frame), pipe', ⟨?_, ?_, hl.state⟩, hr, hm.congr hsame, ?_, ?_⟩
  · show (Operations.sendData p.left.stack data sent).1.currentConnection = _
    rw [hrun, ← hadv]
    rfl
  · show (Operations.sendData p.left.stack data sent).1.pcapHandle = _
    rw [hrun]
    exact hl.handle
  · refine hf.push (congrArg (p.left.out ++ ·) hsince) ?_ hseq ?_ hsame ?_
    · rw [hpay]
      rfl
    · exact ⟨_, cl, _, _, data, hframe.symm, rfl, rfl, rfl, rfl, .inl ⟨rfl, hlen⟩⟩
    · rw [hpay]
  · refine hf'.congr rfl rfl ?_ (SameAddresses.refl cr) rfl rfl
    show p.left.popped ++ (Operations.sendData p.left.stack data sent).1.dataQueue.flatten = _
    rw [hrun]
    rfl

theorem Transferring.waitForData {base base' : UInt32} {p : Pair}
    (h : Transferring base base' p) : Transferring base base' (stepLeft p .waitForData) := by
  obtain ⟨cl, cr, pipe, pipe', hl, hr, hm, hf, hf'⟩ := h
  obtain ⟨hconn, hp, hsince, hqueue⟩ := waitForData_effect p.left.stack
  have hout : p.left.out ++ framesSince p.left.stack (Operations.waitForData p.left.stack).1 =
      p.left.out := by
    rw [hsince, List.append_nil]
  refine ⟨cl, cr, pipe, pipe', ⟨hconn.trans hl.connection, hp.trans hl.handle, hl.state⟩, hr, hm,
    ?_, ?_⟩
  · exact hf.congr rfl hout rfl (SameAddresses.refl cl) rfl rfl
  · refine hf'.congr rfl rfl ?_ (SameAddresses.refl cr) rfl rfl
    show p.left.popped ++ (Operations.waitForData p.left.stack).2.getD [] ++
      (Operations.waitForData p.left.stack).1.dataQueue.flatten = _
    rw [List.append_assoc, hqueue]
    rfl

theorem receive_ok {p : Pair} {sent : Nat → Int} {frame : Bytes} {rest : List Bytes}
    {s : TcpStack} (hout : p.right.out = frame :: rest)
    (hcapture : capture p.left.stack frame sent = .ok s) :
    stepLeft p (.receive sent) =
      { p with left := p.left.run s, right := { p.right with out := rest } } := by
  rw [stepLeft, hout]
  dsimp only
  rw [hcapture]

/-- Only a frame to be received can make a step faulty. -/
theorem stepLeft_faulty (p : Pair) (a : EndAction)
    (hok : ∀ sent, a = .receive sent → ∀ frame ∈ p.right.out,
      ∃ s, capture p.left.stack frame sent = .ok s) :
    (stepLeft p a).faulty = p.faulty := by
  cases a with
  | sendData | waitForData => rfl
  | receive sent =>
    cases hout : p.right.out with
    | nil => rw [stepLeft, hout]
    | cons frame rest =>
      have hmem : frame ∈ p.right.out := by
        rw [hout]
        exact List.mem_cons_self
      obtain ⟨s, hcapture⟩ := hok sent rfl frame hmem
      rw [receive_ok hout hcapture]

theorem Transferring.receive {base base' : UInt32} {p : Pair} (h : Transferring base base' p)
    {sent : Nat → Int} (hs : ∀ n, sent n ≠ -1) :
    Transferring base base' (stepLeft p (.receive sent)) := by
  obtain ⟨cl, cr, pipe, pipe', hl, hr, hm, hf, hf'⟩ := h
  cases hout : p.right.out with
  | nil =>
    rw [stepLeft, hout]
    exact ⟨cl, cr, pipe, pipe', hl, hr, hm, hf, hf'⟩
  | cons frame rest =>
    have hf₁ : Flow base pipe p.left { p.right with out := rest } cl cr :=
      hf.congr rfl rfl rfl (SameAddresses.refl cl) rfl rfl
    have hmem : frame ∈ p.right.out := by
      rw [hout]
      exact List.mem_cons_self
    have hin : pipe'.inFlight = framePayload frame :: rest.map framePayload := by
      rw [← hf'.inFlight, hout, List.map_cons]
    obtain ⟨s, hcapture, hcases⟩ := capture_ready hl hm (hf'.frames frame hmem) hs
    rw [receive_ok hout hcapture]
    rcases hcases with ⟨hnil, rfl⟩ |
      ⟨cl', ack, hcl', hconn, hp, hqueue, hsince, hackPay, hackSeq, hackSent⟩
    · have hstay : p.left.run p.left.stack = p.left := by
        rw [Endpoint.run, framesSince_self, List.append_nil]
      rw [hstay]
      refine ⟨cl, cr, pipe, pipe'.shift hin, hl, hr, hm,
        hf₁, hf'.shift hout hin ?_ ?_⟩
      · rw [hnil, List.append_nil]
      · rw [hnil]
        exact (UInt32.add_zero _).symm
    · have hsame : SameAddresses cl cl' := by
        rw [hcl']
        exact ⟨rfl, rfl, rfl, rfl⟩
      have hplaced := hf'.placed
      rw [hout] at hplaced
      have hseq : frameSeq frame = cl.ackNum := hplaced.1.trans hf'.ackNum.symm
      refine ⟨cl', cr, pipe.push (framePayload ack), pipe'.shift hin,
        ⟨hconn, hp, by rw [hcl']; exact hl.state⟩, hr, hm.congr hsame, ?_, hf'.shift hout hin ?_ ?_⟩
      · refine hf₁.push
          (congrArg (p.left.out ++ ·) hsince) ?_ hackSeq hackSent hsame ?_
        · rw [hackPay, List.append_nil]
          rfl
        · rw [hackPay, hcl']
          exact (UInt32.add_zero _).symm
      · show p.left.popped ++ s.dataQueue.flatten = _
        rw [hqueue, List.flatten_append, List.flatten_singleton, ← List.append_assoc]
        rfl
      · rw [hcl', hseq]

/-- One step, at either end. The right end is the left end of the swapped pair. -/
theorem Transferring.step {base base' : UInt32} {p : Pair} {a : Side × EndAction}
    (h : Transferring base base' p) (ha : a.2.Lossless) :
    Transferring base base' (stepPair p a) ∧ (stepPair p a).faulty = p.faulty := by
  have hleft {b b' : UInt32} {q : Pair} (hq : Transferring b b' q) :
      Transferring b b' (stepLeft q a.2) ∧ (stepLeft q a.2).faulty = q.faulty := by
    obtain ⟨side, act⟩ := a
    constructor
    · cases act with
      | sendData data sent => exact hq.sendData ha.1 ha.2
      | waitForData => exact hq.waitForData
      | receive sent => exact hq.receive ha
    · apply stepLeft_faulty
      rintro sent rfl frame hmem
      obtain ⟨cl, cr, pipe, pipe', hl, hr, hm, hf, hf'⟩ := hq
      obtain ⟨s, hcapture, -⟩ := capture_ready hl hm (hf'.frames frame hmem) ha
      exact ⟨s, hcapture⟩
  obtain ⟨side, act⟩ := a
  cases side with
  | left => exact hleft h
  | right => exact ⟨(hleft h.swap).1.swap, (hleft h.swap).2⟩

/-- The transfer in one direction is lossless, and `seq_num` counts the bytes in flight. -/
structure Conserved (x y : Endpoint) : Prop where
  bytes : x.sent = y.delivered ++ x.inFlight
  numbers : ∃ cx cy, x.stack.currentConnection = some cx ∧ y.stack.currentConnection = some cy ∧
    cx.seqNum = cy.ackNum + UInt32.ofNat x.inFlight.length

theorem Flow.conserved {base : UInt32} {pipe : Pipe UInt8} {x y : Endpoint}
    {cx cy : TcpConnection} (h : Flow base pipe x y cx cy) (hx : Ready x.stack cx)
    (hy : Ready y.stack cy) : Conserved x y := by
  have hin : x.inFlight = pipe.inFlight.flatten := by rw [Endpoint.inFlight, h.inFlight]
  refine ⟨?_, cx, cy, hx.connection, hy.connection, ?_⟩
  · rw [h.sent, h.delivered, hin]
    exact pipe.conserved
  · rw [h.seqNum, h.ackNum, hin, pipe.length_eq, UInt32.ofNat_add, UInt32.add_assoc]

theorem Flow.start {x y : Endpoint} {cx cy : TcpConnection} (hx : Fresh x cx) (hy : Fresh y cy)
    (hnum : cx.seqNum = cy.ackNum) : Flow cx.seqNum (Pipe.empty UInt8) x y cx cy := by
  refine ⟨hx.sent, ?_, ?_, ?_, ?_, ?_, ?_⟩
  · rw [Endpoint.delivered, hy.popped, hy.queue]
    rfl
  · rw [hx.out]
    rfl
  · exact (UInt32.add_zero _).symm
  · rw [hnum]
    exact (UInt32.add_zero _).symm
  · rw [hx.out]
    trivial
  · simp [hx.out]

/-- In every state of every run of two mirrored stacks, and in each direction, no byte is lost,
repeated or reordered, and the sequence numbers count the bytes in flight. -/
theorem transfer_conserved {p : Pair} {cl cr : TcpConnection} (hl : Fresh p.left cl)
    (hr : Fresh p.right cr) (hm : Mirrored cl cr) (hlr : cl.seqNum = cr.ackNum)
    (hrl : cr.seqNum = cl.ackNum) {acts : List (Side × EndAction)}
    (ha : ∀ a ∈ acts, a.2.Lossless) :
    Conserved (run stepPair p acts).left (run stepPair p acts).right ∧
      Conserved (run stepPair p acts).right (run stepPair p acts).left ∧
      (run stepPair p acts).faulty = p.faulty := by
  have hstart : Transferring cl.seqNum cr.seqNum p :=
    ⟨cl, cr, Pipe.empty _, Pipe.empty _, ⟨hl.connection, hl.handle, hl.state⟩,
      ⟨hr.connection, hr.handle, hr.state⟩, hm, Flow.start hl hr hlr, Flow.start hr hl hrl⟩
  have hkeep : ∀ (q : Pair) (a : Side × EndAction),
      Transferring cl.seqNum cr.seqNum q ∧ q.faulty = p.faulty → a.2.Lossless →
      Transferring cl.seqNum cr.seqNum (stepPair q a) ∧ (stepPair q a).faulty = p.faulty := by
    rintro q a ⟨hq, hfaulty⟩ ha
    obtain ⟨hstep, hsame⟩ := hq.step ha
    exact ⟨hstep, hsame.trans hfaulty⟩
  obtain ⟨⟨cl', cr', pipe, pipe', hl', hr', -, hf, hf'⟩, hfaulty⟩ :=
    run_invariant hkeep ⟨hstart, rfl⟩ (eachStep_of_forall ha)
  exact ⟨hf.conserved hl' hr', hf'.conserved hr' hl', hfaulty⟩

/-! Two sample hosts in the middle of a conversation. -/

def sampleHost (localIp remoteIp : UInt32) (localPort remotePort : UInt16)
    (seqNum ackNum : UInt32) : TcpConnection :=
  { localIp := localIp, localPort := localPort, remoteIp := remoteIp, remotePort := remotePort,
    seqNum := seqNum, ackNum := ackNum, remoteSeqNum := ackNum - 1, windowSize := 8192,
    state := .established }

def sampleEnd (localMac : MacAddress) (conn : TcpConnection) : Endpoint :=
  { stack := setConnection (initialized localMac conn.localIp) (some conn), out := [], sent := [],
    popped := [] }

def sampleLeft : TcpConnection := sampleHost 0x0A000002 0x0A000009 40000 80 1001 5001
def sampleRight : TcpConnection := sampleHost 0x0A000009 0x0A000002 80 40000 5001 1001

def samplePair : Pair :=
  { left := sampleEnd ⟨2, 0, 0, 0, 0, 1⟩ sampleLeft
    right := sampleEnd ⟨2, 0, 0, 0, 0, 2⟩ sampleRight }

def sampleTransfer : List (Side × EndAction) :=
  [(.left, .sendData [0x68, 0x69] 56), (.right, .receive fun _ => 54), (.right, .waitForData),
    (.right, .sendData [0x21] 55), (.left, .receive fun _ => 54)]

theorem transfer_conserved_sample :
    Conserved (run stepPair samplePair sampleTransfer).left
        (run stepPair samplePair sampleTransfer).right ∧
      Conserved (run stepPair samplePair sampleTransfer).right
        (run stepPair samplePair sampleTransfer).left ∧
      (run stepPair samplePair sampleTransfer).faulty = false := by
  have hl : Fresh samplePair.left sampleLeft := ⟨rfl, rfl, rfl, rfl, rfl, rfl, rfl⟩
  have hr : Fresh samplePair.right sampleRight := ⟨rfl, rfl, rfl, rfl, rfl, rfl, rfl⟩
  exact transfer_conserved hl hr ⟨rfl, rfl, rfl, rfl⟩ rfl rfl
    (by simp [sampleTransfer, EndAction.Lossless])

end MyTelnet.Stack.TwoStacks
