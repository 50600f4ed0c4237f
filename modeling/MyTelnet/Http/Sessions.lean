/- module: MyTelnet/Http/Sessions
   scope: model and proofs
   digest: HttpClient::get over the TCP stack, and which of its exits leave the connection open. -/

import MyTelnet.Http.Heads
import MyTelnet.Stack.Grammar
import MyTelnet.Stack.Stream

set_option autoImplicit false
set_option relaxedAutoImplicit false

namespace MyTelnet.Http.Sessions

open MyTelnet.Base.ByteOrder MyTelnet.Base.Runs MyTelnet.Wire.Memory MyTelnet.Wire.Layers
open MyTelnet.Stack.State MyTelnet.Stack.Send MyTelnet.Stack.Operations MyTelnet.Stack.Receive
open MyTelnet.Stack.Run MyTelnet.Stack.Effects MyTelnet.Stack.Reactions MyTelnet.Stack.Steps
open MyTelnet.Stack.Handshake MyTelnet.Stack.Stream MyTelnet.Stack.Moves
open MyTelnet.Http.Strings MyTelnet.Http.Client MyTelnet.Http.Heads

/-- The arguments of `get`, with the parsed address of the host and the values that the locals of
the receive loop start from. -/
structure Call where
  host : Bytes
  path : Bytes
  remoteIp : UInt32
  port : UInt16
  locals : HttpResponse

def Call.request (c : Call) : Bytes := buildHttpRequest (ascii "GET") c.host c.path []

/-- Where `get` stands. -/
inductive Pc where
  | connecting
  /-- `connect` has failed and `get` has returned `false`. -/
  | refused
  | waiting (w : WaitLocals)
  /-- `wait_for_connection` has given up, and `get` is about to return `false`. -/
  | gaveUp
  | sending
  | receiving (buffer : Bytes)
  | closing (receivedComplete : Bool)
  /-- `get` is about to return from a connection it cannot use or has closed. -/
  | leaving (receivedComplete : Bool)
  | returned (receivedComplete : Bool)
  /-- An exception of `parse_http_response` has left `get`. -/
  | thrown (e : Fault)

/-- `get` in execution: the stack it shares with the capture thread, and what `wait_for_data` has
returned to it. -/
structure Session where
  stack : TcpStack
  pc : Pc
  chunks : List Bytes

/-- What the outside world answers to one step of `get`. -/
structure Answers where
  localPort : UInt16
  iss : UInt32
  filterSet : Bool
  now : Int
  later : Int
  sent : Int
  expired : Bool

/-- The user thread makes a step, or the capture thread hands on a packet. -/
inductive Turn where
  | user (a : Answers)
  | packet (packet : Packet) (sent : Nat → Int)

def defaultTimeoutMs : Int := 10000

/-- One step of `get`, up to where it next lets go of the mutex. -/
def advance (c : Call) (g : Session) (a : Answers) : Session :=
  match g.pc with
  | .connecting =>
    let (s, ok) := connect g.stack c.remoteIp c.port a.localPort a.iss a.filterSet a.sent
    { g with stack := s, pc :=
      if ok then .waiting (waitForConnectionStart defaultTimeoutMs a.later) else .refused }
  | .waiting w =>
    let (s, w, result) := waitForConnectionPass g.stack w a.now a.later a.sent
    { g with stack := s, pc := match result with
      | .established => .sending
      | .timedOut => .gaveUp
      | .again => .waiting w }
  | .gaveUp => { g with pc := .returned false }
  | .sending =>
    let (s, ok) := sendData g.stack c.request a.sent
    { g with stack := s, pc := if ok then .receiving [] else .leaving false }
  | .receiving buffer =>
    match waitForData g.stack with
    | (s, none) =>
      { g with stack := s, pc := if a.expired then .closing false else .receiving buffer }
    | (s, some chunk) =>
      { stack := s, chunks := g.chunks ++ [chunk], pc :=
        match parseHttpResponse (buffer ++ chunk) c.locals with
        | .error e => .thrown e
        | .ok (true, _) => .closing true
        | .ok (false, _) => .receiving (buffer ++ chunk) }
  | .closing receivedComplete =>
    { g with stack := (closeConnection g.stack a.sent).1, pc := .leaving receivedComplete }
  | .leaving receivedComplete => { g with pc := .returned receivedComplete }
  | .refused | .returned _ | .thrown _ => g

def turn (c : Call) (g : Session) : Turn → Session
  | .user a => advance c g a
  | .packet packet sent => { g with stack := processPacket g.stack packet sent }

/-- The calls of the callback in a pass of the receive loop. -/
def passReports (locals : HttpResponse) (buffer : Bytes) (s : TcpStack) : List HttpResponse :=
  match (waitForData s).2 with
  | none => []
  | some chunk =>
    match parseHttpResponse (buffer ++ chunk) locals with
    | .ok (true, response) => [response]
    | _ => []

/-- The calls of the callback in a turn. -/
def reports (c : Call) (g : Session) : Turn → List HttpResponse
  | .user _ =>
    match g.pc with
    | .receiving buffer => passReports c.locals buffer g.stack
    | _ => []
  | .packet _ _ => []

/-- `get` has returned, from behind `connect` or from elsewhere. -/
def Returns (pc : Pc) (receivedComplete : Bool) : Prop :=
  pc = .returned receivedComplete ∨ pc = .refused ∧ receivedComplete = false

/-- A call of `get` on a stack, whatever happened to this before. -/
def called (s : TcpStack) : Session := ⟨s, .connecting, []⟩

/-- No injection fails. -/
def Turn.Injects : Turn → Prop
  | .user a => a.sent ≠ -1
  | .packet _ sent => ∀ n, sent n ≠ -1

/-- The capture thread alone. -/
def arrivals (s : TcpStack) (packets : List (Packet × (Nat → Int))) : TcpStack :=
  packets.foldl (fun t p => processPacket t p.1 p.2) s

/-- The connection is in neither of the two states, and no packet can establish it any more. -/
structure Released (s : TcpStack) : Prop where
  notSynSent : getConnectionState s ≠ .synSent
  notEstablished : getConnectionState s ≠ .established
  stays : ∀ packets, getConnectionState (arrivals s packets) ≠ .established

/-- If `get` has returned, it has released the connection. -/
def ReturnsReleased (g : Session) : Prop :=
  ∀ receivedComplete, g.pc = .returned receivedComplete → Released g.stack

/-- `get` returns because `wait_for_connection` gave up, with the connection half-open, since no
SYN+ACK has come, or open, since one has come after its last look and no FIN after that. -/
def AbandonsOpen (g : Session) (t : Turn) : Prop :=
  g.pc = .gaveUp ∧ (∃ a, t = .user a) ∧
    (getConnectionState g.stack = .synSent ∨ getConnectionState g.stack = .established)

/-! What the operations leave of a connection whose handshake is over. -/

/-- The stack has a connection past its handshake, and can send on it. -/
structure Usable (s : TcpStack) : Prop where
  handle : s.pcapHandle = true
  connection : ∃ conn, s.currentConnection = some conn ∧ conn.state ≠ .synSent

section Operations

variable {s : TcpStack}

theorem step_pcapHandle (s : TcpStack) (a : Action) : (step s a).pcapHandle = s.pcapHandle :=
  congrArg (·.pcapHandle) (step_settings s a)

theorem usable_step (h : Usable s) {a : Action} (ha : a.keepsConnection = true) :
    Usable (step s a) := by
  obtain ⟨conn, hc, hs⟩ := h.connection
  obtain ⟨conn', hc', hsame⟩ := step_sameConnection hc hs ha
  exact ⟨(step_pcapHandle s a).trans h.handle, conn', hc', hsame.state⟩

theorem usable_established (hp : s.pcapHandle = true)
    (hest : getConnectionState s = .established) : Usable s := by
  refine ⟨hp, ?_⟩
  cases hc : s.currentConnection with
  | none => simp [getConnectionState, hc] at hest
  | some conn =>
    rw [getConnectionState_some hc] at hest
    exact ⟨conn, rfl, by simp [hest]⟩

/-- A packet leads neither back to SYN_SENT nor, from elsewhere, to ESTABLISHED. -/
theorem processPacket_past (packet : Packet) (sent : Nat → Int)
    (hsyn : getConnectionState s ≠ .synSent) (hest : getConnectionState s ≠ .established) :
    getConnectionState (processPacket s packet sent) ≠ .synSent ∧
      getConnectionState (processPacket s packet sent) ≠ .established := by
  cases hr : received s packet with
  | none =>
    rw [processPacket_none sent hr]
    exact ⟨hsyn, hest⟩
  | some pair =>
    obtain ⟨conn, tcp⟩ := pair
    rw [getConnectionState_some (received_some hr).2.1] at hsyn hest
    obtain ⟨events, conn', hmove, hconn, -⟩ := received_moves sent hr
    rw [processPacket_received sent hr, getConnectionState_some hconn]
    cases hmove with
    | idle | ignored => exact ⟨hsyn, hest⟩
    | unanswered _ state | opened _ state => exact absurd state hsyn
    | data _ state | passiveClose _ state => exact absurd state hest
    | finAcked | activeClose | finalAck => simp

theorem released_of_past (hsyn : getConnectionState s ≠ .synSent)
    (hest : getConnectionState s ≠ .established) : Released s := by
  refine ⟨hsyn, hest, ?_⟩
  intro packets
  induction packets generalizing s with
  | nil => exact hest
  | cons p packets ih =>
    obtain ⟨hsyn', hest'⟩ := processPacket_past p.1 p.2 hsyn hest
    exact ih hsyn' hest'

theorem released_processPacket (h : Released s) (packet : Packet) (sent : Nat → Int) :
    Released (processPacket s packet sent) := by
  obtain ⟨hsyn, hest⟩ := processPacket_past packet sent h.notSynSent h.notEstablished
  exact released_of_past hsyn hest

/-- `wait_for_connection` succeeds only on an established connection. -/
theorem waitForConnectionPass_established {w : WaitLocals} {now later sent : Int}
    (h : (waitForConnectionPass s w now later sent).2.2 = .established) :
    (waitForConnectionPass s w now later sent).1 = s ∧ getConnectionState s = .established := by
  by_cases hest : (s.currentConnection.isSome && getConnectionState s == .established) = true
  · rw [waitForConnectionPass, if_pos hest]
    rw [Bool.and_eq_true, beq_iff_eq] at hest
    exact ⟨rfl, hest.2⟩
  · have hresult : (waitForConnectionPass s w now later sent).2.2 =
        if later - w.startTime ≥ w.timeoutMs then .timedOut else .again := by
      rw [waitForConnectionPass, if_neg hest]
      dsimp only
      split
      · cases sendTcpPacket s tcpSyn [] sent with
        | mk s' ok => cases ok <;> rfl
      · rfl
    rw [hresult] at h
    split at h <;> cases h

/-- `send_data` fails only where there is nothing to send on. -/
theorem sendData_refused (h : Usable s) (data : Bytes) {sent : Int} (hsent : sent ≠ -1)
    (hfail : (sendData s data sent).2 = false) : Released (sendData s data sent).1 := by
  obtain ⟨conn, hc, hs⟩ := h.connection
  have hstate := getConnectionState_some hc
  by_cases hest : conn.state = .established
  · have hok : sendData s data sent = (afterSend s conn (tcpPsh ||| tcpAck) data, true) := by
      simp only [sendData, hc, hstate, hest]
      exact sendTcpPacket_ok _ data hc h.handle hsent
    rw [hok] at hfail
    cases hfail
  · have hidle : sendData s data sent = (s, false) := by simp [sendData, hc, hstate, hest]
    rw [hidle]
    apply released_of_past
    · rwa [hstate]
    · rwa [hstate]

theorem closeConnection_releases (h : Usable s) {sent : Int} (hsent : sent ≠ -1) :
    Released (closeConnection s sent).1 := by
  obtain ⟨conn, hc, hs⟩ := h.connection
  have hstate := getConnectionState_some hc
  by_cases hest : conn.state = .established
  · have hfin := sendTcpPacket_ok (tcpFin ||| tcpAck) [] hc h.handle hsent
    have hclose : (closeConnection s sent).1 =
        setState (afterSend s conn (tcpFin ||| tcpAck) []) .finWait1 := by
      simp only [closeConnection, hstate, hest, hc, hfin]
      rfl
    have hwait : getConnectionState (closeConnection s sent).1 = .finWait1 := by
      rw [hclose]
      rfl
    apply released_of_past
    · simp [hwait]
    · simp [hwait]
  · have hclosed : getConnectionState (closeConnection s sent).1 = .closed := by
      by_cases hend : conn.state = .closed
      · simp [closeConnection, hstate, hend]
      · have hclose : (closeConnection s sent).1 = setState s .closed := by
          simp [closeConnection, hc, hstate, hest, hend]
        rw [hclose, getConnectionState, setState_currentConnection, hc, Option.map_some]
    apply released_of_past
    · simp [hclosed]
    · simp [hclosed]

end Operations

/-! The steps of a call. -/

/-- The ways a step of `get` ends: where it starts, what it relies on, and what it leaves. -/
inductive Advances (c : Call) (a : Answers) (s : TcpStack) (chunks : List Bytes) :
    Pc → Session → Prop
  | refused {s' : TcpStack} : Advances c a s chunks .connecting ⟨s', .refused, chunks⟩
  | connected {s' : TcpStack} {w : WaitLocals} (handle : s'.pcapHandle = true) :
      Advances c a s chunks .connecting ⟨s', .waiting w, chunks⟩
  | waits {w w' : WaitLocals} : Advances c a s chunks (.waiting w)
      ⟨step s (.waitForConnectionPass w a.now a.later a.sent), .waiting w', chunks⟩
  | givesUp {w : WaitLocals} : Advances c a s chunks (.waiting w)
      ⟨step s (.waitForConnectionPass w a.now a.later a.sent), .gaveUp, chunks⟩
  | established {w : WaitLocals} (state : getConnectionState s = .established) :
      Advances c a s chunks (.waiting w) ⟨s, .sending, chunks⟩
  | abandons : Advances c a s chunks .gaveUp ⟨s, .returned false, chunks⟩
  | asks : Advances c a s chunks .sending
      ⟨step s (.sendData c.request a.sent), .receiving [], chunks⟩
  | cannotAsk (failed : (sendData s c.request a.sent).2 = false) :
      Advances c a s chunks .sending ⟨(sendData s c.request a.sent).1, .leaving false, chunks⟩
  | polls {buffer : Bytes} :
      Advances c a s chunks (.receiving buffer) ⟨step s .waitForData, .receiving buffer, chunks⟩
  | expires {buffer : Bytes} :
      Advances c a s chunks (.receiving buffer) ⟨step s .waitForData, .closing false, chunks⟩
  | reads {buffer chunk : Bytes}
      (parsed : parseHttpResponse (buffer ++ chunk) c.locals = .ok (false, c.locals)) :
      Advances c a s chunks (.receiving buffer)
        ⟨step s .waitForData, .receiving (buffer ++ chunk), chunks ++ [chunk]⟩
  | completes {buffer chunk : Bytes} {response : HttpResponse}
      (parsed : parseHttpResponse (buffer ++ chunk) c.locals = .ok (true, response)) :
      Advances c a s chunks (.receiving buffer)
        ⟨step s .waitForData, .closing true, chunks ++ [chunk]⟩
  | throws {buffer chunk : Bytes} {e : Fault}
      (parsed : parseHttpResponse (buffer ++ chunk) c.locals = .error e) :
      Advances c a s chunks (.receiving buffer)
        ⟨step s .waitForData, .thrown e, chunks ++ [chunk]⟩
  | closes {receivedComplete : Bool} : Advances c a s chunks (.closing receivedComplete)
      ⟨(closeConnection s a.sent).1, .leaving receivedComplete, chunks⟩
  | returns {receivedComplete : Bool} : Advances c a s chunks (.leaving receivedComplete)
      ⟨s, .returned receivedComplete, chunks⟩
  | ended {pc : Pc} (idle : advance c ⟨s, pc, chunks⟩ a = ⟨s, pc, chunks⟩) :
      Advances c a s chunks pc ⟨s, pc, chunks⟩

/-! What each turn of the user thread can do. -/

section Turns

variable (c : Call) (a : Answers) (s : TcpStack) (chunks : List Bytes)

theorem advance_connecting :
    Advances c a s chunks .connecting (advance c ⟨s, .connecting, chunks⟩ a) := by
  cases hconnect : connect s c.remoteIp c.port a.localPort a.iss a.filterSet a.sent with
  | mk s' ok =>
    simp only [advance, hconnect]
    cases ok with
    | false => exact .refused
    | true =>
      obtain ⟨hp, rfl⟩ := connect_ok hconnect
      exact .connected hp

theorem advance_waiting (w : WaitLocals) :
    Advances c a s chunks (.waiting w) (advance c ⟨s, .waiting w, chunks⟩ a) := by
  cases hpass : waitForConnectionPass s w a.now a.later a.sent with
  | mk s' rest =>
    obtain ⟨w', result⟩ := rest
    have hstep : step s (.waitForConnectionPass w a.now a.later a.sent) = s' :=
      congrArg Prod.fst hpass
    simp only [advance, hpass]
    rw [← hstep]
    cases result with
    | timedOut => exact .givesUp
    | again => exact .waits
    | established =>
      obtain ⟨hsame, hest⟩ := waitForConnectionPass_established (congrArg (·.2.2) hpass)
      rw [show step s (.waitForConnectionPass w a.now a.later a.sent) = s from hsame]
      exact .established hest

theorem advance_sending :
    Advances c a s chunks .sending (advance c ⟨s, .sending, chunks⟩ a) := by
  cases hsend : sendData s c.request a.sent with
  | mk s' ok =>
    have hstep : (sendData s c.request a.sent).1 = s' := congrArg Prod.fst hsend
    simp only [advance, hsend]
    rw [← hstep]
    cases ok with
    | true => exact .asks
    | false => exact .cannotAsk (congrArg Prod.snd hsend)

theorem advance_receiving (buffer : Bytes) :
    Advances c a s chunks (.receiving buffer) (advance c ⟨s, .receiving buffer, chunks⟩ a) := by
  cases hpop : waitForData s with
  | mk s' popped =>
    have hstep : step s .waitForData = s' := congrArg Prod.fst hpop
    simp only [advance, hpop]
    rw [← hstep]
    cases popped with
    | none =>
      cases a.expired with
      | true => exact .expires
      | false => exact .polls
    | some chunk =>
      rcases parse_cases (buffer ++ chunk) c.locals with
        ⟨-, hnext⟩ | ⟨-, -, ⟨what, -, hnext⟩ | ⟨response, -, hnext⟩⟩
      · simp only [hnext]
        exact .reads hnext
      · simp only [hnext]
        exact .throws hnext
      · simp only [hnext]
        exact .completes hnext

/-- The inversion lemma of `advance`. -/
theorem advance_cases (pc : Pc) : Advances c a s chunks pc (advance c ⟨s, pc, chunks⟩ a) := by
  cases pc with
  | connecting => exact advance_connecting c a s chunks
  | waiting w => exact advance_waiting c a s chunks w
  | sending => exact advance_sending c a s chunks
  | receiving buffer => exact advance_receiving c a s chunks buffer
  | gaveUp => exact .abandons
  | closing receivedComplete => exact .closes
  | leaving receivedComplete => exact .returns
  | refused | returned | thrown => exact .ended rfl

end Turns

/-! The invariant of a call, by where it stands. -/

/-- What each point of `get` can rely on, whatever packets come in. -/
def Ambient (g : Session) : Prop :=
  match g.pc with
  | .waiting _ => g.stack.pcapHandle = true
  | .sending | .receiving _ | .closing _ => Usable g.stack
  | .leaving _ => Released g.stack
  | .connecting | .refused | .gaveUp | .returned _ | .thrown _ => True

theorem ambient_packet {g : Session} (h : Ambient g) (packet : Packet) (sent : Nat → Int) :
    Ambient { g with stack := processPacket g.stack packet sent } := by
  have hkeeps : (Action.processPacket packet sent).keepsConnection = true := rfl
  obtain ⟨s, pc, chunks⟩ := g
  cases pc with
  | waiting w => exact (step_pcapHandle s (.processPacket packet sent)).trans h
  | sending | receiving | closing => exact usable_step h hkeeps
  | leaving => exact released_processPacket h packet sent
  | connecting | refused | gaveUp | returned | thrown => trivial

theorem ambient_advance (c : Call) {g : Session} (h : Ambient g) {a : Answers}
    (hsent : a.sent ≠ -1) : Ambient (advance c g a) := by
  obtain ⟨s, pc, chunks⟩ := g
  have hstep := advance_cases c a s chunks pc
  generalize advance c ⟨s, pc, chunks⟩ a = g' at hstep
  cases hstep with
  | refused | givesUp | abandons | throws | returns => trivial
  | connected handle => exact handle
  | waits => exact (step_pcapHandle s _).trans h
  | established state => exact usable_established h state
  | asks => exact usable_step (a := .sendData c.request a.sent) h rfl
  | polls | expires | reads | completes => exact usable_step (a := .waitForData) h rfl
  | cannotAsk failed => exact sendData_refused h c.request hsent failed
  | closes => exact closeConnection_releases h hsent
  | ended => exact h

theorem ambient_turn (c : Call) {g : Session} (h : Ambient g) {t : Turn} (ht : t.Injects) :
    Ambient (turn c g t) := by
  cases t with
  | user a => exact ambient_advance c h ht
  | packet packet sent => exact ambient_packet h packet sent

/-- Only the last step of `get` makes a session a returned one. -/
theorem advance_returned (c : Call) {g : Session} (a : Answers) {receivedComplete : Bool}
    (h : (advance c g a).pc = .returned receivedComplete) :
    (advance c g a).stack = g.stack ∧
      (g.pc = .gaveUp ∨ ∃ complete, g.pc = .leaving complete ∨ g.pc = .returned complete) := by
  obtain ⟨s, pc, chunks⟩ := g
  have hstep := advance_cases c a s chunks pc
  generalize advance c ⟨s, pc, chunks⟩ a = g' at hstep h
  cases hstep with
  | abandons => exact ⟨rfl, .inl rfl⟩
  | returns => exact ⟨rfl, .inr ⟨_, .inl rfl⟩⟩
  | ended => exact ⟨rfl, .inr ⟨_, .inr h⟩⟩
  | refused | connected | waits | givesUp | established | asks | cannotAsk | polls | expires
  | reads | completes | throws | closes => cases h

/-- The step lemma: a call that has kept its promise so far breaks it exactly by leaving through
the time-out of `wait_for_connection` with the connection open or half-open. -/
theorem returnsReleased_turn (c : Call) {g : Session} (hamb : Ambient g)
    (h : ReturnsReleased g) (t : Turn) :
    ReturnsReleased (turn c g t) ↔ ¬ AbandonsOpen g t := by
  cases t with
  | packet packet sent =>
    constructor
    · rintro - ⟨-, ⟨a, ha⟩, -⟩
      cases ha
    · intro _ receivedComplete hreturned
      exact released_processPacket (h receivedComplete hreturned) packet sent
  | user a =>
    constructor
    · rintro hnext ⟨hgave, -, hopen⟩
      have hstep : turn c g (.user a) = { g with pc := .returned false } := by
        rw [turn, advance, hgave]
      rw [hstep] at hnext
      have hreleased := hnext false rfl
      rcases hopen with hsyn | hest
      · exact hreleased.notSynSent hsyn
      · exact hreleased.notEstablished hest
    · intro hno receivedComplete hreturned
      obtain ⟨hstack, hgave | ⟨complete, hleaving | hbefore⟩⟩ := advance_returned c a hreturned
      · rw [turn, hstack]
        apply released_of_past
        · intro hsyn
          exact hno ⟨hgave, ⟨a, rfl⟩, .inl hsyn⟩
        · intro hest
          exact hno ⟨hgave, ⟨a, rfl⟩, .inr hest⟩
      · rw [turn, hstack]
        rw [Ambient, hleaving] at hamb
        exact hamb
      · rw [turn, hstack]
        exact h complete hbefore

/-- In every interleaving with the capture thread in which no injection fails, `get` has released
its connection whenever it has returned, exactly if it never gives up waiting for a connection
that is still half-open, or by then open. -/
theorem get_releases_iff (c : Call) (s : TcpStack) {turns : List Turn}
    (h : ∀ t ∈ turns, t.Injects) :
    (∀ pre, pre <+: turns → ReturnsReleased (run (turn c) (called s) pre)) ↔
      EachStep (turn c) (fun g t => ¬ AbandonsOpen g t) (called s) turns := by
  have hamb : Ambient (called s) := trivial
  have hstart : ReturnsReleased (called s) := by
    intro receivedComplete hreturned
    cases hreturned
  have hkeep : ∀ g t, Ambient g → t.Injects → Ambient (turn c g t) :=
    fun _ _ hg ht => ambient_turn c hg ht
  have hexact : ∀ g t, Ambient g → t.Injects → ReturnsReleased g →
      (ReturnsReleased (turn c g t) ↔ ¬ AbandonsOpen g t) :=
    fun _ t hg _ hreturns => returnsReleased_turn c hg hreturns t
  exact invariant_iff_eachStep hkeep hexact hamb hstart h

/-! What a call returns and reports is what `get` computes from the chunks that it has read. -/

/-- What `get` has computed from the chunks so far, and the calls of the callback that it has made,
by where it stands. -/
def Refines (c : Call) (pc : Pc) (chunks : List Bytes) (callbacks : List HttpResponse) : Prop :=
  match pc with
  | .connecting | .waiting _ | .sending => chunks = [] ∧ callbacks = []
  | .receiving buffer => callbacks = [] ∧
    ∀ more, receiveLoop c.locals [] (chunks ++ more) = receiveLoop c.locals buffer more
  | .refused | .gaveUp => ∃ buffer,
    receiveLoop c.locals [] chunks = .ok ⟨false, buffer, callbacks⟩
  | .closing receivedComplete | .leaving receivedComplete | .returned receivedComplete =>
    ∃ buffer, receiveLoop c.locals [] chunks = .ok ⟨receivedComplete, buffer, callbacks⟩
  | .thrown e => callbacks = [] ∧ receiveLoop c.locals [] chunks = .error e

section Refines

variable (c : Call) {chunks : List Bytes} {callbacks : List HttpResponse}

/-- A loop that has read nothing has reported nothing. -/
theorem unread_reception (hread : chunks = [] ∧ callbacks = []) :
    ∃ buffer, receiveLoop c.locals [] chunks = .ok ⟨false, buffer, callbacks⟩ := by
  obtain ⟨rfl, rfl⟩ := hread
  exact ⟨[], rfl⟩

/-- The steps between the passes of the receive loop call no callback. -/
theorem refines_advance (s : TcpStack) (a : Answers) {pc : Pc}
    (hother : ∀ buffer, pc ≠ .receiving buffer) (h : Refines c pc chunks callbacks) :
    Refines c (advance c ⟨s, pc, chunks⟩ a).pc (advance c ⟨s, pc, chunks⟩ a).chunks callbacks := by
  have hstep := advance_cases c a s chunks pc
  generalize advance c ⟨s, pc, chunks⟩ a = g at hstep
  cases hstep with
  | polls | expires | reads | completes | throws => exact absurd rfl (hother _)
  | refused | givesUp | cannotAsk => exact unread_reception c h
  | asks =>
    obtain ⟨rfl, rfl⟩ := h
    exact ⟨rfl, fun more => rfl⟩
  | connected | waits | established | abandons | closes | returns | ended => exact h

/-- A pass of the receive loop does what `receiveLoop` does with the next chunk. -/
theorem refines_receiving (s : TcpStack) (a : Answers) (buffer : Bytes)
    (h : Refines c (.receiving buffer) chunks callbacks) :
    Refines c (advance c ⟨s, .receiving buffer, chunks⟩ a).pc
      (advance c ⟨s, .receiving buffer, chunks⟩ a).chunks
      (callbacks ++ passReports c.locals buffer s) := by
  obtain ⟨rfl, hloop⟩ := h
  simp only [advance, passReports, List.nil_append]
  cases waitForData s with
  | mk s' popped =>
    cases popped with
    | none =>
      have hend := hloop []
      rw [List.append_nil] at hend
      dsimp only
      cases a.expired with
      | false => exact ⟨rfl, hloop⟩
      | true => exact ⟨buffer, hend⟩
    | some chunk =>
      have hnext := hloop [chunk]
      rw [receiveLoop] at hnext
      dsimp only
      cases hparse : parseHttpResponse (buffer ++ chunk) c.locals with
      | error e =>
        rw [hparse] at hnext
        exact ⟨rfl, hnext⟩
      | ok parsed =>
        obtain ⟨complete, response⟩ := parsed
        cases complete with
        | true =>
          rw [hparse] at hnext
          exact ⟨buffer ++ chunk, hnext⟩
        | false =>
          refine ⟨rfl, ?_⟩
          intro more
          rw [List.append_assoc, hloop ([chunk] ++ more), List.singleton_append, receiveLoop, hparse]
          rfl

theorem refines_turn {g : Session} (h : Refines c g.pc g.chunks callbacks) (t : Turn) :
    Refines c (turn c g t).pc (turn c g t).chunks (callbacks ++ reports c g t) := by
  obtain ⟨s, pc, chunks⟩ := g
  cases t with
  | packet packet sent =>
    rw [reports, List.append_nil]
    exact h
  | user a =>
    cases pc with
    | receiving buffer => exact refines_receiving c s a buffer h
    | _ =>
      simp only [reports, List.append_nil]
      exact refines_advance c s a (by simp) h

theorem refines_run (s : TcpStack) (turns : List Turn) :
    Refines c (run (turn c) (called s) turns).pc (run (turn c) (called s) turns).chunks
      (collect (turn c) (reports c) (called s) turns) := by
  have hstart : Refines c (called s).pc (called s).chunks [] := ⟨rfl, rfl⟩
  have hkeep : ∀ g t callbacks, Refines c g.pc g.chunks callbacks →
      Refines c (turn c g t).pc (turn c g t).chunks (callbacks ++ reports c g t) :=
    fun _ t _ hg => refines_turn c hg t
  exact collect_invariant hkeep hstart

/-- What the receive loop computes from its chunks, `get` does if its other calls succeed. -/
theorem get_of_receiveLoop {reception : Reception}
    (hloop : receiveLoop c.locals [] chunks = .ok reception) :
    Client.get ⟨true, true, true, chunks⟩ c.locals c.host c.path =
      .ok ⟨reception.receivedComplete, some c.request, reception.callbacks⟩ := by
  show (receiveLoop c.locals [] chunks >>= fun reception => .ok _) = _
  rw [hloop]
  rfl

theorem get_of_thrown {e : Fault} (hloop : receiveLoop c.locals [] chunks = .error e) :
    Client.get ⟨true, true, true, chunks⟩ c.locals c.host c.path = .error e := by
  show (receiveLoop c.locals [] chunks >>= fun reception => .ok _) = _
  rw [hloop]
  rfl

/-- In every interleaving, what a call returns, the responses that it hands to the callback, and
the exception that leaves it, are those of `get` on the chunks that `wait_for_data` has returned to
it. A call that has read nothing returns `false`, as `get` does on no chunks. -/
theorem call_refines_get (s : TcpStack) (turns : List Turn) :
    (∀ receivedComplete,
        Returns (run (turn c) (called s) turns).pc receivedComplete →
        ∃ result, Client.get ⟨true, true, true, (run (turn c) (called s) turns).chunks⟩ c.locals
            c.host c.path = .ok result ∧ result.returned = receivedComplete ∧
          result.callbacks = collect (turn c) (reports c) (called s) turns) ∧
      ∀ e, (run (turn c) (called s) turns).pc = .thrown e →
        Client.get ⟨true, true, true, (run (turn c) (called s) turns).chunks⟩ c.locals c.host
            c.path = .error e ∧
          collect (turn c) (reports c) (called s) turns = [] := by
  have hend := refines_run c s turns
  generalize run (turn c) (called s) turns = g at hend ⊢
  generalize collect (turn c) (reports c) (called s) turns = callbacks at hend ⊢
  constructor
  · rintro receivedComplete (hreturned | ⟨hrefused, rfl⟩)
    · rw [hreturned] at hend
      obtain ⟨buffer, hloop⟩ := hend
      exact ⟨_, get_of_receiveLoop c hloop, rfl, rfl⟩
    · rw [hrefused] at hend
      obtain ⟨buffer, hloop⟩ := hend
      exact ⟨_, get_of_receiveLoop c hloop, rfl, rfl⟩
  · intro e hthrown
    rw [hthrown] at hend
    exact ⟨get_of_thrown c hend.2, hend.1⟩

end Refines

/-! A call against a sample server, which answers and closes, and against one that answers late. -/

def sampleCall : Call :=
  ⟨ascii "10.0.0.9", ascii "/", 0x0A000009, 80, ⟨0, [], ∅, []⟩⟩

/-- A step of `get` at time `now`. -/
def sampleStep (now : Int) : Turn := .user ⟨40000, 1000, true, now, now, 54, false⟩

def sampleArrival (packet : Packet) : Turn := .packet packet fun _ => 54

/-- The SYN+ACK of the server. -/
def sampleSynAck : Packet := sampleSegment 0x0A000009 40000 5000 1001 (tcpSyn ||| tcpAck) []

/-- The response in one segment, and a step of `get` after each event. -/
def sampleExchange : List Turn :=
  [sampleStep 0, sampleArrival sampleSynAck, sampleStep 10, sampleStep 20,
    sampleArrival (sampleData 5001 (ascii "HTTP/1.1 200 OK" ++ crlf ++ crlf)), sampleStep 30,
    sampleStep 40, sampleStep 50]

/-- `get` sends its SYN four times and gives up after ten seconds. -/
def sampleSilence : List Turn :=
  [sampleStep 0, sampleStep 3000, sampleStep 6000, sampleStep 9000, sampleStep 10000,
    sampleStep 10010]

theorem get_releases_iff_sample :
    (∀ pre, pre <+: sampleExchange →
        ReturnsReleased (run (turn sampleCall) (called sampleClient) pre)) ↔
      EachStep (turn sampleCall) (fun g t => ¬ AbandonsOpen g t) (called sampleClient)
        sampleExchange :=
  get_releases_iff sampleCall sampleClient
    (by simp [sampleExchange, sampleStep, sampleArrival, Turn.Injects])

/-- A SYN+ACK that comes after `get` has returned establishes a connection nobody owns. -/
theorem late_reply_establishes :
    ¬ ∀ pre, pre <+: sampleSilence →
        ReturnsReleased (run (turn sampleCall) (called sampleClient) pre) := by
  intro h
  have hreleased := h sampleSilence (List.prefix_refl _) false rfl
  exact absurd (hreleased.stays [(sampleSynAck, fun _ => 54)]) (by decide +kernel)

end MyTelnet.Http.Sessions
