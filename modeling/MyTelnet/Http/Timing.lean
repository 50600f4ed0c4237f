/- module: MyTelnet/Http/Timing
   scope: model and proofs
   digest: get against the clock: it ends, its SYNs keep their distance, its time-outs are kept. -/

import MyTelnet.Base.Fairness
import MyTelnet.Http.Sessions
import MyTelnet.Stack.Handoff

set_option autoImplicit false
set_option relaxedAutoImplicit false

namespace MyTelnet.Http.Timing

open MyTelnet.Base.ByteOrder MyTelnet.Base.Runs MyTelnet.Base.Fairness MyTelnet.Wire.Layers
open MyTelnet.Stack.State MyTelnet.Stack.Send MyTelnet.Stack.Operations MyTelnet.Stack.Receive
open MyTelnet.Stack.Run MyTelnet.Stack.Effects MyTelnet.Stack.Reactions MyTelnet.Stack.Steps
open MyTelnet.Stack.Handshake MyTelnet.Stack.Moves MyTelnet.Stack.Handoff
open MyTelnet.Http.Strings MyTelnet.Http.Client MyTelnet.Http.Sessions

/-- What the outside world answers to one step of `get`, and the milliseconds that pass: `spent`
until the step looks at the clock again, `delay` after that, beyond the sleep `get` asks for. -/
structure Pass where
  localPort : UInt16
  iss : UInt32
  filterSet : Bool
  sent : Int
  spent : Nat
  delay : Nat

/-- A session and the steady clock. -/
structure Timed where
  session : Session
  clock : Int
  /-- `start_time` of the `wait_for_data` in progress. -/
  startTime : Int

inductive TimedTurn where
  | user (p : Pass)
  | packet (packet : Packet) (sent : Nat → Int)

/-- The time-out that `get` passes to `wait_for_data`. -/
def receiveTimeoutMs : Int := 5000

/-- The sleep of both waiting loops. -/
def pollIntervalMs : Int := 10

/-- When the step looks at the clock again. -/
def Timed.later (w : Timed) (p : Pass) : Int := w.clock + p.spent

/-- The time-out test of `wait_for_data`. -/
def Timed.expired (w : Timed) (p : Pass) : Bool := w.later p - w.startTime ≥ receiveTimeoutMs

def Timed.answers (w : Timed) (p : Pass) : Answers :=
  ⟨p.localPort, p.iss, p.filterSet, w.clock, w.later p, p.sent, w.expired p⟩

/-- The step was a pass of a waiting loop that goes on. -/
def sleeps (g g' : Session) : Bool :=
  match g.pc, g'.pc with
  | .waiting _, .waiting _ => true
  | .receiving _, .receiving _ => g'.chunks.length == g.chunks.length
  | _, _ => false

/-- One step of `get` by the clock. Where it ends no pass of a loop, a wait begins after it. -/
def tick (c : Call) (w : Timed) (p : Pass) : Timed :=
  let session := advance c w.session (w.answers p)
  if sleeps w.session session then ⟨session, w.later p + pollIntervalMs + p.delay, w.startTime⟩
  else ⟨session, w.later p + p.delay, w.later p + p.delay⟩

theorem tick_session (c : Call) (w : Timed) (p : Pass) :
    (tick c w p).session = advance c w.session (w.answers p) := by
  rw [tick]
  split <;> rfl

def timedTurn (c : Call) (w : Timed) : TimedTurn → Timed
  | .user p => tick c w p
  | .packet packet sent =>
    { w with session := { w.session with stack := processPacket w.session.stack packet sent } }

/-- A call of `get` at time `now`. -/
def calledAt (s : TcpStack) (now : Int) : Timed := ⟨called s, now, now⟩

/-! The steps of a call, by the clock. -/

/-- A session whose next wait, if there is one, begins with the step that is over. -/
def lapsed (p : Pass) (now : Int) (session : Session) : Timed :=
  ⟨session, now + p.spent + p.delay, now + p.spent + p.delay⟩

def connectBy (c : Call) (p : Pass) : Action :=
  .connect c.remoteIp c.port p.localPort p.iss p.filterSet p.sent

def passBy (w : WaitLocals) (now : Int) (p : Pass) : Action :=
  .waitForConnectionPass w now (now + p.spent) p.sent

/-- `get` is over. -/
def Over (pc : Pc) : Prop :=
  pc = .refused ∨ (∃ receivedComplete, pc = .returned receivedComplete) ∨ ∃ e, pc = .thrown e

/-- The ways a step of `get` ends, with the times that decide it. -/
inductive Ticks (c : Call) (p : Pass) (s : TcpStack) (chunks : List Bytes) (now startTime : Int) :
    Pc → Timed → Prop
  | refused : Ticks c p s chunks now startTime .connecting
      (lapsed p now ⟨step s (connectBy c p), .refused, chunks⟩)
  | connected : Ticks c p s chunks now startTime .connecting (lapsed p now
      ⟨step s (connectBy c p),
        .waiting (waitForConnectionStart defaultTimeoutMs (now + p.spent)), chunks⟩)
  | waits {w w' : WaitLocals}
      (locals : (waitForConnectionPass s w now (now + p.spent) p.sent).2.1 = w')
      (early : now + p.spent - w.startTime < w.timeoutMs) :
      Ticks c p s chunks now startTime (.waiting w)
        ⟨⟨step s (passBy w now p), .waiting w', chunks⟩,
          now + p.spent + pollIntervalMs + p.delay, startTime⟩
  | givesUp {w : WaitLocals} (late : now + p.spent - w.startTime ≥ w.timeoutMs) :
      Ticks c p s chunks now startTime (.waiting w)
        (lapsed p now ⟨step s (passBy w now p), .gaveUp, chunks⟩)
  | established {w : WaitLocals} : Ticks c p s chunks now startTime (.waiting w)
      (lapsed p now ⟨s, .sending, chunks⟩)
  | abandons :
      Ticks c p s chunks now startTime .gaveUp (lapsed p now ⟨s, .returned false, chunks⟩)
  | asks : Ticks c p s chunks now startTime .sending
      (lapsed p now ⟨step s (.sendData c.request p.sent), .receiving [], chunks⟩)
  | cannotAsk : Ticks c p s chunks now startTime .sending
      (lapsed p now ⟨step s (.sendData c.request p.sent), .leaving false, chunks⟩)
  | polls {buffer : Bytes} (queue : s.dataQueue = [])
      (early : now + p.spent - startTime < receiveTimeoutMs) :
      Ticks c p s chunks now startTime (.receiving buffer)
        ⟨⟨s, .receiving buffer, chunks⟩, now + p.spent + pollIntervalMs + p.delay, startTime⟩
  | expires {buffer : Bytes} (queue : s.dataQueue = [])
      (late : now + p.spent - startTime ≥ receiveTimeoutMs) :
      Ticks c p s chunks now startTime (.receiving buffer)
        (lapsed p now ⟨s, .closing false, chunks⟩)
  | takes {buffer chunk : Bytes} {rest : List Bytes} {pc : Pc}
      (queue : s.dataQueue = chunk :: rest)
      (next : pc = .receiving (buffer ++ chunk) ∨ pc = .closing true ∨ ∃ e, pc = .thrown e) :
      Ticks c p s chunks now startTime (.receiving buffer)
        (lapsed p now ⟨step s .waitForData, pc, chunks ++ [chunk]⟩)
  | closes {receivedComplete : Bool} : Ticks c p s chunks now startTime (.closing receivedComplete)
      (lapsed p now ⟨step s (.closeConnection p.sent), .leaving receivedComplete, chunks⟩)
  | returns {receivedComplete : Bool} :
      Ticks c p s chunks now startTime (.leaving receivedComplete)
        (lapsed p now ⟨s, .returned receivedComplete, chunks⟩)
  | ended {pc : Pc} (final : Over pc) :
      Ticks c p s chunks now startTime pc (lapsed p now ⟨s, pc, chunks⟩)

section Ticks

variable (c : Call) (p : Pass) (s : TcpStack) (chunks : List Bytes) (now startTime : Int)

theorem waitForConnectionPass_result (w : WaitLocals) (later sent : Int) :
    (waitForConnectionPass s w now later sent).2.2 = .established ∧
        (waitForConnectionPass s w now later sent).1 = s ∨
      (waitForConnectionPass s w now later sent).2.2 = .timedOut ∧
        later - w.startTime ≥ w.timeoutMs ∨
      (waitForConnectionPass s w now later sent).2.2 = .again ∧
        later - w.startTime < w.timeoutMs := by
  by_cases hest : (s.currentConnection.isSome && getConnectionState s == .established) = true
  · left
    rw [waitForConnectionPass, if_pos hest]
    exact ⟨rfl, rfl⟩
  · have hresult : (waitForConnectionPass s w now later sent).2.2 =
        if later - w.startTime ≥ w.timeoutMs then .timedOut else .again := by
      rw [waitForConnectionPass, if_neg hest]
      dsimp only
      split
      · cases sendTcpPacket s tcpSyn [] sent with
        | mk s' ok => cases ok <;> rfl
      · rfl
    right
    by_cases hlate : later - w.startTime ≥ w.timeoutMs
    · exact .inl ⟨by rw [hresult, if_pos hlate], hlate⟩
    · exact .inr ⟨by rw [hresult, if_neg hlate], by omega⟩

theorem tick_connecting :
    Ticks c p s chunks now startTime .connecting
      (tick c ⟨⟨s, .connecting, chunks⟩, now, startTime⟩ p) := by
  cases hconnect : connect s c.remoteIp c.port p.localPort p.iss p.filterSet p.sent with
  | mk s' ok =>
    have hstep : step s (connectBy c p) = s' := congrArg Prod.fst hconnect
    have hadvance : advance c ⟨s, .connecting, chunks⟩
        (Timed.answers ⟨⟨s, .connecting, chunks⟩, now, startTime⟩ p) = ⟨s', if ok then
          .waiting (waitForConnectionStart defaultTimeoutMs (now + p.spent)) else .refused,
          chunks⟩ := by
      simp only [advance, Timed.answers, hconnect]
      rfl
    rw [tick, hadvance, ← hstep]
    cases ok with
    | true => exact .connected
    | false => exact .refused

/-- Where a pass of `wait_for_connection` leads `get`. -/
def pcAfter (w : WaitLocals) : WaitResult → Pc
  | .established => .sending
  | .timedOut => .gaveUp
  | .again => .waiting w

theorem tick_waiting (w : WaitLocals) :
    Ticks c p s chunks now startTime (.waiting w)
      (tick c ⟨⟨s, .waiting w, chunks⟩, now, startTime⟩ p) := by
  have hcases := waitForConnectionPass_result s now w (now + p.spent) p.sent
  cases hpass : waitForConnectionPass s w now (now + p.spent) p.sent with
  | mk s' rest =>
    obtain ⟨w', result⟩ := rest
    have hstep : step s (passBy w now p) = s' := congrArg Prod.fst hpass
    have hadvance : advance c ⟨s, .waiting w, chunks⟩
        (Timed.answers ⟨⟨s, .waiting w, chunks⟩, now, startTime⟩ p) =
        ⟨s', pcAfter w' result, chunks⟩ := by
      simp only [advance, Timed.answers, Timed.later, hpass]
      cases result <;> rfl
    rw [hpass] at hcases
    rw [tick, hadvance]
    rcases hcases with ⟨rfl, rfl⟩ | ⟨rfl, hlate⟩ | ⟨rfl, hearly⟩
    · exact .established
    · rw [← hstep]
      exact .givesUp hlate
    · rw [← hstep]
      exact .waits (congrArg (·.2.1) hpass) hearly

theorem tick_sending :
    Ticks c p s chunks now startTime .sending
      (tick c ⟨⟨s, .sending, chunks⟩, now, startTime⟩ p) := by
  cases hsend : sendData s c.request p.sent with
  | mk s' ok =>
    have hstep : step s (.sendData c.request p.sent) = s' := congrArg Prod.fst hsend
    have hadvance : advance c ⟨s, .sending, chunks⟩
        (Timed.answers ⟨⟨s, .sending, chunks⟩, now, startTime⟩ p) =
        ⟨s', if ok then .receiving [] else .leaving false, chunks⟩ := by
      simp only [advance, Timed.answers, hsend]
    rw [tick, hadvance, ← hstep]
    cases ok with
    | true => exact .asks
    | false => exact .cannotAsk

theorem tick_receiving (buffer : Bytes) :
    Ticks c p s chunks now startTime (.receiving buffer)
      (tick c ⟨⟨s, .receiving buffer, chunks⟩, now, startTime⟩ p) := by
  cases hq : s.dataQueue with
  | nil =>
    have hpop : waitForData s = (s, none) := by simp [waitForData, hq]
    by_cases hlate : now + p.spent - startTime ≥ receiveTimeoutMs
    · have hexpired : Timed.expired ⟨⟨s, .receiving buffer, chunks⟩, now, startTime⟩ p = true :=
        decide_eq_true hlate
      have hadvance : advance c ⟨s, .receiving buffer, chunks⟩
          (Timed.answers ⟨⟨s, .receiving buffer, chunks⟩, now, startTime⟩ p) =
          ⟨s, .closing false, chunks⟩ := by
        simp only [advance, Timed.answers, hpop, hexpired, if_true]
      rw [tick, hadvance]
      exact .expires hq hlate
    · have hexpired : Timed.expired ⟨⟨s, .receiving buffer, chunks⟩, now, startTime⟩ p = false :=
        decide_eq_false hlate
      have hadvance : advance c ⟨s, .receiving buffer, chunks⟩
          (Timed.answers ⟨⟨s, .receiving buffer, chunks⟩, now, startTime⟩ p) =
          ⟨s, .receiving buffer, chunks⟩ := by
        simp only [advance, Timed.answers, hpop, hexpired, Bool.false_eq_true, if_false]
      have hsleeps : sleeps ⟨s, .receiving buffer, chunks⟩ ⟨s, .receiving buffer, chunks⟩ = true :=
        beq_self_eq_true _
      rw [tick, hadvance]
      simp only [hsleeps, if_true]
      exact .polls hq (by omega)
  | cons chunk rest =>
    have hpop : waitForData s = (step s .waitForData, some chunk) := by
      simp [step, waitForData, hq]
    have hadvance : ∃ pc, advance c ⟨s, .receiving buffer, chunks⟩
        (Timed.answers ⟨⟨s, .receiving buffer, chunks⟩, now, startTime⟩ p) =
          ⟨step s .waitForData, pc, chunks ++ [chunk]⟩ ∧
        (pc = .receiving (buffer ++ chunk) ∨ pc = .closing true ∨ ∃ e, pc = .thrown e) := by
      simp only [advance, hpop]
      refine ⟨_, rfl, ?_⟩
      split
      · exact .inr (.inr ⟨_, rfl⟩)
      · exact .inr (.inl rfl)
      · exact .inl rfl
    obtain ⟨pc, hadvance, hnext⟩ := hadvance
    have hsleeps : sleeps ⟨s, .receiving buffer, chunks⟩
        ⟨step s .waitForData, pc, chunks ++ [chunk]⟩ = false := by
      rcases hnext with rfl | rfl | ⟨e, rfl⟩
      · simp [sleeps]
      · rfl
      · rfl
    rw [tick, hadvance]
    simp only [hsleeps, Bool.false_eq_true, if_false]
    exact .takes hq hnext

/-- The inversion lemma of `tick`. -/
theorem tick_cases (pc : Pc) :
    Ticks c p s chunks now startTime pc (tick c ⟨⟨s, pc, chunks⟩, now, startTime⟩ p) := by
  cases pc with
  | connecting => exact tick_connecting c p s chunks now startTime
  | waiting w => exact tick_waiting c p s chunks now startTime w
  | sending => exact tick_sending c p s chunks now startTime
  | receiving buffer => exact tick_receiving c p s chunks now startTime buffer
  | gaveUp => exact .abandons
  | closing receivedComplete => exact .closes
  | leaving receivedComplete => exact .returns
  | refused => exact .ended (.inl rfl)
  | returned receivedComplete => exact .ended (.inr (.inl ⟨receivedComplete, rfl⟩))
  | thrown e => exact .ended (.inr (.inr ⟨e, rfl⟩))

end Ticks

/-! What a pass of `wait_for_connection` does to its locals, and the SYNs that are injected. -/

/-- How many SYNs were injected so far. -/
def synCount (s : TcpStack) : Nat := (injectedFrames s).countP isSynFrame

/-- A frame other than a SYN. -/
def NoSyn (frame : Bytes) : Prop := isSynFrame frame = false

theorem synCount_injects {s s' : TcpStack} (h : Injects NoSyn s s') :
    synCount s' = synCount s := by
  obtain ⟨frames, hinj, hno⟩ := h
  have hzero : frames.countP isSynFrame = 0 := by
    rw [List.countP_eq_zero]
    intro frame hf
    rw [hno frame hf]
    exact Bool.false_ne_true
  rw [synCount, hinj, List.countP_append, hzero]
  rfl

theorem isSynFrame_syn (s : TcpStack) (conn : TcpConnection) (id : UInt16) :
    isSynFrame (buildFrame s conn id tcpSyn []) = true := by
  rw [isSynFrame_buildFrame]
  rfl

/-- A SYN is injected, or everything but the identification counter stays. -/
theorem synCount_sendSyn (s : TcpStack) (sent : Int) :
    synCount (sendTcpPacket s tcpSyn [] sent).1 =
      synCount s + if (sendTcpPacket s tcpSyn [] sent).2 then 1 else 0 := by
  rcases sendTcpPacket_cases s tcpSyn [] sent with ⟨id, h⟩ | ⟨conn, -, -, -, h⟩
  · rw [h]
    rfl
  · rw [h]
    simp [synCount, afterSend, Event.frame?, isSynFrame_syn]

/-- Either a SYN was due and went out, or the pass did nothing. -/
theorem pass_effect (s : TcpStack) (w : WaitLocals) (now later sent : Int) :
    ((waitForConnectionPass s w now later sent).2.1 = w ∧
        synCount (waitForConnectionPass s w now later sent).1 = synCount s) ∨
      w.synRetries < maxSynRetries ∧ now - w.lastSynTime ≥ synRetryIntervalMs ∧
        (waitForConnectionPass s w now later sent).2.1 =
          { w with synRetries := w.synRetries + 1, lastSynTime := now } ∧
        synCount (waitForConnectionPass s w now later sent).1 = synCount s + 1 := by
  by_cases hest : (s.currentConnection.isSome && getConnectionState s == .established) = true
  · rw [waitForConnectionPass, if_pos hest]
    exact .inl ⟨rfl, rfl⟩
  · rw [waitForConnectionPass, if_neg hest]
    by_cases hdue : retransmitDue s w now = true
    · have hsyns := synCount_sendSyn s sent
      have hdue' := hdue
      simp only [retransmitDue, Bool.and_eq_true, decide_eq_true_eq] at hdue'
      simp only [hdue, if_true]
      cases hsend : sendTcpPacket s tcpSyn [] sent with
      | mk s' ok =>
        rw [hsend] at hsyns
        cases ok with
        | true => exact .inr ⟨hdue'.2, hdue'.1.2, rfl, hsyns⟩
        | false => exact .inl ⟨rfl, hsyns⟩
    · simp only [hdue]
      exact .inl ⟨rfl, rfl⟩

theorem pass_window (s : TcpStack) (w : WaitLocals) (now later sent : Int) :
    (waitForConnectionPass s w now later sent).2.1.startTime = w.startTime ∧
      (waitForConnectionPass s w now later sent).2.1.timeoutMs = w.timeoutMs := by
  rcases pass_effect s w now later sent with ⟨h, -⟩ | ⟨-, -, h, -⟩
  · rw [h]
    exact ⟨rfl, rfl⟩
  · rw [h]
    exact ⟨rfl, rfl⟩

/-! `get` ends. -/

/-- How often a loop that sleeps after each pass can still pass, if its time-out is `ms` away. -/
def passesLeft (ms : Int) : Nat := ((ms + 9) / 10).toNat + 1

/-- The steps that `get` can still make, if nothing arrives. -/
def budget (w : Timed) : Nat :=
  match w.session.pc with
  | .connecting => 1506 + 501 * w.session.stack.dataQueue.length
  | .waiting l => passesLeft (l.startTime + l.timeoutMs - w.clock) + 504 +
    501 * w.session.stack.dataQueue.length
  | .gaveUp => 1
  | .sending => 504 + 501 * w.session.stack.dataQueue.length
  | .receiving _ => passesLeft (w.startTime + receiveTimeoutMs - w.clock) + 2 +
    501 * w.session.stack.dataQueue.length
  | .closing _ => 2
  | .leaving _ => 1
  | .refused | .returned _ | .thrown _ => 0

theorem passesLeft_pos (ms : Int) : 0 < passesLeft ms := Nat.succ_pos _

theorem passesLeft_le {ms : Int} {n : Nat} (h : ms ≤ 10 * n) : passesLeft ms ≤ n + 1 := by
  rw [passesLeft]
  omega

/-- A pass that sleeps uses one of the passes that are left. -/
theorem passesLeft_sleep {ms ms' : Int} (hpos : 0 < ms) (h : ms' + 10 ≤ ms) :
    passesLeft ms' < passesLeft ms := by
  rw [passesLeft, passesLeft]
  omega

theorem budget_over {w : Timed} : budget w = 0 ↔ Over w.session.pc := by
  obtain ⟨⟨s, pc, chunks⟩, now, startTime⟩ := w
  have hpos := passesLeft_pos
  cases pc with
  | waiting l => simp [budget, Over, (hpos _).ne']
  | receiving => simp [budget, Over]
  | _ => simp [budget, Over]

/-- All operations but `wait_for_data` leave the queue alone. -/
theorem queue_kept (s : TcpStack) {a : Action} (hreturned : returned s a = [])
    (harrived : arrived s a = []) : (step s a).dataQueue = s.dataQueue := by
  have hstep := handoff_step s a
  rw [hreturned, harrived, List.append_nil] at hstep
  exact hstep

theorem queue_packet (s : TcpStack) (packet : Packet) (sent : Nat → Int) :
    (processPacket s packet sent).dataQueue.length ≤ s.dataQueue.length + 1 := by
  have harrived : (arrived s (.processPacket packet sent)).length ≤ 1 := by
    rw [arrived]
    split
    · split
      · exact Nat.le_refl 1
      · exact Nat.zero_le 1
    · exact Nat.zero_le 1
  rw [arrived_processPacket, List.length_append]
  omega

theorem tick_budget (c : Call) (w : Timed) (p : Pass) : budget (tick c w p) ≤ budget w - 1 := by
  obtain ⟨⟨s, pc, chunks⟩, now, startTime⟩ := w
  have hticks := tick_cases c p s chunks now startTime pc
  generalize tick c ⟨⟨s, pc, chunks⟩, now, startTime⟩ p = w' at hticks
  cases hticks with
  | refused | abandons | closes | returns => simp [budget, lapsed]
  | cannotAsk | givesUp | expires =>
    simp only [budget, lapsed, passesLeft]
    omega
  | ended final =>
    rcases final with rfl | ⟨receivedComplete, rfl⟩ | ⟨e, rfl⟩
    · exact Nat.zero_le _
    · exact Nat.zero_le _
    · exact Nat.zero_le _
  | connected =>
    have hqueue : (step s (connectBy c p)).dataQueue = s.dataQueue := queue_kept s rfl rfl
    have hpasses : passesLeft (now + p.spent + defaultTimeoutMs - (now + p.spent + p.delay)) ≤
        1000 + 1 := passesLeft_le (by rw [defaultTimeoutMs]; omega)
    simp only [budget, lapsed, waitForConnectionStart, hqueue]
    rw [if_neg (by decide)]
    omega
  | @waits l l' locals early =>
    have hqueue : (step s (passBy l now p)).dataQueue = s.dataQueue := queue_kept s rfl rfl
    have hsame : l'.startTime = l.startTime ∧ l'.timeoutMs = l.timeoutMs :=
      locals ▸ pass_window s l now (now + p.spent) p.sent
    have hpasses : passesLeft (l.startTime + l.timeoutMs -
        (now + p.spent + pollIntervalMs + p.delay)) <
        passesLeft (l.startTime + l.timeoutMs - now) :=
      passesLeft_sleep (by omega) (by rw [pollIntervalMs]; omega)
    simp only [budget, hqueue, hsame]
    omega
  | established =>
    simp only [budget, lapsed, passesLeft]
    omega
  | asks =>
    have hqueue : (step s (.sendData c.request p.sent)).dataQueue = s.dataQueue :=
      queue_kept s rfl rfl
    have hpasses : passesLeft (now + p.spent + p.delay + receiveTimeoutMs -
        (now + p.spent + p.delay)) ≤ 500 + 1 := passesLeft_le (by rw [receiveTimeoutMs]; omega)
    simp only [budget, lapsed, hqueue]
    omega
  | polls queue early =>
    have hpasses : passesLeft (startTime + receiveTimeoutMs -
        (now + p.spent + pollIntervalMs + p.delay)) <
        passesLeft (startTime + receiveTimeoutMs - now) :=
      passesLeft_sleep (by omega) (by rw [pollIntervalMs]; omega)
    simp only [budget]
    omega
  | takes queue next =>
    have hqueue : (step s .waitForData).dataQueue.length + 1 = s.dataQueue.length := by
      simp [step, waitForData, queue]
    have hpasses : passesLeft (now + p.spent + p.delay + receiveTimeoutMs -
        (now + p.spent + p.delay)) ≤ 500 + 1 := passesLeft_le (by rw [receiveTimeoutMs]; omega)
    have hpos := passesLeft_pos (startTime + receiveTimeoutMs - now)
    rcases next with rfl | rfl | ⟨e, rfl⟩
    · simp only [budget, lapsed]
      omega
    · simp only [budget, lapsed]
      omega
    · exact Nat.zero_le _

/-- A packet brings at most one vector, for at most as many steps as a wait takes. -/
theorem packet_budget (c : Call) (w : Timed) (packet : Packet) (sent : Nat → Int)
    (hw : budget w ≠ 0) : budget (timedTurn c w (.packet packet sent)) ≤ budget w + 501 := by
  obtain ⟨⟨s, pc, chunks⟩, now, startTime⟩ := w
  have hqueue := queue_packet s packet sent
  cases pc with
  | connecting | waiting | sending | receiving =>
    simp only [budget, timedTurn]
    omega
  | gaveUp | closing | leaving | refused | returned | thrown => exact Nat.le_add_right _ _

def TimedTurn.isUser : TimedTurn → Bool
  | .user _ => true
  | .packet .. => false

/-- The steps of `get` in a run. -/
def userSteps (turns : List TimedTurn) : Nat := turns.countP TimedTurn.isUser

/-- The packets of a run. -/
def packets (turns : List TimedTurn) : Nat := turns.countP fun t => !t.isUser

theorem over_turn (c : Call) (w : Timed) (t : TimedTurn) (h : budget w = 0) :
    budget (timedTurn c w t) = 0 := by
  cases t with
  | user p =>
    have hstep := tick_budget c w p
    rw [h] at hstep
    exact Nat.le_zero.mp hstep
  | packet packet sent =>
    rw [budget_over] at h ⊢
    exact h

theorem run_budget (c : Call) (w : Timed) (turns : List TimedTurn) :
    budget (run (timedTurn c) w turns) = 0 ∨
      budget (run (timedTurn c) w turns) + userSteps turns ≤ budget w + 501 * packets turns := by
  have spend (w : Timed) (t : TimedTurn) (_ : True) (hw : budget w ≠ 0) :
      budget (timedTurn c w t) + (if t.isUser then 1 else 0) ≤
        budget w + 501 * (if !t.isUser then [()] else []).length := by
    cases t with
    | user p =>
      have hstep : budget (timedTurn c w (.user p)) ≤ budget w - 1 := tick_budget c w p
      show budget (timedTurn c w (.user p)) + 1 ≤ budget w + 501 * 0
      omega
    | packet packet sent => exact packet_budget c w packet sent hw
  have hrun := run_spends (fun _ => True) (fun _ _ _ => trivial) (fun w t _ => over_turn c w t) spend
    (s := w) trivial turns
  rw [length_collect_ite] at hrun
  exact hrun

/-- `get` returns, fails or throws within 1506 steps of its own, and 501 more for each vector that
is or comes in: what keeps it going is data alone. -/
theorem get_ends (c : Call) (s : TcpStack) (now : Int) {turns : List TimedTurn}
    (h : 1506 + 501 * (s.dataQueue.length + packets turns) ≤ userSteps turns) :
    Over (run (timedTurn c) (calledAt s now) turns).session.pc := by
  rw [← budget_over]
  rcases run_budget c (calledAt s now) turns with hover | hrun
  · exact hover
  · have hstart : budget (calledAt s now) = 1506 + 501 * s.dataQueue.length := rfl
    omega

/-- Steps that take no time, in a network that is silent. -/
def sampleSteps : List TimedTurn := List.replicate 1506 (.user ⟨40000, 1000, true, 54, 0, 0⟩)

theorem get_ends_sample :
    Over (run (timedTurn sampleCall) (calledAt sampleClient 0) sampleSteps).session.pc := by
  have hpackets : packets sampleSteps = 0 := by
    rw [packets, sampleSteps, List.countP_replicate]
    rfl
  have husers : userSteps sampleSteps = 1506 := by
    rw [userSteps, sampleSteps, List.countP_replicate]
    rfl
  have hqueue : sampleClient.dataQueue.length = 0 := rfl
  exact get_ends sampleCall sampleClient 0 (by omega)

/-! The SYNs of a call. -/

theorem injects_noSyn (s : TcpStack) {flags : UInt16} (payload : Bytes) (sent : Int)
    (hflags : (flags &&& 0x3F &&& tcpSyn != 0) = false) :
    Injects NoSyn s (sendTcpPacket s flags payload sent).1 :=
  .send s flags payload sent fun _ _ => (isSynFrame_buildFrame _ _ _ _ _).trans hflags

/-- Only `connect` and the passes of `wait_for_connection` inject SYNs. -/
theorem synCount_step (s : TcpStack) {a : Action} (ha : a.keepsConnection = true)
    (hpass : ∀ w now later sent, a ≠ .waitForConnectionPass w now later sent) :
    synCount (step s a) = synCount s := by
  cases hc : s.currentConnection with
  | none =>
    rcases step_alone hc ha with h | ⟨data, rest, -, -, h⟩
    · rw [h]
    · rw [h]
      simp [synCount, Event.frame?]
  | some conn =>
    have houtcome := step_outcome hc ha
    generalize step s a = s' at houtcome
    apply synCount_injects
    cases houtcome with
    | idle => exact .of_eq rfl
    | @resentSyn w now later sent => exact absurd rfl (hpass w now later sent)
    | sentData => exact injects_noSyn s _ _ rfl
    | popped => exact .of_eq (by simp [Event.frame?])
    | finNotSent => exact injects_noSyn s _ _ rfl
    | finSent => exact (injects_noSyn s _ _ rfl).trans (.of_eq (history_setState _ _ _))
    | dropped => exact .of_eq (history_setState _ _ _)
    | @reacted packet sent tcp matched =>
      obtain ⟨frames, hinj, hcontrol⟩ := perform_injects s tcp sent (reactionOf conn.state tcp) hc
      exact ⟨frames, hinj, fun frame hf => (controlFrame_quiet (hcontrol frame hf)).2⟩

theorem synCount_connect (s : TcpStack) (c : Call) (p : Pass) :
    ∃ n, n ≤ 1 ∧ synCount (step s (connectBy c p)) = synCount s + n := by
  rcases connect_cases s c.remoteIp c.port p.localPort p.iss p.filterSet p.sent with
    h | ⟨id, h⟩ | ⟨-, h⟩
  · refine ⟨0, Nat.zero_le 1, ?_⟩
    rw [connectBy, step, h]
    rfl
  · refine ⟨0, Nat.zero_le 1, ?_⟩
    rw [connectBy, step, h]
    simp [synCount, Event.frame?]
  · refine ⟨1, Nat.le_refl 1, ?_⟩
    rw [connectBy, step, h]
    simp [synCount, connecting, afterSend, Event.frame?, isSynFrame_syn]

/-- The clock reading that `last_syn_time` gets for a SYN of this turn: for that of `connect` the
next one, behind the injection, and for that of a pass of the loop the one that the pass compares,
ahead of the injection. -/
def Timed.synReading (w : Timed) : TimedTurn → Int
  | .user p =>
    match w.session.pc with
    | .connecting => w.later p
    | _ => w.clock
  | .packet _ _ => w.clock

/-- The readings for the SYNs that a turn injects. -/
def synTimes (c : Call) (w : Timed) (t : TimedTurn) : List Int :=
  List.replicate (synCount (timedTurn c w t).session.stack - synCount w.session.stack)
    (w.synReading t)

/-- Each is at least a retry interval after those before. -/
def Spaced (times : List Int) : Prop :=
  times.Pairwise fun earlier time => earlier + synRetryIntervalMs ≤ time

/-- The SYNs of a call so far, by where it stands. -/
def SynsKept (w : Timed) (times : List Int) : Prop :=
  Spaced times ∧ match w.session.pc with
  | .connecting => times = []
  | .waiting l => times.length ≤ l.synRetries + 1 ∧ l.synRetries ≤ maxSynRetries ∧
    ∀ time ∈ times, time ≤ l.lastSynTime
  | _ => times.length ≤ maxSynRetries + 1

theorem spaced_replicate {n : Nat} (h : n ≤ 1) (time : Int) : Spaced (List.replicate n time) := by
  match n, h with
  | 0, _ => exact List.Pairwise.nil
  | 1, _ => exact List.pairwise_singleton _ _

theorem spaced_snoc {times : List Int} (h : Spaced times) {last time : Int}
    (hlast : ∀ x ∈ times, x ≤ last) (hlater : time - last ≥ synRetryIntervalMs) :
    Spaced (times ++ [time]) := by
  rw [Spaced, List.pairwise_append]
  refine ⟨h, List.pairwise_singleton _ _, ?_⟩
  intro x hx y hy
  rw [List.mem_singleton.mp hy]
  have hle := hlast x hx
  omega

theorem synTimes_eq (c : Call) {w : Timed} {t : TimedTurn} {n : Nat}
    (h : synCount (timedTurn c w t).session.stack = synCount w.session.stack + n) :
    synTimes c w t = List.replicate n (w.synReading t) := by
  rw [synTimes, h, Nat.add_sub_cancel_left]

/-- A pass, with the SYN it may have sent. -/
theorem synsKept_pass {s : TcpStack} {l : WaitLocals} {times : List Int} (now later sent : Int)
    (h : Spaced times ∧ times.length ≤ l.synRetries + 1 ∧ l.synRetries ≤ maxSynRetries ∧
      ∀ time ∈ times, time ≤ l.lastSynTime) :
    ∃ n, synCount (waitForConnectionPass s l now later sent).1 = synCount s + n ∧
      Spaced (times ++ List.replicate n now) ∧
      (times ++ List.replicate n now).length ≤
        (waitForConnectionPass s l now later sent).2.1.synRetries + 1 ∧
      (waitForConnectionPass s l now later sent).2.1.synRetries ≤ maxSynRetries ∧
      ∀ time ∈ times ++ List.replicate n now,
        time ≤ (waitForConnectionPass s l now later sent).2.1.lastSynTime := by
  obtain ⟨hspaced, hlength, hretries, hlast⟩ := h
  rcases pass_effect s l now later sent with ⟨hl, hcount⟩ | ⟨hmore, hdue, hl, hcount⟩
  · refine ⟨0, hcount, ?_⟩
    rw [hl, List.replicate_zero, List.append_nil]
    exact ⟨hspaced, hlength, hretries, hlast⟩
  · refine ⟨1, hcount, spaced_snoc hspaced hlast hdue, ?_⟩
    rw [hl]
    refine ⟨by simpa using hlength, hmore, ?_⟩
    intro time htime
    rcases List.mem_append.mp htime with hold | hnew
    · have hle := hlast time hold
      rw [synRetryIntervalMs] at hdue
      show time ≤ now
      omega
    · rw [List.eq_of_mem_replicate hnew]

theorem SynsKept.length {w : Timed} {times : List Int} (h : SynsKept w times) :
    times.length ≤ maxSynRetries + 1 := by
  obtain ⟨⟨s, pc, chunks⟩, now, startTime⟩ := w
  obtain ⟨-, hpc⟩ := h
  cases pc with
  | connecting =>
    rw [show times = [] from hpc]
    exact Nat.zero_le _
  | waiting l =>
    obtain ⟨hlength, hretries, -⟩ := hpc
    omega
  | _ => exact hpc

/-- Once the wait for the connection is over, only the number matters. -/
theorem synsKept_past {w : Timed} {times : List Int} (hspaced : Spaced times)
    (hlength : times.length ≤ maxSynRetries + 1) (hconnecting : w.session.pc ≠ .connecting)
    (hwaiting : ∀ l, w.session.pc ≠ .waiting l) : SynsKept w times := by
  obtain ⟨⟨s, pc, chunks⟩, now, startTime⟩ := w
  cases pc with
  | connecting => exact absurd rfl hconnecting
  | waiting l => exact absurd rfl (hwaiting l)
  | _ => exact ⟨hspaced, hlength⟩

theorem synsKept_tick (c : Call) {w : Timed} {times : List Int} (h : SynsKept w times) (p : Pass) :
    SynsKept (tick c w p) (times ++ synTimes c w (.user p)) := by
  obtain ⟨⟨s, pc, chunks⟩, now, startTime⟩ := w
  have hticks := tick_cases c p s chunks now startTime pc
  have hsyns {n : Nat} := synTimes_eq c (w := ⟨⟨s, pc, chunks⟩, now, startTime⟩)
    (t := .user p) (n := n)
  rw [show timedTurn c ⟨⟨s, pc, chunks⟩, now, startTime⟩ (.user p) =
    tick c ⟨⟨s, pc, chunks⟩, now, startTime⟩ p from rfl] at hsyns
  generalize synTimes c ⟨⟨s, pc, chunks⟩, now, startTime⟩ (.user p) = new at hsyns
  generalize tick c ⟨⟨s, pc, chunks⟩, now, startTime⟩ p = w' at hticks hsyns
  -- The steps that inject no SYN.
  have hquiet (hsame : synCount w'.session.stack = synCount s) : times ++ new = times := by
    rw [hsyns (n := 0) hsame, List.replicate_zero, List.append_nil]
  have hpast (hsame : synCount w'.session.stack = synCount s)
      (hconnecting : w'.session.pc ≠ .connecting) (hwaiting : ∀ l, w'.session.pc ≠ .waiting l) :
      SynsKept w' (times ++ new) := by
    rw [hquiet hsame]
    exact synsKept_past h.1 h.length hconnecting hwaiting
  cases hticks with
  | refused =>
    obtain ⟨-, rfl⟩ : _ ∧ times = [] := h
    obtain ⟨n, hn, hcount⟩ := synCount_connect s c p
    rw [hsyns hcount, List.nil_append]
    refine ⟨spaced_replicate hn _, ?_⟩
    rw [List.length_replicate]
    exact hn.trans (Nat.le_add_left 1 maxSynRetries)
  | connected =>
    obtain ⟨-, rfl⟩ : _ ∧ times = [] := h
    obtain ⟨n, hn, hcount⟩ := synCount_connect s c p
    rw [hsyns hcount, List.nil_append]
    refine ⟨spaced_replicate hn _, by rwa [List.length_replicate], Nat.zero_le _, ?_⟩
    intro time htime
    rw [List.eq_of_mem_replicate htime]
    exact Int.le_refl (now + p.spent)
  | @waits l l' locals early =>
    obtain ⟨n, hcount, hkept⟩ := synsKept_pass now (now + p.spent) p.sent h
    rw [hsyns hcount]
    rw [locals] at hkept
    exact hkept
  | @givesUp l late =>
    obtain ⟨n, hcount, hspaced, hlength, hretries, -⟩ :=
      synsKept_pass now (now + p.spent) p.sent h
    rw [hsyns hcount]
    exact ⟨hspaced, hlength.trans (Nat.succ_le_succ hretries)⟩
  | takes queue next =>
    apply hpast (synCount_step s rfl (by simp))
    · rcases next with rfl | rfl | ⟨e, rfl⟩ <;> simp [lapsed]
    · rcases next with rfl | rfl | ⟨e, rfl⟩ <;> simp [lapsed]
  | ended final =>
    apply hpast rfl
    · rcases final with rfl | ⟨receivedComplete, rfl⟩ | ⟨e, rfl⟩ <;> simp [lapsed]
    · rcases final with rfl | ⟨receivedComplete, rfl⟩ | ⟨e, rfl⟩ <;> simp [lapsed]
  | established | abandons | polls | expires | returns =>
    exact hpast rfl (by simp [lapsed]) (by simp [lapsed])
  | asks | cannotAsk | closes =>
    exact hpast (synCount_step s rfl (by simp)) (by simp [lapsed]) (by simp [lapsed])

theorem synsKept_turn (c : Call) {w : Timed} {times : List Int} (h : SynsKept w times)
    (t : TimedTurn) : SynsKept (timedTurn c w t) (times ++ synTimes c w t) := by
  cases t with
  | user p => exact synsKept_tick c h p
  | packet packet sent =>
    have hsame : synCount (processPacket w.session.stack packet sent) =
        synCount w.session.stack :=
      synCount_step w.session.stack (a := .processPacket packet sent) rfl (by simp)
    have hnone : synTimes c w (.packet packet sent) = [] := by
      simp [synTimes, timedTurn, hsame]
    rw [hnone, List.append_nil]
    exact h

/-- In every interleaving a call injects at most four SYNs, any two at least three seconds apart by
the readings that `last_syn_time` gets for them, whatever `pcap_inject` and the clock do. -/
theorem syns_spaced (c : Call) (s : TcpStack) (now : Int) (turns : List TimedTurn) :
    (collect (timedTurn c) (synTimes c) (calledAt s now) turns).length ≤ maxSynRetries + 1 ∧
      Spaced (collect (timedTurn c) (synTimes c) (calledAt s now) turns) := by
  have hstart : SynsKept (calledAt s now) [] := ⟨List.Pairwise.nil, rfl⟩
  have keep : ∀ w t times, SynsKept w times →
      SynsKept (timedTurn c w t) (times ++ synTimes c w t) := fun _ t _ h => synsKept_turn c h t
  have hend : SynsKept (run (timedTurn c) (calledAt s now) turns)
      (collect (timedTurn c) (synTimes c) (calledAt s now) turns) := collect_invariant keep hstart
  exact ⟨hend.length, hend.1⟩

/-! The time-outs of a call. -/

/-- The times by which a turn has taken a vector from the queue. -/
def takenTimes (c : Call) (w : Timed) (t : TimedTurn) : List Int :=
  List.replicate ((timedTurn c w t).session.chunks.length - w.session.chunks.length)
    (timedTurn c w t).clock

/-- What the clock shows of a call that began at `start`, by where it stands. -/
def TimesKept (start : Int) (w : Timed) (times : List Int) : Prop :=
  start ≤ w.clock ∧ (∀ time ∈ times, time ≤ w.clock) ∧ match w.session.pc with
  | .waiting l => start ≤ l.startTime ∧ l.timeoutMs = defaultTimeoutMs
  | .gaveUp => start + defaultTimeoutMs ≤ w.clock
  | .receiving _ => start ≤ w.startTime ∧ ∀ time ∈ times, time ≤ w.startTime
  | .closing receivedComplete => receivedComplete = true ∨
    ∀ time ∈ times, time + receiveTimeoutMs ≤ w.clock
  | _ => True

theorem timesKept_tick (c : Call) {start : Int} {w : Timed} {times : List Int}
    (h : TimesKept start w times) (p : Pass) :
    TimesKept start (tick c w p) (times ++ takenTimes c w (.user p)) := by
  obtain ⟨⟨s, pc, chunks⟩, now, startTime⟩ := w
  have hticks := tick_cases c p s chunks now startTime pc
  have htaken : takenTimes c ⟨⟨s, pc, chunks⟩, now, startTime⟩ (.user p) = List.replicate
    ((tick c ⟨⟨s, pc, chunks⟩, now, startTime⟩ p).session.chunks.length - chunks.length)
    (tick c ⟨⟨s, pc, chunks⟩, now, startTime⟩ p).clock := rfl
  rw [htaken]
  generalize tick c ⟨⟨s, pc, chunks⟩, now, startTime⟩ p = w' at hticks
  obtain ⟨hstart, hpast, hpc⟩ := h
  have hlater : now ≤ now + p.spent + p.delay := by omega
  have hpast' : ∀ time ∈ times, time ≤ now + p.spent + p.delay :=
    fun time htime => (hpast time htime).trans hlater
  have hslept : now ≤ now + p.spent + pollIntervalMs + p.delay := by
    rw [pollIntervalMs]
    omega
  have hslept' : ∀ time ∈ times, time ≤ now + p.spent + pollIntervalMs + p.delay :=
    fun time htime => (hpast time htime).trans hslept
  cases hticks with
  | @takes buffer chunk rest pc queue next =>
    have hnew : (chunks ++ [chunk]).length - chunks.length = 1 := by simp
    have hall : ∀ time ∈ times ++ List.replicate 1 (now + p.spent + p.delay),
        time ≤ now + p.spent + p.delay := by
      intro time htime
      rcases List.mem_append.mp htime with hold | hnow
      · exact hpast' time hold
      · exact (List.eq_of_mem_replicate hnow).le
    simp only [lapsed, hnew]
    refine ⟨hstart.trans hlater, hall, ?_⟩
    rcases next with rfl | rfl | ⟨e, rfl⟩
    · exact ⟨hstart.trans hlater, hall⟩
    · exact .inl rfl
    · trivial
  | connected =>
    simp only [lapsed, Nat.sub_self, List.replicate_zero, List.append_nil]
    refine ⟨hstart.trans hlater, hpast', ?_, rfl⟩
    exact hstart.trans (Int.le_add_of_nonneg_right (Int.natCast_nonneg p.spent))
  | @waits w w' locals early =>
    have hsame : w'.startTime = w.startTime ∧ w'.timeoutMs = w.timeoutMs :=
      locals ▸ pass_window s w now (now + p.spent) p.sent
    obtain ⟨hl, htimeout⟩ : start ≤ w.startTime ∧ w.timeoutMs = defaultTimeoutMs := hpc
    simp only [Nat.sub_self, List.replicate_zero, List.append_nil]
    exact ⟨hstart.trans hslept, hslept', hsame.1 ▸ hl, hsame.2.trans htimeout⟩
  | @givesUp l late =>
    obtain ⟨hl, htimeout⟩ : start ≤ l.startTime ∧ l.timeoutMs = defaultTimeoutMs := hpc
    simp only [lapsed, Nat.sub_self, List.replicate_zero, List.append_nil]
    refine ⟨hstart.trans hlater, hpast', ?_⟩
    show start + defaultTimeoutMs ≤ now + p.spent + p.delay
    omega
  | asks =>
    simp only [lapsed, Nat.sub_self, List.replicate_zero, List.append_nil]
    exact ⟨hstart.trans hlater, hpast', hstart.trans hlater, hpast'⟩
  | polls queue early =>
    simp only [Nat.sub_self, List.replicate_zero, List.append_nil]
    exact ⟨hstart.trans hslept, hslept', hpc⟩
  | expires queue late =>
    obtain ⟨-, hbefore⟩ : start ≤ startTime ∧ ∀ time ∈ times, time ≤ startTime := hpc
    simp only [lapsed, Nat.sub_self, List.replicate_zero, List.append_nil]
    refine ⟨hstart.trans hlater, hpast', .inr ?_⟩
    intro time htime
    have hle := hbefore time htime
    show time + receiveTimeoutMs ≤ now + p.spent + p.delay
    omega
  | ended final =>
    simp only [lapsed, Nat.sub_self, List.replicate_zero, List.append_nil]
    rcases final with rfl | ⟨receivedComplete, rfl⟩ | ⟨e, rfl⟩
    · exact ⟨hstart.trans hlater, hpast', trivial⟩
    · exact ⟨hstart.trans hlater, hpast', trivial⟩
    · exact ⟨hstart.trans hlater, hpast', trivial⟩
  | refused | established | abandons | cannotAsk | closes | returns =>
    simp only [lapsed, Nat.sub_self, List.replicate_zero, List.append_nil]
    exact ⟨hstart.trans hlater, hpast', trivial⟩

theorem timesKept_turn (c : Call) {start : Int} {w : Timed} {times : List Int}
    (h : TimesKept start w times) (t : TimedTurn) :
    TimesKept start (timedTurn c w t) (times ++ takenTimes c w t) := by
  cases t with
  | user p => exact timesKept_tick c h p
  | packet packet sent =>
    have hnone : takenTimes c w (.packet packet sent) = [] := by
      simp [takenTimes, timedTurn]
    rw [hnone, List.append_nil]
    exact h

/-- No time-out comes early: `get` gives up on the connection no sooner than ten seconds after it
was called, and on the response no sooner than five seconds after it has taken the last vector. -/
theorem timeouts_kept (c : Call) (s : TcpStack) (now : Int) (turns : List TimedTurn) :
    ((run (timedTurn c) (calledAt s now) turns).session.pc = .gaveUp →
        now + defaultTimeoutMs ≤ (run (timedTurn c) (calledAt s now) turns).clock) ∧
      ((run (timedTurn c) (calledAt s now) turns).session.pc = .closing false →
        ∀ time ∈ collect (timedTurn c) (takenTimes c) (calledAt s now) turns,
          time + receiveTimeoutMs ≤ (run (timedTurn c) (calledAt s now) turns).clock) := by
  have hstart : TimesKept now (calledAt s now) [] := ⟨Int.le_refl now, by simp, trivial⟩
  have keep : ∀ w t times, TimesKept now w times →
      TimesKept now (timedTurn c w t) (times ++ takenTimes c w t) :=
    fun _ t _ h => timesKept_turn c h t
  have hend : TimesKept now (run (timedTurn c) (calledAt s now) turns)
      (collect (timedTurn c) (takenTimes c) (calledAt s now) turns) := collect_invariant keep hstart
  obtain ⟨-, -, hpc⟩ := hend
  constructor
  · intro hgave
    rw [hgave] at hpc
    exact hpc
  · intro hclosing
    rw [hclosing] at hpc
    exact hpc.resolve_left Bool.false_ne_true

end MyTelnet.Http.Timing
