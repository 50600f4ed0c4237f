/- module: MyTelnet/Stack/Draining
   scope: proofs
   digest: Two stacks whose deliveries go on end a transfer with everything delivered. -/

import MyTelnet.Base.Fairness
import MyTelnet.Stack.Shutdown

set_option autoImplicit false
set_option relaxedAutoImplicit false

namespace MyTelnet.Stack.Draining

open MyTelnet.Base.ByteOrder MyTelnet.Base.Runs MyTelnet.Base.Fairness MyTelnet.Base.Pipes
open MyTelnet.Stack.State MyTelnet.Stack.Operations MyTelnet.Stack.Run MyTelnet.Stack.Frames
open MyTelnet.Stack.Steps MyTelnet.Stack.TwoStacks MyTelnet.Stack.Shutdown

/-- What a signal in a channel may still cause: itself, and the ACK that may answer it. -/
def weight : Signal → Nat
  | .ack => 1
  | .data _ | .fin => 2

def load : List Signal → Nat
  | [] => 0
  | signal :: out => weight signal + load out

/-- An open end answers a FIN with one more frame than it takes. -/
def potential : TcpState → Nat
  | .established => 2
  | _ => 0

def endLoad (e : Endpoint) : Nat :=
  load (e.out.map signalOf) + potential (getConnectionState e.stack)

def pairLoad (p : Pair) : Nat := endLoad p.left + endLoad p.right

theorem load_append (out more : List Signal) : load (out ++ more) = load out + load more := by
  induction out with
  | nil => simp [load]
  | cons signal out ih => simp [load, ih, Nat.add_assoc]

theorem load_le (out : List Signal) : load out ≤ 2 * out.length := by
  induction out with
  | nil => exact Nat.le_refl _
  | cons signal out ih =>
    have hone : weight signal ≤ 2 := by cases signal <;> simp [weight]
    rw [load, List.length_cons]
    omega

theorem load_eq_zero {out : List Signal} (h : load out = 0) : out = [] := by
  cases out with
  | nil => rfl
  | cons signal out =>
    have hpos : 0 < weight signal := by cases signal <;> simp [weight]
    rw [load] at h
    omega

/-- The answers to a signal weigh less than the signal. -/
theorem respond_load (state : TcpState) (signal : Signal) :
    load (respond state signal).2 + potential (respond state signal).1 <
      weight signal + potential state := by
  cases signal with
  | data filled => cases filled <;> cases state <;> decide
  | ack => cases state <;> decide
  | fin => cases state <;> decide

/-- A delivery at either end, its answers injected. -/
def Receives (a : Side × EndStep) : Prop :=
  ∃ sent, a.2 = .transfer (.receive sent) ∧ ∀ n, sent n ≠ -1

def receiver (a : Side × EndStep) : Option Side := some a.1

/-- An end with a frame to receive. -/
def Pending (p : Pair) : Side → Prop
  | .left => p.right.out ≠ []
  | .right => p.left.out ≠ []

def Drained (p : Pair) : Prop := p.left.out = [] ∧ p.right.out = []

theorem pairLoad_swap (p : Pair) : pairLoad p.swap = pairLoad p := Nat.add_comm _ _

section Deliveries

variable {called called' : Bool} {p : Pair}

theorem receive_nothing (sent : Nat → Int) (h : p.right.out = []) :
    stepLeft p (.receive sent) = p := by
  rw [stepLeft, h]

theorem receive_load (h : Shutting called called' p) {sent : Nat → Int}
    (hs : ∀ n, sent n ≠ -1) (hout : p.right.out ≠ []) :
    pairLoad (stepLeft p (.receive sent)) < pairLoad p := by
  obtain ⟨frame, rest, hout⟩ := List.exists_cons_of_ne_nil hout
  have hmem : frame ∈ p.right.out := by
    rw [hout]
    exact List.mem_cons_self
  obtain ⟨cl, cr, hl, -, -, -, s, conn', new, hcapture, hans, hrespond⟩ :=
    Shutting.answers h hs hmem
  obtain ⟨hshows, hleft⟩ := hl.run hans
  have hless := respond_load cl.state (signalOf frame)
  rw [← hrespond] at hless
  dsimp only at hless
  have hstate : getConnectionState (p.left.run s).stack = conn'.state :=
    getConnectionState_some hans.connection
  have hbefore : getConnectionState p.left.stack = cl.state := getConnectionState_some hl.connection
  rw [receive_ok hout hcapture]
  simp only [pairLoad, endLoad, hleft, hstate, hbefore, hout, List.map_append, List.map_cons,
    load_append, load]
  omega

/-- A delivery makes the load smaller, or finds nothing to deliver. -/
theorem receive_cases (h : Shutting called called' p) {a : Side × EndStep} (ha : Receives a) :
    Pending p a.1 ∧ pairLoad (stepShutdown p a) < pairLoad p ∨
      ¬ Pending p a.1 ∧ stepShutdown p a = p := by
  obtain ⟨side, a⟩ := a
  obtain ⟨sent, rfl, hs⟩ := ha
  cases side with
  | left =>
    by_cases hout : p.right.out = []
    · exact .inr ⟨fun hne => hne hout, receive_nothing sent hout⟩
    · exact .inl ⟨hout, receive_load h hs hout⟩
  | right =>
    by_cases hout : p.left.out = []
    · right
      refine ⟨fun hne => hne hout, ?_⟩
      show (stepLeft p.swap (.receive sent)).swap = p
      rw [receive_nothing sent hout]
      rfl
    · left
      refine ⟨hout, ?_⟩
      show pairLoad (stepLeft p.swap (.receive sent)).swap < pairLoad p
      rw [pairLoad_swap, ← pairLoad_swap p]
      exact receive_load h.swap hs hout

/-- One end stays as it is when the other receives, its channel apart. -/
theorem receive_pending (h : Shutting called called' p) {a : Side × EndStep} (ha : Receives a)
    {side : Side} (hpending : Pending p side) :
    pairLoad (stepShutdown p a) < pairLoad p ∨ Pending (stepShutdown p a) side := by
  rcases receive_cases h ha with ⟨-, hlt⟩ | ⟨-, hsame⟩
  · exact .inl hlt
  · right
    rwa [hsame]

theorem receive_lossless {a : Side × EndStep} (ha : Receives a) : a.2.Lossless := by
  obtain ⟨side, a⟩ := a
  obtain ⟨sent, rfl, hs⟩ := ha
  exact hs

theorem Shutting.receives (h : Shutting called called' p) {a : Side × EndStep} (ha : Receives a) :
    Shutting called called' (stepShutdown p a) := by
  have hnot (side : Side) : closesAt side a = false := by
    obtain ⟨sent, hreceive, -⟩ := ha
    rw [closesAt, hreceive]
    exact Bool.and_false _
  have hstep := Shutting.step h (receive_lossless ha) (fun hc => by simp [hnot] at hc)
    (fun hc => by simp [hnot] at hc)
  rwa [hnot, hnot, Bool.or_false, Bool.or_false] at hstep

theorem drain_descent (called called' faulty : Bool) :
    Descent stepShutdown (fun p => Shutting called called' p ∧ p.faulty = faulty) Receives receiver
      pairLoad Pending Drained := by
  refine ⟨?_, ?_, ?_, ?_, ?_, ?_, ?_⟩
  · rintro p a ⟨hp, hfaulty⟩ ha
    exact ⟨Shutting.receives hp ha, (Shutting.faulty hp (receive_lossless ha)).trans hfaulty⟩
  · intro p a hp ha hdrained
    rcases receive_cases hp.1 ha with ⟨hpending, -⟩ | ⟨-, hsame⟩
    · obtain ⟨side, a⟩ := a
      cases side with
      | left => exact absurd hdrained.2 hpending
      | right => exact absurd hdrained.1 hpending
    · rwa [hsame]
  · intro p a hp ha
    rcases receive_cases hp.1 ha with ⟨-, hlt⟩ | ⟨-, hsame⟩
    · exact hlt.le
    · rw [hsame]
  · intro p hp hzero
    rw [pairLoad, endLoad, endLoad] at hzero
    have hl : load (p.left.out.map signalOf) = 0 := by omega
    have hr : load (p.right.out.map signalOf) = 0 := by omega
    exact ⟨List.map_eq_nil_iff.mp (load_eq_zero hl), List.map_eq_nil_iff.mp (load_eq_zero hr)⟩
  · intro p hp hopen
    by_cases hout : p.right.out = []
    · exact ⟨.right, fun hnil => hopen ⟨hnil, hout⟩⟩
    · exact ⟨.left, hout⟩
  · intro p a side hp ha hpending hside
    obtain rfl : a.1 = side := Option.some.inj hside
    rcases receive_cases hp.1 ha with ⟨-, hlt⟩ | ⟨hno, -⟩
    · exact hlt
    · exact absurd hpending hno
  · intro p a side hp ha hpending
    exact receive_pending hp.1 ha hpending

theorem pairLoad_le (p : Pair) : pairLoad p ≤ 2 * (p.left.out.length + p.right.out.length) + 4 := by
  have hpotential (state : TcpState) : potential state ≤ 2 := by
    cases state <;> simp [potential]
  have hl := load_le (p.left.out.map signalOf)
  have hr := load_le (p.right.out.map signalOf)
  have hpl := hpotential (getConnectionState p.left.stack)
  have hpr := hpotential (getConnectionState p.right.stack)
  rw [List.length_map] at hl hr
  rw [pairLoad, endLoad, endLoad]
  omega

/-- Fair rounds of deliveries empty both channels. -/
theorem Shutting.drains (h : Shutting called called' p) {rounds : List (List (Side × EndStep))}
    (hfair : ∀ round ∈ rounds, Fair Receives receiver round)
    (hlong : 2 * (p.left.out.length + p.right.out.length) + 4 ≤ rounds.length) :
    Drained (run stepShutdown p rounds.flatten) ∧
      Shutting called called' (run stepShutdown p rounds.flatten) ∧
      (run stepShutdown p rounds.flatten).faulty = p.faulty := by
  have hdescent := drain_descent called called' p.faulty
  refine ⟨hdescent.rounds ⟨h, rfl⟩ hfair ((pairLoad_le p).trans hlong), ?_⟩
  refine (hdescent.run_keep ⟨h, rfl⟩ ?_).1
  intro a ha
  obtain ⟨round, hround, ha⟩ := List.mem_flatten.mp ha
  exact (hfair round hround).1 a ha

end Deliveries

/-- Two established connections that are each other's peer, with nothing in flight. -/
structure Joined (p : Pair) (cl cr : TcpConnection) : Prop where
  left : Ready p.left.stack cl
  right : Ready p.right.stack cr
  mirrored : Mirrored cl cr
  drained : Drained p

theorem Joined.shutting {p : Pair} {cl cr : TcpConnection} (h : Joined p cl cr) :
    Shutting false false p := by
  obtain ⟨hl, hr, hm, hol, hor⟩ := h
  refine ⟨cl, cr, ⟨hl.connection, hl.handle, by simp [hol]⟩,
    ⟨hr.connection, hr.handle, by simp [hor]⟩, hm, ?_⟩
  exact Closing.start hl.state hr.state (by simp [phase, hol]) (by simp [phase, hor]) rfl rfl

/-- A round in which each end receives once. -/
def eachReceives : List (Side × EndStep) :=
  [(.left, .transfer (.receive fun _ => 54)), (.right, .transfer (.receive fun _ => 54))]

theorem fair_replicate (n : Nat) :
    ∀ round ∈ List.replicate n eachReceives, Fair Receives receiver round := by
  intro round hround
  rw [List.eq_of_mem_replicate hround]
  constructor
  · intro a ha
    refine ⟨fun _ => 54, ?_, fun _ => by simp⟩
    rcases List.mem_cons.mp ha with rfl | ha
    · rfl
    · obtain rfl := List.mem_singleton.mp ha
      rfl
  · intro side
    cases side with
    | left => exact ⟨_, List.mem_cons_self, rfl⟩
    | right => exact ⟨_, List.mem_cons_of_mem _ (List.mem_singleton_self _), rfl⟩

theorem stepShutdown_transfer (p : Pair) (side : Side) (a : EndAction) :
    stepShutdown p (side, .transfer a) = stepPair p (side, a) := by
  cases side <;> rfl

/-- As long as nobody closes, the pair transfers. -/
theorem transferring_run {base base' : UInt32} {p : Pair} (h : Transferring base base' p)
    {acts : List (Side × EndStep)} (ha : ∀ a ∈ acts, a.2.Lossless ∧ a.2.isClose = false) :
    Transferring base base' (run stepShutdown p acts) := by
  have hkeep (q : Pair) (a : Side × EndStep) (hq : Transferring base base' q)
      (ha : a.2.Lossless ∧ a.2.isClose = false) : Transferring base base' (stepShutdown q a) := by
    obtain ⟨side, a⟩ := a
    cases a with
    | close sent => cases ha.2
    | transfer a =>
      rw [stepShutdown_transfer]
      exact (Transferring.step (a := (side, a)) hq ha.1).1
  exact run_invariant hkeep h (eachStep_of_forall ha)

theorem not_closes {acts : List (Side × EndStep)} (hnone : ∀ side, calls side acts = 0) :
    ∀ a ∈ acts, a.2.isClose = false := by
  intro a ha
  have hno := List.countP_eq_zero.mp (hnone a.1) a ha
  simpa [closesAt] using hno

/-- Everything that was sent at `x` has arrived at `y`, and its last byte is acknowledged. -/
structure Arrived (x y : Endpoint) : Prop where
  bytes : y.delivered = x.sent
  numbers : ∃ cx cy, x.stack.currentConnection = some cx ∧ y.stack.currentConnection = some cy ∧
    cy.ackNum = cx.seqNum

theorem arrived_of_conserved {x y : Endpoint} (h : Conserved x y) (hout : x.out = []) :
    Arrived x y := by
  obtain ⟨hbytes, cx, cy, hx, hy, hnumbers⟩ := h
  have hin : x.inFlight = [] := by
    rw [Endpoint.inFlight, hout]
    rfl
  rw [hin] at hbytes hnumbers
  refine ⟨by rw [hbytes, List.append_nil], cx, cy, hx, hy, ?_⟩
  rw [hnumbers]
  exact (UInt32.add_zero _).symm

end MyTelnet.Stack.Draining
