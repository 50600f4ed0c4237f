/- module: MyTelnet/Stack/Filtering
   scope: model and proofs
   digest: The packet filters that initialize and connect install, and what gets through them. -/

import MyTelnet.Stack.Lifetimes
import MyTelnet.Stack.Objects
import MyTelnet.Stack.StateGraph
import MyTelnet.Stack.Stream

set_option autoImplicit false
set_option relaxedAutoImplicit false

namespace MyTelnet.Stack.Filtering

open MyTelnet.Base.ByteOrder MyTelnet.Base.Runs MyTelnet.Wire.Layers MyTelnet.Stack.State
open MyTelnet.Stack.Send MyTelnet.Stack.Operations MyTelnet.Stack.Receive MyTelnet.Stack.Run
open MyTelnet.Stack.Effects MyTelnet.Stack.Reactions MyTelnet.Stack.Handshake MyTelnet.Stack.Stream
open MyTelnet.Stack.Moves MyTelnet.Stack.Objects MyTelnet.Stack.StateGraph
open MyTelnet.Stack.Lifetimes (ConnectArgs)

/-- The filter expressions of libpcap that the stack uses. -/
inductive Filter where
  | tcp
  | host (ip : UInt32)
  | port (number : UInt16)
  | both (f g : Filter)
  | either (f g : Filter)
  deriving DecidableEq

/-- The packets that an expression lets through. `host` and `port` look at both directions. -/
def Filter.admits : Filter → Packet → Bool
  | .tcp, packet => packet.tcp.isSome
  | .host ip, packet => packet.ipv4.any fun h => h.sourceIp == ip || h.destIp == ip
  | .port number, packet => packet.tcp.any fun h => h.sourcePort == number || h.destPort == number
  | .both f g, packet => f.admits packet && g.admits packet
  | .either f g, packet => f.admits packet || g.admits packet

/-- `host R and tcp and (port P or port L)`, the filter of `connect`. -/
def connectionFilter (remoteIp : UInt32) (remotePort localPort : UInt16) : Filter :=
  .both (.both (.host remoteIp) .tcp) (.either (.port remotePort) (.port localPort))

/-- A stack, the filter on its handle, the packets that libpcap has captured and the capture thread
has not processed, each with the filter that let it through, and the call of `connect`, if there is
one, that has set its filter and not yet taken the mutex. -/
structure Filtered where
  stack : TcpStack
  filter : Filter
  captured : List (Filter × Packet)
  connecting : Option ConnectArgs

/-- What happens at the handle, in the user thread and in the capture thread. -/
inductive Turn where
  | arrives (packet : Packet)
  /-- `connect` up to `pcap_setfilter`. -/
  | setsFilter (args : ConnectArgs) (ok : Bool)
  /-- `connect` from the lock on. -/
  | installs (sent : Int)
  /-- Any other call of the user thread. -/
  | calls (a : Action)
  /-- `process_packet` on the packet that was captured first. -/
  | processes (sent : Nat → Int)

def isCall : Action → Bool
  | .connect .. | .processPacket .. => false
  | _ => true

def turn (f : Filtered) : Turn → Filtered
  | .arrives packet =>
    if f.filter.admits packet then { f with captured := f.captured ++ [(f.filter, packet)] } else f
  | .setsFilter args ok =>
    if f.connecting.isNone && f.stack.pcapHandle && ok then
      { f with
        filter := connectionFilter args.remoteIp args.remotePort args.localPort
        connecting := some args }
    else f
  | .installs sent =>
    match f.connecting with
    | none => f
    | some args =>
      { f with
        stack := (connect f.stack args.remoteIp args.remotePort args.localPort args.iss true sent).1
        connecting := none }
  | .calls a =>
    if f.connecting.isNone && isCall a then { f with stack := step f.stack a } else f
  | .processes sent =>
    match f.captured with
    | [] => f
    | (_, packet) :: rest =>
      { f with stack := processPacket f.stack packet sent, captured := rest }

/-- After `initialize`, whose filter lets all TCP packets through. -/
def unfiltered (s : TcpStack) : Filtered := ⟨s, .tcp, [], none⟩

/-- Connections to other hosts only. -/
def Elsewhere (localIp : UInt32) : Turn → Prop
  | .setsFilter args _ => args.remoteIp ≠ localIp
  | _ => True

/-- The filter that `connect` has set for this connection; the port asked for may not be the one
that answers. -/
def OwnFilter (conn : TcpConnection) (filter : Filter) : Prop :=
  ∃ remotePort, filter = connectionFilter conn.remoteIp remotePort conn.localPort

/-- The packet comes from the host at the other end of the connection, to its local port unless it
is a SYN+ACK. -/
def FromPeer (conn : TcpConnection) (packet : Packet) : Prop :=
  ∃ ip tcp, packet.ipv4 = some ip ∧ packet.tcp = some tcp ∧
    ip.sourceIp = conn.remoteIp ∧ ip.destIp = conn.localIp ∧
    (tcp.destPort = conn.localPort ∨ tcp.isSyn = true ∧ tcp.isAck = true)

/-- A packet that was captured behind the filter of the connection on which it is processed, and
changes the stack, is the peer's. -/
def DisturbedByPeer (f : Filtered) (t : Turn) : Prop :=
  ∀ sent filter packet rest conn, t = .processes sent → f.captured = (filter, packet) :: rest →
    f.stack.currentConnection = some conn → OwnFilter conn filter →
    processPacket f.stack packet sent ≠ f.stack → FromPeer conn packet

/-- The connection leads to another host, through the filter on the handle unless `connect` is
about to replace it, and each captured packet has got through its filter. -/
structure Guarded (localIp : UInt32) (f : Filtered) : Prop where
  host : f.stack.localIp = localIp
  away : ∀ conn, f.stack.currentConnection = some conn →
    conn.localIp = localIp ∧ conn.remoteIp ≠ localIp
  own : f.connecting = none →
    ∀ conn, f.stack.currentConnection = some conn → OwnFilter conn f.filter
  next : ∀ args, f.connecting = some args → f.stack.pcapHandle = true ∧ args.remoteIp ≠ localIp ∧
    f.filter = connectionFilter args.remoteIp args.remotePort args.localPort
  passed : ∀ c ∈ f.captured, c.1.admits c.2 = true

section Steps

variable {localIp : UInt32} {f : Filtered} {t : Turn}

/-- A connection that is there after `connect` has set its filter is the new one. -/
theorem connect_identity (s : TcpStack) (remoteIp : UInt32) (remotePort localPort : UInt16)
    (iss : UInt32) {filterSet : Bool} {sent : Int} (hhandle : s.pcapHandle = true)
    (hfilter : filterSet = true) {conn : TcpConnection}
    (hc : (step s (.connect remoteIp remotePort localPort iss filterSet sent)).currentConnection =
      some conn) :
    identity conn = identity (newConnection s remoteIp remotePort localPort iss) := by
  obtain ⟨conn₁, hc₁, hsame⟩ := sendTcpPacket_currentConnection
    (log (setConnection s (some (newConnection s remoteIp remotePort localPort iss))) .opened)
    tcpSyn [] sent rfl
  simp only [step, connect, hhandle, hfilter, Bool.not_true, Bool.false_eq_true, if_false] at hc
  cases hsend : sendTcpPacket
      (log (setConnection s (some (newConnection s remoteIp remotePort localPort iss))) .opened)
      tcpSyn [] sent with
  | mk s' ok =>
    rw [hsend] at hc hc₁
    cases ok with
    | false => cases hc
    | true =>
      have hsent : s'.currentConnection = some conn₁ := hc₁
      simp only [setState_currentConnection, hsent, Option.map_some, Option.some.injEq] at hc
      rw [← hc, hsame]
      rfl

/-- An operation leaves the connection the one that it was, up to its counters, or there is none. -/
theorem step_identity {s : TcpStack} {a : Action} (ha : a.keepsConnection = true)
    {conn' : TcpConnection} (hc' : (step s a).currentConnection = some conn') :
    ∃ conn, s.currentConnection = some conn ∧ identity conn' = identity conn := by
  cases hc : s.currentConnection with
  | none =>
    rcases step_alone hc ha with hsame | ⟨data, rest, -, -, hsame⟩
    · rw [hsame, hc] at hc'
      cases hc'
    · rw [hsame, log_currentConnection, setQueue_currentConnection, hc] at hc'
      cases hc'
  | some conn =>
    obtain ⟨events, conn₁, hmove, hc₁, -⟩ := step_moves hc ha
    obtain rfl := Option.some.inj (hc₁.symm.trans hc')
    exact ⟨conn, rfl, Move.identity hmove⟩

theorem OwnFilter.of_identity {conn conn' : TcpConnection} {filter : Filter}
    (h : OwnFilter conn filter) (hsame : identity conn' = identity conn) :
    OwnFilter conn' filter := by
  simp only [identity, Prod.mk.injEq] at hsame
  obtain ⟨-, hport, hremote, -⟩ := hsame
  rw [OwnFilter, hport, hremote]
  exact h

/-- An operation of either thread, with what is left of the captured packets behind it. -/
theorem Guarded.keeps (h : Guarded localIp f) {a : Action} (ha : a.keepsConnection = true)
    {rest : List (Filter × Packet)} (hrest : ∀ c ∈ rest, c ∈ f.captured) :
    Guarded localIp { f with stack := step f.stack a, captured := rest } := by
  have hsettings := step_settings f.stack a
  refine ⟨(congrArg (·.localIp) hsettings).trans h.host, ?_, ?_, ?_,
    fun c hc => h.passed c (hrest c hc)⟩
  · intro conn' hc'
    obtain ⟨conn, hc, hsame⟩ := step_identity ha hc'
    simp only [identity, Prod.mk.injEq] at hsame
    rw [hsame.1, hsame.2.2.1]
    exact h.away conn hc
  · intro hconnecting conn' hc'
    obtain ⟨conn, hc, hsame⟩ := step_identity ha hc'
    exact (h.own hconnecting conn hc).of_identity hsame
  · intro args hconnecting
    obtain ⟨hhandle, hnext⟩ := h.next args hconnecting
    exact ⟨(congrArg (·.pcapHandle) hsettings).trans hhandle, hnext⟩

theorem Guarded.arrives (h : Guarded localIp f) (packet : Packet) :
    Guarded localIp (turn f (.arrives packet)) := by
  rw [turn]
  split
  · next hadmits =>
    refine ⟨h.host, h.away, h.own, h.next, ?_⟩
    rw [List.forall_mem_append, List.forall_mem_singleton]
    exact ⟨h.passed, hadmits⟩
  · exact h

theorem Guarded.setsFilter (h : Guarded localIp f) {args : ConnectArgs}
    (haway : args.remoteIp ≠ localIp) (ok : Bool) :
    Guarded localIp (turn f (.setsFilter args ok)) := by
  rw [turn]
  split
  · next hset =>
    simp only [Bool.and_eq_true] at hset
    refine ⟨h.host, h.away, ?_, ?_, h.passed⟩
    · rintro ⟨⟩
    · rintro args' ⟨⟩
      exact ⟨hset.1.2, haway, rfl⟩
  · exact h

/-- The connection that `connect` installs is the one that it has set the filter for. -/
theorem Guarded.installs (h : Guarded localIp f) (sent : Int) :
    Guarded localIp (turn f (.installs sent)) := by
  cases hconnecting : f.connecting with
  | none =>
    simp only [turn, hconnecting]
    exact h
  | some args =>
    obtain ⟨hhandle, haway, hfilter⟩ := h.next args hconnecting
    let a : Action := .connect args.remoteIp args.remotePort args.localPort args.iss true sent
    have hfrom {conn : TcpConnection} (hc : (step f.stack a).currentConnection = some conn) :
        identity conn = identity
          (newConnection f.stack args.remoteIp args.remotePort args.localPort args.iss) :=
      connect_identity f.stack args.remoteIp args.remotePort args.localPort args.iss hhandle rfl hc
    simp only [turn, hconnecting]
    refine ⟨(congrArg (·.localIp) (step_settings f.stack a)).trans h.host, ?_, ?_, ?_, h.passed⟩
    · intro conn hc
      have hsame := hfrom hc
      simp only [identity, Prod.mk.injEq] at hsame
      rw [hsame.1, hsame.2.2.1]
      exact ⟨h.host, haway⟩
    · intro _ conn hc
      have hown : OwnFilter
          (newConnection f.stack args.remoteIp args.remotePort args.localPort args.iss) f.filter :=
        ⟨args.remotePort, hfilter⟩
      exact hown.of_identity (hfrom hc)
    · rintro args' ⟨⟩

theorem Guarded.turn (h : Guarded localIp f) (ht : Elsewhere localIp t) :
    Guarded localIp (Filtering.turn f t) := by
  cases t with
  | arrives packet => exact h.arrives packet
  | setsFilter args ok => exact h.setsFilter ht ok
  | installs sent => exact h.installs sent
  | calls a =>
    rw [Filtering.turn]
    split
    · next hcall =>
      have hkeeps : a.keepsConnection = true := by
        rw [Bool.and_eq_true] at hcall
        cases a with
        | connect => cases hcall.2
        | _ => rfl
      exact h.keeps hkeeps fun _ hc => hc
    · exact h
  | processes sent =>
    cases hcaptured : f.captured with
    | nil =>
      simp only [Filtering.turn, hcaptured]
      exact h
    | cons c rest =>
      simp only [Filtering.turn, hcaptured]
      refine h.keeps (a := .processPacket c.2 sent) rfl fun c' hc' => ?_
      rw [hcaptured]
      exact List.mem_cons_of_mem _ hc'

/-- The rule for RST packets asks for no source, but the filter does. -/
theorem fromPeer_of_admitted {s : TcpStack} {conn : TcpConnection} {filter : Filter}
    {packet : Packet} (hc : s.currentConnection = some conn) (haway : conn.remoteIp ≠ conn.localIp)
    (hown : OwnFilter conn filter) (hpass : filter.admits packet = true)
    (hmatch : isPacketForConnection s packet = true) : FromPeer conn packet := by
  obtain ⟨ip, tcp, conn', hip, htcp, hc'⟩ := isPacketForConnection_some hmatch
  obtain rfl := Option.some.inj (hc'.symm.trans hc)
  obtain ⟨remotePort, rfl⟩ := hown
  have hhost : ip.sourceIp = conn'.remoteIp ∨ ip.destIp = conn'.remoteIp := by
    simp only [connectionFilter, Filter.admits, hip, htcp, Option.any_some, Bool.and_eq_true,
      Bool.or_eq_true, beq_iff_eq] at hpass
    exact hpass.1.1
  simp only [isPacketForConnection, hip, htcp, hc, Bool.or_eq_true, Bool.and_eq_true,
    beq_iff_eq] at hmatch
  rcases hmatch with (⟨⟨⟨hsource, hdest⟩, -⟩, hport⟩ | ⟨⟨⟨hsource, hdest⟩, hsyn⟩, hack⟩) |
    ⟨⟨hdest, hport⟩, -⟩
  · exact ⟨ip, tcp, hip, htcp, hsource, hdest, .inl hport⟩
  · exact ⟨ip, tcp, hip, htcp, hsource, hdest, .inr ⟨hsyn, hack⟩⟩
  · refine ⟨ip, tcp, hip, htcp, hhost.resolve_right ?_, hdest, .inl hport⟩
    intro hother
    exact haway (hother.symm.trans hdest)

theorem Guarded.disturbed (h : Guarded localIp f) (t : Turn) : DisturbedByPeer f t := by
  rintro sent filter packet rest conn rfl hcaptured hc hown hchanged
  have haway : conn.remoteIp ≠ conn.localIp := by
    obtain ⟨hlocal, hremote⟩ := h.away conn hc
    rwa [hlocal]
  have hpass : filter.admits packet = true := h.passed (filter, packet) (by simp [hcaptured])
  refine fromPeer_of_admitted hc haway hown hpass ?_
  by_contra hunmatched
  exact hchanged (processPacket_none sent (if_neg hunmatched))

theorem OwnFilter.admits {conn : TcpConnection} {filter : Filter} (h : OwnFilter conn filter)
    {packet : Packet} (htuple : isFourTuple conn packet = true) : filter.admits packet = true := by
  obtain ⟨remotePort, rfl⟩ := h
  cases hip : packet.ipv4 with
  | none => simp [isFourTuple, hip] at htuple
  | some ip =>
    cases htcp : packet.tcp with
    | none => simp [isFourTuple, hip, htcp] at htuple
    | some tcp =>
      simp only [isFourTuple, hip, htcp, Bool.and_eq_true, beq_iff_eq] at htuple
      obtain ⟨⟨⟨hsource, -⟩, -⟩, hport⟩ := htuple
      simp [connectionFilter, Filter.admits, hip, htcp, hsource, hport]

end Steps

/-- A connection opens behind its filter. -/
def sampleOpening : List Turn :=
  [.setsFilter ⟨0x0A000009, 80, 40000, 1000⟩ true, .installs 54,
    .arrives (sampleSegment 0x0A000009 40000 5000 1001 (tcpSyn ||| tcpAck) []),
    .processes fun _ => 54]

/-- What was captured before `connect` has set its filter can be a third host's. -/
example :
    let reply := sampleSegment 0x0A00004D 40000 5000 1001 (tcpSyn ||| tcpAck ||| tcpRst) []
    (connectionFilter 0x0A000009 80 40000).admits reply = false ∧
      getConnectionState (run turn (unfiltered sampleClient) [.arrives reply,
        .setsFilter ⟨0x0A000009, 80, 40000, 1000⟩ true, .installs 54,
        .processes fun _ => 54]).stack = .established := by decide +kernel

end MyTelnet.Stack.Filtering
