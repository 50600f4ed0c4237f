/- module: MyTelnet/Stack/Isolation
   scope: proofs
   digest: Which packets of other connections disturb an established one. -/

import MyTelnet.Stack.Filtering

set_option autoImplicit false
set_option relaxedAutoImplicit false

namespace MyTelnet.Stack.Isolation

open MyTelnet.Base.ByteOrder MyTelnet.Base.Runs MyTelnet.Wire.Layers
open MyTelnet.Stack.State MyTelnet.Stack.Receive MyTelnet.Stack.Run MyTelnet.Stack.Effects
open MyTelnet.Stack.Reactions MyTelnet.Stack.Steps MyTelnet.Stack.Handshake MyTelnet.Stack.Stream
open MyTelnet.Stack.Filtering

/-- The arrival of a packet of another four-tuple. -/
def Foreign (conn : TcpConnection) (a : Action) : Prop :=
  ∃ packet sent, a = .processPacket packet sent ∧ isFourTuple conn packet = false

/-- What the user and the network see of a connection. -/
def observe (s : TcpStack) :
    Option (TcpState × UInt32 × UInt32 × UInt16) × List Bytes × List Bytes :=
  (s.currentConnection.map fun conn =>
    (conn.state, conn.seqNum, conn.ackNum, conn.remotePort), s.dataQueue, injectedFrames s)

/-- The flags on which a branch of `process_packet` acts. -/
def selectsBranch (state : TcpState) (tcp : TcpParser) : Bool :=
  match state with
  | .synSent => tcp.isSyn && tcp.isAck
  | .established =>
    if tcp.isPsh && tcp.isAck then tcp.payloadLength > 0 else tcp.isFin && tcp.isAck
  | .finWait1 | .lastAck => tcp.isAck
  | .finWait2 => tcp.isFin
  | _ => false

/-- One of the two relaxed rules of `is_packet_for_connection` lets the packet in, and its flags
select a branch. -/
def DisturbsConnection (conn : TcpConnection) (packet : Packet) : Prop :=
  ∃ ip tcp, packet.ipv4 = some ip ∧ packet.tcp = some tcp ∧ ip.destIp = conn.localIp ∧
    (ip.sourceIp = conn.remoteIp ∧ tcp.isSyn = true ∧ tcp.isAck = true ∨
      tcp.destPort = conn.localPort ∧ tcp.isRst = true) ∧
    selectsBranch conn.state tcp = true

def Disturbs (s : TcpStack) (a : Action) : Prop :=
  ∃ packet sent conn, a = .processPacket packet sent ∧ s.currentConnection = some conn ∧
    DisturbsConnection conn packet

theorem selectsBranch_iff (state : TcpState) (tcp : TcpParser) :
    selectsBranch state tcp = true ↔ reactionOf state tcp ≠ .ignore := by
  cases state with
  | finWait1 => cases hack : tcp.isAck <;> cases hfin : tcp.isFin <;>
      simp [selectsBranch, reactionOf, hack, hfin]
  | established =>
    simp only [selectsBranch, reactionOf]
    split
    · split <;> simp_all
    · split <;> simp_all
  | _ => simp [selectsBranch, reactionOf]

/-- Outside its four-tuple, a connection receives what the relaxed rules let in. -/
theorem received_foreign_iff {s : TcpStack} {conn : TcpConnection} {packet : Packet}
    (hc : s.currentConnection = some conn) (hf : isFourTuple conn packet = false) :
    (∃ tcp, received s packet = some (conn, tcp) ∧ reactionOf conn.state tcp ≠ .ignore) ↔
      DisturbsConnection conn packet := by
  obtain hi | ⟨ip, hi⟩ := Option.eq_none_or_eq_some packet.ipv4
  · simp [DisturbsConnection, received, isPacketForConnection, hi]
  · obtain ht | ⟨tcp, ht⟩ := Option.eq_none_or_eq_some packet.tcp
    · simp [DisturbsConnection, received, isPacketForConnection, ht]
    · have hrules : isPacketForConnection s packet = true ↔ ip.destIp = conn.localIp ∧
          (ip.sourceIp = conn.remoteIp ∧ tcp.isSyn = true ∧ tcp.isAck = true ∨
            tcp.destPort = conn.localPort ∧ tcp.isRst = true) := by
        simp only [isFourTuple, hi, ht] at hf
        simp only [isPacketForConnection, hi, ht, hc, hf, Bool.false_or, Bool.or_eq_true,
          Bool.and_eq_true, beq_iff_eq]
        tauto
      simp only [DisturbsConnection, received, hc, ht, hi, selectsBranch_iff]
      by_cases hacc : isPacketForConnection s packet = true
      · simp [hacc, hrules.mp hacc]
      · have hno := mt hrules.mpr hacc
        simp only [hacc, Bool.false_eq_true, if_false, false_and, exists_false, false_iff,
          reduceCtorEq]
        rintro ⟨ip', tcp', hip, htcp, hd, hrule, -⟩
        obtain rfl := Option.some.inj hip
        obtain rfl := Option.some.inj htcp
        exact hno ⟨hd, hrule⟩

/-- The branches that push nothing move to another state. -/
theorem reacted_state_ne {conn : TcpConnection} (tcp : TcpParser) (acked : Bool)
    (hs : conn.state ≠ .synSent) (hne : reactionOf conn.state tcp ≠ .ignore)
    (hdata : reactionOf conn.state tcp ≠ .data) :
    (reacted conn tcp acked (reactionOf conn.state tcp)).state ≠ conn.state := by
  cases hr : reactionOf conn.state tcp with
  | ignore => exact absurd hr hne
  | data => exact absurd hr hdata
  | synAck => exact absurd hr (reactionOf_ne_synAck tcp hs)
  | passiveClose | finAcked | activeClose | finalAck =>
    intro heq
    have hstate : reactionOf conn.state tcp =
        reactionOf (reacted conn tcp acked (reactionOf conn.state tcp)).state tcp := by
      rw [hr, heq, ← hr]
    rw [hr] at hstate
    simp only [reacted, reactionOf] at hstate
    repeat' split at hstate
    all_goals exact absurd hstate (by simp)

theorem observe_perform_ne {s : TcpStack} {conn : TcpConnection} {tcp : TcpParser}
    (sent : Nat → Int) (hc : s.currentConnection = some conn) (hs : conn.state ≠ .synSent)
    (hne : reactionOf conn.state tcp ≠ .ignore) :
    observe (perform s tcp sent (reactionOf conn.state tcp)) ≠ observe s := by
  intro heq
  obtain ⟨hview, hrest⟩ := Prod.mk.inj heq
  by_cases hdata : reactionOf conn.state tcp = .data
  · have hqueue := (Prod.mk.inj hrest).1
    rw [perform_dataQueue s tcp sent _ hc, hdata] at hqueue
    simp [Reaction.pushed] at hqueue
  · obtain ⟨acked, seqNum, hconn, -⟩ :=
      perform_currentConnection s tcp sent (reactionOf conn.state tcp) hc
    rw [hconn, hc, Option.map_some, Option.map_some, Option.some.injEq, Prod.mk.injEq] at hview
    exact reacted_state_ne tcp acked hs hne hdata hview.1

/-- From ESTABLISHED on, packets of other four-tuples can be deleted from a run without a trace,
in every state and whichever of them are deleted, exactly if none of them disturbs. -/
theorem foreign_erasable_iff {s : TcpStack} {conn : TcpConnection} {acts : List Action}
    (hc : s.currentConnection = some conn) (hest : conn.state = .established)
    (ha : ∀ a ∈ acts, a.keepsConnection = true) :
    (∀ pre kept, pre <+: acts → Erased (Foreign conn) pre kept →
        observe (runStack s pre) = observe (runStack s kept)) ↔
      EachStep step (fun t a => Foreign conn a → ¬ Disturbs t a) s acts := by
  have hamb : ∀ t a, (∃ c, t.currentConnection = some c ∧ SameConnection conn c) →
      a.keepsConnection = true →
      ∃ c, (step t a).currentConnection = some c ∧ SameConnection conn c := by
    rintro t a ⟨c, htc, hsame⟩ hkeep
    obtain ⟨c', htc', hsame'⟩ := step_sameConnection htc hsame.state hkeep
    exact ⟨c', htc', hsame.trans hsame'⟩
  refine erasable_iff_eachStep hamb ?_ ?_ ⟨conn, hc, rfl, rfl, rfl, rfl, rfl, ?_⟩ ha
  · rintro t a ⟨c, htc, hsame⟩ ⟨packet, sent, rfl, hforeign⟩ hno
    rw [← isFourTuple_congr hsame] at hforeign
    cases hr : received t packet with
    | none => exact processPacket_none sent hr
    | some pair =>
      obtain ⟨c', tcp⟩ := pair
      obtain rfl : c' = c := Option.some.inj ((received_some hr).2.1.symm.trans htc)
      have hignore : reactionOf c'.state tcp = .ignore := by
        by_contra hne
        exact hno ⟨packet, sent, c', rfl, htc,
          (received_foreign_iff htc hforeign).mp ⟨tcp, hr, hne⟩⟩
      rw [step, processPacket_received sent hr, hignore]
      rfl
  · rintro t a ⟨c, htc, hsame⟩ ⟨packet, sent, rfl, hforeign⟩ hyes
    rw [not_not] at hyes
    obtain ⟨packet', sent', c', heq, htc', hdist⟩ := hyes
    obtain ⟨rfl, -⟩ := Action.processPacket.inj heq
    obtain rfl : c' = c := Option.some.inj (htc'.symm.trans htc)
    rw [← isFourTuple_congr hsame] at hforeign
    obtain ⟨tcp, hr, hne⟩ := (received_foreign_iff htc hforeign).mpr hdist
    rw [step, processPacket_received sent hr]
    exact observe_perform_ne sent htc hsame.state hne
  · rw [hest]
    simp

/-- A reset with a payload, sent to the client's port from another port of the server. -/
def sampleIntruder : Packet :=
  { ipv4 := some ⟨5, 41, 6, 0x0A000009, 0x0A000002⟩
    tcp := some ⟨81, 40000, 0, 0, 5, tcpRst ||| tcpPsh ||| tcpAck, 8192, [0x78]⟩ }

theorem foreign_erasable_sample :
    (∀ pre kept, pre <+: [arrival sampleIntruder, .waitForData] →
        Erased (Foreign sampleOpenedConnection) pre kept →
        observe (runStack sampleOpened pre) = observe (runStack sampleOpened kept)) ↔
      EachStep step (fun t a => Foreign sampleOpenedConnection a → ¬ Disturbs t a) sampleOpened
        [arrival sampleIntruder, .waitForData] :=
  foreign_erasable_iff sampleOpened_handshaken.connection rfl (by decide)

/-- The filter that `connect` installs lets the segment of port 81 through, and its byte ends up in
`data_queue_`. -/
theorem intruder_not_erasable :
    (connectionFilter 0x0A000009 80 40000).admits sampleIntruder = true ∧
    Erased (Foreign sampleOpenedConnection) [arrival sampleIntruder] [] ∧
    observe (runStack sampleOpened [arrival sampleIntruder]) ≠
      observe (runStack sampleOpened []) :=
  ⟨by decide, .erase ⟨sampleIntruder, _, rfl, by decide⟩ .nil, by decide +kernel⟩

end MyTelnet.Stack.Isolation
