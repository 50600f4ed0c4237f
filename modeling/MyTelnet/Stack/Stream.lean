/- module: MyTelnet/Stack/Stream
   scope: proofs
   digest: The peer's byte stream: what is queued, what is acknowledged, and when both are right. -/

import MyTelnet.Base.Streams
import MyTelnet.Stack.Handshake

set_option autoImplicit false
set_option relaxedAutoImplicit false

namespace MyTelnet.Stack.Stream

open MyTelnet.Base.ByteOrder MyTelnet.Base.Runs MyTelnet.Base.Streams MyTelnet.Wire.Layers
open MyTelnet.Stack.State MyTelnet.Stack.Receive MyTelnet.Stack.Run MyTelnet.Stack.Effects
open MyTelnet.Stack.Reactions MyTelnet.Stack.Steps MyTelnet.Stack.Handshake

/-- A stack whose handshake is complete and that has consumed nothing since. -/
structure Handshaken (s : TcpStack) (conn : TcpConnection) : Prop where
  connection : s.currentConnection = some conn
  state : conn.state = .established
  ackNum : conn.ackNum = conn.remoteSeqNum + 1

/-- The vectors pushed between two moments of a run. -/
def pushedSince (s₀ s : TcpStack) : List Bytes :=
  (queuedVectors s).drop (queuedVectors s₀).length

/-- How many FINs of the peer were consumed between two moments of a run. -/
def finsSince (s₀ s : TcpStack) : Nat := finsReceived s - finsReceived s₀

/-- The segment that an action consumes, if any, and the connection it arrives at. -/
def consumed (s : TcpStack) : Action → Option (TcpConnection × TcpParser)
  | .processPacket packet _ =>
    (received s packet).filter fun p => (reactionOf p.1.state p.2).consumes
  | _ => none

/-- The step that establishes the connection leaves it handshaken. -/
theorem established_handshaken {s : TcpStack} {conn conn' : TcpConnection} {a : Action}
    (hc : s.currentConnection = some conn) (hs : conn.state = .synSent)
    (ha : a.keepsConnection = true) (hc' : (step s a).currentConnection = some conn')
    (hest : conn'.state = .established) : Handshaken (step s a) conn' := by
  refine ⟨hc', hest, ?_⟩
  obtain ⟨conn₁, hc₁, ⟨hlocal, -⟩ | ⟨packet, sent, tcp, acked, -, -, hsame, -⟩⟩ :=
    step_connection hc ha
  · obtain rfl : conn₁ = conn' := Option.some.inj (hc₁.symm.trans hc')
    rcases hlocal.state with h | ⟨h, -⟩ | h
    · rw [h, hs] at hest
      exact absurd hest (by simp)
    · rw [hs] at h
      exact absurd h (by simp)
    · rw [h] at hest
      exact absurd hest (by simp)
  · obtain rfl : conn₁ = conn' := Option.some.inj (hc₁.symm.trans hc')
    rw [hsame] at hest ⊢
    simp only [hs, reactionOf] at hest ⊢
    split at hest
    · next h => simp [h, reacted]
    · simp [reacted, hs] at hest

/-- What has come in since `s₀`, where the connection was `conn₀`: the pushed vectors and the
consumed FINs. After a FIN the connection only finishes closing. -/
structure Since (s₀ : TcpStack) (conn₀ : TcpConnection) (s : TcpStack) (conn : TcpConnection)
    (vectors : List Bytes) (fins : List Unit) : Prop where
  connection : s.currentConnection = some conn
  same : SameConnection conn₀ conn
  queued : queuedVectors s = queuedVectors s₀ ++ vectors
  finished : history Event.receivedFin? s = history Event.receivedFin? s₀ ++ fins
  oneFin : fins = [] ∨ fins = [()] ∧ (conn.state = .lastAck ∨ conn.state = .closed)

theorem Since.pushedSince_eq {s₀ s : TcpStack} {conn₀ conn : TcpConnection}
    {vectors : List Bytes} {fins : List Unit} (h : Since s₀ conn₀ s conn vectors fins) :
    pushedSince s₀ s = vectors := by
  have hq := h.queued
  rw [pushedSince, hq, List.drop_left]

theorem Since.finsSince_eq {s₀ s : TcpStack} {conn₀ conn : TcpConnection}
    {vectors : List Bytes} {fins : List Unit} (h : Since s₀ conn₀ s conn vectors fins) :
    finsSince s₀ s = fins.length := by
  rw [finsSince, finsReceived, finsReceived, h.finished, List.length_append]
  omega

theorem Since.refl {s : TcpStack} {conn : TcpConnection} (hc : s.currentConnection = some conn)
    (hs : conn.state ≠ .synSent) : Since s conn s conn [] [] :=
  ⟨hc, ⟨rfl, rfl, rfl, rfl, rfl, hs⟩, (List.append_nil _).symm, (List.append_nil _).symm, .inl rfl⟩

/-- LAST_ACK and CLOSED, the states in which no segment is consumed any more. -/
def Ending (state : TcpState) : Prop := state = .lastAck ∨ state = .closed

theorem reacted_ending {conn : TcpConnection} (tcp : TcpParser) (acked : Bool)
    (h : Ending conn.state) :
    (reactionOf conn.state tcp).fins = [] ∧
      Ending (reacted conn tcp acked (reactionOf conn.state tcp)).state := by
  rcases h with h | h
  · rw [h]
    cases hack : tcp.isAck with
    | true =>
      have hr : reactionOf .lastAck tcp = .finalAck := by simp [reactionOf, hack]
      rw [hr]
      exact ⟨rfl, .inr rfl⟩
    | false =>
      have hr : reactionOf .lastAck tcp = .ignore := by simp [reactionOf, hack]
      rw [hr]
      exact ⟨rfl, .inl h⟩
  · rw [h]
    exact ⟨rfl, .inr h⟩

theorem reacted_fins (conn : TcpConnection) (tcp : TcpParser) (acked : Bool) {r : Reaction}
    (h : r.fins ≠ []) : r.fins = [()] ∧ Ending (reacted conn tcp acked r).state := by
  cases r with
  | passiveClose => exact ⟨rfl, .inl rfl⟩
  | activeClose => exact ⟨rfl, .inr rfl⟩
  | _ => exact absurd rfl h

/-- The end of the segment, as far as the reaction consumes it. -/
theorem reacted_ackNum (conn : TcpConnection) (tcp : TcpParser) (acked : Bool) {r : Reaction}
    (hne : r ≠ .synAck) :
    (reacted conn tcp acked r).ackNum =
      if r.consumes
      then tcp.sequenceNumber + UInt32.ofNat ((r.pushed tcp).flatten.length + r.fins.length)
      else conn.ackNum := by
  cases r with
  | synAck => exact absurd rfl hne
  | data => simp [reacted, Reaction.consumes, Reaction.pushed, Reaction.fins,
      TcpParser.payloadLength]
  | _ => rfl

theorem reacted_established {conn : TcpConnection} {tcp : TcpParser} {acked : Bool}
    (hs : conn.state ≠ .synSent)
    (h : (reacted conn tcp acked (reactionOf conn.state tcp)).state = .established) :
    conn.state = .established := by
  cases hr : reactionOf conn.state tcp with
  | synAck => exact absurd hr (reactionOf_ne_synAck tcp hs)
  | ignore | data => simpa [hr, reacted] using h
  | _ => simp [hr, reacted] at h

theorem Reaction.not_consumes (tcp : TcpParser) {r : Reaction} (h : r.consumes = false) :
    r.pushed tcp = [] ∧ r.fins = [] := by
  cases r with
  | data | passiveClose | activeClose => simp [Reaction.consumes] at h
  | ignore | synAck | finAcked | finalAck => exact ⟨rfl, rfl⟩

theorem consumed_unmatched {s : TcpStack} {a : Action} (h : Unmatched s a) :
    consumed s a = none := by
  cases a with
  | processPacket packet sent =>
    rw [consumed, h packet sent rfl]
    rfl
  | _ => rfl

theorem localChange_established {conn conn' : TcpConnection} (h : LocalChange conn conn')
    (hest : conn'.state = .established) : conn.state = .established := by
  rcases h.state with hst | ⟨hst, -⟩ | hst
  · exact hst ▸ hest
  · exact hst
  · rw [hst] at hest
    exact absurd hest (by simp)

theorem localChange_ending {conn conn' : TcpConnection} (h : LocalChange conn conn')
    (hend : Ending conn.state) : Ending conn'.state := by
  rcases h.state with hst | ⟨hst, -⟩ | hst
  · rwa [hst]
  · rw [hst] at hend
    simp [Ending] at hend
  · exact .inr hst

/-- Of two segments with a FIN the second finds the connection ending. -/
theorem reacted_oneFin {conn : TcpConnection} (tcp : TcpParser) (acked : Bool) {fins : List Unit}
    (h : fins = [] ∨ fins = [()] ∧ Ending conn.state) :
    fins ++ (reactionOf conn.state tcp).fins = [] ∨
      fins ++ (reactionOf conn.state tcp).fins = [()] ∧
        Ending (reacted conn tcp acked (reactionOf conn.state tcp)).state := by
  rcases h with hnil | ⟨hone, hend⟩
  · by_cases hfin : (reactionOf conn.state tcp).fins = []
    · exact .inl (by rw [hnil, hfin]; rfl)
    · obtain ⟨hone, hstate⟩ := reacted_fins conn tcp acked hfin
      exact .inr ⟨by rw [hnil, hone]; rfl, hstate⟩
  · obtain ⟨hnil, hstate⟩ := reacted_ending tcp acked hend
    exact .inr ⟨by rw [hone, hnil]; rfl, hstate⟩

/-- One step: a segment that is consumed moves `ack_num` to its end, whatever `ack_num` was, and
any other step leaves `ack_num`, the queued vectors and the FINs alone. -/
theorem Since.step {s₀ s : TcpStack} {conn₀ conn : TcpConnection} {vectors : List Bytes}
    {fins : List Unit} {a : Action} (h : Since s₀ conn₀ s conn vectors fins)
    (ha : a.keepsConnection = true) :
    ∃ conn' more fin, Since s₀ conn₀ (Run.step s a) conn' (vectors ++ more) (fins ++ fin) ∧
      (conn'.state = .established → conn.state = .established) ∧
      match consumed s a with
      | none => conn'.ackNum = conn.ackNum ∧ more = [] ∧ fin = []
      | some (c, tcp) => c = conn ∧ more = (reactionOf conn.state tcp).pushed tcp ∧
          fin = (reactionOf conn.state tcp).fins ∧
          conn'.ackNum = tcp.sequenceNumber + UInt32.ofNat (more.flatten.length + fin.length) := by
  obtain ⟨conn', hc', hcase⟩ := step_connection h.connection ha
  have hsame : SameConnection conn conn' := by
    obtain ⟨c, hc, hs⟩ := step_sameConnection h.connection h.same.state ha
    obtain rfl : c = conn' := Option.some.inj (hc.symm.trans hc')
    exact hs
  rcases hcase with ⟨hlocal, hq, hf, hun⟩ | ⟨packet, sent, tcp, acked, rfl, hr, hbut, hq, hf⟩
  · refine ⟨conn', [], [], ⟨hc', h.same.trans hsame, ?_, ?_, ?_⟩,
      localChange_established hlocal, ?_⟩
    · rw [List.append_nil]
      exact hq.trans h.queued
    · rw [List.append_nil]
      exact hf.trans h.finished
    · rw [List.append_nil]
      exact h.oneFin.imp_right (And.imp_right (localChange_ending hlocal))
    · rw [consumed_unmatched hun]
      exact ⟨by rw [hlocal.fields], rfl, rfl⟩
  · have hack := reacted_ackNum conn tcp acked (reactionOf_ne_synAck tcp h.same.state)
    have hstate : conn'.state = (reacted conn tcp acked (reactionOf conn.state tcp)).state := by
      rw [hbut]
    have hack' : conn'.ackNum = (reacted conn tcp acked (reactionOf conn.state tcp)).ackNum := by
      rw [hbut]
    refine ⟨conn', (reactionOf conn.state tcp).pushed tcp, (reactionOf conn.state tcp).fins,
      ⟨hc', h.same.trans hsame, ?_, ?_, ?_⟩, ?_, ?_⟩
    · rw [← List.append_assoc, ← h.queued]
      exact hq
    · rw [← List.append_assoc, ← h.finished]
      exact hf
    · rw [hstate]
      exact reacted_oneFin tcp acked h.oneFin
    · rw [hstate]
      exact reacted_established h.same.state
    · rw [consumed, hr, hack', hack]
      cases hcons : (reactionOf conn.state tcp).consumes with
      | true => simp [Option.filter, hcons]
      | false =>
        obtain ⟨hpushed, hfins⟩ := Reaction.not_consumes tcp hcons
        simp [Option.filter, hcons, hpushed, hfins]

/-! Acknowledgements. -/

/-- `ack_num` counts what was consumed since the handshake. -/
def Acknowledged (s₀ s : TcpStack) : Prop :=
  ∃ conn, s.currentConnection = some conn ∧
    conn.ackNum = conn.remoteSeqNum + 1 + UInt32.ofNat (pushedSince s₀ s).flatten.length +
      if finsSince s₀ s = 0 then 0 else 1

/-- The segment that the action consumes, if any, starts at `ack_num`. -/
def ConsumesInOrder (s : TcpStack) (a : Action) : Prop :=
  ∀ conn tcp, consumed s a = some (conn, tcp) → tcp.sequenceNumber = conn.ackNum

theorem Since.acknowledged_eq {s₀ s : TcpStack} {conn₀ conn : TcpConnection}
    {vectors : List Bytes} {fins : List Unit} (h : Since s₀ conn₀ s conn vectors fins) :
    Acknowledged s₀ s ↔
      conn.ackNum =
        conn₀.remoteSeqNum + 1 + UInt32.ofNat (vectors.flatten.length + fins.length) := by
  have hcount : (if finsSince s₀ s = 0 then (0 : UInt32) else 1) = UInt32.ofNat fins.length := by
    rw [h.finsSince_eq]
    rcases h.oneFin with rfl | ⟨rfl, -⟩ <;> rfl
  rw [UInt32.ofNat_add, ← UInt32.add_assoc, ← hcount, ← h.pushedSince_eq,
    ← h.same.remoteSeqNum]
  constructor
  · rintro ⟨c, hc, hack⟩
    obtain rfl : c = conn := Option.some.inj (hc.symm.trans h.connection)
    exact hack
  · intro hack
    exact ⟨conn, h.connection, hack⟩

/-- Where `ack_num` is right, a step keeps it right exactly if what it consumes starts there. -/
theorem Since.acknowledged_step {s₀ s : TcpStack} {conn₀ conn : TcpConnection}
    {vectors : List Bytes} {fins : List Unit} {a : Action}
    (h : Since s₀ conn₀ s conn vectors fins) (ha : a.keepsConnection = true)
    (hack : Acknowledged s₀ s) :
    Acknowledged s₀ (Run.step s a) ↔ ConsumesInOrder s a := by
  obtain ⟨conn', more, fin, h', -, hcase⟩ := h.step ha
  have hold := h.acknowledged_eq.mp hack
  have hsum : conn₀.remoteSeqNum + 1 + UInt32.ofNat ((vectors ++ more).flatten.length +
      (fins ++ fin).length) = conn.ackNum + UInt32.ofNat (more.flatten.length + fin.length) := by
    rw [hold, List.flatten_append, List.length_append, List.length_append, UInt32.add_assoc,
      UInt32.add_assoc, UInt32.add_assoc, ← UInt32.ofNat_add]
    congr 3
    omega
  rw [h'.acknowledged_eq, hsum]
  cases hcons : consumed s a with
  | none =>
    rw [hcons] at hcase
    obtain ⟨hkeep, rfl, rfl⟩ := hcase
    refine ⟨fun _ c tcp hc => absurd (hcons.symm.trans hc) (by simp), ?_⟩
    intro _
    rw [hkeep]
    exact (UInt32.add_zero _).symm
  | some pair =>
    obtain ⟨c, tcp⟩ := pair
    rw [hcons] at hcase
    obtain ⟨rfl, -, -, hmove⟩ := hcase
    rw [hmove]
    constructor
    · intro hseq c' tcp' hc
      obtain ⟨rfl, rfl⟩ := Prod.mk.inj (Option.some.inj (hcons.symm.trans hc))
      exact (UInt32.add_left_inj _).mp hseq
    · intro horder
      rw [horder c tcp hcons]

/-- From the handshake on, `ack_num` is right in every state of a run exactly if every segment
the run consumes starts at the `ack_num` it finds. -/
theorem acknowledged_iff {s : TcpStack} {conn : TcpConnection} {acts : List Action}
    (h : Handshaken s conn) (ha : ∀ a ∈ acts, a.keepsConnection = true) :
    (∀ pre, pre <+: acts → Acknowledged s (runStack s pre)) ↔
      EachStep step ConsumesInOrder s acts := by
  have hs : conn.state ≠ .synSent := by
    rw [h.state]
    simp
  have hstart := Since.refl h.connection hs
  have hamb : ∀ t a, (∃ c vectors fins, Since s conn t c vectors fins) →
      a.keepsConnection = true → ∃ c vectors fins, Since s conn (step t a) c vectors fins := by
    rintro t a ⟨c, vectors, fins, ht⟩ hkeep
    obtain ⟨c', more, fin, ht', -⟩ := ht.step hkeep
    exact ⟨_, _, _, ht'⟩
  have hexact : ∀ t a, (∃ c vectors fins, Since s conn t c vectors fins) →
      a.keepsConnection = true → Acknowledged s t →
      (Acknowledged s (step t a) ↔ ConsumesInOrder t a) := by
    rintro t a ⟨c, vectors, fins, ht⟩ hkeep hack
    exact ht.acknowledged_step hkeep hack
  refine invariant_iff_eachStep hamb hexact ⟨_, _, _, hstart⟩ ?_ ha
  rw [hstart.acknowledged_eq, h.ackNum]
  exact (UInt32.add_zero _).symm

/-! A sample server, which sent its SYN+ACK at sequence number 5000. -/

def sampleOpened : TcpStack := runStack sampleAttempt [sampleReply]

def sampleOpenedConnection : TcpConnection :=
  { sampleConnection with remoteSeqNum := 5000, ackNum := 5001, state := .established }

theorem sampleOpened_handshaken : Handshaken sampleOpened sampleOpenedConnection :=
  ⟨by decide +kernel, rfl, rfl⟩

/-- A data segment from the server at `seq`. -/
def sampleData (seq : UInt32) (payload : Bytes) : Packet :=
  sampleSegment 0x0A000009 40000 seq 1001 (tcpPsh ||| tcpAck) payload

def arrival (packet : Packet) : Action := .processPacket packet fun _ => 54

theorem acknowledged_iff_sample :
    (∀ pre, pre <+: [arrival (sampleData 5001 [0x61, 0x62]), .closeConnection 54] →
        Acknowledged sampleOpened (runStack sampleOpened pre)) ↔
      EachStep step ConsumesInOrder sampleOpened
        [arrival (sampleData 5001 [0x61, 0x62]), .closeConnection 54] :=
  acknowledged_iff sampleOpened_handshaken (by decide)

/-- A segment from beyond a gap: 3999 bytes that never came are acknowledged. -/
theorem gap_acknowledged :
    ¬ Acknowledged sampleOpened (runStack sampleOpened [arrival (sampleData 9000 [0x61])]) := by
  rintro ⟨conn, hc, hack⟩
  have hconn : (runStack sampleOpened [arrival (sampleData 9000 [0x61])]).currentConnection =
      some { sampleOpenedConnection with ackNum := 9001 } := by
    decide +kernel
  obtain rfl := Option.some.inj (hc.symm.trans hconn)
  exact absurd hack (by decide +kernel)

/-! The stream of the peer. -/

def isFourTuple (conn : TcpConnection) (packet : Packet) : Bool :=
  match packet.ipv4, packet.tcp with
  | some ip, some tcp => ip.sourceIp == conn.remoteIp && ip.destIp == conn.localIp &&
      tcp.sourcePort == conn.remotePort && tcp.destPort == conn.localPort
  | _, _ => false

/-- The packet, if it is a data segment of the connection, carries the part of `peer` that its
sequence number says. -/
def CarriesSlice (conn : TcpConnection) (peer : Bytes) (packet : Packet) : Prop :=
  isFourTuple conn packet = true → ∀ tcp, packet.tcp = some tcp → tcp.payload ≠ [] →
    ∃ offset, SliceAt peer offset tcp.payload ∧
      tcp.sequenceNumber = conn.remoteSeqNum + 1 + UInt32.ofNat offset

/-- What an action pushes. -/
def accepted (s : TcpStack) : Action → List Bytes
  | .processPacket packet _ =>
    match received s packet with
    | some (conn, tcp) => (reactionOf conn.state tcp).pushed tcp
    | none => []
  | _ => []

/-- The payloads of the data segments that a run accepts, in order of arrival. -/
def acceptedPayloads (s : TcpStack) : List Action → List Bytes
  | [] => []
  | a :: acts => accepted s a ++ acceptedPayloads (step s a) acts

/-- The data segment that the action accepts, if any, is the connection's own and starts at
`ack_num`. -/
def DataInOrder (s : TcpStack) (a : Action) : Prop :=
  ∀ packet sent, a = .processPacket packet sent → ∀ conn tcp,
    received s packet = some (conn, tcp) → reactionOf conn.state tcp = .data →
    isFourTuple conn packet = true ∧ tcp.sequenceNumber = conn.ackNum

theorem isFourTuple_congr {conn conn' : TcpConnection} (h : SameConnection conn conn')
    (packet : Packet) : isFourTuple conn' packet = isFourTuple conn packet := by
  unfold isFourTuple
  rw [h.localIp, h.localPort, h.remoteIp, h.remotePort]

theorem queuedVectors_step {s : TcpStack} {conn : TcpConnection} {a : Action}
    (hc : s.currentConnection = some conn) (ha : a.keepsConnection = true) :
    queuedVectors (step s a) = queuedVectors s ++ accepted s a := by
  obtain ⟨conn', hc', ⟨-, hq, -, hun⟩ | ⟨packet, sent, tcp, acked, rfl, hr, -, hq, -⟩⟩ :=
    step_connection hc ha
  · have hnone : accepted s a = [] := by
      cases a with
      | processPacket packet sent => rw [accepted, hun packet sent rfl]
      | _ => rfl
    rw [hnone, List.append_nil]
    exact hq
  · rw [accepted, hr]
    exact hq

/-- Nothing is reassembled: the queue gets each accepted payload whole, as it arrives. -/
theorem queuedVectors_run {s : TcpStack} {conn : TcpConnection} {acts : List Action}
    (hc : s.currentConnection = some conn) (ha : ∀ a ∈ acts, a.keepsConnection = true) :
    queuedVectors (runStack s acts) = queuedVectors s ++ acceptedPayloads s acts := by
  induction acts generalizing s conn with
  | nil => exact (List.append_nil _).symm
  | cons a acts ih =>
    rw [List.forall_mem_cons] at ha
    obtain ⟨conn', hc'⟩ := step_keeps hc ha.1
    have hstep := queuedVectors_step hc ha.1
    apply (ih hc' ha.2).trans
    rw [acceptedPayloads, ← List.append_assoc, ← hstep]

/-- The stack holds what an in-order receiver of the stream would hold, and while it still takes
data, `ack_num` says how much that is. -/
def Holds (s₀ : TcpStack) (conn₀ : TcpConnection) {peer : Bytes} (r : Receiver peer)
    (s : TcpStack) : Prop :=
  ∃ conn vectors fins, Since s₀ conn₀ s conn vectors fins ∧ vectors.flatten = r.got ∧
    (conn.state = .established →
      conn.ackNum = conn₀.remoteSeqNum + 1 + UInt32.ofNat r.got.length)

theorem consumed_some {s : TcpStack} {a : Action} {conn : TcpConnection} {tcp : TcpParser}
    (h : consumed s a = some (conn, tcp)) :
    ∃ packet sent, a = .processPacket packet sent ∧ received s packet = some (conn, tcp) ∧
      (reactionOf conn.state tcp).consumes = true := by
  cases a with
  | processPacket packet sent =>
    obtain ⟨hr, hcons⟩ := Option.filter_eq_some_iff.mp h
    exact ⟨packet, sent, rfl, hr, hcons⟩
  | _ => simp [consumed] at h

theorem reactionOf_data {state : TcpState} {tcp : TcpParser} (h : reactionOf state tcp = .data) :
    state = .established ∧ tcp.payload ≠ [] := by
  cases state with
  | established =>
    refine ⟨rfl, ?_⟩
    intro hnil
    have hzero : ¬ tcp.payloadLength > 0 := by simp [TcpParser.payloadLength, hnil]
    simp only [reactionOf, if_neg hzero] at h
    repeat' split at h
    all_goals exact absurd h (by simp)
  | _ =>
    simp only [reactionOf] at h
    repeat' split at h
    all_goals exact absurd h (by simp)

/-- A step that takes only the next bytes is a step of the in-order receiver. -/
theorem Holds.step {s₀ s : TcpStack} {conn₀ : TcpConnection} {peer : Bytes} {r : Receiver peer}
    {a : Action} (h : Holds s₀ conn₀ r s) (hlen : peer.length < 2 ^ 31)
    (ha : a.keepsConnection = true)
    (hslice : ∀ packet sent, a = .processPacket packet sent → CarriesSlice conn₀ peer packet)
    (horder : DataInOrder s a) : ∃ r' : Receiver peer, Holds s₀ conn₀ r' (Run.step s a) := by
  obtain ⟨conn, vectors, fins, hs, hgot, hack⟩ := h
  obtain ⟨conn', more, fin, hs', hest, hcase⟩ := hs.step ha
  cases hcons : consumed s a with
  | none =>
    rw [hcons] at hcase
    obtain ⟨hkeep, rfl, rfl⟩ := hcase
    refine ⟨r, conn', _, _, hs', by rw [List.append_nil]; exact hgot, ?_⟩
    intro h
    rw [hkeep]
    exact hack (hest h)
  | some pair =>
    obtain ⟨c, tcp⟩ := pair
    rw [hcons] at hcase
    obtain ⟨rfl, hmore, hfin, hmove⟩ := hcase
    obtain ⟨packet, sent, rfl, hr, hconsumes⟩ := consumed_some hcons
    cases hreact : reactionOf c.state tcp with
    | data =>
      obtain ⟨hstate, hpayload⟩ := reactionOf_data hreact
      obtain ⟨htuple, hseq⟩ := horder packet sent rfl c tcp hr hreact
      rw [isFourTuple_congr hs.same] at htuple
      obtain ⟨offset, hat, hoffset⟩ :=
        hslice packet sent rfl htuple tcp (received_some hr).2.2 hpayload
      obtain rfl : offset = r.got.length := by
        refine offset_unique ?_ ?_ (hoffset.symm.trans (hseq.trans (hack hstate)))
        · have := hat.1
          omega
        · have := r.length_le
          omega
      rw [hreact] at hmore hfin
      rw [hmore] at hs'
      refine ⟨r.accept tcp.payload hat, conn', _, _, hs', ?_, ?_⟩
      · simp [Reaction.pushed, Receiver.accept, hgot]
      · intro _
        rw [hmove, hoffset, hmore, hfin]
        simp [Reaction.pushed, Reaction.fins, Receiver.accept, UInt32.add_assoc]
    | passiveClose | activeClose =>
      rw [hreact] at hmore hfin
      rw [hmore, hfin] at hs'
      refine ⟨r, conn', _, _, hs', by simpa [Reaction.pushed] using hgot, ?_⟩
      intro h
      rcases hs'.oneFin with hnil | ⟨-, hend⟩
      · simp [Reaction.fins] at hnil
      · rw [h] at hend
        simp at hend
    | _ =>
      rw [hreact] at hconsumes
      simp [Reaction.consumes] at hconsumes

/-- What a connection pushes for the application: the accepted payloads one after the other, and
so a prefix of the peer's stream whenever each of them continues the stream. -/
theorem pushed_prefix {s : TcpStack} {conn : TcpConnection} {peer : Bytes} {acts : List Action}
    (h : Handshaken s conn) (hlen : peer.length < 2 ^ 31)
    (ha : ∀ a ∈ acts, a.keepsConnection = true)
    (hslice : ∀ packet sent, .processPacket packet sent ∈ acts → CarriesSlice conn peer packet) :
    pushedSince s (runStack s acts) = acceptedPayloads s acts ∧
      (EachStep step DataInOrder s acts →
        (pushedSince s (runStack s acts)).flatten <+: peer) := by
  refine ⟨?_, ?_⟩
  · have hq := queuedVectors_run h.connection ha
    rw [pushedSince, hq, List.drop_left]
  · intro horder
    have hs : conn.state ≠ .synSent := by
      rw [h.state]
      simp
    have hstart : Holds s conn (Receiver.fresh peer) s :=
      ⟨conn, [], [], Since.refl h.connection hs, rfl, fun _ => by
        rw [h.ackNum]
        exact (UInt32.add_zero _).symm⟩
    have keep : ∀ t a, (∃ r : Receiver peer, Holds s conn r t) →
        (a ∈ acts ∧ DataInOrder t a) → ∃ r : Receiver peer, Holds s conn r (step t a) := by
      rintro t a ⟨r, ht⟩ ⟨hmem, hin⟩
      exact ht.step hlen (ha a hmem) (fun packet sent he => hslice packet sent (he ▸ hmem)) hin
    obtain ⟨r, c, vectors, fins, hfinal, hgot, -⟩ :=
      run_invariant keep ⟨_, hstart⟩ ((eachStep_of_forall fun _ hmem => hmem).and horder)
    rw [hfinal.pushedSince_eq, hgot]
    exact r.isPrefix

theorem sampleData_carries {peer : Bytes} (offset : Nat) {payload : Bytes}
    (h : SliceAt peer offset payload) :
    CarriesSlice sampleOpenedConnection peer (sampleData (5001 + UInt32.ofNat offset) payload) := by
  rintro - tcp ht -
  obtain rfl := Option.some.inj ht
  exact ⟨offset, h, rfl⟩

def sampleStream : Bytes := [0x61, 0x62, 0x63]

theorem pushed_prefix_sample :
    pushedSince sampleOpened (runStack sampleOpened
        [arrival (sampleData 5001 [0x61, 0x62]), arrival (sampleData 5003 [0x63])]) =
      acceptedPayloads sampleOpened
        [arrival (sampleData 5001 [0x61, 0x62]), arrival (sampleData 5003 [0x63])] ∧
    (EachStep step DataInOrder sampleOpened
        [arrival (sampleData 5001 [0x61, 0x62]), arrival (sampleData 5003 [0x63])] →
      (pushedSince sampleOpened (runStack sampleOpened
        [arrival (sampleData 5001 [0x61, 0x62]), arrival (sampleData 5003 [0x63])])).flatten <+:
        sampleStream) := by
  refine pushed_prefix sampleOpened_handshaken (by decide) (by decide) fun packet sent hmem => ?_
  simp only [arrival, List.mem_cons, List.not_mem_nil, or_false, Action.processPacket.injEq] at hmem
  rcases hmem with ⟨rfl, -⟩ | ⟨rfl, -⟩
  · exact sampleData_carries 0 ⟨by decide, by decide⟩
  · exact sampleData_carries 2 ⟨by decide, by decide⟩

/-- A retransmission of a segment that did arrive is queued a second time. -/
theorem duplicate_pushed :
    (∀ packet sent, .processPacket packet sent ∈
        [arrival (sampleData 5001 sampleStream), arrival (sampleData 5001 sampleStream)] →
      CarriesSlice sampleOpenedConnection sampleStream packet) ∧
    ¬ (pushedSince sampleOpened (runStack sampleOpened
        [arrival (sampleData 5001 sampleStream),
          arrival (sampleData 5001 sampleStream)])).flatten <+: sampleStream := by
  refine ⟨fun packet sent hmem => ?_, by decide +kernel⟩
  simp only [arrival, List.mem_cons, List.not_mem_nil, or_false, or_self,
    Action.processPacket.injEq] at hmem
  obtain ⟨rfl, -⟩ := hmem
  exact sampleData_carries 0 ⟨by decide, by decide⟩

end MyTelnet.Stack.Stream
