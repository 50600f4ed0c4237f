/- module: MyTelnet/Stack/FailedSends
   scope: proofs
   digest: Which failed injections advance the protocol all the same. -/

import MyTelnet.Stack.Grammar

set_option autoImplicit false
set_option relaxedAutoImplicit false

namespace MyTelnet.Stack.FailedSends

open MyTelnet.Base.ByteOrder MyTelnet.Base.Runs MyTelnet.Base.Sections MyTelnet.Wire.Layers
open MyTelnet.Stack.State MyTelnet.Stack.Send MyTelnet.Stack.Run MyTelnet.Stack.Reactions
open MyTelnet.Stack.Steps MyTelnet.Stack.Handshake MyTelnet.Stack.Moves MyTelnet.Stack.Objects
open MyTelnet.Stack.Grammar

/-- The packet is a SYN+ACK in SYN_SENT, and the ACK that answers it is not injected. -/
def AckFails (s : TcpStack) (a : Action) (conn : TcpConnection) (tcp : TcpParser) : Prop :=
  ∃ packet sent, a = .processPacket packet sent ∧ received s packet = some (conn, tcp) ∧
    conn.state = .synSent ∧ tcp.isSyn = true ∧ tcp.isAck = true ∧
    (sent 0 = -1 ∨ s.pcapHandle = false)

/-- The connection is where it was, and so is the SYN that goes out next, its identification
apart. -/
structure Unadvanced (s s' : TcpStack) (conn conn' : TcpConnection) : Prop where
  state : conn'.state = conn.state
  remotePort : conn'.remotePort = conn.remotePort
  remoteSeqNum : conn'.remoteSeqNum = conn.remoteSeqNum
  ackNum : conn'.ackNum = conn.ackNum
  seqNum : conn'.seqNum = conn.seqNum
  nextSyn : ∀ id, buildFrame s' conn' id tcpSyn [] = buildFrame s conn id tcpSyn []

/-- A handshake ACK that fails leaves the connection where it was. -/
def HandshakeHeld (s : TcpStack) (a : Action) : Prop :=
  ∀ conn tcp, AckFails s a conn tcp →
    ∃ conn', (step s a).currentConnection = some conn' ∧ Unadvanced s (step s a) conn conn'

/-- A connection that is closing from our side has injected its FIN. -/
def FinInjected (s : TcpStack) : Prop :=
  ∀ conn, s.currentConnection = some conn →
    conn.state = .finWait1 ∨ conn.state = .finWait2 ∨ conn.state = .lastAck →
    finAck ∈ sentWord (latestObject s)

/-- The connection has noted such a SYN+ACK before. -/
def AlreadyNoted (conn : TcpConnection) (tcp : TcpParser) : Prop :=
  tcp.sourcePort = conn.remotePort ∧ tcp.sequenceNumber = conn.remoteSeqNum ∧
    tcp.sequenceNumber + 1 = conn.ackNum

/-- The packet is a FIN+ACK without PSH in ESTABLISHED, and the FIN that answers it is not
injected. -/
def FinFails (s : TcpStack) (a : Action) : Prop :=
  ∃ packet sent conn tcp, a = .processPacket packet sent ∧
    received s packet = some (conn, tcp) ∧ conn.state = .established ∧ tcp.isFin = true ∧
    tcp.isAck = true ∧ tcp.isPsh = false ∧ (sent 1 = -1 ∨ s.pcapHandle = false)

/-- No failure of this step is one that the code passes over. -/
def FailsSafely (s : TcpStack) (a : Action) : Prop :=
  (∀ conn tcp, AckFails s a conn tcp → AlreadyNoted conn tcp) ∧ ¬ FinFails s a

theorem buildFrame_settings {s s' : TcpStack} (h : settings s' = settings s)
    (conn : TcpConnection) (id flags : UInt16) (payload : Bytes) :
    buildFrame s' conn id flags payload = buildFrame s conn id flags payload := by
  have hgateway : s'.gatewayMac = s.gatewayMac := congrArg (·.gatewayMac) h
  have hlocal : s'.localMac = s.localMac := congrArg (·.localMac) h
  rw [buildFrame, buildFrame, hgateway, hlocal]

/-- The fields are updated whether the ACK goes out or not. -/
theorem ackFails_step {s : TcpStack} {a : Action} {conn : TcpConnection} {tcp : TcpParser}
    (h : AckFails s a conn tcp) : (step s a).currentConnection = some (noted conn tcp) := by
  obtain ⟨packet, sent, rfl, matched, state, hsyn, hack, hfails⟩ := h
  have hc := (received_some matched).2.1
  obtain ⟨events, conn', hmove, hconn, -⟩ := step_moves hc (a := .processPacket packet sent) rfl
  rw [hconn]
  have hsame {tcp' : TcpParser} (h' : received s packet = some (conn, tcp')) : tcp' = tcp :=
    (received_inj h' matched).2
  cases hmove with
  | idle unmatched => exact absurd (matched.symm.trans (unmatched packet sent rfl)) (by simp)
  | ignored matched' reaction =>
    obtain rfl := hsame matched'
    simp [reactionOf, state, hsyn, hack] at reaction
  | unanswered matched' => rw [hsame matched']
  | opened matched' state' flags answered =>
    rcases hfails with h | h
    · exact absurd h answered.1
    · exact absurd (h.symm.trans answered.2) (by simp)
  | data _ state' | passiveClose _ state' | finAcked _ state' | finalAck _ state' =>
    exact absurd (state.symm.trans state') (by simp)
  | activeClose matched' state' =>
    rw [state] at state'
    exact absurd state' (by simp)

theorem handshakeHeld_iff (s : TcpStack) (a : Action) :
    HandshakeHeld s a ↔ ∀ conn tcp, AckFails s a conn tcp → AlreadyNoted conn tcp := by
  constructor
  · intro h conn tcp hfails
    obtain ⟨conn', hconn, held⟩ := h conn tcp hfails
    obtain rfl := Option.some.inj (hconn.symm.trans (ackFails_step hfails))
    exact ⟨held.remotePort, held.remoteSeqNum, held.ackNum⟩
  · intro h conn tcp hfails
    refine ⟨_, ackFails_step hfails, ?_⟩
    obtain ⟨hport, hseq, hack⟩ := h conn tcp hfails
    have hconn : noted conn tcp = conn := by
      rw [noted, hport, hack, hseq]
    rw [hconn]
    exact ⟨rfl, rfl, rfl, rfl, rfl, fun id => buildFrame_settings (step_settings s a) _ _ _ _⟩

/-- The states after our FIN. -/
def FinStates (state : TcpState) : Prop :=
  state = .finWait1 ∨ state = .finWait2 ∨ state = .lastAck

theorem finAck_mem_finished {w : List UInt16} (h : w ∈ finished.matches') : finAck ∈ w := by
  obtain ⟨v, -, rfl⟩ := (mem_finished w).mp h
  simp

theorem finAck_notMem_opened {w : List UInt16} (h : w ∈ opened.matches') : finAck ∉ w := by
  obtain ⟨u, v, hu, hv, rfl⟩ := (mem_opened w).mp h
  rw [List.mem_append, List.mem_cons, not_or, not_or]
  exact ⟨notMem_syns ((mem_syns u).mp hu).2 (by decide), by decide, finAck_notMem_transfer hv⟩

theorem Sent.fin_mem {conn conn' : TcpConnection} {events : List Event}
    (h : Sent conn finAck [] events conn') (hne : events ≠ []) : finAck ∈ sentWord events := by
  cases h with
  | failed => exact absurd rfl hne
  | injected built =>
    show finAck ∈ [_]
    rw [built.flags]
    decide

theorem finFails_iff {s : TcpStack} {packet : Packet} {conn : TcpConnection} {tcp : TcpParser}
    (sent : Nat → Int) (matched : received s packet = some (conn, tcp)) :
    FinFails s (.processPacket packet sent) ↔
      conn.state = .established ∧ tcp.isFin = true ∧ tcp.isAck = true ∧ tcp.isPsh = false ∧
        (sent 1 = -1 ∨ s.pcapHandle = false) := by
  constructor
  · rintro ⟨packet', sent', conn', tcp', ha, matched', hfails⟩
    obtain ⟨rfl, rfl⟩ := Action.processPacket.inj ha
    obtain ⟨rfl, rfl⟩ := received_inj matched matched'
    exact hfails
  · intro hfails
    exact ⟨packet, sent, conn, tcp, rfl, matched, hfails⟩

/-- A passive close has its FIN in the record exactly if it was injected. -/
theorem passiveClose_finInjected_iff {conn conn₁ conn₂ : TcpConnection} {tcp : TcpParser}
    {record ack fin : List Event} (hs : Spoken (some .established) record)
    (acks : Sent { conn with ackNum := tcp.sequenceNumber + 1 } tcpAck [] ack conn₁)
    (fins : Sent { conn₁ with state := .closeWait } (tcpFin ||| tcpAck) [] fin conn₂) :
    finAck ∈ sentWord (record ++ (.receivedFin :: ack ++ fin)) ↔ fin ≠ [] := by
  constructor
  · rintro hword rfl
    have hacked : Spoken (some .established) (record ++ .receivedFin :: ack) := by
      rw [List.append_cons]
      refine Spoken.sends (hs.quiet rfl fun w hw => hw) acks (fun w hw => hw) ?_
      intro w hw
      exact opened_snoc hw (.inl rfl)
    rw [List.append_nil] at hword
    exact finAck_notMem_opened hacked.word hword
  · intro hne
    rw [sentWord_append, sentWord_append]
    exact List.mem_append_right _ (List.mem_append_right _ (Sent.fin_mem fins hne))

/-- A move keeps the FIN in the record of a closing connection exactly if its own does not fail. -/
theorem Move.finInjected_iff {s : TcpStack} {conn conn' : TcpConnection} {a : Action}
    {events record : List Event} (h : Move s conn a events conn')
    (hs : Spoken (some conn.state) record)
    (hfin : FinStates conn.state → finAck ∈ sentWord record) :
    (FinStates conn'.state → finAck ∈ sentWord (record ++ events)) ↔ ¬ FinFails s a := by
  have hs' := Move.spoken h hs
  have hkeep (hmem : finAck ∈ sentWord record) : finAck ∈ sentWord (record ++ events) := by
    rw [sentWord_append]
    exact List.mem_append_left _ hmem
  -- only the passive close of an established connection can fail
  have hother (hno : ¬ FinFails s a)
      (hstays : conn'.state = .lastAck → conn.state = .lastAck) :
      (FinStates conn'.state → finAck ∈ sentWord (record ++ events)) ↔ ¬ FinFails s a := by
    refine ⟨fun _ => hno, ?_⟩
    rintro - (hstate | hstate | hstate)
    · rw [hstate] at hs'
      exact finAck_mem_finished hs'.word
    · rw [hstate] at hs'
      exact finAck_mem_finished hs'.word
    · exact hkeep (hfin (.inr (.inr (hstays hstate))))
  have hlocal (hp : ∀ packet sent, a ≠ .processPacket packet sent) : ¬ FinFails s a := by
    rintro ⟨packet, sent, c, tcp, ha, -⟩
    exact hp packet sent ha
  cases h with
  | idle unmatched noData =>
    refine hother ?_ id
    rintro ⟨packet, sent, c, tcp, ha, matched, -⟩
    exact absurd (matched.symm.trans (unmatched packet sent ha)) (by simp)
  | popped | unsent => exact hother (hlocal (by simp)) id
  | resentSyn state sends =>
    apply hother (hlocal (by simp))
    intro h
    exact (Sent.state sends).symm.trans h
  | @sentData data sent frame state =>
    apply hother (hlocal (by simp))
    intro h
    rwa [Effects.advanceSeq_same conn (tcpPsh ||| tcpAck) data] at h
  | finSent | dropped => exact hother (hlocal (by simp)) (by simp)
  | ignored matched reaction =>
    refine hother ?_ id
    rw [finFails_iff _ matched]
    rintro ⟨hest, hisFin, hisAck, hnoPsh, -⟩
    simp [reactionOf, hest, hisFin, hisAck, hnoPsh] at reaction
  | unanswered matched state =>
    refine hother ?_ id
    rw [finFails_iff _ matched]
    simp [state]
  | opened matched state | finAcked matched state | finalAck matched state =>
    refine hother ?_ (by simp)
    rw [finFails_iff _ matched]
    simp [state]
  | data matched state flags payload sends =>
    apply hother
    · rw [finFails_iff _ matched]
      simp [flags.1]
    · intro h
      exact (Sent.state sends).symm.trans h
  | @passiveClose packet sent tcp ack fin conn₁ conn₂ matched state flags acks fins failed =>
    have hfails : FinFails s (.processPacket packet sent) ↔ fin = [] := by
      rw [failed, finFails_iff sent matched]
      simp [state, flags]
    rw [state] at hs
    rw [hfails, ← ne_eq, ← passiveClose_finInjected_iff hs acks fins]
    simp [FinStates]
  | activeClose matched state =>
    refine hother ?_ (by simp)
    rw [finFails_iff _ matched]
    rcases state with ⟨h, -⟩ | h
    · simp [h]
    · simp [h]

/-- The records of all objects are as the grammar wants them. -/
def AllSpoken (s : TcpStack) : Prop :=
  Kept Grammatical (fun connection record => Spoken (connection.map (·.state)) record) s

theorem finInjected_step {s : TcpStack} (hs : AllSpoken s) (hfin : FinInjected s) (a : Action) :
    FinInjected (step s a) ↔ ¬ FinFails s a := by
  obtain ⟨connection, events, hstage, hconn, htrace⟩ := step_stage s a
  have hvacuous (h : ∀ conn, (step s a).currentConnection = some conn → ¬ FinStates conn.state) :
      FinInjected (step s a) := by
    intro conn hc hstate
    exact absurd hstate (h conn hc)
  cases hstage with
  | @moved a conn conn' events installed keeps move =>
    have hlatest : latestObject (step s a) = latestObject s ++ events := by
      rw [latestObject, htrace]
      exact lastSection_append s.trace (Move.unopened move)
    have hspoken := hs.latest
    rw [installed] at hspoken
    rw [← Move.finInjected_iff move hspoken fun hstate => hfin conn installed hstate, ← hlatest]
    constructor
    · intro h
      exact h conn' hconn
    · intro h c hc hstate
      obtain rfl := Option.some.inj (hconn.symm.trans hc)
      exact h hstate
  | alone absent =>
    constructor
    · rintro - ⟨packet, sent, conn, tcp, -, matched, -⟩
      exact absurd (absent.symm.trans (received_some matched).2.1) (by simp)
    · intro _
      apply hvacuous
      intro conn hc
      exact absurd (hconn.symm.trans hc) (by simp)
  | refused =>
    refine ⟨by simp [FinFails], ?_⟩
    intro _ conn hc hstate
    rw [latestObject, htrace, List.append_nil]
    exact hfin conn (hconn.symm.trans hc) hstate
  | failed =>
    refine ⟨by simp [FinFails], fun _ => hvacuous ?_⟩
    intro conn hc
    exact absurd (hconn.symm.trans hc) (by simp)
  | connected =>
    refine ⟨by simp [FinFails], fun _ => hvacuous ?_⟩
    intro conn hc
    obtain rfl := Option.some.inj (hconn.symm.trans hc)
    simp [FinStates]

/-- In every run, failed sends leave the protocol where it was exactly if no handshake ACK fails
on news from the peer, and no FIN of a passive close fails. -/
theorem failed_sends_iff {s : TcpStack} (h : Unused s) (acts : List Action) :
    (∀ pre a, pre ++ [a] <+: acts → HandshakeHeld (runStack s pre) a) ∧
        (∀ pre, pre <+: acts → FinInjected (runStack s pre)) ↔
      EachStep step FailsSafely s acts := by
  have hstart : AllSpoken s := (spoken_invariant.run h trivial []).2
  have hnone : FinInjected s := by
    intro conn hc
    exact absurd (h.connection.symm.trans hc) (by simp)
  have hkeep : ∀ t a, AllSpoken t → True → AllSpoken (step t a) :=
    fun t a ht _ => spoken_invariant.step a trivial ht
  have hexact : ∀ t a, AllSpoken t → True → FinInjected t →
      (FinInjected (step t a) ↔ ¬ FinFails t a) :=
    fun t a ht _ hfin => finInjected_step ht hfin a
  rw [invariant_iff_eachStep hkeep hexact hstart hnone fun _ _ => trivial, eachStep_iff,
    eachStep_iff]
  constructor
  · rintro ⟨hheld, hfins⟩ pre a hpre
    exact ⟨(handshakeHeld_iff _ a).mp (hheld pre a hpre), hfins pre a hpre⟩
  · intro hsafe
    refine ⟨fun pre a hpre => (handshakeHeld_iff _ a).mpr (hsafe pre a hpre).1, ?_⟩
    intro pre a hpre
    exact (hsafe pre a hpre).2

theorem failed_sends_sample :
    (∀ pre a, pre ++ [a] <+: sampleLife → HandshakeHeld (runStack sampleClient pre) a) ∧
        (∀ pre, pre <+: sampleLife → FinInjected (runStack sampleClient pre)) ↔
      EachStep step FailsSafely sampleClient sampleLife :=
  failed_sends_iff sampleClient_unused sampleLife

/-- The SYN+ACK that `sampleReply` delivers, answered with an ACK that is not injected. -/
def sampleLostAck : Action :=
  .processPacket (sampleSegment 0x0A000009 40000 5000 1001 (tcpSyn ||| tcpAck) []) fun _ => -1

/-- The server's FIN+ACK, whose ACK is injected and the FIN after it is not. -/
def sampleLostFin : Action :=
  .processPacket (sampleSegment 0x0A000009 40000 5001 1001 (tcpFin ||| tcpAck) []) fun n =>
    if n = 0 then 54 else -1

/-- The lost ACK leaves `ack_num` at 5001 in SYN_SENT, and the lost FIN leads to LAST_ACK. -/
theorem failed_sends_advance :
    ¬ HandshakeHeld (runStack sampleClient [sampleConnect]) sampleLostAck ∧
      ¬ FinInjected (runStack sampleClient [sampleConnect, sampleReply, sampleLostFin]) := by
  constructor
  · intro hheld
    have hfails : AckFails (runStack sampleClient [sampleConnect]) sampleLostAck sampleConnection
        ⟨80, 40000, 5000, 1001, 5, tcpSyn ||| tcpAck, 8192, []⟩ :=
      ⟨_, _, rfl, by decide +kernel, rfl, by decide, by decide, .inl rfl⟩
    obtain ⟨conn', hconn, held⟩ := hheld _ _ hfails
    have hnoted : (step (runStack sampleClient [sampleConnect]) sampleLostAck).currentConnection.map
        (·.ackNum) = some 5001 := by
      decide +kernel
    rw [hconn, Option.map_some, held.ackNum] at hnoted
    exact absurd hnoted (by decide)
  · intro hfin
    have hconn : (runStack sampleClient
        [sampleConnect, sampleReply, sampleLostFin]).currentConnection = some
        { sampleConnection with remoteSeqNum := 5000, ackNum := 5002, state := .lastAck } := by
      decide +kernel
    exact absurd (hfin _ hconn (.inr (.inr rfl))) (by decide +kernel)

end MyTelnet.Stack.FailedSends
