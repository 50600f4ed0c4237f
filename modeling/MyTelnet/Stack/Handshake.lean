/- module: MyTelnet/Stack/Handshake
   scope: proofs
   digest: Sequence numbers of the SYNs and of the handshake, and what opens a connection. -/

import MyTelnet.Stack.Frames
import MyTelnet.Stack.Steps

set_option autoImplicit false
set_option relaxedAutoImplicit false

namespace MyTelnet.Stack.Handshake

open MyTelnet.Base.ByteOrder MyTelnet.Base.Runs MyTelnet.Wire.Layers
open MyTelnet.Stack.State MyTelnet.Stack.Send MyTelnet.Stack.Operations MyTelnet.Stack.Receive
open MyTelnet.Stack.Run MyTelnet.Stack.Frames MyTelnet.Stack.Effects MyTelnet.Stack.Reactions
open MyTelnet.Stack.Steps

/-! The sequence space of a connection attempt. -/

def isSynFrame (frame : Bytes) : Bool := frameFlags frame &&& tcpSyn != 0

/-- The frames injected between two moments of a run. -/
def framesSince (s₀ s : TcpStack) : List Bytes :=
  (injectedFrames s).drop (injectedFrames s₀).length

/-- The first frame that carries data. -/
def firstDataFrame (frames : List Bytes) : Option Bytes :=
  frames.find? fun frame => !(framePayload frame).isEmpty

/-- The numbers that the attempt begun at `s₀`, which is at `s` after `connect`, promises to its
peer: every SYN is at `iss`; the step that establishes the connection leaves `seq_num` at
`iss + 1` and acknowledges there; the first data byte is at `iss + 1`. -/
structure SequenceKept (s₀ s : TcpStack) (iss : UInt32) (acts : List Action) : Prop where
  syns : ∀ frame ∈ framesSince s₀ (runStack s acts), isSynFrame frame = true →
    frameSeq frame = iss
  established : ∀ pre a, pre ++ [a] <+: acts →
    getConnectionState (runStack s pre) = .synSent →
    getConnectionState (runStack s (pre ++ [a])) = .established →
    (runStack s (pre ++ [a])).currentConnection.map (·.seqNum) = some (iss + 1) ∧
    ∀ frame ∈ framesSince (runStack s pre) (runStack s (pre ++ [a])), frameSeq frame = iss + 1
  firstData : ∀ frame, firstDataFrame (framesSince s₀ (runStack s acts)) = some frame →
    frameSeq frame = iss + 1

/-- The pass of `wait_for_connection` that sends the SYN again, and succeeds in it. -/
def RetransmitsSyn (s : TcpStack) (a : Action) : Prop :=
  ∃ w now later sent, a = .waitForConnectionPass w now later sent ∧
    retransmitDue s w now = true ∧ sent ≠ -1

theorem framesSince_eq {s₀ s : TcpStack} {frames : List Bytes}
    (h : injectedFrames s = injectedFrames s₀ ++ frames) : framesSince s₀ s = frames := by
  rw [framesSince, h, List.drop_left]

/-- What holds of the attempt as long as no SYN was sent again. `frames` are those injected since
before `connect`. -/
structure Attempt (s₀ : TcpStack) (iss : UInt32) (s : TcpStack) (frames : List Bytes)
    (conn : TcpConnection) : Prop where
  injected : injectedFrames s = injectedFrames s₀ ++ frames
  connection : s.currentConnection = some conn
  handle : s.pcapHandle = true
  syns : ∀ frame ∈ frames, isSynFrame frame = true → frameSeq frame = iss
  firstData : ∀ frame, firstDataFrame frames = some frame → frameSeq frame = iss + 1
  silent : conn.state = .synSent → firstDataFrame frames = none
  seqNum : conn.state = .synSent ∨ conn.state = .established → firstDataFrame frames = none →
    conn.seqNum = iss + 1

/-- The stack at the end of a `connect` that succeeds. -/
def connecting (s : TcpStack) (conn : TcpConnection) : TcpStack :=
  setState (afterSend (log (setConnection s (some conn)) .opened) conn tcpSyn []) .synSent

theorem connect_ok {s₀ s : TcpStack} {remoteIp : UInt32} {remotePort localPort : UInt16}
    {iss : UInt32} {filterSet : Bool} {sent : Int}
    (h : connect s₀ remoteIp remotePort localPort iss filterSet sent = (s, true)) :
    s₀.pcapHandle = true ∧
      s = connecting s₀ (newConnection s₀ remoteIp remotePort localPort iss) := by
  unfold connect at h
  split at h
  · simp at h
  · next hp =>
    dsimp only at h
    split at h
    · simp at h
    · rcases sendTcpPacket_cases (log (setConnection s₀ (some
        (newConnection s₀ remoteIp remotePort localPort iss))) .opened) tcpSyn [] sent with
        ⟨id, hfail⟩ | ⟨conn, hc, -, -, hok⟩
      · rw [hfail] at h
        simp at h
      · rw [hok] at h
        obtain rfl := Option.some.inj hc
        exact ⟨by simpa using hp, (Prod.mk.inj h).1.symm⟩

/-- The three ways `connect` ends. -/
theorem connect_cases (s : TcpStack) (remoteIp : UInt32) (remotePort localPort : UInt16)
    (iss : UInt32) (filterSet : Bool) (sent : Int) :
    connect s remoteIp remotePort localPort iss filterSet sent = (s, false) ∨
    (∃ id, connect s remoteIp remotePort localPort iss filterSet sent =
      (setConnection (setIpId (log (setConnection s (some
        (newConnection s remoteIp remotePort localPort iss))) .opened) id) none, false)) ∨
    s.pcapHandle = true ∧ connect s remoteIp remotePort localPort iss filterSet sent =
      (connecting s (newConnection s remoteIp remotePort localPort iss), true) := by
  cases hconn : connect s remoteIp remotePort localPort iss filterSet sent with
  | mk s' ok =>
    cases ok with
    | true =>
      obtain ⟨hp, rfl⟩ := connect_ok hconn
      exact .inr (.inr ⟨hp, rfl⟩)
    | false =>
      unfold connect at hconn
      split at hconn
      · rw [← (Prod.mk.inj hconn).1]
        exact .inl rfl
      · dsimp only at hconn
        split at hconn
        · rw [← (Prod.mk.inj hconn).1]
          exact .inl rfl
        · rcases sendTcpPacket_cases (log (setConnection s (some
            (newConnection s remoteIp remotePort localPort iss))) .opened) tcpSyn [] sent with
            ⟨id, hfail⟩ | ⟨conn, -, -, -, hok⟩
          · rw [hfail] at hconn
            rw [← (Prod.mk.inj hconn).1]
            exact .inr (.inl ⟨id, rfl⟩)
          · rw [hok] at hconn
            exact absurd (Prod.mk.inj hconn).2 (by simp)

theorem isSynFrame_buildFrame (s : TcpStack) (conn : TcpConnection) (id flags : UInt16)
    (payload : Bytes) :
    isSynFrame (buildFrame s conn id flags payload) = (flags &&& 0x3F &&& tcpSyn != 0) := by
  rw [isSynFrame, frameFlags_buildFrame]

theorem firstDataFrame_quiet (frames : List Bytes) {more : List Bytes}
    (h : ∀ frame ∈ more, framePayload frame = []) :
    firstDataFrame (frames ++ more) = firstDataFrame frames := by
  have hnone : firstDataFrame more = none := by
    refine List.find?_eq_none.mpr fun frame hf => ?_
    simp [h frame hf]
  rw [firstDataFrame, List.find?_append, ← firstDataFrame, ← firstDataFrame, hnone, Option.or_none]

theorem connect_attempt {s₀ s : TcpStack} {remoteIp : UInt32} {remotePort localPort : UInt16}
    {iss : UInt32} {filterSet : Bool} {sent : Int}
    (h : connect s₀ remoteIp remotePort localPort iss filterSet sent = (s, true)) :
    ∃ frames conn, Attempt s₀ iss s frames conn := by
  obtain ⟨hp, rfl⟩ := connect_ok h
  generalize hconn : newConnection s₀ remoteIp remotePort localPort iss = conn
  have hiss : conn.seqNum = iss := by rw [← hconn]; rfl
  let s₁ : TcpStack := log (setConnection s₀ (some conn)) .opened
  have hquiet : ∀ frame ∈ [buildFrame s₁ conn (s₁.ipId + 1) tcpSyn []],
      framePayload frame = [] := by
    simp
  have hnone : firstDataFrame [buildFrame s₁ conn (s₁.ipId + 1) tcpSyn []] = none :=
    firstDataFrame_quiet [] hquiet
  refine ⟨[buildFrame s₁ conn (s₁.ipId + 1) tcpSyn []],
    { conn with seqNum := conn.seqNum + 1, state := .synSent }, ?_, rfl, hp, ?_, ?_, ?_, ?_⟩
  · simp [connecting, afterSend, Event.frame?, s₁]
  · intro frame hf _
    rw [List.mem_singleton.mp hf, frameSeq_buildFrame, hiss]
  · simp [hnone]
  · simp [hnone]
  · intro _ _
    rw [hiss]

/-- The states in which `seq_num` still matters to the handshake. -/
def Opening (state : TcpState) : Prop := state = .synSent ∨ state = .established

/-- Steps that inject no SYN and no data, and leave `seq_num` alone while the connection opens. -/
theorem Attempt.extend {s₀ s s' : TcpStack} {iss : UInt32} {frames more : List Bytes}
    {conn conn' : TcpConnection} (h : Attempt s₀ iss s frames conn)
    (hinj : injectedFrames s' = injectedFrames s ++ more)
    (hc : s'.currentConnection = some conn') (hp : s'.pcapHandle = s.pcapHandle)
    (hmore : ∀ frame ∈ more, framePayload frame = [] ∧ isSynFrame frame = false)
    (hsyn : conn'.state = .synSent → conn.state = .synSent)
    (hopen : Opening conn'.state → Opening conn.state ∧ conn'.seqNum = conn.seqNum) :
    Attempt s₀ iss s' (frames ++ more) conn' := by
  have hfirst : firstDataFrame (frames ++ more) = firstDataFrame frames :=
    firstDataFrame_quiet frames fun frame hf => (hmore frame hf).1
  refine ⟨?_, hc, hp.trans h.handle, ?_, ?_, ?_, ?_⟩
  · rw [hinj, h.injected, List.append_assoc]
  · intro frame hf hs
    rcases List.mem_append.mp hf with hf | hf
    · exact h.syns frame hf hs
    · rw [(hmore frame hf).2] at hs
      exact absurd hs Bool.false_ne_true
  · rw [hfirst]
    exact h.firstData
  · rw [hfirst]
    intro hs
    exact h.silent (hsyn hs)
  · rw [hfirst]
    intro hs hnone
    obtain ⟨hs', hseq⟩ := hopen hs
    exact hseq.trans (h.seqNum hs' hnone)

theorem controlFrame_quiet {frame : Bytes} (h : ControlFrame frame) :
    framePayload frame = [] ∧ isSynFrame frame = false := by
  obtain ⟨s, conn, id, flags, rfl | rfl, rfl⟩ := h
  · exact ⟨framePayload_buildFrame _ _ _ _ _, by rw [isSynFrame_buildFrame]; rfl⟩
  · exact ⟨framePayload_buildFrame _ _ _ _ _, by rw [isSynFrame_buildFrame]; rfl⟩

/-- A data segment sent while established. -/
theorem Attempt.sendData {s₀ s : TcpStack} {iss : UInt32} {frames : List Bytes}
    {conn : TcpConnection} (h : Attempt s₀ iss s frames conn) (hest : conn.state = .established)
    (data : Bytes) :
    Attempt s₀ iss (afterSend s conn (tcpPsh ||| tcpAck) data)
      (frames ++ [buildFrame s conn (s.ipId + 1) (tcpPsh ||| tcpAck) data])
      (advanceSeq conn (tcpPsh ||| tcpAck) data) := by
  have hstate : (advanceSeq conn (tcpPsh ||| tcpAck) data).state = .established := by
    rw [advanceSeq_same conn (tcpPsh ||| tcpAck) data]
    exact hest
  have hsyn : isSynFrame (buildFrame s conn (s.ipId + 1) (tcpPsh ||| tcpAck) data) = false := by
    rw [isSynFrame_buildFrame]
    rfl
  have hinj : injectedFrames (afterSend s conn (tcpPsh ||| tcpAck) data) = injectedFrames s ++
      [buildFrame s conn (s.ipId + 1) (tcpPsh ||| tcpAck) data] := by
    simp [afterSend, Event.frame?]
  cases hd : data with
  | nil =>
    subst hd
    refine h.extend hinj rfl rfl ?_ ?_ ?_
    · simpa using hsyn
    · rw [hstate]
      simp
    · intro _
      exact ⟨.inr hest, rfl⟩
  | cons byte rest =>
    rw [hd] at hstate hsyn hinj
    refine ⟨?_, rfl, h.handle, ?_, ?_, ?_, ?_⟩
    · rw [hinj, h.injected, List.append_assoc]
    · intro frame hf hs
      rcases List.mem_append.mp hf with hf | hf
      · exact h.syns frame hf hs
      · rw [List.mem_singleton.mp hf, hsyn] at hs
        exact absurd hs Bool.false_ne_true
    · intro frame hf
      rw [firstDataFrame, List.find?_append, ← firstDataFrame] at hf
      cases hprev : firstDataFrame frames with
      | some first =>
        rw [hprev, Option.some_or] at hf
        exact Option.some.inj hf ▸ h.firstData first hprev
      | none =>
        rw [hprev, Option.none_or, List.find?_singleton, framePayload_buildFrame] at hf
        have hframe := Option.some.inj (hf : some _ = some frame)
        rw [← hframe, frameSeq_buildFrame]
        exact h.seqNum (.inr hest) hprev
    · rw [hstate]
      simp
    · intro _ hnone
      rw [firstDataFrame, List.find?_append] at hnone
      simp at hnone

theorem reactionOf_synAck {state : TcpState} {tcp : TcpParser}
    (h : reactionOf state tcp = .synAck) :
    state = .synSent ∧ tcp.isSyn = true ∧ tcp.isAck = true := by
  have hs : state = .synSent := by
    by_contra hne
    exact reactionOf_ne_synAck tcp hne h
  subst hs
  simpa [reactionOf] using h

/-- The handshake ACK goes out at the current `seq_num`. -/
theorem acceptSynAck_injects (s : TcpStack) (tcp : TcpParser) (sent : Nat → Int)
    {conn : TcpConnection} (hc : s.currentConnection = some conn) :
    Injects (fun frame => ControlFrame frame ∧ frameSeq frame = conn.seqNum) s
      (acceptSynAck s tcp sent) := by
  rcases acceptSynAck_cases s tcp sent hc with ⟨id, h⟩ | ⟨frame, h, hframe⟩
  · exact .of_eq (by simp [h, synAckNoted])
  · refine ⟨[frame], ?_, ?_⟩
    · rw [h]
      apply (history_callback _ _ _ rfl).trans
      rw [history_setState, history_log, history_setIpId]
      rfl
    · intro frame' hf
      rw [List.mem_singleton.mp hf, hframe]
      exact ⟨⟨_, _, _, _, .inl rfl, rfl⟩, frameSeq_buildFrame _ _ _ _ _⟩

theorem reacted_opening {conn : TcpConnection} {tcp : TcpParser} {acked : Bool} :
    ((reacted conn tcp acked (reactionOf conn.state tcp)).state = .synSent →
      conn.state = .synSent) ∧
    (Opening (reacted conn tcp acked (reactionOf conn.state tcp)).state →
      Opening conn.state ∧ reactionOf conn.state tcp ≠ .passiveClose) := by
  cases hr : reactionOf conn.state tcp with
  | ignore | data => exact ⟨id, fun h => ⟨h, by simp⟩⟩
  | synAck =>
    have hs := (reactionOf_synAck hr).1
    exact ⟨fun _ => hs, fun _ => ⟨.inl hs, by simp⟩⟩
  | passiveClose | finAcked | activeClose | finalAck =>
    exact ⟨by simp [reacted], fun h => absurd h (by simp [reacted, Opening])⟩

/-- The attempt goes on in `s'`. The frames of a step that establishes the connection are at
`seq_num`, which stays. -/
def Continues (s₀ : TcpStack) (iss : UInt32) (s : TcpStack) (frames : List Bytes)
    (conn : TcpConnection) (s' : TcpStack) : Prop :=
  ∃ more conn', Attempt s₀ iss s' (frames ++ more) conn' ∧
    injectedFrames s' = injectedFrames s ++ more ∧
    (conn.state = .synSent → conn'.state = .established →
      conn'.seqNum = conn.seqNum ∧ ∀ frame ∈ more, frameSeq frame = conn.seqNum)

section Continues

variable {s₀ s : TcpStack} {iss : UInt32} {frames : List Bytes} {conn : TcpConnection}

/-- A step that injects nothing and does not touch the connection. -/
theorem Attempt.quiet (h : Attempt s₀ iss s frames conn) {s' : TcpStack}
    (hinj : injectedFrames s' = injectedFrames s) (hc : s'.currentConnection = some conn)
    (hp : s'.pcapHandle = s.pcapHandle) : Continues s₀ iss s frames conn s' := by
  have hinj' : injectedFrames s' = injectedFrames s ++ [] := by rw [hinj, List.append_nil]
  exact ⟨[], conn, h.extend hinj' hc hp (by simp) id fun ho => ⟨ho, rfl⟩, hinj', by simp⟩

theorem Attempt.failedSend (h : Attempt s₀ iss s frames conn) (id : UInt16) :
    Continues s₀ iss s frames conn (setIpId s id) := h.quiet rfl h.connection rfl

theorem Attempt.close (h : Attempt s₀ iss s frames conn) (sent : Int) :
    Continues s₀ iss s frames conn
      (setState (sendTcpPacket s (tcpFin ||| tcpAck) [] sent).1 .finWait1) := by
  obtain ⟨more, hinj, hmore⟩ : Injects ControlFrame s
      (sendTcpPacket s (tcpFin ||| tcpAck) [] sent).1 :=
    .send s _ [] sent fun _ _ => ⟨_, _, _, _, .inr rfl, rfl⟩
  obtain ⟨conn', hc', -⟩ :=
    sendTcpPacket_currentConnection s (tcpFin ||| tcpAck) [] sent h.connection
  refine ⟨more, { conn' with state := .finWait1 }, ?_, hinj, by simp⟩
  refine h.extend hinj ?_ (by simp) (fun frame hf => controlFrame_quiet (hmore frame hf))
    (by simp) (by simp [Opening])
  rw [setState_currentConnection, hc', Option.map_some]

theorem Attempt.react (h : Attempt s₀ iss s frames conn) (tcp : TcpParser) (sent : Nat → Int) :
    Continues s₀ iss s frames conn (perform s tcp sent (reactionOf conn.state tcp)) := by
  obtain ⟨acked, seqNum, hconn, hseq⟩ :=
    perform_currentConnection s tcp sent (reactionOf conn.state tcp) h.connection
  have hp := perform_pcapHandle s tcp sent (reactionOf conn.state tcp) h.connection
  have hopen := @reacted_opening conn tcp acked
  have hinjects : Injects (fun frame => ControlFrame frame ∧
      (reactionOf conn.state tcp = .synAck → frameSeq frame = conn.seqNum)) s
      (perform s tcp sent (reactionOf conn.state tcp)) := by
    by_cases hr : reactionOf conn.state tcp = .synAck
    · obtain ⟨more, hinj, hmore⟩ := acceptSynAck_injects s tcp sent h.connection
      rw [hr]
      exact ⟨more, hinj, fun frame hf => ⟨(hmore frame hf).1, fun _ => (hmore frame hf).2⟩⟩
    · obtain ⟨more, hinj, hmore⟩ :=
        perform_injects s tcp sent (reactionOf conn.state tcp) h.connection
      exact ⟨more, hinj, fun frame hf => ⟨hmore frame hf, fun h => absurd h hr⟩⟩
  obtain ⟨more, hinj, hmore⟩ := hinjects
  refine ⟨more, _, h.extend hinj hconn hp (fun frame hf => controlFrame_quiet (hmore frame hf).1)
    hopen.1 (fun ho => ⟨(hopen.2 ho).1, hseq (hopen.2 ho).2⟩), hinj, ?_⟩
  intro hs hest
  refine ⟨hseq (hopen.2 (.inr hest)).2, fun frame hf => (hmore frame hf).2 ?_⟩
  -- from SYN_SENT only the SYN+ACK branch changes the state
  simp only [hs, reactionOf] at hest ⊢
  split
  · rfl
  · next hno =>
    rw [if_neg hno] at hest
    simp [reacted, hs] at hest

theorem Attempt.step {a : Action} (h : Attempt s₀ iss s frames conn)
    (ha : a.keepsConnection = true) (hn : ¬ RetransmitsSyn s a) :
    Continues s₀ iss s frames conn (Run.step s a) := by
  generalize hs' : Run.step s a = s'
  have houtcome : Outcome s conn a s' := hs' ▸ step_outcome h.connection ha
  cases houtcome with
  | idle => exact h.quiet rfl h.connection rfl
  | @resentSyn w now later sent state due =>
    have hsent : sent = -1 := by
      by_contra hne
      exact hn ⟨w, now, later, sent, rfl, due, hne⟩
    obtain ⟨id, hfail⟩ := sendTcpPacket_failed s tcpSyn []
    rw [hsent, hfail]
    exact h.failedSend id
  | @sentData data sent state =>
    rcases sendTcpPacket_cases s (tcpPsh ||| tcpAck) data sent with
      ⟨id, hfail⟩ | ⟨conn₁, hc₁, -, -, hok⟩
    · rw [hfail]
      exact h.failedSend id
    · obtain rfl : conn₁ = conn := Option.some.inj (hc₁.symm.trans h.connection)
      rw [hok]
      refine ⟨_, _, h.sendData state data, by simp [afterSend, Event.frame?], ?_⟩
      intro hs
      rw [state] at hs
      exact absurd hs (by simp)
  | popped => exact h.quiet (by simp [Event.frame?]) h.connection rfl
  | @finNotSent sent state failed =>
    rcases sendTcpPacket_cases s (tcpFin ||| tcpAck) [] sent with
      ⟨id, hfail⟩ | ⟨conn₁, -, -, -, hok⟩
    · rw [hfail]
      exact h.failedSend id
    · rw [hok] at failed
      exact absurd failed (by simp)
  | @finSent sent state => exact h.close sent
  | dropped =>
    refine ⟨[], { conn with state := .closed }, ?_, by simp, by simp⟩
    refine h.extend (by simp) ?_ rfl (by simp) (by simp) (by simp [Opening])
    rw [setState_currentConnection, h.connection, Option.map_some]
  | @reacted packet sent tcp matched => exact h.react tcp sent

end Continues

theorem Attempt.run {s₀ s : TcpStack} {iss : UInt32} {frames : List Bytes} {conn : TcpConnection}
    {acts : List Action} (h : Attempt s₀ iss s frames conn)
    (ha : ∀ a ∈ acts, a.keepsConnection = true)
    (hn : EachStep Run.step (fun t a => ¬ RetransmitsSyn t a) s acts) :
    ∃ frames' conn', Attempt s₀ iss (runStack s acts) frames' conn' := by
  have keep : ∀ t a, (∃ frames' conn', Attempt s₀ iss t frames' conn') →
      a.keepsConnection = true ∧ ¬ RetransmitsSyn t a →
      ∃ frames' conn', Attempt s₀ iss (Run.step t a) frames' conn' := by
    rintro t a ⟨frames', conn', ht⟩ ⟨hkeep, hno⟩
    obtain ⟨more, conn'', ht', -⟩ := ht.step hkeep hno
    exact ⟨_, _, ht'⟩
  exact run_invariant keep ⟨frames, conn, h⟩ ((eachStep_of_forall ha).and hn)

/-- Sending the SYN again puts a SYN at `iss + 1` into the record. -/
theorem Attempt.retransmits {s₀ s : TcpStack} {iss : UInt32} {frames : List Bytes}
    {conn : TcpConnection} {a : Action} (h : Attempt s₀ iss s frames conn)
    (hr : RetransmitsSyn s a) :
    ∃ frame, injectedFrames (Run.step s a) = injectedFrames s₀ ++ (frames ++ [frame]) ∧
      isSynFrame frame = true ∧ frameSeq frame = iss + 1 := by
  obtain ⟨w, now, later, sent, rfl, hdue, hsent⟩ := hr
  have hsyn : conn.state = .synSent := by
    simp only [retransmitDue, getConnectionState_some h.connection, Bool.and_eq_true,
      beq_iff_eq] at hdue
    exact hdue.1.1.2
  refine ⟨buildFrame s conn (s.ipId + 1) tcpSyn [], ?_, ?_, ?_⟩
  · rw [step_retransmitDue later sent hdue, sendTcpPacket_ok _ _ h.connection h.handle hsent,
      ← List.append_assoc, ← h.injected]
    simp [afterSend, Event.frame?]
  · rw [isSynFrame_buildFrame]
    rfl
  · rw [frameSeq_buildFrame]
    exact h.seqNum (.inl hsyn) (h.silent hsyn)

theorem Attempt.never_retransmits {s₀ s : TcpStack} {iss : UInt32} {frames : List Bytes}
    {conn : TcpConnection} {acts : List Action} (h : Attempt s₀ iss s frames conn)
    (ha : ∀ a ∈ acts, a.keepsConnection = true)
    (hsyns : ∀ frame ∈ framesSince s₀ (runStack s acts), isSynFrame frame = true →
      frameSeq frame = iss) :
    EachStep Run.step (fun t a => ¬ RetransmitsSyn t a) s acts := by
  induction acts generalizing s frames conn with
  | nil => trivial
  | cons a acts ih =>
    rw [List.forall_mem_cons] at ha
    have hfirst : ¬ RetransmitsSyn s a := by
      intro hr
      obtain ⟨frame, hinj, hsyn, hseq⟩ := h.retransmits hr
      obtain ⟨conn', hc'⟩ := step_keeps h.connection ha.1
      obtain ⟨more, hmore, -⟩ := run_injects hc' ha.2
      rw [hinj, List.append_assoc] at hmore
      have hin : frame ∈ framesSince s₀ (runStack (Run.step s a) acts) := by
        rw [framesSince_eq hmore]
        simp
      have hiss := (hsyns frame hin hsyn).symm.trans hseq
      exact absurd hiss.symm (by simp)
    obtain ⟨more, conn', h', -⟩ := h.step ha.1 hfirst
    exact ⟨hfirst, ih h' ha.2 hsyns⟩

/-- A connection attempt keeps to its sequence numbers exactly when no SYN is sent again. -/
theorem sequenceKept_iff {s₀ s : TcpStack} {remoteIp : UInt32} {remotePort localPort : UInt16}
    {iss : UInt32} {filterSet : Bool} {sent : Int} {acts : List Action}
    (hconn : connect s₀ remoteIp remotePort localPort iss filterSet sent = (s, true))
    (ha : ∀ a ∈ acts, a.keepsConnection = true) :
    SequenceKept s₀ s iss acts ↔ EachStep step (fun t a => ¬ RetransmitsSyn t a) s acts := by
  obtain ⟨frames, conn, h⟩ := connect_attempt hconn
  constructor
  · intro hkept
    exact h.never_retransmits ha hkept.syns
  · intro hn
    obtain ⟨frames', conn', h'⟩ := h.run ha hn
    refine ⟨?_, ?_, ?_⟩
    · rw [framesSince_eq h'.injected]
      exact h'.syns
    · intro pre a hp hsyn hest
      have hsplit := hn.of_prefix hp
      rw [eachStep_append, eachStep_cons] at hsplit
      have hkeep : ∀ b ∈ pre ++ [a], b.keepsConnection = true := fun b hb => ha b (hp.subset hb)
      obtain ⟨frames₁, conn₁, h₁⟩ :=
        h.run (fun b hb => hkeep b (List.mem_append_left _ hb)) hsplit.1
      obtain ⟨more, conn₂, h₂, hinj, hopen⟩ := h₁.step (hkeep a (by simp)) hsplit.2.1
      rw [runStack_snoc] at hest ⊢
      rw [getConnectionState_some h₁.connection] at hsyn
      rw [getConnectionState_some h₂.connection] at hest
      obtain ⟨hseq, hframes⟩ := hopen hsyn hest
      have hiss : conn₁.seqNum = iss + 1 := h₁.seqNum (.inl hsyn) (h₁.silent hsyn)
      refine ⟨?_, ?_⟩
      · rw [h₂.connection, Option.map_some, hseq, hiss]
      · rw [framesSince_eq hinj]
        intro frame hf
        exact (hframes frame hf).trans hiss
    · rw [framesSince_eq h'.injected]
      exact h'.firstData

/-! A sample client, whose SYN went out at sequence number 1000. -/

def sampleClient : TcpStack := initialized ⟨0x02, 0, 0, 0, 0, 0x01⟩ 0x0A000002

/-- The client after `connect` to 10.0.0.9:80 from port 40000. -/
def sampleAttempt : TcpStack := (connect sampleClient 0x0A000009 80 40000 1000 true 54).1

theorem sampleAttempt_connected :
    connect sampleClient 0x0A000009 80 40000 1000 true 54 = (sampleAttempt, true) := by
  decide +kernel

/-- A segment from the server's port 80. -/
def sampleSegment (sourceIp : UInt32) (destPort : UInt16) (seq ack : UInt32) (flags : UInt16)
    (payload : Bytes) : Packet :=
  { ipv4 := some ⟨5, UInt16.ofNat (40 + payload.length), 6, sourceIp, 0x0A000002⟩
    tcp := some ⟨80, destPort, seq, ack, 5, flags, 8192, payload⟩ }

/-- The SYN+ACK that answers the SYN. -/
def sampleReply : Action :=
  .processPacket (sampleSegment 0x0A000009 40000 5000 1001 (tcpSyn ||| tcpAck) []) fun _ => 54

/-- The first pass of `wait_for_connection` three seconds after the SYN. -/
def sampleRetry : Action := .waitForConnectionPass (waitForConnectionStart 10000 0) 3000 3000 54

theorem sequenceKept_sample :
    SequenceKept sampleClient sampleAttempt 1000 [sampleReply, .sendData [0x47] 55] ↔
      EachStep step (fun t a => ¬ RetransmitsSyn t a) sampleAttempt
        [sampleReply, .sendData [0x47] 55] :=
  sequenceKept_iff sampleAttempt_connected (by decide)

/-- The second SYN is at 1001, and the connection opens at 1002. -/
theorem sample_retransmission :
    ¬ SequenceKept sampleClient sampleAttempt 1000 [sampleRetry, sampleReply] := by
  intro hkept
  have hmem :
      (framesSince sampleClient (runStack sampleAttempt [sampleRetry, sampleReply])).getD 1 [] ∈
      framesSince sampleClient (runStack sampleAttempt [sampleRetry, sampleReply]) := by
    decide +kernel
  have hseq := hkept.syns _ hmem (by decide +kernel)
  exact absurd hseq (by decide +kernel)

/-! What opens the connection. -/

/-- A SYN+ACK to the local host that comes from the remote host or is a RST to the local port.
Neither the ports of the former nor any acknowledgement number are looked at. -/
def Opens (conn : TcpConnection) (packet : Packet) : Prop :=
  ∃ ip tcp, packet.ipv4 = some ip ∧ packet.tcp = some tcp ∧
    tcp.isSyn = true ∧ tcp.isAck = true ∧ ip.destIp = conn.localIp ∧
    (ip.sourceIp = conn.remoteIp ∨ tcp.isRst = true ∧ tcp.destPort = conn.localPort)

theorem received_addresses {s : TcpStack} {packet : Packet} {conn : TcpConnection}
    {tcp : TcpParser} (h : received s packet = some (conn, tcp)) :
    ∃ ip, packet.ipv4 = some ip ∧ packet.tcp = some tcp ∧ ip.destIp = conn.localIp ∧
      (ip.sourceIp = conn.remoteIp ∨ tcp.isRst = true ∧ tcp.destPort = conn.localPort) := by
  obtain ⟨hmatch, hc, ht⟩ := received_some h
  obtain ⟨ip, -, -, hip, -, -⟩ := isPacketForConnection_some hmatch
  refine ⟨ip, hip, ht, ?_⟩
  simp only [isPacketForConnection, hip, ht, hc, Bool.or_eq_true, Bool.and_eq_true,
    beq_iff_eq] at hmatch
  rcases hmatch with (hnormal | hsynAck) | hrst
  · exact ⟨hnormal.1.1.2, .inl hnormal.1.1.1⟩
  · exact ⟨hsynAck.1.1.2, .inl hsynAck.1.1.1⟩
  · exact ⟨hrst.1.1, .inr ⟨hrst.2, hrst.1.2⟩⟩

/-- In SYN_SENT a packet that does not open the connection changes nothing at all. -/
theorem processPacket_synSent {s : TcpStack} {packet : Packet} {conn : TcpConnection}
    (sent : Nat → Int) (hc : s.currentConnection = some conn) (hs : conn.state = .synSent)
    (hno : ¬ Opens conn packet) : processPacket s packet sent = s := by
  cases hr : received s packet with
  | none => exact processPacket_none sent hr
  | some pair =>
    obtain ⟨conn', tcp⟩ := pair
    obtain rfl : conn' = conn := Option.some.inj ((received_some hr).2.1.symm.trans hc)
    obtain ⟨ip, hip, ht, hdest, hsource⟩ := received_addresses hr
    rw [processPacket_received sent hr]
    cases hreact : reactionOf conn'.state tcp with
    | synAck =>
      obtain ⟨-, hsyn, hack⟩ := reactionOf_synAck hreact
      exact absurd ⟨ip, tcp, hip, ht, hsyn, hack, hdest, hsource⟩ hno
    | ignore => rfl
    | _ =>
      rw [hs, reactionOf] at hreact
      split at hreact <;> simp at hreact

/-- `connect` never leaves an established connection where there was none. -/
theorem connect_not_established {s : TcpStack} (remoteIp : UInt32) (remotePort localPort : UInt16)
    (iss : UInt32) (filterSet : Bool) (sent : Int) (hs : getConnectionState s ≠ .established) :
    getConnectionState (connect s remoteIp remotePort localPort iss filterSet sent).1 ≠
      .established := by
  rcases connect_cases s remoteIp remotePort localPort iss filterSet sent with
    h | ⟨id, h⟩ | ⟨-, h⟩
  · rw [h]
    exact hs
  · rw [h]
    show TcpState.closed ≠ .established
    simp
  · rw [h]
    show TcpState.synSent ≠ .established
    simp

theorem local_not_established {s : TcpStack} {conn : TcpConnection} {a : Action}
    (hc : s.currentConnection = some conn) (hs : conn.state = .synSent)
    (ha : a.keepsConnection = true) (hlocal : ∀ packet sent, a ≠ .processPacket packet sent) :
    getConnectionState (step s a) ≠ .established := by
  obtain ⟨conn', hc', ⟨hchange, -⟩ | ⟨packet, sent, tcp, acked, hpacket, -⟩⟩ :=
    step_connection hc ha
  · rw [getConnectionState_some hc']
    rcases hchange.state with h | ⟨h, -⟩ | h
    · rw [h, hs]
      simp
    · rw [hs] at h
      exact absurd h (by simp)
    · rw [h]
      simp
  · exact absurd hpacket (hlocal packet sent)

/-- In every run, a connection leaves SYN_SENT for ESTABLISHED only when `process_packet` handles
a packet that `Opens` describes, and any other packet leaves the whole stack as it was. -/
theorem established_only_by_synAck (start : TcpStack) (acts : List Action) (a : Action)
    {conn : TcpConnection} (hc : (runStack start acts).currentConnection = some conn)
    (hs : conn.state = .synSent) :
    (getConnectionState (runStack start (acts ++ [a])) = .established →
      ∃ packet sent, a = .processPacket packet sent ∧ Opens conn packet) ∧
    ∀ packet sent, a = .processPacket packet sent → ¬ Opens conn packet →
      runStack start (acts ++ [a]) = runStack start acts := by
  rw [runStack_snoc]
  generalize runStack start acts = s at hc ⊢
  have hstate := (getConnectionState_some hc).trans hs
  constructor
  · intro hest
    cases a with
    | connect remoteIp remotePort localPort iss filterSet sent =>
      refine absurd hest (connect_not_established _ _ _ _ _ _ ?_)
      rw [hstate]
      simp
    | processPacket packet sent =>
      refine ⟨packet, sent, rfl, ?_⟩
      by_contra hno
      rw [step, processPacket_synSent sent hc hs hno, hstate] at hest
      exact absurd hest (by simp)
    | waitForConnectionPass | sendData | waitForData | closeConnection =>
      exact absurd hest (local_not_established hc hs rfl (by simp))
  · rintro packet sent rfl hno
    exact processPacket_synSent sent hc hs hno

def sampleConnection : TcpConnection :=
  { newConnection sampleClient 0x0A000009 80 40000 1000 with seqNum := 1001, state := .synSent }

theorem established_only_by_synAck_sample :
    (getConnectionState (runStack sampleAttempt ([] ++ [sampleReply])) = .established →
      ∃ packet sent, sampleReply = .processPacket packet sent ∧ Opens sampleConnection packet) ∧
    ∀ packet sent, sampleReply = .processPacket packet sent → ¬ Opens sampleConnection packet →
      runStack sampleAttempt ([] ++ [sampleReply]) = runStack sampleAttempt [] :=
  established_only_by_synAck sampleAttempt [] sampleReply (by decide +kernel) rfl

/-- A SYN+ACK of another connection between the two hosts: to port 41000, acknowledging 77. -/
def strayReply : Packet := sampleSegment 0x0A000009 41000 5000 77 (tcpSyn ||| tcpAck) []

theorem stray_reply_opens :
    getConnectionState sampleAttempt = .synSent ∧
    (sampleAttempt.currentConnection.map (·.localPort) = some 40000) ∧
    (strayReply.tcp.map (·.destPort) = some 41000) ∧
    (strayReply.tcp.map (·.ackNumber) = some 77) ∧
    getConnectionState (processPacket sampleAttempt strayReply fun _ => 54) = .established := by
  decide +kernel

end MyTelnet.Stack.Handshake
