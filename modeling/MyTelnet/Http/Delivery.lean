/- module: MyTelnet/Http/Delivery
   scope: proofs
   digest: From the segments of an honest peer to the response that get reports and the file. -/

import MyTelnet.Http.Download
import MyTelnet.Http.Sessions
import MyTelnet.Stack.Handoff

set_option autoImplicit false
set_option relaxedAutoImplicit false

namespace MyTelnet.Http.Delivery

open MyTelnet.Base.ByteOrder MyTelnet.Base.Runs MyTelnet.Base.Streams MyTelnet.Wire.Memory
open MyTelnet.Wire.Layers MyTelnet.Stack.State MyTelnet.Stack.Operations MyTelnet.Stack.Receive
open MyTelnet.Stack.Run MyTelnet.Stack.Effects MyTelnet.Stack.Reactions MyTelnet.Stack.Steps
open MyTelnet.Stack.Handshake MyTelnet.Stack.Moves MyTelnet.Stack.Stream MyTelnet.Stack.Handoff
open MyTelnet.Http.Strings MyTelnet.Http.Client MyTelnet.Http.Heads MyTelnet.Http.Stability
open MyTelnet.Http.Download MyTelnet.Http.Sessions

/-- The data segment that a packet is to the stack, if any, comes in order and carries the part of
`peer` that its sequence number says. -/
def BringsNext (peer : Bytes) (s : TcpStack) (packet : Packet) : Prop :=
  ∀ conn tcp, received s packet = some (conn, tcp) → reactionOf conn.state tcp = .data →
    tcp.sequenceNumber = conn.ackNum ∧ ∃ offset, SliceAt peer offset tcp.payload ∧
      tcp.sequenceNumber = conn.remoteSeqNum + 1 + UInt32.ofNat offset

instance (peer : Bytes) (s : TcpStack) (packet : Packet) : Decidable (BringsNext peer s packet) :=
  decidable_of_iff (∀ pair ∈ received s packet, reactionOf pair.1.state pair.2 = .data →
      pair.2.sequenceNumber = pair.1.ackNum ∧ ∃ offset, offset < peer.length + 1 ∧
        (offset ≤ peer.length ∧ pair.2.payload <+: peer.drop offset) ∧
        pair.2.sequenceNumber = pair.1.remoteSeqNum + 1 + UInt32.ofNat offset) <| by
    constructor
    · intro h conn tcp hr hdata
      obtain ⟨hack, offset, -, hslice, hoffset⟩ := h (conn, tcp) hr hdata
      exact ⟨hack, offset, hslice, hoffset⟩
    · rintro h ⟨conn, tcp⟩ hr hdata
      obtain ⟨hack, offset, hslice, hoffset⟩ := h conn tcp hr hdata
      exact ⟨hack, offset, Nat.lt_succ_of_le hslice.1, hslice, hoffset⟩

/-- The turn of an honest peer behind a network that keeps the order. -/
def Feeds (peer : Bytes) (g : Session) (t : Turn) : Prop :=
  ∀ packet sent, t = .packet packet sent → BringsNext peer g.stack packet

/-- What has come in for a call: what it has read, and behind it the queue. -/
def gathered (g : Session) : Bytes := (g.chunks ++ g.stack.dataQueue).flatten

/-- Where a connection stands in the stream of which `count` bytes have come in. -/
structure Placed (conn : TcpConnection) (count : Nat) : Prop where
  synSent : conn.state = .synSent → count = 0
  established : conn.state = .established →
    conn.ackNum = conn.remoteSeqNum + 1 + UInt32.ofNat count

/-- A call has only bytes of the peer's stream, from its start on. -/
structure Fed (peer : Bytes) (g : Session) : Prop where
  isPrefix : gathered g <+: peer
  placed : ∀ conn, g.stack.currentConnection = some conn → Placed conn (gathered g).length
  connecting : g.pc = .connecting → g.stack.currentConnection = none ∧ gathered g = []

section Placing

variable {conn conn' : TcpConnection} {count : Nat}

theorem Placed.local (h : Placed conn count) (hlocal : LocalChange conn conn') :
    Placed conn' count := by
  rw [hlocal.fields]
  rcases hlocal.state with hstate | ⟨-, hstate⟩ | hstate
  · rw [hstate]
    exact ⟨h.synSent, h.established⟩
  · rw [hstate]
    exact ⟨by simp, by simp⟩
  · rw [hstate]
    exact ⟨by simp, by simp⟩

/-- A segment is either the next part of the stream, or brings no data. -/
theorem Placed.reaction {tcp : TcpParser} (acked : Bool) (seqNum : UInt32)
    (h : Placed conn count) (hdata : reactionOf conn.state tcp = .data →
      tcp.sequenceNumber = conn.remoteSeqNum + 1 + UInt32.ofNat count) :
    Placed { reacted conn tcp acked (reactionOf conn.state tcp) with seqNum := seqNum }
      (count + ((reactionOf conn.state tcp).pushed tcp).flatten.length) := by
  cases hr : reactionOf conn.state tcp with
  | ignore => exact ⟨h.synSent, h.established⟩
  | synAck =>
    have hstate : conn.state = .synSent := by
      by_contra hother
      exact reactionOf_ne_synAck tcp hother hr
    rw [h.synSent hstate]
    exact ⟨fun _ => rfl, fun _ => (UInt32.add_zero _).symm⟩
  | data =>
    have hstate := (reactionOf_data hr).1
    refine ⟨?_, ?_⟩
    · intro hsyn
      exact absurd (hstate.symm.trans hsyn) (by simp)
    · intro _
      show tcp.sequenceNumber + UInt32.ofNat tcp.payload.length = _
      rw [hdata hr]
      simp [reacted, Reaction.pushed, UInt32.add_assoc]
  | passiveClose | finAcked | activeClose | finalAck => exact ⟨by simp [reacted], by simp [reacted]⟩

end Placing

/-! The operations of the stack that a turn makes. -/

def userActions (c : Call) (a : Answers) : Pc → List Action
  | .connecting => [.connect c.remoteIp c.port a.localPort a.iss a.filterSet a.sent]
  | .waiting w => [.waitForConnectionPass w a.now a.later a.sent]
  | .sending => [.sendData c.request a.sent]
  | .receiving _ => [.waitForData]
  | .closing _ => [.closeConnection a.sent]
  | .refused | .gaveUp | .leaving _ | .returned _ | .thrown _ => []

theorem advance_runs (c : Call) (g : Session) (a : Answers) :
    (advance c g a).stack = runStack g.stack (userActions c a g.pc) ∧
      (advance c g a).chunks =
        g.chunks ++ collect step returned g.stack (userActions c a g.pc) := by
  obtain ⟨s, pc, chunks⟩ := g
  cases pc with
  | receiving buffer =>
    simp only [advance, userActions, runStack, run_cons, run_nil, collect, returned, step]
    cases hpop : waitForData s with
    | mk s' popped => cases popped <;> simp
  | connecting | waiting | gaveUp | sending | closing | leaving | refused | returned | thrown =>
    exact ⟨rfl, (List.append_nil chunks).symm⟩

theorem advance_ne_connecting (c : Call) (g : Session) (a : Answers) :
    (advance c g a).pc ≠ .connecting := by
  obtain ⟨s, pc, chunks⟩ := g
  by_cases hpc : pc = .connecting
  · rw [hpc]
    simp only [advance]
    split <;> simp
  · have hstep := advance_cases c a s chunks pc
    generalize advance c ⟨s, pc, chunks⟩ a = g' at hstep
    cases hstep with
    | ended => exact hpc
    | _ => simp

/-- The user thread takes from the queue what it adds to its chunks. -/
theorem advance_gathers (c : Call) (g : Session) (a : Answers) :
    gathered (advance c g a) = gathered g := by
  obtain ⟨hstack, hchunks⟩ := advance_runs c g a
  have hnone : collect step arrived g.stack (userActions c a g.pc) = [] := by
    cases g.pc <;> rfl
  have hqueue := handoff_run g.stack (userActions c a g.pc)
  rw [hnone, List.append_nil] at hqueue
  rw [gathered, gathered, hstack, hchunks, List.append_assoc, hqueue]

/-- No operation of the user moves `ack_num`, or makes a connection established. -/
theorem placed_step {s : TcpStack} {count : Nat} {a : Action}
    (h : ∀ conn, s.currentConnection = some conn → Placed conn count)
    (ha : a.keepsConnection = true) (hpacket : ∀ packet sent, a ≠ .processPacket packet sent) :
    ∀ conn, (step s a).currentConnection = some conn → Placed conn count := by
  intro conn' hc'
  cases hc : s.currentConnection with
  | none =>
    rcases step_alone hc ha with hsame | ⟨data, rest, -, -, hsame⟩
    · rw [hsame, hc] at hc'
      cases hc'
    · rw [hsame, log_currentConnection, setQueue_currentConnection, hc] at hc'
      cases hc'
  | some conn =>
    obtain ⟨conn₁, hc₁, ⟨hlocal, -⟩ | ⟨packet, sent, tcp, acked, rfl, -⟩⟩ :=
      step_connection hc ha
    · obtain rfl := Option.some.inj (hc₁.symm.trans hc')
      exact (h conn hc).local hlocal
    · exact absurd rfl (hpacket packet sent)

section Turns

variable {peer : Bytes} {g : Session}

theorem placed_connect {s : TcpStack} (remoteIp : UInt32) (remotePort localPort : UInt16)
    (iss : UInt32) (filterSet : Bool) (sent : Int) (hnone : s.currentConnection = none) :
    ∀ conn, (connect s remoteIp remotePort localPort iss filterSet sent).1.currentConnection =
      some conn → Placed conn 0 := by
  intro conn hc
  rcases connect_cases s remoteIp remotePort localPort iss filterSet sent with
    hsame | ⟨id, hfailed⟩ | ⟨-, hconnecting⟩
  · rw [hsame, hnone] at hc
    cases hc
  · rw [hfailed] at hc
    cases hc
  · rw [hconnecting] at hc
    obtain rfl := Option.some.inj hc
    exact ⟨fun _ => rfl, by simp⟩

theorem Fed.advance (h : Fed peer g) (c : Call) (a : Answers) :
    Fed peer (Sessions.advance c g a) := by
  have hgathered := advance_gathers c g a
  have hstack := (advance_runs c g a).1
  refine ⟨hgathered ▸ h.isPrefix, ?_, ?_⟩
  · rw [hgathered, hstack]
    obtain ⟨s, pc, chunks⟩ := g
    cases pc with
    | connecting =>
      obtain ⟨hnone, hempty⟩ := h.connecting rfl
      rw [hempty]
      exact placed_connect _ _ _ _ _ _ hnone
    | waiting w =>
      exact placed_step (a := .waitForConnectionPass w a.now a.later a.sent) h.placed rfl (by simp)
    | sending => exact placed_step (a := .sendData c.request a.sent) h.placed rfl (by simp)
    | receiving => exact placed_step (a := .waitForData) h.placed rfl (by simp)
    | closing => exact placed_step (a := .closeConnection a.sent) h.placed rfl (by simp)
    | gaveUp | leaving | refused | returned | thrown => exact h.placed
  · intro hconnecting
    exact absurd hconnecting (advance_ne_connecting c g a)

theorem Fed.packet (h : Fed peer g) (hlen : peer.length < 2 ^ 31) {packet : Packet}
    (sent : Nat → Int) (hnext : BringsNext peer g.stack packet) :
    Fed peer { g with stack := processPacket g.stack packet sent } := by
  cases hr : received g.stack packet with
  | none =>
    rw [processPacket_none sent hr]
    exact h
  | some pair =>
    obtain ⟨conn, tcp⟩ := pair
    have hc := (received_some hr).2.1
    have hplaced := h.placed conn hc
    have hslice : reactionOf conn.state tcp = .data →
        SliceAt peer (gathered g).length tcp.payload ∧
          tcp.sequenceNumber = conn.remoteSeqNum + 1 + UInt32.ofNat (gathered g).length := by
      intro hdata
      obtain ⟨hack, offset, hat, hoffset⟩ := hnext conn tcp hr hdata
      have hcount := hplaced.established (reactionOf_data hdata).1
      have hread := h.isPrefix.length_le
      have hbound := hat.1
      obtain rfl : offset = (gathered g).length :=
        offset_unique (by omega) (by omega) (hoffset.symm.trans (hack.trans hcount))
      exact ⟨hat, hoffset⟩
    have hqueue := perform_dataQueue g.stack tcp sent (reactionOf conn.state tcp) hc
    have hgathered : gathered { g with stack := processPacket g.stack packet sent } =
        gathered g ++ ((reactionOf conn.state tcp).pushed tcp).flatten := by
      rw [processPacket_received sent hr, gathered, hqueue]
      simp [gathered]
    refine ⟨?_, ?_, ?_⟩
    · rw [hgathered]
      cases hreact : reactionOf conn.state tcp with
      | data =>
        rw [Reaction.pushed, List.flatten_singleton]
        exact SliceAt.append_prefix (hslice hreact).1 h.isPrefix
      | _ => simpa [Reaction.pushed] using h.isPrefix
    · intro conn' hc'
      obtain ⟨acked, seqNum, hconn, -⟩ :=
        perform_currentConnection g.stack tcp sent (reactionOf conn.state tcp) hc
      rw [hgathered, List.length_append]
      rw [processPacket_received sent hr, hconn] at hc'
      obtain rfl := Option.some.inj hc'
      exact hplaced.reaction acked seqNum fun hdata => (hslice hdata).2
    · intro hconnecting
      rw [(h.connecting hconnecting).1] at hc
      cases hc

/-- In every interleaving, a call on a fresh stack has read the beginning of the peer's stream. -/
theorem fed_run (c : Call) {s : TcpStack} (hnone : s.currentConnection = none)
    (hempty : s.dataQueue = []) (hlen : peer.length < 2 ^ 31) {turns : List Turn}
    (hpeer : EachStep (turn c) (Feeds peer) (called s) turns) :
    Fed peer (run (turn c) (called s) turns) := by
  have hgathered : gathered (called s) = [] := by simp [gathered, called, hempty]
  have hstart : Fed peer (called s) := by
    refine ⟨hgathered ▸ List.nil_prefix, ?_, fun _ => ⟨hnone, hgathered⟩⟩
    intro conn hc
    rw [called, hnone] at hc
    cases hc
  have hkeep : ∀ g t, Fed peer g → Feeds peer g t → Fed peer (turn c g t) := by
    intro g t hg ht
    cases t with
    | user a => exact hg.advance c a
    | packet packet sent => exact hg.packet hlen sent (ht packet sent rfl)
  exact run_invariant hkeep hstart hpeer

theorem Fed.chunks_isPrefix (h : Fed peer g) : g.chunks.flatten <+: peer := by
  have hgathered := h.isPrefix
  rw [gathered, List.flatten_append] at hgathered
  exact (List.prefix_append _ _).trans hgathered

end Turns

/-! What the beginning of a response tells of the whole. -/

section Prefixes

variable {peer : Bytes} {locals : HttpResponse} {chunks : List Bytes}

/-- A loop that ends within the stream ends at a cut of it. -/
theorem cut_of_prefix {pre post : List Bytes} {last : Bytes}
    (h : (pre ++ last :: post).flatten <+: peer) : ∃ more, peer = pre.flatten ++ last ++ more := by
  obtain ⟨rest, rfl⟩ := h
  exact ⟨post.flatten ++ rest, by simp⟩

/-- What the receive loop reports of a beginning of the peer's stream is what the whole stream
says, up to the end of the body. -/
theorem reported_of_prefix (h : chunks.flatten <+: peer) {reception : Reception}
    (hloop : receiveLoop locals [] chunks = .ok reception) :
    (reception.receivedComplete = false ∧ reception.callbacks = []) ∨
      ∃ response rest, reception.callbacks = [response] ∧ parseHttpResponse peer locals =
        .ok (true, { response with body := response.body ++ rest }) := by
  have hnil : parseHttpResponse [] locals = .ok (false, locals) := rfl
  rcases receiveLoop_cases locals [] chunks hnil with
    ⟨-, hquiet⟩ | ⟨pre, last, post, rfl, -, ⟨what, -, hthrows⟩ | ⟨response, hparsed, hends⟩⟩
  · obtain rfl := Except.ok.inj (hquiet.symm.trans hloop)
    exact .inl ⟨rfl, rfl⟩
  · cases hthrows.symm.trans hloop
  · obtain rfl := Except.ok.inj (hends.symm.trans hloop)
    obtain ⟨more, rfl⟩ := cut_of_prefix h
    exact .inr ⟨response, more, rfl, accepted_append more hparsed⟩

theorem thrown_of_prefix (h : chunks.flatten <+: peer) {e : Fault}
    (hloop : receiveLoop locals [] chunks = .error e) :
    parseHttpResponse peer locals = .error e := by
  have hnil : parseHttpResponse [] locals = .ok (false, locals) := rfl
  rcases receiveLoop_cases locals [] chunks hnil with
    ⟨-, hquiet⟩ | ⟨pre, last, post, rfl, -, ⟨what, hthrown, hthrows⟩ | ⟨accepted, -, hends⟩⟩
  · cases hquiet.symm.trans hloop
  · obtain rfl := Except.error.inj (hthrows.symm.trans hloop)
    obtain ⟨more, rfl⟩ := cut_of_prefix h
    exact thrown_append more hthrown
  · cases hends.symm.trans hloop

end Prefixes

/-- A `get` that reports anything has come to its receive loop. -/
theorem get_reports {t : Transport} {locals : HttpResponse} {host path : Bytes}
    {result : GetResult} (h : Client.get t locals host path = .ok result)
    (hreports : result.returned = true ∨ result.callbacks ≠ []) :
    ∃ reception, receiveLoop locals [] t.chunks = .ok reception ∧
      result = ⟨reception.receivedComplete, some (buildHttpRequest (ascii "GET") host path []),
        reception.callbacks⟩ := by
  simp only [Client.get] at h
  split at h
  · cases h
    simp at hreports
  split at h
  · cases h
    simp at hreports
  split at h
  · cases h
    simp at hreports
  cases hloop : receiveLoop locals [] t.chunks with
  | error e =>
    rw [hloop] at h
    cases h
  | ok reception =>
    rw [hloop] at h
    exact ⟨reception, rfl, (Except.ok.inj h).symm⟩

/-- In every interleaving with the segments of an honest peer, what `get` returns `true` for and
hands to the callback is the response that the peer's stream begins with: its status, its headers
and the beginning of its body. What `get` throws, the whole stream throws. -/
theorem response_from_peer (c : Call) {s : TcpStack} (hnone : s.currentConnection = none)
    (hempty : s.dataQueue = []) {peer : Bytes} (hlen : peer.length < 2 ^ 31) {turns : List Turn}
    (hpeer : EachStep (turn c) (Feeds peer) (called s) turns) :
    ((run (turn c) (called s) turns).pc = .returned true → ∃ response rest,
        collect (turn c) (reports c) (called s) turns = [response] ∧
          Client.get ⟨true, true, true, (run (turn c) (called s) turns).chunks⟩ c.locals c.host
            c.path = .ok ⟨true, some c.request, [response]⟩ ∧
          parseHttpResponse peer c.locals =
            .ok (true, { response with body := response.body ++ rest })) ∧
      ∀ e, (run (turn c) (called s) turns).pc = .thrown e →
        parseHttpResponse peer c.locals = .error e := by
  have hbegins := (fed_run c hnone hempty hlen hpeer).chunks_isPrefix
  have hrefines := refines_run c s turns
  generalize run (turn c) (called s) turns = g at hbegins hrefines ⊢
  generalize collect (turn c) (reports c) (called s) turns = callbacks at hrefines ⊢
  constructor
  · intro hreturned
    rw [hreturned] at hrefines
    obtain ⟨buffer, hloop⟩ := hrefines
    rcases reported_of_prefix hbegins hloop with ⟨hincomplete, -⟩ | ⟨response, rest, hone, hpeer⟩
    · cases hincomplete
    · obtain rfl : callbacks = [response] := hone
      exact ⟨response, rest, rfl, get_of_receiveLoop c hloop, hpeer⟩
  · intro e hthrown
    rw [hthrown] at hrefines
    exact thrown_of_prefix hbegins hrefines.2

/-- What leaves `get` as an exception has left its receive loop. -/
theorem get_throws {t : Transport} {locals : HttpResponse} {host path : Bytes} {e : Fault}
    (h : Client.get t locals host path = .error e) : receiveLoop locals [] t.chunks = .error e := by
  simp only [Client.get] at h
  split at h
  · cases h
  split at h
  · cases h
  split at h
  · cases h
  cases hloop : receiveLoop locals [] t.chunks with
  | error e' =>
    rw [hloop] at h
    obtain rfl := Except.error.inj h
    rfl
  | ok reception =>
    rw [hloop] at h
    cases h

/-! A download from the beginning of the peer's stream. -/

theorem completed_of_prefix {t : Transport} {peer : Bytes} (hbegins : t.chunks.flatten <+: peer)
    {locals : HttpResponse} {host path : Bytes} {file : Option Bytes}
    (h : (downloadFile true file t locals host path).1 = .ok true) :
    ∃ whole, parseHttpResponse peer locals = .ok (true, whole) := by
  cases hget : Client.get t locals host path with
  | error e => simp [downloadFile, hget] at h
  | ok result =>
    have hreturned : result.returned = true := by simpa [downloadFile, hget] using h
    obtain ⟨reception, hloop, rfl⟩ := get_reports hget (.inl hreturned)
    rcases reported_of_prefix hbegins hloop with ⟨hincomplete, -⟩ | ⟨response, rest, -, hparsed⟩
    · cases hincomplete.symm.trans hreturned
    · exact ⟨_, hparsed⟩

theorem raised_of_prefix {t : Transport} {peer : Bytes} (hbegins : t.chunks.flatten <+: peer)
    {locals : HttpResponse} {host path : Bytes} {file : Option Bytes} {e : Fault}
    (h : (downloadFile true file t locals host path).1 = .error e) :
    parseHttpResponse peer locals = .error e := by
  cases hget : Client.get t locals host path with
  | error e' =>
    obtain rfl : e' = e := by simpa [downloadFile, hget] using h
    exact thrown_of_prefix hbegins (get_throws hget)
  | ok result => simp [downloadFile, hget] at h

theorem content_of_prefix {t : Transport} {peer : Bytes} (hbegins : t.chunks.flatten <+: peer)
    (locals : HttpResponse) (host path : Bytes) (file : Option Bytes) :
    ∃ content, (downloadFile true file t locals host path).2 = some content ∧
      (content ≠ [] → ∃ whole, parseHttpResponse peer locals = .ok (true, whole) ∧
        whole.statusCode = 200 ∧ content <+: whole.body) := by
  cases hget : Client.get t locals host path with
  | error e => exact ⟨[], by simp [downloadFile, hget], by simp⟩
  | ok result =>
    refine ⟨result.callbacks.foldl fileCallback [], by simp [downloadFile, hget], ?_⟩
    intro hwritten
    have hreports : result.callbacks ≠ [] := by
      intro hquiet
      rw [hquiet] at hwritten
      exact hwritten rfl
    obtain ⟨reception, hloop, rfl⟩ := get_reports hget (.inr hreports)
    rcases reported_of_prefix hbegins hloop with ⟨-, hquiet⟩ | ⟨response, rest, hone, hpeer⟩
    · exact absurd hquiet hreports
    · rw [hone] at hwritten ⊢
      by_cases hstatus : response.statusCode = 200
      · refine ⟨_, hpeer, hstatus, ?_⟩
        simp [fileCallback, hstatus]
      · simp [fileCallback, hstatus] at hwritten

/-- Whatever `download_file` leaves in the file that it has opened comes from the body of a
response of the peer with status 200, from its beginning on. -/
theorem file_from_peer (c : Call) {s : TcpStack} (hnone : s.currentConnection = none)
    (hempty : s.dataQueue = []) {peer : Bytes} (hlen : peer.length < 2 ^ 31) {turns : List Turn}
    (hpeer : EachStep (turn c) (Feeds peer) (called s) turns) {t : Transport}
    (ht : t.chunks = (run (turn c) (called s) turns).chunks) (file : Option Bytes) :
    ∃ content, (downloadFile true file t c.locals c.host c.path).2 = some content ∧
      (content ≠ [] → ∃ whole, parseHttpResponse peer c.locals = .ok (true, whole) ∧
        whole.statusCode = 200 ∧ content <+: whole.body) := by
  have hbegins := (fed_run c hnone hempty hlen hpeer).chunks_isPrefix
  rw [← ht] at hbegins
  exact content_of_prefix hbegins c.locals c.host c.path file

/-! A response in one segment. -/

def sampleResponse : Bytes := ascii "HTTP/1.1 200 OK" ++ crlf ++ crlf

theorem feeds_user (peer : Bytes) (g : Session) (a : Answers) : Feeds peer g (.user a) := by
  rintro packet sent ⟨⟩

/-- What the stack sees of the two segments in the states in which they arrive. -/
theorem sampleExchange_feeds :
    EachStep (turn sampleCall) (Feeds sampleResponse) (called sampleClient) sampleExchange := by
  refine ⟨feeds_user _ _ _, ?_, feeds_user _ _ _, feeds_user _ _ _, ?_, feeds_user _ _ _,
    feeds_user _ _ _, feeds_user _ _ _, trivial⟩
  · rintro packet sent ⟨⟩ conn tcp hr hdata
    have hseen : (received (run (turn sampleCall) (called sampleClient)
        (sampleExchange.take 1)).stack sampleSynAck).map
        (fun p => reactionOf p.1.state p.2) = some .synAck := by decide +kernel
    have hreaction : some (reactionOf conn.state tcp) = some .synAck :=
      (congrArg (Option.map _) hr).symm.trans hseen
    cases (Option.some.inj hreaction).symm.trans hdata
  · rintro packet sent ⟨⟩ conn tcp hr -
    have hseen : (received (run (turn sampleCall) (called sampleClient)
        (sampleExchange.take 4)).stack (sampleData 5001 sampleResponse)).map
        (fun p => (p.2.sequenceNumber, p.1.ackNum, p.1.remoteSeqNum, p.2.payload)) =
          some (5001, 5001, 5000, sampleResponse) := by decide +kernel
    have hfields : some (tcp.sequenceNumber, conn.ackNum, conn.remoteSeqNum, tcp.payload) =
        some (5001, 5001, 5000, sampleResponse) := (congrArg (Option.map _) hr).symm.trans hseen
    simp only [Option.some.injEq, Prod.mk.injEq] at hfields
    obtain ⟨hseq, hack, hremote, hpayload⟩ := hfields
    refine ⟨hseq.trans hack.symm, 0, ?_, ?_⟩
    · rw [hpayload]
      exact ⟨Nat.zero_le _, List.prefix_refl _⟩
    · rw [hseq, hremote]
      rfl

theorem response_from_peer_sample :
    ((run (turn sampleCall) (called sampleClient) sampleExchange).pc = .returned true →
        ∃ response rest,
          collect (turn sampleCall) (reports sampleCall) (called sampleClient) sampleExchange =
              [response] ∧
            Client.get ⟨true, true, true,
                (run (turn sampleCall) (called sampleClient) sampleExchange).chunks⟩
                sampleCall.locals sampleCall.host sampleCall.path =
              .ok ⟨true, some sampleCall.request, [response]⟩ ∧
            parseHttpResponse sampleResponse sampleCall.locals =
              .ok (true, { response with body := response.body ++ rest })) ∧
      ∀ e, (run (turn sampleCall) (called sampleClient) sampleExchange).pc = .thrown e →
        parseHttpResponse sampleResponse sampleCall.locals = .error e :=
  response_from_peer sampleCall rfl rfl (by decide) sampleExchange_feeds

theorem file_from_peer_sample :
    ∃ content, (downloadFile true none ⟨true, true, true, [sampleResponse]⟩ sampleCall.locals
        sampleCall.host sampleCall.path).2 = some content ∧
      (content ≠ [] → ∃ whole, parseHttpResponse sampleResponse sampleCall.locals =
        .ok (true, whole) ∧ whole.statusCode = 200 ∧ content <+: whole.body) :=
  file_from_peer sampleCall rfl rfl (by decide) sampleExchange_feeds (by decide +kernel) none

end MyTelnet.Http.Delivery
