/- module: MyTelnet/Stack/Ledger
   scope: proofs
   digest: The sequence numbers that an established connection spends, frame by frame. -/

import MyTelnet.Stack.Grammar
import MyTelnet.Stack.Stream

set_option autoImplicit false
set_option relaxedAutoImplicit false

namespace MyTelnet.Stack.Ledger

open MyTelnet.Base.ByteOrder MyTelnet.Base.Runs MyTelnet.Wire.Layers
open MyTelnet.Stack.State MyTelnet.Stack.Send MyTelnet.Stack.Operations MyTelnet.Stack.Run
open MyTelnet.Stack.Frames MyTelnet.Stack.Effects MyTelnet.Stack.Steps MyTelnet.Stack.Handshake
open MyTelnet.Stack.Stream MyTelnet.Stack.Moves MyTelnet.Stack.Grammar

def isDataFrame (frame : Bytes) : Bool := frameFlags frame &&& tcpPsh != 0

def isFinFrame (frame : Bytes) : Bool := frameFlags frame &&& tcpFin != 0

/-- The sequence numbers that a frame uses up: one for each byte, and one for a FIN. -/
def cost (frame : Bytes) : Nat :=
  (framePayload frame).length + if isFinFrame frame then 1 else 0

def spent : List Bytes → Nat
  | [] => 0
  | frame :: sent => cost frame + spent sent

/-- The vectors on which `send_data` returns true. -/
def confirmed (s : TcpStack) : Action → List Bytes
  | .sendData data sent => if (sendData s data sent).2 then [data] else []
  | _ => []

/-- The books of a connection that began at sequence number `x`: the frames it has sent, the
vectors in them, and the number it is at. -/
structure Book (x next : UInt32) (sent vectors : List Bytes) : Prop where
  next : next = x + UInt32.ofNat (spent sent)
  data : (sent.filter isDataFrame).map framePayload = vectors
  kinds : ∀ frame ∈ sent, frameFlags frame = pshAck ∨
    (frameFlags frame = tcpAck ∨ frameFlags frame = finAck) ∧ framePayload frame = []
  placed : ∀ before frame after, sent = before ++ frame :: after →
    frameSeq frame = x + UInt32.ofNat (spent before)
  finLast : ∀ before fin after, sent = before ++ fin :: after → isFinFrame fin = true →
    ∀ frame ∈ after, frameFlags frame = tcpAck

theorem spent_append (sent more : List Bytes) : spent (sent ++ more) = spent sent + spent more := by
  induction sent with
  | nil => exact (Nat.zero_add _).symm
  | cons frame sent ih => rw [List.cons_append, spent, spent, ih, Nat.add_assoc]

theorem spent_singleton (frame : Bytes) : spent [frame] = cost frame := rfl

/-- The splits of a list that has got one more item. -/
theorem snoc_eq_split {sent before after : List Bytes} {last frame : Bytes}
    (h : sent ++ [last] = before ++ frame :: after) :
    before = sent ∧ frame = last ∧ after = [] ∨
      ∃ rest, after = rest ++ [last] ∧ sent = before ++ frame :: rest := by
  rcases List.eq_nil_or_concat after with rfl | ⟨rest, b, rfl⟩
  · obtain ⟨rfl, hlast⟩ := List.append_inj' h rfl
    exact .inl ⟨rfl, (List.cons.inj hlast).1.symm, rfl⟩
  · rw [List.concat_eq_append, ← List.cons_append, ← List.append_assoc] at h
    obtain ⟨hsent, hlast⟩ := List.append_inj' h rfl
    obtain rfl := (List.cons.inj hlast).1
    exact .inr ⟨rest, List.concat_eq_append, hsent⟩

section Book

variable {x next : UInt32} {sent vectors : List Bytes} {frame : Bytes}

theorem Book.start (x : UInt32) : Book x x [] [] :=
  ⟨(UInt32.add_zero x).symm, rfl, by simp, by simp, by simp⟩

/-- An entry: a frame at the current number, after a FIN only a pure ACK. -/
theorem Book.enter (h : Book x next sent vectors) (hseq : frameSeq frame = next)
    (hkind : frameFlags frame = pshAck ∨
      (frameFlags frame = tcpAck ∨ frameFlags frame = finAck) ∧ framePayload frame = [])
    (hfin : frameFlags frame ≠ tcpAck → ∀ f ∈ sent, isFinFrame f = false) :
    Book x (next + UInt32.ofNat (cost frame)) (sent ++ [frame])
      (vectors ++ ([frame].filter isDataFrame).map framePayload) := by
  refine ⟨?_, ?_, ?_, ?_, ?_⟩
  · rw [spent_append, spent_singleton, UInt32.ofNat_add, ← UInt32.add_assoc, ← h.next]
  · rw [List.filter_append, List.map_append, h.data]
  · rw [List.forall_mem_append]
    exact ⟨h.kinds, by simpa using hkind⟩
  · intro before frame' after hsplit
    rcases snoc_eq_split hsplit with ⟨rfl, rfl, -⟩ | ⟨rest, -, hsent⟩
    · exact hseq.trans h.next
    · exact h.placed before frame' rest hsent
  · intro before fin after hsplit hisFin
    rcases snoc_eq_split hsplit with ⟨-, -, rfl⟩ | ⟨rest, rfl, hsent⟩
    · simp
    · rw [List.forall_mem_append]
      refine ⟨h.finLast before fin rest hsent hisFin, ?_⟩
      intro f hf
      obtain rfl := List.mem_singleton.mp hf
      by_contra hne
      have hno := hfin hne fin (by rw [hsent]; simp)
      exact absurd (hisFin.symm.trans hno) (by simp)

end Book

theorem confirmed_other {s : TcpStack} {a : Action} (h : ∀ data sent, a ≠ .sendData data sent) :
    confirmed s a = [] := by
  cases a with
  | sendData data sent => exact absurd rfl (h data sent)
  | _ => rfl

theorem isFinFrame_flags {frame : Bytes} {flags : UInt16} (h : frameFlags frame = flags) :
    isFinFrame frame = (flags &&& tcpFin != 0) := by
  rw [isFinFrame, h]

section Entries

variable {x : UInt32} {sent vectors : List Bytes} {conn conn' : TcpConnection}

/-- A pure ACK, if it is injected, is entered at no cost. -/
theorem Book.ack {next : UInt32} {events : List Event} (hsent : Sent conn tcpAck [] events conn')
    (h : Book x next sent vectors) (hnext : conn.seqNum = next) :
    Book x conn'.seqNum (sent ++ frames events) vectors := by
  subst hnext
  rw [Sent.ack hsent]
  cases hsent with
  | failed =>
    rw [show frames [] = [] from rfl, List.append_nil]
    exact h
  | @injected frame built =>
    have hflags : frameFlags frame = tcpAck := built.flags
    have hentry := h.enter built.seq (.inr ⟨.inl hflags, built.payload⟩)
      (fun hne => absurd hflags hne)
    have hcost : cost frame = 0 := by
      rw [cost, built.payload, isFinFrame_flags hflags]
      rfl
    have hdata : isDataFrame frame = false := by
      rw [isDataFrame, hflags]
      rfl
    rw [hcost] at hentry
    show Book x conn.seqNum (sent ++ [frame]) vectors
    simpa [hdata] using hentry

/-- A FIN is entered at the cost of one number. -/
theorem Book.fin {frame : Bytes} (h : Book x conn.seqNum sent vectors)
    (hopen : ∀ f ∈ sent, isFinFrame f = false) (built : FrameOf conn finAck [] frame) :
    Book x (conn.seqNum + 1) (sent ++ [frame]) vectors := by
  have hflags : frameFlags frame = finAck := built.flags
  have hentry := h.enter built.seq (.inr ⟨.inr hflags, built.payload⟩)
    (fun _ => hopen)
  have hcost : cost frame = 1 := by
    rw [cost, built.payload, isFinFrame_flags hflags]
    rfl
  have hdata : isDataFrame frame = false := by
    rw [isDataFrame, hflags]
    rfl
  rw [hcost] at hentry
  simpa [hdata] using hentry

/-- A data segment is entered at the cost of its bytes. -/
theorem Book.sendData {data frame : Bytes} (h : Book x conn.seqNum sent vectors)
    (hopen : ∀ f ∈ sent, isFinFrame f = false) (built : FrameOf conn pshAck data frame) :
    Book x (conn.seqNum + UInt32.ofNat data.length) (sent ++ [frame]) (vectors ++ [data]) := by
  have hflags : frameFlags frame = pshAck := built.flags
  have hpayload : framePayload frame = data := built.payload
  have hentry := h.enter built.seq (.inl hflags) (fun _ => hopen)
  have hcost : cost frame = data.length := by
    rw [cost, hpayload, isFinFrame_flags hflags]
    rfl
  have hdata : isDataFrame frame = true := by
    rw [isDataFrame, hflags]
    rfl
  rw [hcost] at hentry
  simpa [hdata, hpayload] using hentry

end Entries

/-- The books of the current connection are kept since `s₀`. -/
structure Booked (x : UInt32) (s₀ s : TcpStack) (conn : TcpConnection) (sent : List Bytes)
    (vectors : List Bytes) : Prop where
  connection : s.currentConnection = some conn
  injected : injectedFrames s = injectedFrames s₀ ++ sent
  book : Book x conn.seqNum sent vectors
  state : conn.state ≠ .synSent
  noFin : conn.state = .established → ∀ frame ∈ sent, isFinFrame frame = false

/-- An ACK is no FIN. -/
theorem Sent.ack_noFin {conn conn' : TcpConnection} {events : List Event}
    (h : Sent conn tcpAck [] events conn') : ∀ frame ∈ frames events, isFinFrame frame = false := by
  cases h with
  | failed => simp [frames]
  | injected built =>
    intro frame hmem
    obtain rfl := List.mem_singleton.mp hmem
    rw [isFinFrame_flags built.flags]
    rfl

theorem Move.booked {x : UInt32} {s₀ s : TcpStack} {conn conn' : TcpConnection} {a : Action}
    {events : List Event} {sent vectors : List Bytes} (h : Move s conn a events conn')
    (hb : Booked x s₀ s conn sent vectors) :
    Book x conn'.seqNum (sent ++ frames events) (vectors ++ confirmed s a) ∧
      conn'.state ≠ .synSent ∧
      (conn'.state = .established →
        ∀ frame ∈ sent ++ frames events, isFinFrame frame = false) := by
  have hsame : Book x conn.seqNum (sent ++ []) (vectors ++ []) := by
    rw [List.append_nil, List.append_nil]
    exact hb.book
  have hopen (h : conn.state = .established) :
      ∀ frame ∈ sent ++ [], isFinFrame frame = false := by
    rw [List.append_nil]
    exact hb.noFin h
  cases h with
  | @idle a unmatched noData =>
    rw [confirmed_other noData]
    exact ⟨hsame, hb.state, hopen⟩
  | popped | ignored => exact ⟨hsame, hb.state, hopen⟩
  | resentSyn state | unanswered _ state | opened _ state => exact absurd state hb.state
  | unsent result =>
    rw [confirmed, result]
    exact ⟨hsame, hb.state, hopen⟩
  | @sentData data _ frame state result built =>
    rw [confirmed, result, advanceSeq_data conn data]
    refine ⟨hb.book.sendData (hb.noFin state) built, by simp [state], ?_⟩
    intro _
    show ∀ f ∈ sent ++ [frame], isFinFrame f = false
    rw [List.forall_mem_append]
    refine ⟨hb.noFin state, ?_⟩
    intro f hf
    rw [List.mem_singleton.mp hf, isFinFrame_flags built.flags]
    rfl
  | finSent state built =>
    refine ⟨?_, by simp, by simp⟩
    rw [confirmed_other (by simp), List.append_nil]
    exact hb.book.fin (hb.noFin state) built
  | dropped | finAcked => exact ⟨hsame, by simp, by simp⟩
  | @data packet _ tcp ack conn' matched state flags payload sends =>
    have hquiet : frames (.queued tcp.payload ::
        notice s.onDataReceived (.onDataReceived tcp.payload)) = [] := frames_notice rfl
    rw [frames_append, hquiet, List.append_nil, confirmed_other (by simp), List.append_nil,
      Sent.state sends]
    refine ⟨Book.ack sends hb.book rfl, hb.state, ?_⟩
    intro hest
    rw [List.forall_mem_append]
    exact ⟨hb.noFin hest, Sent.ack_noFin sends⟩
  | @passiveClose packet _ tcp ack fin conn₁ conn₂ matched state flags acks fins failed =>
    refine ⟨?_, by simp, by simp⟩
    have hacked : Book x conn₁.seqNum (sent ++ frames ack) vectors := Book.ack acks hb.book rfl
    have hopen₁ : ∀ f ∈ sent ++ frames ack, isFinFrame f = false := by
      rw [List.forall_mem_append]
      exact ⟨hb.noFin state, Sent.ack_noFin acks⟩
    have hframes : frames (.receivedFin :: ack ++ fin) = frames ack ++ frames fin := by
      rw [frames_append]
      rfl
    rw [hframes, ← List.append_assoc, confirmed_other (by simp), List.append_nil]
    cases fins with
    | failed =>
      rw [show frames [] = [] from rfl, List.append_nil]
      exact hacked
    | injected built => exact Book.fin hacked hopen₁ built
  | @activeClose packet _ tcp ack conn' matched state flags acks =>
    refine ⟨?_, by simp, by simp⟩
    have hframes : frames (.receivedFin :: ack ++
        notice s.onConnectionClosed .onConnectionClosed) = frames ack := by
      rw [frames_append, frames_notice rfl, List.append_nil]
      rfl
    have hacked := Book.ack acks hb.book rfl
    rw [hframes, confirmed_other (by simp), List.append_nil]
    exact hacked
  | finalAck =>
    rw [frames_notice rfl]
    exact ⟨hsame, by simp, by simp⟩

theorem Booked.step {x : UInt32} {s₀ s : TcpStack} {conn : TcpConnection}
    {sent vectors : List Bytes} {a : Action} (h : Booked x s₀ s conn sent vectors)
    (ha : a.keepsConnection = true) :
    ∃ more conn', Booked x s₀ (Run.step s a) conn' (sent ++ more) (vectors ++ confirmed s a) ∧
      injectedFrames (Run.step s a) = injectedFrames s ++ more := by
  obtain ⟨events, conn', hmove, hconn, htrace⟩ := step_moves h.connection ha
  obtain ⟨hbook, hstate, hnoFin⟩ := Move.booked hmove h
  have hinj : injectedFrames (Run.step s a) = injectedFrames s ++ frames events :=
    injectedFrames_of_trace htrace
  refine ⟨frames events, conn', ⟨hconn, ?_, hbook, hstate, hnoFin⟩, hinj⟩
  rw [hinj, h.injected, List.append_assoc]

theorem Booked.run {x : UInt32} {s₀ s : TcpStack} {conn : TcpConnection}
    {sent vectors : List Bytes} {acts : List Action} (h : Booked x s₀ s conn sent vectors)
    (ha : ∀ a ∈ acts, a.keepsConnection = true) :
    ∃ more conn', Booked x s₀ (runStack s acts) conn' (sent ++ more)
      (vectors ++ collect Run.step confirmed s acts) := by
  induction acts generalizing s conn sent vectors with
  | nil => exact ⟨[], conn, by simpa [collect] using h⟩
  | cons a acts ih =>
    rw [List.forall_mem_cons] at ha
    obtain ⟨more, conn₁, h₁, -⟩ := h.step ha.1
    obtain ⟨more', conn₂, h₂⟩ := ih h₁ ha.2
    refine ⟨more ++ more', conn₂, ?_⟩
    rw [collect, ← List.append_assoc, ← List.append_assoc]
    exact h₂

/-! What the books say. -/

/-- The vectors in the data frames. -/
def dataOf (sent : List Bytes) : List Bytes := (sent.filter isDataFrame).map framePayload

theorem dataOf_split {sent vs ws : List Bytes} {v : Bytes} (h : dataOf sent = vs ++ v :: ws) :
    ∃ before frame after, sent = before ++ frame :: after ∧ isDataFrame frame = true ∧
      dataOf before = vs ∧ framePayload frame = v := by
  obtain ⟨fs, gs, hfilter, hvs, hrest⟩ := List.map_eq_append_iff.mp h
  obtain ⟨frame, hs, rfl, hv, -⟩ := List.map_eq_cons_iff.mp hrest
  obtain ⟨front, back, rfl, hfront, hback⟩ := List.filter_eq_append_iff.mp hfilter
  obtain ⟨skipped, after, rfl, hskipped, hframe, -⟩ := List.filter_eq_cons_iff.mp hback
  refine ⟨front ++ skipped, frame, after, by simp, hframe, ?_, hv⟩
  have hnone : skipped.filter isDataFrame = [] := List.filter_eq_nil_iff.mpr hskipped
  rw [dataOf, List.filter_append, hnone, List.append_nil, hfront, hvs]

section Book

variable {x next : UInt32} {sent vectors before after : List Bytes} {frame : Bytes}

/-- The numbers spent are the bytes of the data frames and one for each FIN. -/
theorem spent_eq (hkinds : ∀ frame ∈ sent, frameFlags frame = pshAck ∨
      (frameFlags frame = tcpAck ∨ frameFlags frame = finAck) ∧ framePayload frame = []) :
    spent sent = (dataOf sent).flatten.length + sent.countP isFinFrame := by
  induction sent with
  | nil => rfl
  | cons frame sent ih =>
    rw [List.forall_mem_cons] at hkinds
    have hdata : (dataOf (frame :: sent)).flatten.length =
        (framePayload frame).length + (dataOf sent).flatten.length := by
      cases hd : isDataFrame frame with
      | true => simp [dataOf, hd]
      | false =>
        have hnil : framePayload frame = [] := by
          rcases hkinds.1 with h | h
          · rw [isDataFrame, h] at hd
            exact absurd hd (by decide)
          · exact h.2
        simp [dataOf, hd, hnil]
    rw [spent, ih hkinds.2, hdata, List.countP_cons, cost]
    omega

/-- Before a frame that is no pure ACK there is no FIN. -/
theorem Book.noFin_before (h : Book x next sent vectors) (hsplit : sent = before ++ frame :: after)
    (hne : frameFlags frame ≠ tcpAck) : ∀ f ∈ before, isFinFrame f = false := by
  intro f hf
  by_contra hfin
  rw [Bool.not_eq_false] at hfin
  obtain ⟨front, back, rfl⟩ := List.append_of_mem hf
  have hlast := h.finLast front f (back ++ frame :: after) (by rw [hsplit]; simp) hfin
  exact hne (hlast frame (by simp))

theorem Book.spent_before (h : Book x next sent vectors) (hsplit : sent = before ++ frame :: after)
    (hne : frameFlags frame ≠ tcpAck) : spent before = (dataOf before).flatten.length := by
  have hkinds : ∀ f ∈ before, frameFlags f = pshAck ∨
      (frameFlags f = tcpAck ∨ frameFlags f = finAck) ∧ framePayload f = [] := by
    intro f hf
    exact h.kinds f (by rw [hsplit]; exact List.mem_append_left _ hf)
  have hnone : before.countP isFinFrame = 0 := by
    apply List.countP_eq_zero.mpr
    intro f hf
    rw [h.noFin_before hsplit hne f hf]
    simp
  rw [spent_eq hkinds, hnone, Nat.add_zero]

theorem flags_of_isDataFrame (h : isDataFrame frame = true) : frameFlags frame ≠ tcpAck := by
  intro hack
  rw [isDataFrame, hack] at h
  exact absurd h (by decide)

theorem flags_of_isFinFrame (h : isFinFrame frame = true) : frameFlags frame ≠ tcpAck := by
  intro hack
  rw [isFinFrame, hack] at h
  exact absurd h (by decide)

/-- Each vector starts where the vectors before it end. -/
theorem Book.interval (h : Book x next sent vectors) {vs ws : List Bytes} {v : Bytes}
    (hv : vectors = vs ++ v :: ws) :
    ∃ before frame after, sent = before ++ frame :: after ∧ dataOf before = vs ∧
      framePayload frame = v ∧ frameSeq frame = x + UInt32.ofNat vs.flatten.length := by
  obtain ⟨before, frame, after, hsplit, hdata, rfl, hpayload⟩ := dataOf_split (h.data.trans hv)
  refine ⟨before, frame, after, hsplit, rfl, hpayload, ?_⟩
  rw [h.placed before frame after hsplit, h.spent_before hsplit (flags_of_isDataFrame hdata)]

/-- The FIN stands right behind all the data. -/
theorem Book.finPlace (h : Book x next sent vectors) (hsplit : sent = before ++ frame :: after)
    (hfin : isFinFrame frame = true) :
    frameSeq frame = x + UInt32.ofNat vectors.flatten.length := by
  have hne := flags_of_isFinFrame hfin
  have hvectors : vectors = dataOf before := by
    have hframe : isDataFrame frame = false := by
      rcases h.kinds frame (by rw [hsplit]; simp) with hpsh | ⟨hack | hfa, -⟩
      · rw [isFinFrame, hpsh] at hfin
        exact absurd hfin (by decide)
      · exact absurd hack hne
      · rw [isDataFrame, hfa]
        rfl
    have hafter : after.filter isDataFrame = [] := by
      apply List.filter_eq_nil_iff.mpr
      intro f hf
      rw [isDataFrame, h.finLast before frame after hsplit hfin f hf]
      decide
    rw [← h.data, hsplit, List.filter_append, List.filter_cons_of_neg (by simp [hframe]), hafter,
      List.append_nil]
    rfl
  rw [h.placed before frame after hsplit, h.spent_before hsplit hne, hvectors]

end Book

/-- The ledger of a run that begins with an established connection at sequence number `x`. -/
structure Balanced (x : UInt32) (s : TcpStack) (acts : List Action) : Prop where
  /-- Every frame is data, a pure ACK or a FIN, and only data carries a payload. -/
  kinds : ∀ frame ∈ framesSince s (runStack s acts), frameFlags frame = pshAck ∨
    (frameFlags frame = tcpAck ∨ frameFlags frame = finAck) ∧ framePayload frame = []
  /-- The data frames are the calls of `send_data` that returned true, in order. -/
  data : dataOf (framesSince s (runStack s acts)) = collect step confirmed s acts
  /-- Each of their vectors starts where those before it end, the first at `x`. -/
  intervals : ∀ vs v ws, collect step confirmed s acts = vs ++ v :: ws →
    ∃ before frame after, framesSince s (runStack s acts) = before ++ frame :: after ∧
      dataOf before = vs ∧ framePayload frame = v ∧
      frameSeq frame = x + UInt32.ofNat vs.flatten.length
  /-- A frame, so also a pure ACK, is at the first number that those before it left unused. -/
  placed : ∀ before frame after, framesSince s (runStack s acts) = before ++ frame :: after →
    frameSeq frame =
      x + UInt32.ofNat ((dataOf before).flatten.length + before.countP isFinFrame)
  /-- A FIN is right behind the last byte of data, and only pure ACKs follow it. -/
  fin : ∀ before fin after, framesSince s (runStack s acts) = before ++ fin :: after →
    isFinFrame fin = true →
    frameSeq fin = x + UInt32.ofNat (collect step confirmed s acts).flatten.length ∧
      ∀ frame ∈ after, frameFlags frame = tcpAck
  /-- `seq_num` is the next unused number: data and FINs consume, pure ACKs do not. -/
  next : ∃ conn, (runStack s acts).currentConnection = some conn ∧
    conn.seqNum = x + UInt32.ofNat ((collect step confirmed s acts).flatten.length +
      (framesSince s (runStack s acts)).countP isFinFrame)
  /-- A step that injects nothing leaves `seq_num` alone, and so does a refused `send_data`. -/
  failed : ∀ pre a, pre ++ [a] <+: acts →
    framesSince (runStack s pre) (runStack s (pre ++ [a])) = [] ∨
      (∃ data sent, a = .sendData data sent ∧ (sendData (runStack s pre) data sent).2 = false) →
    (runStack s (pre ++ [a])).currentConnection.map (·.seqNum) =
      (runStack s pre).currentConnection.map (·.seqNum)

theorem Booked.start {s : TcpStack} {conn : TcpConnection} (hc : s.currentConnection = some conn)
    (hest : conn.state = .established) : Booked conn.seqNum s s conn [] [] :=
  ⟨hc, (List.append_nil _).symm, Book.start conn.seqNum, by simp [hest], by simp⟩

theorem sendData_refused {s : TcpStack} {conn : TcpConnection} {data : Bytes} {sent : Int}
    (hc : s.currentConnection = some conn) (h : (sendData s data sent).2 = false) :
    injectedFrames (step s (.sendData data sent)) = injectedFrames s := by
  obtain ⟨events, conn', hmove, -, htrace⟩ := step_moves hc (a := .sendData data sent) rfl
  cases hmove with
  | idle unmatched noData => exact absurd rfl (noData data sent)
  | unsent =>
    rw [injectedFrames, history, htrace, List.append_nil]
    rfl
  | sentData state result => exact absurd (h.symm.trans result) (by simp)

/-- Every run from ESTABLISHED keeps the ledger balanced. -/
theorem ledger_balanced {s : TcpStack} {conn : TcpConnection} {acts : List Action}
    (hc : s.currentConnection = some conn) (hest : conn.state = .established)
    (ha : ∀ a ∈ acts, a.keepsConnection = true) : Balanced conn.seqNum s acts := by
  obtain ⟨sent, conn', h⟩ := (Booked.start hc hest).run ha
  rw [List.nil_append, List.nil_append] at h
  have hsent : framesSince s (runStack s acts) = sent := framesSince_eq h.injected
  have hdata : dataOf sent = collect step confirmed s acts := h.book.data
  refine ⟨?_, ?_, ?_, ?_, ?_, ?_, ?_⟩
  · rw [hsent]
    exact h.book.kinds
  · rw [hsent]
    exact hdata
  · intro vs v ws hv
    rw [hsent]
    exact h.book.interval hv
  · intro before frame after hsplit
    rw [hsent] at hsplit
    rw [h.book.placed before frame after hsplit, spent_eq]
    intro f hf
    exact h.book.kinds f (by rw [hsplit]; exact List.mem_append_left _ hf)
  · intro before fin after hsplit hfin
    rw [hsent] at hsplit
    exact ⟨h.book.finPlace hsplit hfin, h.book.finLast before fin after hsplit hfin⟩
  · refine ⟨conn', h.connection, ?_⟩
    rw [hsent, h.book.next, spent_eq h.book.kinds, hdata]
  · intro pre a hpre hfailed
    have hkeep : ∀ b ∈ pre ++ [a], b.keepsConnection = true := fun b hb => ha b (hpre.subset hb)
    obtain ⟨sent₁, conn₁, h₁⟩ :=
      (Booked.start hc hest).run fun b hb => hkeep b (List.mem_append_left _ hb)
    obtain ⟨more, conn₂, h₂, hinj⟩ := h₁.step (hkeep a (by simp))
    rw [runStack_snoc] at hfailed ⊢
    have hnone : more = [] := by
      rcases hfailed with hnone | ⟨data, sent', rfl, hrefused⟩
      · rw [← framesSince_eq hinj]
        exact hnone
      · have hsame := sendData_refused h₁.connection hrefused
        exact List.append_cancel_left (hinj.symm.trans (hsame.trans (List.append_nil _).symm))
    rw [h₂.connection, h₁.connection, Option.map_some, Option.map_some, h₂.book.next, h₁.book.next,
      hnone, List.append_nil]

theorem ledger_balanced_sample :
    Balanced 1001 sampleOpened
      [.sendData [0x47, 0x45] 56, .sendData [0x54] (-1), .sendData [0x21] 55,
        arrival (sampleData 5001 [0x61]), .closeConnection 54] :=
  ledger_balanced sampleOpened_handshaken.connection rfl (by decide)

end MyTelnet.Stack.Ledger
