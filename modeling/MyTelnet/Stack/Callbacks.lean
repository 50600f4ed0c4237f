/- module: MyTelnet/Stack/Callbacks
   scope: proofs
   digest: The order of the callbacks made for a connection object, and what they carry. -/

import MyTelnet.Base.Grammars
import MyTelnet.Stack.Objects

set_option autoImplicit false
set_option relaxedAutoImplicit false

namespace MyTelnet.Stack.Callbacks

open RegularExpression
open MyTelnet.Base.ByteOrder MyTelnet.Base.Grammars MyTelnet.Wire.Layers
open MyTelnet.Stack.State MyTelnet.Stack.Send MyTelnet.Stack.Run MyTelnet.Stack.Effects
open MyTelnet.Stack.Handshake MyTelnet.Stack.Moves MyTelnet.Stack.Objects

/-- The handlers that can be called. -/
inductive Callback where
  | connected
  | data
  | closed
  deriving DecidableEq, Repr

def Event.callback? : Event → Option Callback
  | .onConnected => some .connected
  | .onDataReceived _ => some .data
  | .onConnectionClosed => some .closed
  | _ => none

/-- The vector that a call of the data handler receives. -/
def Event.notified? : Event → Option Bytes
  | .onDataReceived data => some data
  | _ => none

/-- The calls in a record, in order. -/
def callbackWord (record : List Event) : List Callback := record.filterMap Event.callback?

/-- The vectors that a record's data callbacks received. -/
def notified (record : List Event) : List Bytes := record.filterMap Event.notified?

/-- The vectors that a record's pushes put on `data_queue_`. -/
def pushed (record : List Event) : List Bytes := record.filterMap Event.queued?

def live : RegularExpression Callback := char .connected * star (char .data)

/-- ( connected data* closed? )? -/
def callbackGrammar : RegularExpression Callback := atMostOnce (live * atMostOnce (char .closed))

/-- The calls made for a connection object that is in this state. -/
def callsOf : Option TcpState → RegularExpression Callback
  | none => 1
  | some .synSent => 1
  | some .established => live
  | some .finWait1 => live
  | some .finWait2 => live
  | some .lastAck => live
  | some .closed => callbackGrammar
  | some _ => 0

theorem mem_live (w : List Callback) :
    w ∈ live.matches' ↔ ∃ v, (∀ c ∈ v, c = .data) ∧ w = .connected :: v := by
  rw [live, matches'_mul, matches'_char, Language.mem_mul]
  constructor
  · rintro ⟨-, rfl, v, hv, rfl⟩
    exact ⟨v, (mem_star_char _ v).mp hv, rfl⟩
  · rintro ⟨v, hv, rfl⟩
    exact ⟨[.connected], rfl, v, (mem_star_char _ v).mpr hv, rfl⟩

theorem live_snoc {w : List Callback} (h : w ∈ live.matches') :
    w ++ [.data] ∈ live.matches' := by
  obtain ⟨v, hv, rfl⟩ := (mem_live w).mp h
  apply (mem_live _).mpr
  refine ⟨v ++ [.data], ?_, rfl⟩
  rw [List.forall_mem_append]
  exact ⟨hv, by simp⟩

theorem mem_callbackGrammar (w : List Callback) :
    w ∈ callbackGrammar.matches' ↔
      w = [] ∨ w ∈ live.matches' ∨ ∃ v ∈ live.matches', w = v ++ [.closed] := by
  rw [callbackGrammar, mem_atMostOnce, matches'_mul, Language.mem_mul]
  constructor
  · rintro (h | ⟨v, hv, t, ht, rfl⟩)
    · exact .inl h
    · rcases (mem_atMostOnce _ t).mp ht with rfl | ht
      · rw [List.append_nil]
        exact .inr (.inl hv)
      · obtain rfl : t = [.closed] := ht
        exact .inr (.inr ⟨v, hv, rfl⟩)
  · rintro (h | h | ⟨v, hv, rfl⟩)
    · exact .inl h
    · exact .inr ⟨w, h, [], (mem_atMostOnce _ _).mpr (.inl rfl), List.append_nil w⟩
    · exact .inr ⟨v, hv, [.closed], (mem_atMostOnce _ _).mpr (.inr rfl), rfl⟩

theorem callsOf_subset {state : Option TcpState} {w : List Callback}
    (h : w ∈ (callsOf state).matches') : w ∈ callbackGrammar.matches' := by
  rw [mem_callbackGrammar]
  cases state with
  | none => exact .inl h
  | some state =>
    cases state with
    | closed => exact (mem_callbackGrammar w).mp h
    | synSent => exact .inl h
    | established | finWait1 | finWait2 | lastAck => exact .inr (.inl h)
    | closeWait | timeWait | closing => exact absurd h (Language.notMem_zero w)

/-- No call follows `closed`. -/
theorem callbackGrammar_closed_last {w before after : List Callback}
    (h : w ∈ callbackGrammar.matches') (hw : w = before ++ .closed :: after) : after = [] := by
  have hlive {v : List Callback} (hv : v ∈ live.matches') : Callback.closed ∉ v := by
    obtain ⟨v', hv', rfl⟩ := (mem_live v).mp hv
    intro hmem
    rcases List.mem_cons.mp hmem with h | h
    · exact absurd h (by decide)
    · exact absurd (hv' _ h) (by decide)
  rcases (mem_callbackGrammar w).mp h with rfl | hv | ⟨v, hv, rfl⟩
  · simp at hw
  · exact absurd (by rw [hw]; simp) (hlive hv)
  · obtain ⟨rest, -, hrest⟩ := append_eq_split hw (hlive hv)
    cases rest with
    | nil => exact (List.cons.inj hrest).2.symm
    | cons c rest => simp at hrest

/-! Each move continues the calls of its object. -/

/-- All three handlers are installed. -/
structure Installed (s : TcpStack) : Prop where
  onConnected : s.onConnected = true
  onDataReceived : s.onDataReceived = true
  onConnectionClosed : s.onConnectionClosed = true

theorem Installed.step {s : TcpStack} (h : Installed s) (a : Action) :
    Installed (Run.step s a) := by
  have hsettings := step_settings s a
  refine ⟨?_, ?_, ?_⟩
  · exact (congrArg (·.onConnected) hsettings).trans h.onConnected
  · exact (congrArg (·.onDataReceived) hsettings).trans h.onDataReceived
  · exact (congrArg (·.onConnectionClosed) hsettings).trans h.onConnectionClosed

/-- What the calls in the record of an object are when its connection is in this state. -/
structure Notified (state : Option TcpState) (record : List Event) : Prop where
  word : callbackWord record ∈ (callsOf state).matches'
  data : notified record = pushed record

theorem Notified.append {state state' : Option TcpState} {record events : List Event}
    (h : Notified state record) (hdata : notified events = pushed events)
    (hw : ∀ w ∈ (callsOf state).matches', w ++ callbackWord events ∈ (callsOf state').matches') :
    Notified state' (record ++ events) := by
  refine ⟨?_, ?_⟩
  · rw [callbackWord, List.filterMap_append]
    exact hw _ h.word
  · rw [notified, pushed, List.filterMap_append, List.filterMap_append]
    exact congrArg₂ (· ++ ·) h.data hdata

/-- Events that are neither calls nor pushes. -/
def Silent (events : List Event) : Prop :=
  callbackWord events = [] ∧ notified events = [] ∧ pushed events = []

theorem Silent.append {events events' : List Event} (h : Silent events) (h' : Silent events') :
    Silent (events ++ events') := by
  obtain ⟨hc, hn, hp⟩ := h
  obtain ⟨hc', hn', hp'⟩ := h'
  refine ⟨?_, ?_, ?_⟩
  · rw [callbackWord, List.filterMap_append]
    exact congrArg₂ (· ++ ·) hc hc'
  · rw [notified, List.filterMap_append]
    exact congrArg₂ (· ++ ·) hn hn'
  · rw [pushed, List.filterMap_append]
    exact congrArg₂ (· ++ ·) hp hp'

theorem Sent.silent {conn conn' : TcpConnection} {flags : UInt16} {payload : Bytes}
    {events : List Event} (h : Sent conn flags payload events conn') : Silent events := by
  cases h with
  | failed => exact ⟨rfl, rfl, rfl⟩
  | injected => exact ⟨rfl, rfl, rfl⟩

theorem Notified.silent {state state' : Option TcpState} {record events : List Event}
    (h : Notified state record) (hs : Silent events)
    (hw : ∀ w ∈ (callsOf state).matches', w ∈ (callsOf state').matches') :
    Notified state' (record ++ events) := by
  obtain ⟨hc, hn, hp⟩ := hs
  apply h.append (hn.trans hp.symm)
  intro w hmem
  rw [hc, List.append_nil]
  exact hw w hmem

theorem Move.notified {s : TcpStack} {conn conn' : TcpConnection} {a : Action}
    {events record : List Event} (h : Move s conn a events conn') (hall : Installed s)
    (hs : Notified (some conn.state) record) :
    Notified (some conn'.state) (record ++ events) := by
  have hclose {state : TcpState} {record' : List Event} (hlive : Notified (some state) record')
      (hcalls : callsOf (some state) = live) :
      Notified (some .closed) (record' ++ [.onConnectionClosed]) := by
    apply hlive.append rfl
    intro w hw
    rw [hcalls] at hw
    exact (mem_callbackGrammar _).mpr (.inr (.inr ⟨w, hw, rfl⟩))
  cases h with
  | idle | popped | unsent | ignored | unanswered =>
    exact hs.silent ⟨rfl, rfl, rfl⟩ fun w hw => hw
  | resentSyn state sends =>
    rw [Sent.state sends]
    exact hs.silent (Sent.silent sends) fun w hw => hw
  | @sentData data sent frame state result built =>
    rw [advanceSeq_same conn (tcpPsh ||| tcpAck) data]
    exact hs.silent ⟨rfl, rfl, rfl⟩ fun w hw => hw
  | finSent state =>
    rw [state] at hs
    exact hs.silent ⟨rfl, rfl, rfl⟩ fun w hw => hw
  | dropped => exact hs.silent ⟨rfl, rfl, rfl⟩ fun w hw => callsOf_subset hw
  | @opened packet sent tcp frame matched state =>
    rw [state] at hs
    rw [hall.onConnected]
    apply hs.append rfl
    intro w hw
    obtain rfl : w = [] := hw
    exact (mem_live _).mpr ⟨[], by simp, rfl⟩
  | @data packet sent tcp ack conn' matched state flags payload sends =>
    have hstate : conn'.state = .established := (Sent.state sends).trans state
    rw [hstate, ← List.append_assoc, hall.onDataReceived]
    rw [state] at hs
    have hacked : Notified (some .established) (record ++ ack) :=
      hs.silent (Sent.silent sends) fun w hw => hw
    apply hacked.append rfl
    intro w hw
    exact live_snoc hw
  | @passiveClose packet sent tcp ack fin conn₁ conn₂ matched state flags acks fins failed =>
    rw [state] at hs
    have hsilent : Silent ([.receivedFin] ++ ack ++ fin) :=
      (Silent.append ⟨rfl, rfl, rfl⟩ (Sent.silent acks)).append (Sent.silent fins)
    exact hs.silent hsilent fun w hw => hw
  | finAcked matched state =>
    rw [state] at hs
    exact hs.silent ⟨rfl, rfl, rfl⟩ fun w hw => hw
  | @activeClose packet sent tcp ack conn' matched state flags acks =>
    have hcalls : callsOf (some conn.state) = live := by
      rcases state with ⟨h, -⟩ | h
      · rw [h]
        rfl
      · rw [h]
        rfl
    have hsilent : Silent ([.receivedFin] ++ ack) :=
      Silent.append ⟨rfl, rfl, rfl⟩ (Sent.silent acks)
    have hacked : Notified (some conn.state) (record ++ .receivedFin :: ack) :=
      hs.silent hsilent fun w hw => hw
    rw [hall.onConnectionClosed, ← List.append_assoc]
    exact hclose hacked hcalls
  | finalAck matched state =>
    rw [hall.onConnectionClosed]
    exact hclose hs (by rw [state]; rfl)

/-- The calls made for one object follow the protocol, and the data handler receives exactly the
vectors that are pushed. -/
structure CalledBack (record : List Event) : Prop where
  word : callbackWord record ∈ callbackGrammar.matches'
  data : notified record = pushed record
  last : ∀ before after, callbackWord record = before ++ .closed :: after → after = []

theorem notified_invariant :
    ObjectInvariant Installed CalledBack
      (fun connection record => Notified (connection.map (·.state)) record) := by
  refine ⟨fun s a h => h.step a, ?_, ⟨rfl, rfl⟩, ?_, ?_, ?_⟩
  · intro connection record h
    have hword := callsOf_subset h.word
    exact ⟨hword, h.data, fun before after => callbackGrammar_closed_last hword⟩
  · intro record data h
    exact h.silent ⟨rfl, rfl, rfl⟩ fun w hw => hw
  · intro conn frame built
    exact ⟨rfl, rfl⟩
  · intro s conn a events conn' record hall hmove h
    exact Move.notified hmove hall h

/-- In every run with all handlers installed, the callbacks made for each connection object follow
the protocol. -/
theorem callbacks_follow_protocol {s : TcpStack} (h : Unused s) (hall : Installed s)
    (acts : List Action) : ∀ record ∈ objects (runStack s acts), CalledBack record :=
  notified_invariant.objects (notified_invariant.run h hall acts).2

def sampleListener : TcpStack :=
  { sampleClient with onConnected := true, onDataReceived := true, onConnectionClosed := true }

/-- A connection on which two vectors arrive, the first of them popped before the second, and
which both sides close. -/
def sampleConversation : List Action :=
  [.connect 0x0A000009 80 40000 1000 true 54, sampleReply,
    .processPacket (sampleSegment 0x0A000009 40000 5001 1001 (tcpPsh ||| tcpAck) [0x61])
      fun _ => 54,
    .waitForData,
    .processPacket (sampleSegment 0x0A000009 40000 5002 1001 (tcpPsh ||| tcpAck) [0x62])
      fun _ => 54,
    .closeConnection 54,
    .processPacket (sampleSegment 0x0A000009 40000 5003 1002 (tcpFin ||| tcpAck) [])
      fun _ => 54]

theorem callbacks_follow_protocol_sample :
    CalledBack (latestObject (runStack sampleListener sampleConversation)) := by
  have hunused : Unused sampleListener := ⟨rfl, rfl, rfl⟩
  have hall : Installed sampleListener := ⟨rfl, rfl, rfl⟩
  exact callbacks_follow_protocol hunused hall sampleConversation _ (by decide +kernel)

example : (objects (runStack sampleListener sampleConversation)).map callbackWord =
    [[.connected, .data, .data, .closed]] := by
  decide +kernel

end MyTelnet.Stack.Callbacks
