/- module: MyTelnet/Stack/Grammar
   scope: proofs
   digest: The flags that a connection object sends form a word of a regular language. -/

import MyTelnet.Base.Grammars
import MyTelnet.Stack.Objects

set_option autoImplicit false
set_option relaxedAutoImplicit false

namespace MyTelnet.Stack.Grammar

open RegularExpression
open MyTelnet.Base.ByteOrder MyTelnet.Base.Runs MyTelnet.Base.Grammars MyTelnet.Wire.Layers
open MyTelnet.Stack.State MyTelnet.Stack.Send MyTelnet.Stack.Run MyTelnet.Stack.Frames
open MyTelnet.Stack.Effects MyTelnet.Stack.Handshake MyTelnet.Stack.Moves MyTelnet.Stack.Objects

/-- The flags of the frames of a record. -/
def sentWord (record : List Event) : List UInt16 := (frames record).map frameFlags

abbrev pshAck : UInt16 := tcpPsh ||| tcpAck
abbrev finAck : UInt16 := tcpFin ||| tcpAck

/-! The language, and what a connection has sent of it in each state. -/

def syns : RegularExpression UInt16 := oneOrMore (char tcpSyn)

def transfer : RegularExpression UInt16 := char tcpAck * star (char tcpAck + char pshAck)

def finish : RegularExpression UInt16 := char finAck * atMostOnce (char tcpAck)

/-- SYN+ ( ACK (ACK | PSH+ACK)* ( FIN+ACK ACK? )? )? -/
def sentGrammar : RegularExpression UInt16 := syns * atMostOnce (transfer * atMostOnce finish)

def opened : RegularExpression UInt16 := syns * transfer

def finished : RegularExpression UInt16 := opened * char finAck

/-- The words that a connection object has sent when it is in this state. -/
def wordsOf : Option TcpState → RegularExpression UInt16
  | none => 1
  | some .synSent => syns
  | some .established => opened
  | some .finWait1 => finished
  | some .finWait2 => finished
  | some .lastAck => opened + finished
  | some .closed => sentGrammar
  | some _ => 0

theorem mem_syns (w : List UInt16) : w ∈ syns.matches' ↔ w ≠ [] ∧ ∀ f ∈ w, f = tcpSyn :=
  mem_oneOrMore_char tcpSyn w

theorem mem_opened (w : List UInt16) :
    w ∈ opened.matches' ↔ ∃ u v, u ∈ syns.matches' ∧ (∀ f ∈ v, f = tcpAck ∨ f = pshAck) ∧
      w = u ++ tcpAck :: v := by
  rw [opened, transfer, matches'_mul, matches'_mul, matches'_char, Language.mem_mul]
  constructor
  · rintro ⟨u, hu, -, ⟨-, rfl, v, hv, rfl⟩, rfl⟩
    exact ⟨u, v, hu, (mem_star_char_add_char _ _ v).mp hv, rfl⟩
  · rintro ⟨u, v, hu, hv, rfl⟩
    exact ⟨u, hu, tcpAck :: v, ⟨[tcpAck], rfl, v, (mem_star_char_add_char _ _ v).mpr hv, rfl⟩, rfl⟩

theorem mem_finished (w : List UInt16) :
    w ∈ finished.matches' ↔ ∃ v ∈ opened.matches', w = v ++ [finAck] := by
  rw [finished, matches'_mul, matches'_char, Language.mem_mul]
  constructor
  · rintro ⟨v, hv, -, rfl, rfl⟩
    exact ⟨v, hv, rfl⟩
  · rintro ⟨v, hv, rfl⟩
    exact ⟨v, hv, [finAck], rfl, rfl⟩

/-- A word of the language ends before its optional parts, or in one of them. -/
theorem mem_sentGrammar (w : List UInt16) :
    w ∈ sentGrammar.matches' ↔ w ∈ syns.matches' ∨ w ∈ opened.matches' ∨ w ∈ finished.matches' ∨
      ∃ v ∈ finished.matches', w = v ++ [tcpAck] := by
  have hlast : (∃ v ∈ finished.matches', w = v ++ [tcpAck]) ↔
      w ∈ finished.matches' * (char tcpAck).matches' := by
    rw [matches'_char, Language.mem_mul]
    constructor
    · rintro ⟨v, hv, rfl⟩
      exact ⟨v, hv, [tcpAck], rfl, rfl⟩
    · rintro ⟨v, hv, -, rfl, rfl⟩
      exact ⟨v, hv, rfl⟩
  rw [hlast]
  simp only [sentGrammar, finish, atMostOnce, finished, opened, matches'_mul, matches'_add,
    matches'_epsilon, mul_add, mul_one, mul_assoc, Language.mem_add]

theorem syns_snoc {w : List UInt16} (h : w ∈ syns.matches') : w ++ [tcpSyn] ∈ syns.matches' := by
  rw [mem_syns] at h ⊢
  refine ⟨by simp, ?_⟩
  rw [List.forall_mem_append]
  exact ⟨h.2, by simp⟩

theorem opened_start {w : List UInt16} (h : w ∈ syns.matches') :
    w ++ [tcpAck] ∈ opened.matches' :=
  (mem_opened _).mpr ⟨w, [], h, by simp, rfl⟩

theorem opened_snoc {w : List UInt16} {f : UInt16} (h : w ∈ opened.matches')
    (hf : f = tcpAck ∨ f = pshAck) : w ++ [f] ∈ opened.matches' := by
  obtain ⟨u, v, hu, hv, rfl⟩ := (mem_opened w).mp h
  apply (mem_opened _).mpr
  refine ⟨u, v ++ [f], hu, ?_, by simp⟩
  rw [List.forall_mem_append]
  exact ⟨hv, by simpa using hf⟩

theorem finished_start {w : List UInt16} (h : w ∈ opened.matches') :
    w ++ [finAck] ∈ finished.matches' :=
  (mem_finished _).mpr ⟨w, h, rfl⟩

/-- Whatever a connection has sent is a word of the language, even if it stops there. -/
theorem wordsOf_some {state : TcpState} {w : List UInt16}
    (h : w ∈ (wordsOf (some state)).matches') : w ∈ sentGrammar.matches' := by
  rw [mem_sentGrammar]
  cases state with
  | closed => exact (mem_sentGrammar w).mp h
  | synSent => exact .inl h
  | established => exact .inr (.inl h)
  | finWait1 | finWait2 => exact .inr (.inr (.inl h))
  | lastAck =>
    rcases (Language.mem_add _ _ w).mp h with h | h
    · exact .inr (.inl h)
    · exact .inr (.inr (.inl h))
  | closeWait | timeWait | closing => exact absurd h (Language.notMem_zero w)

/-! Each move continues the word of its object. -/

theorem sentWord_append (record events : List Event) :
    sentWord (record ++ events) = sentWord record ++ sentWord events := by
  rw [sentWord, frames_append, List.map_append]
  rfl

theorem Sent.word {conn conn' : TcpConnection} {flags : UInt16} {payload : Bytes}
    {events : List Event} (h : Sent conn flags payload events conn') :
    sentWord events = [] ∨ sentWord events = [flags &&& 0x3F] := by
  cases h with
  | failed => exact .inl rfl
  | injected built =>
    right
    show [frameFlags _] = _
    rw [built.flags]

/-- Only PSH+ACK segments carry data. -/
def OnlyPshCarries (record : List Event) : Prop :=
  ∀ frame ∈ frames record, framePayload frame ≠ [] → frameFlags frame = pshAck

theorem OnlyPshCarries.append {record events : List Event} (h : OnlyPshCarries record)
    (h' : OnlyPshCarries events) : OnlyPshCarries (record ++ events) := by
  unfold OnlyPshCarries
  rw [frames_append, List.forall_mem_append]
  exact ⟨h, h'⟩

theorem onlyPshCarries_quiet {events : List Event} (h : frames events = []) :
    OnlyPshCarries events := by
  unfold OnlyPshCarries
  rw [h]
  simp

theorem Sent.onlyPshCarries {conn conn' : TcpConnection} {flags : UInt16} {events : List Event}
    (h : Sent conn flags [] events conn') : OnlyPshCarries events := by
  cases h with
  | failed => exact onlyPshCarries_quiet rfl
  | injected built =>
    intro frame hmem hdata
    obtain rfl := List.mem_singleton.mp hmem
    exact absurd built.payload hdata

/-- What the record of an object whose connection is in this state looks like. -/
structure Spoken (state : Option TcpState) (record : List Event) : Prop where
  word : sentWord record ∈ (wordsOf state).matches'
  payload : OnlyPshCarries record

theorem Spoken.append {state state' : Option TcpState} {record events : List Event}
    (h : Spoken state record) (hp : OnlyPshCarries events)
    (hw : ∀ w ∈ (wordsOf state).matches', w ++ sentWord events ∈ (wordsOf state').matches') :
    Spoken state' (record ++ events) := by
  refine ⟨?_, h.payload.append hp⟩
  rw [sentWord_append]
  exact hw _ h.word

/-- A move that injects nothing. -/
theorem Spoken.quiet {state state' : Option TcpState} {record events : List Event}
    (h : Spoken state record) (hq : frames events = [])
    (hw : ∀ w ∈ (wordsOf state).matches', w ∈ (wordsOf state').matches') :
    Spoken state' (record ++ events) := by
  apply h.append (onlyPshCarries_quiet hq)
  intro w hmem
  rw [sentWord, hq, List.map_nil, List.append_nil]
  exact hw w hmem

/-- A move that tries to send a segment without payload. -/
theorem Spoken.sends {state state' : Option TcpState} {record events : List Event}
    {conn conn' : TcpConnection} {flags : UInt16} (h : Spoken state record)
    (hsent : Sent conn flags [] events conn')
    (stay : ∀ w ∈ (wordsOf state).matches', w ∈ (wordsOf state').matches')
    (grow : ∀ w ∈ (wordsOf state).matches', w ++ [flags &&& 0x3F] ∈ (wordsOf state').matches') :
    Spoken state' (record ++ events) := by
  apply h.append (Sent.onlyPshCarries hsent)
  intro w hw
  rcases Sent.word hsent with hnone | hone
  · rw [hnone, List.append_nil]
    exact stay w hw
  · rw [hone]
    exact grow w hw

theorem Spoken.injects {state state' : Option TcpState} {record : List Event}
    {conn : TcpConnection} {flags : UInt16} {payload frame : Bytes} (h : Spoken state record)
    (built : FrameOf conn flags payload frame) (hp : payload ≠ [] → flags &&& 0x3F = pshAck)
    (grow : ∀ w ∈ (wordsOf state).matches', w ++ [flags &&& 0x3F] ∈ (wordsOf state').matches') :
    Spoken state' (record ++ [.injected frame]) := by
  apply h.append
  · intro frame' hmem hdata
    rw [List.mem_singleton.mp hmem] at hdata ⊢
    rw [built.payload] at hdata
    rw [built.flags]
    exact hp hdata
  · intro w hw
    show w ++ [frameFlags frame] ∈ _
    rw [built.flags]
    exact grow w hw

theorem Move.spoken {s : TcpStack} {conn conn' : TcpConnection} {a : Action}
    {events record : List Event} (h : Move s conn a events conn')
    (hs : Spoken (some conn.state) record) : Spoken (some conn'.state) (record ++ events) := by
  cases h with
  | idle | popped | unsent | ignored | unanswered => exact hs.quiet rfl fun w hw => hw
  | resentSyn state sends =>
    rw [Sent.state sends, state]
    rw [state] at hs
    exact hs.sends sends (fun w hw => hw) fun w hw => syns_snoc hw
  | @sentData data sent frame state result built =>
    have hstate : (advanceSeq conn (tcpPsh ||| tcpAck) data).state = .established := by
      rw [advanceSeq_same conn (tcpPsh ||| tcpAck) data]
      exact state
    rw [hstate]
    rw [state] at hs
    exact hs.injects built (fun _ => rfl) fun w hw => opened_snoc hw (.inr rfl)
  | finSent state built =>
    rw [state] at hs
    exact hs.injects built (by simp) fun w hw => finished_start hw
  | dropped => exact hs.quiet rfl fun w hw => wordsOf_some hw
  | opened matched state flags answered built =>
    rw [state] at hs
    rw [List.append_cons]
    have hopen : Spoken (some .established) _ :=
      hs.injects built (by simp) fun w hw => opened_start hw
    exact hopen.quiet (frames_notice rfl) fun w hw => hw
  | @data packet sent tcp ack conn' matched state flags payload sends =>
    have hstate : conn'.state = .established := (Sent.state sends).trans state
    rw [hstate, ← List.append_assoc]
    rw [state] at hs
    have hacked : Spoken (some .established) (record ++ ack) :=
      hs.sends sends (fun w hw => hw) fun w hw => opened_snoc hw (.inl rfl)
    apply hacked.quiet _ fun w hw => hw
    exact frames_notice rfl
  | passiveClose matched state flags acks fins failed =>
    rw [state] at hs
    rw [List.cons_append, List.append_cons, ← List.append_assoc]
    have hnoted : Spoken (some .established) (record ++ [.receivedFin]) :=
      hs.quiet rfl fun w hw => hw
    have hacked : Spoken (some .established) _ :=
      hnoted.sends acks (fun w hw => hw) fun w hw => opened_snoc hw (.inl rfl)
    apply hacked.sends fins
    · intro w hw
      exact (Language.mem_add _ _ w).mpr (.inl hw)
    · intro w hw
      exact (Language.mem_add _ _ _).mpr (.inr (finished_start hw))
  | finAcked matched state =>
    rw [state] at hs
    exact hs.quiet rfl fun w hw => hw
  | @activeClose packet sent tcp ack conn' matched state flags acks =>
    rw [List.cons_append, List.append_cons, ← List.append_assoc]
    have hnoted : Spoken (some .finWait1) (record ++ [.receivedFin]) := by
      apply hs.quiet rfl
      intro w hw
      rcases state with ⟨h, -⟩ | h
      · rw [h] at hw
        exact hw
      · rw [h] at hw
        exact hw
    have hacked : Spoken (some .closed) (record ++ [.receivedFin] ++ ack) := by
      apply hnoted.sends acks
      · intro w hw
        exact (mem_sentGrammar w).mpr (.inr (.inr (.inl hw)))
      · intro w hw
        exact (mem_sentGrammar _).mpr (.inr (.inr (.inr ⟨w, hw, rfl⟩)))
    exact hacked.quiet (frames_notice rfl) fun w hw => hw
  | finalAck => exact hs.quiet (frames_notice rfl) fun w hw => wordsOf_some hw

/-! The whole record of an object. -/

/-- What an object sends: nothing if its first SYN failed, else a word of the language, in which
only PSH+ACK segments carry data. -/
structure Grammatical (record : List Event) : Prop where
  word : sentWord record = [] ∨ sentWord record ∈ sentGrammar.matches'
  payload : OnlyPshCarries record
  oneFin : (sentWord record).count finAck ≤ 1
  data : ∀ before after, sentWord record = before ++ pshAck :: after →
    tcpAck ∈ before ∧ finAck ∉ before

/-- The three parts of a word: SYNs, the transfer from the handshake ACK on, and the end. -/
theorem sentGrammar_parts {w : List UInt16} (h : w ∈ sentGrammar.matches') :
    ∃ u v t, w = u ++ v ++ t ∧ (∀ f ∈ u, f = tcpSyn) ∧
      (v = [] ∧ t = [] ∨ ∃ v', v = tcpAck :: v' ∧ (∀ f ∈ v', f = tcpAck ∨ f = pshAck) ∧
        (t = [] ∨ t = [finAck] ∨ t = [finAck, tcpAck])) := by
  have hopened {x : List UInt16} (hx : x ∈ opened.matches') :
      ∃ u v', x = u ++ tcpAck :: v' ∧ (∀ f ∈ u, f = tcpSyn) ∧
        ∀ f ∈ v', f = tcpAck ∨ f = pshAck := by
    obtain ⟨u, v', hu, hv', rfl⟩ := (mem_opened x).mp hx
    exact ⟨u, v', rfl, ((mem_syns u).mp hu).2, hv'⟩
  rcases (mem_sentGrammar w).mp h with hw | hw | hw | ⟨y, hy, rfl⟩
  · exact ⟨w, [], [], by simp, ((mem_syns w).mp hw).2, .inl ⟨rfl, rfl⟩⟩
  · obtain ⟨u, v', rfl, hu, hv'⟩ := hopened hw
    exact ⟨u, _, [], by simp, hu, .inr ⟨v', rfl, hv', .inl rfl⟩⟩
  · obtain ⟨x, hx, rfl⟩ := (mem_finished w).mp hw
    obtain ⟨u, v', rfl, hu, hv'⟩ := hopened hx
    exact ⟨u, _, _, rfl, hu, .inr ⟨v', rfl, hv', .inr (.inl rfl)⟩⟩
  · obtain ⟨x, hx, rfl⟩ := (mem_finished y).mp hy
    obtain ⟨u, v', rfl, hu, hv'⟩ := hopened hx
    exact ⟨u, _, _, List.append_assoc _ _ _, hu, .inr ⟨v', rfl, hv', .inr (.inr rfl)⟩⟩

theorem finAck_notMem_transfer {v : List UInt16} (h : ∀ f ∈ v, f = tcpAck ∨ f = pshAck) :
    finAck ∉ v := by
  intro hmem
  rcases h finAck hmem with h | h
  · exact absurd h (by decide)
  · exact absurd h (by decide)

theorem notMem_syns {u : List UInt16} (h : ∀ f ∈ u, f = tcpSyn) {f : UInt16} (hf : f ≠ tcpSyn) :
    f ∉ u := by
  intro hmem
  exact hf (h f hmem)

theorem sentGrammar_oneFin {w : List UInt16} (h : w ∈ sentGrammar.matches') :
    w.count finAck ≤ 1 := by
  obtain ⟨u, v, t, rfl, hu, hend⟩ := sentGrammar_parts h
  have hcount : u.count finAck = 0 := List.count_eq_zero.mpr (notMem_syns hu (by decide))
  rw [List.count_append, List.count_append, hcount]
  rcases hend with ⟨rfl, rfl⟩ | ⟨v', rfl, hv', ht⟩
  · simp
  · have hv : (tcpAck :: v').count finAck = 0 := by
      apply List.count_eq_zero.mpr
      apply finAck_notMem_transfer
      rw [List.forall_mem_cons]
      exact ⟨.inl rfl, hv'⟩
    rw [hv]
    rcases ht with rfl | rfl | rfl
    · simp
    · simp
    · decide

theorem sentGrammar_data {w before after : List UInt16} (h : w ∈ sentGrammar.matches')
    (hw : w = before ++ pshAck :: after) : tcpAck ∈ before ∧ finAck ∉ before := by
  obtain ⟨u, v, t, rfl, hu, hend⟩ := sentGrammar_parts h
  rw [List.append_assoc] at hw
  obtain ⟨rest, rfl, hrest⟩ := append_eq_split hw (notMem_syns hu (by decide))
  rcases hend with ⟨rfl, rfl⟩ | ⟨v', rfl, hv', ht⟩
  · simp at hrest
  · have hsplit : [tcpAck] ++ (v' ++ t) = rest ++ pshAck :: after := hrest
    obtain ⟨rest', rfl, hrest'⟩ := append_eq_split hsplit (by decide)
    refine ⟨by simp, ?_⟩
    -- the end has no PSH+ACK, so what stands before one is part of the transfer
    have hprefix : ∀ f ∈ rest', f = tcpAck ∨ f = pshAck := by
      rcases List.append_eq_append_iff.mp hrest' with ⟨more, hmore, ht'⟩ | ⟨more, hmore, -⟩
      · have hend : pshAck ∉ t := by
          rcases ht with rfl | rfl | rfl <;> decide
        exact absurd (by rw [ht']; simp) hend
      · intro f hf
        exact hv' f (by rw [hmore]; exact List.mem_append_left _ hf)
    rw [List.mem_append, List.mem_append, not_or, not_or]
    exact ⟨notMem_syns hu (by decide), by decide, finAck_notMem_transfer hprefix⟩

theorem Spoken.grammatical {state : Option TcpState} {record : List Event}
    (h : Spoken state record) : Grammatical record := by
  have hword : sentWord record = [] ∨ sentWord record ∈ sentGrammar.matches' := by
    cases state with
    | none => exact .inl h.word
    | some state => exact .inr (wordsOf_some h.word)
  refine ⟨hword, h.payload, ?_, ?_⟩
  · rcases hword with hw | hw
    · simp [hw]
    · exact sentGrammar_oneFin hw
  · intro before after hsplit
    rcases hword with hw | hw
    · simp [hw] at hsplit
    · exact sentGrammar_data hw hsplit

theorem spoken_invariant :
    ObjectInvariant (fun _ => True) Grammatical
      (fun connection record => Spoken (connection.map (·.state)) record) := by
  refine ⟨fun _ _ _ => trivial, fun _ _ h => h.grammatical, ⟨rfl, ?_⟩, ?_, ?_, ?_⟩
  · exact onlyPshCarries_quiet rfl
  · intro record data h
    exact h.quiet rfl fun w hw => hw
  · intro conn frame built
    have hstart : Spoken none [] := ⟨rfl, onlyPshCarries_quiet rfl⟩
    apply hstart.injects built (by simp)
    intro w hw
    obtain rfl : w = [] := hw
    refine (mem_syns _).mpr ⟨by simp, ?_⟩
    intro f hf
    rw [List.mem_singleton.mp hf]
    rfl
  · intro s conn a events conn' record _ hmove h
    exact Move.spoken hmove h

/-! Silence after the close. -/

/-- The step creates no connection object. -/
def KeepsObject (s : TcpStack) (a : Action) : Prop :=
  (step s a).trace.count .opened = s.trace.count .opened

theorem closed_step {s : TcpStack} {conn : TcpConnection} {a : Action}
    (hc : s.currentConnection = some conn) (hclosed : conn.state = .closed)
    (ha : KeepsObject s a) :
    (∃ conn', (step s a).currentConnection = some conn' ∧ conn'.state = .closed) ∧
      injectedFrames (step s a) = injectedFrames s := by
  obtain ⟨connection, events, hstage, hconn, htrace⟩ := step_stage s a
  unfold KeepsObject at ha
  have hinj : injectedFrames (step s a) = injectedFrames s ++ frames events :=
    injectedFrames_of_trace htrace
  rw [htrace, List.count_append] at ha
  rw [hconn, hinj]
  cases hstage with
  | moved installed keeps move =>
    obtain rfl := Option.some.inj (installed.symm.trans hc)
    cases move with
    | idle | popped | unsent | ignored => exact ⟨⟨_, rfl, hclosed⟩, List.append_nil _⟩
    | dropped => exact ⟨⟨_, rfl, rfl⟩, List.append_nil _⟩
    | resentSyn state | sentData state | finSent state | unanswered _ state | opened _ state
    | data _ state | passiveClose _ state | finAcked _ state | finalAck _ state =>
      rw [hclosed] at state
      exact absurd state (by simp)
    | activeClose matched state =>
      rw [hclosed] at state
      exact absurd state (by simp)
  | alone absent => exact absurd (absent.symm.trans hc) (by simp)
  | refused => exact ⟨⟨conn, hc, hclosed⟩, List.append_nil _⟩
  | failed | connected => simp at ha

theorem closed_run {s : TcpStack} {conn : TcpConnection} {acts : List Action}
    (hc : s.currentConnection = some conn) (hclosed : conn.state = .closed)
    (ha : EachStep step KeepsObject s acts) :
    injectedFrames (runStack s acts) = injectedFrames s := by
  induction acts generalizing s conn with
  | nil => rfl
  | cons a acts ih =>
    obtain ⟨⟨conn', hc', hclosed'⟩, hinj⟩ := closed_step hc hclosed ha.1
    exact (ih hc' hclosed' ha.2).trans hinj

/-- In every run, what each connection object sends is grammatical, what an installed one has
sent is not empty, and a closed one sends nothing more. -/
theorem sent_grammatical {s : TcpStack} (h : Unused s) (acts : List Action) :
    (∀ record ∈ objects (runStack s acts), Grammatical record) ∧
      ((runStack s acts).currentConnection ≠ none →
        sentWord (latestObject (runStack s acts)) ∈ sentGrammar.matches') ∧
      ∀ pre more conn, acts = pre ++ more → (runStack s pre).currentConnection = some conn →
        conn.state = .closed → EachStep step KeepsObject (runStack s pre) more →
        injectedFrames (runStack s acts) = injectedFrames (runStack s pre) := by
  have hkept := (spoken_invariant.run h trivial acts).2
  refine ⟨spoken_invariant.objects hkept, ?_, ?_⟩
  · intro hne
    have hlatest := hkept.latest
    cases hc : (runStack s acts).currentConnection with
    | none => exact absurd hc hne
    | some conn =>
      rw [hc] at hlatest
      exact wordsOf_some hlatest.word
  · rintro pre more conn rfl hc hclosed hkeeps
    rw [runStack, run_append]
    exact closed_run hc hclosed hkeeps

theorem sampleClient_unused : Unused sampleClient := ⟨rfl, rfl, rfl⟩

def sampleConnect : Action := .connect 0x0A000009 80 40000 1000 true 54

/-- A connection that is opened, used and closed by the user. -/
def sampleLife : List Action :=
  [sampleConnect, sampleReply, .sendData [0x47] 55, .closeConnection 54, .closeConnection 54]

theorem sent_grammatical_sample :
    (∀ record ∈ objects (runStack sampleClient sampleLife), Grammatical record) ∧
      ((runStack sampleClient sampleLife).currentConnection ≠ none →
        sentWord (latestObject (runStack sampleClient sampleLife)) ∈ sentGrammar.matches') ∧
      ∀ pre more conn, sampleLife = pre ++ more →
        (runStack sampleClient pre).currentConnection = some conn → conn.state = .closed →
        EachStep step KeepsObject (runStack sampleClient pre) more →
        injectedFrames (runStack sampleClient sampleLife) =
          injectedFrames (runStack sampleClient pre) :=
  sent_grammatical sampleClient_unused sampleLife

/-- The object of a `connect` whose SYN was not injected has sent the empty word. -/
theorem refused_object_silent :
    ∃ record ∈ objects (runStack sampleClient [.connect 0x0A000009 80 40000 1000 true (-1)]),
      sentWord record ∉ sentGrammar.matches' := by
  decide +kernel

end MyTelnet.Stack.Grammar
