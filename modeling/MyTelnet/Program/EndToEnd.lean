/- module: MyTelnet/Program/EndToEnd
   scope: proofs
   digest: From the frames of an honest peer to the exit status of the process and its file. -/

import MyTelnet.Program.Cleanup
import MyTelnet.Program.Outcomes
import MyTelnet.Stack.LifetimeRuns

set_option autoImplicit false
set_option relaxedAutoImplicit false

namespace MyTelnet.Program.EndToEnd

open MyTelnet.Base.ByteOrder MyTelnet.Base.Runs MyTelnet.Wire.Memory MyTelnet.Wire.Layers
open MyTelnet.Wire.Parsers MyTelnet.Stack.State MyTelnet.Stack.Operations MyTelnet.Stack.Receive
open MyTelnet.Stack.Send MyTelnet.Stack.Run MyTelnet.Stack.Lifetimes MyTelnet.Stack.LifetimeRuns
open MyTelnet.Http.Strings MyTelnet.Http.Client MyTelnet.Http.Download MyTelnet.Http.Sessions
open MyTelnet.Http.Timing
open MyTelnet.Http.Delivery MyTelnet.Program.Arguments MyTelnet.Program.Main
open MyTelnet.Program.Processes MyTelnet.Program.Cleanup MyTelnet.Program.Outcomes

/-- The packet of the frame that the capture thread is about to handle. -/
def handedOn (l : Lifetime) : List Packet :=
  match l.capture with
  | .handling _ frame =>
    match (captureFrame frame).2 with
    | .ok (some packet) => [packet]
    | _ => []
  | _ => []

/-- What the capture thread hands on at a turn brings the connection the next part of `peer`, or no
data. -/
def FramesFeed (peer : Bytes) (p : Process) : Processes.Turn → Prop
  | .user _ => True
  | .capture _ => ∀ packet ∈ handedOn p.life, BringsNext peer p.life.stack packet

instance (peer : Bytes) (p : Process) (t : Processes.Turn) : Decidable (FramesFeed peer p t) :=
  match t with
  | .user _ => .isTrue trivial
  | .capture _ => inferInstanceAs (Decidable (∀ packet ∈ handedOn p.life, _))

/-- The process has only bytes of the peer's stream, from its start on. -/
def FedBy (peer : Bytes) (p : Process) : Prop :=
  match p.pc with
  | .initializing | .opening | .connecting => Fed peer ⟨p.life.stack, .connecting, p.chunks⟩
  | .getting call => Fed peer ⟨p.life.stack, call, p.chunks⟩
  | _ => p.chunks.flatten <+: peer

section Objects

variable {peer : Bytes}

/-- Before it connects, a call depends on the connection and the queue alone. -/
theorem fed_of_same {s s' : TcpStack} {chunks : List Bytes}
    (hfed : Fed peer ⟨s, .connecting, chunks⟩) (hconn : s'.currentConnection = s.currentConnection)
    (hqueue : s'.dataQueue = s.dataQueue) : Fed peer ⟨s', .connecting, chunks⟩ := by
  have hgathered : gathered ⟨s', .connecting, chunks⟩ = gathered ⟨s, .connecting, chunks⟩ := by
    rw [gathered, gathered, hqueue]
  obtain ⟨hnone, hempty⟩ := hfed.connecting rfl
  refine ⟨hgathered ▸ hfed.isPrefix, ?_, fun _ => ⟨hconn.trans hnone, hgathered.trans hempty⟩⟩
  intro conn hc
  rw [hconn, hnone] at hc
  cases hc

theorem fed_stack {g : Session} {s : TcpStack} (hfed : Fed peer g) (hstack : s = g.stack) :
    Fed peer ⟨s, g.pc, g.chunks⟩ := by
  rw [hstack]
  exact hfed

theorem fed_tick {p : Process} {pc : Http.Sessions.Pc} (hfed : Fed peer (p.timed pc).session)
    (c : Call) (pass : Pass) : Fed peer (tick c (p.timed pc) pass).session := by
  rw [tick_session]
  exact hfed.advance c _

/-- What the capture thread does is to hand on a packet, or nothing that a call notices. -/
theorem fed_capture {l : Lifetime} {pc : Http.Sessions.Pc} {chunks : List Bytes}
    (hfed : Fed peer ⟨l.stack, pc, chunks⟩) (hlen : peer.length < 2 ^ 31) (polled : Polled)
    (hframes : ∀ packet ∈ handedOn l, BringsNext peer l.stack packet) :
    Fed peer ⟨(l.advanceCapture polled).stack, pc, chunks⟩ := by
  rw [(capture_stack l polled).1]
  cases hc : l.capture with
  | handling packetsProcessed frame =>
    simp only [handedOn, hc] at hframes
    simp only [threadActions, hc, frameActions]
    split
    · next packet hpacket =>
      rw [hpacket] at hframes
      exact hfed.packet hlen polled.sent (hframes packet (List.mem_singleton_self packet))
    · exact hfed
    · exact hfed
    · exact hfed
  | _ => simpa [threadActions, hc] using hfed

end Objects

section Turns

variable {h : Start} {p : Process} {peer : Bytes}

theorem FedBy.advance (hf : FedBy peer p) (hs : Steered h p)
    (hdefined : p.life.capture ≠ .undefined) (a : Processes.Answers) :
    FedBy peer (Processes.advance h p a) := by
  have hmoves := advance_moves h p a
  have hstands := hs.stands
  generalize Processes.advance h p a = p' at hmoves
  cases hmoves with
  | initializes pc user =>
    simp only [Stands, pc] at hstands
    simp only [FedBy, pc] at hf ⊢
    have hother : ∀ args, p.life.user ≠ .installing args := by
      intro args huser
      rw [huser] at hstands
      exact hstands
    obtain ⟨hconn, hqueue⟩ := proceed_unconnected hother a.machine
    exact fed_of_same hf hconn hqueue
  | prepares pc user early =>
    simp only [FedBy, pc] at hf ⊢
    obtain ⟨hconn, hqueue⟩ := proceed_unconnected early a.machine
    exact fed_of_same hf hconn hqueue
  | initialized pc | opens pc =>
    simp only [FedBy, pc] at hf
    exact hf
  | uninitialized pc | cannotOpen pc =>
    simp only [FedBy, pc] at hf
    exact hf.chunks_isPrefix
  | connects pc args =>
    simp only [Stands, pc] at hstands
    simp only [FedBy, pc] at hf ⊢
    have hstack : (Stack.Lifetimes.turn p.life (.call (.connect args))).stack = p.life.stack := by
      rw [turn_call hdefined hstands]
      exact (call_stack p.life (.connect args)).1
    rw [hstack]
    exact hf
  | unprepared pc =>
    simp only [FedBy, pc] at hf
    exact fed_stack (fed_tick hf _ _) (tick_unset _ p a.pass).symm
  | installs pc args user =>
    simp only [Stands, pc] at hstands
    simp only [FedBy, pc] at hf
    exact fed_stack (fed_tick hf _ _) (tick_installed user hstands a)
  | receives buffer pc | gets call pc =>
    simp only [FedBy, pc] at hf
    exact fed_tick hf _ a.pass
  | succeeds pc | aborts e pc =>
    simp only [FedBy, pc] at hf
    exact hf.chunks_isPrefix
  | fails pc =>
    rcases pc with pc | pc
    · simp only [FedBy, pc] at hf
      exact hf.chunks_isPrefix
    · simp only [FedBy, pc] at hf
      exact hf.chunks_isPrefix
  | closes pc | leaves status pc | destroys status pc | exits status pc =>
    simp only [FedBy, pc] at hf
    exact hf
  | joins status pc => simpa only [FedBy, pc] using hf
  | ended => exact hf

theorem FedBy.capture (hf : FedBy peer p) (hlen : peer.length < 2 ^ 31) (polled : Polled)
    (hframes : FramesFeed peer p (.capture polled)) :
    FedBy peer { p with life := p.life.advanceCapture polled } := by
  have hnext {pc : Http.Sessions.Pc} (hfed : Fed peer ⟨p.life.stack, pc, p.chunks⟩) :
      Fed peer ⟨(p.life.advanceCapture polled).stack, pc, p.chunks⟩ :=
    fed_capture hfed hlen polled hframes
  cases hpc : p.pc with
  | initializing | opening | connecting | getting =>
    simp only [FedBy, hpc] at hf ⊢
    exact hnext hf
  | _ => simpa only [FedBy, hpc] using hf

theorem FedBy.turn (hf : FedBy peer p) (hs : Steered h p) (hlen : peer.length < 2 ^ 31)
    {t : Processes.Turn} (hframes : FramesFeed peer p t) : FedBy peer (Processes.turn h p t) := by
  refine turn_of_progress h hf fun hdefined => ?_
  cases t with
  | user a => exact hf.advance hs hdefined a
  | capture polled =>
    cases hpc : p.pc with
    | aborted e => simpa only [Processes.progress, hpc] using hf
    | _ => simpa only [Processes.progress, hpc] using hf.capture hlen polled hframes

theorem FedBy.chunks_isPrefix (hf : FedBy peer p) : p.chunks.flatten <+: peer := by
  cases hpc : p.pc with
  | initializing | opening | connecting | getting =>
    simp only [FedBy, hpc] at hf
    exact hf.chunks_isPrefix
  | _ => simpa only [FedBy, hpc] using hf

end Turns

theorem fedBy_started (h : Start) (peer : Bytes) : FedBy peer (started h) := by
  have hnil : ([] : List Bytes).flatten <+: peer := List.nil_prefix
  have hfresh : Fed peer ⟨constructed.stack, .connecting, []⟩ := by
    refine ⟨List.nil_prefix, ?_, fun _ => ⟨rfl, rfl⟩⟩
    rintro conn ⟨⟩
  unfold started
  dsimp only
  cases parseArguments defaults h.args with
  | help | invalidPort => exact hnil
  | settings s =>
    dsimp only
    split
    · exact hnil
    · exact hfresh

/-- In every run against an honest peer, the process has taken the beginning of its stream. -/
theorem process_isPrefix (h : Start) {peer : Bytes} (hlen : peer.length < 2 ^ 31)
    {turns : List Processes.Turn}
    (hpeer : EachStep (Processes.turn h) (FramesFeed peer) (started h) turns) :
    (process h turns).chunks.flatten <+: peer := by
  have hkeep : ∀ p t, (Steered h p ∧ FedBy peer p) → FramesFeed peer p t →
      Steered h (Processes.turn h p t) ∧ FedBy peer (Processes.turn h p t) :=
    fun p t hp ht => ⟨hp.1.turn t, hp.2.turn hp.1 hlen ht⟩
  exact (run_invariant hkeep ⟨steered_started h, fedBy_started h peer⟩ hpeer).2.chunks_isPrefix

/-! What the stream says about the outcome. -/

/-- What stands in the local file comes from a response of the peer with status 200. -/
def FromBody (peer : Bytes) (locals : HttpResponse) (content : Bytes) : Prop :=
  content ≠ [] → ∃ whole, parseHttpResponse peer locals = .ok (true, whole) ∧
    whole.statusCode = 200 ∧ content <+: whole.body

section Outcomes

variable {h : Start} {peer : Bytes} {chunks : List Bytes} {files : Directory}

theorem downloaded_fromBody {c : Call} {result : Checked Bool} {file : Bytes}
    (hdone : Downloaded c chunks result file) (hbegins : chunks.flatten <+: peer) :
    FromBody peer c.locals file := by
  obtain ⟨content, hcontent, hbody⟩ :=
    content_of_prefix (t := ⟨true, true, true, chunks⟩) hbegins c.locals c.host c.path none
  rw [hdone none] at hcontent
  obtain rfl := Option.some.inj hcontent
  exact hbody

theorem refines_fromBody {c : Call} {pc : Http.Sessions.Pc} {callbacks : List HttpResponse}
    (hr : Refines c pc chunks callbacks) (hbegins : chunks.flatten <+: peer) :
    FromBody peer c.locals (callbacks.foldl fileCallback []) := by
  have hquiet (hnone : callbacks = []) :
      FromBody peer c.locals (callbacks.foldl fileCallback []) := by
    rw [hnone]
    exact fun hwritten => absurd rfl hwritten
  cases pc with
  | connecting | waiting | sending => exact hquiet hr.2
  | receiving | thrown => exact hquiet hr.1
  | refused | gaveUp | closing | leaving | returned =>
    exact downloaded_fromBody (downloaded_received hr) hbegins

theorem asked_fromBody {s : Settings} {call : Http.Sessions.Pc}
    (hasked : Asked h s chunks files call) (hbegins : chunks.flatten <+: peer) {name : Bytes}
    (hchanged : files name ≠ h.files name) :
    ∃ content, files name = some content ∧ FromBody peer h.locals content := by
  obtain ⟨callbacks, rfl, hr⟩ := hasked.refines
  by_cases hname : name = localFilename s.filePath
  · rw [hname]
    exact ⟨_, Function.update_self _ _ _, refines_fromBody hr hbegins⟩
  · rw [Function.update_of_ne hname] at hchanged
    exact absurd rfl hchanged

/-- An outcome is that of a download, unless it came to none. -/
theorem outcome_cases {result : Checked Nat} (houtcome : Outcome h chunks files result) :
    (files = h.files ∧
        result = .ok (if parseArguments defaults h.args = .help then 0 else 1)) ∨
      ∃ t name host path, t.chunks = chunks ∧
        files = Function.update h.files name
          (downloadFile true (h.files name) t h.locals host path).2 ∧
        result = (downloadFile true (h.files name) t h.locals host path).1.map
          fun success => if success then 0 else 1 := by
  obtain ⟨w, -, hlocals, hserver, hmain⟩ := houtcome
  by_cases hdownloads : ∃ s, Downloads h.args w s
  · obtain ⟨s, hs⟩ := hdownloads
    rw [main_downloads h.files hs, hlocals] at hmain
    obtain ⟨hresult, hfiles⟩ := Prod.mk.inj hmain
    have hchunks : (w.server s.serverIp s.serverPort).chunks = chunks := by rw [hserver]
    exact .inr ⟨w.server s.serverIp s.serverPort, localFilename s.filePath, s.serverIp, s.filePath,
      hchunks, hfiles.symm, hresult.symm⟩
  · rw [main_stops h.files (not_exists.mp hdownloads)] at hmain
    obtain ⟨hresult, hfiles⟩ := Prod.mk.inj hmain
    exact .inl ⟨hfiles.symm, hresult.symm⟩

theorem outcome_fromBody {result : Checked Nat} (houtcome : Outcome h chunks files result)
    (hbegins : chunks.flatten <+: peer) {name : Bytes} (hchanged : files name ≠ h.files name) :
    ∃ content, files name = some content ∧ FromBody peer h.locals content := by
  rcases outcome_cases houtcome with ⟨rfl, -⟩ | ⟨t, file, host, path, rfl, rfl, -⟩
  · exact absurd rfl hchanged
  · by_cases hname : name = file
    · rw [hname, Function.update_self]
      exact content_of_prefix hbegins h.locals host path _
    · rw [Function.update_of_ne hname] at hchanged
      exact absurd rfl hchanged

theorem outcome_zero (houtcome : Outcome h chunks files (.ok 0)) (hbegins : chunks.flatten <+: peer)
    (hhelp : parseArguments defaults h.args ≠ .help) :
    ∃ whole, parseHttpResponse peer h.locals = .ok (true, whole) := by
  rcases outcome_cases houtcome with ⟨-, hresult⟩ | ⟨t, file, host, path, rfl, -, hresult⟩
  · rw [if_neg hhelp] at hresult
    cases hresult
  · cases hdownload : (downloadFile true (h.files file) t h.locals host path).1 with
    | error e =>
      rw [hdownload] at hresult
      cases hresult
    | ok success =>
      cases success with
      | true => exact completed_of_prefix hbegins hdownload
      | false =>
        rw [hdownload] at hresult
        cases hresult

theorem outcome_thrown {e : Fault} (houtcome : Outcome h chunks files (.error e))
    (hbegins : chunks.flatten <+: peer) : parseHttpResponse peer h.locals = .error e := by
  rcases outcome_cases houtcome with ⟨-, hresult⟩ | ⟨t, file, host, path, rfl, -, hresult⟩
  · cases hresult
  · cases hdownload : (downloadFile true (h.files file) t h.locals host path).1 with
    | error e' =>
      rw [hdownload] at hresult
      obtain rfl := Except.error.inj hresult
      exact raised_of_prefix hbegins hdownload
    | ok success =>
      rw [hdownload] at hresult
      cases hresult

theorem mirrored_fromBody {p : Process} (hm : Mirrored h p) (hbegins : p.chunks.flatten <+: peer)
    {name : Bytes} (hchanged : p.files name ≠ h.files name) :
    ∃ content, p.files name = some content ∧ FromBody peer h.locals content := by
  cases hpc : p.pc with
  | initializing | opening =>
    simp only [Mirrored, hpc] at hm
    exact absurd (congrFun hm.2.2 name) hchanged
  | connecting | getting =>
    simp only [Mirrored, hpc] at hm
    exact asked_fromBody hm hbegins hchanged
  | closing | leaving | destroying | joining | exited | aborted =>
    simp only [Mirrored, hpc] at hm
    exact outcome_fromBody hm hbegins hchanged

end Outcomes

def sampleBody : Bytes := ascii "HTTP/1.1 200 OK" ++ crlf ++ crlf ++ ascii "ok"

/-- A segment of the server in the frame that it comes in. -/
def sampleFrame (seq ack : UInt32) (flags : UInt16) (payload : Bytes) : Bytes :=
  let conn : TcpConnection :=
    ⟨0x0A000009, 80, 0x0A000002, 40000, seq, ack, 0, 1024, .established⟩
  buildFrame constructed.stack conn 1 flags payload

/-- From the call of `main` to the exit. -/
def sampleTurns : List Processes.Turn :=
  List.replicate 16 sampleUser ++
    [sampleCapture 0 [], sampleCapture 1 (sampleFrame 5000 1001 (tcpSyn ||| tcpAck) []),
      sampleCapture 0 []] ++
    List.replicate 2 sampleUser ++
    [sampleCapture 1 (sampleFrame 5001 1001 (tcpPsh ||| tcpAck) sampleBody), sampleCapture 0 []] ++
    List.replicate 8 sampleUser ++ [sampleCapture 0 [], sampleCapture 0 []] ++
    List.replicate 3 sampleUser

end MyTelnet.Program.EndToEnd
