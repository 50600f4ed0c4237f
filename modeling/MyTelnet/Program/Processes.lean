/- module: MyTelnet/Program/Processes
   scope: model and proofs
   digest: The whole process: main, the objects that it makes, and the capture thread beside it. -/

import MyTelnet.Http.Timing
import MyTelnet.Program.Main
import MyTelnet.Stack.Lifetimes

set_option autoImplicit false
set_option relaxedAutoImplicit false

namespace MyTelnet.Program.Processes

open MyTelnet.Base MyTelnet.Base.ByteOrder MyTelnet.Base.Runs MyTelnet.Wire.Memory
open MyTelnet.Wire.Layers MyTelnet.Stack.State MyTelnet.Stack.Operations MyTelnet.Stack.Lifetimes
open MyTelnet.Http.Strings MyTelnet.Http.Client MyTelnet.Http.Download MyTelnet.Http.Sessions
open MyTelnet.Http.Timing
open MyTelnet.Program.Arguments MyTelnet.Program.Main

/-- What a process starts from: the arguments, the interfaces, the files, the clock, what
`inet_aton` makes of an address, and what the locals of the receive loop hold. -/
structure Start where
  args : List Bytes
  alldevs : Option (List Interface)
  files : Directory
  now : Int
  inetAton : Bytes → UInt32
  locals : HttpResponse

/-- Where the main thread stands. -/
inductive Pc where
  /-- In `initialize`. -/
  | initializing
  /-- In `download_file`, in front of the file. -/
  | opening
  /-- In `connect`. -/
  | connecting
  | getting (call : Http.Sessions.Pc)
  /-- In front of `client.close()`. -/
  | closing
  /-- In front of the `close` of `~HttpClient`, with what `main` returns. -/
  | leaving (status : Nat)
  /-- In front of `~TcpStack`. -/
  | destroying (status : Nat)
  | joining (status : Nat)
  | exited (status : Nat)
  /-- `std::terminate`, for an exception that nothing catches. -/
  | aborted (e : Fault)

/-- The process. `chunks` are the vectors that `wait_for_data` has returned, `lookup` the calls of
libpcap in `get_default_interface`. -/
structure Process where
  lookup : List (Custody.Call Resource)
  life : Lifetime
  pc : Pc
  settings : Settings
  chunks : List Bytes
  clock : Int
  startTime : Int
  files : Directory

/-- What the main thread learns at a step. -/
structure Answers where
  ok : Bool
  devices : List Device
  mac : MacAddress
  opened : Bool
  pass : Pass

def Answers.machine (a : Answers) : Stack.Lifetimes.Answers := ⟨a.ok, a.devices, a.mac, a.pass.sent⟩

inductive Turn where
  | user (answers : Answers)
  | capture (polled : Polled)

/-- What the local file holds after a pass of the receive loop, which may call the callback. -/
def received (locals : HttpResponse) (buffer content : Bytes) (s : TcpStack) : Bytes :=
  (passReports locals buffer s).foldl fileCallback content

namespace Process

variable (p : Process)

/-- The call of `get`, as it stands at `pc`. -/
def timed (pc : Http.Sessions.Pc) : Timed := ⟨⟨p.life.stack, pc, p.chunks⟩, p.clock, p.startTime⟩

/-- The process behind a step of `get`, but for the object. -/
def resume (w : Timed) : Process :=
  { p with pc := .getting w.session.pc, chunks := w.session.chunks, clock := w.clock,
           startTime := w.startTime }

/-- The file of `download_file`. -/
def localFile : Bytes := localFilename p.settings.filePath

def content : Bytes := (p.files p.localFile).getD []

def saved (content : Bytes) : Directory := Function.update p.files p.localFile (some content)

end Process

variable (h : Start)

/-- The call that `main` makes of `get` through `download_file`. -/
def callOf (s : Settings) : Call :=
  ⟨s.serverIp, s.filePath, h.inetAton s.serverIp, s.serverPort, h.locals⟩

def interfaceOf (s : Settings) : Bytes :=
  if s.interfaceName = [] then getDefaultInterface h.alldevs else s.interfaceName

/-- What `get_default_interface` asks of libpcap, if it is called. -/
def interfaceCalls (s : Settings) : List (Custody.Call Resource) :=
  if s.interfaceName = [] then
    match h.alldevs with
    | none => []
    | some _ => [.acquire .interfaces, .use .interfaces, .release .interfaces]
  else []

/-- `main` up to `initialize`, or to the end if the arguments do not lead there. -/
def started : Process :=
  let idle (pc : Pc) (s : Settings) : Process :=
    { lookup := [], life := constructed, pc := pc, settings := s, chunks := [], clock := h.now,
      startTime := h.now, files := h.files }
  match parseArguments defaults h.args with
  | .help => idle (.exited 0) defaults
  | .invalidPort => idle (.exited 1) defaults
  | .settings s =>
    if s.serverIp = [] then idle (.exited 1) s else
    { idle .initializing s with
      lookup := interfaceCalls h s
      life := Stack.Lifetimes.turn constructed (.call (.initializeOn (interfaceOf h s))) }

/-- A step of the main thread, up to where it next lets another thread or the system in. -/
def advance (p : Process) (a : Answers) : Process :=
  let c := callOf h p.settings
  match p.pc with
  | .initializing =>
    match p.life.user with
    | .idle => { p with pc := if p.life.joinable then .opening else .leaving 1 }
    | _ => { p with life := p.life.proceed a.machine }
  | .opening =>
    if a.opened then { p with pc := .getting .connecting, files := p.saved [] }
    else { p with pc := .leaving 1 }
  | .getting .connecting =>
    let args : ConnectArgs := ⟨c.remoteIp, c.port, a.pass.localPort, a.pass.iss⟩
    { p with life := Stack.Lifetimes.turn p.life (.call (.connect args)), pc := .connecting }
  | .connecting =>
    match p.life.user with
    | .idle => p.resume (tick c (p.timed .connecting) { a.pass with filterSet := false })
    | .installing args =>
      let pass := { a.pass with localPort := args.localPort, iss := args.iss, filterSet := true }
      { p.resume (tick c (p.timed .connecting) pass) with life := p.life.proceed a.machine }
    | _ => { p with life := p.life.proceed a.machine }
  | .getting .refused => { p with pc := .leaving 1 }
  | .getting (.returned receivedComplete) =>
    { p with pc := if receivedComplete then .closing else .leaving 1 }
  | .getting (.thrown e) => { p with pc := .aborted e }
  | .getting (.receiving buffer) =>
    let w := tick c (p.timed (.receiving buffer)) a.pass
    { p.resume w with
      life := p.life.operated w.session.stack,
      files := p.saved (received h.locals buffer p.content p.life.stack) }
  | .getting pc =>
    let w := tick c (p.timed pc) a.pass
    { p.resume w with life := p.life.operated w.session.stack }
  | .closing =>
    { p with
      life := Stack.Lifetimes.turn p.life (.call (.closeConnection a.pass.sent)),
      pc := .leaving 0 }
  | .leaving status =>
    { p with
      life := Stack.Lifetimes.turn p.life (.call (.closeConnection a.pass.sent)),
      pc := .destroying status }
  | .destroying status =>
    { p with
      life := Stack.Lifetimes.turn p.life (.call (.destroy a.pass.sent)),
      pc := .joining status }
  | .joining status =>
    match p.life.user with
    | .gone => { p with pc := .exited status }
    | _ => { p with life := p.life.proceed a.machine }
  | .exited _ | .aborted _ => p

/-- What a thread does. `std::terminate` ends both. -/
def progress (p : Process) : Turn → Process
  | .user answers => advance h p answers
  | .capture polled =>
    match p.pc with
    | .aborted _ => p
    | _ => { p with life := p.life.advanceCapture polled }

/-- A turn of one of the threads. Behind undefined behaviour the model stops. -/
def turn (p : Process) (t : Turn) : Process :=
  match p.life.capture with
  | .undefined => p
  | _ => progress h p t

/-- The process after some turns of its threads, in any order. -/
abbrev process (turns : List Turn) : Process := run (turn h) (started h) turns

/-- Every call of libpcap so far. -/
def Process.calls (p : Process) : List (Custody.Call Resource) := p.lookup ++ p.life.calls

section Turns

variable {p : Process}

theorem turn_undefined (hundefined : p.life.capture = .undefined) (t : Turn) : turn h p t = p := by
  rw [turn, hundefined]

theorem turn_defined (hdefined : p.life.capture ≠ .undefined) (t : Turn) :
    turn h p t = progress h p t := by
  cases hc : p.life.capture with
  | undefined => exact absurd hc hdefined
  | _ => simp only [turn, hc]

theorem turn_of_progress {t : Turn} {P : Process → Prop} (hstay : P p)
    (hgo : p.life.capture ≠ .undefined → P (progress h p t)) : P (turn h p t) := by
  by_cases hundefined : p.life.capture = .undefined
  · rw [turn_undefined h hundefined]
    exact hstay
  · rw [turn_defined h hundefined]
    exact hgo hundefined

end Turns

/-! What a step of the main thread can be. -/

/-- `get` is in one of the loops or at one of the calls between `connect` and its return. -/
def Underway (pc : Http.Sessions.Pc) : Prop := pc ≠ .connecting ∧ ¬ Over pc

section Moves

variable (p : Process) (a : Answers)

/-- The steps of the main thread: where it stands, and what it leaves. -/
inductive Moves : Process → Prop
  | initializes (pc : p.pc = .initializing) (user : p.life.user ≠ .idle) :
      Moves { p with life := p.life.proceed a.machine }
  | initialized (pc : p.pc = .initializing) (user : p.life.user = .idle)
      (joinable : p.life.joinable = true) : Moves { p with pc := .opening }
  | uninitialized (pc : p.pc = .initializing) (user : p.life.user = .idle)
      (joinable : p.life.joinable = false) : Moves { p with pc := .leaving 1 }
  | opens (pc : p.pc = .opening) :
      Moves { p with pc := .getting .connecting, files := p.saved [] }
  | cannotOpen (pc : p.pc = .opening) : Moves { p with pc := .leaving 1 }
  | connects (pc : p.pc = .getting .connecting) (args : ConnectArgs)
      (remoteIp : args.remoteIp = (callOf h p.settings).remoteIp)
      (remotePort : args.remotePort = (callOf h p.settings).port) :
      Moves { p with life := Stack.Lifetimes.turn p.life (.call (.connect args)), pc := .connecting }
  | prepares (pc : p.pc = .connecting) (user : p.life.user ≠ .idle)
      (early : ∀ args, p.life.user ≠ .installing args) :
      Moves { p with life := p.life.proceed a.machine }
  | unprepared (pc : p.pc = .connecting) (user : p.life.user = .idle) :
      Moves (p.resume
        (tick (callOf h p.settings) (p.timed .connecting) { a.pass with filterSet := false }))
  | installs (pc : p.pc = .connecting) (args : ConnectArgs)
      (user : p.life.user = .installing args) :
      Moves { p.resume (tick (callOf h p.settings) (p.timed .connecting)
          { a.pass with localPort := args.localPort, iss := args.iss, filterSet := true }) with
        life := p.life.proceed a.machine }
  | receives (buffer : Bytes) (pc : p.pc = .getting (.receiving buffer)) :
      Moves { p.resume (tick (callOf h p.settings) (p.timed (.receiving buffer)) a.pass) with
        life := p.life.operated
          (tick (callOf h p.settings) (p.timed (.receiving buffer)) a.pass).session.stack,
        files := p.saved (received h.locals buffer p.content p.life.stack) }
  | gets (call : Http.Sessions.Pc) (pc : p.pc = .getting call) (underway : Underway call)
      (other : ∀ buffer, call ≠ .receiving buffer) :
      Moves { p.resume (tick (callOf h p.settings) (p.timed call) a.pass) with
        life := p.life.operated
          (tick (callOf h p.settings) (p.timed call) a.pass).session.stack }
  | succeeds (pc : p.pc = .getting (.returned true)) : Moves { p with pc := .closing }
  | fails (pc : p.pc = .getting .refused ∨ p.pc = .getting (.returned false)) :
      Moves { p with pc := .leaving 1 }
  | aborts (e : Fault) (pc : p.pc = .getting (.thrown e)) : Moves { p with pc := .aborted e }
  | closes (pc : p.pc = .closing) : Moves { p with
      life := Stack.Lifetimes.turn p.life (.call (.closeConnection a.pass.sent)), pc := .leaving 0 }
  | leaves (status : Nat) (pc : p.pc = .leaving status) : Moves { p with
      life := Stack.Lifetimes.turn p.life (.call (.closeConnection a.pass.sent)),
      pc := .destroying status }
  | destroys (status : Nat) (pc : p.pc = .destroying status) : Moves { p with
      life := Stack.Lifetimes.turn p.life (.call (.destroy a.pass.sent)), pc := .joining status }
  | joins (status : Nat) (pc : p.pc = .joining status) (user : p.life.user ≠ .gone) :
      Moves { p with life := p.life.proceed a.machine }
  | exits (status : Nat) (pc : p.pc = .joining status) (user : p.life.user = .gone) :
      Moves { p with pc := .exited status }
  | ended (pc : (∃ status, p.pc = .exited status) ∨ ∃ e, p.pc = .aborted e) : Moves p

theorem advance_moves : Moves h p a (advance h p a) := by
  obtain ⟨lookup, ⟨stack, handle, joinable, shouldStop, user, capture, drawn, calls⟩, pc, settings,
    chunks, clock, startTime, files⟩ := p
  obtain ⟨ok, devices, mac, opened, pass⟩ := a
  cases pc with
  | initializing =>
    cases user with
    | idle =>
      cases joinable with
      | false => exact .uninitialized rfl rfl rfl
      | true => exact .initialized rfl rfl rfl
    | _ => exact .initializes rfl (by simp)
  | opening =>
    cases opened with
    | false => exact .cannotOpen rfl
    | true => exact .opens rfl
  | connecting =>
    cases user with
    | idle => exact .unprepared rfl rfl
    | installing args => exact .installs rfl args rfl
    | _ => exact .prepares rfl (by simp) (by simp)
  | getting call =>
    cases call with
    | connecting => exact .connects rfl ⟨_, _, pass.localPort, pass.iss⟩ rfl rfl
    | refused => exact .fails (.inl rfl)
    | returned receivedComplete =>
      cases receivedComplete with
      | false => exact .fails (.inr rfl)
      | true => exact .succeeds rfl
    | thrown e => exact .aborts e rfl
    | receiving buffer => exact .receives buffer rfl
    | waiting | gaveUp | sending | closing | leaving =>
      exact .gets _ rfl ⟨by simp, by simp [Over]⟩ (by simp)
  | closing => exact .closes rfl
  | leaving status => exact .leaves status rfl
  | destroying status => exact .destroys status rfl
  | joining status =>
    cases user with
    | gone => exact .exits status rfl rfl
    | _ => exact .joins status rfl (by simp)
  | exited status => exact .ended (.inl ⟨status, rfl⟩)
  | aborted e => exact .ended (.inr ⟨e, rfl⟩)

end Moves

/-- `get_default_interface` is called once. -/
theorem turn_lookup (p : Process) (t : Turn) : (turn h p t).lookup = p.lookup := by
  refine turn_of_progress h (P := fun p' => p'.lookup = p.lookup) rfl fun _ => ?_
  cases t with
  | user a =>
    show (advance h p a).lookup = p.lookup
    have hmoves := advance_moves h p a
    generalize advance h p a = p' at hmoves
    cases hmoves <;> rfl
  | capture polled =>
    simp only [progress]
    split <;> rfl

/-! `mytelnet 10.0.0.9 80 a` on a machine where every call succeeds. -/

def sampleStart : Start :=
  { args := [ascii "10.0.0.9", ascii "80", ascii "a"], alldevs := some [], files := fun _ => none,
    now := 0, inetAton := fun _ => 0x0A000009, locals := ⟨0, [], ∅, []⟩ }

def sampleUser : Turn :=
  .user ⟨true, [⟨some (ascii "eth0"), [some 0x0A000002]⟩], ⟨2, 0, 0, 0, 0, 1⟩, true,
    ⟨40000, 1000, true, 54, 0, 0⟩⟩

/-- A call of `pcap_next_ex` or, if the thread is not in front of one, just a step. -/
def sampleCapture (res : Int) (frame : Bytes) : Turn := .capture ⟨res, frame, fun _ => 54⟩

end MyTelnet.Program.Processes
