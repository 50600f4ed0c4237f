/- module: MyTelnet/Stack/Lifetimes
   scope: model
   digest: A TcpStack object from its constructor to its destructor, with its capture thread. -/

import MyTelnet.Base.Custody
import MyTelnet.Stack.Handshake

set_option autoImplicit false
set_option relaxedAutoImplicit false

namespace MyTelnet.Stack.Lifetimes

open MyTelnet.Base.ByteOrder MyTelnet.Base.Runs MyTelnet.Base.Custody MyTelnet.Wire.Layers
open MyTelnet.Stack.State MyTelnet.Stack.Operations MyTelnet.Stack.Receive MyTelnet.Stack.Run
open MyTelnet.Stack.Handshake

/-- What libpcap hands out to an object, numbered in the order in which it does, the null pointer
that may stand in place of a handle, and the list of devices of the program around the object. -/
inductive Resource where
  | handle (n : Nat)
  | devices (n : Nat)
  | program (n : Nat)
  | null
  | interfaces
  deriving DecidableEq

/-- `pcap_if_t`. An address of another family than `AF_INET` is `none`. -/
structure Device where
  name : Option Bytes
  addresses : List (Option UInt32)

/-- The walk of `get_local_mac_and_ip` over the list of devices. -/
def findLocalIp (interfaceName : Bytes) (alldevs : List Device) : Option UInt32 :=
  alldevs.findSome? fun dev =>
    if dev.name = some interfaceName then dev.addresses.findSome? id else none

/-- The arguments of `connect`, its address parsed, with the port and sequence number it draws. -/
structure ConnectArgs where
  remoteIp : UInt32
  remotePort : UInt16
  localPort : UInt16
  iss : UInt32
  deriving DecidableEq

/-- Where the user thread stands: between two calls, or in front of the next call of libpcap, of
`std::thread` or of the mutex in `initialize`, `connect` or the destructor. -/
inductive UserPc where
  | idle
  | opening (interfaceName : Bytes)
  | settingNonblock (interfaceName : Bytes)
  | readingDatalink (interfaceName : Bytes)
  | findingDevices (interfaceName : Bytes)
  | freeingDevices (n : Nat) (found : Option UInt32)
  | compiling
  | settingFilter (n : Nat)
  | freeingFilter (n : Nat) (installed : Bool)
  | closingFailed
  | startingThread
  | compilingFor (args : ConnectArgs)
  | settingFilterFor (args : ConnectArgs) (n : Nat)
  | freeingFilterFor (args : ConnectArgs) (n : Nat) (installed : Bool)
  | installing (args : ConnectArgs)
  | stopping
  | joining
  | closingHandle
  | gone
  /-- `std::terminate`, which the assignment to a joinable thread calls. -/
  | terminated
  deriving DecidableEq

/-- Where `capture_thread_func` stands. -/
inductive CapturePc where
  | notStarted
  | testing
  | polling (packetsProcessed : Nat)
  | handling (packetsProcessed : Nat) (frame : Bytes)
  | finished
  /-- The behaviour that a frame has made undefined. -/
  | undefined
  deriving DecidableEq

/-- The object, its two threads, and every call of libpcap so far, a walk over a list of devices
being a use of it. -/
structure Lifetime where
  stack : TcpStack
  handle : Option Nat
  joinable : Bool
  shouldStop : Bool
  user : UserPc
  capture : CapturePc
  drawn : Nat
  calls : List (Call Resource)

/-- The calls that a user of the class makes, a waiting loop being a call for each of its
passes. -/
inductive Request where
  | initializeOn (interfaceName : Bytes)
  | connect (args : ConnectArgs)
  | waitForConnectionPass (w : WaitLocals) (now later sent : Int)
  | sendData (data : Bytes) (sent : Int)
  | waitForData
  | closeConnection (sent : Int)
  | destroy (sent : Int)

/-- What the user thread learns at a step: whether the call of libpcap succeeded, the list of
devices, the six random bytes, and the result of `pcap_inject`. -/
structure Answers where
  ok : Bool
  alldevs : List Device
  mac : MacAddress
  sent : Int

/-- What `pcap_next_ex` returns to the capture thread, with the frame that comes with a 1, and
what the injections of `process_packet` return. -/
structure Polled where
  res : Int
  frame : Bytes
  sent : Nat → Int

inductive Turn where
  | call (request : Request)
  | proceed (answers : Answers)
  | capture (polled : Polled)

/-- `TcpStack::TcpStack`. -/
def constructed : Lifetime :=
  { stack :=
      { pcapHandle := false, currentConnection := none, localMac := ⟨0, 0, 0, 0, 0, 0⟩,
        localIp := 0, gatewayMac := ⟨0, 0, 0, 0, 0, 0⟩, dataQueue := [], onConnected := false,
        onDataReceived := false, onConnectionClosed := false, ipId := 0, trace := [] },
    handle := none, joinable := false, shouldStop := false, user := .idle,
    capture := .notStarted, drawn := 0, calls := [] }

def maxPacketsPerLoop : Nat := 10

namespace Lifetime

def record (l : Lifetime) (calls : List (Call Resource)) : Lifetime :=
  { l with calls := l.calls ++ calls }

def goto (l : Lifetime) (pc : UserPc) : Lifetime := { l with user := pc }

def gotoCapture (l : Lifetime) (pc : CapturePc) : Lifetime := { l with capture := pc }

/-- An assignment to `pcap_handle_`. -/
def setHandle (l : Lifetime) (handle : Option Nat) : Lifetime :=
  { l with handle := handle, stack := { l.stack with pcapHandle := handle.isSome } }

/-- The argument `pcap_handle_` of a call. -/
def handleArg (l : Lifetime) : Resource := l.handle.elim .null .handle

/-- The uses of the handle by an operation that leads from `s` to `t`: the identification counter
moves once for each call of `pcap_inject`, and each that puts no frame on the wire is followed by
`pcap_geterr`. -/
def injectUses (s t : TcpStack) : Nat :=
  2 * (t.ipId - s.ipId).toNat - (framesSince s t).length

/-- The object after an operation on its stack. A null handle keeps `send_tcp_packet` from calling
libpcap. -/
def operated (l : Lifetime) (s : TcpStack) : Lifetime :=
  { l with stack := s, calls := l.calls ++ l.handle.elim [] fun n =>
      List.replicate (injectUses l.stack s) (.use (.handle n)) }

def act (l : Lifetime) (a : Action) : Lifetime := l.operated (step l.stack a)

/-- `pcap_setfilter` on the program `n`, and `pcap_geterr` if it fails. -/
def filterCalls (l : Lifetime) (n : Nat) (ok : Bool) : List (Call Resource) :=
  [.use l.handleArg, .use (.program n)] ++ if ok then [] else [.use l.handleArg]

/-- The end of `get_local_mac_and_ip`, which makes the MAC address a unicast one, and
`get_gateway_mac`. -/
def setAddresses (l : Lifetime) (localIp : UInt32) (mac : MacAddress) : Lifetime :=
  { l with stack := { l.stack with
      localIp := localIp, localMac := { mac with b0 := mac.b0 &&& 0xFE },
      gatewayMac := ⟨0x00, 0x50, 0x56, 0xe7, 0xfb, 0x1b⟩ } }

/-- The next call of the user of the class. -/
def call (l : Lifetime) : Request → Lifetime
  | .initializeOn interfaceName => l.goto (.opening interfaceName)
  | .connect args => if l.handle.isNone then l else l.goto (.compilingFor args)
  | .waitForConnectionPass w now later sent => l.act (.waitForConnectionPass w now later sent)
  | .sendData data sent => l.act (.sendData data sent)
  | .waitForData => l.act .waitForData
  | .closeConnection sent => l.act (.closeConnection sent)
  | .destroy sent => (l.act (.closeConnection sent)).goto .stopping

/-- The user thread up to its next call. -/
def proceed (l : Lifetime) (a : Answers) : Lifetime :=
  match l.user with
  | .idle | .gone | .terminated => l
  | .opening interfaceName =>
    if a.ok then
      ({ l with drawn := l.drawn + 1 }.record [.acquire (.handle l.drawn)]).setHandle
        (some l.drawn) |>.goto (.settingNonblock interfaceName)
    else (l.setHandle none).goto .idle
  | .settingNonblock interfaceName =>
    (l.record [.use l.handleArg]).goto
      (if a.ok then .readingDatalink interfaceName else .closingFailed)
  | .readingDatalink interfaceName =>
    (l.record [.use l.handleArg]).goto (.findingDevices interfaceName)
  | .findingDevices interfaceName =>
    if a.ok then
      ({ l with drawn := l.drawn + 1 }.record
        [.acquire (.devices l.drawn), .use (.devices l.drawn)]).goto
        (.freeingDevices l.drawn (findLocalIp interfaceName a.alldevs))
    else l.goto .closingFailed
  | .freeingDevices n found =>
    match found with
    | none => (l.record [.release (.devices n)]).goto .closingFailed
    | some localIp => ((l.record [.release (.devices n)]).setAddresses localIp a.mac).goto .compiling
  | .compiling =>
    if a.ok then
      ({ l with drawn := l.drawn + 1 }.record [.use l.handleArg, .acquire (.program l.drawn)]).goto
        (.settingFilter l.drawn)
    else (l.record [.use l.handleArg, .use l.handleArg]).goto .closingFailed
  | .settingFilter n => (l.record (l.filterCalls n a.ok)).goto (.freeingFilter n a.ok)
  | .freeingFilter n installed =>
    (l.record [.release (.program n)]).goto (if installed then .startingThread else .closingFailed)
  | .closingFailed => ((l.record [.release l.handleArg]).setHandle none).goto .idle
  | .startingThread =>
    if l.joinable then { l with shouldStop := false, user := .terminated }
    else { l with shouldStop := false, joinable := true, capture := .testing, user := .idle }
  | .compilingFor args =>
    if a.ok then
      ({ l with drawn := l.drawn + 1 }.record [.use l.handleArg, .acquire (.program l.drawn)]).goto
        (.settingFilterFor args l.drawn)
    else (l.record [.use l.handleArg, .use l.handleArg]).goto .idle
  | .settingFilterFor args n =>
    (l.record (l.filterCalls n a.ok)).goto (.freeingFilterFor args n a.ok)
  | .freeingFilterFor args n installed =>
    (l.record [.release (.program n)]).goto (if installed then .installing args else .idle)
  | .installing args =>
    (l.act (.connect args.remoteIp args.remotePort args.localPort args.iss true a.sent)).goto .idle
  | .stopping => { l with shouldStop := true, user := .joining }
  | .joining =>
    if l.joinable then
      match l.capture with
      | .finished => { l with joinable := false, user := .closingHandle }
      | _ => l
    else l.goto .closingHandle
  | .closingHandle =>
    if l.handle.isSome then ((l.record [.release l.handleArg]).setHandle none).goto .gone
    else l.goto .gone

/-- `capture_thread_func` up to its next test of `should_stop_`, poll or packet. -/
def advanceCapture (l : Lifetime) (p : Polled) : Lifetime :=
  match l.capture with
  | .notStarted | .finished | .undefined => l
  | .testing => l.gotoCapture (if l.shouldStop then .finished else .polling 0)
  | .polling packetsProcessed =>
    if packetsProcessed < maxPacketsPerLoop then
      let l := l.record [.use l.handleArg]
      if p.res = 0 then l.gotoCapture .testing
      else if p.res = -1 then
        { l.record [.use l.handleArg] with shouldStop := true, capture := .testing }
      else if p.res = -2 then { l with shouldStop := true, capture := .testing }
      else if p.res = 1 then l.gotoCapture (.handling (packetsProcessed + 1) p.frame)
      else l
    else l.gotoCapture .testing
  | .handling packetsProcessed frame =>
    match Receive.capture l.stack frame p.sent with
    | .ok s => (l.operated s).gotoCapture (.polling packetsProcessed)
    | .error _ => l.gotoCapture .undefined

/-- What a thread does. The user of the class calls it only between two calls. -/
def progress (l : Lifetime) : Turn → Lifetime
  | .call request =>
    match l.user with
    | .idle => l.call request
    | _ => l
  | .proceed answers => l.proceed answers
  | .capture polled => l.advanceCapture polled

end Lifetime

/-- A turn of one of the threads. The model says nothing of what follows undefined behaviour: it
stops there. -/
def turn (l : Lifetime) (t : Turn) : Lifetime :=
  match l.capture with
  | .undefined => l
  | _ => l.progress t

theorem turn_undefined {l : Lifetime} (h : l.capture = .undefined) (t : Turn) : turn l t = l := by
  rw [turn, h]

theorem turn_defined {l : Lifetime} (h : l.capture ≠ .undefined) (t : Turn) :
    turn l t = l.progress t := by
  cases hc : l.capture with
  | undefined => exact absurd hc h
  | _ => simp only [turn, hc]

/-- What holds of an object and of what its threads make of it holds after a turn. -/
theorem turn_of_progress {l : Lifetime} {t : Turn} {P : Lifetime → Prop} (hstay : P l)
    (hgo : l.capture ≠ .undefined → P (l.progress t)) : P (turn l t) := by
  by_cases h : l.capture = .undefined
  · rw [turn_undefined h]
    exact hstay
  · rw [turn_defined h]
    exact hgo h

theorem progress_call (l : Lifetime) (request : Request) :
    l.progress (.call request) = if l.user = .idle then l.call request else l := by
  cases h : l.user with
  | idle => simp [Lifetime.progress, h]
  | _ => simp [Lifetime.progress, h]

theorem turn_call {l : Lifetime} (hdefined : l.capture ≠ .undefined) (hidle : l.user = .idle)
    (request : Request) : turn l (.call request) = l.call request := by
  rw [turn_defined hdefined, progress_call, if_pos hidle]

theorem operated_self (l : Lifetime) : l.operated l.stack = l := by
  obtain ⟨stack, handle, joinable, shouldStop, user, capture, drawn, calls⟩ := l
  cases handle <;> simp [Lifetime.operated, Lifetime.injectUses]

abbrev lifetime (turns : List Turn) : Lifetime := run turn constructed turns

end MyTelnet.Stack.Lifetimes
