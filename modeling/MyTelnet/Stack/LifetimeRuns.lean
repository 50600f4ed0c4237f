/- module: MyTelnet/Stack/LifetimeRuns
   scope: proofs
   digest: While its capture thread lives, the object refines the runs of its atomic operations. -/

import MyTelnet.Stack.Moves
import MyTelnet.Stack.Ownership

set_option autoImplicit false
set_option relaxedAutoImplicit false

namespace MyTelnet.Stack.LifetimeRuns

open MyTelnet.Base.ByteOrder MyTelnet.Base.Runs MyTelnet.Wire.Memory MyTelnet.Wire.Layers
open MyTelnet.Wire.Parsers
open MyTelnet.Stack.State MyTelnet.Stack.Operations MyTelnet.Stack.Receive MyTelnet.Stack.Run
open MyTelnet.Stack.Moves MyTelnet.Stack.Lifetimes MyTelnet.Stack.Ownership

/-- The operation of the stack that a call makes at once. -/
def requestActions : Request → List Action
  | .initializeOn _ | .connect _ => []
  | .waitForConnectionPass w now later sent => [.waitForConnectionPass w now later sent]
  | .sendData data sent => [.sendData data sent]
  | .waitForData => [.waitForData]
  | .closeConnection sent | .destroy sent => [.closeConnection sent]

/-- The packet that a frame becomes on its way to `process_packet`. A frame that makes the behaviour
undefined gets to no such call that the model could speak of. -/
def frameActions (frame : Bytes) (sent : Nat → Int) : List Action :=
  match (captureFrame frame).2 with
  | .ok (some packet) => [.processPacket packet sent]
  | .ok none | .error (.exception _) | .error .undefinedBehaviour => []

/-- The operations of the stack, each atomic under its mutex, of what a thread does. -/
def threadActions (l : Lifetime) : Turn → List Action
  | .call request =>
    match l.user with
    | .idle => requestActions request
    | _ => []
  | .proceed answers =>
    match l.user with
    | .installing args =>
      [.connect args.remoteIp args.remotePort args.localPort args.iss true answers.sent]
    | _ => []
  | .capture polled =>
    match l.capture with
    | .handling _ frame => frameActions frame polled.sent
    | _ => []

/-- The operations of the stack that a turn makes, none behind undefined behaviour. -/
def actionsOf (l : Lifetime) (t : Turn) : List Action :=
  match l.capture with
  | .undefined => []
  | _ => threadActions l t

/-- The stack of an object that has no capture thread yet. -/
def blank (localMac gatewayMac : MacAddress) (localIp : UInt32) (pcapHandle : Bool) : TcpStack :=
  { initialized localMac localIp with pcapHandle := pcapHandle, gatewayMac := gatewayMac }

/-- Where the user thread may stand before the capture thread is started. The addresses of the
stack are those of `initialized` as soon as nothing but the filter is left to do. -/
def Early (handle : Option Nat) (gatewayMac : MacAddress) : UserPc → Prop
  | .idle | .stopping | .joining | .closingHandle | .gone => handle = none
  | .compiling | .settingFilter _ | .freeingFilter .. | .startingThread =>
    gatewayMac = ⟨0x00, 0x50, 0x56, 0xe7, 0xfb, 0x1b⟩
  | .compilingFor _ | .settingFilterFor .. | .freeingFilterFor .. | .installing _
  | .terminated => False
  | _ => True

structure Dormant (l : Lifetime) : Prop where
  joinable : l.joinable = false
  capture : l.capture = .notStarted
  stack : ∃ localMac gatewayMac localIp,
    l.stack = blank localMac gatewayMac localIp l.handle.isSome ∧ Early l.handle gatewayMac l.user

/-- Operations that do nothing to a stack that has just been initialised. -/
def Idle (acts : List Action) : Prop :=
  ∀ localMac localIp, runStack (initialized localMac localIp) acts = initialized localMac localIp

/-- How the operations made so far account for the stack. -/
inductive Accounted (l : Lifetime) (acts : List Action) : Prop
  | dormant (state : Dormant l) (idle : Idle acts)
  | serving (joinable : l.joinable = true) (localMac : MacAddress) (localIp : UInt32)
      (stack : l.stack = runStack (initialized localMac localIp) acts)
  | joined (joinable : l.joinable = false) (user : l.user = .closingHandle ∨ l.user = .gone)

/-- Without a connection and with an empty queue, only `connect` does something. -/
theorem step_blank (localMac gatewayMac : MacAddress) (localIp : UInt32) (pcapHandle : Bool)
    {a : Action} (ha : a.keepsConnection = true) :
    step (blank localMac gatewayMac localIp pcapHandle) a =
      blank localMac gatewayMac localIp pcapHandle := by
  have hnone : (blank localMac gatewayMac localIp pcapHandle).currentConnection = none := rfl
  rcases step_alone hnone ha with h | ⟨data, rest, -, hqueue, -⟩
  · exact h
  · cases hqueue

theorem run_blank (localMac gatewayMac : MacAddress) (localIp : UInt32) (pcapHandle : Bool)
    {acts : List Action} (hacts : ∀ a ∈ acts, a.keepsConnection = true) :
    run step (blank localMac gatewayMac localIp pcapHandle) acts =
      blank localMac gatewayMac localIp pcapHandle := by
  induction acts with
  | nil => rfl
  | cons a acts ih =>
    rw [List.forall_mem_cons] at hacts
    rw [run_cons, step_blank _ _ _ _ hacts.1]
    exact ih hacts.2

theorem Idle.append {acts more : List Action} (h : Idle acts)
    (hmore : ∀ a ∈ more, a.keepsConnection = true) : Idle (acts ++ more) := by
  intro localMac localIp
  have hacts : run step (initialized localMac localIp) acts = initialized localMac localIp :=
    h localMac localIp
  show run step (initialized localMac localIp) (acts ++ more) = _
  rw [run_append, hacts]
  exact run_blank _ _ _ _ hmore

theorem actionsOf_undefined {l : Lifetime} (h : l.capture = .undefined) (t : Turn) :
    actionsOf l t = [] := by
  rw [actionsOf, h]

theorem actionsOf_defined {l : Lifetime} (h : l.capture ≠ .undefined) (t : Turn) :
    actionsOf l t = threadActions l t := by
  cases hc : l.capture with
  | undefined => exact absurd hc h
  | _ => simp only [actionsOf, hc]

theorem capture_ok {s t : TcpStack} {frame : Bytes} {sent : Nat → Int}
    (h : capture s frame sent = .ok t) : t = runStack s (frameActions frame sent) := by
  cases hframe : (captureFrame frame).2 with
  | ok packet =>
    cases packet with
    | none | some =>
      simp only [capture, hframe, Except.ok.injEq] at h
      simp only [frameActions, hframe]
      exact h.symm
  | error e =>
    cases e with
    | exception what =>
      simp only [capture, hframe, Except.ok.injEq] at h
      simp only [frameActions, hframe]
      exact h.symm
    | undefinedBehaviour => simp [capture, hframe] at h

theorem capture_error {s : TcpStack} {frame : Bytes} {sent : Nat → Int} {e : Fault}
    (h : capture s frame sent = .error e) :
    (captureFrame frame).2 = .error .undefinedBehaviour ∧ frameActions frame sent = [] := by
  cases hframe : (captureFrame frame).2 with
  | ok packet => cases packet <;> simp [capture, hframe] at h
  | error e' =>
    cases e' with
    | exception what => simp [capture, hframe] at h
    | undefinedBehaviour =>
      refine ⟨rfl, ?_⟩
      simp only [frameActions, hframe]

theorem requestActions_keep (request : Request) :
    ∀ a ∈ requestActions request, a.keepsConnection = true := by
  cases request <;> simp [requestActions, Action.keepsConnection]

theorem call_stack (l : Lifetime) (request : Request) :
    (l.call request).stack = runStack l.stack (requestActions request) ∧
      (l.call request).joinable = l.joinable ∧ (l.call request).capture = l.capture ∧
      (l.call request).handle = l.handle := by
  cases request with
  | connect args =>
    rw [Lifetime.call]
    split_ifs <;> exact ⟨rfl, rfl, rfl, rfl⟩
  | _ => exact ⟨rfl, rfl, rfl, rfl⟩

section Turns

variable {l : Lifetime} {acts : List Action}

theorem Dormant.call (h : Dormant l) (hidle : l.user = .idle) (request : Request) :
    Dormant (l.call request) := by
  obtain ⟨localMac, gatewayMac, localIp, hstack, hearly⟩ := h.stack
  obtain ⟨hs, hj, hc, hh⟩ := call_stack l request
  rw [hidle] at hearly
  have hnone : l.handle = none := hearly
  have hblank : (l.call request).stack =
      blank localMac gatewayMac localIp (l.call request).handle.isSome := by
    rw [hs, hh, hstack]
    exact run_blank _ _ _ _ (requestActions_keep request)
  refine ⟨hj.trans h.joinable, hc.trans h.capture, localMac, gatewayMac, localIp, hblank, ?_⟩
  cases request with
  | initializeOn interfaceName => trivial
  | connect args =>
    have hsame : l.call (.connect args) = l := by simp [Lifetime.call, hnone]
    rw [hsame, hidle]
    exact hnone
  | destroy sent => exact hnone
  | _ =>
    show Early l.handle gatewayMac l.user
    rw [hidle]
    exact hnone

/-- The user thread of an object without a capture thread, up to the moment when it starts it. -/
theorem Dormant.proceed (h : Dormant l) (hsound : Sound l) (hacts : Idle acts) (a : Answers) :
    Accounted (l.proceed a) acts := by
  have hallowed := hsound.allowed
  obtain ⟨stack, handle, joinable, shouldStop, user, capture, drawn, calls⟩ := l
  obtain ⟨ok, alldevs, mac, sent⟩ := a
  obtain ⟨hjoinable, hcapture, localMac, gatewayMac, localIp, hstack, hearly⟩ := h
  obtain rfl : joinable = false := hjoinable
  obtain rfl : capture = .notStarted := hcapture
  obtain rfl : stack = blank localMac gatewayMac localIp handle.isSome := hstack
  cases user with
  | idle | gone | terminated => exact .dormant ⟨rfl, rfl, _, _, _, rfl, hearly⟩ hacts
  | opening =>
    cases ok with
    | false => exact .dormant ⟨rfl, rfl, localMac, gatewayMac, localIp, rfl, rfl⟩ hacts
    | true => exact .dormant ⟨rfl, rfl, localMac, gatewayMac, localIp, rfl, trivial⟩ hacts
  | settingNonblock | findingDevices =>
    cases ok <;> exact .dormant ⟨rfl, rfl, localMac, gatewayMac, localIp, rfl, trivial⟩ hacts
  | readingDatalink => exact .dormant ⟨rfl, rfl, localMac, gatewayMac, localIp, rfl, trivial⟩ hacts
  | freeingDevices n found =>
    cases found with
    | none => exact .dormant ⟨rfl, rfl, localMac, gatewayMac, localIp, rfl, trivial⟩ hacts
    | some found => exact .dormant ⟨rfl, rfl, _, _, found, rfl, rfl⟩ hacts
  | compiling =>
    obtain rfl := hearly
    cases ok with
    | false => exact .dormant ⟨rfl, rfl, localMac, _, localIp, rfl, trivial⟩ hacts
    | true => exact .dormant ⟨rfl, rfl, localMac, _, localIp, rfl, rfl⟩ hacts
  | settingFilter =>
    obtain rfl := hearly
    exact .dormant ⟨rfl, rfl, localMac, _, localIp, rfl, rfl⟩ hacts
  | freeingFilter n installed =>
    obtain rfl := hearly
    cases installed with
    | false => exact .dormant ⟨rfl, rfl, localMac, _, localIp, rfl, trivial⟩ hacts
    | true => exact .dormant ⟨rfl, rfl, localMac, _, localIp, rfl, rfl⟩ hacts
  | closingFailed => exact .dormant ⟨rfl, rfl, localMac, gatewayMac, localIp, rfl, rfl⟩ hacts
  | startingThread =>
    obtain rfl := hearly
    obtain ⟨n, rfl⟩ := Option.isSome_iff_exists.mp hallowed.1
    exact .serving rfl localMac localIp (hacts localMac localIp).symm
  | compilingFor | settingFilterFor | freeingFilterFor | installing => exact hearly.elim
  | stopping | joining => exact .dormant ⟨rfl, rfl, localMac, gatewayMac, localIp, rfl, hearly⟩ hacts
  | closingHandle =>
    obtain rfl := hearly
    exact .dormant ⟨rfl, rfl, localMac, gatewayMac, localIp, rfl, rfl⟩ hacts

theorem serving_run {more : List Action} {l' : Lifetime} {localMac : MacAddress}
    {localIp : UInt32} (hjoinable : l'.joinable = true)
    (hstack : l.stack = runStack (initialized localMac localIp) acts)
    (hmore : l'.stack = runStack l.stack more) : Accounted l' (acts ++ more) := by
  refine .serving hjoinable localMac localIp ?_
  rw [hmore, hstack]
  exact (run_append step _ acts more).symm

/-- The user thread while the capture thread lives. -/
theorem serving_proceed {localMac : MacAddress} {localIp : UInt32} (hsound : Sound l)
    (hjoinable : l.joinable = true)
    (hstack : l.stack = runStack (initialized localMac localIp) acts) (a : Answers) :
    Accounted (l.proceed a) (acts ++ threadActions l (.proceed a)) := by
  have hallowed := hsound.allowed
  obtain ⟨stack, handle, joinable, shouldStop, user, capture, drawn, calls⟩ := l
  obtain ⟨ok, alldevs, mac, sent⟩ := a
  obtain rfl : joinable = true := hjoinable
  cases user with
  | idle => exact serving_run rfl hstack rfl
  | compilingFor => cases ok <;> exact serving_run rfl hstack rfl
  | freeingFilterFor args n installed => cases installed <;> exact serving_run rfl hstack rfl
  | settingFilterFor | installing | stopping => exact serving_run rfl hstack rfl
  | joining =>
    cases capture with
    | finished => exact .joined rfl (.inl rfl)
    | _ => exact serving_run rfl hstack rfl
  | closingHandle => cases hallowed
  | gone => cases hallowed.2
  | terminated => exact hallowed.elim
  | _ => cases hallowed.2

theorem capture_stack (l : Lifetime) (p : Polled) :
    (l.advanceCapture p).stack = runStack l.stack (threadActions l (.capture p)) ∧
      (l.advanceCapture p).joinable = l.joinable ∧ (l.advanceCapture p).user = l.user := by
  obtain ⟨stack, handle, joinable, shouldStop, user, capture, drawn, calls⟩ := l
  cases capture with
  | notStarted | finished | testing | undefined => exact ⟨rfl, rfl, rfl⟩
  | polling packetsProcessed =>
    unfold Lifetime.advanceCapture
    dsimp only
    split_ifs <;> exact ⟨rfl, rfl, rfl⟩
  | handling packetsProcessed frame =>
    simp only [Lifetime.advanceCapture, threadActions]
    cases hcapture : capture stack frame p.sent with
    | ok s => exact ⟨capture_ok hcapture, rfl, rfl⟩
    | error e =>
      rw [(capture_error hcapture).2]
      exact ⟨rfl, rfl, rfl⟩

theorem call_busy (request : Request) (h : l.user ≠ .idle) :
    l.progress (.call request) = l ∧ threadActions l (.call request) = [] := by
  cases hu : l.user with
  | idle => exact absurd hu h
  | _ => exact ⟨by simp [Lifetime.progress, hu], by simp [threadActions, hu]⟩

theorem Dormant.proceed_actions (h : Dormant l) (a : Answers) :
    threadActions l (.proceed a) = [] := by
  obtain ⟨localMac, gatewayMac, localIp, -, hearly⟩ := h.stack
  cases hu : l.user with
  | installing args =>
    rw [hu] at hearly
    exact hearly.elim
  | _ => simp [threadActions, hu]

/-- What a thread does is accounted for by the operations that it makes. -/
theorem Accounted.progress (h : Accounted l acts) (hsound : Sound l) (t : Turn) :
    Accounted (l.progress t) (acts ++ threadActions l t) := by
  cases t with
  | call request =>
    by_cases hidle : l.user = .idle
    · have hturn : l.progress (.call request) = l.call request := by
        rw [progress_call, if_pos hidle]
      have hacts : threadActions l (.call request) = requestActions request := by
        simp [threadActions, hidle]
      rw [hturn, hacts]
      cases h with
      | dormant state idle =>
        exact .dormant (state.call hidle request) (idle.append (requestActions_keep request))
      | serving joinable localMac localIp stack =>
        obtain ⟨hs, hj, -⟩ := call_stack l request
        exact serving_run (hj.trans joinable) stack hs
      | joined joinable user => simp [hidle] at user
    · obtain ⟨hturn, hacts⟩ := call_busy request hidle
      rw [hturn, hacts, List.append_nil]
      exact h
  | proceed a =>
    cases h with
    | dormant state idle =>
      rw [state.proceed_actions a, List.append_nil]
      exact state.proceed hsound idle a
    | serving joinable localMac localIp stack => exact serving_proceed hsound joinable stack a
    | joined joinable user =>
      refine .joined ?_ (.inr ?_)
      · rcases user with hu | hu
        · simp only [Lifetime.progress, Lifetime.proceed, hu]
          split_ifs <;> exact joinable
        · simpa [Lifetime.progress, Lifetime.proceed, hu] using joinable
      · rcases user with hu | hu
        · simp only [Lifetime.progress, Lifetime.proceed, hu]
          split_ifs <;> rfl
        · simp [Lifetime.progress, Lifetime.proceed, hu]
  | capture p =>
    obtain ⟨hs, hj, hu⟩ := capture_stack l p
    cases h with
    | dormant state idle =>
      have hturn : l.progress (.capture p) = l := by
        simp [Lifetime.progress, Lifetime.advanceCapture, state.capture]
      have hacts : threadActions l (.capture p) = [] := by simp [threadActions, state.capture]
      rw [hturn, hacts, List.append_nil]
      exact .dormant state idle
    | serving joinable localMac localIp stack => exact serving_run (hj.trans joinable) stack hs
    | joined joinable user => exact .joined (hj.trans joinable) (hu ▸ user)

theorem Accounted.turn (h : Accounted l acts) (hsound : Sound l) (t : Turn) :
    Accounted (Lifetimes.turn l t) (acts ++ actionsOf l t) := by
  by_cases hdefined : l.capture = .undefined
  · rw [turn_undefined hdefined, actionsOf_undefined hdefined, List.append_nil]
    exact h
  · rw [turn_defined hdefined, actionsOf_defined hdefined]
    exact h.progress hsound t

end Turns

theorem accounted_constructed : Accounted constructed [] :=
  .dormant ⟨rfl, rfl, _, _, _, rfl, rfl⟩ fun _ _ => rfl

theorem accounted_run {l : Lifetime} {acts : List Action} {turns : List Turn} (hsound : Sound l)
    (h : Accounted l acts)
    (hsingle : EachStep turn (fun l t => ¬ Reinitializes l t) l turns) :
    Accounted (run turn l turns) (acts ++ collect turn actionsOf l turns) := by
  induction turns generalizing l acts with
  | nil => simpa [collect] using h
  | cons t turns ih =>
    have hrest := ih (hsound.turn hsingle.1) (h.turn hsound t) hsingle.2
    rw [List.append_assoc] at hrest
    exact hrest

/-- As long as the capture thread has not been joined, the stack is what the atomic operations of
the turns so far make of a stack that has just been initialised, up to a frame that makes the
behaviour undefined. -/
theorem lifetime_refines_run (turns : List Turn)
    (hsingle : EachStep turn (fun l t => ¬ Reinitializes l t) constructed turns)
    (hjoinable : (lifetime turns).joinable = true) :
    ∃ localMac localIp, (lifetime turns).stack =
      runStack (initialized localMac localIp) (collect turn actionsOf constructed turns) := by
  have haccounted := accounted_run sound_constructed accounted_constructed hsingle
  rw [List.nil_append] at haccounted
  cases haccounted with
  | dormant state => cases state.joinable.symm.trans hjoinable
  | serving _ localMac localIp stack => exact ⟨localMac, localIp, stack⟩
  | joined joinable => cases joinable.symm.trans hjoinable

theorem lifetime_refines_run_plainLife :
    (lifetime (plainLife.take 17)).joinable = true ∧
      ∃ localMac localIp, (lifetime (plainLife.take 17)).stack =
        runStack (initialized localMac localIp)
          (collect turn actionsOf constructed (plainLife.take 17)) := by
  have hsingle : EachStep turn (fun l t => ¬ Reinitializes l t) constructed
      (plainLife.take 17) := by decide +kernel
  have hjoinable : (lifetime (plainLife.take 17)).joinable = true := by decide +kernel
  exact ⟨hjoinable, lifetime_refines_run _ hsingle hjoinable⟩

end MyTelnet.Stack.LifetimeRuns
