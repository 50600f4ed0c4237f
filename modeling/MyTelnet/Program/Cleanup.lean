/- module: MyTelnet/Program/Cleanup
   scope: proofs
   digest: The process uses libpcap as it must, and gives everything back before it exits. -/

import MyTelnet.Http.Delivery
import MyTelnet.Program.Processes
import MyTelnet.Stack.Ownership

set_option autoImplicit false
set_option relaxedAutoImplicit false

namespace MyTelnet.Program.Cleanup

open MyTelnet.Base.ByteOrder MyTelnet.Base.Runs MyTelnet.Base.Custody
open MyTelnet.Stack.State MyTelnet.Stack.Operations MyTelnet.Stack.Run MyTelnet.Stack.Lifetimes
open MyTelnet.Stack.Ownership
open MyTelnet.Http.Sessions MyTelnet.Http.Timing MyTelnet.Http.Delivery
open MyTelnet.Program.Arguments MyTelnet.Program.Processes

/-- Turns of an object, among them no call of `initialize`. -/
def Reaches (l l' : Lifetime) : Prop :=
  ∃ turns, (∀ t ∈ turns, initializes t = false) ∧ l' = run Stack.Lifetimes.turn l turns

theorem Reaches.refl (l : Lifetime) : Reaches l l := ⟨[], by simp, rfl⟩

theorem Reaches.of_turn (l : Lifetime) {t : Stack.Lifetimes.Turn} (ht : initializes t = false) :
    Reaches l (Stack.Lifetimes.turn l t) :=
  ⟨[t], by simpa using ht, rfl⟩

theorem Reaches.of_progress {l : Lifetime} (hdefined : l.capture ≠ .undefined)
    {t : Stack.Lifetimes.Turn} (ht : initializes t = false) : Reaches l (l.progress t) := by
  rw [← turn_defined hdefined]
  exact .of_turn l ht

/-- Places of the user thread in `initialize`, or behind it. -/
def Initializing : UserPc → Prop
  | .idle | .opening _ | .settingNonblock _ | .readingDatalink _ | .findingDevices _
  | .freeingDevices .. | .compiling | .settingFilter _ | .freeingFilter .. | .closingFailed
  | .startingThread => True
  | _ => False

/-- Places of the user thread in the `connect` of a call, or behind it. -/
def Connecting (c : Call) : UserPc → Prop
  | .idle => True
  | .compilingFor args | .settingFilterFor args _ | .freeingFilterFor args _ _
  | .installing args => args.remoteIp = c.remoteIp ∧ args.remotePort = c.port
  | _ => False

/-- Places of the user thread in the destructor. -/
def Joining : UserPc → Prop
  | .stopping | .joining | .closingHandle | .gone => True
  | _ => False

/-- `main` and the object agree on where the main thread stands. -/
def Stands (h : Start) (p : Process) : Prop :=
  match p.pc with
  | .initializing => Initializing p.life.user
  | .connecting => Connecting (callOf h p.settings) p.life.user
  | .opening | .getting _ | .closing | .leaving _ | .destroying _ => p.life.user = .idle
  | .joining _ => Joining p.life.user
  | .exited _ => p.life.user = .gone ∨ p.life = constructed
  | .aborted _ => True

section Objects

variable {l : Lifetime}

theorem proceed_initializing (hsound : Sound l) (h : Initializing l.user)
    (a : Stack.Lifetimes.Answers) : Initializing (l.proceed a).user := by
  have hallowed := hsound.allowed
  obtain ⟨stack, handle, joinable, shouldStop, user, capture, drawn, calls⟩ := l
  obtain ⟨ok, alldevs, mac, sent⟩ := a
  cases user with
  | opening | settingNonblock | findingDevices | compiling => cases ok <;> trivial
  | freeingDevices n found => cases found <;> trivial
  | freeingFilter n installed => cases installed <;> trivial
  | startingThread =>
    obtain rfl : joinable = false := hallowed.2
    trivial
  | idle | readingDatalink | settingFilter | closingFailed => trivial
  | compilingFor | settingFilterFor | freeingFilterFor | installing | stopping | joining
  | closingHandle | gone | terminated => exact h.elim

theorem proceed_connecting {c : Call} (h : Connecting c l.user) (a : Stack.Lifetimes.Answers) :
    Connecting c (l.proceed a).user := by
  obtain ⟨stack, handle, joinable, shouldStop, user, capture, drawn, calls⟩ := l
  obtain ⟨ok, alldevs, mac, sent⟩ := a
  cases user with
  | compilingFor args =>
    cases ok with
    | false => trivial
    | true => exact h
  | settingFilterFor args n => exact h
  | freeingFilterFor args n installed =>
    cases installed with
    | false => trivial
    | true => exact h
  | idle | installing => trivial
  | _ => exact h.elim

theorem proceed_joining (h : Joining l.user) (a : Stack.Lifetimes.Answers) :
    Joining (l.proceed a).user := by
  obtain ⟨stack, handle, joinable, shouldStop, user, capture, drawn, calls⟩ := l
  cases user with
  | stopping | gone => trivial
  | joining =>
    cases joinable with
    | false => trivial
    | true => cases capture <;> trivial
  | closingHandle => cases handle <;> trivial
  | _ => exact h.elim

theorem proceed_unconnected {l : Lifetime} (hother : ∀ args, l.user ≠ .installing args)
    (a : Stack.Lifetimes.Answers) :
    (l.proceed a).stack.currentConnection = l.stack.currentConnection ∧
      (l.proceed a).stack.dataQueue = l.stack.dataQueue := by
  obtain ⟨stack, handle, joinable, shouldStop, user, capture, drawn, calls⟩ := l
  obtain ⟨ok, alldevs, mac, sent⟩ := a
  cases user with
  | installing args => exact absurd rfl (hother args)
  | opening | settingNonblock | findingDevices | compiling | compilingFor =>
    cases ok <;> exact ⟨rfl, rfl⟩
  | freeingDevices n found => cases found <;> exact ⟨rfl, rfl⟩
  | freeingFilter n installed => cases installed <;> exact ⟨rfl, rfl⟩
  | freeingFilterFor args n installed => cases installed <;> exact ⟨rfl, rfl⟩
  | startingThread => cases joinable <;> exact ⟨rfl, rfl⟩
  | joining =>
    cases joinable with
    | false => exact ⟨rfl, rfl⟩
    | true => cases capture <;> exact ⟨rfl, rfl⟩
  | closingHandle => cases handle <;> exact ⟨rfl, rfl⟩
  | _ => exact ⟨rfl, rfl⟩

end Objects

/-- The call that a step of `get` makes of the object, once it has been told to connect. -/
def requestsOf (c : Call) (a : Http.Sessions.Answers) : Http.Sessions.Pc → List Request
  | .waiting w => [.waitForConnectionPass w a.now a.later a.sent]
  | .sending => [.sendData c.request a.sent]
  | .receiving _ => [.waitForData]
  | .closing _ => [.closeConnection a.sent]
  | .connecting | .refused | .gaveUp | .leaving _ | .returned _ | .thrown _ => []

/-- What a step of `get` does to the stack is such a call. -/
theorem operated_advance {l : Lifetime} (hdefined : l.capture ≠ .undefined)
    (hidle : l.user = .idle) (c : Call)
    (a : Http.Sessions.Answers) {pc : Http.Sessions.Pc} (hpc : pc ≠ .connecting)
    (chunks : List Bytes) :
    l.operated (Http.Sessions.advance c ⟨l.stack, pc, chunks⟩ a).stack =
      run Stack.Lifetimes.turn l ((requestsOf c a pc).map .call) := by
  rw [(advance_runs c ⟨l.stack, pc, chunks⟩ a).1]
  have hcall (request : Request) : Stack.Lifetimes.turn l (.call request) = l.call request :=
    turn_call hdefined hidle request
  cases pc with
  | connecting => exact absurd rfl hpc
  | waiting w => exact (hcall (.waitForConnectionPass w a.now a.later a.sent)).symm
  | sending => exact (hcall (.sendData c.request a.sent)).symm
  | receiving => exact (hcall .waitForData).symm
  | closing => exact (hcall (.closeConnection a.sent)).symm
  | refused | gaveUp | leaving | returned | thrown => exact operated_self l

theorem reaches_tick (c : Call) {p : Process} (hdefined : p.life.capture ≠ .undefined)
    (hidle : p.life.user = .idle) (pass : Pass) {pc : Http.Sessions.Pc} (hpc : pc ≠ .connecting) :
    Reaches p.life (p.life.operated (tick c (p.timed pc) pass).session.stack) := by
  rw [tick_session]
  refine ⟨_, ?_, operated_advance hdefined hidle c _ hpc p.chunks⟩
  intro t ht
  obtain ⟨request, hrequest, rfl⟩ := List.mem_map.mp ht
  cases pc <;> simp [requestsOf] at hrequest <;> subst hrequest <;> rfl

/-- `connect` does nothing when its filter cannot be set. -/
theorem tick_unset (c : Call) (p : Process) (pass : Pass) :
    (tick c (p.timed .connecting) { pass with filterSet := false }).session.stack =
      p.life.stack := by
  rw [tick_session, (advance_runs _ _ _).1]
  show (connect p.life.stack c.remoteIp c.port pass.localPort pass.iss false pass.sent).1 = _
  rw [connect]
  cases p.life.stack.pcapHandle <;> rfl

theorem tick_installed {c : Call} {p : Process} {args : ConnectArgs}
    (huser : p.life.user = .installing args) (hargs : Connecting c p.life.user)
    (a : Processes.Answers) :
    (p.life.proceed a.machine).stack =
      (tick c (p.timed .connecting) { a.pass with
        localPort := args.localPort, iss := args.iss, filterSet := true }).session.stack := by
  rw [huser] at hargs
  rw [tick_session, (advance_runs _ _ _).1, Lifetime.proceed, huser]
  show step p.life.stack (.connect args.remoteIp args.remotePort _ _ _ _) = _
  rw [hargs.1, hargs.2]
  rfl

/-- The object of the process is one that `initialize` is called of once. -/
structure Steered (h : Start) (p : Process) : Prop where
  stands : Stands h p
  turns : ∃ turns, EachStep Stack.Lifetimes.turn (fun l t => ¬ Reinitializes l t) constructed turns ∧
    p.life = lifetime turns

section Turns

variable {h : Start} {p : Process}

theorem Steered.sound (hs : Steered h p) : Sound p.life := by
  obtain ⟨turns, hsingle, hlife⟩ := hs.turns
  rw [hlife]
  exact run_invariant (fun l t hl ht => hl.turn ht) sound_constructed hsingle

theorem Steered.reach (hs : Steered h p) {p' : Process} (hreach : Reaches p.life p'.life)
    (hstands : Stands h p') : Steered h p' := by
  obtain ⟨turns, hsingle, hlife⟩ := hs.turns
  obtain ⟨more, hmore, hlife'⟩ := hreach
  refine ⟨hstands, turns ++ more, ?_, ?_⟩
  · rw [eachStep_append]
    refine ⟨hsingle, ?_⟩
    have hnone : EachStep Stack.Lifetimes.turn (fun _ t => initializes t = false)
        (run Stack.Lifetimes.turn constructed turns) more := eachStep_of_forall hmore
    apply hnone.imp
    rintro l t hother ⟨-, -, -, hinit⟩
    exact absurd (hother.symm.trans hinit) (by simp)
  · rw [hlife', hlife]
    exact (run_append _ _ turns more).symm

theorem Steered.advance (hs : Steered h p) (hdefined : p.life.capture ≠ .undefined)
    (a : Processes.Answers) : Steered h (Processes.advance h p a) := by
  have hmoves := advance_moves h p a
  have hstands := hs.stands
  generalize Processes.advance h p a = p' at hmoves
  cases hmoves with
  | initializes pc user =>
    simp only [Stands, pc] at hstands
    refine hs.reach (.of_progress hdefined (t := .proceed a.machine) rfl) ?_
    simpa only [Stands, pc] using proceed_initializing hs.sound hstands a.machine
  | initialized pc user | uninitialized pc user => exact hs.reach (.refl p.life) user
  | opens pc | cannotOpen pc =>
    simp only [Stands, pc] at hstands
    exact hs.reach (.refl p.life) hstands
  | connects pc args remoteIp remotePort =>
    simp only [Stands, pc] at hstands
    refine hs.reach (.of_turn p.life (t := .call (.connect args)) rfl) ?_
    show Connecting _ (Stack.Lifetimes.turn p.life (.call (.connect args))).user
    rw [turn_call hdefined hstands, Lifetime.call]
    split
    · rw [hstands]
      trivial
    · exact ⟨remoteIp, remotePort⟩
  | prepares pc user early =>
    simp only [Stands, pc] at hstands
    refine hs.reach (.of_progress hdefined (t := .proceed a.machine) rfl) ?_
    simpa only [Stands, pc] using proceed_connecting hstands a.machine
  | unprepared pc user => exact hs.reach (.refl p.life) user
  | installs pc args user =>
    refine hs.reach (.of_progress hdefined (t := .proceed a.machine) rfl) ?_
    show (p.life.proceed a.machine).user = .idle
    rw [Lifetime.proceed, user]
    rfl
  | receives buffer pc =>
    simp only [Stands, pc] at hstands
    exact hs.reach (reaches_tick _ hdefined hstands a.pass (by simp)) hstands
  | gets call pc underway =>
    simp only [Stands, pc] at hstands
    exact hs.reach (reaches_tick _ hdefined hstands a.pass underway.1) hstands
  | succeeds pc =>
    simp only [Stands, pc] at hstands
    exact hs.reach (.refl p.life) hstands
  | fails pc =>
    have hidle : p.life.user = .idle := by
      rcases pc with pc | pc <;> simpa only [Stands, pc] using hstands
    exact hs.reach (.refl p.life) hidle
  | aborts e pc => exact hs.reach (.refl p.life) trivial
  | closes pc | leaves status pc =>
    simp only [Stands, pc] at hstands
    refine hs.reach (.of_turn p.life (t := .call (.closeConnection a.pass.sent)) rfl) ?_
    show (Stack.Lifetimes.turn p.life (.call (.closeConnection a.pass.sent))).user = .idle
    rw [turn_call hdefined hstands]
    exact hstands
  | destroys status pc =>
    simp only [Stands, pc] at hstands
    refine hs.reach (.of_turn p.life (t := .call (.destroy a.pass.sent)) rfl) ?_
    show Joining (Stack.Lifetimes.turn p.life (.call (.destroy a.pass.sent))).user
    rw [turn_call hdefined hstands]
    trivial
  | joins status pc user =>
    simp only [Stands, pc] at hstands
    refine hs.reach (.of_progress hdefined (t := .proceed a.machine) rfl) ?_
    simpa only [Stands, pc] using proceed_joining hstands a.machine
  | exits status pc user => exact hs.reach (.refl p.life) (.inl user)
  | ended => exact hs

theorem Steered.capture (hs : Steered h p) (hdefined : p.life.capture ≠ .undefined)
    (polled : Polled) : Steered h { p with life := p.life.advanceCapture polled } := by
  have hstands := hs.stands
  have huser : (p.life.advanceCapture polled).user = p.life.user :=
    (capture_frame p.life polled).2.1
  refine hs.reach (.of_progress hdefined (t := .capture polled) rfl) ?_
  cases hpc : p.pc with
  | exited status =>
    simp only [Stands, hpc] at hstands ⊢
    rcases hstands with hgone | hnone
    · exact .inl (huser.trans hgone)
    · rw [hnone]
      exact .inr rfl
  | aborted e => simp only [Stands]
  | _ => simpa only [Stands, hpc, huser] using hstands

theorem Steered.turn (hs : Steered h p) (t : Processes.Turn) :
    Steered h (Processes.turn h p t) := by
  refine Processes.turn_of_progress h hs fun hdefined => ?_
  cases t with
  | user a => exact hs.advance hdefined a
  | capture polled =>
    cases hpc : p.pc with
    | aborted e => simpa only [Processes.progress, hpc] using hs
    | _ => simpa only [Processes.progress, hpc] using hs.capture hdefined polled

end Turns

theorem steered_started (h : Start) : Steered h (started h) := by
  have hnone (pc : Processes.Pc) (s : Settings) (hpc : ∃ status, pc = .exited status) :
      Steered h ⟨[], constructed, pc, s, [], h.now, h.now, h.files⟩ := by
    obtain ⟨status, rfl⟩ := hpc
    exact ⟨.inr rfl, [], trivial, rfl⟩
  unfold started
  dsimp only
  cases parseArguments defaults h.args with
  | help => exact hnone _ _ ⟨0, rfl⟩
  | invalidPort => exact hnone _ _ ⟨1, rfl⟩
  | settings s =>
    dsimp only
    split
    · exact hnone _ _ ⟨1, rfl⟩
    · refine ⟨trivial, [.call (.initializeOn (interfaceOf h s))], ⟨?_, trivial⟩, rfl⟩
      rintro ⟨-, -, hopen, -⟩
      cases hopen

/-- Balanced calls that touch nothing but the list of `main`. -/
structure Apart (calls : List (Base.Custody.Call Resource)) : Prop where
  balanced : Balanced calls
  seen : ∀ r ∈ (custody calls).seen, r = .interfaces

theorem apart_nil : Apart [] := ⟨(balanced_iff []).mpr ⟨trivial, rfl⟩, fun _ hr => nomatch hr⟩

theorem interfaceCalls_apart (h : Start) (s : Settings) : Apart (interfaceCalls h s) := by
  unfold interfaceCalls
  split_ifs
  · cases h.alldevs with
    | none => exact apart_nil
    | some devs =>
      dsimp only
      refine ⟨(balanced_iff _).mpr ⟨⟨?_, List.mem_cons_self, List.mem_cons_self, trivial⟩, rfl⟩,
        by decide⟩
      exact fun hin => nomatch hin
  · exact apart_nil

theorem lookup_apart (h : Start) (turns : List Processes.Turn) :
    Apart (process h turns).lookup := by
  have hsame : (process h turns).lookup = (started h).lookup :=
    run_invariant (fun p t hp _ => (turn_lookup h p t).trans hp) rfl
      (eachStep_of_forall (p := fun _ => True) fun _ _ => trivial)
  rw [hsame, started]
  dsimp only
  cases parseArguments defaults h.args with
  | help | invalidPort => exact apart_nil
  | settings s =>
    dsimp only
    split
    · exact apart_nil
    · exact interfaceCalls_apart h s

/-- Whatever the command line says, the network sends and the scheduler does, the process makes no
wrong call of libpcap and loses no thread, and when it exits it has given back, once, all that it
got. -/
theorem process_calls_safe (h : Start) (turns : List Processes.Turn) :
    Safe (process h turns).calls ∧ (process h turns).life.user ≠ .terminated ∧
      ∀ status, (process h turns).pc = .exited status → Balanced (process h turns).calls := by
  have hsteered : Steered h (process h turns) :=
    run_invariant (fun p t hp _ => hp.turn t) (steered_started h)
      (eachStep_of_forall fun _ _ => trivial)
  have hlookup := lookup_apart h turns
  have hsound := hsteered.sound
  -- the object never gets the list of `main`
  have hother : ∀ r ∈ (custody (process h turns).lookup).seen,
      Call.acquire r ∉ (process h turns).life.calls := by
    intro r hr hin
    have hknown := hsound.kept.known r (seen_of_acquired hin)
    rw [hlookup.seen r hr] at hknown
    exact hknown
  obtain ⟨hsafe, hheld⟩ := hlookup.balanced.append hsound.kept.safe hother
  have hallowed := hsound.allowed
  refine ⟨hsafe, ?_, ?_⟩
  · intro hterminated
    rw [hterminated] at hallowed
    exact hallowed
  · intro status hexited
    refine (balanced_iff _).mpr ⟨hsafe, hheld.trans ?_⟩
    have hstands := hsteered.stands
    simp only [Stands, hexited] at hstands
    rcases hstands with hgone | hnone
    · rw [hgone] at hallowed
      rw [hsound.kept.held, owned, hgone, hallowed.1]
      rfl
    · rw [hnone]
      rfl

end MyTelnet.Program.Cleanup
