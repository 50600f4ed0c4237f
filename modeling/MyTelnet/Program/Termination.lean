/- module: MyTelnet/Program/Termination
   scope: proofs
   digest: Under a fair scheduler the process ends, after work that the frames it handles bound. -/

import MyTelnet.Program.Cleanup
import MyTelnet.Stack.CaptureLoop
import MyTelnet.Stack.LifetimeRuns

set_option autoImplicit false
set_option relaxedAutoImplicit false

namespace MyTelnet.Program.Termination

open MyTelnet.Base.ByteOrder MyTelnet.Base.Runs MyTelnet.Base.Fairness MyTelnet.Wire.Layers
open MyTelnet.Wire.Parsers MyTelnet.Stack.State MyTelnet.Stack.Operations MyTelnet.Stack.Receive
open MyTelnet.Stack.Run MyTelnet.Stack.Lifetimes MyTelnet.Stack.LifetimeRuns
open MyTelnet.Stack.Ownership MyTelnet.Stack.CaptureLoop
open MyTelnet.Http.Sessions MyTelnet.Http.Timing MyTelnet.Http.Delivery
open MyTelnet.Program.Arguments MyTelnet.Program.Processes MyTelnet.Program.Cleanup

/-- The steps of the main thread up to where it is back from a call, or waits for the capture
thread. -/
def placesTo : UserPc → Nat
  | .opening _ => 9
  | .settingNonblock _ => 8
  | .readingDatalink _ => 7
  | .findingDevices _ => 6
  | .freeingDevices .. => 5
  | .compiling | .compilingFor _ => 4
  | .settingFilter _ | .settingFilterFor .. => 3
  | .freeingFilter .. | .freeingFilterFor .. => 2
  | .closingFailed | .startingThread | .installing _ | .stopping => 1
  | .idle | .joining | .closingHandle | .gone | .terminated => 0

theorem proceed_placesTo (l : Lifetime) (a : Stack.Lifetimes.Answers) :
    placesTo (l.proceed a).user ≤ placesTo l.user - 1 := by
  obtain ⟨stack, handle, joinable, shouldStop, user, capture, drawn, calls⟩ := l
  obtain ⟨ok, alldevs, mac, sent⟩ := a
  cases user with
  | opening | settingNonblock | findingDevices | compiling | compilingFor =>
    cases ok <;> exact Nat.le_of_ble_eq_true rfl
  | freeingDevices n found => cases found <;> exact Nat.le_of_ble_eq_true rfl
  | freeingFilter n installed => cases installed <;> exact Nat.le_of_ble_eq_true rfl
  | freeingFilterFor args n installed => cases installed <;> exact Nat.le_of_ble_eq_true rfl
  | startingThread => cases joinable <;> exact Nat.le_of_ble_eq_true rfl
  | joining =>
    cases joinable with
    | false => exact Nat.le_of_ble_eq_true rfl
    | true => cases capture <;> exact Nat.le_of_ble_eq_true rfl
  | closingHandle => cases handle <;> exact Nat.le_of_ble_eq_true rfl
  | _ => exact Nat.le_of_ble_eq_true rfl

theorem placesTo_initializing {pc : UserPc} (h : Initializing pc) (hbusy : pc ≠ .idle) :
    0 < placesTo pc := by
  cases pc with
  | idle => exact absurd rfl hbusy
  | compilingFor | settingFilterFor | freeingFilterFor | installing | stopping | joining
  | closingHandle | gone | terminated => exact h.elim
  | _ => simp [placesTo]

theorem placesTo_connecting {c : Call} {pc : UserPc} (h : Connecting c pc) (hbusy : pc ≠ .idle) :
    0 < placesTo pc := by
  cases pc with
  | idle => exact absurd rfl hbusy
  | compilingFor | settingFilterFor | freeingFilterFor | installing => simp [placesTo]
  | _ => exact h.elim

/-- The steps that the main thread can still make before it waits for the capture thread in the
destructor, if nothing arrives. -/
def work (p : Process) : Nat :=
  match p.pc with
  | .initializing => placesTo p.life.user + budget (p.timed .connecting) + 12
  | .opening => budget (p.timed .connecting) + 11
  | .getting .connecting => budget (p.timed .connecting) + 10
  | .connecting => placesTo p.life.user + budget (p.timed .connecting) + 5
  | .getting call => budget (p.timed call) + 5
  | .closing => 4
  | .leaving _ => 3
  | .destroying _ => 2
  | .joining _ => placesTo p.life.user
  | .exited _ | .aborted _ => 0

section Steps

variable {h : Start} {p : Process}

theorem work_getting {call : Http.Sessions.Pc} (hpc : p.pc = .getting call)
    (hcall : call ≠ .connecting) : work p = budget (p.timed call) + 5 := by
  cases call with
  | connecting => exact absurd rfl hcall
  | _ => simp only [work, hpc]

/-- Behind a step of `get` that leaves the stack as the call sees it. -/
theorem work_tick {c : Call} {w : Timed} {pass : Pass} {p' : Process}
    (hpc : p'.pc = .getting (tick c w pass).session.pc)
    (htimed : p'.timed (tick c w pass).session.pc = tick c w pass) (hsteps : 0 < budget w) :
    work p' ≤ budget w + 4 := by
  have hcall : (tick c w pass).session.pc ≠ .connecting := by
    rw [tick_session]
    exact advance_ne_connecting c w.session _
  have htick := tick_budget c w pass
  rw [work_getting hpc hcall, htimed]
  omega

theorem timed_resume {w : Timed} (p : Process) (hstack : p.life.stack = w.session.stack) :
    (p.resume w).timed w.session.pc = w := by
  rw [Process.timed, Process.resume]
  dsimp only
  rw [hstack]

theorem budget_connecting (p : Process) : 0 < budget (p.timed .connecting) := by
  show 0 < 1506 + _
  omega

theorem budget_underway {call : Http.Sessions.Pc} (p : Process) (hcall : Underway call) :
    0 < budget (p.timed call) :=
  Nat.pos_of_ne_zero fun hzero => hcall.2 (budget_over.mp hzero)

/-- Before `connect`, it is the queue that counts. -/
theorem budget_queue (p p' : Process)
    (hqueue : p'.life.stack.dataQueue = p.life.stack.dataQueue) :
    budget (p'.timed .connecting) = budget (p.timed .connecting) := by
  simp only [budget, Process.timed, hqueue]

theorem work_initializing (hpc : p.pc = .initializing) :
    work p = placesTo p.life.user + budget (p.timed .connecting) + 12 := by
  simp only [work, hpc]

theorem work_connecting (hpc : p.pc = .connecting) :
    work p = placesTo p.life.user + budget (p.timed .connecting) + 5 := by
  simp only [work, hpc]

theorem advance_work (hs : Steered h p) (hdefined : p.life.capture ≠ .undefined)
    (a : Processes.Answers) : work (Processes.advance h p a) ≤ work p - 1 := by
  have hmoves := advance_moves h p a
  have hstands := hs.stands
  have hproceed := proceed_placesTo p.life a.machine
  have hpos := budget_connecting p
  generalize Processes.advance h p a = p' at hmoves
  cases hmoves with
  | initializes pc user =>
    simp only [Stands, pc] at hstands
    have hother : ∀ args, p.life.user ≠ .installing args := by
      intro args huser
      rw [huser] at hstands
      exact hstands
    have hplaces := placesTo_initializing hstands user
    have hqueue := budget_queue p { p with life := p.life.proceed a.machine }
      (proceed_unconnected hother a.machine).2
    rw [work_initializing pc,
      work_initializing (p := { p with life := p.life.proceed a.machine }) pc, hqueue]
    dsimp only
    omega
  | prepares pc user early =>
    simp only [Stands, pc] at hstands
    have hplaces := placesTo_connecting hstands user
    have hqueue := budget_queue p { p with life := p.life.proceed a.machine }
      (proceed_unconnected early a.machine).2
    rw [work_connecting pc,
      work_connecting (p := { p with life := p.life.proceed a.machine }) pc, hqueue]
    dsimp only
    omega
  | initialized pc | opens pc =>
    simp only [work, pc]
    show budget (p.timed .connecting) + _ ≤ _
    omega
  | uninitialized pc | cannotOpen pc =>
    simp only [work, pc]
    omega
  | connects pc args =>
    simp only [Stands, pc] at hstands
    have hturn : Stack.Lifetimes.turn p.life (.call (.connect args)) =
        p.life.call (.connect args) := turn_call hdefined hstands (.connect args)
    have hplaces : placesTo (p.life.call (.connect args)).user ≤ 4 := by
      rw [Lifetime.call]
      split
      · rw [hstands]
        exact Nat.zero_le 4
      · exact Nat.le_refl 4
    have hbefore : work p = budget (p.timed .connecting) + 10 := by simp only [work, pc]
    rw [work_connecting rfl, hbefore, hturn,
      budget_queue p _ (congrArg TcpStack.dataQueue (call_stack p.life (.connect args)).1)]
    dsimp only
    omega
  | unprepared pc user =>
    have htimed := timed_resume p (tick_unset (callOf h p.settings) p a.pass).symm
    refine (work_tick rfl htimed hpos).trans ?_
    rw [work_connecting pc]
    omega
  | installs pc args user =>
    simp only [Stands, pc] at hstands
    have htimed := timed_resume { p with life := p.life.proceed a.machine }
      (tick_installed user hstands a)
    refine (work_tick rfl htimed hpos).trans ?_
    rw [work_connecting pc]
    omega
  | receives buffer pc =>
    have hunder : Underway (.receiving buffer) := ⟨by simp, by simp [Over]⟩
    have hsteps := budget_underway p hunder
    refine (work_tick rfl rfl hsteps).trans ?_
    rw [work_getting pc hunder.1]
    omega
  | gets call pc underway =>
    have hsteps := budget_underway p underway
    refine (work_tick rfl rfl hsteps).trans ?_
    rw [work_getting pc underway.1]
    omega
  | succeeds pc =>
    rw [work_getting pc (by simp)]
    exact Nat.le_add_left 4 _
  | fails pc =>
    have hleaves : work { p with pc := .leaving 1 } = 3 := rfl
    have hbefore : 5 ≤ work p := by
      rcases pc with pc | pc
      all_goals
        rw [work_getting pc (by simp)]
        exact Nat.le_add_left 5 _
    omega
  | aborts e pc | exits status pc => exact Nat.zero_le _
  | closes pc | leaves status pc => simp [work, pc]
  | destroys status pc =>
    simp only [Stands, pc] at hstands
    simp only [work, pc, turn_call hdefined hstands]
    exact Nat.le_refl 1
  | joins status pc user =>
    simp only [work, pc]
    exact hproceed
  | ended pc =>
    rcases pc with ⟨status, pc⟩ | ⟨e, pc⟩
    · simp [work, pc]
    · simp [work, pc]

end Steps

/-! Frames, and whole runs. -/

/-- The frames whose handling ends at a turn. -/
def heard (p : Process) : Processes.Turn → List Bytes
  | .user _ => []
  | .capture polled =>
    match p.pc with
    | .aborted _ => []
    | _ => handledFrames p.life (.capture polled)

def isUser : Processes.Turn → Bool
  | .user _ => true
  | .capture _ => false

/-- The steps of the main thread in a run. -/
def mainSteps (turns : List Processes.Turn) : Nat := turns.countP isUser

theorem capture_queue (l : Lifetime) (polled : Polled) :
    (l.advanceCapture polled).stack.dataQueue.length ≤
      l.stack.dataQueue.length + (handledFrames l (.capture polled)).length := by
  have hstack := (capture_stack l polled).1
  cases hcapture : l.capture with
  | handling packetsProcessed frame =>
    have hactions : threadActions l (.capture polled) = frameActions frame polled.sent := by
      simp [threadActions, hcapture]
    have hframe : (handledFrames l (.capture polled)).length = 1 := by
      simp [handledFrames, hcapture]
    rw [hactions, frameActions] at hstack
    rw [hframe, hstack]
    split
    · exact queue_packet _ _ _
    all_goals exact Nat.le_succ _
  | _ =>
    have hnone : threadActions l (.capture polled) = [] := by simp [threadActions, hcapture]
    rw [hnone] at hstack
    rw [hstack]
    exact Nat.le_add_right _ _

theorem capture_work (p : Process) (polled : Polled) :
    work { p with life := p.life.advanceCapture polled } ≤
      work p + 501 * (handledFrames p.life (.capture polled)).length := by
  obtain ⟨lookup, life, pc, settings, chunks, clock, startTime, files⟩ := p
  have hqueue := capture_queue life polled
  have huser := (capture_frame life polled).2.1
  cases pc with
  | getting call =>
    cases call with
    | connecting | waiting | sending | receiving =>
      simp only [work, budget, Process.timed]
      omega
    | _ => exact Nat.le_add_right _ _
  | initializing | opening | connecting =>
    simp only [work, budget, Process.timed, huser]
    omega
  | joining status =>
    simp only [work, huser]
    exact Nat.le_add_right _ _
  | _ => exact Nat.le_add_right _ _

/-- The main thread is through with its work. -/
theorem work_over {p : Process} (hwork : work p = 0) :
    (∃ status, p.pc = .joining status ∧ placesTo p.life.user = 0) ∨
      (∃ status, p.pc = .exited status) ∨ ∃ e, p.pc = .aborted e := by
  cases hpc : p.pc with
  | joining status => exact .inl ⟨status, rfl, by simpa only [work, hpc] using hwork⟩
  | exited status => exact .inr (.inl ⟨status, rfl⟩)
  | aborted e => exact .inr (.inr ⟨e, rfl⟩)
  | getting call => cases call <;> simp [work, hpc] at hwork
  | _ => simp [work, hpc] at hwork

/-- The work that is left, which is none once a frame has made the behaviour undefined. -/
def remaining (p : Process) : Nat := if p.life.capture = .undefined then 0 else work p

section Runs

variable {h : Start} {p : Process}

theorem remaining_le (p : Process) : remaining p ≤ work p := by
  rw [remaining]
  split
  · exact Nat.zero_le _
  · exact Nat.le_refl _

theorem turn_over (hs : Steered h p) (hover : remaining p = 0) (t : Processes.Turn) :
    remaining (Processes.turn h p t) = 0 := by
  refine turn_of_progress h (P := fun p' => remaining p' = 0) hover fun hdefined => ?_
  rw [remaining, if_neg hdefined] at hover
  refine Nat.le_zero.mp ((remaining_le _).trans ?_)
  cases t with
  | user a =>
    have hstep := advance_work hs hdefined a
    rw [hover] at hstep
    exact hstep
  | capture polled =>
    rcases work_over hover with ⟨status, hpc, hplaces⟩ | ⟨status, hpc⟩ | ⟨e, hpc⟩
    · simp only [progress, hpc, work, (capture_frame p.life polled).2.1]
      exact hplaces.le
    · simp only [progress, hpc, work]
      exact Nat.le_refl 0
    · simp only [progress, hpc]
      exact hover.le

theorem turn_spends (hs : Steered h p) (hsome : remaining p ≠ 0) (t : Processes.Turn) :
    remaining (Processes.turn h p t) + (if isUser t then 1 else 0) ≤
      remaining p + 501 * (heard p t).length := by
  have hdefined : p.life.capture ≠ .undefined := fun hc => hsome (if_pos hc)
  rw [remaining, if_neg hdefined] at hsome
  have hbefore : remaining p = work p := if_neg hdefined
  have hafter := remaining_le (progress h p t)
  rw [turn_defined h hdefined, hbefore]
  refine (Nat.add_le_add_right hafter _).trans ?_
  cases t with
  | user a =>
    have hstep : work (progress h p (.user a)) ≤ work p - 1 := advance_work hs hdefined a
    show work (progress h p (.user a)) + 1 ≤ work p + 0
    omega
  | capture polled =>
    cases hpc : p.pc with
    | aborted e => exact absurd (by simp only [work, hpc]) hsome
    | _ => simpa [progress, heard, hpc, isUser] using capture_work p polled

end Runs

/-! The end: the destructor, the join, the exit. -/

/-- What a turn of the process in the destructor is to the object. -/
def objectTurn : Processes.Turn → Stack.Lifetimes.Turn
  | .user a => .proceed a.machine
  | .capture polled => .capture polled

/-- The main thread waits for the capture thread, or is behind that. -/
def Winding (p : Process) : Prop :=
  (∃ status, p.pc = .joining status) ∨ ∃ status, p.pc = .exited status ∧ p.life.user = .gone

/-- The process has ended. -/
def Ended (p : Process) : Prop := (∃ status, p.pc = .exited status) ∨ ∃ e, p.pc = .aborted e

/-- The process has ended, or a frame has made its behaviour undefined. -/
def Halted (p : Process) : Prop := Ended p ∨ p.life.capture = .undefined

section Winding

variable {h : Start} {p : Process}

/-- A process in the destructor is the object in it. -/
theorem Winding.turn (hw : Winding p) (t : Processes.Turn) :
    Winding (Processes.turn h p t) ∧
      (Processes.turn h p t).life = Stack.Lifetimes.turn p.life (objectTurn t) := by
  by_cases hdefined : p.life.capture = .undefined
  · rw [turn_undefined h hdefined, Stack.Lifetimes.turn_undefined hdefined]
    exact ⟨hw, rfl⟩
  rw [turn_defined h hdefined, Stack.Lifetimes.turn_defined hdefined]
  obtain ⟨lookup, life, pc, settings, chunks, clock, startTime, files⟩ := p
  obtain ⟨status, hpc⟩ | ⟨status, hpc, hgone⟩ := hw
  · obtain rfl : pc = .joining status := hpc
    cases t with
    | user a =>
      obtain ⟨stack, handle, joinable, shouldStop, user, capture, drawn, calls⟩ := life
      cases user with
      | gone => exact ⟨.inr ⟨status, rfl, rfl⟩, rfl⟩
      | _ => exact ⟨.inl ⟨status, rfl⟩, rfl⟩
    | capture polled => exact ⟨.inl ⟨status, rfl⟩, rfl⟩
  · obtain rfl : pc = .exited status := hpc
    cases t with
    | user a =>
      have hsame : life.proceed a.machine = life := by
        rw [Lifetime.proceed, show life.user = .gone from hgone]
      exact ⟨.inr ⟨status, rfl, hgone⟩, hsame.symm⟩
    | capture polled =>
      exact ⟨.inr ⟨status, rfl, (capture_frame life polled).2.1.trans hgone⟩, rfl⟩

theorem winding_run (hw : Winding p) (turns : List Processes.Turn) :
    Winding (run (Processes.turn h) p turns) ∧
      (run (Processes.turn h) p turns).life =
        run Stack.Lifetimes.turn p.life (turns.map objectTurn) := by
  induction turns generalizing p with
  | nil => exact ⟨hw, rfl⟩
  | cons t turns ih =>
    obtain ⟨hwinding, hlife⟩ := hw.turn (h := h) t
    obtain ⟨hrest, hrun⟩ := ih hwinding
    refine ⟨hrest, ?_⟩
    rw [run_cons, hrun, hlife]
    rfl

theorem Halted.turn (hhalted : Halted p) (t : Processes.Turn) : Halted (Processes.turn h p t) := by
  refine turn_of_progress h (P := Halted) hhalted fun hdefined => .inl ?_
  obtain ⟨lookup, life, pc, settings, chunks, clock, startTime, files⟩ := p
  obtain ⟨status, hpc⟩ | ⟨e, hpc⟩ := hhalted.resolve_right hdefined
  · obtain rfl : pc = .exited status := hpc
    cases t <;> exact .inl ⟨status, rfl⟩
  · obtain rfl : pc = .aborted e := hpc
    cases t <;> exact .inr ⟨e, rfl⟩

theorem halted_run (hhalted : Halted p) (turns : List Processes.Turn) :
    Halted (run (Processes.turn h) p turns) :=
  run_invariant (fun _ t hp _ => hp.turn t) hhalted (eachStep_of_forall fun _ _ => trivial)

/-- Behind the destructor, the next step of the main thread is the exit. -/
theorem Winding.exits (hw : Winding p) (hdone : Done p.life) {turns : List Processes.Turn}
    (huser : ∃ t ∈ turns, isUser t = true) : Halted (run (Processes.turn h) p turns) := by
  by_cases hdefined : p.life.capture = .undefined
  · exact halted_run (.inr hdefined) turns
  have hgone := hdone.resolve_right hdefined
  induction turns generalizing p with
  | nil => simp at huser
  | cons t turns ih =>
    rw [run_cons]
    cases t with
    | user a =>
      refine halted_run (.inl (.inl ?_)) turns
      rw [turn_defined h hdefined]
      rcases hw with ⟨status, hpc⟩ | ⟨status, hpc, -⟩
      · refine ⟨status, ?_⟩
        simp only [progress, Processes.advance, hpc, hgone]
      · refine ⟨status, ?_⟩
        simp only [progress, Processes.advance, hpc]
    | capture polled =>
      obtain ⟨hwinding, hlife⟩ := hw.turn (h := h) (.capture polled)
      have hgone' : (Processes.turn h p (.capture polled)).life.user = .gone := by
        rw [hlife, Stack.Lifetimes.turn_defined hdefined]
        exact (capture_frame p.life polled).2.1.trans hgone
      by_cases hdefined' : (Processes.turn h p (.capture polled)).life.capture = .undefined
      · exact halted_run (.inr hdefined') turns
      · exact ih hwinding (.inl hgone') (by simpa [isUser] using huser) hdefined' hgone'

/-- A round in which both threads get a turn, and `pcap_next_ex` returns documented results. -/
def FairRound (round : List Processes.Turn) : Prop :=
  Fair DocumentedTurn thread (round.map objectTurn)

theorem FairRound.user {round : List Processes.Turn} (hfair : FairRound round) :
    ∃ t ∈ round, isUser t = true := by
  obtain ⟨t', ht', hthread⟩ := hfair.2 .user
  obtain ⟨t, ht, rfl⟩ := List.mem_map.mp ht'
  cases t with
  | user a => exact ⟨_, ht, rfl⟩
  | capture polled => cases hthread

theorem placesTo_joining {pc : UserPc} (h : Joining pc) (hplaces : placesTo pc = 0) :
    Leaving pc := by
  cases pc with
  | stopping => cases hplaces
  | joining | closingHandle | gone => trivial
  | _ => exact h.elim

theorem destroying_of_over {status : Nat} (hs : Steered h p) (hpc : p.pc = .joining status)
    (hplaces : placesTo p.life.user = 0) : Destroying p.life ∧ workLeft p.life ≤ 24 := by
  obtain ⟨turns, -, hlife⟩ := hs.turns
  have hlooping : Looping p.life := by
    rw [hlife]
    exact run_invariant (fun l t hl _ => hl.turn t) looping_constructed
      (eachStep_of_forall (p := fun _ => True) fun _ _ => trivial)
  have hstands := hs.stands
  simp only [Stands, hpc] at hstands
  have hleaving := placesTo_joining hstands hplaces
  exact ⟨⟨hs.sound, hlooping, .inr hleaving⟩, workLeft_told hlooping hleaving⟩

/-- The destructor returns and the process exits. -/
theorem halts_of_over (hs : Steered h p) (hover : remaining p = 0)
    {rounds : List (List Processes.Turn)}
    (hfair : ∀ round ∈ rounds, FairRound round) (hlong : 25 ≤ rounds.length) :
    Halted (run (Processes.turn h) p rounds.flatten) := by
  by_cases hdefined : p.life.capture = .undefined
  · exact halted_run (.inr hdefined) _
  rw [remaining, if_neg hdefined] at hover
  rcases work_over hover with ⟨status, hpc, hplaces⟩ | hended
  · obtain ⟨first, last, rfl⟩ : ∃ first last, rounds = first ++ [last] :=
      ⟨_, _, (List.dropLast_append_getLast (List.ne_nil_of_length_pos (by omega))).symm⟩
    rw [List.length_append, List.length_singleton] at hlong
    rw [List.flatten_append, run_append, List.flatten_singleton]
    have hwinding : Winding p := .inl ⟨status, hpc⟩
    obtain ⟨hdestroying, hleft⟩ := destroying_of_over hs hpc hplaces
    obtain ⟨hlast, hlife⟩ := winding_run (h := h) hwinding first.flatten
    refine hlast.exits ?_ (hfair last (by simp)).user
    rw [hlife, List.map_flatten]
    refine destructor_descent.rounds hdestroying ?_ ?_
    · intro round hround
      obtain ⟨round', hmem, rfl⟩ := List.mem_map.mp hround
      exact hfair round' (by simp [hmem])
    · rw [List.length_map]
      omega
  · exact halted_run (.inl hended) _

end Winding

theorem work_started (h : Start) : work (started h) ≤ 1527 := by
  unfold started
  dsimp only
  cases parseArguments defaults h.args with
  | help | invalidPort => exact Nat.zero_le _
  | settings s =>
    dsimp only
    split
    · exact Nat.zero_le _
    · exact Nat.le_refl _

/-- The process ends: it is through with its work after 1527 steps of the main thread, and 501 more
for each frame that was handled meanwhile, and then as soon as both threads have got their turn
twenty-five times; unless a frame makes its behaviour undefined before. -/
theorem process_ends (h : Start) (turns : List Processes.Turn)
    (rounds : List (List Processes.Turn))
    (hwork : 1527 + 501 * (collect (Processes.turn h) heard (started h) turns).length ≤
      mainSteps turns)
    (hfair : ∀ round ∈ rounds, FairRound round) (hlong : 25 ≤ rounds.length) :
    Ended (process h (turns ++ rounds.flatten)) ∨
      (process h (turns ++ rounds.flatten)).life.capture = .undefined := by
  have hsteered : Steered h (process h turns) :=
    run_invariant (fun p t hp _ => hp.turn t) (steered_started h)
      (eachStep_of_forall fun _ _ => trivial)
  have hover : remaining (process h turns) = 0 := by
    have hstart := (remaining_le _).trans (work_started h)
    have hrun : remaining (process h turns) = 0 ∨
        remaining (process h turns) + mainSteps turns ≤ remaining (started h) +
          501 * (collect (Processes.turn h) heard (started h) turns).length :=
      run_spends (Steered h) (fun p t hp => hp.turn t) (fun p t hp hzero => turn_over hp hzero t)
        (fun p t hp hsome => turn_spends hp hsome t) (steered_started h) turns
    omega
  show Halted (process h (turns ++ rounds.flatten))
  rw [process, run_append]
  exact halts_of_over hsteered hover hfair hlong

theorem process_ends_sample :
    Ended (process sampleStart (List.replicate 1527 sampleUser ++
        (List.replicate 25 [sampleUser, sampleCapture 0 []]).flatten)) ∨
      (process sampleStart (List.replicate 1527 sampleUser ++
        (List.replicate 25 [sampleUser, sampleCapture 0 []]).flatten)).life.capture =
          .undefined := by
  have hsilent : collect (Processes.turn sampleStart) heard (started sampleStart)
      (List.replicate 1527 sampleUser) = [] := by
    apply collect_eq_nil
    intro p t ht
    rw [List.eq_of_mem_replicate ht]
    rfl
  refine process_ends sampleStart _ _ ?_ ?_ (by simp)
  · rw [hsilent, mainSteps, List.countP_replicate]
    exact Nat.le_refl _
  · intro round hround
    obtain rfl := List.eq_of_mem_replicate hround
    refine ⟨by simp [objectTurn, sampleUser, sampleCapture, DocumentedTurn, Documented], ?_⟩
    intro k
    cases k <;> simp [objectTurn, sampleUser, sampleCapture, thread]

end MyTelnet.Program.Termination
