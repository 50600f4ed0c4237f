/- module: MyTelnet/Stack/CaptureLoop
   scope: proofs
   digest: The capture thread handles each frame once and in order, and ends soon after it is told. -/

import MyTelnet.Base.Fairness
import MyTelnet.Stack.Ownership

set_option autoImplicit false
set_option relaxedAutoImplicit false

namespace MyTelnet.Stack.CaptureLoop

open MyTelnet.Base.ByteOrder MyTelnet.Base.Runs MyTelnet.Base.Fairness
open MyTelnet.Stack.State MyTelnet.Stack.Receive MyTelnet.Stack.Lifetimes MyTelnet.Stack.Ownership

/-- The frames that `pcap_next_ex` returns at a turn. -/
def returnedFrames (l : Lifetime) : Turn → List Bytes
  | .capture p =>
    match l.capture with
    | .polling packetsProcessed =>
      if packetsProcessed < maxPacketsPerLoop ∧ p.res = 1 then [p.frame] else []
    | _ => []
  | _ => []

/-- The frames whose handling ends at a turn. -/
def handledFrames (l : Lifetime) : Turn → List Bytes
  | .capture _ =>
    match l.capture with
    | .handling _ frame => [frame]
    | _ => []
  | _ => []

/-- The frame that the capture thread is about to handle. -/
def pendingFrames (l : Lifetime) : List Bytes :=
  match l.capture with
  | .handling _ frame => [frame]
  | _ => []

/-- Places of the user thread behind the one where the destructor sets `should_stop_`. -/
def Leaving : UserPc → Prop
  | .joining | .closingHandle | .gone => True
  | _ => False

/-- What the user thread does to the capture thread and to what the two share. -/
inductive Handling (l l' : Lifetime) : Prop
  | same (joinable : l'.joinable = l.joinable) (shouldStop : l'.shouldStop = l.shouldStop)
      (capture : l'.capture = l.capture) (leaving : Leaving l'.user ↔ Leaving l.user)
  | started (user : l.user = .startingThread) (unstarted : l.joinable = false)
      (joinable : l'.joinable = true) (shouldStop : l'.shouldStop = false)
      (capture : l'.capture = .testing) (user' : l'.user = .idle)
  | refused (user : l.user = .startingThread) (joinable : l'.joinable = l.joinable)
      (shouldStop : l'.shouldStop = false) (capture : l'.capture = l.capture)
      (user' : l'.user = .terminated)
  | stopped (user : l.user = .stopping) (joinable : l'.joinable = l.joinable)
      (shouldStop : l'.shouldStop = true) (capture : l'.capture = l.capture)
      (user' : l'.user = .joining)
  | joined (user : l.user = .joining) (finished : l.capture = .finished)
      (joinable : l'.joinable = false) (shouldStop : l'.shouldStop = l.shouldStop)
      (capture : l'.capture = l.capture) (user' : l'.user = .closingHandle)

theorem proceed_handling (l : Lifetime) (a : Answers) : Handling l (l.proceed a) := by
  obtain ⟨stack, handle, joinable, shouldStop, user, capture, drawn, calls⟩ := l
  obtain ⟨ok, alldevs, mac, sent⟩ := a
  cases user with
  | idle | gone | terminated | readingDatalink | settingFilter | closingFailed | settingFilterFor
  | installing =>
    exact .same rfl rfl rfl .rfl
  | opening | settingNonblock | findingDevices | compiling | compilingFor =>
    cases ok <;> exact .same rfl rfl rfl .rfl
  | freeingDevices n found => cases found <;> exact .same rfl rfl rfl .rfl
  | freeingFilter n installed => cases installed <;> exact .same rfl rfl rfl .rfl
  | freeingFilterFor args n installed => cases installed <;> exact .same rfl rfl rfl .rfl
  | startingThread =>
    cases joinable with
    | false => exact .started rfl rfl rfl rfl rfl rfl
    | true => exact .refused rfl rfl rfl rfl rfl
  | stopping => exact .stopped rfl rfl rfl rfl rfl
  | joining =>
    cases joinable with
    | false => exact .same rfl rfl rfl .rfl
    | true =>
      cases capture with
      | finished => exact .joined rfl rfl rfl rfl rfl rfl
      | _ => exact .same rfl rfl rfl .rfl
  | closingHandle => cases handle <;> exact .same rfl rfl rfl .rfl

theorem call_handling (l : Lifetime) (request : Request) :
    Handling l (l.progress (.call request)) := by
  obtain ⟨stack, handle, joinable, shouldStop, user, capture, drawn, calls⟩ := l
  cases user with
  | idle =>
    cases request with
    | connect args => cases handle <;> exact .same rfl rfl rfl .rfl
    | _ => exact .same rfl rfl rfl .rfl
  | _ => exact .same rfl rfl rfl .rfl

/-! What holds of the capture thread in every run. -/

/-- The counter of the inner loop stays within a batch. -/
def InBatch : CapturePc → Prop
  | .polling packetsProcessed => packetsProcessed ≤ maxPacketsPerLoop
  | .handling packetsProcessed _ =>
    1 ≤ packetsProcessed ∧ packetsProcessed ≤ maxPacketsPerLoop
  | _ => True

structure Looping (l : Lifetime) : Prop where
  batch : InBatch l.capture
  running : Running l.capture → l.joinable = true
  started : l.joinable = true → l.capture ≠ .notStarted
  leaving : Leaving l.user → l.shouldStop = true
  told : l.shouldStop = true → l.joinable = true ∨ Leaving l.user

theorem looping_constructed : Looping constructed :=
  ⟨trivial, fun h => h.elim, fun h => absurd h (by simp [constructed]), fun h => h.elim,
    fun h => absurd h (by simp [constructed])⟩

section Turns

variable {l l' : Lifetime}

theorem Looping.handling (h : Looping l) (hstep : Handling l l') : Looping l' := by
  cases hstep with
  | same joinable shouldStop capture leaving =>
    refine ⟨?_, ?_, ?_, ?_, ?_⟩
    · rw [capture]
      exact h.batch
    · rw [capture, joinable]
      exact h.running
    · rw [capture, joinable]
      exact h.started
    · rw [leaving, shouldStop]
      exact h.leaving
    · rw [leaving, shouldStop, joinable]
      exact h.told
  | started user unstarted joinable shouldStop capture user' =>
    refine ⟨?_, fun _ => joinable, fun _ => ?_, ?_, fun _ => .inl joinable⟩
    · rw [capture]
      trivial
    · rw [capture]
      simp
    · rw [user']
      exact fun hl => hl.elim
  | refused user joinable shouldStop capture user' =>
    refine ⟨?_, ?_, ?_, ?_, ?_⟩
    · rw [capture]
      exact h.batch
    · rw [capture, joinable]
      exact h.running
    · rw [capture, joinable]
      exact h.started
    · rw [user']
      exact fun hl => hl.elim
    · rw [shouldStop]
      exact fun hs => absurd hs (by simp)
  | stopped user joinable shouldStop capture user' =>
    refine ⟨?_, ?_, ?_, fun _ => shouldStop, fun _ => ?_⟩
    · rw [capture]
      exact h.batch
    · rw [capture, joinable]
      exact h.running
    · rw [capture, joinable]
      exact h.started
    · rw [user']
      exact .inr trivial
  | joined user finished joinable shouldStop capture user' =>
    refine ⟨?_, ?_, ?_, fun _ => ?_, fun _ => ?_⟩
    · rw [capture]
      exact h.batch
    · rw [capture, finished]
      exact fun hr => hr.elim
    · rw [joinable]
      exact fun hj => absurd hj (by simp)
    · rw [shouldStop]
      exact h.leaving (by rw [user]; trivial)
    · rw [user']
      exact .inr trivial

theorem Looping.advance (h : Looping l) (p : Polled) : Looping (l.advanceCapture p) := by
  obtain ⟨stack, handle, joinable, shouldStop, user, capture, drawn, calls⟩ := l
  have hbatch := h.batch
  cases capture with
  | notStarted | finished | undefined => exact h
  | testing =>
    refine ⟨?_, fun _ => h.running trivial, fun _ => ?_, h.leaving, h.told⟩
    · cases shouldStop <;> simp [Lifetime.advanceCapture, Lifetime.gotoCapture, InBatch]
    · cases shouldStop <;> simp [Lifetime.advanceCapture, Lifetime.gotoCapture]
  | polling packetsProcessed =>
    have hjoinable := h.running trivial
    unfold Lifetime.advanceCapture
    dsimp only
    split_ifs with hlt
    · exact ⟨trivial, fun _ => hjoinable, fun _ => by simp [Lifetime.gotoCapture], h.leaving,
        h.told⟩
    · exact ⟨trivial, fun _ => hjoinable, fun _ => by simp, fun _ => rfl, fun _ => .inl hjoinable⟩
    · exact ⟨trivial, fun _ => hjoinable, fun _ => by simp, fun _ => rfl, fun _ => .inl hjoinable⟩
    · refine ⟨⟨Nat.le_add_left 1 _, hlt⟩, fun _ => hjoinable, fun _ => ?_, h.leaving, h.told⟩
      simp [Lifetime.gotoCapture]
    · exact ⟨hbatch, fun _ => hjoinable, fun _ => by simp [Lifetime.record], h.leaving, h.told⟩
    · exact ⟨trivial, fun _ => hjoinable, fun _ => by simp [Lifetime.gotoCapture], h.leaving,
        h.told⟩
  | handling packetsProcessed frame =>
    simp only [Lifetime.advanceCapture]
    cases Receive.capture stack frame p.sent with
    | error e =>
      exact ⟨trivial, fun hr => hr.elim, fun _ => by simp [Lifetime.gotoCapture], h.leaving, h.told⟩
    | ok s =>
      refine ⟨hbatch.2, fun _ => h.running trivial, fun _ => ?_, h.leaving, h.told⟩
      simp [Lifetime.gotoCapture]

theorem Looping.turn (h : Looping l) (t : Turn) : Looping (Lifetimes.turn l t) := by
  apply turn_of_progress h
  intro _
  cases t with
  | call request => exact h.handling (call_handling l request)
  | proceed a => exact h.handling (proceed_handling l a)
  | capture p => exact h.advance p

/-! Frames. -/

theorem pending_handling (h : Looping l) (hstep : Handling l l') :
    pendingFrames l' = pendingFrames l := by
  cases hstep with
  | started user unstarted joinable shouldStop capture user' =>
    have hidle : ¬ Running l.capture := by
      intro hr
      exact absurd ((h.running hr).symm.trans unstarted) (by simp)
    have hnone : pendingFrames l = [] := by
      cases hc : l.capture with
      | handling => exact absurd (by rw [hc]; trivial) hidle
      | _ => simp [pendingFrames, hc]
    have hnone' : pendingFrames l' = [] := by simp [pendingFrames, capture]
    rw [hnone, hnone']
  | same _ _ capture | refused _ _ _ capture | stopped _ _ _ capture | joined _ _ _ _ capture =>
    simp [pendingFrames, capture]

theorem pending_advance (l : Lifetime) (p : Polled) :
    pendingFrames l ++ returnedFrames l (.capture p) =
      handledFrames l (.capture p) ++ pendingFrames (l.advanceCapture p) := by
  cases hc : l.capture with
  | notStarted | finished | undefined =>
    simp [pendingFrames, returnedFrames, handledFrames, Lifetime.advanceCapture, hc]
  | testing =>
    simp only [pendingFrames, returnedFrames, handledFrames, Lifetime.advanceCapture, hc]
    cases l.shouldStop <;> rfl
  | polling packetsProcessed =>
    simp only [pendingFrames, returnedFrames, handledFrames, Lifetime.advanceCapture, hc]
    by_cases hlt : packetsProcessed < maxPacketsPerLoop
    · by_cases hres : p.res = 1
      · simp [hlt, hres, Lifetime.gotoCapture]
      · simp only [hlt, hres, and_false, if_true, if_false]
        split_ifs <;> simp [Lifetime.gotoCapture, Lifetime.record, hc]
    · simp [hlt, Lifetime.gotoCapture]
  | handling packetsProcessed frame =>
    simp only [pendingFrames, returnedFrames, handledFrames, Lifetime.advanceCapture, hc]
    cases Receive.capture l.stack frame p.sent <;> rfl

theorem pending_turn (h : Looping l) (t : Turn) :
    pendingFrames l ++ returnedFrames l t =
      handledFrames l t ++ pendingFrames (turn l t) := by
  by_cases hdefined : l.capture = .undefined
  · rw [turn_undefined hdefined]
    cases t <;> simp [pendingFrames, returnedFrames, handledFrames, hdefined]
  · rw [turn_defined hdefined]
    cases t with
    | call request =>
      simp [returnedFrames, handledFrames, pending_handling h (call_handling l request)]
    | proceed a =>
      simp [returnedFrames, handledFrames, Lifetime.progress,
        pending_handling h (proceed_handling l a)]
    | capture p => exact pending_advance l p

end Turns

/-- Each frame that `pcap_next_ex` returns is handled once and in order; the capture thread has at
most the last of them still in hand. -/
theorem frames_in_order (turns : List Turn) :
    collect turn returnedFrames constructed turns =
      collect turn handledFrames constructed turns ++ pendingFrames (lifetime turns) := by
  have keep (l : Lifetime) (t : Turn) (hl : Looping l) : True → Looping (turn l t) :=
    fun _ => hl.turn t
  have balance (l : Lifetime) (t : Turn) (hl : Looping l) :
      True → pendingFrames l ++ returnedFrames l t = handledFrames l t ++ pendingFrames (turn l t) :=
    fun _ => pending_turn hl t
  exact collect_balance keep balance looping_constructed (eachStep_of_forall fun _ _ => trivial)

/-! The end of the thread. -/

/-- The steps left to a capture thread that has been told to stop. -/
def stepsLeft : CapturePc → Nat
  | .notStarted | .finished | .undefined => 0
  | .testing => 1
  | .polling packetsProcessed => 2 * (maxPacketsPerLoop - packetsProcessed) + 2
  | .handling packetsProcessed _ => 2 * (maxPacketsPerLoop - packetsProcessed) + 3

/-- The frames that a capture thread may still handle once it has been told to stop. -/
def framesLeft : CapturePc → Nat
  | .polling packetsProcessed => maxPacketsPerLoop - packetsProcessed
  | .handling packetsProcessed _ => maxPacketsPerLoop - packetsProcessed + 1
  | _ => 0

/-- `pcap_next_ex` returns one of its documented results. -/
def Documented (p : Polled) : Prop := p.res = 1 ∨ p.res = 0 ∨ p.res = -1 ∨ p.res = -2

theorem stepsLeft_le {pc : CapturePc} (h : InBatch pc) : stepsLeft pc ≤ 22 := by
  cases pc with
  | handling packetsProcessed frame =>
    obtain ⟨hpos, hle⟩ := h
    simp only [stepsLeft, maxPacketsPerLoop] at hle ⊢
    omega
  | polling packetsProcessed =>
    simp only [stepsLeft, maxPacketsPerLoop]
    omega
  | _ => simp [stepsLeft]

theorem framesLeft_le {pc : CapturePc} (h : InBatch pc) : framesLeft pc ≤ maxPacketsPerLoop := by
  cases pc with
  | handling packetsProcessed frame =>
    obtain ⟨hpos, hle⟩ := h
    simp only [framesLeft]
    omega
  | polling packetsProcessed => exact Nat.sub_le _ _
  | _ => exact Nat.zero_le _

section Stopped

variable {l : Lifetime}

theorem advance_shouldStop (p : Polled) (hstop : l.shouldStop = true) :
    (l.advanceCapture p).shouldStop = true := by
  cases hc : l.capture with
  | polling packetsProcessed =>
    simp only [Lifetime.advanceCapture, hc]
    split_ifs
    · exact hstop
    · rfl
    · rfl
    · exact hstop
    · exact hstop
    · exact hstop
  | handling packetsProcessed frame =>
    simp only [Lifetime.advanceCapture, hc]
    split <;> exact hstop
  | _ => simpa [Lifetime.advanceCapture, hc, Lifetime.gotoCapture] using hstop

/-- A thread that has been told to stop comes closer to its end with each documented result. -/
theorem advance_stepsLeft {p : Polled} (hp : Documented p) (hstop : l.shouldStop = true)
    (hr : Running l.capture) : stepsLeft (l.advanceCapture p).capture < stepsLeft l.capture := by
  cases hc : l.capture with
  | notStarted | finished | undefined => simp [hc, Running] at hr
  | testing => simp [Lifetime.advanceCapture, hc, hstop, Lifetime.gotoCapture, stepsLeft]
  | polling packetsProcessed =>
    simp only [Lifetime.advanceCapture, hc]
    split_ifs with hlt h0 h1 h2 h3
    · simp only [Lifetime.gotoCapture, stepsLeft]
      omega
    · simp only [stepsLeft]
      omega
    · simp only [stepsLeft]
      omega
    · simp only [Lifetime.gotoCapture, stepsLeft]
      omega
    · rcases hp with hp | hp | hp | hp
      · exact absurd hp h3
      · exact absurd hp h0
      · exact absurd hp h1
      · exact absurd hp h2
    · simp only [Lifetime.gotoCapture, stepsLeft]
      omega
  | handling packetsProcessed frame =>
    simp only [Lifetime.advanceCapture, hc]
    split <;> simp [Lifetime.gotoCapture, stepsLeft]

/-- Whatever `pcap_next_ex` returns, the thread pays for the frames that it handles. -/
theorem advance_framesLeft (p : Polled) (hstop : l.shouldStop = true) :
    (handledFrames l (.capture p)).length + framesLeft (l.advanceCapture p).capture ≤
      framesLeft l.capture := by
  cases hc : l.capture with
  | notStarted | finished | undefined => simp [handledFrames, Lifetime.advanceCapture, hc]
  | testing =>
    simp [handledFrames, Lifetime.advanceCapture, hc, hstop, Lifetime.gotoCapture, framesLeft]
  | polling packetsProcessed =>
    simp only [handledFrames, Lifetime.advanceCapture, hc, List.length_nil, Nat.zero_add]
    split_ifs with hlt h0 h1 h2 h3
    · exact Nat.zero_le _
    · exact Nat.zero_le _
    · exact Nat.zero_le _
    · simp only [Lifetime.gotoCapture, framesLeft]
      omega
    · simp [Lifetime.record, hc]
    · exact Nat.zero_le _
  | handling packetsProcessed frame =>
    simp only [handledFrames, Lifetime.advanceCapture, hc]
    split
    all_goals
      simp only [Lifetime.gotoCapture, framesLeft, List.length_singleton]
      omega

/-- An object whose capture thread has been told to stop. -/
structure Halting (l : Lifetime) : Prop where
  sound : Sound l
  looping : Looping l
  told : l.shouldStop = true

/-- Nobody takes the order back. -/
theorem Halting.handling {l' : Lifetime} (h : Halting l) (hstep : Handling l l') :
    l'.shouldStop = true := by
  cases hstep with
  | same joinable shouldStop => exact shouldStop.trans h.told
  | started user unstarted =>
    rcases h.looping.told h.told with hj | hl
    · exact absurd (hj.symm.trans unstarted) (by simp)
    · rw [user] at hl
      exact hl.elim
  | refused user =>
    have hallowed := h.sound.allowed
    rw [user] at hallowed
    rcases h.looping.told h.told with hj | hl
    · exact absurd (hj.symm.trans hallowed.2) (by simp)
    · rw [user] at hl
      exact hl.elim
  | stopped user joinable shouldStop => exact shouldStop
  | joined user finished joinable shouldStop => exact shouldStop.trans h.told

theorem Halting.turn (h : Halting l) {t : Turn} (hsingle : ¬ Reinitializes l t) :
    Halting (Lifetimes.turn l t) := by
  refine ⟨h.sound.turn hsingle, h.looping.turn t, ?_⟩
  refine turn_of_progress (P := fun l' => l'.shouldStop = true) h.told fun _ => ?_
  cases t with
  | call request => exact h.handling (call_handling l request)
  | proceed a => exact h.handling (proceed_handling l a)
  | capture p => exact advance_shouldStop p h.told

theorem handling_stepsLeft {l' : Lifetime} (hstep : Handling l l')
    (htold : l'.shouldStop = true) : l'.capture = l.capture := by
  cases hstep with
  | started user unstarted joinable shouldStop =>
    exact absurd (shouldStop.symm.trans htold) (by simp)
  | same _ _ capture | refused _ _ _ capture | stopped _ _ _ capture | joined _ _ _ _ capture =>
    exact capture

theorem Halting.framesLeft (h : Halting l) {t : Turn} (hsingle : ¬ Reinitializes l t) :
    (handledFrames l t).length + CaptureLoop.framesLeft (Lifetimes.turn l t).capture ≤
      CaptureLoop.framesLeft l.capture := by
  have htold := (h.turn hsingle).told
  by_cases hdefined : l.capture = .undefined
  · rw [turn_undefined hdefined]
    cases t <;> simp [handledFrames, hdefined]
  · rw [turn_defined hdefined] at htold ⊢
    cases t with
    | call request =>
      rw [handling_stepsLeft (call_handling l request) htold]
      simp [handledFrames]
    | proceed a =>
      have hsame : (l.progress (.proceed a)).capture = l.capture :=
        handling_stepsLeft (proceed_handling l a) htold
      rw [hsame]
      simp [handledFrames]
    | capture p => exact advance_framesLeft p h.told

theorem Halting.run_framesLeft (h : Halting l) {turns : List Turn}
    (hsingle : EachStep Lifetimes.turn (fun l t => ¬ Reinitializes l t) l turns) :
    (collect Lifetimes.turn handledFrames l turns).length ≤ CaptureLoop.framesLeft l.capture := by
  induction turns generalizing l with
  | nil => exact Nat.zero_le _
  | cons t turns ih =>
    have hrest := ih (h.turn hsingle.1) hsingle.2
    have hfirst := h.framesLeft hsingle.1
    rw [collect, List.length_append]
    omega

end Stopped

/-- Once it has been told to stop, by the destructor or by an error of its own, the capture thread
handles no more frames than one batch has. -/
theorem stop_is_prompt (turns later : List Turn)
    (hsingle : EachStep turn (fun l t => ¬ Reinitializes l t) constructed (turns ++ later))
    (htold : (lifetime turns).shouldStop = true) :
    (collect turn handledFrames (lifetime turns) later).length ≤ maxPacketsPerLoop := by
  rw [eachStep_append] at hsingle
  have hsound : Sound (lifetime turns) :=
    run_invariant (fun l t hl ht => hl.turn ht) sound_constructed hsingle.1
  have hlooping : Looping (lifetime turns) :=
    run_invariant (fun l t hl _ => hl.turn t) looping_constructed hsingle.1
  have hhalting : Halting (lifetime turns) := ⟨hsound, hlooping, htold⟩
  exact (hhalting.run_framesLeft hsingle.2).trans (framesLeft_le hlooping.batch)

theorem stop_is_prompt_plainLife :
    (lifetime (plainLife.take 19)).shouldStop = true ∧
      (collect turn handledFrames (lifetime (plainLife.take 19)) (plainLife.drop 19)).length ≤
        maxPacketsPerLoop := by
  have hsingle : EachStep turn (fun l t => ¬ Reinitializes l t) constructed
      (plainLife.take 19 ++ plainLife.drop 19) := by decide +kernel
  have htold : (lifetime (plainLife.take 19)).shouldStop = true := by decide +kernel
  exact ⟨htold, stop_is_prompt _ _ hsingle htold⟩

/-! The end of the destructor. -/

inductive Thread where
  | user
  | capture

def thread : Turn → Option Thread
  | .proceed _ => some .user
  | .capture _ => some .capture
  | .call _ => none

/-- At a turn of the capture thread, `pcap_next_ex` returns a documented result. -/
def DocumentedTurn : Turn → Prop
  | .capture p => Documented p
  | _ => True

/-- The places left to a user thread in the destructor that has told the capture thread to stop. -/
def placesLeft : UserPc → Nat
  | .joining => 2
  | .closingHandle => 1
  | _ => 0

/-- Until the capture thread has been told, its own steps do not count. -/
def workLeft (l : Lifetime) : Nat :=
  match l.capture, l.user with
  | .undefined, _ => 0
  | _, .stopping => 25
  | capture, user => stepsLeft capture + placesLeft user

/-- The thread whose turn brings the destructor nearer to its end. -/
def Advances (l : Lifetime) : Thread → Prop
  | .capture => l.user ≠ .stopping ∧ Running l.capture
  | .user => l.capture ≠ .undefined ∧
      (l.user = .stopping ∨ ¬ Running l.capture ∧ placesLeft l.user ≠ 0)

/-- The destructor has returned, or a frame of undefined behaviour has been handled. -/
def Done (l : Lifetime) : Prop := l.user = .gone ∨ l.capture = .undefined

/-- An object whose destructor has closed its connection. -/
structure Destroying (l : Lifetime) : Prop where
  sound : Sound l
  looping : Looping l
  begun : l.user = .stopping ∨ Leaving l.user

section Destroying

variable {l : Lifetime}

theorem Leaving.ne_stopping (h : Leaving l.user) : l.user ≠ .stopping := by
  intro hu
  rw [hu] at h
  exact h

theorem workLeft_undefined (h : l.capture = .undefined) : workLeft l = 0 := by
  rw [workLeft, h]

theorem workLeft_stopping (h : l.user = .stopping) (hdefined : l.capture ≠ .undefined) :
    workLeft l = 25 := by
  cases hc : l.capture with
  | undefined => exact absurd hc hdefined
  | _ => simp only [workLeft, hc, h]

theorem workLeft_leaving (h : Leaving l.user) (hdefined : l.capture ≠ .undefined) :
    workLeft l = stepsLeft l.capture + placesLeft l.user := by
  have hnot := h.ne_stopping
  cases hc : l.capture with
  | undefined => exact absurd hc hdefined
  | _ => cases hu : l.user <;> simp_all only [workLeft, ne_eq, not_true_eq_false]

theorem workLeft_told (h : Looping l) (hleaving : Leaving l.user) : workLeft l ≤ 24 := by
  by_cases hdefined : l.capture = .undefined
  · rw [workLeft_undefined hdefined]
    exact Nat.zero_le 24
  · have hsteps := stepsLeft_le h.batch
    have hplaces : placesLeft l.user ≤ 2 := by cases l.user <;> simp [placesLeft]
    rw [workLeft_leaving hleaving hdefined]
    omega

theorem Destroying.workLeft_le (h : Destroying l) : workLeft l ≤ 25 := by
  rcases h.begun with hstopping | hleaving
  · by_cases hdefined : l.capture = .undefined
    · rw [workLeft_undefined hdefined]
      exact Nat.zero_le 25
    · rw [workLeft_stopping hstopping hdefined]
  · exact (workLeft_told h.looping hleaving).trans (Nat.le_succ 24)

theorem Destroying.busy (h : Destroying l) : l.user ≠ .idle := by
  intro hidle
  have hbegun := h.begun
  simp [hidle, Leaving] at hbegun

/-- The user thread of a destructor that has told the capture thread to stop. -/
theorem Destroying.proceed (h : Destroying l) (hleaving : Leaving l.user) (a : Answers) :
    (l.proceed a).capture = l.capture ∧ Leaving (l.proceed a).user ∧
      placesLeft (l.proceed a).user ≤ placesLeft l.user ∧
      (Advances l .user → placesLeft (l.proceed a).user < placesLeft l.user) := by
  have hstarted := h.looping.started
  obtain ⟨stack, handle, joinable, shouldStop, user, capture, drawn, calls⟩ := l
  cases user with
  | joining =>
    cases joinable with
    | false => exact ⟨rfl, trivial, Nat.le_succ _, fun _ => Nat.lt_succ_self _⟩
    | true =>
      cases capture with
      | finished => exact ⟨rfl, trivial, Nat.le_succ _, fun _ => Nat.lt_succ_self _⟩
      | notStarted => exact absurd rfl (hstarted rfl)
      | undefined => exact ⟨rfl, trivial, Nat.le_refl _, fun hadv => absurd rfl hadv.1⟩
      | _ => exact ⟨rfl, trivial, Nat.le_refl _, fun hadv => by simp [Advances, Running] at hadv⟩
  | closingHandle =>
    cases handle <;> exact ⟨rfl, trivial, Nat.zero_le _, fun _ => Nat.zero_lt_one⟩
  | gone => exact ⟨rfl, trivial, Nat.le_refl _, fun hadv => by simp [Advances, placesLeft] at hadv⟩
  | _ => exact hleaving.elim

/-- The destructor tells the capture thread to stop. -/
theorem proceed_stopping (h : l.user = .stopping) (a : Answers) :
    (l.proceed a).user = .joining ∧ (l.proceed a).capture = l.capture := by
  rw [Lifetime.proceed, h]
  exact ⟨rfl, rfl⟩

theorem Destroying.turn (h : Destroying l) (t : Turn) : Destroying (Lifetimes.turn l t) := by
  refine ⟨h.sound.turn fun hagain => h.busy hagain.2.1, h.looping.turn t, ?_⟩
  refine turn_of_progress (P := fun l' => l'.user = .stopping ∨ Leaving l'.user) h.begun
    fun _ => ?_
  cases t with
  | call request =>
    rw [progress_call, if_neg h.busy]
    exact h.begun
  | capture p =>
    show (l.advanceCapture p).user = .stopping ∨ Leaving (l.advanceCapture p).user
    rw [(capture_frame l p).2.1]
    exact h.begun
  | proceed a =>
    right
    show Leaving (l.proceed a).user
    rcases h.begun with hstopping | hleaving
    · rw [(proceed_stopping hstopping a).1]
      trivial
    · exact (h.proceed hleaving a).2.1

theorem Destroying.advances (h : Destroying l) (hdone : ¬ Done l) : ∃ k, Advances l k := by
  rw [Done, not_or] at hdone
  rcases h.begun with hstopping | hleaving
  · exact ⟨.user, hdone.2, .inl hstopping⟩
  · by_cases hr : Running l.capture
    · exact ⟨.capture, hleaving.ne_stopping, hr⟩
    · refine ⟨.user, hdone.2, .inr ⟨hr, ?_⟩⟩
      intro hplaces
      apply hdone.1
      cases hu : l.user with
      | gone => rfl
      | joining | closingHandle => simp [hu, placesLeft] at hplaces
      | _ =>
        rw [hu] at hleaving
        exact hleaving.elim

theorem Destroying.done (h : Destroying l) (hwork : workLeft l = 0) : Done l := by
  by_contra hdone
  obtain ⟨k, hk⟩ := h.advances hdone
  rw [Done, not_or] at hdone
  rcases h.begun with hstopping | hleaving
  · rw [workLeft_stopping hstopping hdone.2] at hwork
    exact absurd hwork (by simp)
  · rw [workLeft_leaving hleaving hdone.2, Nat.add_eq_zero_iff] at hwork
    cases k with
    | capture =>
      have hr := hk.2
      cases hc : l.capture <;> simp_all [Running, stepsLeft]
    | user => exact (hk.2.resolve_left hleaving.ne_stopping).2 hwork.2

theorem advance_idle (p : Polled) (h : ¬ Running l.capture) : l.advanceCapture p = l := by
  cases hc : l.capture with
  | notStarted | finished | undefined => simp [Lifetime.advanceCapture, hc]
  | _ => exact absurd (by rw [hc]; trivial) h

/-- A turn from `l` to `l'` does a part of the work, or keeps what there is to do and who can do
it. -/
def Nearer (l l' : Lifetime) (t : Turn) : Prop :=
  workLeft l' < workLeft l ∨
    workLeft l' ≤ workLeft l ∧ ∀ k, Advances l k → thread t ≠ some k ∧ Advances l' k

theorem Destroying.nearer_proceed (h : Destroying l) (hdefined : l.capture ≠ .undefined)
    (a : Answers) : Nearer l (l.proceed a) (.proceed a) := by
  rcases h.begun with hstopping | hleaving
  · left
    have hlooping : Looping (l.proceed a) := h.looping.handling (proceed_handling l a)
    have hle := workLeft_told hlooping (by rw [(proceed_stopping hstopping a).1]; trivial)
    rw [workLeft_stopping hstopping hdefined]
    exact Nat.lt_succ_of_le hle
  · obtain ⟨hsame, hleaving', hle, hlt⟩ := h.proceed hleaving a
    have hdefined' : (l.proceed a).capture ≠ .undefined := hsame ▸ hdefined
    rw [Nearer, workLeft_leaving hleaving hdefined, workLeft_leaving hleaving' hdefined', hsame]
    by_cases hadv : Advances l .user
    · exact .inl (Nat.add_lt_add_left (hlt hadv) _)
    · refine .inr ⟨Nat.add_le_add_left hle _, ?_⟩
      intro k hk
      cases k with
      | user => exact absurd hk hadv
      | capture =>
        refine ⟨by simp [thread], hleaving'.ne_stopping, ?_⟩
        rw [hsame]
        exact hk.2

theorem Destroying.nearer_advance (h : Destroying l) (hdefined : l.capture ≠ .undefined)
    {p : Polled} (hp : Documented p) : Nearer l (l.advanceCapture p) (.capture p) := by
  have huser := (capture_frame l p).2.1
  rcases h.begun with hstopping | hleaving
  · by_cases hc : (l.advanceCapture p).capture = .undefined
    · left
      rw [workLeft_undefined hc, workLeft_stopping hstopping hdefined]
      exact Nat.zero_lt_succ 24
    · right
      rw [workLeft_stopping hstopping hdefined, workLeft_stopping (huser.trans hstopping) hc]
      refine ⟨Nat.le_refl _, ?_⟩
      intro k hk
      cases k with
      | user => exact ⟨by simp [thread], hc, .inl (huser.trans hstopping)⟩
      | capture => exact absurd hstopping hk.1
  · by_cases hr : Running l.capture
    · left
      have hlt := advance_stepsLeft hp (h.looping.leaving hleaving) hr
      rw [workLeft_leaving hleaving hdefined]
      by_cases hc : (l.advanceCapture p).capture = .undefined
      · rw [workLeft_undefined hc]
        omega
      · rw [workLeft_leaving (huser ▸ hleaving) hc, huser]
        omega
    · right
      rw [advance_idle p hr]
      refine ⟨Nat.le_refl _, ?_⟩
      intro k hk
      cases k with
      | user => exact ⟨by simp [thread], hk⟩
      | capture => exact absurd hk.2 hr

theorem Destroying.nearer (h : Destroying l) {t : Turn} (ht : DocumentedTurn t) :
    Nearer l (Lifetimes.turn l t) t := by
  by_cases hdefined : l.capture = .undefined
  · rw [turn_undefined hdefined]
    refine .inr ⟨Nat.le_refl _, ?_⟩
    intro k hk
    cases k with
    | user => exact absurd hdefined hk.1
    | capture =>
      have hr := hk.2
      rw [hdefined] at hr
      exact hr.elim
  · rw [turn_defined hdefined]
    cases t with
    | call request =>
      rw [progress_call, if_neg h.busy]
      exact .inr ⟨Nat.le_refl _, fun k hk => ⟨by simp [thread], hk⟩⟩
    | proceed a => exact h.nearer_proceed hdefined a
    | capture p => exact h.nearer_advance hdefined ht

theorem Done.turn (h : Destroying l) (hdone : Done l) (t : Turn) : Done (Lifetimes.turn l t) := by
  refine turn_of_progress hdone fun hdefined => ?_
  have hgone := hdone.resolve_right hdefined
  left
  cases t with
  | call request => rwa [progress_call, if_neg h.busy]
  | proceed a =>
    show (l.proceed a).user = .gone
    rw [Lifetime.proceed, hgone]
    exact hgone
  | capture p => exact ((capture_frame l p).2.1).trans hgone

theorem destructor_descent :
    Descent turn Destroying DocumentedTurn thread workLeft Advances Done := by
  refine ⟨fun l t hl _ => hl.turn t, fun l t hl _ hdone => hdone.turn hl t, ?_,
    fun l hl => hl.done, fun l hl => hl.advances, ?_, ?_⟩
  · intro l t hl ht
    rcases hl.nearer ht with hlt | ⟨hle, -⟩
    · exact hlt.le
    · exact hle
  · intro l t k hl ht hk hkind
    rcases hl.nearer ht with hlt | ⟨-, hother⟩
    · exact hlt
    · exact absurd hkind (hother k hk).1
  · intro l t k hl ht hk
    rcases hl.nearer ht with hlt | ⟨-, hother⟩
    · exact .inl hlt
    · exact .inr (hother k hk).2

end Destroying

/-- The destructor returns: from the place behind its `close_connection` on, twenty-five rounds in
which both threads get a turn are enough, whatever is captured meanwhile, unless a frame makes the
behaviour undefined. -/
theorem destructor_returns (turns : List Turn) (rounds : List (List Turn))
    (hsingle : EachStep turn (fun l t => ¬ Reinitializes l t) constructed turns)
    (hbegun : (lifetime turns).user = .stopping ∨ Leaving (lifetime turns).user)
    (hfair : ∀ round ∈ rounds, Fair DocumentedTurn thread round)
    (hlong : 25 ≤ rounds.length) :
    (lifetime (turns ++ rounds.flatten)).user = .gone ∨
      (lifetime (turns ++ rounds.flatten)).capture = .undefined := by
  have hsound : Sound (lifetime turns) :=
    run_invariant (fun l t hl ht => hl.turn ht) sound_constructed hsingle
  have hlooping : Looping (lifetime turns) :=
    run_invariant (fun l t hl _ => hl.turn t) looping_constructed hsingle
  have hstart : Destroying (lifetime turns) := ⟨hsound, hlooping, hbegun⟩
  show Done (run turn constructed (turns ++ rounds.flatten))
  rw [run_append]
  exact destructor_descent.rounds hstart hfair (hstart.workLeft_le.trans hlong)

theorem destructor_returns_plainLife :
    (lifetime (plainLife.take 18)).user = .stopping ∧
      ((lifetime (plainLife.take 18 ++ (List.replicate 25
        [Turn.proceed ⟨true, [], ⟨0, 0, 0, 0, 0, 0⟩, 0⟩, .capture ⟨0, [], fun _ => 0⟩]).flatten)).user =
          .gone ∨
        (lifetime (plainLife.take 18 ++ (List.replicate 25
          [Turn.proceed ⟨true, [], ⟨0, 0, 0, 0, 0, 0⟩, 0⟩,
            .capture ⟨0, [], fun _ => 0⟩]).flatten)).capture = .undefined) := by
  have hsingle : EachStep turn (fun l t => ¬ Reinitializes l t) constructed
      (plainLife.take 18) := by decide +kernel
  have huser : (lifetime (plainLife.take 18)).user = .stopping := by decide +kernel
  refine ⟨huser, destructor_returns _ _ hsingle (.inl huser) ?_ (by simp)⟩
  intro round hround
  obtain rfl := List.eq_of_mem_replicate hround
  refine ⟨by simp [DocumentedTurn, Documented], ?_⟩
  intro k
  cases k <;> simp [thread]

end MyTelnet.Stack.CaptureLoop
