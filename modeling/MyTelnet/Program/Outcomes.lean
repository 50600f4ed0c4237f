/- module: MyTelnet/Program/Outcomes
   scope: proofs
   digest: Every run of the process that ends, ends as main does in a world that answers like it. -/

import MyTelnet.Http.Delivery
import MyTelnet.Program.Processes

set_option autoImplicit false
set_option relaxedAutoImplicit false

namespace MyTelnet.Program.Outcomes

open MyTelnet.Base.ByteOrder MyTelnet.Base.Runs MyTelnet.Wire.Memory
open MyTelnet.Stack.State MyTelnet.Stack.Operations MyTelnet.Stack.Lifetimes
open MyTelnet.Http.Client MyTelnet.Http.Download MyTelnet.Http.Sessions MyTelnet.Http.Timing
open MyTelnet.Http.Delivery MyTelnet.Program.Arguments MyTelnet.Program.Main
open MyTelnet.Program.Processes

/-- `download_file` ends so if its calls succeed and `wait_for_data` returns these chunks. -/
def Downloaded (c : Call) (chunks : List Bytes) (result : Checked Bool) (file : Bytes) : Prop :=
  ∀ old, downloadFile true old ⟨true, true, true, chunks⟩ c.locals c.host c.path =
    (result, some file)

section Sessions

variable {c : Call} {chunks : List Bytes} {callbacks : List HttpResponse}

theorem downloaded_received {receivedComplete : Bool}
    (h : ∃ buffer, receiveLoop c.locals [] chunks = .ok ⟨receivedComplete, buffer, callbacks⟩) :
    Downloaded c chunks (.ok receivedComplete) (callbacks.foldl fileCallback []) := by
  obtain ⟨buffer, hloop⟩ := h
  intro old
  exact downloadFile_received (t := ⟨true, true, true, chunks⟩) old c.locals c.host c.path rfl hloop

theorem downloaded_thrown {e : Fault}
    (h : callbacks = [] ∧ receiveLoop c.locals [] chunks = .error e) :
    Downloaded c chunks (.error e) (callbacks.foldl fileCallback []) := by
  obtain ⟨rfl, hloop⟩ := h
  intro old
  exact downloadFile_thrown (t := ⟨true, true, true, chunks⟩) old c.locals c.host c.path rfl hloop

end Sessions

/-- `main` ends so in a world with these interfaces whose server delivers these chunks. -/
def Outcome (h : Start) (chunks : List Bytes) (files : Directory) (result : Checked Nat) : Prop :=
  ∃ w : World, w.alldevs = h.alldevs ∧ w.locals = h.locals ∧
    (∀ ip port, w.server ip port = ⟨true, true, true, chunks⟩) ∧
    main h.args w h.files = (result, files)

/-- The arguments have led to a download. -/
structure Settled (h : Start) (s : Settings) : Prop where
  read : parseArguments defaults h.args = .settings s
  server : s.serverIp ≠ []

/-- `download_file` has opened its file and called `get`, which stands at `call`. -/
structure Asked (h : Start) (s : Settings) (chunks : List Bytes) (files : Directory)
    (call : Http.Sessions.Pc) : Prop where
  settled : Settled h s
  refines : ∃ callbacks : List HttpResponse,
    files = Function.update h.files (localFilename s.filePath)
      (some (callbacks.foldl fileCallback [])) ∧
    Refines (callOf h s) call chunks callbacks

/-- What `main` has done so far, and the outcome that is certain. -/
def Mirrored (h : Start) (p : Process) : Prop :=
  match p.pc with
  | .initializing | .opening => Settled h p.settings ∧ p.chunks = [] ∧ p.files = h.files
  | .connecting => Asked h p.settings p.chunks p.files .connecting
  | .getting call => Asked h p.settings p.chunks p.files call
  | .closing => Outcome h p.chunks p.files (.ok 0)
  | .leaving status | .destroying status | .joining status | .exited status =>
    Outcome h p.chunks p.files (.ok status)
  | .aborted e => Outcome h p.chunks p.files (.error e)

section Ends

variable {h : Start} {s : Settings} {chunks : List Bytes} {files : Directory}

/-- The outcome if no file can be opened, which is that of every run that ends before. -/
theorem outcome_unopened (h : Start) :
    Outcome h [] h.files (.ok (if parseArguments defaults h.args = .help then 0 else 1)) := by
  refine ⟨⟨h.alldevs, fun _ => true, fun _ => false, fun _ _ => ⟨true, true, true, []⟩, h.locals⟩,
    rfl, rfl, fun _ _ => rfl, main_stops h.files ?_⟩
  intro s hdownloads
  cases hdownloads.opened

theorem Settled.outcome (hsettled : Settled h s) : Outcome h [] h.files (.ok 1) := by
  have hunopened := outcome_unopened h
  rw [hsettled.read, if_neg (by simp)] at hunopened
  exact hunopened

theorem Asked.outcome {call : Http.Sessions.Pc} (hasked : Asked h s chunks files call)
    {result : Checked Bool}
    (hdone : ∀ callbacks, Refines (callOf h s) call chunks callbacks →
      Downloaded (callOf h s) chunks result (callbacks.foldl fileCallback [])) :
    Outcome h chunks files (result.map fun success => if success then 0 else 1) := by
  obtain ⟨callbacks, hfiles, hrefines⟩ := hasked.refines
  let w : World := ⟨h.alldevs, fun _ => true, fun _ => true, fun _ _ => ⟨true, true, true, chunks⟩,
    h.locals⟩
  have hdownloads : Downloads h.args w s := ⟨hasked.settled.read, hasked.settled.server, rfl, rfl⟩
  refine ⟨w, rfl, rfl, fun _ _ => rfl, ?_⟩
  rw [main_downloads h.files hdownloads]
  have hlocal : downloadFile true (h.files (localFilename s.filePath))
      (w.server s.serverIp s.serverPort) w.locals s.serverIp s.filePath =
        (result, some (callbacks.foldl fileCallback [])) := hdone callbacks hrefines _
  rw [hlocal, hfiles]

end Ends

section Turns

variable {h : Start} {p : Process}

theorem Mirrored.advance (hm : Mirrored h p) (a : Processes.Answers) :
    Mirrored h (Processes.advance h p a) := by
  have hmoves := advance_moves h p a
  generalize Processes.advance h p a = p' at hmoves
  cases hmoves with
  | initializes pc | prepares pc | joins status pc => simpa only [Mirrored, pc] using hm
  | initialized pc =>
    simp only [Mirrored, pc] at hm
    exact hm
  | uninitialized pc | cannotOpen pc =>
    simp only [Mirrored, pc] at hm
    obtain ⟨hsettled, hchunks, hfiles⟩ := hm
    show Outcome h p.chunks p.files (.ok 1)
    rw [hchunks, hfiles]
    exact hsettled.outcome
  | opens pc =>
    simp only [Mirrored, pc] at hm
    obtain ⟨hsettled, hchunks, hfiles⟩ := hm
    refine ⟨hsettled, [], ?_, hchunks, rfl⟩
    show Function.update p.files p.localFile (some []) = _
    rw [hfiles]
    rfl
  | connects pc args =>
    simp only [Mirrored, pc] at hm
    exact hm
  | unprepared pc | installs pc =>
    simp only [Mirrored, pc] at hm
    obtain ⟨callbacks, hfiles, hrefines⟩ := hm.refines
    refine ⟨hm.settled, callbacks, hfiles, ?_⟩
    show Refines (callOf h p.settings) (tick _ _ _).session.pc (tick _ _ _).session.chunks _
    rw [tick_session]
    exact refines_advance _ p.life.stack _ (by simp) hrefines
  | gets call pc underway other =>
    simp only [Mirrored, pc] at hm
    obtain ⟨callbacks, hfiles, hrefines⟩ := hm.refines
    refine ⟨hm.settled, callbacks, hfiles, ?_⟩
    show Refines (callOf h p.settings) (tick _ _ _).session.pc (tick _ _ _).session.chunks _
    rw [tick_session]
    exact refines_advance _ p.life.stack _ other hrefines
  | receives buffer pc =>
    simp only [Mirrored, pc] at hm
    obtain ⟨callbacks, hfiles, hrefines⟩ := hm.refines
    have hcontent : p.content = callbacks.foldl fileCallback [] := by
      rw [Process.content, Process.localFile, hfiles, Function.update_self]
      rfl
    refine ⟨hm.settled, callbacks ++ passReports h.locals buffer p.life.stack, ?_, ?_⟩
    · show Function.update p.files p.localFile (some _) = _
      rw [Process.localFile, hfiles, Function.update_idem, received, hcontent, List.foldl_append]
      rfl
    · show Refines (callOf h p.settings) (tick _ _ _).session.pc (tick _ _ _).session.chunks _
      rw [tick_session]
      exact refines_receiving _ p.life.stack _ buffer hrefines
  | succeeds pc =>
    simp only [Mirrored, pc] at hm
    exact hm.outcome fun _ => downloaded_received
  | fails pc =>
    rcases pc with pc | pc
    · simp only [Mirrored, pc] at hm
      exact hm.outcome fun _ => downloaded_received
    · simp only [Mirrored, pc] at hm
      exact hm.outcome fun _ => downloaded_received
  | aborts e pc =>
    simp only [Mirrored, pc] at hm
    exact hm.outcome fun _ => downloaded_thrown
  | closes pc | leaves status pc | destroys status pc | exits status pc =>
    simp only [Mirrored, pc] at hm
    exact hm
  | ended => exact hm

theorem Mirrored.turn (hm : Mirrored h p) (t : Processes.Turn) :
    Mirrored h (Processes.turn h p t) := by
  refine turn_of_progress h hm fun _ => ?_
  cases t with
  | user a => exact hm.advance a
  | capture polled =>
    cases hpc : p.pc with
    | aborted e => simpa only [progress, hpc] using hm
    | _ =>
      simp only [Mirrored, hpc] at hm
      simp only [progress, hpc, Mirrored]
      exact hm

end Turns

theorem mirrored_started (h : Start) : Mirrored h (started h) := by
  have hunopened := outcome_unopened h
  unfold started
  dsimp only
  cases hread : parseArguments defaults h.args with
  | help =>
    rw [hread] at hunopened
    exact hunopened
  | invalidPort =>
    rw [hread] at hunopened
    exact hunopened
  | settings s =>
    dsimp only
    by_cases hserver : s.serverIp = []
    · rw [if_pos hserver]
      rw [hread] at hunopened
      exact hunopened
    · rw [if_neg hserver]
      exact ⟨⟨hread, hserver⟩, rfl, rfl⟩

/-- Whatever the threads do, and whatever they meet, the process exits or dies only as `main` does
on the same command line and directory in a world with the same interfaces, whose server delivers
what the process has taken from its queue; and it leaves the same files. -/
theorem process_refines_main (h : Start) (turns : List Processes.Turn) :
    (∀ status, (process h turns).pc = .exited status →
        Outcome h (process h turns).chunks (process h turns).files (.ok status)) ∧
      ∀ e, (process h turns).pc = .aborted e →
        Outcome h (process h turns).chunks (process h turns).files (.error e) := by
  have hmirrored : Mirrored h (process h turns) :=
    run_invariant (fun p t hp _ => hp.turn t) (mirrored_started h)
      (eachStep_of_forall fun _ _ => trivial)
  constructor
  · intro status hexited
    simpa only [Mirrored, hexited] using hmirrored
  · intro e haborted
    simpa only [Mirrored, haborted] using hmirrored

end MyTelnet.Program.Outcomes
