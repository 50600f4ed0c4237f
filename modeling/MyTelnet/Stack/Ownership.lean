/- module: MyTelnet/Stack/Ownership
   scope: proofs
   digest: Every handle, device list and filter program of a lifetime is released exactly once. -/

import MyTelnet.Stack.Lifetimes

set_option autoImplicit false
set_option relaxedAutoImplicit false

namespace MyTelnet.Stack.Ownership

open MyTelnet.Base.ByteOrder MyTelnet.Base.Runs MyTelnet.Base.Custody MyTelnet.Wire.Layers
open MyTelnet.Stack.State MyTelnet.Stack.Receive MyTelnet.Stack.Run MyTelnet.Stack.Lifetimes

/-- A resource among the first `drawn`. -/
def drawnBefore (drawn : Nat) : Resource → Prop
  | .handle n | .devices n | .program n => n < drawn
  | .null | .interfaces => False

/-- The list of devices or the filter program that the user thread has to free. -/
def inHand : UserPc → List Resource
  | .freeingDevices n _ => [.devices n]
  | .settingFilter n | .freeingFilter n _ | .settingFilterFor _ n | .freeingFilterFor _ n _ =>
    [.program n]
  | _ => []

def owned (l : Lifetime) : List Resource := inHand l.user ++ (l.handle.map .handle).toList

/-- The values of `pcap_handle_` and of `capture_thread_.joinable()` with which the user thread
stands at a place. -/
def Allows (handle : Option Nat) (joinable : Bool) : UserPc → Prop
  | .idle | .stopping | .joining => joinable = true → handle.isSome = true
  | .opening _ => handle = none ∧ joinable = false
  | .settingNonblock _ | .readingDatalink _ | .findingDevices _ | .freeingDevices .. | .compiling
  | .settingFilter _ | .freeingFilter .. | .closingFailed | .startingThread =>
    handle.isSome = true ∧ joinable = false
  | .compilingFor _ | .settingFilterFor .. | .freeingFilterFor .. | .installing _ =>
    handle.isSome = true
  | .closingHandle => joinable = false
  | .gone => handle = none ∧ joinable = false
  | .terminated => False

def Running : CapturePc → Prop
  | .testing | .polling _ | .handling .. => True
  | .notStarted | .finished | .undefined => False

/-- The trace is safe and what it holds is what the object owns; no thread runs without a
handle. -/
structure Sound (l : Lifetime) : Prop where
  kept : Kept l.calls (owned l) (drawnBefore l.drawn)
  allowed : Allows l.handle l.joinable l.user
  running : Running l.capture → l.joinable = true

def initializes : Turn → Bool
  | .call (.initializeOn _) => true
  | _ => false

/-- A call of `initialize` while the handle of an earlier one is open. -/
def Reinitializes (l : Lifetime) (t : Turn) : Prop :=
  l.capture ≠ .undefined ∧ l.user = .idle ∧ l.handle.isSome = true ∧ initializes t = true

instance (l : Lifetime) (t : Turn) : Decidable (Reinitializes l t) :=
  inferInstanceAs (Decidable (_ ∧ _ ∧ _ ∧ _))

theorem sound_constructed : Sound constructed :=
  ⟨.nil _, fun h => absurd h (by simp [constructed]), fun h => h.elim⟩

theorem initializes_iff {t : Turn} :
    initializes t = true ↔ ∃ interfaceName, t = .call (.initializeOn interfaceName) := by
  constructor
  · intro h
    unfold initializes at h
    split at h
    · exact ⟨_, rfl⟩
    · cases h
  · rintro ⟨interfaceName, rfl⟩
    rfl

section Steps

variable {l : Lifetime}

theorem handle_of_joinable {handle : Option Nat} {pc : UserPc} (h : Allows handle true pc) :
    handle.isSome = true := by
  cases pc with
  | idle | stopping | joining => exact h rfl
  | compilingFor | settingFilterFor | freeingFilterFor | installing => exact h
  | closingHandle => cases h
  | terminated => exact h.elim
  | _ => cases h.2

/-- A new resource is known from its acquisition on. -/
theorem Kept.draw {calls : List (Call Resource)} {held : List Resource} {drawn : Nat}
    {r : Resource} (h : Kept calls held (drawnBefore drawn)) (hold : ¬ drawnBefore drawn r)
    (hnew : drawnBefore (drawn + 1) r) :
    Kept (calls ++ [.acquire r]) (r :: held) (drawnBefore (drawn + 1)) := by
  apply h.acquire hold _ hnew
  intro r' hr'
  cases r' with
  | null | interfaces => exact hr'
  | handle n | devices n | program n => exact Nat.lt_succ_of_lt hr'

theorem Sound.operated (h : Sound l) (s : TcpStack) : Sound (l.operated s) := by
  refine ⟨?_, h.allowed, h.running⟩
  obtain ⟨stack, handle, joinable, shouldStop, user, capture, drawn, calls⟩ := l
  cases handle with
  | none => simpa [Lifetime.operated, owned] using h.kept
  | some n => exact h.kept.uses (List.mem_append_right _ (List.mem_singleton_self _)) _

theorem Sound.act (h : Sound l) (a : Action) : Sound (l.act a) := h.operated _

/-- A call on the open handle. -/
theorem kept_useHandle {n : Nat} (h : Kept l.calls (owned l) (drawnBefore l.drawn))
    (hn : l.handle = some n) :
    Kept (l.calls ++ [.use l.handleArg]) (owned l) (drawnBefore l.drawn) := by
  apply h.use
  rw [owned, Lifetime.handleArg, hn]
  exact List.mem_append_right _ (List.mem_singleton_self _)

/-- `pcap_compile` on the open handle. -/
theorem kept_compiled {calls : List (Call Resource)} {n drawn : Nat}
    (h : Kept calls [.handle n] (drawnBefore drawn)) :
    Kept (calls ++ [.use (.handle n), .acquire (.program drawn)]) [.program drawn, .handle n]
      (drawnBefore (drawn + 1)) := by
  rw [List.append_cons]
  exact Kept.draw (h.use (List.mem_singleton_self _)) (Nat.lt_irrefl _) (Nat.lt_succ_self _)

/-- `pcap_setfilter` on the open handle, with a program that is not yet freed. -/
theorem kept_filtered {n : Nat} (h : Kept l.calls [.program n, l.handleArg] (drawnBefore l.drawn))
    (ok : Bool) :
    Kept (l.calls ++ l.filterCalls n ok) [.program n, l.handleArg] (drawnBefore l.drawn) := by
  have hheld : l.handleArg ∈ [.program n, l.handleArg] :=
    List.mem_cons_of_mem _ (List.mem_singleton_self _)
  have hprogram : Resource.program n ∈ [.program n, l.handleArg] := List.mem_cons_self
  have hused := (h.use hheld).use hprogram
  rw [List.append_assoc] at hused
  cases ok with
  | false =>
    have hfailed := hused.use hheld
    rw [List.append_assoc] at hfailed
    exact hfailed
  | true => exact hused

theorem Sound.capture (h : Sound l) (p : Polled) : Sound (l.advanceCapture p) := by
  obtain ⟨stack, handle, joinable, shouldStop, user, capture, drawn, calls⟩ := l
  cases capture with
  | notStarted | finished | undefined => exact h
  | testing =>
    refine ⟨h.kept, h.allowed, fun _ => h.running trivial⟩
  | polling packetsProcessed =>
    obtain rfl : joinable = true := h.running trivial
    obtain ⟨n, rfl⟩ := Option.isSome_iff_exists.mp (handle_of_joinable h.allowed)
    have hused := kept_useHandle h.kept rfl
    unfold Lifetime.advanceCapture
    dsimp only
    split_ifs
    · exact ⟨hused, h.allowed, fun _ => rfl⟩
    · exact ⟨hused.use (List.mem_append_right _ (List.mem_singleton_self _)), h.allowed,
        fun _ => rfl⟩
    · exact ⟨hused, h.allowed, fun _ => rfl⟩
    · exact ⟨hused, h.allowed, fun _ => rfl⟩
    · exact ⟨hused, h.allowed, fun _ => rfl⟩
    · exact ⟨h.kept, h.allowed, fun _ => rfl⟩
  | handling packetsProcessed frame =>
    simp only [Lifetime.advanceCapture]
    cases hcapture : Receive.capture stack frame p.sent with
    | error e => exact ⟨h.kept, h.allowed, fun hr => hr.elim⟩
    | ok s =>
      have hop := h.operated s
      exact ⟨hop.kept, hop.allowed, fun _ => h.running trivial⟩

theorem Sound.call (h : Sound l) {request : Request} (hidle : l.user = .idle)
    (hdefined : l.capture ≠ .undefined) (hsingle : ¬ Reinitializes l (.call request)) :
    Sound (l.call request) := by
  cases request with
  | waitForConnectionPass | sendData | waitForData | closeConnection => exact h.act _
  | destroy sent =>
    have hop := h.act (.closeConnection sent)
    refine ⟨?_, ?_, hop.running⟩
    · have hkept := hop.kept
      rw [owned, show (l.act (.closeConnection sent)).user = .idle from hidle] at hkept
      exact hkept
    · have hallowed := hop.allowed
      rw [show (l.act (.closeConnection sent)).user = .idle from hidle] at hallowed
      exact hallowed
  | initializeOn interfaceName =>
    obtain ⟨stack, handle, joinable, shouldStop, user, capture, drawn, calls⟩ := l
    obtain rfl : user = .idle := hidle
    have hnone : handle = none := by
      cases handle with
      | none => rfl
      | some n => exact absurd ⟨hdefined, rfl, rfl, rfl⟩ hsingle
    have hjoinable : joinable = false := by
      have hallowed : joinable = true → handle.isSome = true := h.allowed
      cases joinable with
      | false => rfl
      | true => exact absurd (hallowed rfl) (by simp [hnone])
    exact ⟨h.kept, ⟨hnone, hjoinable⟩, h.running⟩
  | connect args =>
    obtain ⟨stack, handle, joinable, shouldStop, user, capture, drawn, calls⟩ := l
    obtain rfl : user = .idle := hidle
    cases handle with
    | none => exact h
    | some n => exact ⟨h.kept, rfl, h.running⟩

theorem Sound.proceed (h : Sound l) (a : Answers) : Sound (l.proceed a) := by
  obtain ⟨stack, handle, joinable, shouldStop, user, capture, drawn, calls⟩ := l
  obtain ⟨ok, alldevs, mac, sent⟩ := a
  have hkept := h.kept
  have hallowed := h.allowed
  have hrunning := h.running
  cases user with
  | idle | gone | terminated => exact h
  | opening interfaceName =>
    obtain ⟨rfl, rfl⟩ : handle = none ∧ joinable = false := hallowed
    cases ok with
    | false => exact ⟨hkept, fun hj => hj, hrunning⟩
    | true =>
      refine ⟨?_, ⟨rfl, rfl⟩, hrunning⟩
      exact Kept.draw hkept (Nat.lt_irrefl _) (Nat.lt_succ_self _)
  | settingNonblock interfaceName =>
    obtain ⟨n, rfl⟩ := Option.isSome_iff_exists.mp hallowed.1
    cases ok <;> exact ⟨kept_useHandle hkept rfl, hallowed, hrunning⟩
  | readingDatalink interfaceName =>
    obtain ⟨n, rfl⟩ := Option.isSome_iff_exists.mp hallowed.1
    exact ⟨kept_useHandle hkept rfl, hallowed, hrunning⟩
  | findingDevices interfaceName =>
    cases ok with
    | false => exact ⟨hkept, hallowed, hrunning⟩
    | true =>
      refine ⟨?_, hallowed, hrunning⟩
      have hwalked := (Kept.draw (r := .devices drawn) hkept (Nat.lt_irrefl _)
        (Nat.lt_succ_self _)).use List.mem_cons_self
      rwa [List.append_assoc] at hwalked
  | freeingDevices n found =>
    cases found <;> exact ⟨hkept.release, hallowed, hrunning⟩
  | compiling =>
    obtain ⟨n, rfl⟩ := Option.isSome_iff_exists.mp hallowed.1
    cases ok with
    | false => exact ⟨hkept.uses (List.mem_singleton_self _) 2, hallowed, hrunning⟩
    | true => exact ⟨kept_compiled hkept, hallowed, hrunning⟩
  | settingFilter n =>
    obtain ⟨m, rfl⟩ := Option.isSome_iff_exists.mp hallowed.1
    exact ⟨kept_filtered hkept ok, hallowed, hrunning⟩
  | freeingFilter n installed =>
    cases installed <;> exact ⟨hkept.release, hallowed, hrunning⟩
  | closingFailed =>
    obtain ⟨n, rfl⟩ := Option.isSome_iff_exists.mp hallowed.1
    refine ⟨hkept.release, ?_, hrunning⟩
    intro hj
    exact absurd (hj.symm.trans hallowed.2) (by simp)
  | startingThread =>
    obtain ⟨hhandle, rfl⟩ : handle.isSome = true ∧ joinable = false := hallowed
    exact ⟨hkept, fun _ => hhandle, fun _ => rfl⟩
  | compilingFor args =>
    obtain ⟨n, rfl⟩ := Option.isSome_iff_exists.mp hallowed
    cases ok with
    | false => exact ⟨hkept.uses (List.mem_singleton_self _) 2, fun _ => rfl, hrunning⟩
    | true => exact ⟨kept_compiled hkept, hallowed, hrunning⟩
  | settingFilterFor args n =>
    obtain ⟨m, rfl⟩ := Option.isSome_iff_exists.mp hallowed
    exact ⟨kept_filtered hkept ok, hallowed, hrunning⟩
  | freeingFilterFor args n installed =>
    cases installed with
    | false => exact ⟨hkept.release, fun _ => hallowed, hrunning⟩
    | true => exact ⟨hkept.release, hallowed, hrunning⟩
  | installing args =>
    have hop := h.act (.connect args.remoteIp args.remotePort args.localPort args.iss true sent)
    exact ⟨hop.kept, fun _ => hallowed, hop.running⟩
  | stopping => exact ⟨hkept, hallowed, hrunning⟩
  | joining =>
    cases joinable with
    | false => exact ⟨hkept, rfl, hrunning⟩
    | true =>
      cases capture with
      | finished => exact ⟨hkept, rfl, fun hr => hr.elim⟩
      | _ => exact h
  | closingHandle =>
    cases handle with
    | none => exact ⟨hkept, ⟨rfl, hallowed⟩, hrunning⟩
    | some n => exact ⟨hkept.release, ⟨rfl, hallowed⟩, hrunning⟩

/-- What a turn keeps as long as `initialize` does not follow on an `initialize` that succeeded. -/
theorem Sound.turn (h : Sound l) {t : Turn} (hsingle : ¬ Reinitializes l t) :
    Sound (turn l t) := by
  apply turn_of_progress h
  intro hdefined
  cases t with
  | call request =>
    rw [progress_call]
    split
    · next hidle => exact h.call hidle hdefined hsingle
    · exact h
  | proceed answers => exact h.proceed answers
  | capture polled => exact h.capture polled

/-! A handle that is overwritten is never closed. -/

/-- `l'` comes after `l`: it has made more calls, and those have closed no handle but that in
`pcap_handle_`. -/
structure After (l l' : Lifetime) (more : List (Call Resource)) : Prop where
  calls : l'.calls = l.calls ++ more
  closes : ∀ n, Call.release (.handle n) ∈ more → l.handle = some n
  drawn : l.drawn ≤ l'.drawn
  handle : ∀ n, l'.handle = some n → l.handle = some n ∨ l.drawn ≤ n

theorem handle_of_arg {n : Nat} (h : Resource.handle n = l.handleArg) : l.handle = some n := by
  rw [Lifetime.handleArg] at h
  cases hh : l.handle with
  | none => simp [hh] at h
  | some m =>
    rw [hh] at h
    cases h
    rfl

theorem operated_calls (l : Lifetime) (s : TcpStack) :
    ∃ more, (l.operated s).calls = l.calls ++ more ∧ ∀ r, Call.release r ∉ more := by
  refine ⟨_, rfl, ?_⟩
  intro r hin
  cases hh : l.handle with
  | none => simp [hh] at hin
  | some n =>
    rw [hh] at hin
    exact absurd (List.eq_of_mem_replicate hin) (by simp)

theorem capture_calls (l : Lifetime) (p : Polled) :
    ∃ more, (l.advanceCapture p).calls = l.calls ++ more ∧ ∀ r, Call.release r ∉ more := by
  cases hpc : l.capture with
  | notStarted | finished | undefined =>
    exact ⟨[], by simp [Lifetime.advanceCapture, hpc], by simp⟩
  | testing =>
    exact ⟨[], by simp [Lifetime.advanceCapture, hpc, Lifetime.gotoCapture], by simp⟩
  | polling packetsProcessed =>
    simp only [Lifetime.advanceCapture, hpc]
    split_ifs
    · exact ⟨_, rfl, by simp⟩
    · exact ⟨_, List.append_assoc _ _ _, by simp⟩
    · exact ⟨_, rfl, by simp⟩
    · exact ⟨_, rfl, by simp⟩
    · exact ⟨_, rfl, by simp⟩
    · exact ⟨[], (List.append_nil _).symm, by simp⟩
  | handling packetsProcessed frame =>
    simp only [Lifetime.advanceCapture, hpc]
    split
    · exact operated_calls l _
    · exact ⟨[], (List.append_nil _).symm, by simp⟩

theorem capture_frame (l : Lifetime) (p : Polled) :
    (l.advanceCapture p).handle = l.handle ∧ (l.advanceCapture p).user = l.user ∧
      (l.advanceCapture p).drawn = l.drawn := by
  unfold Lifetime.advanceCapture
  split
  · exact ⟨rfl, rfl, rfl⟩
  · exact ⟨rfl, rfl, rfl⟩
  · exact ⟨rfl, rfl, rfl⟩
  · exact ⟨rfl, rfl, rfl⟩
  · dsimp only
    split_ifs <;> exact ⟨rfl, rfl, rfl⟩
  · split <;> exact ⟨rfl, rfl, rfl⟩

/-- Calls that close no handle, made by a thread that leaves `pcap_handle_` alone. -/
theorem After.of_open {l' : Lifetime} {more : List (Call Resource)}
    (calls : l'.calls = l.calls ++ more) (closes : ∀ n, Call.release (.handle n) ∉ more)
    (drawn : l.drawn ≤ l'.drawn) (handle : l'.handle = l.handle) : After l l' more :=
  ⟨calls, fun n hin => absurd hin (closes n), drawn, fun _ hn => .inl (handle ▸ hn)⟩

/-- A close of the handle in `pcap_handle_`, which becomes null. -/
theorem After.of_close {l' : Lifetime} (calls : l'.calls = l.calls ++ [.release l.handleArg])
    (drawn : l'.drawn = l.drawn) (handle : l'.handle = none) :
    After l l' [.release l.handleArg] := by
  refine ⟨calls, ?_, drawn.ge, ?_⟩
  · intro n hin
    exact handle_of_arg (Call.release.inj (List.mem_singleton.mp hin))
  · intro n hn
    rw [handle] at hn
    cases hn

theorem After.idle (l : Lifetime) : After l l [] :=
  .of_open (List.append_nil _).symm (by simp) (Nat.le_refl _) rfl

theorem proceed_after (l : Lifetime) (a : Answers) : ∃ more, After l (l.proceed a) more := by
  cases hpc : l.user with
  | idle | gone | terminated =>
    simp only [Lifetime.proceed, hpc]
    exact ⟨[], .idle l⟩
  | opening interfaceName =>
    simp only [Lifetime.proceed, hpc]
    split_ifs
    · refine ⟨_, rfl, by simp, Nat.le_succ _, ?_⟩
      intro n hn
      exact .inr (Option.some.inj hn).le
    · exact ⟨[], (List.append_nil _).symm, by simp, Nat.le_refl _, by simp [Lifetime.setHandle,
        Lifetime.goto]⟩
  | settingNonblock | readingDatalink | freeingFilter | freeingFilterFor =>
    simp only [Lifetime.proceed, hpc]
    exact ⟨_, .of_open rfl (by simp) (Nat.le_refl _) rfl⟩
  | settingFilter | settingFilterFor =>
    simp only [Lifetime.proceed, hpc]
    refine ⟨_, .of_open rfl ?_ (Nat.le_refl _) rfl⟩
    intro _
    cases a.ok <;> simp [Lifetime.filterCalls]
  | findingDevices interfaceName =>
    simp only [Lifetime.proceed, hpc]
    split_ifs
    · exact ⟨_, .of_open rfl (by simp) (Nat.le_succ _) rfl⟩
    · exact ⟨[], .of_open (List.append_nil _).symm (by simp) (Nat.le_refl _) rfl⟩
  | freeingDevices n found =>
    simp only [Lifetime.proceed, hpc]
    cases found <;> exact ⟨_, .of_open rfl (by simp) (Nat.le_refl _) rfl⟩
  | compiling | compilingFor =>
    simp only [Lifetime.proceed, hpc]
    split_ifs
    · exact ⟨_, .of_open rfl (by simp) (Nat.le_succ _) rfl⟩
    · exact ⟨_, .of_open rfl (by simp) (Nat.le_refl _) rfl⟩
  | closingFailed =>
    simp only [Lifetime.proceed, hpc]
    exact ⟨_, .of_close rfl rfl rfl⟩
  | startingThread =>
    simp only [Lifetime.proceed, hpc]
    split_ifs <;>
      exact ⟨[], .of_open (List.append_nil _).symm (by simp) (Nat.le_refl _) rfl⟩
  | installing args =>
    simp only [Lifetime.proceed, hpc]
    obtain ⟨more, hcalls, hno⟩ := operated_calls l (step l.stack
      (.connect args.remoteIp args.remotePort args.localPort args.iss true a.sent))
    exact ⟨more, .of_open hcalls (fun n => hno _) (Nat.le_refl _) rfl⟩
  | stopping =>
    simp only [Lifetime.proceed, hpc]
    exact ⟨[], .of_open (List.append_nil _).symm (by simp) (Nat.le_refl _) rfl⟩
  | joining =>
    simp only [Lifetime.proceed, hpc]
    split
    · split
      · exact ⟨[], .of_open (List.append_nil _).symm (by simp) (Nat.le_refl _) rfl⟩
      · exact ⟨[], .idle l⟩
    · exact ⟨[], .of_open (List.append_nil _).symm (by simp) (Nat.le_refl _) rfl⟩
  | closingHandle =>
    simp only [Lifetime.proceed, hpc]
    split_ifs
    · exact ⟨_, .of_close rfl rfl rfl⟩
    · exact ⟨[], .of_open (List.append_nil _).symm (by simp) (Nat.le_refl _) rfl⟩

theorem call_after (l : Lifetime) (request : Request) :
    ∃ more, After l (l.call request) more := by
  have hact (a : Action) : ∃ more, After l (l.act a) more := by
    obtain ⟨more, hcalls, hno⟩ := operated_calls l (step l.stack a)
    exact ⟨more, .of_open hcalls (fun n => hno _) (Nat.le_refl _) rfl⟩
  cases request with
  | waitForConnectionPass | sendData | waitForData | closeConnection => exact hact _
  | destroy sent =>
    obtain ⟨more, hafter⟩ := hact (.closeConnection sent)
    exact ⟨more, hafter.calls, hafter.closes, hafter.drawn, hafter.handle⟩
  | initializeOn interfaceName =>
    exact ⟨[], .of_open (List.append_nil _).symm (by simp) (Nat.le_refl _) rfl⟩
  | connect args =>
    rw [Lifetime.call]
    split_ifs
    · exact ⟨[], .idle l⟩
    · exact ⟨[], .of_open (List.append_nil _).symm (by simp) (Nat.le_refl _) rfl⟩

/-- An open handle that `pcap_handle_` does not hold, or holds only until the `initialize` under
way overwrites it. -/
structure Lost (n : Nat) (l : Lifetime) : Prop where
  held : Resource.handle n ∈ (custody l.calls).held
  drawn : n < l.drawn
  current : l.handle = some n → ∃ interfaceName, l.user = .opening interfaceName

theorem Lost.after {n : Nat} {l' : Lifetime} {more : List (Call Resource)} (h : Lost n l)
    (hafter : After l l' more) (hcurrent : l.handle ≠ some n) : Lost n l' := by
  refine ⟨?_, h.drawn.trans_le hafter.drawn, ?_⟩
  · rw [hafter.calls, custody_append]
    exact held_of_unreleased h.held fun hin => hcurrent (hafter.closes n hin)
  · intro hn
    rcases hafter.handle n hn with hn | hn
    · exact absurd hn hcurrent
    · exact absurd h.drawn (Nat.not_lt.mpr hn)

theorem Lost.turn {n : Nat} (h : Lost n l) (t : Turn) : Lost n (turn l t) := by
  apply turn_of_progress h
  intro _
  by_cases hcurrent : l.handle = some n
  · obtain ⟨interfaceName, hpc⟩ := h.current hcurrent
    cases t with
    | call request =>
      have hidle : l.progress (.call request) = l := by simp [Lifetime.progress, hpc]
      rw [hidle]
      exact h
    | proceed a =>
      simp only [Lifetime.progress, Lifetime.proceed, hpc]
      split_ifs
      · refine ⟨?_, Nat.lt_succ_of_lt h.drawn, ?_⟩
        · exact (custody_append l.calls _).symm ▸ List.mem_cons_of_mem _ h.held
        · intro hn
          exact absurd (Option.some.inj hn).symm h.drawn.ne
      · exact ⟨h.held, h.drawn, by simp [Lifetime.setHandle, Lifetime.goto]⟩
    | capture p =>
      obtain ⟨more, hcalls, hno⟩ := capture_calls l p
      obtain ⟨hhandle, huser, hdrawn⟩ := capture_frame l p
      refine ⟨?_, ?_, fun _ => ⟨interfaceName, huser.trans hpc⟩⟩
      · show _ ∈ (custody (l.advanceCapture p).calls).held
        rw [hcalls, custody_append]
        exact held_of_unreleased h.held (hno _)
      · exact h.drawn.trans_le hdrawn.ge
  · cases t with
    | call request =>
      rw [progress_call]
      split
      · obtain ⟨more, hafter⟩ := call_after l request
        exact h.after hafter hcurrent
      · exact h
    | proceed a =>
      obtain ⟨more, hafter⟩ := proceed_after l a
      exact h.after hafter hcurrent
    | capture p =>
      obtain ⟨more, hcalls, hno⟩ := capture_calls l p
      obtain ⟨hhandle, huser, hdrawn⟩ := capture_frame l p
      exact h.after (.of_open hcalls (fun n => hno _) hdrawn.ge hhandle) hcurrent

/-- An `initialize` that follows on one that succeeded loses the handle of the first. -/
theorem Sound.reinitialized (h : Sound l) {t : Turn} (hagain : Reinitializes l t) :
    ∃ n, Lost n (Lifetimes.turn l t) := by
  obtain ⟨hdefined, hidle, hopen, hinit⟩ := hagain
  obtain ⟨interfaceName, rfl⟩ := initializes_iff.mp hinit
  obtain ⟨n, hn⟩ := Option.isSome_iff_exists.mp hopen
  have hheld : Resource.handle n ∈ (custody l.calls).held := by
    rw [h.kept.held, owned, hn]
    exact List.mem_append_right _ (List.mem_singleton_self _)
  have hturn : Lifetimes.turn l (.call (.initializeOn interfaceName)) =
      l.goto (.opening interfaceName) := by
    simp [turn_defined hdefined, Lifetime.progress, hidle, Lifetime.call]
  refine ⟨n, ?_⟩
  rw [hturn]
  exact ⟨hheld, h.kept.known _ (seen_of_held _ _ hheld), fun _ => ⟨interfaceName, rfl⟩⟩

end Steps

/-- Either no `initialize` follows on one that succeeded, or a handle is lost for good. -/
theorem single_or_lost {l : Lifetime} (h : Sound l) (turns : List Turn) :
    EachStep turn (fun l t => ¬ Reinitializes l t) l turns ∨ ∃ n, Lost n (run turn l turns) := by
  induction turns generalizing l with
  | nil => exact .inl trivial
  | cons t turns ih =>
    by_cases hagain : Reinitializes l t
    · obtain ⟨n, hlost⟩ := h.reinitialized hagain
      right
      have keep (l : Lifetime) (t : Turn) (hl : Lost n l) : True → Lost n (turn l t) :=
        fun _ => hl.turn t
      have hend : Lost n (run turn (turn l t) turns) :=
        run_invariant keep hlost (eachStep_of_forall fun _ _ => trivial)
      exact ⟨n, hend⟩
    · rcases ih (h.turn hagain) with hrest | hlost
      · exact .inl ⟨hagain, hrest⟩
      · exact .inr hlost

/-- As long as `initialize` does not follow on an `initialize` that succeeded, no call of libpcap
is given a null, closed or foreign handle, nothing is freed twice, and no thread is lost. -/
theorem calls_safe (turns : List Turn)
    (hsingle : EachStep turn (fun l t => ¬ Reinitializes l t) constructed turns) :
    Safe (lifetime turns).calls ∧ (lifetime turns).user ≠ .terminated := by
  have hsound : Sound (lifetime turns) :=
    run_invariant (fun l t hl ht => hl.turn ht) sound_constructed hsingle
  refine ⟨hsound.kept.safe, ?_⟩
  intro hterminated
  have hallowed := hsound.allowed
  rw [hterminated] at hallowed
  exact hallowed

/-- An object that opens one connection and is destroyed. -/
def plainLife : List Turn :=
  let answers : Answers := ⟨true, [⟨some [101], [none, some 3232235522]⟩], ⟨3, 0, 0, 0, 0, 9⟩, 54⟩
  let polled : Polled := ⟨0, [], fun _ => 54⟩
  .call (.initializeOn [101]) :: List.replicate 9 (.proceed answers) ++
    .call (.connect ⟨2600177206, 80, 40000, 7⟩) :: List.replicate 4 (.proceed answers) ++
    [.capture polled, .capture polled, .call (.destroy 54), .proceed answers, .capture polled,
      .proceed answers, .proceed answers]

theorem calls_safe_plainLife :
    EachStep turn (fun l t => ¬ Reinitializes l t) constructed plainLife ∧
      Safe (lifetime plainLife).calls ∧ (lifetime plainLife).user ≠ .terminated := by
  have hsingle : EachStep turn (fun l t => ¬ Reinitializes l t) constructed plainLife := by
    decide +kernel
  exact ⟨hsingle, calls_safe plainLife hsingle⟩

/-- Once the destructor has returned, everything that libpcap handed out has been given back
exactly once, if and only if no `initialize` followed on one that succeeded. -/
theorem balanced_iff_single (turns : List Turn) (hgone : (lifetime turns).user = .gone) :
    Balanced (lifetime turns).calls ↔
      EachStep turn (fun l t => ¬ Reinitializes l t) constructed turns := by
  rw [balanced_iff]
  constructor
  · rintro ⟨-, hempty⟩
    rcases single_or_lost sound_constructed turns with hsingle | ⟨n, hlost⟩
    · exact hsingle
    · have hheld := hlost.held
      rw [show (custody (run turn constructed turns).calls).held = [] from hempty] at hheld
      exact absurd hheld (by simp)
  · intro hsingle
    have hsound : Sound (lifetime turns) :=
      run_invariant (fun l t hl ht => hl.turn ht) sound_constructed hsingle
    have hallowed := hsound.allowed
    rw [hgone] at hallowed
    refine ⟨hsound.kept.safe, ?_⟩
    rw [hsound.kept.held, owned, hgone, hallowed.1]
    rfl

theorem balanced_iff_single_plainLife :
    (lifetime plainLife).user = .gone ∧ (Balanced (lifetime plainLife).calls ↔
      EachStep turn (fun l t => ¬ Reinitializes l t) constructed plainLife) := by
  have hgone : (lifetime plainLife).user = .gone := by decide +kernel
  exact ⟨hgone, balanced_iff_single plainLife hgone⟩

end MyTelnet.Stack.Ownership
