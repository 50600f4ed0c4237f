/- module: MyTelnet/Program/Arguments
   scope: model and proofs
   digest: The argument loop of main, and what it reads from every command line. -/

import MyTelnet.Http.Numerals

set_option autoImplicit false
set_option relaxedAutoImplicit false

namespace MyTelnet.Program.Arguments

open MyTelnet.Base.ByteOrder MyTelnet.Wire.Memory MyTelnet.Http.Strings MyTelnet.Http.Numerals

/-- The variables that the argument loop of `main` assigns. -/
structure Settings where
  interfaceName : Bytes
  serverIp : Bytes
  serverPort : UInt16
  filePath : Bytes
  nonOptionArgs : Nat
  deriving DecidableEq, Repr

def defaults : Settings :=
  { interfaceName := [], serverIp := [], serverPort := 80, filePath := ascii "/",
    nonOptionArgs := 0 }

/-- How the loop ends: `main` goes on, or has printed its usage and returned 0 or 1. -/
inductive Parsed where
  | settings (s : Settings)
  | help
  | invalidPort
  deriving DecidableEq, Repr

def slash : UInt8 := 47

/-- The second non-option argument: `stoi`, and the cast to `uint16_t`. -/
def parsePort (arg : Bytes) : Option UInt16 :=
  match stoi arg with
  | .ok port => some (UInt16.ofInt port)
  | .error _ => none

/-- The third non-option argument. -/
def rooted (arg : Bytes) : Bytes :=
  if arg ≠ [] ∧ arg.head? ≠ some slash then ascii "/" ++ arg else arg

/-- The body of the loop on a non-option argument, if it does not return. -/
def takeArgument (s : Settings) (arg : Bytes) : Option Settings :=
  let s := { s with nonOptionArgs := s.nonOptionArgs + 1 }
  match s.nonOptionArgs with
  | 1 => some { s with serverIp := arg }
  | 2 => (parsePort arg).map fun port => { s with serverPort := port }
  | 3 => some { s with filePath := rooted arg }
  | _ => some s

def isHelp (arg : Bytes) : Bool := arg == ascii "-h" || arg == ascii "--help"

/-- The argument loop, on the arguments it has not read. -/
def parseArguments (s : Settings) : List Bytes → Parsed
  | [] => .settings s
  | [arg] =>
    if isHelp arg then .help else
    match takeArgument s arg with
    | some s => .settings s
    | none => .invalidPort
  | arg :: next :: rest =>
    if arg = ascii "-i" then parseArguments { s with interfaceName := next } rest else
    if isHelp arg then .help else
    match takeArgument s arg with
    | some s => parseArguments s (next :: rest)
    | none => .invalidPort

/-! What stands on a command line. -/

/-- The names that follow a `-i`. -/
def interfaces : List Bytes → List Bytes
  | [] | [_] => []
  | arg :: next :: rest =>
    if arg = ascii "-i" then next :: interfaces rest else interfaces (next :: rest)

/-- The arguments but for each `-i` and its name. -/
def words : List Bytes → List Bytes
  | [] => []
  | [arg] => [arg]
  | arg :: next :: rest =>
    if arg = ascii "-i" then words rest else arg :: words (next :: rest)

/-- The second word is to be a port and is not one, and no help is asked for before. -/
def BadPort (ws : List Bytes) : Prop :=
  ∃ ip port more, ws = ip :: port :: more ∧ isHelp ip = false ∧ isHelp port = false ∧
    parsePort port = none

/-- What words mean, wherever the options stand. -/
def settingsOf (name : Bytes) (ws : List Bytes) : Settings :=
  { interfaceName := name, serverIp := ws[0]?.getD [],
    serverPort := (ws[1]?.bind parsePort).getD 80,
    filePath := (ws[2]?.map rooted).getD (ascii "/"), nonOptionArgs := ws.length }

/-- The loop on words alone. -/
def readWords (s : Settings) : List Bytes → Parsed
  | [] => .settings s
  | word :: ws =>
    if isHelp word then .help else
    match takeArgument s word with
    | some s => readWords s ws
    | none => .invalidPort

def setInterface (s : Settings) (interfaceName : Bytes) : Settings :=
  { s with interfaceName := interfaceName }

/-- A non-option argument leaves the name of the interface alone, and does not depend on it. -/
theorem takeArgument_setInterface (s : Settings) (name arg : Bytes) :
    takeArgument (setInterface s name) arg =
      (takeArgument s arg).map fun s => setInterface s name := by
  obtain ⟨interfaceName, serverIp, serverPort, filePath, nonOptionArgs⟩ := s
  rcases nonOptionArgs with - | - | - | n
  · rfl
  · simp only [takeArgument, setInterface]
    cases parsePort arg <;> rfl
  · rfl
  · rfl

theorem takeArgument_interface {s s' : Settings} {arg : Bytes} (h : takeArgument s arg = some s') :
    s'.interfaceName = s.interfaceName := by
  have hset := takeArgument_setInterface s s.interfaceName arg
  rw [show setInterface s s.interfaceName = s from rfl, h] at hset
  exact congrArg (·.interfaceName) (Option.some.inj hset)

/-- The options can be read first. -/
theorem parseArguments_eq_readWords (s : Settings) (args : List Bytes) :
    parseArguments s args =
      readWords (setInterface s ((interfaces args).getLastD s.interfaceName)) (words args) := by
  fun_induction parseArguments s args with
  | case1 s => rfl
  | case2 s arg hhelp =>
    rw [words, readWords, if_pos hhelp]
  | case3 s arg hhelp s' htake =>
    rw [words, readWords, if_neg hhelp, takeArgument_setInterface, htake]
    show _ = Parsed.settings (setInterface s' s.interfaceName)
    rw [← takeArgument_interface htake]
    rfl
  | case4 s arg hhelp htake =>
    rw [words, readWords, if_neg hhelp, takeArgument_setInterface, htake]
    rfl
  | case5 s next rest ih =>
    rw [ih, words, if_pos rfl, interfaces, if_pos rfl, List.getLastD_cons]
    rfl
  | case6 s arg next rest hoption hhelp =>
    rw [words, if_neg hoption, readWords, if_pos hhelp]
  | case7 s arg next rest hoption hhelp s' htake ih =>
    rw [ih, words, if_neg hoption, interfaces, if_neg hoption, readWords, if_neg hhelp,
      takeArgument_setInterface, htake, takeArgument_interface htake]
    rfl
  | case8 s arg next rest hoption hhelp htake =>
    rw [words, if_neg hoption, readWords, if_neg hhelp, takeArgument_setInterface, htake]
    rfl

/-- Behind the third word nothing matters but a call for help. -/
theorem readWords_rest (s : Settings) (hs : 3 ≤ s.nonOptionArgs) (ws : List Bytes) :
    readWords s ws = if ws.any isHelp then .help else
      .settings { s with nonOptionArgs := s.nonOptionArgs + ws.length } := by
  induction ws generalizing s with
  | nil => rfl
  | cons word ws ih =>
    have htake : takeArgument s word = some { s with nonOptionArgs := s.nonOptionArgs + 1 } := by
      obtain ⟨interfaceName, serverIp, serverPort, filePath, nonOptionArgs⟩ := s
      obtain ⟨n, rfl⟩ := Nat.exists_eq_add_of_le' hs
      rfl
    rw [readWords, htake, List.any_cons]
    cases hhelp : isHelp word with
    | true => rfl
    | false =>
      show readWords { s with nonOptionArgs := s.nonOptionArgs + 1 } ws = _
      rw [ih _ (Nat.le_succ_of_le hs), List.length_cons, Nat.add_right_comm]
      rfl

theorem readWords_badPort {s : Settings} (hs : s.nonOptionArgs = 0) {ws : List Bytes}
    (h : BadPort ws) : readWords s ws = .invalidPort := by
  obtain ⟨ip, port, more, rfl, hip, hport, hbad⟩ := h
  obtain ⟨interfaceName, serverIp, serverPort, filePath, nonOptionArgs⟩ := s
  obtain rfl : nonOptionArgs = 0 := hs
  have htake : takeArgument ⟨interfaceName, ip, serverPort, filePath, 1⟩ port = none := by
    simp [takeArgument, hbad]
  rw [readWords, if_neg (by simp [hip])]
  show readWords ⟨interfaceName, ip, serverPort, filePath, 1⟩ (port :: more) = _
  rw [readWords, if_neg (by simp [hport]), htake]

theorem readWords_good (name : Bytes) {ws : List Bytes} (h : ¬ BadPort ws) :
    readWords (setInterface defaults name) ws =
      if ws.any isHelp then .help else .settings (settingsOf name ws) := by
  cases ws with
  | nil => rfl
  | cons ip ws =>
    cases hip : isHelp ip with
    | true => simp [readWords, hip]
    | false =>
      have hfirst : readWords (setInterface defaults name) (ip :: ws) =
          readWords ⟨name, ip, 80, ascii "/", 1⟩ ws := by
        rw [readWords, hip]
        rfl
      rw [hfirst, List.any_cons, hip, Bool.false_or]
      cases ws with
      | nil => rfl
      | cons text ws =>
        cases htext : isHelp text with
        | true => simp [readWords, htext]
        | false =>
          cases hport : parsePort text with
          | none => exact absurd ⟨ip, text, ws, rfl, hip, htext, hport⟩ h
          | some port =>
            have hsecond : readWords ⟨name, ip, 80, ascii "/", 1⟩ (text :: ws) =
                readWords ⟨name, ip, port, ascii "/", 2⟩ ws := by
              rw [readWords, htext]
              simp [takeArgument, hport]
            rw [hsecond, List.any_cons, htext, Bool.false_or]
            cases ws with
            | nil => simp [readWords, settingsOf, hport]
            | cons path ws =>
              cases hpath : isHelp path with
              | true => simp [readWords, hpath]
              | false =>
                have hthird : readWords ⟨name, ip, port, ascii "/", 2⟩ (path :: ws) =
                    readWords ⟨name, ip, port, rooted path, 3⟩ ws := by
                  rw [readWords, hpath]
                  rfl
                rw [hthird, readWords_rest _ (Nat.le_refl 3), List.any_cons, hpath, Bool.false_or]
                have hcount : 3 + ws.length = ws.length + 1 + 1 + 1 := by omega
                simp [settingsOf, hport, hcount]

theorem parsePort_eq_some_iff (arg : Bytes) (port : UInt16) :
    parsePort arg = some port ↔
      ∃ value, Numeral arg value ∧ IntRange value ∧ (port.toNat : Int) = value % 65536 := by
  have hcast (value : Int) : ((UInt16.ofInt value).toNat : Int) = value % 65536 := by
    rw [UInt16.ofInt, UInt16.toNat_ofNat']
    omega
  constructor
  · intro h
    rw [parsePort] at h
    split at h
    · next value hvalue =>
      obtain ⟨hnumeral, hrange⟩ := (stoi_ok_iff arg value).mp hvalue
      rw [← Option.some.inj h]
      exact ⟨value, hnumeral, hrange, hcast value⟩
    · cases h
  · rintro ⟨value, hnumeral, hrange, hport⟩
    rw [parsePort, (stoi_ok_iff arg value).mpr ⟨hnumeral, hrange⟩]
    show some (UInt16.ofInt value) = some port
    congr 1
    apply UInt16.toNat_inj.mp
    have hvalue := hcast value
    omega

end MyTelnet.Program.Arguments
