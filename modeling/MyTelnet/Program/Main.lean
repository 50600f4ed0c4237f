/- module: MyTelnet/Program/Main
   scope: model and proofs
   digest: main: the interface and the local file it picks, its exit status, what it writes. -/

import Mathlib.Logic.Function.Basic
import MyTelnet.Http.Download
import MyTelnet.Program.Arguments

set_option autoImplicit false
set_option relaxedAutoImplicit false

namespace MyTelnet.Program.Main

open MyTelnet.Base.ByteOrder MyTelnet.Wire.Memory MyTelnet.Http.Strings MyTelnet.Http.Client
open MyTelnet.Http.Numerals MyTelnet.Http.Heads MyTelnet.Http.Stability MyTelnet.Http.Download
open MyTelnet.Program.Arguments

/-- `pcap_if_t` as `get_default_interface` looks at it. -/
structure Interface where
  name : Bytes
  up : Bool
  running : Bool
  loopback : Bool

/-- `get_default_interface`; there is no list if `pcap_findalldevs` fails. -/
def getDefaultInterface (alldevs : Option (List Interface)) : Bytes :=
  match alldevs with
  | none => ascii "eth0"
  | some devs =>
    let active := devs.find? fun dev => dev.up && dev.running && !dev.loopback
    let interfaceName := (active.map (·.name)).getD []
    let interfaceName :=
      if interfaceName = [] then (devs.head?.map (·.name)).getD [] else interfaceName
    if interfaceName = [] then ascii "eth0" else interfaceName

/-- `find_last_of` for one character. -/
def findLastOf (c : UInt8) (s : Bytes) : Option Nat :=
  (s.reverse.findIdx? (· == c)).map (s.length - 1 - ·)

/-- The name under which `main` saves what it downloads. -/
def localFilename (filePath : Bytes) : Bytes :=
  if filePath = ascii "/" then ascii "index.html" else
  match findLastOf slash filePath with
  | some lastSlash =>
    if lastSlash < filePath.length - 1 then filePath.drop (lastSlash + 1)
    else ascii "download.dat"
  | none => ascii "download.dat"

/-- What `main` meets: the interfaces, whether the client can be initialized on one, whether a
file can be opened for writing, and how the calls of a server turn out. -/
structure World where
  alldevs : Option (List Interface)
  initialized : Bytes → Bool
  opened : Bytes → Bool
  server : Bytes → UInt16 → Transport
  locals : HttpResponse

/-- The files of the working directory. -/
abbrev Directory := Bytes → Option Bytes

def chosenInterface (w : World) (s : Settings) : Bytes :=
  if s.interfaceName = [] then getDefaultInterface w.alldevs else s.interfaceName

/-- `main` on the arguments behind the program's name: what it returns, or the exception that
nothing catches, and the files it leaves. -/
def main (args : List Bytes) (w : World) (files : Directory) : Checked Nat × Directory :=
  match parseArguments defaults args with
  | .help => (.ok 0, files)
  | .invalidPort => (.ok 1, files)
  | .settings s =>
    if s.serverIp = [] then (.ok 1, files) else
    if !w.initialized (chosenInterface w s) then (.ok 1, files) else
    let name := localFilename s.filePath
    let download := downloadFile (w.opened name) (files name) (w.server s.serverIp s.serverPort)
      w.locals s.serverIp s.filePath
    (download.1.map fun success => if success then 0 else 1,
      Function.update files name download.2)

theorem getDefaultInterface_ne (alldevs : Option (List Interface)) :
    getDefaultInterface alldevs ≠ [] := by
  cases alldevs with
  | none => decide
  | some devs =>
    simp only [getDefaultInterface]
    split_ifs with hactive hfirst
    · decide
    · exact hfirst
    · exact hactive

/-- The client is never initialized on an interface without a name. -/
theorem chosenInterface_ne (w : World) (s : Settings) : chosenInterface w s ≠ [] := by
  rw [chosenInterface]
  split_ifs with hnone
  · exact getDefaultInterface_ne w.alldevs
  · exact hnone

/-- Behind the last one there is no other. -/
theorem findLastOf_notMem {c : UInt8} {s : Bytes} {i : Nat} (h : findLastOf c s = some i) :
    c ∉ s.drop (i + 1) := by
  rw [findLastOf, Option.map_eq_some_iff] at h
  obtain ⟨j, hj, rfl⟩ := h
  rw [List.findIdx?_eq_some_iff_getElem] at hj
  obtain ⟨hlt, -, hbefore⟩ := hj
  rw [List.length_reverse] at hlt
  have hback : s.length - 1 - j + 1 = s.length - j := by omega
  rw [hback, ← List.mem_reverse, ← List.take_reverse, List.mem_take_iff_getElem]
  rintro ⟨k, hk, hc⟩
  have hkj : k < j := by omega
  exact hbefore k hkj (beq_iff_eq.mpr hc)

theorem localFilename_ne (filePath : Bytes) : localFilename filePath ≠ [] := by
  rw [localFilename]
  split
  · decide
  · split
    · split
      · next hlt =>
        intro hnil
        rw [List.drop_eq_nil_iff] at hnil
        omega
      · decide
    · decide

theorem slash_notMem_localFilename (filePath : Bytes) : slash ∉ localFilename filePath := by
  rw [localFilename]
  split
  · decide
  · split
    · next hlast =>
      split
      · exact findLastOf_notMem hlast
      · decide
    · decide

/-! What the program writes. -/

/-- The command line, the network and the file system let `main` get as far as `get`. -/
structure Downloads (args : List Bytes) (w : World) (s : Settings) : Prop where
  read : parseArguments defaults args = .settings s
  server : s.serverIp ≠ []
  initialized : w.initialized (chosenInterface w s) = true
  opened : w.opened (localFilename s.filePath) = true

section Main

variable {args : List Bytes} {w : World} {s : Settings} (files : Directory)

theorem main_downloads (h : Downloads args w s) :
    main args w files =
      ((downloadFile true (files (localFilename s.filePath)) (w.server s.serverIp s.serverPort)
          w.locals s.serverIp s.filePath).1.map fun success => if success then 0 else 1,
        Function.update files (localFilename s.filePath)
          (downloadFile true (files (localFilename s.filePath)) (w.server s.serverIp s.serverPort)
            w.locals s.serverIp s.filePath).2) := by
  simp only [main, h.read, if_neg h.server, h.initialized, h.opened]
  rfl

/-- Where it gets no further, nothing is touched. -/
theorem main_stops (h : ∀ s, ¬ Downloads args w s) :
    main args w files =
      (.ok (if parseArguments defaults args = .help then 0 else 1), files) := by
  cases hread : parseArguments defaults args with
  | help => simp [main, hread]
  | invalidPort => simp [main, hread]
  | settings s =>
    by_cases hserver : s.serverIp = []
    · simp [main, hread, hserver]
    · cases hinit : w.initialized (chosenInterface w s) with
      | false => simp [main, hread, hserver, hinit]
      | true =>
        cases hopened : w.opened (localFilename s.filePath) with
        | true => exact absurd ⟨hread, hserver, hinit, hopened⟩ (h s)
        | false =>
          simp only [main, hread, if_neg hserver, hinit, hopened, downloadFile_not_opened,
            Function.update_eq_self]
          rfl

end Main

/-- `main` changes no file but the one it names, which lies in the working directory, and none at
all unless it gets as far as `get`. -/
theorem writes_one_file {args : List Bytes} {w : World} {files : Directory} {name : Bytes}
    (h : (main args w files).2 name ≠ files name) :
    ∃ s, Downloads args w s ∧ name = localFilename s.filePath ∧ name ≠ [] ∧ slash ∉ name := by
  by_cases hdownloads : ∃ s, Downloads args w s
  · obtain ⟨s, hs⟩ := hdownloads
    have hname : name = localFilename s.filePath := by
      by_contra hother
      rw [main_downloads files hs] at h
      exact h (Function.update_of_ne hother _ _)
    refine ⟨s, hs, hname, ?_, ?_⟩
    · rw [hname]
      exact localFilename_ne s.filePath
    · rw [hname]
      exact slash_notMem_localFilename s.filePath
  · rw [main_stops files (not_exists.mp hdownloads)] at h
    exact absurd rfl h

def sampleArgs : List Bytes := [ascii "10.0.0.9", ascii "-i", ascii "eth1", ascii "80",
  ascii "lab/a.txt"]

/-- Everything works but the server. -/
def sampleWorld : World :=
  ⟨none, fun _ => true, fun _ => true, fun _ _ => ⟨false, false, false, []⟩, ⟨0, [], ∅, []⟩⟩

theorem writes_one_file_sample :
    ∃ s, Downloads sampleArgs sampleWorld s ∧ ascii "a.txt" = localFilename s.filePath ∧
      ascii "a.txt" ≠ [] ∧ slash ∉ ascii "a.txt" :=
  @writes_one_file sampleArgs sampleWorld (fun _ => some (ascii "old")) (ascii "a.txt")
    (by decide +kernel)

/-! How the program ends. -/

/-- The status text with which a server answers a request that reaches it. -/
def answer (t : Transport) : Option Bytes :=
  if asked t then statusTextOf t.chunks.flatten else none

/-- A download ends by the answer of the server. -/
theorem downloadFile_outcome (file : Option Bytes) (t : Transport) (locals : HttpResponse)
    (host path : Bytes) :
    (downloadFile true file t locals host path).1 =
      (answer t).elim (.ok false) fun text => (stoi text).map fun _ => true := by
  cases hasked : asked t with
  | false =>
    rw [downloadFile_not_asked file locals host path hasked, answer, hasked]
    rfl
  | true =>
    have hempty : parseHttpResponse [] locals = .ok (false, locals) := rfl
    rw [answer, hasked, if_pos rfl]
    rcases receiveLoop_cases locals [] t.chunks hempty with
      ⟨hparse, hloop⟩ | ⟨pre, last, post, hchunks, -, hend⟩
    · rw [List.nil_append] at hparse
      rw [downloadFile_received file locals host path hasked hloop, statusText_of_refused hparse]
      rfl
    · rw [List.nil_append] at hend
      have hwhole : t.chunks.flatten = pre.flatten ++ last ++ post.flatten := by
        rw [hchunks, List.flatten_append, List.flatten_cons, List.append_assoc]
      rcases hend with ⟨what, hparse, hloop⟩ | ⟨response, hparse, hloop⟩
      · obtain ⟨text, htext, hstoi⟩ := statusText_of_thrown (thrown_append post.flatten hparse)
        rw [downloadFile_thrown file locals host path hasked hloop, hwhole, htext, Option.elim_some,
          hstoi]
        rfl
      · obtain ⟨text, htext, hstoi⟩ := statusText_of_accepted (accepted_append post.flatten hparse)
        rw [downloadFile_received file locals host path hasked hloop, hwhole, htext,
          Option.elim_some, hstoi]
        rfl

/-- The exit status of a download, by the answer of the server. -/
def statusOf (answer : Option Bytes) : Checked Nat :=
  answer.elim (.ok 1) fun text => (stoi text).map fun _ => 0

theorem main_status {args : List Bytes} {w : World} {s : Settings} (files : Directory)
    (h : Downloads args w s) :
    (main args w files).1 = statusOf (answer (w.server s.serverIp s.serverPort)) := by
  rw [main_downloads files h, downloadFile_outcome, statusOf]
  cases answer (w.server s.serverIp s.serverPort) with
  | none => rfl
  | some text =>
    rw [Option.elim_some, Option.elim_some]
    cases stoi text with
    | ok value => rfl
    | error e => rfl

theorem statusOf_zero_iff (answer : Option Bytes) :
    statusOf answer = .ok 0 ↔
      ∃ text value, answer = some text ∧ Numeral text value ∧ IntRange value := by
  cases answer with
  | none => simp [statusOf]
  | some text =>
    constructor
    · intro h
      cases hstoi : stoi text with
      | ok value => exact ⟨text, value, rfl, (stoi_ok_iff text value).mp hstoi⟩
      | error e => simp [statusOf, hstoi, Except.map] at h
    · rintro ⟨text', value, htext, hvalue⟩
      obtain rfl := Option.some.inj htext
      simp [statusOf, (stoi_ok_iff text value).mpr hvalue, Except.map]

theorem statusOf_error_iff (answer : Option Bytes) :
    (∃ e, statusOf answer = .error e) ↔
      ∃ text, answer = some text ∧ ∀ value, Numeral text value → ¬ IntRange value := by
  cases answer with
  | none => simp [statusOf]
  | some text =>
    constructor
    · rintro ⟨e, h⟩
      refine ⟨text, rfl, ?_⟩
      intro value hnumeral hrange
      simp [statusOf, (stoi_ok_iff text value).mpr ⟨hnumeral, hrange⟩, Except.map] at h
    · rintro ⟨text', htext, hnone⟩
      obtain rfl := Option.some.inj htext
      cases hstoi : stoi text with
      | ok value =>
        obtain ⟨hnumeral, hrange⟩ := (stoi_ok_iff text value).mp hstoi
        exact absurd hrange (hnone value hnumeral)
      | error e => exact ⟨e, by simp [statusOf, hstoi, Except.map]⟩

end MyTelnet.Program.Main
