import Xhttp.Lib.HeadLines
import Xhttp.Lib.Run

/- The forwarding sysctls of `auto_redirect` (`LinuxTunRedirect` in `src/tun_redirect_linux.rs`).

   `install` sets them and writes what they were to the lock file, from which the next instance takes it if this one is
   killed; `drop` puts them back. The sysctl files and the lock file outlive a process, which can be killed between any
   two operations on them; each piece of a `writeln!` is written by itself. The lock keeps a second instance out while
   one runs. The nftables table and the Docker rules are left out: they are not kept in files. -/
namespace Xhttp.Tun.Redirect
open Xhttp.Lib List

/-! ## Files -/

inductive Sysctl where
  | ipv4
  | ipv6
  deriving DecidableEq, Repr

def Sysctl.path : Sysctl → Str
  | .ipv4 => "/proc/sys/net/ipv4/ip_forward"
  | .ipv6 => "/proc/sys/net/ipv6/conf/all/forwarding"

def Sysctl.parse (path : Str) : Option Sysctl :=
  if path = Sysctl.ipv4.path then some .ipv4 else if path = Sysctl.ipv6.path then some .ipv6 else none

/-- What outlives a process: the contents of the sysctl files and of the lock file. -/
structure Disk where
  sysctl : Sysctl → Str
  state : Str

/-- `fs::read_to_string(path)`, trimmed. -/
def Disk.value (disk : Disk) (x : Sysctl) : Str := Str.trim (disk.sysctl x)

/-- `fs::write(path, "{value}\n")`. -/
def Disk.write (disk : Disk) (x : Sysctl) (value : Str) : Disk :=
  { disk with sysctl := Function.update disk.sysctl x (value ++ ['\n']) }

/-- A saved sysctl and the value that it had. -/
abbrev Saved := Sysctl × Str

def one : Str := "1"

def readLine (line : Str) : Option Saved := do
  let (path, value) ← Str.splitOnce '=' line
  let x ← Sysctl.parse path
  if value = "0" ∨ value = one then some (x, value) else none

def readSysctlState (state : Str) : List Saved := (Str.lines state).filterMap readLine

/-- The pieces that `writeln!(lock, "{}={previous}", path)` writes. -/
def linePieces (saved : Saved) : List Str := [saved.1.path, "=", saved.2, "\n"]

/-! ## An instance -/

inductive Phase where
  /-- Before the next `enable_sysctl`. -/
  | enable (todo : List Sysctl)
  /-- The sysctl was read and is not 1. -/
  | write (x : Sysctl) (current : Str) (todo : List Sysctl)
  | truncate
  | persist (pieces : List Str)
  | script
  /-- `install` has returned. -/
  | active
  /-- In `drop`, before the last of the saved sysctls is read. -/
  | restore
  /-- It was read and is 1. -/
  | putBack (x : Sysctl) (previous : Str)
  /-- Before `set_len(0)` in `drop`. -/
  | clear
  deriving DecidableEq, Repr

/-- A process, with `sysctls` of its guard. -/
structure Instance where
  phase : Phase
  sysctls : List Saved
  deriving DecidableEq, Repr

structure System where
  disk : Disk
  process : Option Instance

inductive Event where
  /-- An instance takes the lock; the device has addresses of these families. -/
  | start (v4 v6 : Bool)
  | step
  | scriptFails
  | drop
  | kill
  deriving DecidableEq, Repr

/-- The sysctls that an instance enables, in this order. -/
def enabled (v4 v6 : Bool) : List Sysctl := (if v4 then [.ipv4] else []) ++ if v6 then [.ipv6] else []

/-- `if !self.sysctls.iter().any(..) { self.sysctls.push(..) }`. -/
def remember (sysctls : List Saved) (saved : Saved) : List Saved :=
  if sysctls.any (·.1 = saved.1) then sysctls else sysctls ++ [saved]

/-- The next operation of an instance, and what follows it up to the one after. -/
def advance (disk : Disk) (i : Instance) : Option (Disk × Option Instance) :=
  match i.phase with
  | .enable [] => some (disk, some { i with phase := .truncate })
  | .enable (x :: todo) =>
    if disk.value x = one then some (disk, some { i with phase := .enable todo })
    else some (disk, some { i with phase := .write x (disk.value x) todo })
  | .write x current todo =>
    some (disk.write x one, some { phase := .enable todo, sysctls := remember i.sysctls (x, current) })
  | .truncate => some ({ disk with state := [] }, some { i with phase := .persist (i.sysctls.flatMap linePieces) })
  | .persist [] => some (disk, some { i with phase := .script })
  | .persist (piece :: pieces) =>
    some ({ disk with state := disk.state ++ piece }, some { i with phase := .persist pieces })
  | .script => some (disk, some { i with phase := .active })
  | .active => none
  | .restore =>
    match i.sysctls.getLast? with
    | none => some (disk, some { i with phase := .clear })
    | some (x, previous) =>
      if disk.value x = one then some (disk, some { i with phase := .putBack x previous })
      else some (disk, some { phase := .restore, sysctls := i.sysctls.dropLast })
  | .putBack x previous => some (disk.write x previous, some { phase := .restore, sysctls := i.sysctls.dropLast })
  | .clear => some ({ disk with state := [] }, none)

def step (s : System) : Event → Option System
  | .start v4 v6 =>
    match s.process with
    | none => some { s with process := some ⟨.enable (enabled v4 v6), readSysctlState s.disk.state⟩ }
    | some _ => none
  | .step => s.process.bind fun i => (advance s.disk i).map fun r => ⟨r.1, r.2⟩
  | .scriptFails => s.process.bind fun i =>
    if i.phase = .script then some { s with process := some { i with phase := .restore } } else none
  | .drop => s.process.bind fun i =>
    if i.phase = .active then some { s with process := some { i with phase := .restore } } else none
  | .kill => s.process.map fun _ => { s with process := none }

/-- No instance is killed while a sysctl that it has to put back, and that is 1 now, is not in the lock file with the
    value it had. -/
def recorded (s : System) : Event → Bool
  | .kill => s.process.all fun i => i.sysctls.all fun saved =>
    s.disk.value saved.1 ≠ one || (readSysctlState s.disk.state).contains saved
  | _ => true

/-! ## Reading what was written -/

section
variable {sysctls : List Saved} {x : Sysctl} {value : Str}

theorem path_notMem : '=' ∉ x.path ∧ '\n' ∉ x.path := by cases x <;> decide +kernel

theorem parse_path : Sysctl.parse x.path = some x := by cases x <;> decide +kernel

/-- A line of the lock file is read as what was saved, or is left out. -/
theorem readLine_eq (x : Sysctl) (value : Str) :
    readLine (x.path ++ '=' :: value) = some (x, value) ∨ readLine (x.path ++ '=' :: value) = none := by
  simp only [readLine, Str.splitOnce_append path_notMem.1, Option.bind_eq_bind, Option.bind_some, parse_path]
  split
  · exact .inl rfl
  · exact .inr rfl

/-- A value that is one line, and does not end in white space. -/
structure OneLine (value : Str) : Prop where
  notMem : '\n' ∉ value
  last : value.getLast? ≠ some '\r'

theorem stripCr_line (h : OneLine value) : Str.stripCr (x.path ++ '=' :: value) = x.path ++ '=' :: value := by
  unfold Str.stripCr
  rw [if_neg]
  intro hlast
  cases value with
  | nil => simp at hlast
  | cons c rest => exact h.last (by simpa using hlast)

theorem readSysctlState_cons (h : OneLine value) (rest : Str) :
    readSysctlState (x.path ++ '=' :: value ++ '\n' :: rest) =
      (readLine (x.path ++ '=' :: value)).toList ++ readSysctlState rest := by
  have hnot : '\n' ∉ x.path ++ '=' :: value := by
    simp only [mem_append, mem_cons, not_or]
    exact ⟨path_notMem.2, by decide, h.notMem⟩
  rw [readSysctlState, Str.lines_cons hnot, stripCr_line h, filterMap_cons]
  cases readLine (x.path ++ '=' :: value) <;> rfl

variable {saved : Saved}

theorem mem_readSysctlState_of_notMem {text : Str} (h : '\n' ∉ text) (hmem : saved ∈ readSysctlState text) :
    readLine text = some saved := by
  rw [readSysctlState, Str.lines_of_notMem h] at hmem
  simp_all

/-- A line of which a part was written, without its end, is read as it was saved or not at all. -/
theorem mem_readSysctlState_part (h : OneLine value) {n : Nat} (hn : n < 4)
    (hmem : saved ∈ readSysctlState ((linePieces (x, value)).take n).flatten) : saved = (x, value) := by
  have hpath := path_notMem (x := x)
  rcases n with _ | _ | _ | _ | n
  · simp [readSysctlState, Str.lines, Str.split] at hmem
  · have htext : ((linePieces (x, value)).take 1).flatten = x.path := by simp [linePieces]
    rw [htext] at hmem
    have hread := mem_readSysctlState_of_notMem hpath.2 hmem
    rw [readLine, Str.splitOnce_of_notMem hpath.1] at hread
    cases hread
  · have htext : ((linePieces (x, value)).take 2).flatten = x.path ++ '=' :: [] := by simp [linePieces]
    rw [htext] at hmem
    have hread := mem_readSysctlState_of_notMem (by simp [hpath.2]) hmem
    have hempty : ¬(([] : Str) = "0" ∨ ([] : Str) = one) := by decide
    simp only [readLine, Str.splitOnce_append hpath.1, Option.bind_eq_bind, Option.bind_some, parse_path,
      if_neg hempty] at hread
    cases hread
  · have htext : ((linePieces (x, value)).take 3).flatten = x.path ++ '=' :: value := by simp [linePieces]
    rw [htext] at hmem
    have hread := mem_readSysctlState_of_notMem (by simp [hpath.2, h.notMem]) hmem
    grind [readLine_eq]
  · omega

/-- Whatever part of the state was written, what is read of it was saved. -/
theorem readSysctlState_take (sysctls : List Saved) (hlines : ∀ saved ∈ sysctls, OneLine saved.2) :
    ∀ n, ∀ saved ∈ readSysctlState ((sysctls.flatMap linePieces).take n).flatten, saved ∈ sysctls := by
  induction sysctls with
  | nil =>
    intro n saved hmem
    simp [readSysctlState, Str.lines, Str.split] at hmem
  | cons first sysctls ih =>
    obtain ⟨x, value⟩ := first
    obtain ⟨hvalue, hrest⟩ := forall_mem_cons.mp hlines
    intro n saved hmem
    have hlength : (linePieces (x, value)).length = 4 := rfl
    by_cases hn : n < 4
    · rw [flatMap_cons, take_append_of_le_length (by omega)] at hmem
      rw [mem_readSysctlState_part hvalue hn hmem]
      exact mem_cons_self
    · have htext : (((x, value) :: sysctls).flatMap linePieces |>.take n).flatten =
          x.path ++ '=' :: value ++ '\n' :: ((sysctls.flatMap linePieces).take (n - 4)).flatten := by
        rw [flatMap_cons, take_append, take_of_length_le (by omega), hlength]
        simp [linePieces]
      rw [htext, readSysctlState_cons hvalue] at hmem
      grind [readLine_eq, mem_singleton, mem_cons_self, mem_cons_of_mem]

end

/-! ## What an instance has to put back -/

section
variable (orig : Sysctl → Str)

/-- The values that are saved are the original ones. -/
def Right (sysctls : List Saved) : Prop := ∀ saved ∈ sysctls, saved.2 = orig saved.1

/-- A sysctl has its original value, or it is 1 and the original value is saved. -/
def Covered (disk : Disk) (sysctls : List Saved) : Prop :=
  ∀ x, disk.value x = orig x ∨ disk.value x = one ∧ (x, orig x) ∈ sysctls

/-- What an instance knows between two operations. -/
def PhaseOk (disk : Disk) (i : Instance) : Prop :=
  match i.phase with
  | .write x current _ => current = disk.value x ∧ current ≠ one
  | .persist pieces => ∃ n, disk.state = ((i.sysctls.flatMap linePieces).take n).flatten ∧
      pieces = (i.sysctls.flatMap linePieces).drop n
  | .putBack x previous => i.sysctls.getLast? = some (x, previous)
  | .clear => i.sysctls = []
  | _ => True

structure Running (disk : Disk) (i : Instance) : Prop where
  right : Right orig i.sysctls
  covered : Covered orig disk i.sysctls
  phase : PhaseOk disk i

structure Holds (s : System) : Prop where
  file : Right orig (readSysctlState s.disk.state)
  stopped : s.process = none → Covered orig s.disk (readSysctlState s.disk.state)
  running : ∀ i, s.process = some i → Running orig s.disk i

variable {orig} {disk disk' : Disk} {i : Instance} {next : Option Instance} {x : Sysctl} {v previous : Str}

theorem value_write (hv : Str.trim v = v) : (disk.write x v).value x = v := by
  simp only [Disk.value, Disk.write, Function.update_self]
  rw [Str.trim_concat (by decide), hv]

theorem value_write_of_ne {y : Sysctl} (h : y ≠ x) : (disk.write x v).value y = disk.value y := by
  simp only [Disk.value, Disk.write, Function.update_of_ne h]

theorem Covered.enable (h : Covered orig disk sysctls) (hright : Right orig sysctls) (hcurrent : disk.value x ≠ one) :
    Right orig (remember sysctls (x, disk.value x)) ∧
      Covered orig (disk.write x one) (remember sysctls (x, disk.value x)) := by
  have horig : disk.value x = orig x := by
    rcases h x with horig | ⟨hone, -⟩
    · exact horig
    · exact absurd hone hcurrent
  have hold : ∀ saved ∈ sysctls, saved ∈ remember sysctls (x, disk.value x) := by
    intro saved hmem
    unfold remember
    split
    · exact hmem
    · exact mem_append_left _ hmem
  have hsaved : (x, orig x) ∈ remember sysctls (x, disk.value x) := by
    unfold remember
    split
    · next hany =>
      obtain ⟨⟨y, value⟩, hmem, heq⟩ := any_eq_true.mp hany
      have hxy : y = x := by simpa using heq
      subst hxy
      rw [← hright _ hmem]
      exact hmem
    · exact mem_append_right _ (mem_singleton.mpr (by rw [horig]))
  refine ⟨?_, fun y => ?_⟩
  · unfold remember
    split
    · exact hright
    · intro saved hmem
      rcases mem_append.mp hmem with hmem | hmem
      · exact hright saved hmem
      · rw [mem_singleton.mp hmem]
        exact horig
  · by_cases hy : y = x
    · subst hy
      exact .inr ⟨value_write (by decide), hsaved⟩
    · rw [value_write_of_ne hy]
      exact (h y).imp_right fun hone => ⟨hone.1, hold _ hone.2⟩

theorem Covered.dropLast (h : Covered orig disk sysctls) (hlast : sysctls.getLast? = some (x, previous))
    (hvalue : disk'.value x = orig x) (hother : ∀ y, y ≠ x → disk'.value y = disk.value y) :
    Covered orig disk' sysctls.dropLast := by
  intro y
  by_cases hy : y = x
  · exact .inl (hy ▸ hvalue)
  · rw [hother y hy]
    refine (h y).imp_right fun hone => ⟨hone.1, ?_⟩
    have hsplit : sysctls.dropLast ++ [(x, previous)] = sysctls := dropLast_append_getLast? (x, previous) hlast
    grind

theorem Right.dropLast (h : Right orig sysctls) : Right orig sysctls.dropLast :=
  fun saved hmem => h saved (dropLast_subset sysctls hmem)

theorem Holds.of_running (hfile : Right orig (readSysctlState disk.state)) (h : Running orig disk i) :
    Holds orig ⟨disk, some i⟩ :=
  ⟨hfile, fun hnone => (by cases hnone), fun _ hi => Option.some.inj hi ▸ h⟩

variable (horig : ∀ x, OneLine (orig x) ∧ Str.trim (orig x) = orig x)
include horig

theorem Running.advance (h : Running orig disk i)
    (hfile : Right orig (readSysctlState disk.state)) (hstep : advance disk i = some (disk', next)) :
    Holds orig ⟨disk', next⟩ := by
  obtain ⟨hright, hcovered, hphase⟩ := h
  have hlines : ∀ saved ∈ i.sysctls, OneLine saved.2 := fun saved hmem => hright saved hmem ▸ (horig saved.1).1
  unfold Redirect.advance at hstep
  unfold PhaseOk at hphase
  split at hstep
  · cases hstep
    exact .of_running hfile ⟨hright, hcovered, trivial⟩
  · next x todo heq =>
    split at hstep
    · cases hstep
      exact .of_running hfile ⟨hright, hcovered, trivial⟩
    · next hcurrent =>
      cases hstep
      exact .of_running hfile ⟨hright, hcovered, rfl, hcurrent⟩
  · next x current todo heq =>
    cases hstep
    rw [heq] at hphase
    obtain ⟨rfl, hcurrent⟩ := hphase
    obtain ⟨hright', hcovered'⟩ := hcovered.enable hright hcurrent
    exact .of_running hfile ⟨hright', hcovered', trivial⟩
  · cases hstep
    exact .of_running nofun ⟨hright, hcovered, 0, rfl, rfl⟩
  · cases hstep
    exact .of_running hfile ⟨hright, hcovered, trivial⟩
  · next piece pieces heq =>
    cases hstep
    rw [heq] at hphase
    obtain ⟨n, hstate, hpieces⟩ := hphase
    have hget : (i.sysctls.flatMap linePieces)[n]? = some piece := by
      rw [← head?_drop, ← hpieces]
      rfl
    have hstate' : disk.state ++ piece = ((i.sysctls.flatMap linePieces).take (n + 1)).flatten := by
      rw [take_add_one, hget, flatten_append, ← hstate]
      simp
    refine .of_running ?_ ⟨hright, hcovered, n + 1, hstate', ?_⟩
    · rw [hstate']
      exact fun saved hmem => hright saved (readSysctlState_take i.sysctls hlines (n + 1) saved hmem)
    · rw [← drop_drop, ← hpieces]
      rfl
  · cases hstep
    exact .of_running hfile ⟨hright, hcovered, trivial⟩
  · cases hstep
  · split at hstep
    · next hlast =>
      cases hstep
      exact .of_running hfile ⟨hright, hcovered, getLast?_eq_none_iff.mp hlast⟩
    · next x previous hlast =>
      split at hstep
      · cases hstep
        exact .of_running hfile ⟨hright, hcovered, hlast⟩
      · next hvalue =>
        cases hstep
        have horig' : disk.value x = orig x := (hcovered x).resolve_right fun hone => hvalue hone.1
        exact .of_running hfile ⟨hright.dropLast, hcovered.dropLast hlast horig' fun _ _ => rfl, trivial⟩
  · next x previous heq =>
    cases hstep
    rw [heq] at hphase
    have hprevious : previous = orig x := hright _ (mem_of_getLast? hphase)
    have hvalue : (disk.write x previous).value x = orig x := by
      rw [hprevious]
      exact value_write (horig x).2
    exact .of_running hfile ⟨hright.dropLast, hcovered.dropLast hphase hvalue fun _ hy => value_write_of_ne hy, trivial⟩
  · next heq =>
    cases hstep
    rw [heq] at hphase
    refine ⟨nofun, fun _ x => .inl ?_, nofun⟩
    exact (hcovered x).resolve_right fun hone => not_mem_nil (hphase ▸ hone.2)

theorem Holds.step {s s' : System} {e : Event} (h : Holds orig s)
    (hrecorded : recorded s e = true) (hstep : step s e = some s') : Holds orig s' := by
  cases e with
  | start v4 v6 =>
    simp only [Redirect.step] at hstep
    split at hstep
    · next hnone =>
      cases hstep
      exact .of_running h.file ⟨h.file, h.stopped hnone, trivial⟩
    · cases hstep
  | step =>
    obtain ⟨i, hi, hmap⟩ := Option.bind_eq_some_iff.mp hstep
    obtain ⟨⟨disk', next⟩, hadvance, rfl⟩ := Option.map_eq_some_iff.mp hmap
    exact (h.running i hi).advance horig h.file hadvance
  | scriptFails | drop =>
    obtain ⟨i, hi, hif⟩ := Option.bind_eq_some_iff.mp hstep
    split at hif
    · cases hif
      obtain ⟨hright, hcovered, -⟩ := h.running i hi
      exact .of_running h.file ⟨hright, hcovered, trivial⟩
    · cases hif
  | kill =>
    obtain ⟨i, hi, rfl⟩ := Option.map_eq_some_iff.mp hstep
    obtain ⟨hright, hcovered, -⟩ := h.running i hi
    refine ⟨h.file, fun _ x => (hcovered x).imp_right fun hone => ⟨hone.1, ?_⟩, fun _ hi' => by cases hi'⟩
    -- what was 1 and saved is in the file, so the next instance will find it
    simp only [recorded, hi, Option.all_some, all_eq_true, Bool.or_eq_true, decide_eq_true_eq,
      contains_iff_mem] at hrecorded
    exact (hrecorded _ hone.2).resolve_left fun hne => hne hone.1

end

/-- **The sysctls survive kills between which their values are recorded.** In every run of instances that are killed
    only while what they have to put back is in the lock file, an instance that is dropped leaves the values that were
    there before the first one started. -/
theorem sysctls_restored (disk : Disk) (hstate : disk.state = []) (hline : ∀ x, '\n' ∉ disk.value x) (es : List Event)
    (halong : Along step (fun s e => recorded s e = true) ⟨disk, none⟩ es) (s : System) (i : Instance)
    (hrun : run step ⟨disk, none⟩ es = some s) (hprocess : s.process = some i) (hclear : i.phase = .clear) :
    ∃ s', step s .step = some s' ∧ s'.process = none ∧ ∀ x, s'.disk.value x = disk.value x := by
  have horig : ∀ x, OneLine (disk.value x) ∧ Str.trim (disk.value x) = disk.value x := by
    intro x
    refine ⟨⟨hline x, fun hlast => ?_⟩, Str.trim_trim _⟩
    exact absurd (Str.getLast?_trim (disk.sysctl x) _ hlast) (by decide)
  have hinit : Holds (disk.value) ⟨disk, none⟩ := by
    refine ⟨?_, fun _ x => .inl rfl, nofun⟩
    rw [hstate]
    exact nofun
  have hholds : Holds (disk.value) s :=
    run_inv_along (Holds disk.value) _
      (fun _ _ _ hrecorded h hstep => h.step horig hrecorded hstep) es halong hinit hrun
  obtain ⟨-, hcovered, hphase⟩ := hholds.running i hprocess
  rw [PhaseOk, hclear] at hphase
  refine ⟨⟨{ s.disk with state := [] }, none⟩, by simp [step, hprocess, advance, hclear], rfl, fun x => ?_⟩
  exact (hcovered x).resolve_right fun hone => not_mem_nil (hphase ▸ hone.2)

/-! Forwarding is off before the first instance, which enables IPv4. -/

def forwardingOff : Disk := ⟨fun _ => "0\n", []⟩

def enableFirst : List Event := [.start true false, .step, .step]

/-- The rest of `install`, up to the end of the script: the state has one line. -/
def finishInstall : List Event := List.replicate 8 .step

/-- The next instance finds the sysctl at 1, installs and is dropped, up to the last operation. -/
def restartAndDrop (pieces : Nat) : List Event :=
  [.start true false] ++ List.replicate (pieces + 5) .step ++ [.drop]

/-- Killed after `install`, with the state on disk. -/
theorem sysctls_restored_after_kill : ∃ s i s',
    run step ⟨forwardingOff, none⟩
      (enableFirst ++ finishInstall ++ [.kill] ++ restartAndDrop 4 ++ [.step, .step, .step]) = some s ∧
      s.process = some i ∧ i.phase = .clear ∧ step s .step = some s' ∧ s'.process = none ∧
      ∀ x, s'.disk.value x = forwardingOff.value x := by
  have hrun : ∃ s i, run step ⟨forwardingOff, none⟩
      (enableFirst ++ finishInstall ++ [.kill] ++ restartAndDrop 4 ++ [.step, .step, .step]) = some s ∧
      s.process = some i ∧ i.phase = .clear := ⟨_, _, rfl, rfl, rfl⟩
  obtain ⟨s, i, hrun, hprocess, hclear⟩ := hrun
  obtain ⟨s', hstep, hnone, hvalue⟩ := sysctls_restored forwardingOff rfl (fun x => by cases x <;> decide) _
    (by decide) s i hrun hprocess hclear
  exact ⟨s, i, s', hrun, hprocess, hclear, hstep, hnone, hvalue⟩

/-- Killed after the sysctl was set and before its value was written down: it stays at 1. -/
theorem killed_before_persist : ∃ s,
    run step ⟨forwardingOff, none⟩ (enableFirst ++ [.kill] ++ restartAndDrop 0 ++ [.step, .step]) = some s ∧
      s.process = none ∧ s.disk.value .ipv4 = one ∧ forwardingOff.value .ipv4 = "0" :=
  ⟨_, rfl, rfl, by decide, by decide⟩

end Xhttp.Tun.Redirect
