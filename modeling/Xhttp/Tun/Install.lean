import Mathlib.Data.Finset.Basic
import Mathlib.Data.Finset.Dedup
import Mathlib.Data.Finset.SDiff
import Mathlib.Data.Finset.Lattice.Fold
import Xhttp.Tun.Routes

/- Installing and removing a plan (`LinuxTunRoutes` in `src/tun_route_linux.rs`).

   The kernel is a set of entries, each told by the family, the object and the words after `add` and `del`. Every run
   of `ip` may fail without effect: `failures n` is the failure of the command number `n` of a loop. A delete of an
   entry that is not there is refused by `ip`, and `run_ip_delete` takes the refusal for a success: the kernel stays
   as it is, as after a delete that removes nothing. The guard is dropped also when `install` fails. -/
namespace Xhttp.Tun
open Xhttp.Lib List

abbrev Kernel := Finset IpAction

/-! ## Commands -/

/-- `ip` could not be started, or exited with a status and a message. -/
inductive IpFailure where
  | notStarted
  | exited (status stderr : Str)
  deriving DecidableEq, Repr

def Object.parse (word : Str) : Option Object :=
  if word = Object.route.text then some .route else if word = Object.rule.text then some .rule else none

def ip (kernel : Kernel) (family : Family) : List Str → Kernel
  | object :: verb :: tail =>
    match Object.parse object with
    | none => kernel
    | some object =>
      if verb = "add" then insert ⟨family, object, tail⟩ kernel
      else if verb = "del" then kernel.erase ⟨family, object, tail⟩
      else kernel
  | _ => kernel

def runIp (failure : Option IpFailure) (family : Family) (arguments : List Str) (kernel : Kernel) :
    Kernel × Except Failure Unit :=
  match failure with
  | none => (ip kernel family arguments, .ok ())
  | some .notStarted => (kernel, .error (.message "execute iproute2"))
  | some (.exited status stderr) =>
    (kernel, .error
      (.message ("iproute2 exited with " ++ String.ofList status ++ ": " ++ String.ofList (Str.trim stderr))))

/-- The messages of `ip` for an entry that is already gone. -/
def goneMessages : List Str :=
  ["Cannot find device", "No such process", "No such file or directory", "FIB table does not exist"]

/-- `message.contains(..)` for one of them. -/
def saysGone (message : Str) : Bool := goneMessages.any fun gone => gone <:+: message

def IpFailure.tolerated : IpFailure → Bool
  | .notStarted => false
  | .exited _ stderr => saysGone (Str.trim stderr)

def runIpDelete (failure : Option IpFailure) (family : Family) (arguments : List Str) (kernel : Kernel) :
    Kernel × Except Failure Unit :=
  match failure with
  | none => (ip kernel family arguments, .ok ())
  | some .notStarted => (kernel, .error (.message "execute iproute2 cleanup"))
  | some (.exited status stderr) =>
    if saysGone (Str.trim stderr) then (kernel, .ok ())
    else (kernel, .error (.message ("iproute2 cleanup exited with " ++ String.ofList status ++ ": " ++
      String.ofList (Str.trim stderr))))

/-- The two ways an action is run. -/
abbrev Runner := Option IpFailure → IpAction → Kernel → Kernel × Except Failure Unit

def addAction : Runner := fun failure action kernel => runIp failure action.family action.add kernel

def deleteAction : Runner := fun failure action kernel => runIpDelete failure action.family action.delete kernel

/-- A loop that stops at the first error: the kernel then, the actions that were done, and the error. -/
def runAll (runner : Runner) :
    (Nat → Option IpFailure) → List IpAction → Kernel → Kernel × List IpAction × Except Failure Unit
  | _, [], kernel => (kernel, [], .ok ())
  | failures, action :: rest, kernel =>
    match runner (failures 0) action kernel with
    | (kernel, .error e) => (kernel, [], .error e)
    | (kernel, .ok _) =>
      let (kernel, done, result) := runAll runner (fun n => failures (n + 1)) rest kernel
      (kernel, action :: done, result)

def runEach (runner : Runner) : (Nat → Option IpFailure) → List IpAction → Kernel → Kernel
  | _, [], kernel => kernel
  | failures, action :: rest, kernel =>
    runEach runner (fun n => failures (n + 1)) rest (runner (failures 0) action kernel).1

/-! ## The guard -/

def dropGuard (failures : Nat → Option IpFailure) (installed : List IpAction) (kernel : Kernel) : Kernel :=
  runEach deleteAction failures installed.reverse kernel

/-- The failures of the two loops of `install`, and of the deletes when its partial guard is dropped. -/
structure Faults where
  remove : Nat → Option IpFailure
  add : Nat → Option IpFailure
  cleanup : Nat → Option IpFailure

/-- `ip {family} {arguments}` in a message. -/
def commandText (family : Family) (arguments : List Str) : String :=
  "ip " ++ String.ofList family.flag ++ " " ++ String.ofList (List.intercalate " " arguments)

/-- What stops a loop is shown with the command it stopped at: the first that was not done. -/
def stoppedAt (context : String) (arguments : IpAction → List Str) (actions done : List IpAction) : Failure :=
  .message (context ++ ((actions[done.length]?).elim "" fun action => commandText action.family (arguments action)))

/-- `install` of a plan: what is left of an earlier process goes first, the last action before the first. -/
def installActions (faults : Faults) (actions : List IpAction) (kernel : Kernel) :
    Kernel × Except Failure (List IpAction) :=
  match runAll deleteAction faults.remove actions.reverse kernel with
  | (kernel, done, .error _) =>
    (dropGuard faults.cleanup [] kernel,
      .error (stoppedAt "remove stale TUN route action: " IpAction.delete actions.reverse done))
  | (kernel, _, .ok _) =>
    match runAll addAction faults.add actions kernel with
    | (kernel, done, .error _) =>
      (dropGuard faults.cleanup done kernel, .error (stoppedAt "install TUN route action: " IpAction.add actions done))
    | (kernel, done, .ok _) => (kernel, .ok done)

def install (faults : Faults) (config : TunConfig) (kernel : Kernel) : Kernel × Except Failure (List IpAction) :=
  match buildActions config with
  | .error e => (kernel, .error e)
  | .ok actions => installActions faults actions kernel

/-! ## What a loop does -/

section
variable {kernel : Kernel} {action : IpAction} {failures : Nat → Option IpFailure} {failure : Option IpFailure}

theorem parse_text (object : Object) : Object.parse object.text = some object := by
  cases object <;> decide

theorem ip_add (kernel : Kernel) (action : IpAction) : ip kernel action.family action.add = insert action kernel := by
  simp [ip, IpAction.add, parse_text]

theorem ip_delete (kernel : Kernel) (action : IpAction) :
    ip kernel action.family action.delete = kernel.erase action := by
  simp [ip, IpAction.delete, parse_text]

theorem addAction_cases (failure : Option IpFailure) (action : IpAction) (kernel : Kernel) :
    addAction failure action kernel = (insert action kernel, .ok ()) ∧ failure = none ∨
    ∃ e, addAction failure action kernel = (kernel, .error e) ∧ failure ≠ none := by
  unfold addAction runIp
  grind [ip_add]

theorem deleteAction_cases (failure : Option IpFailure) (action : IpAction) (kernel : Kernel) :
    deleteAction failure action kernel = (kernel.erase action, .ok ()) ∧ failure = none ∨
    deleteAction failure action kernel = (kernel, .ok ()) ∧ failure.any IpFailure.tolerated = true ∨
    ∃ e, deleteAction failure action kernel = (kernel, .error e) ∧ failure.any (!·.tolerated) = true := by
  unfold deleteAction runIpDelete
  grind [ip_delete, saysGone, Str.trim, IpFailure.tolerated]

/-- The adds that were done are a first part of the list, and the kernel has them in addition. -/
theorem runAll_add : ∀ (failures : Nat → Option IpFailure) (actions : List IpAction) (kernel : Kernel), ∃ done result,
    runAll addAction failures actions kernel = (kernel ∪ done.toFinset, done, result) ∧ done <+: actions ∧
      (result = .ok () → done = actions)
  | _, [], kernel => ⟨[], .ok (), by simp [runAll], nil_prefix, fun _ => rfl⟩
  | failures, action :: rest, kernel => by
    rcases addAction_cases (failures 0) action kernel with ⟨heq, -⟩ | ⟨e, heq, -⟩
    · obtain ⟨done, result, hrest, hdone, hall⟩ := runAll_add (fun n => failures (n + 1)) rest (insert action kernel)
      grind [prefix_cons_inj, insert, toFinset_cons, runAll]
    simp_all [runAll, toFinset_nil, nil_prefix]

theorem runAll_delete : ∀ (failures : Nat → Option IpFailure) (actions : List IpAction) (kernel : Kernel),
    ∃ kernel' done result, runAll deleteAction failures actions kernel = (kernel', done, result) ∧
      kernel \ actions.toFinset ⊆ kernel' ∧ kernel' ⊆ kernel
  | _, [], kernel => ⟨kernel, [], .ok (), rfl, Finset.sdiff_subset, subset_rfl⟩
  | failures, action :: rest, kernel => by
    have hstep : ∀ kernel₁, kernel.erase action ⊆ kernel₁ → kernel₁ ⊆ kernel →
        deleteAction (failures 0) action kernel = (kernel₁, .ok ()) →
        ∃ kernel' done result, runAll deleteAction failures (action :: rest) kernel = (kernel', done, result) ∧
          kernel \ (action :: rest).toFinset ⊆ kernel' ∧ kernel' ⊆ kernel := by
      intro kernel₁ hlow hhigh heq
      obtain ⟨kernel', done, result, hrest, hkeeps, hsub⟩ := runAll_delete (fun n => failures (n + 1)) rest kernel₁
      refine ⟨kernel', action :: done, result, by simp only [runAll, heq, hrest], ?_, hsub.trans hhigh⟩
      refine subset_trans (fun x hx => ?_) hkeeps
      simp only [Finset.mem_sdiff, toFinset_cons, Finset.mem_insert, not_or] at hx ⊢
      exact ⟨hlow (Finset.mem_erase.mpr ⟨hx.2.1, hx.1⟩), hx.2.2⟩
    grind [deleteAction_cases, subset_rfl, Finset.erase_subset, runAll, Finset.sdiff_subset]

def noFailures : Nat → Option IpFailure := fun _ => none

theorem runEach_delete : ∀ (actions : List IpAction) (kernel : Kernel),
    runEach deleteAction noFailures actions kernel = kernel \ actions.toFinset
  | [], kernel => by simp [runEach]
  | action :: rest, kernel => by
    have hdelete : (deleteAction none action kernel).1 = kernel.erase action := ip_delete kernel action
    show runEach deleteAction noFailures rest (deleteAction none action kernel).1 = _
    rw [hdelete, runEach_delete rest, toFinset_cons, Finset.sdiff_insert, Finset.erase_sdiff_comm]

theorem dropGuard_eq (installed : List IpAction) (kernel : Kernel) :
    dropGuard noFailures installed kernel = kernel \ installed.toFinset := by
  rw [dropGuard, runEach_delete, toFinset_reverse]

end

/-- **Installing a plan is a transaction.** The plan is all in the kernel, or nothing of it that was not there before;
    the other entries stay as they are, and dropping the guard leaves them alone. -/
theorem install_transactional (faults : Faults) (hcleanup : faults.cleanup = noFailures) (actions : List IpAction)
    (foreign stale : Finset IpAction) (hforeign : Disjoint foreign actions.toFinset)
    (hstale : stale ⊆ actions.toFinset) :
    match installActions faults actions (foreign ∪ stale) with
    | (kernel, .ok installed) =>
      kernel = foreign ∪ actions.toFinset ∧ dropGuard noFailures installed kernel = foreign
    | (kernel, .error _) =>
      (∀ action ∈ actions, action ∈ kernel → action ∈ stale) ∧
        ∀ action, action ∉ actions → (action ∈ kernel ↔ action ∈ foreign) := by
  obtain ⟨kernel, removed, result, hremove, hlow, hhigh⟩ :=
    runAll_delete faults.remove actions.reverse (foreign ∪ stale)
  -- between the two loops the foreign entries are there, and of the plan at most what was there before
  have hkept : foreign ⊆ kernel := by
    refine subset_trans (fun x hx => ?_) hlow
    rw [toFinset_reverse]
    exact Finset.mem_sdiff.mpr ⟨Finset.mem_union_left _ hx, Finset.disjoint_left.mp hforeign hx⟩
  have hplan : ∀ action ∈ actions, action ∈ kernel → action ∈ stale := by
    intro action hmem hkernel
    rcases Finset.mem_union.mp (hhigh hkernel) with hf | hs
    · exact absurd (mem_toFinset.mpr hmem) (Finset.disjoint_left.mp hforeign hf)
    · exact hs
  have hother : ∀ action, action ∉ actions → (action ∈ kernel ↔ action ∈ foreign) := by
    intro action hnot
    refine ⟨fun hkernel => ?_, @hkept _⟩
    rcases Finset.mem_union.mp (hhigh hkernel) with hf | hs
    · exact hf
    · exact absurd (mem_toFinset.mp (hstale hs)) hnot
  unfold installActions
  rw [hremove, hcleanup]
  cases result with
  | error e =>
    grind [dropGuard_eq, toFinset_nil, Finset.sdiff_empty]
  | ok u =>
    obtain ⟨done, result, hadd, hpart, hall⟩ := runAll_add faults.add actions kernel
    dsimp only
    rw [hadd]
    cases result with
    | error e =>
      dsimp only
      rw [dropGuard_eq, Finset.union_sdiff_right]
      refine ⟨fun action hmem hkernel => hplan action hmem (Finset.mem_sdiff.mp hkernel).1, fun action hnot => ?_⟩
      rw [Finset.mem_sdiff, hother action hnot, mem_toFinset]
      exact and_iff_left fun hdone => hnot (hpart.subset hdone)
    | ok u =>
      obtain rfl := hall rfl
      have hkernel : kernel ∪ done.toFinset = foreign ∪ done.toFinset := by
        ext action
        rw [Finset.mem_union, Finset.mem_union, mem_toFinset]
        by_cases hmem : action ∈ done
        · exact iff_of_true (.inr hmem) (.inr hmem)
        · rw [hother action hmem]
      refine ⟨hkernel, ?_⟩
      rw [dropGuard_eq, hkernel, Finset.union_sdiff_right, Finset.sdiff_eq_self_of_disjoint hforeign]

/-! A plan of two rules, the first of which is left over from a killed process. -/

def twoRules : List IpAction := [.rule .v4 9000 suppressRule, .rule .v4 9001 ["nop"]]

def otherRule : IpAction := .rule .v4 100 ["nop"]

def secondAddFails : Faults where
  remove := noFailures
  add n := if n = 1 then some .notStarted else none
  cleanup := noFailures

theorem install_transactional_second_add : ∃ kernel e,
    installActions secondAddFails twoRules ({otherRule} ∪ {.rule .v4 9000 suppressRule}) = (kernel, .error e) ∧
      (∀ action ∈ twoRules, action ∈ kernel → action = .rule .v4 9000 suppressRule) ∧ otherRule ∈ kernel := by
  have h := install_transactional secondAddFails rfl twoRules {otherRule} {.rule .v4 9000 suppressRule}
    (by decide) (by decide)
  refine ⟨_, _, rfl, fun action hmem hkernel => Finset.mem_singleton.mp (h.1 action hmem hkernel), ?_⟩
  exact (h.2 otherRule (by decide)).mpr (Finset.mem_singleton_self otherRule)

end Xhttp.Tun
