import Xhttp.Tun.Install

/- A reload of the rule-sets of a TUN inbound (`run_rule_set_updater` in `src/tun.rs`): the routes and rules are
   replaced first (`LinuxTunRoutes::replace`), then the address sets (`LinuxTunRedirect::replace_route_sets`).

   A guard is there while the device runs, the one for the sets only under `auto_redirect`. `nft -f` is a transaction:
   a script that fails changes no set. The new configuration is any. -/
namespace Xhttp.Tun
open Xhttp.Lib List

/-! ## Replacing the routes and rules -/

def removedActions (installed next : List IpAction) : List IpAction := installed.filter (· ∉ next)

def addedActions (installed next : List IpAction) : List IpAction := next.filter (· ∉ installed)

/-- The failures of a cycle: of the deletes, of the adds, of the script, and of the commands that compensate. -/
structure CycleFaults where
  delete : Nat → Option IpFailure
  add : Nat → Option IpFailure
  script : Option String
  undoAdd : Nat → Option IpFailure
  undoDelete : Nat → Option IpFailure

def replaceActions (faults : CycleFaults) (installed next : List IpAction) (kernel : Kernel) :
    Kernel × List IpAction × Except Failure Unit :=
  let removed := removedActions installed next
  match runAll deleteAction faults.delete removed.reverse kernel with
  | (kernel, _, .error e) => (kernel, installed, .error e)
  | (kernel, _, .ok _) =>
    match runAll addAction faults.add (addedActions installed next) kernel with
    | (kernel, done, .error _) =>
      let kernel := runEach deleteAction faults.undoAdd done.reverse kernel
      let kernel := runEach addAction faults.undoDelete removed kernel
      (kernel, installed, .error (.message "replace TUN rule-set routes"))
    | (kernel, _, .ok _) => (kernel, next, .ok ())

def replace (faults : CycleFaults) (config : TunConfig) (installed : List IpAction) (kernel : Kernel) :
    Kernel × List IpAction × Except Failure Unit :=
  match buildActions config with
  | .error e => (kernel, installed, .error e)
  | .ok next => replaceActions faults installed next kernel

/-! ## Replacing the address sets -/

inductive SetName where
  | route4
  | route6
  | exclude4
  | exclude6
  deriving DecidableEq, Repr

/-- The elements of the sets of the table. -/
abbrev RouteSets := SetName → List Str

inductive NftCommand where
  | flush (name : SetName)
  | addElement (name : SetName) (values : List Str)
  deriving DecidableEq, Repr

def NftCommand.run (sets : RouteSets) : NftCommand → RouteSets
  | .flush name => Function.update sets name []
  | .addElement name values => Function.update sets name (sets name ++ values)

def replaceAddressSet (name : SetName) (values : List Str) : List NftCommand :=
  .flush name :: if values = [] then [] else [.addElement name values]

def familyTexts (ipv6 : Bool) (nets : List IpNet) : List Str := (ofFamily ipv6 nets).map IpNet.text

def routeSets (config : TunConfig) : RouteSets
  | .route4 => familyTexts false config.routeAddresses
  | .route6 => familyTexts true config.routeAddresses
  | .exclude4 => familyTexts false config.routeExcludeAddresses
  | .exclude6 => familyTexts true config.routeExcludeAddresses

def routeSetScript (config : TunConfig) : List NftCommand :=
  replaceAddressSet .route4 (familyTexts false config.routeAddresses) ++
  replaceAddressSet .route6 (familyTexts true config.routeAddresses) ++
  replaceAddressSet .exclude4 (familyTexts false config.routeExcludeAddresses) ++
  replaceAddressSet .exclude6 (familyTexts true config.routeExcludeAddresses)

def runNftScript (failure : Option String) (script : List NftCommand) (sets : RouteSets) :
    RouteSets × Except Failure Unit :=
  match failure with
  | none => (script.foldl NftCommand.run sets, .ok ())
  | some message => (sets, .error (.message message))

def replaceRouteSets (failure : Option String) (config : TunConfig) (sets : RouteSets) :
    RouteSets × Except Failure Unit :=
  runNftScript failure (routeSetScript config) sets

/-! ## A cycle -/

/-- The kernel, the table, and what the guards hold. -/
structure Host where
  kernel : Kernel
  sets : RouteSets
  /-- `installed` of the guard of the routes, if there is one. -/
  routes : Option (List IpAction)
  /-- There is a guard of the sets. -/
  redirect : Bool

def Host.applySets (faults : CycleFaults) (next : TunConfig) (host : Host) : Host × Except Failure Unit :=
  if host.redirect then
    let (sets, result) := replaceRouteSets faults.script next host.sets
    ({ host with sets }, result)
  else (host, .ok ())

def Host.applyUpdate (faults : CycleFaults) (next : TunConfig) (host : Host) : Host × Except Failure Unit :=
  match host.routes with
  | none => host.applySets faults next
  | some installed =>
    match replace faults next installed host.kernel with
    | (kernel, installed, .error e) => ({ host with kernel, routes := some installed }, .error e)
    | (kernel, installed, .ok _) => { host with kernel, routes := some installed }.applySets faults next

/-- The one step of a cycle that fails. -/
inductive Fault where
  | delete (n : Nat) (failure : IpFailure)
  | add (n : Nat) (failure : IpFailure)
  | script (message : String)
  deriving DecidableEq, Repr

def failsAt (n : Nat) (failure : IpFailure) : Nat → Option IpFailure := fun k => if k = n then some failure else none

/-- One step fails, or none; the commands that compensate succeed. -/
def singleFault (fault : Option Fault) : CycleFaults where
  delete := match fault with
    | some (.delete n failure) => failsAt n failure
    | _ => noFailures
  add := match fault with
    | some (.add n failure) => failsAt n failure
    | _ => noFailures
  script := match fault with
    | some (.script message) => some message
    | _ => none
  undoAdd := noFailures
  undoDelete := noFailures

/-! ## Loops with one failure -/

section
variable {e : Failure} {runner : Runner} {effect : Kernel → IpAction → Kernel} {failure : IpFailure}

theorem runAll_noFailures (hok : ∀ kernel action, runner none action kernel = (effect kernel action, .ok ())) :
    ∀ (actions : List IpAction) (kernel : Kernel),
      runAll runner noFailures actions kernel = (actions.foldl effect kernel, actions, .ok ())
  | [], _ => rfl
  | action :: rest, kernel => by
    have hnone : noFailures 0 = none := rfl
    have hshift : (fun n => noFailures (n + 1)) = noFailures := rfl
    simp only [runAll, hnone, hok, hshift, runAll_noFailures hok rest (effect kernel action), foldl_cons]

theorem runAll_failsAt (hok : ∀ kernel action, runner none action kernel = (effect kernel action, .ok ()))
    (herror : ∀ kernel action, runner (some failure) action kernel = (kernel, .error e)) :
    ∀ (n : Nat) (actions : List IpAction) (kernel : Kernel), runAll runner (failsAt n failure) actions kernel =
      if n < actions.length then ((actions.take n).foldl effect kernel, actions.take n, .error e)
      else (actions.foldl effect kernel, actions, .ok ())
  | _, [], _ => rfl
  | 0, action :: rest, kernel => by
    simp only [runAll, failsAt, if_true, herror]
    rfl
  | n + 1, action :: rest, kernel => by
    have hshift : (fun k => failsAt (n + 1) failure (k + 1)) = failsAt n failure := by
      funext k
      simp [failsAt]
    have hzero : failsAt (n + 1) failure 0 = none := by simp [failsAt]
    simp only [runAll, hzero, hok, hshift, runAll_failsAt hok herror n rest, length_cons, Nat.add_lt_add_iff_right,
      take_succ_cons, foldl_cons]
    split <;> rfl

theorem foldl_insert : ∀ (actions : List IpAction) (kernel : Kernel),
    actions.foldl (fun kernel action => insert action kernel) kernel = kernel ∪ actions.toFinset
  | [], kernel => by simp
  | action :: rest, kernel => by
    rw [foldl_cons, foldl_insert rest, toFinset_cons, Finset.insert_union, Finset.union_insert]

theorem foldl_erase : ∀ (actions : List IpAction) (kernel : Kernel),
    actions.foldl Finset.erase kernel = kernel \ actions.toFinset
  | [], kernel => by simp
  | action :: rest, kernel => by
    rw [foldl_cons, foldl_erase rest, toFinset_cons, Finset.sdiff_insert, Finset.erase_sdiff_comm]

theorem addAction_none (kernel : Kernel) (action : IpAction) :
    addAction none action kernel = (insert action kernel, .ok ()) := by
  rw [← ip_add]
  rfl

theorem deleteAction_none (kernel : Kernel) (action : IpAction) :
    deleteAction none action kernel = (kernel.erase action, .ok ()) := by
  rw [← ip_delete]
  rfl

theorem runEach_add : ∀ (actions : List IpAction) (kernel : Kernel),
    runEach addAction noFailures actions kernel = kernel ∪ actions.toFinset
  | [], kernel => by simp [runEach]
  | action :: rest, kernel => by
    show runEach addAction noFailures rest (addAction none action kernel).1 = _
    rw [addAction_none, runEach_add rest, toFinset_cons, Finset.insert_union, Finset.union_insert]

theorem runAll_add_failsAt (n : Nat) (failure : IpFailure) (actions : List IpAction) (kernel : Kernel) :
    ∃ e, runAll addAction (failsAt n failure) actions kernel =
      if n < actions.length then (kernel ∪ (actions.take n).toFinset, actions.take n, .error e)
      else (kernel ∪ actions.toFinset, actions, .ok ()) := by
  have herror : ∃ e, ∀ kernel action, addAction (some failure) action kernel = (kernel, .error e) := by
    cases failure <;> exact ⟨_, fun _ _ => rfl⟩
  obtain ⟨e, herror⟩ := herror
  refine ⟨e, ?_⟩
  rw [runAll_failsAt addAction_none herror, foldl_insert, foldl_insert]

theorem runAll_delete_failsAt (n : Nat) (hreported : failure.tolerated = false) (actions : List IpAction)
    (kernel : Kernel) : ∃ e, runAll deleteAction (failsAt n failure) actions kernel =
      if n < actions.length then (kernel \ (actions.take n).toFinset, actions.take n, .error e)
      else (kernel \ actions.toFinset, actions, .ok ()) := by
  have herror : ∃ e, ∀ kernel action, deleteAction (some failure) action kernel = (kernel, .error e) := by
    cases failure with
    | notStarted => exact ⟨_, fun _ _ => rfl⟩
    | exited status stderr => exact ⟨_, fun _ _ => if_neg (Bool.eq_false_iff.mp hreported)⟩
  obtain ⟨e, herror⟩ := herror
  refine ⟨e, ?_⟩
  rw [runAll_failsAt deleteAction_none herror, foldl_erase, foldl_erase]

theorem runAll_add_noFailures (actions : List IpAction) (kernel : Kernel) :
    runAll addAction noFailures actions kernel = (kernel ∪ actions.toFinset, actions, .ok ()) := by
  rw [runAll_noFailures addAction_none, foldl_insert]

theorem runAll_delete_noFailures (actions : List IpAction) (kernel : Kernel) :
    runAll deleteAction noFailures actions kernel = (kernel \ actions.toFinset, actions, .ok ()) := by
  rw [runAll_noFailures deleteAction_none, foldl_erase]

end

/-! ## The sets -/

theorem run_replaceAddressSet (name : SetName) (values : List Str) (sets : RouteSets) :
    (replaceAddressSet name values).foldl NftCommand.run sets = Function.update sets name values := by
  unfold replaceAddressSet
  split
  · next hnone =>
    rw [hnone]
    rfl
  · simp [NftCommand.run]

/-- The script leaves the sets of the configuration, whatever they were. -/
theorem run_routeSetScript (config : TunConfig) (sets : RouteSets) :
    (routeSetScript config).foldl NftCommand.run sets = routeSets config := by
  simp only [routeSetScript, foldl_append, run_replaceAddressSet]
  funext name
  cases name <;> rfl

/-! ## The kernel -/

section
variable {foreign : Finset IpAction} {installed next : List IpAction} {action : IpAction}

theorem mem_removed : action ∈ removedActions installed next ↔ action ∈ installed ∧ action ∉ next := by
  simp [removedActions]

theorem mem_added : action ∈ addedActions installed next ↔ action ∈ next ∧ action ∉ installed := by
  simp [addedActions]

theorem replaced_kernel (hold : Disjoint foreign installed.toFinset) :
    (foreign ∪ installed.toFinset) \ (removedActions installed next).toFinset ∪ (addedActions installed next).toFinset =
      foreign ∪ next.toFinset := by
  grind [Finset.disjoint_left, mem_toFinset, mem_removed, mem_added]

/-- A failed add is undone: what was added goes, what was removed comes back. -/
theorem restored_kernel (hnew : Disjoint foreign next.toFinset) {done : List IpAction}
    (hdone : done <+: addedActions installed next) :
    ((foreign ∪ installed.toFinset) \ (removedActions installed next).toFinset ∪ done.toFinset) \ done.toFinset ∪
      (removedActions installed next).toFinset = foreign ∪ installed.toFinset := by
  grind [mem_added, Finset.disjoint_left, mem_toFinset, mem_removed]

theorem removed_part_ne {n : Nat} (hpos : n ≠ 0) (hlt : n < (removedActions installed next).length) :
    (foreign ∪ installed.toFinset) \ ((removedActions installed next).reverse.take n).toFinset ≠
      foreign ∪ installed.toFinset := by
  intro heq
  have hlen : 0 < ((removedActions installed next).reverse.take n).length := by
    rw [length_take, length_reverse]
    omega
  obtain ⟨action, hmem⟩ := exists_mem_of_length_pos hlen
  have hremoved : action ∈ removedActions installed next := mem_reverse.mp (mem_of_mem_take hmem)
  have hkernel : action ∈ foreign ∪ installed.toFinset :=
    Finset.mem_union_right _ (mem_toFinset.mpr (mem_of_mem_filter hremoved))
  rw [← heq] at hkernel
  exact (Finset.mem_sdiff.mp hkernel).2 (mem_toFinset.mpr hmem)

/-- The plans have the same entries exactly if nothing is removed and nothing added. -/
theorem toFinset_eq_iff :
    next.toFinset = installed.toFinset ↔ removedActions installed next = [] ∧ addedActions installed next = [] := by
  simp only [removedActions, addedActions, filter_eq_nil_iff, decide_eq_true_eq, not_not, Finset.ext_iff, mem_toFinset]
  grind

end

/-! ## All or nothing -/

/-- The kernel, the guard and the sets are those of a configuration; the other entries are `foreign`. -/
structure Reflects (foreign : Finset IpAction) (config : TunConfig) (host : Host) : Prop where
  routes : ∀ installed, host.routes = some installed → ∃ plan, buildActions config = .ok plan ∧
    installed.toFinset = plan.toFinset ∧ host.kernel = foreign ∪ plan.toFinset
  none : host.routes = none → host.kernel = foreign
  sets : host.redirect = true → host.sets = routeSets config

/-- The step that fails is one after which nothing, or all, is undone. -/
def Recovers (host : Host) (new : TunConfig) : Option Fault → Prop
  | some (.delete n _) => ∀ installed next, host.routes = some installed → buildActions new = .ok next →
    n = 0 ∨ (removedActions installed next).length ≤ n
  | some (.script _) => host.redirect = true →
    ∀ installed next, host.routes = some installed → buildActions new = .ok next →
    removedActions installed next = [] ∧ addedActions installed next = []
  | some (.add _ _) => True
  | none => True

section
variable {old new : TunConfig} {host : Host}

/-- What a cycle owes: the old configuration if it reports failure, the new one if it reports success. -/
def AllOrNothing (foreign : Finset IpAction) (old new : TunConfig) (outcome : Host × Except Failure Unit) : Prop :=
  (∀ e, outcome.2 = .error e → Reflects foreign old outcome.1) ∧ (outcome.2 = .ok () → Reflects foreign new outcome.1)

theorem allOrNothing_error : AllOrNothing foreign old new (host, .error e) ↔ Reflects foreign old host :=
  ⟨fun h => h.1 e rfl, fun h => ⟨fun _ _ => h, nofun⟩⟩

theorem allOrNothing_ok : AllOrNothing foreign old new (host, .ok ()) ↔ Reflects foreign new host :=
  ⟨fun h => h.2 rfl, fun h => ⟨fun _ herror => (by cases herror), fun _ => h⟩⟩

theorem applySets_iff (hroutes : Reflects foreign new { host with redirect := false })
    (hsets : host.redirect = true → host.sets = routeSets old) (faults : CycleFaults) :
    AllOrNothing foreign old new (host.applySets faults new) ↔
      (host.redirect = true → faults.script ≠ none → Reflects foreign old { host with redirect := false }) := by
  unfold Host.applySets
  by_cases hredirect : host.redirect = true
  · rw [if_pos hredirect]
    unfold replaceRouteSets runNftScript
    cases faults.script with
    | none =>
      refine iff_of_true
        (allOrNothing_ok.mpr ⟨hroutes.routes, hroutes.none, fun _ => run_routeSetScript new host.sets⟩) ?_
      exact fun _ hsome => absurd rfl hsome
    | some message =>
      show AllOrNothing foreign old new (host, .error (.message message)) ↔ _
      rw [allOrNothing_error]
      constructor
      · exact fun h _ _ => ⟨h.routes, h.none, nofun⟩
      · intro h
        have hold := h hredirect (by simp)
        exact ⟨hold.routes, hold.none, hsets⟩
  · rw [if_neg hredirect]
    refine iff_of_true (allOrNothing_ok.mpr ⟨hroutes.routes, hroutes.none, fun hr => absurd hr hredirect⟩) ?_
    exact fun hr => absurd hr hredirect

variable {installed : List IpAction} {faults : CycleFaults}

/-- The kernel and the guard after the routes were replaced, with no failure among the commands. -/
theorem replaceActions_done (faults : CycleFaults) (hdelete : faults.delete = noFailures)
    (hadd : faults.add = noFailures) (next : List IpAction) (hold : Disjoint foreign installed.toFinset) :
    replaceActions faults installed next (foreign ∪ installed.toFinset) = (foreign ∪ next.toFinset, next, .ok ()) := by
  simp only [replaceActions, hdelete, hadd, runAll_delete_noFailures, runAll_add_noFailures, toFinset_reverse,
    replaced_kernel hold]

/-- A failure among the adds leaves the kernel and the guard as they were. -/
theorem replaceActions_add (n : Nat) (failure : IpFailure) {next : List IpAction}
    (hold : Disjoint foreign installed.toFinset) (hnew : Disjoint foreign next.toFinset) :
    replaceActions (singleFault (some (.add n failure))) installed next (foreign ∪ installed.toFinset) =
      if n < (addedActions installed next).length then
        (foreign ∪ installed.toFinset, installed, .error (.message "replace TUN rule-set routes"))
      else (foreign ∪ next.toFinset, next, .ok ()) := by
  obtain ⟨e, hadd⟩ := runAll_add_failsAt n failure (addedActions installed next)
    ((foreign ∪ installed.toFinset) \ (removedActions installed next).toFinset)
  simp only [replaceActions, singleFault, runAll_delete_noFailures, toFinset_reverse, hadd]
  by_cases hlt : n < (addedActions installed next).length
  · simp only [if_pos hlt, runEach_delete, runEach_add, toFinset_reverse, restored_kernel hnew <| take_prefix n _]
  · simp only [if_neg hlt, replaced_kernel hold]

/-- A failure among the deletes leaves the kernel without what the deletes before it took. -/
theorem replaceActions_delete (n : Nat) {failure : IpFailure} (hreported : failure.tolerated = false)
    (next : List IpAction) (hold : Disjoint foreign installed.toFinset) :
    ∃ e, replaceActions (singleFault (some (.delete n failure))) installed next (foreign ∪ installed.toFinset) =
      if n < (removedActions installed next).length then
        ((foreign ∪ installed.toFinset) \ ((removedActions installed next).reverse.take n).toFinset,
          installed, .error e)
      else (foreign ∪ next.toFinset, next, .ok ()) := by
  obtain ⟨e, hdelete⟩ :=
    runAll_delete_failsAt n hreported (removedActions installed next).reverse (foreign ∪ installed.toFinset)
  refine ⟨e, ?_⟩
  simp only [replaceActions, singleFault, hdelete, length_reverse]
  by_cases hlt : n < (removedActions installed next).length
  · simp only [if_pos hlt]
  · simp only [if_neg hlt, runAll_add_noFailures, toFinset_reverse, replaced_kernel hold]

/-- The host with the new routes and rules. -/
def Host.replaced (host : Host) (foreign : Finset IpAction) (next : List IpAction) : Host :=
  { host with kernel := foreign ∪ next.toFinset, routes := some next }

theorem applyUpdate_of_replaced {next : List IpAction} (hroutes : host.routes = some installed)
    (hbuild : buildActions new = .ok next) (hsets : host.redirect = true → host.sets = routeSets old)
    (hreplace : replaceActions faults installed next host.kernel = (foreign ∪ next.toFinset, next, .ok ())) :
    AllOrNothing foreign old new (host.applyUpdate faults new) ↔
      (host.redirect = true → faults.script ≠ none →
        Reflects foreign old { host.replaced foreign next with redirect := false }) := by
  have happly : host.applyUpdate faults new = (host.replaced foreign next).applySets faults new := by
    simp only [Host.applyUpdate, hroutes, replace, hbuild, hreplace]
    rfl
  have hafter : Reflects foreign new { host.replaced foreign next with redirect := false } := by
    refine ⟨fun installed' heq => ?_, fun hnone => (by cases hnone), fun hfalse => (by cases hfalse)⟩
    cases heq
    exact ⟨next, hbuild, rfl, rfl⟩
  rw [happly]
  refine applySets_iff ?_ ?_ faults
  · exact hafter
  · exact hsets

theorem applyUpdate_of_stopped {next : List IpAction} {kernel : Kernel}
    (hroutes : host.routes = some installed) (hbuild : buildActions new = .ok next)
    (hreplace : replaceActions faults installed next host.kernel = (kernel, installed, .error e)) :
    AllOrNothing foreign old new (host.applyUpdate faults new) ↔ Reflects foreign old { host with kernel } := by
  have happly : host.applyUpdate faults new = ({ host with kernel }, .error e) := by
    simp only [Host.applyUpdate, hroutes, replace, hbuild, hreplace]
  rw [happly, allOrNothing_error]

end

/-- **A cycle in which one step fails, or none, is all or nothing exactly if that step is not a delete after the first
    one, and not the script after routes or rules were changed.** -/
theorem reload_all_or_nothing_iff (foreign : Finset IpAction) (old new : TunConfig) (host : Host) (fault : Option Fault)
    (hbefore : Reflects foreign old host)
    (hold : ∀ plan, buildActions old = .ok plan → Disjoint foreign plan.toFinset)
    (hnew : ∀ plan, buildActions new = .ok plan → Disjoint foreign plan.toFinset)
    (hreported : ∀ n failure, fault = some (.delete n failure) → failure.tolerated = false) :
    AllOrNothing foreign old new (host.applyUpdate (singleFault fault) new) ↔ Recovers host new fault := by
  cases hroutes : host.routes with
  | none =>
    -- no guard of the routes: only the script is run
    have happly : host.applyUpdate (singleFault fault) new = host.applySets (singleFault fault) new := by
      simp only [Host.applyUpdate, hroutes]
    have hkernel : ∀ config, Reflects foreign config { host with redirect := false } := fun config =>
      ⟨fun installed heq => (by cases hroutes.symm.trans heq), hbefore.none, nofun⟩
    rw [happly, applySets_iff (hkernel new) hbefore.sets]
    refine iff_of_true (fun _ _ => hkernel old) ?_
    match fault with
    | none => trivial
    | some (.add _ _) => trivial
    | some (.delete _ _) => exact fun installed next heq => by cases hroutes.symm.trans heq
    | some (.script _) => exact fun _ installed next heq => by cases hroutes.symm.trans heq
  | some installed =>
    obtain ⟨plan, hplan, hsame, hkernel⟩ := hbefore.routes installed hroutes
    have hdisjoint : Disjoint foreign installed.toFinset := hsame ▸ hold plan hplan
    rw [← hsame] at hkernel
    -- the host is as the old configuration has it exactly if the kernel has the old entries
    have hreflects : ∀ kernel, Reflects foreign old { host with kernel } ↔ kernel = foreign ∪ installed.toFinset := by
      intro kernel
      constructor
      · intro h
        obtain ⟨plan', hplan', -, hkernel'⟩ := h.routes installed hroutes
        cases hplan.symm.trans hplan'
        rw [hsame]
        exact hkernel'
      · rintro rfl
        refine ⟨fun installed' heq => ?_, fun hnone => (by cases hroutes.symm.trans hnone), hbefore.sets⟩
        simp_all
    cases hbuild : buildActions new with
    | error e =>
      have happly : host.applyUpdate (singleFault fault) new = (host, .error e) := by
        simp only [Host.applyUpdate, hroutes, replace, hbuild]
        rw [← hroutes]
      rw [happly, allOrNothing_error]
      refine iff_of_true hbefore ?_
      match fault with
      | none => trivial
      | some (.add _ _) => trivial
      | some (.delete _ _) => exact fun _ next _ heq => by cases hbuild.symm.trans heq
      | some (.script _) => exact fun _ _ next _ heq => by cases hbuild.symm.trans heq
    | ok next =>
      have hfresh := hnew next hbuild
      match fault with
      | none =>
        have hreplace := replaceActions_done (singleFault none) rfl rfl next hdisjoint
        rw [← hkernel] at hreplace
        rw [applyUpdate_of_replaced hroutes hbuild hbefore.sets hreplace]
        exact iff_of_true (fun _ hsome => absurd rfl hsome) trivial
      | some (.add n failure) =>
        have hreplace := replaceActions_add n failure hdisjoint hfresh
        rw [← hkernel] at hreplace
        refine iff_of_true ?_ trivial
        by_cases hlt : n < (addedActions installed next).length
        · rw [if_pos hlt] at hreplace
          rw [applyUpdate_of_stopped hroutes hbuild hreplace]
          exact hbefore
        · rw [if_neg hlt] at hreplace
          rw [applyUpdate_of_replaced hroutes hbuild hbefore.sets hreplace]
          exact fun _ hsome => absurd rfl hsome
      | some (.delete n failure) =>
        obtain ⟨e, hreplace⟩ := replaceActions_delete n (hreported n failure rfl) next hdisjoint
        rw [← hkernel] at hreplace
        have hrecovers :
            Recovers host new (some (.delete n failure)) ↔ n = 0 ∨ (removedActions installed next).length ≤ n := by
          refine ⟨fun h => h installed next hroutes hbuild, fun h installed' next' hi hn => ?_⟩
          cases hroutes.symm.trans hi
          cases hbuild.symm.trans hn
          exact h
        rw [hrecovers]
        by_cases hlt : n < (removedActions installed next).length
        · rw [if_pos hlt] at hreplace
          rw [applyUpdate_of_stopped hroutes hbuild hreplace, hreflects, or_iff_left (Nat.not_le.mpr hlt), hkernel]
          constructor
          · exact fun heq => by_contra fun hpos => removed_part_ne hpos hlt heq
          simp_all
        · rw [if_neg hlt] at hreplace
          rw [applyUpdate_of_replaced hroutes hbuild hbefore.sets hreplace]
          exact iff_of_true (fun _ hsome => absurd rfl hsome) (.inr (Nat.not_lt.mp hlt))
      | some (.script message) =>
        have hreplace := replaceActions_done (singleFault (some (.script message))) rfl rfl next hdisjoint
        rw [← hkernel] at hreplace
        have hreplaced : Reflects foreign old { host.replaced foreign next with redirect := false } ↔
            removedActions installed next = [] ∧ addedActions installed next = [] := by
          rw [← toFinset_eq_iff]
          constructor
          · intro h
            obtain ⟨plan', hplan', hsame', -⟩ := h.routes next rfl
            cases hplan.symm.trans hplan'
            exact hsame'.trans hsame.symm
          · intro hentries
            refine ⟨fun installed' heq => ?_, fun hnone => (by cases hnone), fun hfalse => (by cases hfalse)⟩
            cases heq
            refine ⟨plan, hplan, hentries.trans hsame, ?_⟩
            rw [← hsame, ← hentries]
            rfl
        rw [applyUpdate_of_replaced hroutes hbuild hbefore.sets hreplace, hreplaced]
        constructor
        · intro h hredirect installed' next' hi hn
          cases hroutes.symm.trans hi
          cases hbuild.symm.trans hn
          exact h hredirect (Option.some_ne_none message)
        · exact fun h hredirect _ => h hredirect installed next hroutes hbuild

/-! A device with `auto_redirect` whose rule-set has two prefixes, and then none. -/

def redirected (prefixes : List IpNet) : TunConfig where
  interfaceName := "xhttp0"
  mtu := 9000
  addresses := [oneAddress]
  stack := "mixed"
  autoRoute := true
  autoRedirect := true
  strictRoute := false
  routeAddresses := prefixes
  routeExcludeAddresses := []
  routeIncludeActive := true
  routeExcludeActive := false
  includeInterfaces := []
  excludeInterfaces := []
  includeUids := []
  excludeUids := []
  includeUidRanges := []
  excludeUidRanges := []
  tableIndex := 2022
  ruleIndex := 9000
  redirectInputMark := 0x2023
  redirectOutputMark := 0x2024
  includeMacs := []
  excludeMacs := []
  bypassAddresses := []
  udpTimeout := 300000000000
  udpMapping := .endpointIndependent
  udpFiltering := .endpointIndependent
  udpNatMax := 16384

def firstPrefix : IpNet := ⟨.ofBits true 0x01010100, 24⟩

def secondPrefix : IpNet := ⟨.ofBits true 0x01000000, 24⟩

def prefixRoute (net : IpNet) : IpAction := .route .v4 net "xhttp0" 2022

/-- The device is up with a configuration, besides one rule of others. -/
def hostWith (prefixes : List IpNet) : Host where
  kernel := {otherRule} ∪ (prefixes.map prefixRoute ++ redirectRules (redirected prefixes) .v4).toFinset
  sets := routeSets (redirected prefixes)
  routes := some (prefixes.map prefixRoute ++ redirectRules (redirected prefixes) .v4)
  redirect := true

theorem reflects_hostWith :
    Reflects {otherRule} (redirected [firstPrefix, secondPrefix]) (hostWith [firstPrefix, secondPrefix]) := by
  refine ⟨fun installed heq => ?_, fun hnone => (by cases hnone), fun _ => rfl⟩
  cases heq
  exact ⟨_, rfl, rfl, rfl⟩

/-- The route of a new prefix cannot be added: those of the old ones are there as before. -/
theorem reload_all_or_nothing_add : AllOrNothing {otherRule} (redirected [firstPrefix, secondPrefix])
    (redirected [firstPrefix, oneAddress])
    ((hostWith [firstPrefix, secondPrefix]).applyUpdate (singleFault (some (.add 0 .notStarted)))
      (redirected [firstPrefix, oneAddress])) := by
  refine (reload_all_or_nothing_iff _ _ _ _ _ reflects_hostWith ?_ ?_ ?_).mpr trivial
  · intro plan hplan
    cases hplan
    decide
  · intro plan hplan
    cases hplan
    decide
  · intro n failure heq
    cases heq

/-- The second delete fails, and the first is not undone; the script fails, and no route is. -/
theorem reload_left_halfway :
    (∃ after e installed, (hostWith [firstPrefix, secondPrefix]).applyUpdate
      (singleFault (some (.delete 1 .notStarted)))
        (redirected []) = (after, .error e) ∧ after.routes = some installed ∧
      prefixRoute secondPrefix ∈ installed ∧ prefixRoute secondPrefix ∉ after.kernel ∧
        prefixRoute firstPrefix ∈ after.kernel) ∧
    ∃ after e, (hostWith [firstPrefix, secondPrefix]).applyUpdate
      (singleFault (some (.script "nftables transaction failed: busy")))
        (redirected []) = (after, .error e) ∧
      after.sets .route4 = [firstPrefix.text, secondPrefix.text] ∧ prefixRoute firstPrefix ∉ after.kernel ∧
      prefixRoute secondPrefix ∉ after.kernel :=
  ⟨⟨_, _, _, rfl, rfl, by decide, by decide, by decide⟩, _, _, rfl, rfl, by decide, by decide⟩

end Xhttp.Tun
