import Mathlib.Logic.Function.Basic
import MiniIotRobotEdge.StepRuns

/-!
# Loading modules with dependencies

The model of the loader in `kernel_module.c`.  A module lives in its caller's
object, and the subsystem has copies of its own.  Loading makes the caller's
object live behind the copy, so the table never has a live module, and a module
with a dependency is never loaded.  Strings are lists of bytes without their
zero, and no pointer is null.
-/

namespace MiniIotRobotEdge

namespace Linux

open StepRuns

def kmMaxName : Nat := 64
def kmMaxDependencies : Nat := 8
def kmMaxSymbols : Nat := 512

inductive KmState
  | unloaded
  | loading
  | live
  | unloading
  deriving DecidableEq, Repr

structure KmModule where
  name : List UInt8
  state : KmState
  depends : List (List UInt8)
  refCount : Int
  useCount : Int
  deriving DecidableEq, Repr

structure KmSubsystem where
  modules : List KmModule
  deriving DecidableEq, Repr

def kmSubsystemInit : KmSubsystem := ⟨[]⟩

def kmModuleInit (name : List UInt8) : KmModule :=
  ⟨name.take (kmMaxName - 1), .unloaded, [], 0, 0⟩

def kmModuleAddDependency (mod : KmModule) (depName : List UInt8) : KmModule × Int :=
  if kmMaxDependencies ≤ mod.depends.length then (mod, -1)
  else ({ mod with depends := mod.depends ++ [depName.take (kmMaxName - 1)] }, 0)

def kmModuleCheckDependencies (ks : KmSubsystem) (mod : KmModule) : Int :=
  if mod.depends.all fun dep => ks.modules.any fun loaded =>
    loaded.name = dep && loaded.state = .live
  then 0 else -2

def kmModuleFind (ks : KmSubsystem) (name : List UInt8) : Int :=
  match ks.modules.findIdx? fun mod => mod.name = name with
  | some i => i
  | none => -1

def kmModuleLoad (ks : KmSubsystem) (mod : KmModule) : KmSubsystem × KmModule × Int :=
  if mod.state = .live then (ks, mod, 0)
  else if kmModuleCheckDependencies ks mod ≠ 0 then (ks, mod, -2)
  else
    let mod := { mod with state := .loading }
    let ks :=
      if ks.modules.length < kmMaxSymbols then
        if kmModuleFind ks mod.name < 0 then { ks with modules := ks.modules ++ [mod] } else ks
      else ks
    (ks, { mod with state := .live, refCount := 1 }, 0)

def kmModuleUnload (mod : KmModule) : KmModule × Int :=
  if mod.state ≠ .live then (mod, -2)
  else if mod.useCount > 0 then (mod, -3)
  else ({ mod with state := .unloaded }, 0)

section Runs

variable {Id : Type*} [DecidableEq Id]

inductive KmCall (Id : Type*)
  | load (id : Id)
  | unload (id : Id)

/-- The subsystem and the callers' modules, with a note of which ones are loaded: those
whose last load returned 0 and that were not unloaded since. -/
structure KmWorld (Id : Type*) where
  ks : KmSubsystem
  mods : Id → KmModule
  loaded : Id → Bool

def kmResult (world : KmWorld Id) : KmCall Id → Int
  | .load id => (kmModuleLoad world.ks (world.mods id)).2.2
  | .unload id => (kmModuleUnload (world.mods id)).2

def kmCall (world : KmWorld Id) : KmCall Id → KmWorld Id
  | .load id =>
      let (ks, mod, result) := kmModuleLoad world.ks (world.mods id)
      ⟨ks, Function.update world.mods id mod, Function.update world.loaded id (result = 0)⟩
  | .unload id =>
      let (mod, result) := kmModuleUnload (world.mods id)
      ⟨world.ks, Function.update world.mods id mod,
        if result = 0 then Function.update world.loaded id false else world.loaded⟩

def kmStart (mods : Id → KmModule) : KmWorld Id := ⟨kmSubsystemInit, mods, fun _ => false⟩

/-- Every dependency is the name of a loaded module. -/
def AllLoaded (world : KmWorld Id) (depends : List (List UInt8)) : Prop :=
  ∀ dep ∈ depends, ∃ id, (world.mods id).name = dep ∧ world.loaded id

/-- A load returns 0 if the dependencies of its module are loaded, and -2 if not. -/
def LoadAnswers (world : KmWorld Id) : KmCall Id → Prop
  | .load id =>
      (AllLoaded world (world.mods id).depends → kmResult world (.load id) = 0) ∧
        (¬AllLoaded world (world.mods id).depends → kmResult world (.load id) = -2)
  | .unload _ => True

def DependenciesLoaded (world : KmWorld Id) : Prop :=
  ∀ id, world.loaded id → AllLoaded world (world.mods id).depends

/-- No module is loaded whose dependencies are there. -/
def NoReadyDependent (world : KmWorld Id) : KmCall Id → Prop
  | .load id => (world.mods id).depends ≠ [] → ¬AllLoaded world (world.mods id).depends
  | .unload _ => True

/-- The table has no live module, and no module with a dependency is loaded. -/
structure TableLags (world : KmWorld Id) : Prop where
  table : ∀ mod ∈ world.ks.modules, mod.state ≠ .live
  live : ∀ id, (world.mods id).state = .live ↔ world.loaded id
  alone : ∀ id, world.loaded id → (world.mods id).depends = []

end Runs

section Load

variable {ks : KmSubsystem} {mod : KmModule}

/-- Without a live module in the table a dependency is never found. -/
theorem kmModuleCheckDependencies_eq (table : ∀ mod ∈ ks.modules, mod.state ≠ .live) :
    kmModuleCheckDependencies ks mod = if mod.depends = [] then 0 else -2 := by
  have missing : ∀ dep, (ks.modules.any fun loaded =>
      loaded.name = dep && loaded.state = .live) = false := by
    intro dep
    rw [List.any_eq_false]
    intro other member isLoaded
    simp only [Bool.and_eq_true, decide_eq_true_eq] at isLoaded
    exact table other member isLoaded.2
  unfold kmModuleCheckDependencies
  simp only [missing]
  cases mod.depends with
  | nil => rfl
  | cons dep rest => rfl

/-- What a load does while the table has no live module. -/
inductive LoadCase (ks : KmSubsystem) (mod : KmModule) :
    KmSubsystem × KmModule × Int → Prop
  | already (isLive : mod.state = .live) : LoadCase ks mod (ks, mod, 0)
  | refused (notLive : mod.state ≠ .live) (dependent : mod.depends ≠ []) :
      LoadCase ks mod (ks, mod, -2)
  | loaded (notLive : mod.state ≠ .live) (alone : mod.depends = []) {after : KmSubsystem}
      (table : ∀ mod ∈ after.modules, mod.state ≠ .live) :
      LoadCase ks mod (after, { mod with state := .live, refCount := 1 }, 0)

theorem kmModuleLoad_cases (table : ∀ mod ∈ ks.modules, mod.state ≠ .live) (mod : KmModule) :
    LoadCase ks mod (kmModuleLoad ks mod) := by
  rw [kmModuleLoad, kmModuleCheckDependencies_eq table]
  by_cases isLive : mod.state = .live
  · rw [if_pos isLive]
    exact .already isLive
  · rw [if_neg isLive]
    by_cases alone : mod.depends = []
    · rw [if_pos alone, if_neg (by decide)]
      refine .loaded isLive alone ?_
      intro other member
      split at member
      · split at member
        · rcases List.mem_append.mp member with old | new
          · exact table other old
          · rw [List.mem_singleton.mp new]
            exact KmState.noConfusion
        · exact table other member
      · exact table other member
    · rw [if_neg alone, if_pos (by decide)]
      exact .refused isLive alone

end Load

section Runs

variable {Id : Type*} [DecidableEq Id] {world : KmWorld Id}

omit [DecidableEq Id] in
theorem TableLags.dependenciesLoaded (lags : TableLags world) : DependenciesLoaded world := by
  intro id isLoaded dep member
  rw [lags.alone id isLoaded] at member
  exact absurd member List.not_mem_nil

/-- A call writes back one module and one note. -/
theorem TableLags.update (lags : TableLags world) {ks : KmSubsystem} {id : Id} {mod : KmModule}
    {isLoaded : Bool} (table : ∀ mod ∈ ks.modules, mod.state ≠ .live)
    (live : mod.state = .live ↔ isLoaded) (alone : isLoaded → mod.depends = []) :
    TableLags ⟨ks, Function.update world.mods id mod,
      Function.update world.loaded id isLoaded⟩ where
  table := table
  live := by
    intro other
    dsimp only
    rcases eq_or_ne other id with rfl | differs
    · rw [Function.update_self, Function.update_self]
      exact live
    · rw [Function.update_of_ne differs, Function.update_of_ne differs]
      exact lags.live other
  alone := by
    intro other
    dsimp only
    rcases eq_or_ne other id with rfl | differs
    · rw [Function.update_self, Function.update_self]
      exact alone
    · rw [Function.update_of_ne differs, Function.update_of_ne differs]
      exact lags.alone other

theorem TableLags.load (lags : TableLags world) (id : Id) :
    TableLags (kmCall world (.load id)) := by
  have outcome := kmModuleLoad_cases lags.table (world.mods id)
  rw [kmCall]
  generalize kmModuleLoad world.ks (world.mods id) = result at outcome ⊢
  cases outcome with
  | already isLive =>
      have isLoaded := (lags.live id).mp isLive
      exact lags.update lags.table (by simp [isLive]) fun _ => lags.alone id isLoaded
  | refused notLive dependent => exact lags.update lags.table (by simp [notLive]) (by simp)
  | loaded notLive alone table => exact lags.update table (by simp) fun _ => alone

theorem TableLags.unload (lags : TableLags world) (id : Id) :
    TableLags (kmCall world (.unload id)) := by
  have same : (⟨world.ks, Function.update world.mods id (world.mods id), world.loaded⟩ :
      KmWorld Id) = world := by
    rw [Function.update_eq_self]
  rw [kmCall, kmModuleUnload]
  split_ifs with notLive inUse
  · simpa [same] using lags
  · simpa [same] using lags
  · exact lags.update lags.table (by simp) (by simp)

theorem TableLags.call (lags : TableLags world) (call : KmCall Id) :
    TableLags (kmCall world call) := by
  cases call with
  | load id => exact lags.load id
  | unload id => exact lags.unload id

omit [DecidableEq Id] in
theorem allLoaded_nil : AllLoaded world [] :=
  fun _ member => absurd member List.not_mem_nil

omit [DecidableEq Id] in
/-- A load answers as it should unless its module has dependencies that are all there. -/
theorem TableLags.loadAnswers_iff (lags : TableLags world) (call : KmCall Id) :
    LoadAnswers world call ↔ NoReadyDependent world call := by
  cases call with
  | load id =>
      have outcome := kmModuleLoad_cases lags.table (world.mods id)
      rw [LoadAnswers, NoReadyDependent, kmResult]
      generalize kmModuleLoad world.ks (world.mods id) = result at outcome ⊢
      cases outcome with
      | already isLive =>
          rw [lags.alone id ((lags.live id).mp isLive)]
          exact ⟨fun _ dependent => absurd rfl dependent,
            fun _ => ⟨fun _ => rfl, fun missing => absurd allLoaded_nil missing⟩⟩
      | refused notLive dependent =>
          constructor
          · exact fun answers _ ready => absurd (answers.1 ready) (show (-2 : Int) ≠ 0 by decide)
          · exact fun none => ⟨fun ready => absurd ready (none dependent), fun _ => rfl⟩
      | loaded notLive alone table =>
          rw [alone]
          exact ⟨fun _ dependent => absurd rfl dependent,
            fun _ => ⟨fun _ => rfl, fun missing => absurd allLoaded_nil missing⟩⟩
  | unload id => exact Iff.rfl

omit [DecidableEq Id] in
theorem tableLags_kmStart {mods : Id → KmModule} (fresh : ∀ id, (mods id).state = .unloaded) :
    TableLags (kmStart mods) where
  table := fun _ member => absurd member List.not_mem_nil
  live := by
    intro id
    rw [kmStart, fresh id]
    exact ⟨fun isLive => KmState.noConfusion isLive, fun isLoaded => Bool.noConfusion isLoaded⟩
  alone := fun _ isLoaded => Bool.noConfusion isLoaded

/-- In a run from unloaded modules every load answers as it should, and the dependencies
of loaded modules stay loaded, exactly when no module is loaded whose dependencies are
there. -/
theorem km_runs_answer_iff (mods : Id → KmModule) (fresh : ∀ id, (mods id).state = .unloaded)
    (calls : List (KmCall Id)) :
    Throughout kmCall LoadAnswers (kmStart mods) calls ∧
        Always kmCall DependenciesLoaded (kmStart mods) calls ↔
      Throughout kmCall NoReadyDependent (kmStart mods) calls := by
  have base := tableLags_kmStart fresh
  have dependencies : Always kmCall DependenciesLoaded (kmStart mods) calls :=
    (always_of_kept (fun _ call lags => lags.call call) base).imp
      fun _ lags => lags.dependenciesLoaded
  have answers : Throughout kmCall LoadAnswers (kmStart mods) calls ↔
      Throughout kmCall NoReadyDependent (kmStart mods) calls :=
    throughout_iff (fun _ call lags _ _ => lags.call call)
      (fun _ call lags => lags.loadAnswers_iff call) base
  exact ⟨fun both => answers.mp both.1, fun ready => ⟨answers.mpr ready, dependencies⟩⟩

/-- A driver that depends on its bus. -/
def busAndDriver : Bool → KmModule
  | false => kmModuleInit [98, 117, 115]
  | true => (kmModuleAddDependency (kmModuleInit [100, 114, 118]) [98, 117, 115]).1

theorem km_runs_answer_iff_bus :
    (∀ id, (busAndDriver id).state = .unloaded) ∧
      (Throughout kmCall LoadAnswers (kmStart busAndDriver)
          [.load false, .unload false, .load true] ∧
        Always kmCall DependenciesLoaded (kmStart busAndDriver)
          [.load false, .unload false, .load true] ↔
      Throughout kmCall NoReadyDependent (kmStart busAndDriver)
          [.load false, .unload false, .load true]) :=
  ⟨by decide, km_runs_answer_iff busAndDriver (by decide) _⟩

/-- The bus is loaded, and the driver is refused all the same. -/
theorem km_driver_refused :
    (∀ id, (busAndDriver id).state = .unloaded) ∧
      (busAndDriver false).name ≠ (busAndDriver true).name ∧
        ¬Throughout kmCall LoadAnswers (kmStart busAndDriver) [.load false, .load true] := by
  refine ⟨by decide, by decide, fun run => ?_⟩
  have ready : AllLoaded (kmCall (kmStart busAndDriver) (.load false))
      ((kmCall (kmStart busAndDriver) (.load false)).mods true).depends := by
    intro dep member
    refine ⟨false, ?_, by decide⟩
    revert dep
    decide
  exact absurd (run.2.1.1 ready) (by decide)

end Runs

end Linux

end MiniIotRobotEdge
