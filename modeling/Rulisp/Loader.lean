import Rulisp.CrateRegistry
import Rulisp.TransitionSystem

/-!
# The loader over a whole run

Loads, reloads and restores are serialized by the registry lock, but other
threads see a publication operation by operation.  A step of the loader is
one such operation, or everything from taking the lock to the first of them.
Restoring an image starts a new session and reloads each entry of `*crates*`
under one hold of the lock; an entry whose reload fails is stubbed.
-/

namespace Rulisp

open TransitionSystem

variable [LispCase]

/-- A publication under way.  `restore` is the entry of `*crates*` that is
being reloaded, with those `maphash` has yet to come to. -/
structure Loading where
  generation : Generation
  package : String
  ops : List PublishOp
  sweepRefusal : Option HostError
  restore : Option (String × List String)
  deriving DecidableEq, Repr

/-- `*registry-lock*` and what its holder is doing. -/
inductive RegistryLock
  | unlocked
  | loading (loading : Loading)
  | restoring (remaining : List String)
  deriving DecidableEq, Repr

/-- `generations` and `published` keep what the run has made so far: every
committed generation, and every wrapper that `symbol-function` has returned
and that a program may have captured. -/
structure LoaderState where
  session : ℕ
  copyCounter : ℕ
  registry : Registry
  lock : RegistryLock
  generations : List Generation
  published : List CrateWrapper

def LoaderState.initial (registry : Registry) : LoaderState where
  session := 0
  copyCounter := 0
  registry := registry
  lock := .unlocked
  generations := []
  published := []

inductive LoaderAction
  | load (call : LoadCall) (host : LoadHost)
  | publish (refusal : Option HostError)
  | sweep
  /-- The image starts; `order` is the order of `maphash`. -/
  | restore (order : List String)
  | restoreCrate (name : String) (host : LoadHost)
  | restored

namespace LoaderState

/-- The copy that the next load opens. -/
def nextLibrary (state : LoaderState) : Library where
  serial := state.copyCounter + 1
  session := state.session

/-- `%load-crate-locked` up to the publication. -/
def beginLoad (state : LoaderState) (host : LoadHost) (args : LoadArgs)
    (restore : Option (String × List String)) :
    LoaderState × Option LoadCondition :=
  let opened := { state with copyCounter := state.copyCounter + 1 }
  match state.registry.beginLoad host state.nextLibrary args with
  | (registry, .error e) => ({ opened with registry := registry }, some e)
  | (registry, .ok commit) =>
      ({ opened with
          registry := registry
          lock := .loading
            { generation := commit.generation
              package := commit.package
              ops := commit.ops
              sweepRefusal := host.sweepRefusal
              restore := restore }
          generations := state.generations ++ [commit.generation] },
        none)

/-- A load is over: the lock is released, or the restore goes on, with a stub
for the entry when the load signaled. -/
def endLoad (state : LoaderState) (restore : Option (String × List String))
    (failure : Option LoadCondition) : LoaderState :=
  match restore with
  | none => { state with lock := .unlocked }
  | some (name, remaining) =>
      match failure with
      | none => { state with lock := .restoring remaining }
      | some e =>
          { state with
            registry := state.registry.stubCrate name e
            lock := .restoring remaining }

/-- What a restore passes to `%load-crate-locked`. -/
def restoreArgs (name : String) (crate : Crate) : LoadArgs where
  path := crate.sourcePath
  crateArg := some name
  package := none

def step (state : LoaderState) : LoaderAction → Option LoaderState
  | .load call host =>
      match state.lock with
      | .unlocked =>
          match call.args state.registry with
          | .error _ => some state
          | .ok args => some (state.beginLoad host args none).1
      | _ => none
  | .publish refusal =>
      match state.lock with
      | .loading loading =>
          match loading.ops, refusal with
          | [], _ => none
          | op :: rest, none =>
              some { state with
                registry := state.registry.publish loading.generation.crate
                  loading.package op
                lock := .loading { loading with ops := rest }
                published := state.published ++ op.published }
          | op :: _, some kind =>
              if op.internal then none
              else
                some (state.endLoad loading.restore (some (.hostError kind)))
      | _ => none
  | .sweep =>
      match state.lock with
      | .loading loading =>
          if loading.ops = [] then
            some (state.endLoad loading.restore
              (loading.sweepRefusal.map .hostError))
          else none
      | _ => none
  | .restore order =>
      match state.lock with
      | .unlocked =>
          if order.Perm state.registry.crateLoadOrder then
            some { state with
              session := state.session + 1
              lock := .restoring order }
          else none
      | _ => none
  | .restoreCrate name host =>
      match state.lock with
      | .restoring (next :: remaining) =>
          match state.registry.crates name with
          | some crate =>
              if name = next then
                match state.beginLoad host (restoreArgs name crate)
                  (some (name, remaining)) with
                | (begun, none) => some begun
                | (begun, some e) =>
                    some (begun.endLoad (some (name, remaining)) (some e))
              else none
          | none => none
      | _ => none
  | .restored =>
      match state.lock with
      | .restoring [] => some { state with lock := .unlocked }
      | _ => none

end LoaderState

end Rulisp
