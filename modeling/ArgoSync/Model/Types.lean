import Mathlib.Data.String.Basic
/-!
# The sync engine's data model

The records `controller/sync.go` reads and writes, with the fields its
functions use. A cluster object (`unstructured.Unstructured`) is what the
engine reads of it: name, namespace, group-version-kind, and the two
`spec` strings `hasCRDOfGroupKind` looks up. A sync task keeps the comment
on `syncTask` as a field: at least one of its two objects is present.

Go's nil pointers and slices are `Option`s where the code tells nil from
empty (`syncOp.Resources`, `state.SyncResult`) and plain values elsewhere.
Go compares strings byte-wise in UTF-8, which orders them as Lean's `<`
orders their characters.
-/

namespace ArgoSync

/-- A group-version-kind, `schema.GroupVersionKind`. -/
structure GroupVersionKind where
  group : String
  version : String
  kind : String
  deriving DecidableEq, Repr

/-- A group-kind, `metav1.GroupKind`, what a project admits. -/
structure GroupKind where
  group : String
  kind : String
  deriving DecidableEq, Repr

/-- A cluster object as the engine reads it. `specGroup` and `specNamesKind`
are `spec.group` and `spec.names.kind` when `NestedString` finds a string
there, and `none` when it reports the field missing or not a string. -/
structure Unstructured where
  name : String
  ns : String
  group : String
  version : String
  kind : String
  specGroup : Option String
  specNamesKind : Option String
  deriving DecidableEq, Repr

/-- `GroupVersionKind()`. -/
def Unstructured.groupVersionKind (u : Unstructured) : GroupVersionKind :=
  ⟨u.group, u.version, u.kind⟩

@[simp] theorem Unstructured.groupVersionKind_group (u : Unstructured) :
    u.groupVersionKind.group = u.group := rfl

@[simp] theorem Unstructured.groupVersionKind_kind (u : Unstructured) :
    u.groupVersionKind.kind = u.kind := rfl

/-- The outcome recorded for one resource. -/
inductive ResourceDetailsSyncStatus
  | synced
  | syncFailed
  | syncedAndPruned
  | pruningRequired
  deriving DecidableEq, Repr

/-- `ResourceDetailsSyncStatus.Successful`. Modelled from the spec: the method is
not under src; of the four statuses the spec records failures (validation,
policy) as `SyncFailed` only. -/
def ResourceDetailsSyncStatus.successful (s : ResourceDetailsSyncStatus) : Bool :=
  s != .syncFailed

@[simp] theorem ResourceDetailsSyncStatus.successful_iff (s : ResourceDetailsSyncStatus) :
    s.successful = true ↔ s ≠ .syncFailed := by
  simp [successful]

@[simp] theorem ResourceDetailsSyncStatus.successful_eq_false_iff (s : ResourceDetailsSyncStatus) :
    s.successful = false ↔ s = .syncFailed := by
  simp [successful]

/-- One entry of `SyncResult.Resources`. -/
structure ResourceDetails where
  name : String
  kind : String
  ns : String
  message : String
  status : ResourceDetailsSyncStatus
  deriving DecidableEq, Repr

/-- The key `setResourceDetails` matches entries by. -/
def ResourceDetails.key (d : ResourceDetails) : String × String := (d.kind, d.name)

/-- The hook types; `startedSyncPhase` and `startedPostSyncPhase` read them. -/
inductive HookType
  | preSync
  | sync
  | postSync
  | syncFail
  | skip
  deriving DecidableEq, Repr

/-- The phases of an operation. -/
inductive OperationPhase
  | running
  | terminating
  | failed
  | error
  | succeeded
  deriving DecidableEq, Repr

/-- `OperationPhase.Successful`. Modelled from the spec: the method is not under
src; the spec's one successful terminal phase is Succeeded. -/
def OperationPhase.successful (p : OperationPhase) : Bool := p == .succeeded

@[simp] theorem OperationPhase.successful_iff (p : OperationPhase) : p.successful = true ↔ p = .succeeded := by
  simp [successful]

/-- `OperationPhase.Completed`. Modelled from the spec: the method is not under
src; an operation is over in the spec's terminal phases, Failed, Error and
Succeeded. -/
def OperationPhase.completed : OperationPhase → Bool
  | .failed | .error | .succeeded => true
  | .running | .terminating => false

/-- A hook's status in `SyncResult.Hooks`: its resource, its type and its
phase. `startedSyncPhase` and `startedPostSyncPhase` read the type, and
`terminate` deletes the resource of a hook whose phase is not completed. -/
structure HookStatus where
  name : String
  kind : String
  type : HookType
  status : OperationPhase
  deriving DecidableEq, Repr

/-- `SyncOperationResult`: the resolved revision and the progress records. -/
structure SyncOperationResult where
  resources : List ResourceDetails
  hooks : List HookStatus
  revision : String
  deriving DecidableEq, Repr

/-- The result `SyncAppState` installs when the state has none. -/
def SyncOperationResult.empty : SyncOperationResult := ⟨[], [], ""⟩

/-- A resource named in a partial sync, `SyncOperationResource`. -/
structure SyncOperationResource where
  group : String
  kind : String
  name : String
  deriving DecidableEq, Repr

/-- The apply strategy and its `force` flag. -/
structure SyncStrategyApply where
  force : Bool
  deriving DecidableEq, Repr

/-- The hook strategy; `sync` reads only whether it is set. -/
structure SyncStrategyHook where
  deriving DecidableEq, Repr

/-- `SyncStrategy`: at most one of the two is meant to be set. -/
structure SyncStrategy where
  apply : Option SyncStrategyApply
  hook : Option SyncStrategyHook
  deriving DecidableEq, Repr

/-- `SyncOperation`, with `Resources` nil (`none`) kept apart from empty. -/
structure SyncOperation where
  revision : String
  prune : Bool
  dryRun : Bool
  syncStrategy : Option SyncStrategy
  resources : Option (List SyncOperationResource)
  deriving DecidableEq, Repr

/-- The requested operation; only `Sync` exists. -/
structure Operation where
  sync : Option SyncOperation
  deriving DecidableEq, Repr

/-- `OperationState`: the mutable record of one operation. -/
structure OperationState where
  operation : Operation
  phase : OperationPhase
  message : String
  syncResult : Option SyncOperationResult
  deriving DecidableEq, Repr

/-- A desired/live pair of the comparison, as `LiveObject()` and `TargetObject()`
decode it: an unmarshal error, no object, or the object. The Comparator pairs
every object with its counterpart or with nothing, so an entry that decodes
has at least one side. -/
structure ResourceState where
  liveObject : Except String (Option Unstructured)
  targetObject : Except String (Option Unstructured)
  present : ∀ l t, liveObject = .ok l → targetObject = .ok t → l.isSome ∨ t.isSome

/-- `syncTask`: "At least one should be non-nil." A nil `targetObj` is a prune. -/
@[ext] structure SyncTask where
  liveObj : Option Unstructured
  targetObj : Option Unstructured
  present : liveObj.isSome ∨ targetObj.isSome

instance : DecidableEq SyncTask := fun a b =>
  decidable_of_iff (a.liveObj = b.liveObj ∧ a.targetObj = b.targetObj)
    ⟨fun h => SyncTask.ext h.1 h.2, fun h => h ▸ ⟨rfl, rfl⟩⟩

/-- An application condition the Comparator reports, with the result of its
`IsError` method. -/
structure ApplicationCondition where
  message : String
  isError : Bool
  deriving DecidableEq, Repr

/-- A project: its name and its admission predicate `IsResourcePermitted`. -/
structure AppProject where
  name : String
  isResourcePermitted : GroupKind → Bool → Bool

/-- The cluster calls the engine makes, kept as data. -/
inductive ClusterCall
  /-- `kube.ServerResourceForGroupVersionKind`. -/
  | discover (gvk : GroupVersionKind)
  /-- `kubectl.ApplyResource`. -/
  | apply (obj : Unstructured) (dryRun force : Bool)
  /-- `kubectl.DeleteResource`. -/
  | delete (obj : Unstructured)
  deriving DecidableEq, Repr

end ArgoSync
