import ArgoSync.Model.KindSorter
import ArgoSync.GoSort
/-!
# The apply path: `setResourceDetails` and `doApplySync`

`doApplySync` partitions the tasks into prunes and creates, runs the prunes
as one wave of goroutines, then walks the creates in kind-groups, each a
wave of its own after a discovery lookup and a project check. Its shared
state is `SyncResult.Resources`, written only through `setResourceDetails`
under one lock, and the flag `syncSuccessful`, which goroutines only clear.

A wave's goroutines are modelled by what they do: each computes its details
from the cluster's answer, and their writes reach `setResourceDetails` in an
order the `Interleaving` picks, any permutation of the writes. The cluster
calls are returned as data, one list per wave, so that what was called in
which wave can be stated.

The collaborators that are not under src (the `kubectl` calls, discovery,
the project's admission check, `isHook`, the hook-based sync) are fields of
`SyncContext` and every theorem quantifies over them.
-/

namespace ArgoSync

open scoped List

/-! ## The sync result -/

/-- `setResourceDetails`: the first entry with the same kind and name is
replaced in place; when there is none the details are appended. -/
def setResourceDetails : List ResourceDetails → ResourceDetails → List ResourceDetails
  | [], details => [details]
  | res :: rest, details =>
    if res.kind = details.kind ∧ res.name = details.name then details :: rest
    else res :: setResourceDetails rest details

/-- `startedPreSyncPhase`: the resource or the hook list is non-empty. -/
def startedPreSyncPhase (syncRes : SyncOperationResult) : Bool :=
  0 < syncRes.resources.length || 0 < syncRes.hooks.length

/-- `startedSyncPhase`: the resource list is non-empty, or a Sync or PostSync
hook is recorded. -/
def startedSyncPhase (syncRes : SyncOperationResult) : Bool :=
  0 < syncRes.resources.length ||
    syncRes.hooks.any fun hookStatus => hookStatus.type == .sync || hookStatus.type == .postSync

/-- `startedPostSyncPhase`: a PostSync hook is recorded. -/
def startedPostSyncPhase (syncRes : SyncOperationResult) : Bool :=
  syncRes.hooks.any fun hookStatus => hookStatus.type == .postSync

/-- What `sync` changes: the operation's phase and message, and the sync
result, which `sc.syncRes` and `sc.opState.SyncResult` both point to. -/
structure SyncStatus where
  phase : OperationPhase
  message : String
  syncRes : SyncOperationResult

/-- `setOperationPhase`; the log line it writes is not modelled. -/
def SyncStatus.setOperationPhase (s : SyncStatus) (phase : OperationPhase) (message : String) :
    SyncStatus :=
  { s with phase := phase, message := message }

/-- Replace `SyncResult.Resources`. -/
def SyncStatus.setResources (s : SyncStatus) (resources : List ResourceDetails) : SyncStatus :=
  { s with syncRes := { s.syncRes with resources := resources } }

@[simp] theorem SyncStatus.setOperationPhase_phase (s : SyncStatus) (phase : OperationPhase)
    (message : String) : (s.setOperationPhase phase message).phase = phase := rfl

@[simp] theorem SyncStatus.setOperationPhase_syncRes (s : SyncStatus) (phase : OperationPhase)
    (message : String) : (s.setOperationPhase phase message).syncRes = s.syncRes := rfl

@[simp] theorem SyncStatus.setResources_phase (s : SyncStatus) (resources : List ResourceDetails) :
    (s.setResources resources).phase = s.phase := rfl

@[simp] theorem SyncStatus.setResources_syncRes (s : SyncStatus) (resources : List ResourceDetails) :
    (s.setResources resources).syncRes = { s.syncRes with resources := resources } := rfl

/-! ## The collaborators -/

/-- The two `kubectl` calls, as answers to their arguments (object,
namespace, and for `ApplyResource` the `dryRun` and `force` flags). -/
structure Kubectl where
  applyResource : Unstructured → String → Bool → Bool → Except String String
  deleteResource : Unstructured → String → Except String Unit

/-- A discovery error: its text, and whether `apierr.IsNotFound` holds of it. -/
structure DiscoveryError where
  message : String
  notFound : Bool

/-- `kube.ServerResourceForGroupVersionKind`, read for the resource's
`Namespaced` flag. Go asks the server at each group; the model gives one
answer per group-version-kind for the whole invocation, so it does not see a
kind that a CRD applied in an earlier wave creates. What is proved about the
waves after a CRD says which group runs in which wave, not what the server
answers there. -/
structure Discovery where
  serverResourceForGroupVersionKind : GroupVersionKind → Except DiscoveryError Bool

/-- The order in which the goroutines of wave `n` take the lock in
`setResourceDetails`: any permutation of the wave's writes. -/
structure Interleaving where
  order : Nat → List ResourceDetails → List ResourceDetails
  perm : ∀ n writes, order n writes ~ writes

/-- The goroutines of every wave finish in task order. -/
def Interleaving.inOrder : Interleaving := ⟨fun _ writes => writes, fun _ _ => .refl _⟩

/-- `doHookSync`, which is not under src, modelled from the spec's phase
table for the hook strategy: each hand-over runs hooks, and the one at the
sync phase first applies the sync-phase tasks. `applySyncPhase` says whether
this hand-over applies them, and with which `force`; the apply is a real
`doApplySync` with `update` set (`SyncContext.doHookSync`). `run` is what
the hooks then make of the status: any change of the phase, the message and
the resource and hook lists. -/
structure HookSync where
  applySyncPhase : List SyncTask → List Unstructured → SyncStatus → Option Bool
  run : List SyncTask → List Unstructured → SyncStatus → SyncStatus

/-- The hook code keeps the resolved revision: the spec has it written once
per operation, by `SyncAppState`. -/
def HookSync.KeepsRevision (hookSync : HookSync) : Prop :=
  ∀ tasks hooks s, (hookSync.run tasks hooks s).syncRes.revision = s.syncRes.revision

/-- `syncContext`, with the fields the engine reads and its collaborators:
`isHook`, `getHooks` and `hookSync` from the hook code, `sortAlgo` for
`sort.Sort`, and `schedule`, the interleaving of the dry run's waves and of
the real run's. -/
structure SyncContext where
  proj : AppProject
  resources : List ResourceState
  ns : String
  syncOp : SyncOperation
  syncResources : Option (List SyncOperationResource)
  kubectl : Kubectl
  disco : Discovery
  isHook : Unstructured → Bool
  sortAlgo : SortAlgo SyncTask
  getHooks : Except String (List Unstructured)
  hookSync : HookSync
  schedule : Bool → Interleaving

variable (sc : SyncContext)

/-! ## One object -/

/-- `applyObject`: the `kubectl apply` of one target, and its details. -/
def SyncContext.applyObject (targetObj : Unstructured) (dryRun force : Bool) :
    ResourceDetails × List ClusterCall :=
  let call := ClusterCall.apply targetObj dryRun force
  match sc.kubectl.applyResource targetObj sc.ns dryRun force with
  | .error err => (⟨targetObj.name, targetObj.kind, sc.ns, err, .syncFailed⟩, [call])
  | .ok message => (⟨targetObj.name, targetObj.kind, sc.ns, message, .synced⟩, [call])

/-- `pruneObject`: deletes the object if both `prune` is true and `dryRun` is
false, and otherwise records why not. -/
def SyncContext.pruneObject (liveObj : Unstructured) (prune dryRun : Bool) :
    ResourceDetails × List ClusterCall :=
  let details (message : String) (status : ResourceDetailsSyncStatus) : ResourceDetails :=
    ⟨liveObj.name, liveObj.kind, liveObj.ns, message, status⟩
  if prune then
    if dryRun then (details "pruned (dry run)" .syncedAndPruned, [])
    else
      match sc.kubectl.deleteResource liveObj sc.ns with
      | .error err => (details err .syncFailed, [.delete liveObj])
      | .ok () => (details "pruned" .syncedAndPruned, [.delete liveObj])
  else (details "ignored (requires pruning)" .pruningRequired, [])

/-- `kube.IsCRD`. Modelled from the spec: the helper is not under src; a CRD is
an object of kind CustomResourceDefinition. -/
def isCRD (obj : Unstructured) : Bool := obj.kind == "CustomResourceDefinition"

/-- `hasCRDOfGroupKind`: some CRD among the targets defines `group` and
`kind`; a CRD whose `spec.group` or `spec.names.kind` is not a string is
skipped. -/
def hasCRDOfGroupKind : List Unstructured → String → String → Bool
  | [], _, _ => false
  | task :: tasks, group, kind =>
    if isCRD task then
      match task.specGroup, task.specNamesKind with
      | some crdGroup, some crdKind =>
        if group = crdGroup ∧ crdKind = kind then true else hasCRDOfGroupKind tasks group kind
      | _, _ => hasCRDOfGroupKind tasks group kind
    else hasCRDOfGroupKind tasks group kind

/-! ## The waves -/

/-- What `doApplySync` threads through its waves: the resource list, the flag
`syncSuccessful`, and the cluster calls of each wave so far. -/
structure ApplyState where
  resources : List ResourceDetails
  successful : Bool
  waves : List (List ClusterCall)

/-- One wave of goroutines, from their results: `syncSuccessful` drops on any
failure, and the details that `update` or a failure asks for reach
`setResourceDetails` in the order the interleaving picks for this wave.
`calls` are the wave's calls made before its goroutines start. The
goroutines' own calls run concurrently; the wave lists them in task order,
and where the schedule varies results compare a wave's calls as a multiset. -/
def runWave (il : Interleaving) (update : Bool) (calls : List ClusterCall)
    (results : List (ResourceDetails × List ClusterCall)) (st : ApplyState) : ApplyState :=
  let writes := (results.map Prod.fst).filter fun d => update || !d.status.successful
  ⟨(il.order st.waves.length writes).foldl setResourceDetails st.resources,
   st.successful && results.all fun r => r.1.status.successful,
   st.waves ++ [calls ++ results.flatMap Prod.snd]⟩

/-- The two refusals of `processCreateTasks`: every task of the group gets a
`SyncFailed` entry with one message, in task order. -/
def SyncContext.failTasks (tasks : List Unstructured) (message : String)
    (resources : List ResourceDetails) : List ResourceDetails :=
  (tasks.map fun task => (⟨task.name, task.kind, sc.ns, message, .syncFailed⟩ : ResourceDetails)).foldl
    setResourceDetails resources

/-- The refusal text of the project check. -/
def notPermittedMessage (gvk : GroupVersionKind) (projName : String) : String :=
  "Resource " ++ gvk.group ++ ":" ++ gvk.kind ++ " is not permitted in project " ++ projName ++ "."

/-- `processCreateTasks`: discover the group's kind; on a not-found error in a
dry run whose creates hold the CRD, skip the group; on any other error, or
when the project refuses the group-kind, fail every task; otherwise apply
every task that is not a hook, as one wave. -/
def SyncContext.processCreateTasks (dryRun force update : Bool) (il : Interleaving)
    (createTasks tasks : List Unstructured) (gvk : GroupVersionKind) (st : ApplyState) :
    ApplyState :=
  let waves := st.waves ++ [[.discover gvk]]
  match sc.disco.serverResourceForGroupVersionKind gvk with
  | .error err =>
    if dryRun && err.notFound && hasCRDOfGroupKind createTasks gvk.group gvk.kind then
      { st with waves := waves }
    else ⟨sc.failTasks tasks err.message st.resources, false, waves⟩
  | .ok namespaced =>
    if !sc.proj.isResourcePermitted ⟨gvk.group, gvk.kind⟩ namespaced then
      ⟨sc.failTasks tasks (notPermittedMessage gvk sc.proj.name) st.resources, false, waves⟩
    else
      runWave il update [.discover gvk]
        ((tasks.filter fun t => !sc.isHook t).map fun t => sc.applyObject t dryRun force) st

/-- The grouping loop: `tasksGroup` collects tasks while they have the kind of
its first task; a task of another kind closes the group and opens the next. -/
def kindGroupsFrom : List Unstructured → List Unstructured → List (List Unstructured)
  | tasksGroup, [] => if 0 < tasksGroup.length then [tasksGroup] else []
  | tasksGroup, task :: rest =>
    match tasksGroup with
    | first :: _ =>
      if first.kind ≠ task.kind then tasksGroup :: kindGroupsFrom [task] rest
      else kindGroupsFrom (tasksGroup ++ [task]) rest
    | [] => kindGroupsFrom [task] rest

/-- The kind-groups of the creates, in the order `doApplySync` processes them. -/
def kindGroups (createTasks : List Unstructured) : List (List Unstructured) :=
  kindGroupsFrom [] createTasks

/-- `processCreateTasks(tasksGroup, tasksGroup[0].targetObj.GroupVersionKind())`
for each group in turn. -/
def SyncContext.processGroups (dryRun force update : Bool) (il : Interleaving)
    (createTasks : List Unstructured) : ApplyState → List (List Unstructured) → ApplyState
  | st, [] => st
  | st, [] :: groups => SyncContext.processGroups dryRun force update il createTasks st groups
  | st, (first :: rest) :: groups =>
    SyncContext.processGroups dryRun force update il createTasks
      (sc.processCreateTasks dryRun force update il createTasks (first :: rest)
        first.groupVersionKind st) groups

/-- The live object of a prune task (`targetObj == nil`). -/
def SyncTask.pruneObj (t : SyncTask) : Option Unstructured :=
  match t.targetObj with
  | none => t.liveObj
  | some _ => none

/-- `doApplySync`, from the resource list it starts with: the prune wave, then
the kind-groups of the creates. Its Go result is `successful`. -/
def SyncContext.doApplySync (il : Interleaving) (syncTasks : List SyncTask)
    (dryRun force update : Bool) (resources : List ResourceDetails) : ApplyState :=
  let pruneTasks := syncTasks.filterMap SyncTask.pruneObj
  let createTasks := syncTasks.filterMap SyncTask.targetObj
  sc.processGroups dryRun force update il createTasks
    (runWave il update [] (pruneTasks.map fun t => sc.pruneObject t sc.syncOp.prune dryRun)
      ⟨resources, true, []⟩)
    (kindGroups createTasks)

end ArgoSync
