import ArgoSync.Model.ApplySync
/-!
# `sync`, `generateSyncTasks` and `SyncAppState`

One invocation of `SyncAppState` resolves the revision, compares, builds the
context and runs `sync` (or `terminate`), then records the deployment when a
full, real sync succeeded. `sync` generates and sorts the tasks, dry-runs them
unless a resource or hook is already recorded, and then runs the strategy.
The engine keeps no cursor: what it did before is read back from
`SyncResult`.

The effects an invocation has on the world are returned as data, in order:
the revision it compares at, each `doApplySync` with its tasks, flag and
outcome, each hand-over to the hook code, each hook resource `terminate`
deletes, and the history record.

The controller calls `SyncAppState` again while the operation runs.
`runWhileRunning` is that loop; `runSyncAppState` is any sequence of
invocations whatever the phase.
-/

namespace ArgoSync

open scoped List

variable (sc : SyncContext)

/-! ## Tasks -/

/-- `argo.ContainsSyncResource`. Modelled from the spec: the helper is not under
src; a partial sync names its resources by group, kind and name. -/
def containsSyncResource (name : String) (gvk : GroupVersionKind)
    (rr : List SyncOperationResource) : Bool :=
  rr.any fun r => r.name == name && r.group == gvk.group && r.kind == gvk.kind

/-- The filter of `generateSyncTasks`: every pair when `syncResources` is nil,
otherwise the pairs whose live or target object the list names. -/
def syncResourceSelected (syncResources : Option (List SyncOperationResource))
    (liveObj targetObj : Option Unstructured) : Bool :=
  match syncResources with
  | none => true
  | some rr =>
    (match liveObj with
      | some o => containsSyncResource o.name o.groupVersionKind rr
      | none => false) ||
    (match targetObj with
      | some o => containsSyncResource o.name o.groupVersionKind rr
      | none => false)

/-- The loop of `generateSyncTasks`: decode each pair, stop at the first
unmarshal error, keep the selected pairs as tasks. -/
def collectSyncTasks (syncResources : Option (List SyncOperationResource)) :
    List ResourceState → Except String (List SyncTask)
  | [] => .ok []
  | resourceState :: rest =>
    match hl : resourceState.liveObject with
    | .error err => .error ("Failed to unmarshal live object: " ++ err)
    | .ok liveObj =>
      match ht : resourceState.targetObject with
      | .error err => .error ("Failed to unmarshal target object: " ++ err)
      | .ok targetObj =>
        (fun syncTasks =>
          if syncResourceSelected syncResources liveObj targetObj then
            ⟨liveObj, targetObj, resourceState.present _ _ hl ht⟩ :: syncTasks
          else syncTasks) <$> collectSyncTasks syncResources rest

/-- `generateSyncTasks`: the selected tasks, sorted by `resourceOrder`; or the
message the operation fails with. -/
def SyncContext.generateSyncTasks : Except String (List SyncTask) :=
  (sc.sortAlgo.sort (newKindSorter resourceOrder).less) <$>
    collectSyncTasks sc.syncResources sc.resources

/-! ## `sync` -/

/-- What one invocation does to the world, in order. -/
inductive Effect
  /-- `CompareAppState` at this revision. -/
  | compareAppState (revision : String)
  /-- A `doApplySync` of these tasks with this `dryRun`, and its outcome. -/
  | doApplySync (syncTasks : List SyncTask) (dryRun : Bool) (outcome : ApplyState)
  /-- The hand-over to `doHookSync`. -/
  | doHookSync (syncTasks : List SyncTask)
  /-- The best-effort delete of a hook's resource. -/
  | deleteHook (hook : HookStatus)
  /-- `persistDeploymentInfo` of this revision. -/
  | persistDeploymentInfo (revision : String)

/-- The hand-over to `doHookSync`: when this hand-over applies the sync-phase
tasks, a real `doApplySync` of them from the recorded resources, whose list
the status keeps; then what the hooks make of the status. -/
def SyncContext.doHookSync (syncTasks : List SyncTask) (hooks : List Unstructured) (s : SyncStatus) :
    SyncStatus × List Effect :=
  match sc.hookSync.applySyncPhase syncTasks hooks s with
  | none => (sc.hookSync.run syncTasks hooks s, [.doHookSync syncTasks])
  | some force =>
    let real := sc.doApplySync (sc.schedule false) syncTasks false force true s.syncRes.resources
    (sc.hookSync.run syncTasks hooks (s.setResources real.resources),
      [.doHookSync syncTasks, .doApplySync syncTasks false real])

/-- The strategy half of `sync`, past the dry run: with no strategy the hook
strategy; the apply strategy applies once and returns, and reports success on
the next call; the hook strategy hands over to the hook code. -/
def SyncContext.syncStrategy (syncTasks : List SyncTask) (s : SyncStatus) :
    SyncStatus × List Effect :=
  let strategy := sc.syncOp.syncStrategy.getD ⟨none, some {}⟩
  match strategy.apply, strategy.hook with
  | some apply, _ =>
    if !startedSyncPhase s.syncRes then
      let real := sc.doApplySync (sc.schedule false) syncTasks false apply.force true
        s.syncRes.resources
      let s := s.setResources real.resources
      if !real.successful then
        (s.setOperationPhase .failed "one or more objects failed to apply",
          [.doApplySync syncTasks false real])
      else (s, [.doApplySync syncTasks false real])
    else (s.setOperationPhase .succeeded "successfully synced", [])
  | none, some _ =>
    match sc.getHooks with
    | .error err =>
      (s.setOperationPhase .error ("failed to generate hooks resources: " ++ err), [])
    | .ok hooks => sc.doHookSync syncTasks hooks s
  | none, none => (s.setOperationPhase .failed "Unknown sync strategy", [])

/-- `sync`: generate the tasks; succeed at once when there are none; dry-run
them unless the pre-sync phase has started, failing on a failure and
succeeding on a dry-run operation; then run the strategy. -/
def SyncContext.sync (s : SyncStatus) : SyncStatus × List Effect :=
  match sc.generateSyncTasks with
  | .error message => (s.setOperationPhase .error message, [])
  | .ok syncTasks =>
    if syncTasks.length = 0 then
      (s.setOperationPhase .succeeded "successfully synced (no manifests)", [])
    else if !startedPreSyncPhase s.syncRes then
      let dry := sc.doApplySync (sc.schedule true) syncTasks true false sc.syncOp.dryRun
        s.syncRes.resources
      let s := s.setResources dry.resources
      if !dry.successful then
        (s.setOperationPhase .failed "one or more objects failed to apply (dry run)",
          [.doApplySync syncTasks true dry])
      else if sc.syncOp.dryRun then
        (s.setOperationPhase .succeeded "successfully synced (dry run)",
          [.doApplySync syncTasks true dry])
      else
        let r := sc.syncStrategy syncTasks s
        (r.1, .doApplySync syncTasks true dry :: r.2)
    else sc.syncStrategy syncTasks s

/-- `terminate`. Modelled from the spec: the function is not under src; it
deletes the resource of every hook still in flight on a best effort, its
errors logged and not retried, and fails the operation with "terminated". -/
def SyncStatus.terminate (s : SyncStatus) : SyncStatus × List Effect :=
  (s.setOperationPhase .failed "terminated",
    (s.syncRes.hooks.filter fun hookStatus => !hookStatus.status.completed).map .deleteHook)

@[simp] theorem SyncStatus.terminate_phase (s : SyncStatus) : s.terminate.1.phase = .failed := rfl

@[simp] theorem SyncStatus.terminate_syncRes (s : SyncStatus) : s.terminate.1.syncRes = s.syncRes := rfl

/-! ## `SyncAppState` -/

/-- The error exits of `SyncAppState`: phase Error, with the message. -/
def OperationState.setError (state : OperationState) (message : String) : OperationState :=
  { state with phase := .error, message := message }

@[simp] theorem OperationState.setError_phase (state : OperationState) (message : String) :
    (state.setError message).phase = .error := rfl

@[simp] theorem OperationState.setError_operation (state : OperationState) (message : String) :
    (state.setError message).operation = state.operation := rfl

@[simp] theorem OperationState.setError_syncResult (state : OperationState) (message : String) :
    (state.setError message).syncResult = state.syncResult := rfl

/-- What `SyncAppState` reads of `CompareAppState`'s results: the resolved
revision `manifestInfo.Revision`, the resource pairs, and the conditions. -/
structure ComparisonOutcome where
  manifestRevision : String
  resources : List ResourceState
  conditions : List ApplicationCondition

/-- The answers of the collaborators during one invocation. -/
structure Env where
  compareAppState : String → Except String ComparisonOutcome
  formatAppConditions : List ApplicationCondition → String
  getCluster : Except String Unit
  newDynamicClient : Except String Unit
  newDiscoveryClient : Except String Unit
  getAppProject : Except String AppProject
  kubectl : Kubectl
  disco : Discovery
  isHook : Unstructured → Bool
  sortAlgo : SortAlgo SyncTask
  getHooks : Except String (List Unstructured)
  hookSync : HookSync
  schedule : Bool → Interleaving
  persistDeploymentInfo : String → Except String Unit

/-- The application, read for its destination namespace. -/
structure Application where
  destinationNamespace : String

/-- The context `SyncAppState` builds. -/
def Env.syncContext (env : Env) (app : Application) (proj : AppProject) (syncOp : SyncOperation)
    (cmp : ComparisonOutcome) : SyncContext :=
  ⟨proj, cmp.resources, app.destinationNamespace, syncOp, syncOp.resources, env.kubectl,
    env.disco, env.isHook, env.sortAlgo, env.getHooks, env.hookSync, env.schedule⟩

/-- `terminate` or `sync`, as `SyncAppState` chooses by the phase, from the
operation's phase and message and the sync result. -/
def SyncContext.terminateOrSync (state : OperationState) (syncRes : SyncOperationResult) :
    SyncStatus × List Effect :=
  let status : SyncStatus := ⟨state.phase, state.message, syncRes⟩
  if state.phase = .terminating then status.terminate else sc.sync status

/-- The end of `SyncAppState`, from the built context: `terminate` or `sync`,
then the history record of a real, full, successful sync. -/
def syncAndRecord (env : Env) (sc : SyncContext) (syncOp : SyncOperation) (manifestRevision : String)
    (state : OperationState) (syncRes : SyncOperationResult) : OperationState × List Effect :=
  let r := sc.terminateOrSync state syncRes
  let state := { state with phase := r.1.phase, message := r.1.message, syncResult := some r.1.syncRes }
  if !syncOp.dryRun && (syncOp.resources.getD []).length = 0 && r.1.phase.successful then
    match env.persistDeploymentInfo manifestRevision with
    | .error err =>
      (state.setError ("failed to record sync to history: " ++ err),
        r.2 ++ [.persistDeploymentInfo manifestRevision])
    | .ok () => (state, r.2 ++ [.persistDeploymentInfo manifestRevision])
  else (state, r.2)

/-- The revision `SyncAppState` compares at: the one the sync result
remembers, or the requested one when it remembers none. -/
def SyncOperationResult.compareRevision (syncRes : SyncOperationResult) (syncOp : SyncOperation) :
    String :=
  if syncRes.revision = "" then syncOp.revision else syncRes.revision

/-- `SyncAppState`: one invocation on the operation state. -/
def syncAppState (env : Env) (app : Application) (state : OperationState) :
    OperationState × List Effect :=
  match state.operation.sync with
  | none =>
    ({ state with phase := .failed, message := "Invalid operation request: no operation specified" },
      [])
  | some syncOp =>
    let syncRes := state.syncResult.getD .empty
    let state := { state with syncResult := some syncRes }
    let revision := syncRes.compareRevision syncOp
    let compare := Effect.compareAppState revision
    match env.compareAppState revision with
    | .error err => (state.setError err, [compare])
    | .ok cmp =>
      let errConditions := cmp.conditions.filter (·.isError)
      if 0 < errConditions.length then
        (state.setError (env.formatAppConditions errConditions), [compare])
      else
        let syncRes := { syncRes with revision := cmp.manifestRevision }
        let state := { state with syncResult := some syncRes }
        match env.getCluster, env.newDynamicClient, env.newDiscoveryClient, env.getAppProject with
        | .error err, _, _, _ => (state.setError err, [compare])
        | .ok (), .error err, _, _ =>
          (state.setError ("Failed to initialize dynamic client: " ++ err), [compare])
        | .ok (), .ok (), .error err, _ =>
          (state.setError ("Failed to initialize discovery client: " ++ err), [compare])
        | .ok (), .ok (), .ok (), .error err =>
          (state.setError ("Failed to load application project: " ++ err), [compare])
        | .ok (), .ok (), .ok (), .ok proj =>
          let r := syncAndRecord env (env.syncContext app proj syncOp cmp) syncOp
            cmp.manifestRevision state syncRes
          (r.1, compare :: r.2)

/-- Any sequence of invocations on one operation state. -/
def runSyncAppState (app : Application) : List Env → OperationState → OperationState × List (List Effect)
  | [], state => (state, [])
  | env :: envs, state =>
    let r := syncAppState env app state
    let rest := runSyncAppState app envs r.1
    (rest.1, r.2 :: rest.2)

/-- The controller's loop: `SyncAppState` runs again while the operation is
Running, each time with that tick's answers. -/
def runWhileRunning (app : Application) : List Env → OperationState →
    OperationState × List (List Effect)
  | [], state => (state, [])
  | env :: envs, state =>
    if state.phase = .running then
      let r := syncAppState env app state
      let rest := runWhileRunning app envs r.1
      (rest.1, r.2 :: rest.2)
    else (state, [])

end ArgoSync
