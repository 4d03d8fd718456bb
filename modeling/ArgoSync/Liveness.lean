import ArgoSync.Run
/-!
# The apply strategy, when the cluster cooperates

The safety results say what the engine never does, whatever the
collaborators answer. This file says what it does when they answer well. A
cooperative cluster (`SyncContext.Cooperative`: discovery finds every kind,
the project permits every group-kind, every apply and delete succeeds) makes
`doApplySync` return true (`doApplySync_successful`); with `update` false it
writes nothing (`doApplySync_resources_of_not_update`), and with `update`
set it leaves an entry as soon as one task is recorded: a prune, or a create
whose target is not a hook (`doApplySync_resources_ne_nil`).

So under the apply strategy a real operation with nothing recorded takes two
ticks of a cooperative environment (`Env.Cooperative`): the first dry-runs,
writing nothing, and applies, recording its tasks; the second finds the sync
phase started and succeeds, and the loop stops
(`runWhileRunning_apply_succeeds`). The condition on the tasks is the one
`sync_apply_repeats_for_hooks` shows cannot be dropped.
-/

namespace ArgoSync

open scoped List

/-- A task whose outcome a real apply records: a prune, or a create whose
target is not a hook. -/
def SyncTask.recorded (isHook : Unstructured → Bool) (t : SyncTask) : Bool :=
  match t.targetObj with
  | none => true
  | some o => !isHook o

/-- A cluster that answers every call of `doApplySync` without error:
discovery finds every kind, the project permits every group-kind, and every
apply and delete succeeds. -/
structure SyncContext.Cooperative (sc : SyncContext) : Prop where
  disco : ∀ gvk, ∃ namespaced, sc.disco.serverResourceForGroupVersionKind gvk = .ok namespaced
  permitted : ∀ gk namespaced, sc.proj.isResourcePermitted gk namespaced = true
  apply : ∀ o ns dryRun force, ∃ message, sc.kubectl.applyResource o ns dryRun force = .ok message
  delete : ∀ o ns, sc.kubectl.deleteResource o ns = .ok ()

/-- With `update` false a call writes only failures. -/
theorem not_successful_of_mem_applyWrites (sc : SyncContext) (dryRun force : Bool)
    (syncTasks : List SyncTask) {d : ResourceDetails} (hd : d ∈ sc.applyWrites dryRun force false syncTasks) :
    d.status.successful = false := by
  have hwave : ∀ {results}, d ∈ waveWrites false results → d.status.successful = false := fun h => by
    simpa [waveWrites] using (List.mem_filter.mp h).2
  rcases List.mem_append.mp hd with hd | hd
  · exact hwave hd
  · obtain ⟨g, -, hg⟩ := List.mem_flatMap.mp hd
    cases g with
    | nil => cases hg
    | cons first rest =>
      rw [groupWrites_cons] at hg
      split at hg
      · cases hg
      · obtain ⟨o, -, rfl⟩ := List.mem_map.mp hg
        rfl
      · exact hwave hg

/-! ## One call -/

namespace SyncContext.Cooperative

variable {sc : SyncContext} (hc : sc.Cooperative) (dryRun force update : Bool) (il : Interleaving)
  (syncTasks : List SyncTask) (resources : List ResourceDetails)
include hc

theorem groupVerdict_eq (createTasks : List Unstructured) (gvk : GroupVersionKind) :
    sc.groupVerdict dryRun createTasks gvk = .admitted :=
  let ⟨n, hn⟩ := hc.disco gvk
  (groupVerdict_eq_admitted_iff sc dryRun createTasks).mpr ⟨n, hn, hc.permitted _ _⟩

theorem applyObject_successful (o : Unstructured) :
    (sc.applyObject o dryRun force).1.status.successful = true := by
  obtain ⟨m, hm⟩ := hc.apply o sc.ns dryRun force
  simp [SyncContext.applyObject, hm, ResourceDetailsSyncStatus.successful]

theorem pruneObject_successful (o : Unstructured) (prune : Bool) :
    (sc.pruneObject o prune dryRun).1.status.successful = true := by
  unfold SyncContext.pruneObject
  cases prune <;> cases dryRun <;> simp [hc.delete, ResourceDetailsSyncStatus.successful]

/-- **A cooperative cluster fails nothing**: `doApplySync` returns true. -/
theorem doApplySync_successful :
    (sc.doApplySync il syncTasks dryRun force update resources).successful = true := by
  rw [(doApplySync_spec sc dryRun force update il syncTasks resources).2.1, Bool.and_eq_true,
    List.all_eq_true, List.all_eq_true]
  refine ⟨fun r hr => ?_, fun g hg => ?_⟩
  · obtain ⟨o, -, rfl⟩ := List.mem_map.mp hr
    exact hc.pruneObject_successful dryRun o _
  · obtain ⟨first, rest, rfl⟩ := List.exists_cons_of_ne_nil (kindGroups_uniform _ g hg).1
    rw [groupSucceeded_cons, hc.groupVerdict_eq]
    simp only [List.all_eq_true]
    intro r hr
    obtain ⟨o, -, rfl⟩ := List.mem_map.mp hr
    exact hc.applyObject_successful dryRun force o

/-- Every outcome a cooperative cluster gives is a success. -/
theorem successful_of_mem_applyWrites {d : ResourceDetails}
    (hd : d ∈ sc.applyWrites dryRun force update syncTasks) : d.status.successful = true := by
  rcases List.mem_append.mp hd with hd | hd
  · obtain ⟨r, hr, rfl⟩ := List.mem_map.mp (List.mem_filter.mp hd).1
    obtain ⟨o, -, rfl⟩ := List.mem_map.mp hr
    exact hc.pruneObject_successful dryRun o _
  · obtain ⟨g, -, hg⟩ := List.mem_flatMap.mp hd
    cases g with
    | nil => cases hg
    | cons first rest =>
      rw [groupWrites_cons, hc.groupVerdict_eq] at hg
      obtain ⟨r, hr, rfl⟩ := List.mem_map.mp (List.mem_filter.mp hg).1
      obtain ⟨o, -, rfl⟩ := List.mem_map.mp hr
      exact hc.applyObject_successful dryRun force o

/-- With `update` false a cooperative cluster's `doApplySync` writes nothing. -/
theorem doApplySync_resources_of_not_update :
    (sc.doApplySync il syncTasks dryRun force false resources).resources = resources := by
  obtain ⟨-, -, ws, hws, hres⟩ := doApplySync_spec sc dryRun force false il syncTasks resources
  have hnil : sc.applyWrites dryRun force false syncTasks = [] :=
    List.eq_nil_iff_forall_not_mem.mpr fun d hd => by
      simpa [hc.successful_of_mem_applyWrites dryRun force false syncTasks hd] using
        not_successful_of_mem_applyWrites sc dryRun force syncTasks hd
  rw [hnil] at hws
  rw [hres, List.perm_nil.mp hws]
  rfl

/-- With `update` set, a cooperative cluster's `doApplySync` of tasks one of
which is recorded leaves an entry. -/
theorem doApplySync_resources_ne_nil (ht : ∃ t ∈ syncTasks, t.recorded sc.isHook = true) :
    (sc.doApplySync il syncTasks dryRun force true resources).resources ≠ [] := by
  obtain ⟨-, -, ws, hws, hres⟩ := doApplySync_spec sc dryRun force true il syncTasks resources
  obtain ⟨t, ht, hrec⟩ := ht
  have hw : ∃ d, d ∈ sc.applyWrites dryRun force true syncTasks := by
    cases htg : t.targetObj with
    | none =>
      obtain ⟨o, ho⟩ : ∃ o, t.pruneObj = some o := by
        simpa [SyncTask.pruneObj, htg, Option.isSome_iff_exists] using
          t.present.resolve_right (by simp [htg])
      exact ⟨_, pruneWrite_mem_applyWrites sc syncTasks dryRun force true ht ho (.inl rfl)⟩
    | some o =>
      have hh : sc.isHook o = false := by simpa [SyncTask.recorded, htg] using hrec
      have hmem : o ∈ (kindGroups (createObjs syncTasks)).flatten := by
        rw [flatten_kindGroups]
        exact List.mem_filterMap.mpr ⟨t, ht, htg⟩
      obtain ⟨g, hg, hog⟩ := List.mem_flatten.mp hmem
      obtain ⟨first, rest, rfl⟩ := List.exists_cons_of_ne_nil (kindGroups_uniform _ g hg).1
      exact ⟨_, applyWrite_mem_applyWrites sc syncTasks dryRun force true hg (hc.groupVerdict_eq _ _ _)
        hog hh (.inl rfl)⟩
  obtain ⟨d, hd⟩ := hw
  obtain ⟨d', ds, rfl⟩ := List.exists_cons_of_ne_nil (List.ne_nil_of_mem (hws.symm.subset hd))
  rw [hres, List.foldl_cons]
  exact foldl_setResourceDetails_ne_nil ds _ _

end SyncContext.Cooperative

/-! ## `sync` under the apply strategy -/

section Sync

variable (sc : SyncContext) (s : SyncStatus) {apply : SyncStrategyApply} {hook : Option SyncStrategyHook}
  (hstrat : sc.syncOp.syncStrategy = some ⟨some apply, hook⟩)
include hstrat

/-- From nothing recorded, `sync` of a real operation in a cooperative
cluster dry-runs its tasks, writing nothing, then applies them for real,
recording them when one is recorded, and keeps the phase. -/
theorem sync_first_of_cooperative (hc : sc.Cooperative) (hdry : sc.syncOp.dryRun = false)
    {syncTasks : List SyncTask} (hg : sc.generateSyncTasks = .ok syncTasks)
    (ht : ∃ t ∈ syncTasks, t.recorded sc.isHook = true)
    (hs : s.syncRes.resources = [] ∧ s.syncRes.hooks = []) :
    ∃ dry real, (sc.sync s).2 = [.doApplySync syncTasks true dry, .doApplySync syncTasks false real] ∧
      dry.resources = [] ∧ real.resources ≠ [] ∧
      (sc.sync s).1.phase = s.phase ∧ (sc.sync s).1.syncRes.resources = real.resources := by
  have hne : syncTasks.length ≠ 0 := by
    obtain ⟨t, ht, -⟩ := ht
    exact (List.length_pos_of_mem ht).ne'
  have hpre : startedPreSyncPhase s.syncRes = false := by simp [startedPreSyncPhase, hs.1, hs.2]
  have hdry' := hc.doApplySync_resources_of_not_update true false (sc.schedule true) syncTasks
    s.syncRes.resources
  unfold SyncContext.sync
  rw [hg]
  dsimp only
  rw [if_neg hne, hpre]
  simp only [Bool.not_false, if_true, hc.doApplySync_successful, Bool.not_true, Bool.false_eq_true,
    if_false, hdry, hdry']
  rw [syncStrategy_of_apply sc syncTasks _ hstrat, if_neg (by simp [startedSyncPhase, hs.1, hs.2])]
  simp only [hc.doApplySync_successful, if_true]
  exact ⟨_, _, rfl, hdry'.trans hs.1, hc.doApplySync_resources_ne_nil _ _ _ _ _ ht, rfl, rfl⟩

/-- Once the sync phase has started, `sync` of generated tasks succeeds. -/
theorem sync_succeeded_of_startedSyncPhase {syncTasks : List SyncTask}
    (hg : sc.generateSyncTasks = .ok syncTasks) (hs : startedSyncPhase s.syncRes = true) :
    (sc.sync s).1.phase = .succeeded := by
  by_cases hl : syncTasks = []
  · subst hl
    simp [SyncContext.sync, hg]
  · rw [sync_of_startedPreSyncPhase sc syncTasks s hg hl (startedPreSyncPhase_of_startedSyncPhase hs),
      syncStrategy_of_apply sc syncTasks s hstrat, if_pos hs]
    rfl

end Sync

/-! ## Cooperative ticks -/

/-- A tick at which every collaborator answers without error: the comparison
resolves, reports no error condition and gives resource states that decode;
the cluster, both clients and the project load, and the project permits
every group-kind; discovery finds every kind; and every apply, delete and
history record succeeds. -/
structure Env.Cooperative (env : Env) : Prop where
  compare : ∀ revision, ∃ cmp, env.compareAppState revision = .ok cmp ∧
    cmp.conditions.filter (·.isError) = [] ∧
    ∀ rs ∈ cmp.resources, (∃ l, rs.liveObject = .ok l) ∧ ∃ t, rs.targetObject = .ok t
  getCluster : env.getCluster = .ok ()
  newDynamicClient : env.newDynamicClient = .ok ()
  newDiscoveryClient : env.newDiscoveryClient = .ok ()
  project : ∃ proj, env.getAppProject = .ok proj ∧
    ∀ gk namespaced, proj.isResourcePermitted gk namespaced = true
  disco : ∀ gvk, ∃ namespaced, env.disco.serverResourceForGroupVersionKind gvk = .ok namespaced
  apply : ∀ o ns dryRun force, ∃ message, env.kubectl.applyResource o ns dryRun force = .ok message
  delete : ∀ o ns, env.kubectl.deleteResource o ns = .ok ()
  persist : ∀ revision, env.persistDeploymentInfo revision = .ok ()

/-- The context `SyncAppState` builds sorts the comparison's tasks with the
environment's sort. -/
theorem Env.generateSyncTasks_syncContext (env : Env) (app : Application) (proj : AppProject)
    {syncOp : SyncOperation} {cmp : ComparisonOutcome} {tasks : List SyncTask}
    (hcol : collectSyncTasks syncOp.resources cmp.resources = .ok tasks) :
    (env.syncContext app proj syncOp cmp).generateSyncTasks =
      .ok (env.sortAlgo.sort (newKindSorter resourceOrder).less tasks) := by
  simp only [SyncContext.generateSyncTasks, Env.syncContext, hcol]
  rfl

section Cooperative

variable {env : Env} (h : env.Cooperative) (app : Application) {state : OperationState}
  {syncOp : SyncOperation}
include h

/-- **A cooperative tick reaches `syncAndRecord`**, with the project it
loaded and the comparison it made. -/
theorem Env.Cooperative.syncAppState_eq (hop : state.operation.sync = some syncOp) :
    ∃ proj cmp, (∀ gk namespaced, proj.isResourcePermitted gk namespaced = true) ∧
      env.compareAppState ((state.syncResult.getD .empty).compareRevision syncOp) = .ok cmp ∧
      (∀ rs ∈ cmp.resources, (∃ l, rs.liveObject = .ok l) ∧ ∃ t, rs.targetObject = .ok t) ∧
      syncAppState env app state =
        ((syncAndRecord env (env.syncContext app proj syncOp cmp) syncOp cmp.manifestRevision
          { state with
            syncResult := some { state.syncResult.getD .empty with revision := cmp.manifestRevision } }
          { state.syncResult.getD .empty with revision := cmp.manifestRevision }).1,
         .compareAppState ((state.syncResult.getD .empty).compareRevision syncOp) ::
          (syncAndRecord env (env.syncContext app proj syncOp cmp) syncOp cmp.manifestRevision
            { state with
              syncResult := some { state.syncResult.getD .empty with revision := cmp.manifestRevision } }
            { state.syncResult.getD .empty with revision := cmp.manifestRevision }).2) := by
  obtain ⟨cmp, hcmp, herr, hdec⟩ := h.compare ((state.syncResult.getD .empty).compareRevision syncOp)
  obtain ⟨proj, hproj, hperm⟩ := h.project
  refine ⟨proj, cmp, hperm, hcmp, hdec, ?_⟩
  unfold syncAppState
  simp only [hop, hcmp, herr, List.length_nil, lt_irrefl, if_false, h.getCluster, h.newDynamicClient,
    h.newDiscoveryClient, hproj]

/-- A successful history record keeps the phase `sync` left. -/
theorem Env.Cooperative.syncAndRecord_phase_eq (sc : SyncContext) (revision : String) (st : OperationState)
    (syncRes : SyncOperationResult) :
    (syncAndRecord env sc syncOp revision st syncRes).1.phase = (sc.terminateOrSync st syncRes).1.phase := by
  unfold syncAndRecord
  generalize sc.terminateOrSync st syncRes = r
  dsimp only
  split
  · rw [h.persist]
  · rfl

variable {apply : SyncStrategyApply} {hook : Option SyncStrategyHook}
  (hstrat : syncOp.syncStrategy = some ⟨some apply, hook⟩)
include hstrat

/-- **The first cooperative tick** of a real operation with nothing recorded
compares, dry-runs its tasks, writing nothing, and applies them for real,
leaving the operation running and, when one of its tasks is recorded, a
non-empty resource list. -/
theorem syncAppState_first_of_cooperative (hop : state.operation.sync = some syncOp)
    (hdry : syncOp.dryRun = false) (hr : state.phase = .running)
    (hs : (state.syncResult.getD .empty).resources = [] ∧ (state.syncResult.getD .empty).hooks = [])
    (ht : ∀ revision cmp, env.compareAppState revision = .ok cmp → ∃ tasks,
      collectSyncTasks syncOp.resources cmp.resources = .ok tasks ∧ ∃ t ∈ tasks, t.recorded env.isHook = true) :
    ∃ syncTasks dry real, (syncAppState env app state).2 =
        [.compareAppState ((state.syncResult.getD .empty).compareRevision syncOp),
          .doApplySync syncTasks true dry, .doApplySync syncTasks false real] ∧
      dry.resources = [] ∧ real.resources ≠ [] ∧ (syncAppState env app state).1.phase = .running ∧
      ((syncAppState env app state).1.syncResult.getD .empty).resources = real.resources := by
  obtain ⟨proj, cmp, hperm, hcmp, -, heq⟩ := h.syncAppState_eq app hop
  obtain ⟨tasks, hcol, t, htm, htr⟩ := ht _ cmp hcmp
  have hsc : (env.syncContext app proj syncOp cmp).Cooperative := ⟨h.disco, hperm, h.apply, h.delete⟩
  have hg := env.generateSyncTasks_syncContext app proj hcol
  have hterm := terminateOrSync_of_ne_terminating
    { state with syncResult := some { state.syncResult.getD .empty with revision := cmp.manifestRevision } }
    (env.syncContext app proj syncOp cmp) { state.syncResult.getD .empty with revision := cmp.manifestRevision }
    (by rw [hr]; decide)
  obtain ⟨dry, real, heff, hdr, hne, hph, hres⟩ := sync_first_of_cooperative _
    ⟨state.phase, state.message, { state.syncResult.getD .empty with revision := cmp.manifestRevision }⟩
    hstrat hsc hdry hg ⟨t, (env.sortAlgo.perm _ _).mem_iff.mpr htm, htr⟩ hs
  rw [← hterm] at heff hph hres
  rw [heq]
  refine ⟨env.sortAlgo.sort (newKindSorter resourceOrder).less tasks, dry, real, ?_, hdr, hne, ?_, ?_⟩
  · rw [syncAndRecord_effects_of_not_successful _ _ _ _ _ _ (by rw [hph.trans hr]; rfl), heff]
  · rw [h.syncAndRecord_phase_eq]
    exact hph.trans hr
  · rw [syncAndRecord_syncResult, Option.getD_some, hres]

/-- **A cooperative tick once the sync phase has started succeeds.** -/
theorem syncAppState_succeeded_of_cooperative (hop : state.operation.sync = some syncOp)
    (hr : state.phase = .running) (hs : startedSyncPhase (state.syncResult.getD .empty) = true) :
    (syncAppState env app state).1.phase = .succeeded := by
  obtain ⟨proj, cmp, -, -, hdec, heq⟩ := h.syncAppState_eq app hop
  obtain ⟨tasks, hcol⟩ := @collectSyncTasks_ok syncOp.resources _ hdec
  have hg := env.generateSyncTasks_syncContext app proj hcol
  rw [heq]
  dsimp only
  rw [h.syncAndRecord_phase_eq, terminateOrSync_of_ne_terminating _ _ _ (by rw [hr]; decide)]
  exact sync_succeeded_of_startedSyncPhase _ _ hstrat hg hs

/-- **Under a cooperative cluster the apply strategy succeeds in two ticks.**
A real operation with the apply strategy, Running with nothing recorded,
whose first two ticks are cooperative and whose first comparison gives a
task that a real apply records (a prune, or a create whose target is not a
hook): the controller's loop runs exactly two invocations and leaves the
operation Succeeded. The first compares, dry-runs the tasks, writing
nothing, and applies them for real, recording them and leaving the
operation Running; the second finds the sync phase started. -/
theorem runWhileRunning_apply_succeeds {env₂ : Env} {envs : List Env} (h₂ : env₂.Cooperative)
    (hop : state.operation.sync = some syncOp) (hdry : syncOp.dryRun = false)
    (hr : state.phase = .running)
    (hs : (state.syncResult.getD .empty).resources = [] ∧ (state.syncResult.getD .empty).hooks = [])
    (ht : ∀ revision cmp, env.compareAppState revision = .ok cmp → ∃ tasks,
      collectSyncTasks syncOp.resources cmp.resources = .ok tasks ∧ ∃ t ∈ tasks, t.recorded env.isHook = true) :
    ∃ syncTasks dry real,
      (runWhileRunning app (env :: env₂ :: envs) state).2.head? =
        some [.compareAppState ((state.syncResult.getD .empty).compareRevision syncOp),
          .doApplySync syncTasks true dry, .doApplySync syncTasks false real] ∧
      dry.resources = [] ∧ real.resources ≠ [] ∧ (syncAppState env app state).1.phase = .running ∧
      ((syncAppState env app state).1.syncResult.getD .empty).resources = real.resources ∧
      (runWhileRunning app (env :: env₂ :: envs) state).1.phase = .succeeded ∧
      (runWhileRunning app (env :: env₂ :: envs) state).2.length = 2 := by
  obtain ⟨syncTasks, dry, real, heff, hdr, hne, hr1, hres⟩ :=
    syncAppState_first_of_cooperative h app hstrat hop hdry hr hs ht
  have hs1 : startedSyncPhase ((syncAppState env app state).1.syncResult.getD .empty) = true := by
    simp [startedSyncPhase, hres, List.length_pos.mpr hne]
  have hsucc := syncAppState_succeeded_of_cooperative h₂ app hstrat
    (syncAppState_operation_sync env app state hop) hr1 hs1
  rw [runWhileRunning_cons_of_running app hr, runWhileRunning_cons_of_running app hr1,
    runWhileRunning_of_not_running app (by rw [hsucc]; decide)]
  exact ⟨syncTasks, dry, real, by rw [← heff]; rfl, hdr, hne, hr1, hres, hsucc, rfl⟩

end Cooperative

/-- Two cooperative ticks on a `ConfigMap`, which a real apply records. -/
theorem runWhileRunning_apply_succeeds_configMap :
    let syncOp : SyncOperation := ⟨"HEAD", false, false, some ⟨some ⟨false⟩, none⟩, none⟩
    let env := acceptingEnv [targetState (coreObj "ConfigMap" "c")]
    env.Cooperative ∧
    ∃ syncTasks dry real,
      (runWhileRunning ⟨"default"⟩ [env, env] (runningState syncOp)).2.head? =
        some [.compareAppState (((runningState syncOp).syncResult.getD .empty).compareRevision syncOp),
          .doApplySync syncTasks true dry, .doApplySync syncTasks false real] ∧
      dry.resources = [] ∧ real.resources ≠ [] ∧
      (syncAppState env ⟨"default"⟩ (runningState syncOp)).1.phase = .running ∧
      ((syncAppState env ⟨"default"⟩ (runningState syncOp)).1.syncResult.getD .empty).resources =
        real.resources ∧
      (runWhileRunning ⟨"default"⟩ [env, env] (runningState syncOp)).1.phase = .succeeded ∧
      (runWhileRunning ⟨"default"⟩ [env, env] (runningState syncOp)).2.length = 2 :=
  have hc : (acceptingEnv [targetState (coreObj "ConfigMap" "c")]).Cooperative :=
    ⟨fun _ => ⟨_, rfl, rfl, fun rs hrs => by rw [List.mem_singleton.mp hrs]; exact ⟨⟨_, rfl⟩, _, rfl⟩⟩,
      rfl, rfl, rfl, ⟨_, rfl, fun _ _ => rfl⟩, fun _ => ⟨_, rfl⟩, fun _ _ _ _ => ⟨_, rfl⟩,
      fun _ _ => rfl, fun _ => rfl⟩
  ⟨hc, @runWhileRunning_apply_succeeds _ hc ⟨"default"⟩ _ _ ⟨false⟩ none rfl _ [] hc rfl rfl rfl
    ⟨rfl, rfl⟩ fun _ _ hcmp => by
      cases hcmp
      exact ⟨_, rfl, createTask (coreObj "ConfigMap" "c"), List.mem_singleton_self _, rfl⟩⟩

end ArgoSync
