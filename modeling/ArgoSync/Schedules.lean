import ArgoSync.Run
/-!
# The goroutine schedule

`doApplySync` runs each wave's goroutines concurrently, and the mutex lets
their writes through in whatever order they finish. The order matters to the
resource list: a key two writes share keeps the later one, and a new key
lands where its write arrives (`doApplySync_same_kind_name_lost`). This file
shows that it matters to nothing else. Under two schedules, from start lists
with the same keys, `doApplySync` makes the same calls, returns the same
result and leaves lists with the same keys (`doApplySync_schedule`), since
the keys after a write depend only on the keys before (`keys_foldl_perm`).
The phase tests of `sync` read only the lengths of the lists, so two runs of
`SyncAppState` whose collaborators answer alike but for the schedules stay
alike, invocation after invocation: the same phase, message, revision and
hooks, entries under the same keys, and alike effects, whose waves make the
same calls, each wave's in any order (`runSyncAppState_schedule_independent`).
-/

namespace ArgoSync

open scoped List

/-- Two sync statuses that differ at most in the order and the details of the
entries: the same phase, message, revision and hooks, and entries under the
same keys, in some order. -/
structure SyncStatus.Alike (s₁ s₂ : SyncStatus) : Prop where
  phase : s₁.phase = s₂.phase
  message : s₁.message = s₂.message
  revision : s₁.syncRes.revision = s₂.syncRes.revision
  hooks : s₁.syncRes.hooks = s₂.syncRes.hooks
  resources : keys s₁.syncRes.resources ~ keys s₂.syncRes.resources

/-- The status `sync` is given, read off an operation state. -/
def OperationState.status (state : OperationState) : SyncStatus :=
  ⟨state.phase, state.message, state.syncResult.getD .empty⟩

/-- Two operation states of the same operation whose statuses are alike. -/
structure OperationState.Alike (s₁ s₂ : OperationState) : Prop where
  operation : s₁.operation = s₂.operation
  status : s₁.status.Alike s₂.status

/-- An effect without the resource list a `doApplySync` left: what a
schedule leaves of it. -/
def Effect.withoutEntries : Effect → Effect
  | .compareAppState revision => .compareAppState revision
  | .doApplySync syncTasks dryRun outcome => .doApplySync syncTasks dryRun { outcome with resources := [] }
  | .doHookSync syncTasks => .doHookSync syncTasks
  | .deleteHook hook => .deleteHook hook
  | .persistDeploymentInfo revision => .persistDeploymentInfo revision

/-- Two effects alike but for what the schedule decides: `doApplySync`s of
the same tasks with the same flag and result whose waves make the same calls,
each wave's in any order, and otherwise the same effect. -/
def Effect.Alike : Effect → Effect → Prop
  | .doApplySync syncTasks₁ dryRun₁ o₁, .doApplySync syncTasks₂ dryRun₂ o₂ =>
    syncTasks₁ = syncTasks₂ ∧ dryRun₁ = dryRun₂ ∧ o₁.successful = o₂.successful ∧
      List.Forall₂ (· ~ ·) o₁.waves o₂.waves
  | e₁, e₂ => e₁ = e₂

/-- Effects equal once their resource lists are erased are alike. -/
theorem Effect.alike_of_withoutEntries_eq {e₁ e₂ : Effect} (h : e₁.withoutEntries = e₂.withoutEntries) :
    e₁.Alike e₂ := by
  cases e₁ <;> cases e₂ <;>
    simp only [Effect.withoutEntries, Effect.doApplySync.injEq, ApplyState.mk.injEq, reduceCtorEq] at h
  case doApplySync.doApplySync =>
    obtain ⟨rfl, rfl, -, hs, hw⟩ := h
    exact ⟨rfl, rfl, hs, hw ▸ List.forall₂_same.mpr fun w _ => .refl w⟩
  all_goals exact h

theorem forall₂_alike_of_map_withoutEntries {l₁ l₂ : List Effect}
    (h : l₁.map Effect.withoutEntries = l₂.map Effect.withoutEntries) : List.Forall₂ Effect.Alike l₁ l₂ := by
  induction l₁ generalizing l₂ with
  | nil => cases l₂ with
    | nil => exact .nil
    | cons _ _ => cases h
  | cons e₁ l₁ ih => cases l₂ with
    | nil => cases h
    | cons e₂ l₂ =>
      simp only [List.map_cons, List.cons.injEq] at h
      exact .cons (Effect.alike_of_withoutEntries_eq h.1) (ih h.2)

theorem withoutEntries_doApplySync {syncTasks : List SyncTask} {dryRun : Bool} {o₁ o₂ : ApplyState}
    (hw : o₁.waves = o₂.waves) (hs : o₁.successful = o₂.successful) :
    (Effect.doApplySync syncTasks dryRun o₁).withoutEntries =
      (Effect.doApplySync syncTasks dryRun o₂).withoutEntries := by
  simp only [Effect.withoutEntries, hw, hs]

namespace SyncStatus.Alike

variable {s₁ s₂ : SyncStatus} (h : s₁.Alike s₂)
include h

theorem setOperationPhase (phase : OperationPhase) (message : String) :
    (s₁.setOperationPhase phase message).Alike (s₂.setOperationPhase phase message) :=
  ⟨rfl, rfl, h.revision, h.hooks, h.resources⟩

theorem setResources {rs₁ rs₂ : List ResourceDetails} (hk : keys rs₁ ~ keys rs₂) :
    (s₁.setResources rs₁).Alike (s₂.setResources rs₂) :=
  ⟨h.phase, h.message, h.revision, h.hooks, hk⟩

theorem startedPreSyncPhase_eq : startedPreSyncPhase s₁.syncRes = startedPreSyncPhase s₂.syncRes := by
  simp only [startedPreSyncPhase, ← length_keys, h.resources.length_eq, h.hooks]

theorem startedSyncPhase_eq : startedSyncPhase s₁.syncRes = startedSyncPhase s₂.syncRes := by
  simp only [startedSyncPhase, ← length_keys, h.resources.length_eq, h.hooks]

end SyncStatus.Alike

theorem OperationState.Alike.setError {s₁ s₂ : OperationState} (h : s₁.Alike s₂) (message : String) :
    (s₁.setError message).Alike (s₂.setError message) :=
  ⟨h.operation, h.status.setOperationPhase .error message⟩

/-! ## One `doApplySync` -/

/-- **The schedule changes only the order of the writes**: under any two
interleavings, from start lists with the same keys, `doApplySync` makes the
same calls, returns the same result and leaves lists with the same keys. -/
theorem doApplySync_schedule (sc : SyncContext) (syncTasks : List SyncTask) (dryRun force update : Bool)
    (il₁ il₂ : Interleaving) {rs₁ rs₂ : List ResourceDetails} (h : keys rs₁ ~ keys rs₂) :
    (sc.doApplySync il₁ syncTasks dryRun force update rs₁).waves =
      (sc.doApplySync il₂ syncTasks dryRun force update rs₂).waves ∧
    (sc.doApplySync il₁ syncTasks dryRun force update rs₁).successful =
      (sc.doApplySync il₂ syncTasks dryRun force update rs₂).successful ∧
    keys (sc.doApplySync il₁ syncTasks dryRun force update rs₁).resources ~
      keys (sc.doApplySync il₂ syncTasks dryRun force update rs₂).resources := by
  obtain ⟨w₁, s₁, ws₁, hws₁, r₁⟩ := doApplySync_spec sc dryRun force update il₁ syncTasks rs₁
  obtain ⟨w₂, s₂, ws₂, hws₂, r₂⟩ := doApplySync_spec sc dryRun force update il₂ syncTasks rs₂
  rw [r₁, r₂]
  exact ⟨w₁.trans w₂.symm, s₁.trans s₂.symm, keys_foldl_perm (hws₁.trans hws₂.symm) h⟩

/-! ## `sync` under two schedules -/

section Sync

variable (sc : SyncContext) (σ : Bool → Interleaving) (syncTasks : List SyncTask)

/-- `processGroups` reads the schedule only through the interleaving it is
given. -/
theorem processGroups_with_schedule (dryRun force update : Bool) (il : Interleaving)
    (createTasks : List Unstructured) :
    ∀ st groups, ({ sc with schedule := σ } : SyncContext).processGroups dryRun force update il createTasks
      st groups = sc.processGroups dryRun force update il createTasks st groups
  | _, [] => rfl
  | st, [] :: groups => processGroups_with_schedule dryRun force update il createTasks st groups
  | st, (first :: rest) :: groups => by
    simp only [SyncContext.processGroups]
    rw [processGroups_with_schedule]
    rfl

theorem doApplySync_with_schedule :
    ({ sc with schedule := σ } : SyncContext).doApplySync = sc.doApplySync := by
  funext il syncTasks dryRun force update resources
  simp only [SyncContext.doApplySync, processGroups_with_schedule]
  rfl

variable {apply : SyncStrategyApply} {hook : Option SyncStrategyHook}
  (hstrat : sc.syncOp.syncStrategy = some ⟨some apply, hook⟩)
include hstrat

theorem syncStrategy_schedule {s₁ s₂ : SyncStatus} (h : s₁.Alike s₂) :
    (sc.syncStrategy syncTasks s₁).1.Alike ({ sc with schedule := σ }.syncStrategy syncTasks s₂).1 ∧
    (sc.syncStrategy syncTasks s₁).2.map Effect.withoutEntries =
      ({ sc with schedule := σ }.syncStrategy syncTasks s₂).2.map Effect.withoutEntries := by
  rw [syncStrategy_of_apply sc syncTasks s₁ hstrat,
    syncStrategy_of_apply { sc with schedule := σ } syncTasks s₂ hstrat, h.startedSyncPhase_eq]
  split
  · exact ⟨h.setOperationPhase _ _, rfl⟩
  · obtain ⟨hw, hs, hk⟩ := doApplySync_schedule sc syncTasks false apply.force true
      (sc.schedule false) (σ false) h.resources
    dsimp only
    simp only [doApplySync_with_schedule]
    rw [hs]
    refine ⟨?_, by simp only [List.map_cons, List.map_nil, withoutEntries_doApplySync hw hs]⟩
    split
    · exact h.setResources hk
    · exact (h.setResources hk).setOperationPhase _ _

/-- **`sync` under two schedules**, from alike statuses, leaves alike
statuses and has the same effects but for the lists its applies left. -/
theorem sync_schedule {s₁ s₂ : SyncStatus} (h : s₁.Alike s₂) :
    (sc.sync s₁).1.Alike ({ sc with schedule := σ }.sync s₂).1 ∧
    (sc.sync s₁).2.map Effect.withoutEntries =
      ({ sc with schedule := σ }.sync s₂).2.map Effect.withoutEntries := by
  have hg : ({ sc with schedule := σ } : SyncContext).generateSyncTasks = sc.generateSyncTasks := rfl
  unfold SyncContext.sync
  simp only [hg, h.startedPreSyncPhase_eq]
  cases sc.generateSyncTasks with
  | error message => exact ⟨h.setOperationPhase _ _, rfl⟩
  | ok syncTasks =>
    dsimp only
    split
    · exact ⟨h.setOperationPhase _ _, rfl⟩
    · split
      · obtain ⟨hw, hs, hk⟩ := doApplySync_schedule sc syncTasks true false sc.syncOp.dryRun
          (sc.schedule true) (σ true) h.resources
        simp only [doApplySync_with_schedule]
        rw [hs]
        have hd := h.setResources hk
        have he := @withoutEntries_doApplySync syncTasks true _ _ hw hs
        split
        · exact ⟨hd.setOperationPhase _ _, by simp only [List.map_cons, List.map_nil, he]⟩
        · split
          · exact ⟨hd.setOperationPhase _ _, by simp only [List.map_cons, List.map_nil, he]⟩
          · obtain ⟨h1, h2⟩ := syncStrategy_schedule sc σ syncTasks hstrat hd
            exact ⟨h1, by simp only [List.map_cons, he, h2]⟩
      · exact syncStrategy_schedule sc σ syncTasks hstrat h

theorem terminateOrSync_schedule {st₁ st₂ : OperationState} {r₁ r₂ : SyncOperationResult}
    (h : SyncStatus.Alike ⟨st₁.phase, st₁.message, r₁⟩ ⟨st₂.phase, st₂.message, r₂⟩) :
    (sc.terminateOrSync st₁ r₁).1.Alike ({ sc with schedule := σ }.terminateOrSync st₂ r₂).1 ∧
    (sc.terminateOrSync st₁ r₁).2.map Effect.withoutEntries =
      ({ sc with schedule := σ }.terminateOrSync st₂ r₂).2.map Effect.withoutEntries := by
  have hp : st₁.phase = st₂.phase := h.phase
  unfold SyncContext.terminateOrSync
  by_cases ht : st₁.phase = .terminating
  · rw [if_pos ht, if_pos (hp ▸ ht)]
    have hh : r₁.hooks = r₂.hooks := h.hooks
    exact ⟨h.setOperationPhase _ _, by simp only [SyncStatus.terminate, hh]⟩
  · rw [if_neg ht, if_neg (hp ▸ ht)]
    exact sync_schedule sc σ hstrat h

end Sync

/-! ## `SyncAppState` under two schedules -/

section Invocation

variable (env : Env) (σ : Bool → Interleaving) (app : Application)

theorem syncAndRecord_schedule (sc : SyncContext) (syncOp : SyncOperation) (revision : String)
    {apply : SyncStrategyApply} {hook : Option SyncStrategyHook}
    (hstrat : sc.syncOp.syncStrategy = some ⟨some apply, hook⟩) {st₁ st₂ : OperationState}
    {r₁ r₂ : SyncOperationResult} (hop : st₁.operation = st₂.operation)
    (h : SyncStatus.Alike ⟨st₁.phase, st₁.message, r₁⟩ ⟨st₂.phase, st₂.message, r₂⟩) :
    (syncAndRecord env sc syncOp revision st₁ r₁).1.Alike
      (syncAndRecord { env with schedule := σ } { sc with schedule := σ } syncOp revision st₂ r₂).1 ∧
    (syncAndRecord env sc syncOp revision st₁ r₁).2.map Effect.withoutEntries =
      (syncAndRecord { env with schedule := σ } { sc with schedule := σ } syncOp revision st₂ r₂).2.map
        Effect.withoutEntries := by
  obtain ⟨h1, h2⟩ := terminateOrSync_schedule sc σ hstrat h
  unfold syncAndRecord
  generalize sc.terminateOrSync st₁ r₁ = t₁ at h1 h2 ⊢
  generalize { sc with schedule := σ }.terminateOrSync st₂ r₂ = t₂ at h1 h2 ⊢
  have hs : OperationState.Alike
      { st₁ with phase := t₁.1.phase, message := t₁.1.message, syncResult := some t₁.1.syncRes }
      { st₂ with phase := t₂.1.phase, message := t₂.1.message, syncResult := some t₂.1.syncRes } :=
    ⟨hop, ⟨h1.phase, h1.message, h1.revision, h1.hooks, h1.resources⟩⟩
  dsimp only
  by_cases hc : (!syncOp.dryRun && (syncOp.resources.getD []).length = 0 && t₁.1.phase.successful) = true
  · rw [if_pos hc, if_pos (h1.phase ▸ hc)]
    cases env.persistDeploymentInfo revision <;> dsimp only
    · exact ⟨hs.setError _, by simp only [List.map_append, h2]⟩
    · exact ⟨hs, by simp only [List.map_append, h2]⟩
  · rw [if_neg hc, if_neg (h1.phase ▸ hc)]
    exact ⟨hs, h2⟩

variable {syncOp : SyncOperation} {apply : SyncStrategyApply} {hook : Option SyncStrategyHook}
  (hstrat : syncOp.syncStrategy = some ⟨some apply, hook⟩)
include hstrat

/-- **One invocation under two schedules**: from alike operation states,
with the same answers but for the schedule, alike states and the same
effects but for the lists the applies left. -/
theorem syncAppState_schedule {s₁ s₂ : OperationState} (hop : s₁.operation.sync = some syncOp)
    (h : s₁.Alike s₂) :
    (syncAppState env app s₁).1.Alike (syncAppState { env with schedule := σ } app s₂).1 ∧
    (syncAppState env app s₁).2.map Effect.withoutEntries =
      (syncAppState { env with schedule := σ } app s₂).2.map Effect.withoutEntries := by
  have hop₂ : s₂.operation.sync = some syncOp := h.operation ▸ hop
  have hrev : (s₁.syncResult.getD .empty).compareRevision syncOp =
      (s₂.syncResult.getD .empty).compareRevision syncOp := by
    simp only [SyncOperationResult.compareRevision, show (s₁.syncResult.getD .empty).revision =
      (s₂.syncResult.getD .empty).revision from h.status.revision]
  unfold syncAppState
  rw [hop, hop₂]
  dsimp only
  rw [← hrev]
  cases env.compareAppState ((s₁.syncResult.getD .empty).compareRevision syncOp) with
  | error err => exact ⟨⟨h.operation, h.status.setOperationPhase _ _⟩, rfl⟩
  | ok cmp =>
    dsimp only
    have hs : OperationState.Alike
        { s₁ with syncResult := some { s₁.syncResult.getD .empty with revision := cmp.manifestRevision } }
        { s₂ with syncResult := some { s₂.syncResult.getD .empty with revision := cmp.manifestRevision } } :=
      ⟨h.operation, ⟨h.status.phase, h.status.message, rfl, h.status.hooks, h.status.resources⟩⟩
    split
    · exact ⟨⟨h.operation, h.status.setOperationPhase _ _⟩, rfl⟩
    · cases env.getCluster <;> cases env.newDynamicClient <;> cases env.newDiscoveryClient <;>
        try dsimp only
      all_goals try exact ⟨hs.setError _, rfl⟩
      cases env.getAppProject with
      | error err => exact ⟨hs.setError _, rfl⟩
      | ok proj =>
        obtain ⟨h1, h2⟩ := syncAndRecord_schedule env σ (env.syncContext app proj syncOp cmp) syncOp
          cmp.manifestRevision hstrat hs.operation hs.status
        exact ⟨h1, by simp only [List.map_cons]; exact congrArg _ h2⟩

/-- **The goroutine schedule changes nothing but the entries.** Two
sequences of invocations on an operation with the apply strategy, from alike
states, whose collaborators answer alike at each invocation but for the
order in which the goroutines of each wave finish: after each invocation the
two states have the same operation, phase and message, the same resolved
revision and hooks, and entries under the same (kind, name) keys; and the
invocations have alike effects, one for one: the same comparisons, hook
calls and history records, and `doApplySync`s of the same tasks with the
same result whose waves make the same cluster calls, each wave's in any
order. -/
theorem runSyncAppState_schedule_independent {envs₁ envs₂ : List Env}
    (henv : List.Forall₂ (fun e₁ e₂ : Env => e₂ = { e₁ with schedule := e₂.schedule }) envs₁ envs₂)
    {s₁ s₂ : OperationState} (hop : s₁.operation.sync = some syncOp) (h : s₁.Alike s₂) :
    (runSyncAppState app envs₁ s₁).1.Alike (runSyncAppState app envs₂ s₂).1 ∧
    List.Forall₂ (List.Forall₂ Effect.Alike) (runSyncAppState app envs₁ s₁).2
      (runSyncAppState app envs₂ s₂).2 := by
  induction henv generalizing s₁ s₂ with
  | nil => exact ⟨h, .nil⟩
  | @cons e₁ e₂ _ _ he _ ih =>
    obtain ⟨h1, h2⟩ := syncAppState_schedule e₁ e₂.schedule app hstrat hop h
    rw [← he] at h1 h2
    obtain ⟨ih1, ih2⟩ := ih (syncAppState_operation_sync e₁ app s₁ hop) h1
    exact ⟨ih1, .cons (forall₂_alike_of_map_withoutEntries h2) ih2⟩

omit hstrat in
/-- Two invocations on two `ConfigMap`s, one wave of two goroutines, which
finish in task order in one run and in reverse in the other: the two runs
leave the entries in different orders. -/
theorem runSyncAppState_schedule_independent_reversed :
    let syncOp : SyncOperation := ⟨"HEAD", false, false, some ⟨some ⟨false⟩, none⟩, none⟩
    let env := acceptingEnv [targetState (coreObj "ConfigMap" "a"), targetState (coreObj "ConfigMap" "b")]
    let env' : Env := { env with schedule := fun _ => .reversed }
    List.Forall₂ (fun e₁ e₂ : Env => e₂ = { e₁ with schedule := e₂.schedule }) [env, env] [env', env'] ∧
    (runningState syncOp).Alike (runningState syncOp) ∧
    (runSyncAppState ⟨"default"⟩ [env, env] (runningState syncOp)).1.syncResult ≠
      (runSyncAppState ⟨"default"⟩ [env', env'] (runningState syncOp)).1.syncResult ∧
    (runSyncAppState ⟨"default"⟩ [env, env] (runningState syncOp)).1.Alike
      (runSyncAppState ⟨"default"⟩ [env', env'] (runningState syncOp)).1 ∧
    List.Forall₂ (List.Forall₂ Effect.Alike) (runSyncAppState ⟨"default"⟩ [env, env] (runningState syncOp)).2
      (runSyncAppState ⟨"default"⟩ [env', env'] (runningState syncOp)).2 :=
  have henv := .cons rfl (.cons rfl .nil)
  have h := ⟨rfl, ⟨rfl, rfl, rfl, rfl, List.Perm.refl _⟩⟩
  ⟨henv, h, by decide, @runSyncAppState_schedule_independent ⟨"default"⟩ _ ⟨false⟩ none rfl _ _ henv _ _ rfl h⟩

end Invocation

end ArgoSync
