import ArgoSync.Admission
import ArgoSync.Run
/-!
# What every run keeps

Whole-run properties of `SyncAppState`, each proved from one step lemma and
`runSyncAppState_safe`, so that they hold along any sequence of invocations,
whatever the collaborators answer and whatever the phase. The headline
results: under the apply strategy every real apply comes right after a
successful dry run of the same tasks (`runSyncAppState_dry_run_before_apply`),
and a partial sync deletes only objects its resource list names
(`runSyncAppState_partial_sync_calls`).
-/

namespace ArgoSync

variable (app : Application)

/-! ## The dry run before the real apply -/

section ApplyStrategy

variable {syncOp : SyncOperation} {apply : SyncStrategyApply} {hook : Option SyncStrategyHook}
  (hstrat : syncOp.syncStrategy = some ⟨some apply, hook⟩)
include hstrat

/-- Under the apply strategy an invocation keeps the hooks the sync result
records. -/
theorem syncAppState_hooks {env : Env} {state : OperationState}
    (hop : state.operation.sync = some syncOp) :
    ((syncAppState env app state).1.syncResult.getD .empty).hooks =
      (state.syncResult.getD .empty).hooks := by
  rcases syncAppState_cases env app state hop with ⟨_, sr, hsr, heq⟩ | ⟨proj, cmp, -, heq⟩ <;> rw [heq]
  · rcases hsr with ⟨rfl, -⟩ | ⟨cmp, -, rfl⟩ <;> rfl
  · dsimp only
    rw [syncAndRecord_syncResult, Option.getD_some, terminateOrSync_hooks _ _ _ hstrat]

/-- **An invocation under the apply strategy, with no hook recorded, applies
for real only right after a successful dry run of the same tasks**, and only
for a real operation. -/
theorem syncAppState_real_apply_after_dry_run {env : Env} {state : OperationState}
    (hop : state.operation.sync = some syncOp) (hh : (state.syncResult.getD .empty).hooks = [])
    {syncTasks : List SyncTask} {real : ApplyState}
    (he : .doApplySync syncTasks false real ∈ (syncAppState env app state).2) :
    syncOp.dryRun = false ∧ ∃ dry, dry.successful = true ∧
      [.doApplySync syncTasks true dry, .doApplySync syncTasks false real] <:+:
        (syncAppState env app state).2 := by
  rcases syncAppState_cases env app state hop with ⟨_, _, -, heq⟩ | ⟨proj, cmp, -, heq⟩ <;>
    rw [heq] at he ⊢
  · simp at he
  · rcases mem_syncAndRecord_effects _ _ _ _ _ _ (List.mem_of_ne_of_mem (by simp) he) with
      he | ⟨he, -⟩
    · rcases mem_terminateOrSync_effects _ _ _ he with ⟨-, _, he⟩ | ⟨hterm, he⟩
      · cases he
      obtain ⟨hd, dry, hdry, hs⟩ := sync_real_apply_after_dry_run _ _ _ hstrat hh he
      refine ⟨hd, dry, hdry, List.infix_cons ?_⟩
      rw [← hs, ← terminateOrSync_of_ne_terminating _ _ _ hterm]
      exact (isPrefix_syncAndRecord_effects ..).isInfix
    · cases he

/-- **Every real apply follows a successful dry run of the same tasks.**
Along any sequence of invocations on an operation with the apply strategy,
from a sync result that records no hook, whatever the collaborators answer
and whatever the phase: an invocation applies tasks for real only for a real
operation, and only right after a dry run of the same tasks, in the same
invocation, that succeeded. -/
theorem runSyncAppState_dry_run_before_apply {envs : List Env} {state : OperationState}
    (hop : state.operation.sync = some syncOp) (hh : (state.syncResult.getD .empty).hooks = []) :
    ∀ es ∈ (runSyncAppState app envs state).2, ∀ syncTasks real,
      .doApplySync syncTasks false real ∈ es → syncOp.dryRun = false ∧
        ∃ dry, dry.successful = true ∧
          [.doApplySync syncTasks true dry, .doApplySync syncTasks false real] <:+: es :=
  (runSyncAppState_safe app
    (fun state => state.operation.sync = some syncOp ∧ (state.syncResult.getD .empty).hooks = [])
    (fun es => ∀ syncTasks real, .doApplySync syncTasks false real ∈ es → syncOp.dryRun = false ∧
      ∃ dry, dry.successful = true ∧
        [.doApplySync syncTasks true dry, .doApplySync syncTasks false real] <:+: es)
    envs state
    (fun env _ state ⟨hop, hh⟩ => ⟨syncAppState_operation_sync env app state hop,
      (syncAppState_hooks app hstrat hop).trans hh⟩)
    (fun _ _ _ ⟨hop, hh⟩ _ _ he => syncAppState_real_apply_after_dry_run app hstrat hop hh he)
    ⟨hop, hh⟩).2

omit hstrat in
/-- Two invocations on a `ConfigMap` under the apply strategy. -/
theorem runSyncAppState_dry_run_before_apply_configMap :
    let syncOp : SyncOperation := ⟨"HEAD", false, false, some ⟨some ⟨false⟩, none⟩, none⟩
    let env := acceptingEnv [targetState (coreObj "ConfigMap" "c")]
    ∀ es ∈ (runSyncAppState ⟨"default"⟩ [env, env] (runningState syncOp)).2, ∀ syncTasks real,
      .doApplySync syncTasks false real ∈ es → syncOp.dryRun = false ∧
        ∃ dry, dry.successful = true ∧
          [.doApplySync syncTasks true dry, .doApplySync syncTasks false real] <:+: es :=
  @runSyncAppState_dry_run_before_apply ⟨"default"⟩ _ ⟨false⟩ none rfl _ _ rfl rfl

/-! ## The phase moves forward -/

/-- Under the apply strategy an invocation keeps the phase or completes the
operation. -/
theorem syncAppState_phase_of_apply {env : Env} {state : OperationState}
    (hop : state.operation.sync = some syncOp) :
    (syncAppState env app state).1.phase = state.phase ∨
      (syncAppState env app state).1.phase.completed = true := by
  rcases syncAppState_cases env app state hop with ⟨_, _, -, heq⟩ | ⟨proj, cmp, -, heq⟩ <;> rw [heq]
  · exact .inr rfl
  · dsimp only
    rcases syncAndRecord_phase env _ _ _ _ _ with h | h <;> rw [h]
    · exact terminateOrSync_phase_of_apply _ _ _ hstrat
    · exact .inr rfl

/-- Along any run under the apply strategy, the phase stays the one a state
has or one in which the operation is over. -/
theorem runSyncAppState_phase_of_apply (p : OperationPhase) (envs : List Env) {state : OperationState}
    (hop : state.operation.sync = some syncOp) (h : state.phase = p ∨ state.phase.completed = true) :
    (runSyncAppState app envs state).1.phase = p ∨
      (runSyncAppState app envs state).1.phase.completed = true :=
  runSyncAppState_keeps app (fun state => state.phase = p ∨ state.phase.completed = true)
    (fun _ _ hop h => show _ ∨ _ from
      (syncAppState_phase_of_apply app hstrat hop).elim (fun h' => h' ▸ h) .inr)
    envs hop h

/-- **The phase moves forward.** Along any sequence of invocations on an
operation with the apply strategy, whatever the collaborators answer: after
every invocation the phase is the one the run started in, or one in which the
operation is over; and once it is over it stays over. -/
theorem runSyncAppState_phase_forward {envs : List Env} {state : OperationState}
    (hop : state.operation.sync = some syncOp) {n m : Nat} (hnm : n ≤ m) :
    ((runSyncAppState app (envs.take n) state).1.phase = state.phase ∨
      (runSyncAppState app (envs.take n) state).1.phase.completed = true) ∧
    ((runSyncAppState app (envs.take n) state).1.phase.completed = true →
      (runSyncAppState app (envs.take m) state).1.phase.completed = true) := by
  refine ⟨runSyncAppState_phase_of_apply app hstrat _ (envs.take n) hop (.inl rfl), fun hc => ?_⟩
  have hopn : (runSyncAppState app (envs.take n) state).1.operation.sync = some syncOp := by
    rw [runSyncAppState_operation, hop]
  rw [← List.take_append_drop n (envs.take m), List.take_take, Nat.min_eq_left hnm,
    runSyncAppState_append]
  rcases runSyncAppState_phase_of_apply app hstrat _ _ hopn (.inl rfl) with h | h
  · rw [h]
    exact hc
  · exact h

omit hstrat in
/-- A `ConfigMap` under the apply strategy: the operation is over after the
second of three invocations, and stays over after the third. -/
theorem runSyncAppState_phase_forward_configMap :
    let syncOp : SyncOperation := ⟨"HEAD", false, false, some ⟨some ⟨false⟩, none⟩, none⟩
    let env := acceptingEnv [targetState (coreObj "ConfigMap" "c")]
    (runSyncAppState ⟨"default"⟩ ([env, env, env].take 2) (runningState syncOp)).1.phase = .succeeded ∧
    2 ≤ 3 ∧
    (((runSyncAppState ⟨"default"⟩ ([env, env, env].take 2) (runningState syncOp)).1.phase =
        (runningState syncOp).phase ∨
      (runSyncAppState ⟨"default"⟩ ([env, env, env].take 2) (runningState syncOp)).1.phase.completed = true) ∧
    ((runSyncAppState ⟨"default"⟩ ([env, env, env].take 2) (runningState syncOp)).1.phase.completed = true →
      (runSyncAppState ⟨"default"⟩ ([env, env, env].take 3) (runningState syncOp)).1.phase.completed = true)) :=
  ⟨by decide, by decide, @runSyncAppState_phase_forward ⟨"default"⟩ _ ⟨false⟩ none rfl _ _ rfl 2 3 (by decide)⟩

/-! ## Recorded outcomes stay unique -/

/-- Under the apply strategy an invocation keeps the recorded resources
unique by key. -/
theorem syncAppState_nodup_of_apply {env : Env} {state : OperationState}
    (hop : state.operation.sync = some syncOp)
    (h : (keys (state.syncResult.getD .empty).resources).Nodup) :
    (keys ((syncAppState env app state).1.syncResult.getD .empty).resources).Nodup := by
  rcases syncAppState_cases env app state hop with ⟨_, sr, hsr, heq⟩ | ⟨proj, cmp, -, heq⟩ <;> rw [heq]
  · rcases hsr with ⟨rfl, -⟩ | ⟨cmp, -, rfl⟩ <;> exact h
  · dsimp only
    rw [syncAndRecord_syncResult, Option.getD_some]
    exact terminateOrSync_nodup_of_apply _ _ _ hstrat h

/-- **Recorded outcomes stay unique by key.** Along any sequence of
invocations on an operation with the apply strategy, whatever the
collaborators answer, a sync result whose entries are unique by kind and
name keeps them unique. -/
theorem runSyncAppState_resources_unique {envs : List Env} {state : OperationState}
    (hop : state.operation.sync = some syncOp)
    (h : (keys (state.syncResult.getD .empty).resources).Nodup) :
    (keys ((runSyncAppState app envs state).1.syncResult.getD .empty).resources).Nodup :=
  runSyncAppState_keeps app (fun state => (keys (state.syncResult.getD .empty).resources).Nodup)
    (fun _ _ hop h => syncAppState_nodup_of_apply app hstrat hop h) envs hop h

omit hstrat in
/-- Two invocations on two `ConfigMap`s named `cm`, of namespaces `a` and `b`,
under the apply strategy: their writes share one key, and leave one entry. -/
theorem runSyncAppState_resources_unique_configMap :
    let syncOp : SyncOperation := ⟨"HEAD", false, false, some ⟨some ⟨false⟩, none⟩, none⟩
    let env := acceptingEnv [targetState ⟨"cm", "a", "", "v1", "ConfigMap", none, none⟩,
      targetState ⟨"cm", "b", "", "v1", "ConfigMap", none, none⟩]
    ((runSyncAppState ⟨"default"⟩ [env, env] (runningState syncOp)).1.syncResult.getD
      .empty).resources.length = 1 ∧
    (keys ((runSyncAppState ⟨"default"⟩ [env, env] (runningState syncOp)).1.syncResult.getD
      .empty).resources).Nodup :=
  ⟨by decide, @runSyncAppState_resources_unique ⟨"default"⟩ _ ⟨false⟩ none rfl _ _ rfl List.nodup_nil⟩

/-! ## Recorded outcomes are final -/

/-- Under the apply strategy, once the sync phase has started, an invocation
keeps the resource list and calls no `doApplySync`. -/
theorem syncAppState_of_startedSyncPhase {env : Env} {state : OperationState}
    (hop : state.operation.sync = some syncOp)
    (hs : startedSyncPhase (state.syncResult.getD .empty) = true) :
    ((syncAppState env app state).1.syncResult.getD .empty).resources =
      (state.syncResult.getD .empty).resources ∧
    ∀ syncTasks dryRun outcome, .doApplySync syncTasks dryRun outcome ∉ (syncAppState env app state).2 := by
  rcases syncAppState_cases env app state hop with ⟨_, _, hsr, heq⟩ | ⟨proj, cmp, -, heq⟩ <;> rw [heq]
  · refine ⟨?_, by simp⟩
    rcases hsr with ⟨rfl, -⟩ | ⟨cmp, -, rfl⟩ <;> rfl
  · have hs' : startedSyncPhase { state.syncResult.getD .empty with revision := cmp.manifestRevision } :=
      hs
    refine ⟨?_, fun syncTasks dryRun outcome he => ?_⟩
    · rw [syncAndRecord_syncResult, Option.getD_some,
        terminateOrSync_syncRes_of_startedSyncPhase _ _ _ hstrat hs']
    · rcases mem_syncAndRecord_effects _ _ _ _ _ _ (List.mem_of_ne_of_mem (by simp) he) with he | ⟨he, -⟩
      · obtain ⟨_, he⟩ := (terminateOrSync_of_startedSyncPhase _ _ _ hstrat hs').2 _ he
        cases he
      · cases he

/-- **Recorded outcomes are final.** Along any sequence of invocations on an
operation with the apply strategy, whatever the collaborators answer and
whatever the phase: once the sync phase has started (the resource list is
not empty, or a Sync or PostSync hook is recorded), the resource list stays
as it is, and no invocation calls `doApplySync` again, neither the dry run
nor the apply. -/
theorem runSyncAppState_entries_final {envs : List Env} {state : OperationState}
    (hop : state.operation.sync = some syncOp)
    (hs : startedSyncPhase (state.syncResult.getD .empty) = true) :
    ((runSyncAppState app envs state).1.syncResult.getD .empty).resources =
      (state.syncResult.getD .empty).resources ∧
    ∀ es ∈ (runSyncAppState app envs state).2, ∀ syncTasks dryRun outcome,
      .doApplySync syncTasks dryRun outcome ∉ es := by
  have h := runSyncAppState_safe app
    (fun st => st.operation.sync = some syncOp ∧ startedSyncPhase (st.syncResult.getD .empty) = true ∧
      (st.syncResult.getD .empty).resources = (state.syncResult.getD .empty).resources)
    (fun es => ∀ syncTasks dryRun outcome, .doApplySync syncTasks dryRun outcome ∉ es) envs state
    (fun env _ st ⟨hop, hs, hr⟩ => by
      obtain ⟨hr', -⟩ := syncAppState_of_startedSyncPhase app hstrat hop hs
      refine ⟨syncAppState_operation_sync env app st hop, ?_, hr'.trans hr⟩
      simpa only [startedSyncPhase, hr', syncAppState_hooks app hstrat hop] using hs)
    (fun _ _ _ ⟨hop, hs, _⟩ => (syncAppState_of_startedSyncPhase app hstrat hop hs).2)
    ⟨hop, hs, rfl⟩
  exact ⟨h.1.2.2, h.2⟩

omit hstrat in
/-- Two invocations on an operation whose sync result holds a `ConfigMap`'s
outcome. -/
theorem runSyncAppState_entries_final_configMap :
    let syncOp : SyncOperation := ⟨"HEAD", false, false, some ⟨some ⟨false⟩, none⟩, none⟩
    let state : OperationState := { runningState syncOp with
      syncResult := some ⟨[⟨"c", "ConfigMap", "default", "configured", .synced⟩], [], "abc"⟩ }
    let env := acceptingEnv [targetState (coreObj "ConfigMap" "c")]
    startedSyncPhase (state.syncResult.getD .empty) = true ∧
    ((runSyncAppState ⟨"default"⟩ [env, env] state).1.syncResult.getD .empty).resources =
      (state.syncResult.getD .empty).resources ∧
    ∀ es ∈ (runSyncAppState ⟨"default"⟩ [env, env] state).2, ∀ syncTasks dryRun outcome,
      .doApplySync syncTasks dryRun outcome ∉ es :=
  ⟨by decide, @runSyncAppState_entries_final ⟨"default"⟩ _ ⟨false⟩ none rfl _ _ rfl (by decide)⟩

end ApplyStrategy

/-! ## Partial sync -/

section Partial

variable {syncOp : SyncOperation} {rr : List SyncOperationResource}
  (hsel : syncOp.resources = some rr)
include hsel

/-- **One invocation of a partial sync touches only what it names**: it
deletes only objects the resource list names, and applies only objects it
names or targets of tasks whose live object it names. -/
theorem syncAppState_partial_calls {env : Env} {state : OperationState}
    (hop : state.operation.sync = some syncOp) {syncTasks : List SyncTask} {dryRun : Bool}
    {outcome : ApplyState} (he : .doApplySync syncTasks dryRun outcome ∈ (syncAppState env app state).2)
    {w : List ClusterCall} (hw : w ∈ outcome.waves) {c : ClusterCall} (hc : c ∈ w) :
    (∀ o, c = .delete o → containsSyncResource o.name o.groupVersionKind rr = true) ∧
    (∀ o d f, c = .apply o d f → containsSyncResource o.name o.groupVersionKind rr = true ∨
      ∃ t ∈ syncTasks, t.targetObj = some o ∧ ∃ l, t.liveObj = some l ∧
        containsSyncResource l.name l.groupVersionKind rr = true) := by
  obtain ⟨proj, cmp, hg, il, force, update, resources, rfl⟩ :=
    syncAppState_doApplySync env app state hop he
  have hsel' : ∀ t ∈ syncTasks, syncResourceSelected (some rr) t.liveObj t.targetObj = true :=
    fun t ht => hsel ▸ selected_of_mem_generateSyncTasks hg ht
  refine ⟨fun o ho => ?_, fun o d' f ho => ?_⟩
  · obtain ⟨-, -, t, ht, htg, hl⟩ := (doApplySync_calls _ il _ _ force update resources hw hc).1 o ho
    rcases syncResourceSelected_some_iff.mp (hsel' t ht) with ⟨o', hl', hn⟩ | ⟨o', htg', -⟩
    · rw [hl, Option.some.injEq] at hl'
      exact hl' ▸ hn
    · rw [htg] at htg'
      cases htg'
  · subst ho
    obtain ⟨n, hn, rfl⟩ := List.getElem_of_mem hw
    obtain ⟨t, ht, htg⟩ := List.mem_filterMap.mp
      (applied_group_head_admitted _ il _ _ force update resources ⟨hn, d', f, hc⟩).1
    rcases syncResourceSelected_some_iff.mp (hsel' t ht) with ⟨l, hl, hn⟩ | ⟨o', htg', hn⟩
    · exact .inr ⟨t, ht, htg, l, hl, hn⟩
    · rw [htg, Option.some.injEq] at htg'
      exact .inl (htg' ▸ hn)

/-- **A partial sync deletes only what it names.** Along any sequence of
invocations on an operation whose resource list is given, whatever the
collaborators answer: every object deleted is named in the list, and every
object applied is named in it or is the target of a task whose live object
it names. -/
theorem runSyncAppState_partial_sync_calls {envs : List Env} {state : OperationState}
    (hop : state.operation.sync = some syncOp) :
    ∀ es ∈ (runSyncAppState app envs state).2, ∀ syncTasks dryRun outcome,
      .doApplySync syncTasks dryRun outcome ∈ es → ∀ w ∈ outcome.waves, ∀ c ∈ w,
        (∀ o, c = .delete o → containsSyncResource o.name o.groupVersionKind rr = true) ∧
        (∀ o d f, c = .apply o d f → containsSyncResource o.name o.groupVersionKind rr = true ∨
          ∃ t ∈ syncTasks, t.targetObj = some o ∧ ∃ l, t.liveObj = some l ∧
            containsSyncResource l.name l.groupVersionKind rr = true) :=
  (runSyncAppState_safe app (fun state => state.operation.sync = some syncOp)
    (fun es => ∀ syncTasks dryRun outcome, .doApplySync syncTasks dryRun outcome ∈ es →
      ∀ w ∈ outcome.waves, ∀ c ∈ w,
        (∀ o, c = .delete o → containsSyncResource o.name o.groupVersionKind rr = true) ∧
        (∀ o d f, c = .apply o d f → containsSyncResource o.name o.groupVersionKind rr = true ∨
          ∃ t ∈ syncTasks, t.targetObj = some o ∧ ∃ l, t.liveObj = some l ∧
            containsSyncResource l.name l.groupVersionKind rr = true))
    envs state (fun env _ state hop => syncAppState_operation_sync env app state hop)
    (fun _ _ _ hop _ _ _ he _ hw _ hc => syncAppState_partial_calls app hsel hop he hw hc) hop).2

omit hsel in
/-- A pruning sync under the apply strategy that names the `ConfigMap` and the
`Secret` `s`, beside a `Secret` `t` it does not name: `s` is pruned, `t` is
left alone. -/
theorem runSyncAppState_partial_sync_calls_configMap :
    let rr : List SyncOperationResource := [⟨"", "ConfigMap", "c"⟩, ⟨"", "Secret", "s"⟩]
    let syncOp : SyncOperation := ⟨"HEAD", true, false, some ⟨some ⟨false⟩, none⟩, some rr⟩
    let env := acceptingEnv [targetState (coreObj "ConfigMap" "c"), liveState (coreObj "Secret" "s"),
      liveState (coreObj "Secret" "t")]
    ((findDetails ((runSyncAppState ⟨"default"⟩ [env, env] (runningState syncOp)).1.syncResult.getD
        .empty).resources ("Secret", "s")).map ResourceDetails.status = some .syncedAndPruned ∧
      findDetails ((runSyncAppState ⟨"default"⟩ [env, env] (runningState syncOp)).1.syncResult.getD
        .empty).resources ("Secret", "t") = none) ∧
    ∀ es ∈ (runSyncAppState ⟨"default"⟩ [env, env] (runningState syncOp)).2, ∀ syncTasks dryRun outcome,
      .doApplySync syncTasks dryRun outcome ∈ es → ∀ w ∈ outcome.waves, ∀ c ∈ w,
        (∀ o, c = .delete o → containsSyncResource o.name o.groupVersionKind rr = true) ∧
        (∀ o d f, c = .apply o d f → containsSyncResource o.name o.groupVersionKind rr = true ∨
          ∃ t ∈ syncTasks, t.targetObj = some o ∧ ∃ l, t.liveObj = some l ∧
            containsSyncResource l.name l.groupVersionKind rr = true) :=
  ⟨by decide, @runSyncAppState_partial_sync_calls ⟨"default"⟩ _ _ rfl _ _ rfl⟩

end Partial

/-! ## The history record -/

/-- **The controller's loop records the history at most once, as its very
last effect.** Whatever the strategy, the collaborators' answers and the
number of ticks: the effects of the loop, in order, are effects that record
no history, followed by at most one `persistDeploymentInfo`. An invocation
that records leaves the operation Succeeded, or in Error when the record
fails, and the loop stops there. -/
theorem runWhileRunning_history_recorded_last :
    ∀ (envs : List Env) (state : OperationState),
    ∃ pre, (∀ r, .persistDeploymentInfo r ∉ pre) ∧
      ((runWhileRunning app envs state).2.flatten = pre ∨
        ∃ r, (runWhileRunning app envs state).2.flatten = pre ++ [.persistDeploymentInfo r])
  | [], _ => ⟨[], by simp, .inl rfl⟩
  | env :: envs, state => by
    by_cases hr : state.phase = .running
    · rw [runWhileRunning_cons_of_running app hr, List.flatten_cons]
      obtain ⟨pre, hpre, h | ⟨r, h, hp⟩⟩ := syncAppState_history env app state <;> rw [h]
      · obtain ⟨pre', hpre', h'⟩ := runWhileRunning_history_recorded_last envs (syncAppState env app state).1
        refine ⟨pre ++ pre', fun r hr => (List.mem_append.mp hr).elim (hpre r) (hpre' r), ?_⟩
        rcases h' with h' | ⟨r', h'⟩ <;> rw [h']
        · exact .inl rfl
        · exact .inr ⟨r', (List.append_assoc _ _ _).symm⟩
      · rw [runWhileRunning_of_not_running app hp, List.flatten_nil, List.append_nil]
        exact ⟨pre, hpre, .inr ⟨r, rfl⟩⟩
    · rw [runWhileRunning_of_not_running app hr]
      exact ⟨[], by simp, .inl rfl⟩

/-! ## Cancellation -/

end ArgoSync
