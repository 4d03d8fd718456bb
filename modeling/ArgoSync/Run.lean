import ArgoSync.SyncStep
/-!
# Runs of `SyncAppState`

The controller calls `SyncAppState` again and again on one operation state.
What holds over every such run is proved once per property, from one step
lemma: an invariant every invocation keeps, under which what every
invocation calls is allowed (`runSyncAppState_safe`, `runWhileRunning_safe`).
The headline results: a remembered revision is compared at and kept by every
later invocation (`syncResult_revision_write_once`), and the cluster is
changed only as the operation allows (`runWhileRunning_mutates_as_allowed`).
-/

namespace ArgoSync

variable (app : Application)

/-! ## Invariants of runs -/

/-- **What every invocation keeps, every run keeps**, and what the effects of
every invocation where the invariant holds satisfy, the effects of every
invocation of the run satisfy. -/
theorem runSyncAppState_safe (inv : OperationState → Prop) (allowed : List Effect → Prop) :
    ∀ (envs : List Env) (state : OperationState),
    (∀ env ∈ envs, ∀ state, inv state → inv (syncAppState env app state).1) →
    (∀ env ∈ envs, ∀ state, inv state → allowed (syncAppState env app state).2) →
    inv state → inv (runSyncAppState app envs state).1 ∧
      ∀ es ∈ (runSyncAppState app envs state).2, allowed es
  | [], _, _, _, h => ⟨h, by simp [runSyncAppState]⟩
  | env :: envs, state, hp, he, h => by
    have ih := runSyncAppState_safe inv allowed envs _ (fun e h' => hp e (List.mem_cons_of_mem _ h'))
      (fun e h' => he e (List.mem_cons_of_mem _ h')) (hp env (List.mem_cons_self _ _) state h)
    simp only [runSyncAppState, List.mem_cons]
    exact ⟨ih.1, fun es hes => hes.elim (· ▸ he env (List.mem_cons_self _ _) state h) (ih.2 es)⟩

/-- **The controller's loop**: the same, where each invocation needs the
invariant only while the operation is Running, the only phase the loop
invokes in. -/
theorem runWhileRunning_safe (inv : OperationState → Prop) (allowed : List Effect → Prop) :
    ∀ (envs : List Env) (state : OperationState),
    (∀ env ∈ envs, ∀ state, state.phase = .running → inv state → inv (syncAppState env app state).1) →
    (∀ env ∈ envs, ∀ state, state.phase = .running → inv state →
      allowed (syncAppState env app state).2) →
    inv state → ∀ es ∈ (runWhileRunning app envs state).2, allowed es
  | [], _, _, _, _ => by simp [runWhileRunning]
  | env :: envs, state, hp, he, h => by
    unfold runWhileRunning
    split
    · rename_i hr
      have ih := runWhileRunning_safe inv allowed envs _ (fun e h' => hp e (List.mem_cons_of_mem _ h'))
        (fun e h' => he e (List.mem_cons_of_mem _ h')) (hp env (List.mem_cons_self _ _) state hr h)
      intro es hes
      rcases List.mem_cons.mp hes with rfl | hes
      · exact he env (List.mem_cons_self _ _) state hr h
      · exact ih es hes
    · simp

/-- A run keeps the operation. -/
theorem runSyncAppState_operation :
    ∀ (envs : List Env) (state : OperationState),
      (runSyncAppState app envs state).1.operation = state.operation
  | [], _ => rfl
  | env :: envs, state =>
    (runSyncAppState_operation envs _).trans (syncAppState_operation env app state)

/-- **What every invocation of one sync operation keeps, every run of it
keeps.** -/
theorem runSyncAppState_keeps {syncOp : SyncOperation} (inv : OperationState → Prop)
    (hp : ∀ env state, state.operation.sync = some syncOp → inv state →
      inv (syncAppState env app state).1)
    (envs : List Env) {state : OperationState} (hop : state.operation.sync = some syncOp)
    (h : inv state) : inv (runSyncAppState app envs state).1 :=
  (runSyncAppState_safe app (fun state => state.operation.sync = some syncOp ∧ inv state)
    (fun _ => True) envs state
    (fun env _ state ⟨hop, h⟩ => ⟨syncAppState_operation_sync env app state hop, hp env state hop h⟩)
    (fun _ _ _ _ => trivial) ⟨hop, h⟩).1.2

/-- Running the invocations of two lists is running those of the first and
then those of the second. -/
theorem runSyncAppState_append (envs₁ envs₂ : List Env) (state : OperationState) :
    (runSyncAppState app (envs₁ ++ envs₂) state).1 =
      (runSyncAppState app envs₂ (runSyncAppState app envs₁ state).1).1 := by
  induction envs₁ generalizing state with
  | nil => rfl
  | cons env envs ih => exact ih _

/-! ## Fixtures -/

/-- An operation that has not started: Running, with no sync result. -/
def runningState (syncOp : SyncOperation) : OperationState := ⟨⟨some syncOp⟩, .running, "", none⟩

/-- A resource state with a live object and no target: a prune task. -/
def liveState (o : Unstructured) : ResourceState :=
  ⟨.ok (some o), .ok none, fun _ _ hl _ => .inl (by cases hl; rfl)⟩

/-- The answers of an accepting cluster: the comparison resolves any revision
to itself, with these resource states and no conditions; the clients, the
project and the history record succeed; and the collaborators are those of
`acceptingContext`. -/
def acceptingEnv (resources : List ResourceState) : Env :=
  let sc := acceptingContext resources
  { compareAppState := fun revision => .ok ⟨revision, resources, []⟩
    formatAppConditions := fun _ => ""
    getCluster := .ok ()
    newDynamicClient := .ok ()
    newDiscoveryClient := .ok ()
    getAppProject := .ok sc.proj
    kubectl := sc.kubectl
    disco := sc.disco
    isHook := sc.isHook
    sortAlgo := sc.sortAlgo
    getHooks := sc.getHooks
    hookSync := sc.hookSync
    schedule := sc.schedule
    persistDeploymentInfo := fun _ => .ok () }

/-! ## The resolved revision -/

/-- **The revision is resolved on first entry.** An invocation on a sync
result that remembers no revision compares at the operation's requested
revision; once that comparison succeeds with no error condition, the sync
result it leaves remembers the revision the comparison resolved, whichever
exit the invocation takes, provided the hook code keeps it. -/
theorem syncAppState_resolves_revision {env : Env} {state : OperationState} {syncOp : SyncOperation}
    (hop : state.operation.sync = some syncOp) (hs : (state.syncResult.getD .empty).revision = "")
    (hk : env.hookSync.KeepsRevision) :
    (syncAppState env app state).2.head? = some (.compareAppState syncOp.revision) ∧
    ∀ cmp, env.compareAppState syncOp.revision = .ok cmp → cmp.conditions.filter (·.isError) = [] →
      (syncAppState env app state).1.syncResult.map (·.revision) = some cmp.manifestRevision := by
  have hcr : (state.syncResult.getD .empty).compareRevision syncOp = syncOp.revision := by
    simp [SyncOperationResult.compareRevision, hs]
  rcases syncAppState_cases env app state hop with ⟨message, sr, hsr, heq⟩ | ⟨proj, cmp, hc, heq⟩
  · rw [heq, hcr]
    refine ⟨rfl, fun cmp hc hcond => ?_⟩
    rcases hsr with ⟨-, hne⟩ | ⟨cmp', hc', rfl⟩
    · simpa [hcond] using hne cmp (hcr ▸ hc)
    · rw [hcr, hc] at hc'
      cases hc'
      rfl
  · rw [heq, hcr]
    refine ⟨rfl, fun cmp' hc' _ => ?_⟩
    rw [hcr, hc'] at hc
    cases hc
    simp [syncAndRecord_syncResult, terminateOrSync_revision _ (env.syncContext app proj syncOp cmp) _ hk]

/-- A first invocation at `HEAD`, which the comparison resolves to `abc123`. -/
theorem syncAppState_resolves_revision_head :
    let env : Env := { acceptingEnv [] with compareAppState := fun _ => .ok ⟨"abc123", [], []⟩ }
    let state := runningState ⟨"HEAD", false, false, none, none⟩
    env.hookSync.KeepsRevision ∧
    (syncAppState env ⟨"default"⟩ state).2.head? = some (.compareAppState "HEAD") ∧
    ∀ cmp, env.compareAppState "HEAD" = .ok cmp → cmp.conditions.filter (·.isError) = [] →
      (syncAppState env ⟨"default"⟩ state).1.syncResult.map (·.revision) = some cmp.manifestRevision :=
  have hk : HookSync.KeepsRevision ⟨fun _ _ _ => none, fun _ _ s => s⟩ := fun _ _ _ => rfl
  ⟨hk, @syncAppState_resolves_revision ⟨"default"⟩ _ _ ⟨"HEAD", false, false, none, none⟩ rfl rfl hk⟩

section Revision

variable {r : String} (hr : r ≠ "")
include hr

/-- **One invocation compares first at a remembered revision, and keeps
it**, when the comparison at it resolves to it and the hook code keeps it. -/
theorem syncAppState_keeps_revision (env : Env) {state : OperationState} {syncOp : SyncOperation}
    (hop : state.operation.sync = some syncOp) (hk : env.hookSync.KeepsRevision)
    (hcmp : ∀ cmp, env.compareAppState r = .ok cmp → cmp.manifestRevision = r)
    (hs : ∃ sr, state.syncResult = some sr ∧ sr.revision = r) :
    (∃ sr, (syncAppState env app state).1.syncResult = some sr ∧ sr.revision = r) ∧
    (syncAppState env app state).2.head? = some (.compareAppState r) ∧
    ∀ x, .compareAppState x ∈ (syncAppState env app state).2 → x = r := by
  obtain ⟨sr, hsr, hrev⟩ := hs
  have hcr : (state.syncResult.getD .empty).compareRevision syncOp = r := by
    simp [SyncOperationResult.compareRevision, hsr, hrev, hr]
  rcases syncAppState_cases env app state hop with ⟨message, sr', hsr', heq⟩ | ⟨proj, cmp, hc, heq⟩
  · rw [heq, hcr]
    refine ⟨⟨sr', rfl, ?_⟩, rfl, fun x he => ?_⟩
    · rcases hsr' with ⟨rfl, -⟩ | ⟨cmp, hc, rfl⟩
      · simp [hsr, hrev]
      · exact hcmp cmp (hcr ▸ hc)
    · cases List.mem_singleton.mp he
      rfl
  · rw [heq, hcr]
    refine ⟨⟨_, syncAndRecord_syncResult .., by
      rw [terminateOrSync_revision _ (env.syncContext app proj syncOp cmp) _ hk]; exact hcmp cmp (hcr ▸ hc)⟩, rfl, fun x he => ?_⟩
    rcases List.mem_cons.mp he with he | he
    · cases he; rfl
    · rcases mem_syncAndRecord_effects _ _ _ _ _ _ he with he | ⟨he, -⟩
      · exact absurd he (not_mem_terminateOrSync_effects ..).1
      · cases he

/-- **The resolved revision is written once.** From an operation state whose
sync result remembers a non-empty revision `r`, along any sequence of
invocations whatever each collaborator answers, provided the comparison at
`r` resolves to `r` and the hook code keeps the revision: every invocation
begins by comparing at `r` and compares at nothing else, never at the
operation's requested revision, and after every invocation the sync result
remembers `r`. -/
theorem syncResult_revision_write_once {envs : List Env} {state : OperationState}
    {syncOp : SyncOperation} (hop : state.operation.sync = some syncOp)
    (hs : ∃ sr, state.syncResult = some sr ∧ sr.revision = r)
    (hk : ∀ env ∈ envs, env.hookSync.KeepsRevision)
    (hcmp : ∀ env ∈ envs, ∀ cmp, env.compareAppState r = .ok cmp → cmp.manifestRevision = r) :
    (∀ es ∈ (runSyncAppState app envs state).2,
      es.head? = some (.compareAppState r) ∧ ∀ x, .compareAppState x ∈ es → x = r) ∧
    ∀ n, ∃ sr, (runSyncAppState app (envs.take n) state).1.syncResult = some sr ∧ sr.revision = r := by
  have hrun := fun envs' (hsub : ∀ env ∈ envs', env ∈ envs) =>
    runSyncAppState_safe app
      (fun state => state.operation.sync = some syncOp ∧ ∃ sr, state.syncResult = some sr ∧ sr.revision = r)
      (fun es => es.head? = some (.compareAppState r) ∧ ∀ x, .compareAppState x ∈ es → x = r) envs' state
      (fun env he state ⟨hop, hs⟩ => ⟨syncAppState_operation_sync env app state hop,
        (syncAppState_keeps_revision app hr env hop (hk env (hsub env he)) (hcmp env (hsub env he)) hs).1⟩)
      (fun env he state ⟨hop, hs⟩ =>
        (syncAppState_keeps_revision app hr env hop (hk env (hsub env he)) (hcmp env (hsub env he)) hs).2)
      ⟨hop, hs⟩
  exact ⟨(hrun envs fun _ h => h).2,
    fun n => (hrun (envs.take n) fun _ h => List.mem_of_mem_take h).1.2⟩

omit hr

/-- Two invocations of an operation that remembers `abc123`. -/
theorem syncResult_revision_write_once_abc :
    let state : OperationState :=
      { runningState ⟨"HEAD", false, false, none, none⟩ with syncResult := some ⟨[], [], "abc123"⟩ }
    let envs := [acceptingEnv [targetState (coreObj "ConfigMap" "c")], acceptingEnv []]
    (∀ es ∈ (runSyncAppState ⟨"default"⟩ envs state).2,
      es.head? = some (.compareAppState "abc123") ∧ ∀ x, .compareAppState x ∈ es → x = "abc123") ∧
    ∀ n, ∃ sr, (runSyncAppState ⟨"default"⟩ (envs.take n) state).1.syncResult = some sr ∧
      sr.revision = "abc123" :=
  syncResult_revision_write_once ⟨"default"⟩ (by decide) rfl ⟨_, rfl, rfl⟩
    (fun env he => by
      simp only [List.mem_cons, List.mem_singleton, List.not_mem_nil, or_false] at he
      rcases he with rfl | rfl <;> exact fun _ _ _ => rfl)
    fun env he cmp h => by
      simp only [List.mem_cons, List.mem_singleton, List.not_mem_nil, or_false] at he
      rcases he with rfl | rfl <;> (cases h; rfl)

end Revision

/-! ## What the cluster sees -/

section Mutation

/-- A prune task's live object is the object it prunes. -/
theorem SyncTask.pruneObj_eq_some {t : SyncTask} {o : Unstructured} :
    t.pruneObj = some o ↔ t.targetObj = none ∧ t.liveObj = some o := by
  unfold SyncTask.pruneObj
  split <;> simp_all

/-- **The flags of a call's cluster calls**: a delete only of a prune task's
live object, in a real run, when the operation prunes; an apply only with the
run's own `dryRun`. -/
theorem doApplySync_calls (sc : SyncContext) (il : Interleaving) (syncTasks : List SyncTask)
    (dryRun force update : Bool) (resources : List ResourceDetails) {w : List ClusterCall}
    {c : ClusterCall} (hw : w ∈ (sc.doApplySync il syncTasks dryRun force update resources).waves)
    (hc : c ∈ w) :
    (∀ o, c = .delete o → sc.syncOp.prune = true ∧ dryRun = false ∧
      ∃ t ∈ syncTasks, t.targetObj = none ∧ t.liveObj = some o) ∧
    (∀ o d f, c = .apply o d f → d = dryRun) := by
  obtain ⟨n, hn, rfl⟩ := List.getElem_of_mem hw
  rcases mem_doApplySync_waves sc il syncTasks dryRun force update resources hn hc with
    ⟨-, t, ht, o, hto, hp, hd, rfl⟩ | ⟨i, -, -, first, rest, -, rfl | ⟨-, t, -, -, rfl⟩⟩
  · refine ⟨fun o' ho => ?_, fun _ _ _ h => (by cases h)⟩
    cases ho
    exact ⟨hp, hd, t, ht, SyncTask.pruneObj_eq_some.mp hto⟩
  · exact ⟨fun _ h => (by cases h), fun _ _ _ h => (by cases h)⟩
  · exact ⟨fun _ h => (by cases h), fun _ _ _ h => (by cases h; rfl)⟩

/-- The cluster calls an effect makes are those the operation allows: a
delete only of the live object of a prune task, and only when the operation
prunes and is real; an apply with `dryRun` false, or the hand-over to the
hook code, only when the operation is real; and no delete of a hook's
resource. -/
def Allowed (syncOp : SyncOperation) : Effect → Prop
  | .doApplySync syncTasks _ outcome => ∀ w ∈ outcome.waves, ∀ c ∈ w,
      (∀ o, c = .delete o → syncOp.prune = true ∧ syncOp.dryRun = false ∧
        ∃ t ∈ syncTasks, t.targetObj = none ∧ t.liveObj = some o) ∧
      (∀ o force, c = .apply o false force → syncOp.dryRun = false)
  | .doHookSync _ => syncOp.dryRun = false
  | .deleteHook _ => False
  | _ => True

variable (env : Env) (state : OperationState) {syncOp : SyncOperation}
  (hop : state.operation.sync = some syncOp)
include hop

/-- **One invocation calls only what the operation allows**, when the
operation is not terminating, and is real or has nothing recorded yet. -/
theorem syncAppState_allowed (ht : state.phase ≠ .terminating)
    (h : syncOp.dryRun = false ∨ startedPreSyncPhase (state.syncResult.getD .empty) = false) :
    ∀ e ∈ (syncAppState env app state).2, Allowed syncOp e := by
  have hreal : ∀ {d : Bool}, (d = false → syncOp.dryRun = false ∨
      startedPreSyncPhase (state.syncResult.getD .empty) = true) → d = false → syncOp.dryRun = false :=
    fun hd h0 => (hd h0).elim id fun hs => h.elim id fun hs' => absurd (hs'.symm.trans hs) (by decide)
  rcases syncAppState_cases env app state hop with ⟨message, sr, -, heq⟩ | ⟨proj, cmp, -, heq⟩
  · rw [heq]
    intro e he
    rw [List.mem_singleton.mp he]
    trivial
  · rw [heq]
    intro e he
    rcases List.mem_cons.mp he with rfl | he
    · trivial
    rcases mem_syncAndRecord_effects _ _ _ _ _ _ he with he | ⟨rfl, -⟩
    · rcases mem_terminateOrSync_effects _ _ _ he with ⟨ht', -⟩ | ⟨-, he⟩
      · exact absurd ht' ht
      obtain ⟨syncTasks, -, ⟨d, il, force, update, resources, rfl, hd⟩ | ⟨rfl, hd⟩⟩ :=
        mem_sync_effects _ _ he
      · intro w hw c hc
        obtain ⟨hdel, happ⟩ := doApplySync_calls _ il syncTasks d force update resources hw hc
        exact ⟨fun o ho => let ⟨hp, hd0, ht⟩ := hdel o ho; ⟨hp, hreal hd hd0, ht⟩,
          fun o f ho => hreal hd (happ o false f ho).symm⟩
      · exact hreal (fun _ => hd) rfl
    · trivial

/-- **A dry-run operation ends in the invocation that dry-runs it**, from a
sync result with nothing recorded. -/
theorem syncAppState_phase_of_dryRun (hd : syncOp.dryRun = true) (hr : state.phase = .running)
    (hs : startedPreSyncPhase (state.syncResult.getD .empty) = false) :
    (syncAppState env app state).1.phase ≠ .running := by
  rcases syncAppState_cases env app state hop with ⟨message, sr, -, heq⟩ | ⟨proj, cmp, -, heq⟩
  · rw [heq]
    simp
  · rw [heq]
    dsimp only
    rw [syncAndRecord_phase_of_dryRun _ _ _ _ _ _ hd, terminateOrSync_of_ne_terminating]
    · exact sync_phase_of_dryRun _ _ hd hs
    · simp [hr]

omit hop

/-- **The cluster is changed only as the operation allows.** Along the
controller's loop on one operation, from a sync result with no resources
and no hooks, whatever the strategy and whatever the collaborators answer:
a delete is called only of the live object of a task with no target, and
only when the operation prunes and is real; an apply with `dryRun` false is
called only when the operation is real, by the apply strategy or by the hook
code; the hook code is entered only when the operation is real; and no
hook's resource is deleted. -/
theorem runWhileRunning_mutates_as_allowed {envs : List Env} (hop : state.operation.sync = some syncOp)
    (hstart : ∀ sr, state.syncResult = some sr → sr.resources = [] ∧ sr.hooks = []) :
    ∀ es ∈ (runWhileRunning app envs state).2, ∀ e ∈ es,
      (∀ syncTasks dryRun outcome, e = .doApplySync syncTasks dryRun outcome →
        ∀ w ∈ outcome.waves, ∀ c ∈ w,
          (∀ o, c = .delete o → syncOp.prune = true ∧ syncOp.dryRun = false ∧
            ∃ t ∈ syncTasks, t.targetObj = none ∧ t.liveObj = some o) ∧
          (∀ o force, c = .apply o false force → syncOp.dryRun = false)) ∧
      (∀ syncTasks, e = .doHookSync syncTasks → syncOp.dryRun = false) ∧
      ∀ hook, e ≠ .deleteHook hook := by
  have hs : startedPreSyncPhase (state.syncResult.getD .empty) = false := by
    cases hsr : state.syncResult with
    | none => rfl
    | some sr => simp [startedPreSyncPhase, hstart sr hsr]
  have hrun := runWhileRunning_safe app
    (fun state => state.operation.sync = some syncOp ∧ (syncOp.dryRun = false ∨
      startedPreSyncPhase (state.syncResult.getD .empty) = false ∨ state.phase ≠ .running))
    (fun es => ∀ e ∈ es, Allowed syncOp e) envs state
    (fun env _ state hr ⟨hop, h⟩ => ⟨syncAppState_operation_sync env app state hop, by
      rcases h with h | h | h
      · exact .inl h
      · cases hd : syncOp.dryRun
        · exact .inl rfl
        · exact .inr (.inr (syncAppState_phase_of_dryRun app env state hop hd hr h))
      · exact absurd hr h⟩)
    (fun env _ state hr ⟨hop, h⟩ => syncAppState_allowed app env state hop (by rw [hr]; decide)
      (h.imp_right fun h => h.resolve_right (not_not.mpr hr)))
    ⟨hop, .inr (.inl hs)⟩
  intro es hes e he
  have hall := hrun es hes e he
  refine ⟨fun syncTasks dryRun outcome h => by subst h; exact hall,
    fun syncTasks h => by subst h; exact hall, fun hook h => by subst h; exact hall⟩

/-- A pruning, real operation under the apply strategy, over a `ConfigMap` to
apply and a `Secret` to prune: its one invocation deletes the `Secret` and
applies the `ConfigMap` for real. -/
theorem runWhileRunning_mutates_as_allowed_prune :
    let syncOp : SyncOperation := ⟨"HEAD", true, false, some ⟨some ⟨false⟩, none⟩, none⟩
    let envs := [acceptingEnv [targetState (coreObj "ConfigMap" "c"), liveState (coreObj "Secret" "s")]]
    ∀ es ∈ (runWhileRunning ⟨"default"⟩ envs (runningState syncOp)).2, ∀ e ∈ es,
      (∀ syncTasks dryRun outcome, e = .doApplySync syncTasks dryRun outcome →
        ∀ w ∈ outcome.waves, ∀ c ∈ w,
          (∀ o, c = .delete o → syncOp.prune = true ∧ syncOp.dryRun = false ∧
            ∃ t ∈ syncTasks, t.targetObj = none ∧ t.liveObj = some o) ∧
          (∀ o force, c = .apply o false force → syncOp.dryRun = false)) ∧
      (∀ syncTasks, e = .doHookSync syncTasks → syncOp.dryRun = false) ∧
      ∀ hook, e ≠ .deleteHook hook :=
  runWhileRunning_mutates_as_allowed ⟨"default"⟩ (runningState _) rfl fun _ h => by cases h

end Mutation

/-! ## Progress of the apply strategy -/

/-- A `doApplySync` of one create task whose target is a hook, in an
admitted group, writes nothing and succeeds. -/
theorem doApplySync_hook_only (sc : SyncContext) (il : Interleaving) (dryRun force update : Bool)
    (resources : List ResourceDetails) {o : Unstructured} (hhook : sc.isHook o = true)
    (hadm : sc.groupVerdict dryRun [o] o.groupVersionKind = .admitted) :
    (sc.doApplySync il [createTask o] dryRun force update resources).resources = resources ∧
    (sc.doApplySync il [createTask o] dryRun force update resources).successful = true := by
  obtain ⟨-, hs, ws, hws, hres⟩ := doApplySync_spec sc dryRun force update il [createTask o] resources
  have hc : createObjs [createTask o] = [o] := rfl
  have hg : kindGroups [o] = [[o]] := rfl
  have hp : sc.pruneResults dryRun [createTask o] = [] := rfl
  have happ : sc.applyResults dryRun force [o] = [] := by simp [SyncContext.applyResults, hhook]
  have hW : sc.applyWrites dryRun force update [createTask o] = [] := by
    simp [SyncContext.applyWrites, hc, hg, hp, groupWrites_cons, hadm, happ, waveWrites]
  rw [hW, List.perm_nil] at hws
  refine ⟨by rw [hres, hws]; rfl, ?_⟩
  rw [hs, hc, hg, hp]
  simp [groupSucceeded_cons, hadm, happ]

/-- **A task list of hooks is applied again at every invocation.** For a
real operation with the apply strategy whose one task's target is a hook of
an admitted group-kind, from a status with no resources and no hooks,
`sync` dry-runs and really applies the task, both successfully, and returns
the status it was given: no record is left, `startedSyncPhase` stays false,
and every later invocation repeats the dry run and the real apply. -/
theorem sync_apply_repeats_for_hooks {sc : SyncContext} {o : Unstructured}
    {apply : SyncStrategyApply} {hook : Option SyncStrategyHook}
    (hdry : sc.syncOp.dryRun = false) (hstrat : sc.syncOp.syncStrategy = some ⟨some apply, hook⟩)
    (hgen : sc.generateSyncTasks = .ok [createTask o]) (hhook : sc.isHook o = true)
    (hadm : ∃ namespaced, sc.disco.serverResourceForGroupVersionKind o.groupVersionKind = .ok namespaced ∧
      sc.proj.isResourcePermitted ⟨o.group, o.kind⟩ namespaced = true)
    {s : SyncStatus} (hres : s.syncRes.resources = []) (hhooks : s.syncRes.hooks = []) :
    (sc.sync s).1 = s ∧ startedSyncPhase (sc.sync s).1.syncRes = false ∧
    (∀ n, (fun s => (sc.sync s).1)^[n] s = s) ∧
    ∃ dry real, (sc.sync s).2 = [.doApplySync [createTask o] true dry,
      .doApplySync [createTask o] false real] ∧ dry.successful = true ∧ real.successful = true := by
  have hv : ∀ d, sc.groupVerdict d [o] o.groupVersionKind = .admitted := fun d =>
    (groupVerdict_eq_admitted_iff sc d _).mpr hadm
  obtain ⟨hdr, hds⟩ := doApplySync_hook_only sc (sc.schedule true) true false false
    s.syncRes.resources hhook (hv true)
  obtain ⟨hrr, hrs⟩ := doApplySync_hook_only sc (sc.schedule false) false apply.force true
    s.syncRes.resources hhook (hv false)
  have hset : s.setResources s.syncRes.resources = s := rfl
  have hsp : startedSyncPhase s.syncRes = false := by simp [startedSyncPhase, hres, hhooks]
  have heq : sc.sync s = (s,
      [.doApplySync [createTask o] true
        (sc.doApplySync (sc.schedule true) [createTask o] true false false s.syncRes.resources),
       .doApplySync [createTask o] false
        (sc.doApplySync (sc.schedule false) [createTask o] false apply.force true s.syncRes.resources)]) := by
    have hpre : startedPreSyncPhase s.syncRes = false := by simp [startedPreSyncPhase, hres, hhooks]
    simp only [SyncContext.sync, hgen, hpre, hdr, hds, hset, hdry, List.length_singleton,
      Bool.not_false, Bool.not_true, if_true, if_false, Bool.false_eq_true, one_ne_zero]
    simp only [SyncContext.syncStrategy, hstrat, Option.getD_some, hsp, Bool.not_false, if_true,
      hrr, hrs, hset, Bool.not_true, Bool.false_eq_true, if_false]
  refine ⟨by rw [heq], by rw [heq]; exact hsp, fun n => Function.iterate_fixed (by rw [heq]) n,
    _, _, by rw [heq], hds, hrs⟩

/-- A hook `Pod` under the apply strategy. -/
theorem sync_apply_repeats_for_hooks_pod :
    let sc : SyncContext := { acceptingContext [targetState (coreObj "Pod" "hook")] with
      syncOp := ⟨"HEAD", false, false, some ⟨some ⟨false⟩, none⟩, none⟩, isHook := fun _ => true }
    let s : SyncStatus := ⟨.running, "", .empty⟩
    (sc.sync s).1 = s ∧ startedSyncPhase (sc.sync s).1.syncRes = false ∧
    (∀ n, (fun s => (sc.sync s).1)^[n] s = s) ∧
    ∃ dry real, (sc.sync s).2 = [.doApplySync [createTask (coreObj "Pod" "hook")] true dry,
      .doApplySync [createTask (coreObj "Pod" "hook")] false real] ∧
      dry.successful = true ∧ real.successful = true :=
  by
    intro sc s
    exact @sync_apply_repeats_for_hooks sc (coreObj "Pod" "hook") ⟨false⟩ none rfl rfl rfl rfl
      ⟨true, rfl, rfl⟩ s rfl rfl

/-- **Under the apply strategy a real apply that leaves an entry is not
repeated.** An invocation of `sync` that applies for real keeps the resource
list the apply leaves, and fails the operation when the apply fails; when
that list is not empty, the next invocation reports Succeeded and calls
nothing. -/
theorem sync_apply_then_succeeds {sc : SyncContext} {apply : SyncStrategyApply}
    {hook : Option SyncStrategyHook} (hstrat : sc.syncOp.syncStrategy = some ⟨some apply, hook⟩)
    {s : SyncStatus} {syncTasks : List SyncTask} {real : ApplyState}
    (he : .doApplySync syncTasks false real ∈ (sc.sync s).2) :
    (sc.sync s).1.syncRes.resources = real.resources ∧
    (real.successful = false → (sc.sync s).1.phase = .failed) ∧
    (real.resources ≠ [] →
      (sc.sync (sc.sync s).1).1.phase = .succeeded ∧ (sc.sync (sc.sync s).1).2 = []) := by
  obtain ⟨hg, hne, -⟩ := sync_of_real_apply sc syncTasks s he
  obtain ⟨hres, hfail⟩ := sync_real_apply_resources sc syncTasks s hstrat he
  refine ⟨hres, hfail, fun hr => ?_⟩
  have hsync : startedSyncPhase (sc.sync s).1.syncRes = true := by
    simp [startedSyncPhase, hres, List.length_pos.mpr hr]
  rw [sync_of_startedPreSyncPhase sc _ _ hg hne (startedPreSyncPhase_of_startedSyncPhase hsync),
    syncStrategy_of_apply sc _ _ hstrat, if_pos hsync]
  exact ⟨rfl, rfl⟩

/-- A `ConfigMap` under the apply strategy: applied once, then Succeeded. -/
theorem sync_apply_then_succeeds_configMap :
    let sc : SyncContext := { acceptingContext [targetState (coreObj "ConfigMap" "c")] with
      syncOp := ⟨"HEAD", false, false, some ⟨some ⟨false⟩, none⟩, none⟩ }
    let s : SyncStatus := ⟨.running, "", .empty⟩
    let real := sc.doApplySync .inOrder [createTask (coreObj "ConfigMap" "c")] false false true []
    .doApplySync [createTask (coreObj "ConfigMap" "c")] false real ∈ (sc.sync s).2 ∧
    (sc.sync s).1.syncRes.resources = real.resources ∧
    (real.successful = false → (sc.sync s).1.phase = .failed) ∧
    (real.resources ≠ [] →
      (sc.sync (sc.sync s).1).1.phase = .succeeded ∧ (sc.sync (sc.sync s).1).2 = []) := by
  intro sc s real
  have he : .doApplySync [createTask (coreObj "ConfigMap" "c")] false real ∈ (sc.sync s).2 :=
    List.mem_cons_of_mem _ (List.mem_singleton_self _)
  exact ⟨he, sync_apply_then_succeeds rfl he⟩

/-- One tick of the loop from Running. -/
theorem runWhileRunning_cons_of_running {state : OperationState} (h : state.phase = .running)
    (env : Env) (envs : List Env) :
    runWhileRunning app (env :: envs) state =
      ((runWhileRunning app envs (syncAppState env app state).1).1,
        (syncAppState env app state).2 :: (runWhileRunning app envs (syncAppState env app state).1).2) :=
  if_pos h

/-- The loop does nothing from a phase other than Running. -/
theorem runWhileRunning_of_not_running {state : OperationState} (h : state.phase ≠ .running) :
    ∀ envs, runWhileRunning app envs state = (state, [])
  | [] => rfl
  | _ :: _ => if_neg h

section Stop

variable {syncOp : SyncOperation} {apply : SyncStrategyApply} {hook : Option SyncStrategyHook}
  (hstrat : syncOp.syncStrategy = some ⟨some apply, hook⟩)
include hstrat

/-- An invocation whose real apply runs under the apply strategy leaves the
resource list that apply left. -/
theorem syncAppState_real_apply {env : Env} {state : OperationState}
    (hop : state.operation.sync = some syncOp) {syncTasks : List SyncTask} {real : ApplyState}
    (he : .doApplySync syncTasks false real ∈ (syncAppState env app state).2) :
    ∃ sr, (syncAppState env app state).1.syncResult = some sr ∧ sr.resources = real.resources := by
  rcases syncAppState_cases env app state hop with ⟨_, _, -, heq⟩ | ⟨proj, cmp, -, heq⟩ <;>
    rw [heq] at he ⊢
  · simp at he
  · rcases mem_syncAndRecord_effects _ _ _ _ _ _ (List.mem_of_ne_of_mem (by simp) he) with
      he | ⟨he, -⟩
    · rcases mem_terminateOrSync_effects _ _ _ he with ⟨-, _, he⟩ | ⟨hterm, he⟩
      · cases he
      refine ⟨_, syncAndRecord_syncResult .., ?_⟩
      rw [terminateOrSync_of_ne_terminating _ _ _ hterm]
      exact (sync_real_apply_resources _ _ _ hstrat he).1
    · cases he

/-- An invocation under the apply strategy on a sync result with resources
ends the operation, and applies nothing for real. -/
theorem syncAppState_of_resources {env : Env} {state : OperationState}
    (hop : state.operation.sync = some syncOp)
    (hs : ∃ sr, state.syncResult = some sr ∧ sr.resources ≠ []) :
    (syncAppState env app state).1.phase ≠ .running ∧
    ∀ syncTasks real, .doApplySync syncTasks false real ∉ (syncAppState env app state).2 := by
  obtain ⟨sr, hsr, hne⟩ := hs
  rcases syncAppState_cases env app state hop with ⟨_, _, -, heq⟩ | ⟨proj, cmp, -, heq⟩ <;> rw [heq]
  · simp
  · have hs : startedSyncPhase { state.syncResult.getD .empty with revision := cmp.manifestRevision } :=
      by simp [startedSyncPhase, hsr, List.length_pos.mpr hne]
    obtain ⟨hph, heff⟩ := terminateOrSync_of_startedSyncPhase
      { state with
        syncResult := some { state.syncResult.getD .empty with revision := cmp.manifestRevision } }
      (env.syncContext app proj syncOp cmp) _ hstrat hs
    refine ⟨?_, fun syncTasks real he => ?_⟩
    · rcases syncAndRecord_phase env _ _ _ _ _ with h | h <;> rw [h]
      · exact hph
      · decide
    · rcases mem_syncAndRecord_effects _ _ _ _ _ _ (List.mem_of_ne_of_mem (by simp) he) with
        he | ⟨he, -⟩
      · obtain ⟨_, he⟩ := heff _ he
        cases he
      · cases he

/-- An invocation under the apply strategy leaves the operation running only
after a real apply that succeeded. -/
theorem syncAppState_running_of_apply {env : Env} {state : OperationState}
    (hop : state.operation.sync = some syncOp) (h : (syncAppState env app state).1.phase = .running) :
    ∃ syncTasks real, .doApplySync syncTasks false real ∈ (syncAppState env app state).2 ∧
      real.successful = true := by
  rcases syncAppState_cases env app state hop with ⟨_, _, -, heq⟩ | ⟨proj, cmp, -, heq⟩ <;>
    rw [heq] at h ⊢
  · simp at h
  · dsimp only at h
    rcases syncAndRecord_phase env _ _ _ _ _ with hp | hp <;> rw [hp] at h
    · obtain ⟨syncTasks, real, he, hs⟩ := terminateOrSync_running_of_apply _ _ _ hstrat h
      exact ⟨syncTasks, real,
        List.mem_cons_of_mem _ ((isPrefix_syncAndRecord_effects ..).subset he), hs⟩
    · cases h

/-- **Under the apply strategy the loop ends right after a real apply that
leaves an entry.** Along the controller's loop on an operation with the
apply strategy, whatever the collaborators answer at each tick, an
invocation whose real apply leaves a non-empty resource list is followed by
at most one more invocation, and that one applies nothing for real. -/
theorem runWhileRunning_stops_after_apply {envs : List Env} {state : OperationState}
    (hop : state.operation.sync = some syncOp) {k : Nat} {es : List Effect}
    (hk : (runWhileRunning app envs state).2[k]? = some es) {syncTasks : List SyncTask}
    {real : ApplyState} (he : .doApplySync syncTasks false real ∈ es) (hne : real.resources ≠ []) :
    (runWhileRunning app envs state).2.length ≤ k + 2 ∧
    ∀ es', (runWhileRunning app envs state).2[k + 1]? = some es' →
      ∀ syncTasks' real', .doApplySync syncTasks' false real' ∉ es' := by
  induction envs generalizing state k with
  | nil => simp [runWhileRunning] at hk
  | cons env envs ih =>
    by_cases hr : state.phase = .running
    · have hop1 := syncAppState_operation_sync env app state hop
      simp only [runWhileRunning_cons_of_running app hr, List.length_cons] at hk ⊢
      cases k with
      | zero =>
        simp only [List.getElem?_cons_zero, Option.some.injEq] at hk
        subst hk
        obtain ⟨sr, hsr, hres⟩ := syncAppState_real_apply app hstrat hop he
        cases envs with
        | nil => simp [runWhileRunning]
        | cons env' envs' =>
          obtain ⟨hph, hnone⟩ := @syncAppState_of_resources app _ _ _ hstrat env' _ hop1
            ⟨sr, hsr, hres ▸ hne⟩
          by_cases hr1 : (syncAppState env app state).1.phase = .running
          · simp [runWhileRunning_cons_of_running app hr1, runWhileRunning_of_not_running app hph, hnone]
          · simp [runWhileRunning_of_not_running app hr1]
      | succ k =>
        obtain ⟨hlen, hnext⟩ := ih hop1 (by simpa using hk)
        exact ⟨by omega, by simpa using hnext⟩
    · simp [runWhileRunning_of_not_running app hr] at hk

/-- **The loop runs on only while real applies record nothing.** Along the
controller's loop on an operation with the apply strategy, whatever the
collaborators answer at each tick: when two more invocations follow
invocation `k`, invocation `k` applied for real, the apply returned true, and
it left the resource list empty. -/
theorem runWhileRunning_runs_on_without_entries {envs : List Env} {state : OperationState}
    (hop : state.operation.sync = some syncOp) {k : Nat} {es : List Effect}
    (hk : (runWhileRunning app envs state).2[k]? = some es)
    (hlen : k + 2 < (runWhileRunning app envs state).2.length) :
    ∃ syncTasks real, .doApplySync syncTasks false real ∈ es ∧ real.successful = true ∧
      real.resources = [] := by
  induction envs generalizing state k with
  | nil => simp [runWhileRunning] at hk
  | cons env envs ih =>
    by_cases hr : state.phase = .running
    · have hop1 := syncAppState_operation_sync env app state hop
      simp only [runWhileRunning_cons_of_running app hr, List.length_cons] at hk hlen
      cases k with
      | zero =>
        simp only [List.getElem?_cons_zero, Option.some.injEq] at hk
        subst hk
        have hr1 : (syncAppState env app state).1.phase = .running := by
          by_contra hr1
          simp [runWhileRunning_of_not_running app hr1] at hlen
        obtain ⟨syncTasks, real, he, hs⟩ := syncAppState_running_of_apply app hstrat hop hr1
        refine ⟨syncTasks, real, he, hs, ?_⟩
        by_contra hne
        obtain ⟨sr, hsr, hres⟩ := syncAppState_real_apply app hstrat hop he
        cases envs with
        | nil => simp [runWhileRunning] at hlen
        | cons env' envs' =>
          obtain ⟨hph, -⟩ := @syncAppState_of_resources app _ _ _ hstrat env' _ hop1
            ⟨sr, hsr, hres ▸ hne⟩
          simp [runWhileRunning_cons_of_running app hr1, runWhileRunning_of_not_running app hph] at hlen
      | succ k => exact ih hop1 (by simpa using hk) (by omega)
    · simp [runWhileRunning_of_not_running app hr] at hk

end Stop

/-- Three ticks of a `ConfigMap` under the apply strategy: the dry run and
the real apply, then Succeeded, then nothing. -/
theorem runWhileRunning_stops_after_apply_configMap :
    let syncOp : SyncOperation := ⟨"HEAD", false, false, some ⟨some ⟨false⟩, none⟩, none⟩
    let env := acceptingEnv [targetState (coreObj "ConfigMap" "c")]
    let state := runningState syncOp
    let run := runWhileRunning ⟨"default"⟩ [env, env, env] state
    let real := (env.syncContext ⟨"default"⟩ permissiveProject syncOp
      ⟨"HEAD", [targetState (coreObj "ConfigMap" "c")], []⟩).doApplySync .inOrder
      [createTask (coreObj "ConfigMap" "c")] false false true []
    run.2[0]? = some (syncAppState env ⟨"default"⟩ state).2 ∧
    .doApplySync [createTask (coreObj "ConfigMap" "c")] false real ∈
      (syncAppState env ⟨"default"⟩ state).2 ∧
    real.resources ≠ [] ∧ run.2.length ≤ 0 + 2 ∧
    ∀ es', run.2[0 + 1]? = some es' →
      ∀ syncTasks' real', .doApplySync syncTasks' false real' ∉ es' := by
  intro syncOp env state run real
  have hk : run.2[0]? = some (syncAppState env ⟨"default"⟩ state).2 := by
    show (runWhileRunning ⟨"default"⟩ (env :: [env, env]) state).2[0]? = _
    rw [@runWhileRunning_cons_of_running ⟨"default"⟩ state rfl, List.getElem?_cons_zero]
  have he : .doApplySync [createTask (coreObj "ConfigMap" "c")] false real ∈
      (syncAppState env ⟨"default"⟩ state).2 :=
    List.mem_cons_of_mem _ (List.mem_cons_of_mem _ (List.mem_singleton_self _))
  have hne : real.resources ≠ [] := List.ne_nil_of_length_pos (by decide)
  exact ⟨hk, he, hne, @runWhileRunning_stops_after_apply ⟨"default"⟩ syncOp ⟨false⟩ none rfl
    [env, env, env] state rfl 0 _ hk _ _ he hne⟩

/-- Three ticks of a `Pod` that is a hook, under the apply strategy: each
dry-runs and applies it, records nothing, and leaves the operation
running. -/
theorem runWhileRunning_runs_on_without_entries_pod :
    let syncOp : SyncOperation := ⟨"HEAD", false, false, some ⟨some ⟨false⟩, none⟩, none⟩
    let env : Env := { acceptingEnv [targetState (coreObj "Pod" "p")] with isHook := fun _ => true }
    let state := runningState syncOp
    let run := runWhileRunning ⟨"default"⟩ [env, env, env] state
    run.2[0]? = some (syncAppState env ⟨"default"⟩ state).2 ∧ 0 + 2 < run.2.length ∧
    ∃ syncTasks real, .doApplySync syncTasks false real ∈ (syncAppState env ⟨"default"⟩ state).2 ∧
      real.successful = true ∧ real.resources = [] := by
  intro syncOp env state run
  have hk : run.2[0]? = some (syncAppState env ⟨"default"⟩ state).2 := by
    show (runWhileRunning ⟨"default"⟩ (env :: [env, env]) state).2[0]? = _
    rw [@runWhileRunning_cons_of_running ⟨"default"⟩ state rfl, List.getElem?_cons_zero]
  have hlen : 0 + 2 < run.2.length := by decide
  exact ⟨hk, hlen, @runWhileRunning_runs_on_without_entries ⟨"default"⟩ syncOp ⟨false⟩ none rfl
    [env, env, env] state rfl 0 _ hk hlen⟩

/-! ## The history record -/

/-- **The history is recorded without a task for every resource state.** A
real operation whose resource list is empty but not nil selects no task: at
every decodable resource state of the comparison `generateSyncTasks` keeps
nothing, `sync` succeeds with no manifests, and `SyncAppState`, which reads
the empty list as a full sync, records the deployment. -/
theorem persist_without_every_task {env : Env} {state : OperationState} {syncOp : SyncOperation}
    {cmp : ComparisonOutcome} {proj : AppProject}
    (hop : state.operation.sync = some syncOp) (hsel : syncOp.resources = some [])
    (hdry : syncOp.dryRun = false) (hrun : state.phase = .running)
    (hcmp : env.compareAppState ((state.syncResult.getD .empty).compareRevision syncOp) = .ok cmp)
    (hcond : cmp.conditions.filter (·.isError) = [])
    (hcl : env.getCluster = .ok ()) (hdyn : env.newDynamicClient = .ok ())
    (hdisc : env.newDiscoveryClient = .ok ()) (hproj : env.getAppProject = .ok proj)
    (hstates : ∀ rs ∈ cmp.resources, ∃ l t, rs.liveObject = .ok l ∧ rs.targetObject = .ok t) :
    (env.syncContext app proj syncOp cmp).generateSyncTasks = .ok [] ∧
    .persistDeploymentInfo cmp.manifestRevision ∈ (syncAppState env app state).2 := by
  have hgen : (env.syncContext app proj syncOp cmp).generateSyncTasks = .ok [] := by
    simp only [SyncContext.generateSyncTasks, Env.syncContext, hsel,
      collectSyncTasks_nil_selection _ hstates]
    simp [Functor.map, Except.map]
  refine ⟨hgen, ?_⟩
  simp only [syncAppState, hop, hcmp, hcond, hcl, hdyn, hdisc, hproj, List.length_nil, lt_self_iff_false,
    if_false]
  simp only [syncAndRecord, SyncContext.terminateOrSync, hrun, SyncContext.sync, hgen, hsel, hdry]
  simp [OperationPhase.successful]
  cases env.persistDeploymentInfo cmp.manifestRevision <;> simp

/-- One ConfigMap and an empty, non-nil resource list: no task, and the
deployment is recorded. -/
theorem persist_without_every_task_configMap :
    let env := acceptingEnv [targetState (coreObj "ConfigMap" "c")]
    let syncOp : SyncOperation := ⟨"HEAD", false, false, none, some []⟩
    (env.syncContext ⟨"default"⟩ permissiveProject syncOp
      ⟨"HEAD", [targetState (coreObj "ConfigMap" "c")], []⟩).generateSyncTasks = .ok [] ∧
    .persistDeploymentInfo "HEAD" ∈ (syncAppState env ⟨"default"⟩ (runningState syncOp)).2 :=
  persist_without_every_task ⟨"default"⟩ rfl rfl rfl rfl rfl rfl rfl rfl rfl rfl fun rs h => by
    rw [List.mem_singleton.mp h]
    exact ⟨_, _, rfl, rfl⟩

/-- **The deployment is recorded only after a full, real sync.** An
invocation that records a deployment runs a real operation whose resource
list is nil or empty, on an operation that is not terminating; it records
the revision the comparison resolved; and `sync` generated its tasks on the
context it built, one for every resource state of the comparison when the
list is nil. -/
theorem persist_only_after_sync {env : Env} {state : OperationState} {syncOp : SyncOperation}
    {revision : String} (hop : state.operation.sync = some syncOp)
    (he : .persistDeploymentInfo revision ∈ (syncAppState env app state).2) :
    syncOp.dryRun = false ∧ (syncOp.resources.getD []).length = 0 ∧ state.phase ≠ .terminating ∧
    ∃ proj cmp syncTasks,
      env.compareAppState ((state.syncResult.getD .empty).compareRevision syncOp) = .ok cmp ∧
      revision = cmp.manifestRevision ∧
      (env.syncContext app proj syncOp cmp).generateSyncTasks = .ok syncTasks ∧
      (syncOp.resources = none → syncTasks.length = cmp.resources.length) := by
  rcases syncAppState_cases env app state hop with ⟨_, _, -, heq⟩ | ⟨proj, cmp, hc, heq⟩
  · rw [heq] at he
    simp at he
  · rw [heq] at he
    rcases mem_syncAndRecord_effects _ _ _ _ _ _ (List.mem_of_ne_of_mem (by simp) he) with
      he | ⟨hrev, hd, hlen, hph⟩
    · exact absurd he (not_mem_terminateOrSync_effects _ _ _).2
    · obtain ⟨hterm, syncTasks, hg⟩ := terminateOrSync_succeeded _ _ _ hph
      cases hrev
      refine ⟨hd, hlen, hterm, proj, cmp, syncTasks, hc, rfl, hg, fun hsel => ?_⟩
      obtain ⟨l, hl, rfl⟩ := generateSyncTasks_eq_ok hg
      rw [(SortAlgo.perm _ _ _).length_eq]
      exact length_collectSyncTasks_none (by simpa [Env.syncContext, hsel] using hl)

/-- The second invocation of an applied `ConfigMap` records the deployment. -/
theorem persist_only_after_sync_configMap :
    let env := acceptingEnv [targetState (coreObj "ConfigMap" "c")]
    let syncOp : SyncOperation := ⟨"HEAD", false, false, some ⟨some ⟨false⟩, none⟩, none⟩
    let state : OperationState := { runningState syncOp with
      syncResult := some ⟨[⟨"c", "ConfigMap", "default", "configured", .synced⟩], [], "HEAD"⟩ }
    .persistDeploymentInfo "HEAD" ∈ (syncAppState env ⟨"default"⟩ state).2 ∧
    syncOp.dryRun = false ∧ (syncOp.resources.getD []).length = 0 ∧ state.phase ≠ .terminating ∧
    ∃ proj cmp syncTasks,
      env.compareAppState ((state.syncResult.getD .empty).compareRevision syncOp) = .ok cmp ∧
      "HEAD" = cmp.manifestRevision ∧
      (env.syncContext ⟨"default"⟩ proj syncOp cmp).generateSyncTasks = .ok syncTasks ∧
      (syncOp.resources = none → syncTasks.length = cmp.resources.length) := by
  intro env syncOp state
  have he : .persistDeploymentInfo "HEAD" ∈ (syncAppState env ⟨"default"⟩ state).2 :=
    List.mem_cons_of_mem _ (List.mem_singleton_self _)
  exact ⟨he, persist_only_after_sync ⟨"default"⟩ rfl he⟩

end ArgoSync
