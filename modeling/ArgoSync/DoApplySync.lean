import ArgoSync.ResourceDetails
/-!
# What `doApplySync` does, one group at a time

A kind-group's fate is decided before any goroutine starts, by discovery and
the project check (`groupVerdict`): skipped (a dry run whose CRD is among the
creates), refused with a message, or admitted. Each verdict fixes what the
group writes (`groupWrites`), whether it clears `syncSuccessful`
(`groupSucceeded`) and which calls its wave makes (`groupWaves`);
`processCreateTasks_eq` says so once. The interleaving chooses only the
order of an admitted group's writes.

Folded over the groups and prefixed by the prune wave this gives
`doApplySync` whole (`doApplySync_spec`): its waves are fixed by the tasks
and the collaborators, its result is the conjunction of every outcome, and
its resource list is the start list with some permutation of the call's
writes applied in turn. The prune wave is the deletes that `prune` and a
real run allow (`doApplySync_prune_wave`).
-/

namespace ArgoSync

open scoped List

variable (sc : SyncContext) (dryRun force update : Bool) (il : Interleaving)
variable (createTasks : List Unstructured)

/-! ## One wave -/

/-- The details a wave's goroutines write, in task order. -/
def waveWrites (update : Bool) (results : List (ResourceDetails × List ClusterCall)) :
    List ResourceDetails :=
  (results.map Prod.fst).filter fun d => update || !d.status.successful

theorem runWave_resources (calls : List ClusterCall)
    (results : List (ResourceDetails × List ClusterCall)) (st : ApplyState) :
    (runWave il update calls results st).resources =
      (il.order st.waves.length (waveWrites update results)).foldl setResourceDetails st.resources :=
  rfl

@[simp] theorem runWave_successful (calls : List ClusterCall)
    (results : List (ResourceDetails × List ClusterCall)) (st : ApplyState) :
    (runWave il update calls results st).successful =
      (st.successful && results.all fun r => r.1.status.successful) :=
  rfl

@[simp] theorem runWave_waves (calls : List ClusterCall)
    (results : List (ResourceDetails × List ClusterCall)) (st : ApplyState) :
    (runWave il update calls results st).waves = st.waves ++ [calls ++ results.flatMap Prod.snd] :=
  rfl

/-- A failed outcome is always written. -/
theorem mem_waveWrites_of_failed {results : List (ResourceDetails × List ClusterCall)}
    {r : ResourceDetails × List ClusterCall} (hr : r ∈ results) (hf : r.1.status = .syncFailed) :
    r.1 ∈ waveWrites update results := by
  simp only [waveWrites, List.mem_filter, List.mem_map]
  exact ⟨⟨r, hr, rfl⟩, by simp [hf, ResourceDetailsSyncStatus.successful]⟩

/-! ## One group -/

/-- What discovery and the project check decide for a group. -/
inductive GroupVerdict
  /-- Not found in a dry run whose creates hold the CRD: nothing happens. -/
  | skipped
  /-- Every task fails with this message. -/
  | refused (message : String)
  /-- The non-hook tasks are applied. -/
  | admitted
  deriving DecidableEq

/-- The verdict `processCreateTasks` reaches for a group of this group-kind. -/
def SyncContext.groupVerdict (gvk : GroupVersionKind) : GroupVerdict :=
  match sc.disco.serverResourceForGroupVersionKind gvk with
  | .error err =>
    if dryRun && err.notFound && hasCRDOfGroupKind createTasks gvk.group gvk.kind then .skipped
    else .refused err.message
  | .ok namespaced =>
    if !sc.proj.isResourcePermitted ⟨gvk.group, gvk.kind⟩ namespaced then
      .refused (notPermittedMessage gvk sc.proj.name)
    else .admitted

/-- **A group is admitted** exactly when discovery finds its group-kind and
the project permits it. -/
theorem groupVerdict_eq_admitted_iff {gvk : GroupVersionKind} :
    sc.groupVerdict dryRun createTasks gvk = .admitted ↔
      ∃ namespaced, sc.disco.serverResourceForGroupVersionKind gvk = .ok namespaced ∧
        sc.proj.isResourcePermitted ⟨gvk.group, gvk.kind⟩ namespaced = true := by
  unfold SyncContext.groupVerdict
  cases sc.disco.serverResourceForGroupVersionKind gvk with
  | error err => dsimp only; split <;> simp
  | ok namespaced => dsimp only; cases h : sc.proj.isResourcePermitted ⟨gvk.group, gvk.kind⟩ namespaced <;> simp [h]

/-- The goroutines of an admitted group: one `applyObject` per non-hook task. -/
def SyncContext.applyResults (tasks : List Unstructured) : List (ResourceDetails × List ClusterCall) :=
  (tasks.filter fun t => !sc.isHook t).map fun t => sc.applyObject t dryRun force

/-- The entry a refused task gets. -/
def SyncContext.failDetails (message : String) (task : Unstructured) : ResourceDetails :=
  ⟨task.name, task.kind, sc.ns, message, .syncFailed⟩

/-- **`processCreateTasks`, by verdict.** -/
theorem processCreateTasks_eq (tasks : List Unstructured) (gvk : GroupVersionKind) (st : ApplyState) :
    sc.processCreateTasks dryRun force update il createTasks tasks gvk st =
      match sc.groupVerdict dryRun createTasks gvk with
      | .skipped => { st with waves := st.waves ++ [[.discover gvk]] }
      | .refused message =>
        ⟨(tasks.map (sc.failDetails message)).foldl setResourceDetails st.resources, false,
          st.waves ++ [[.discover gvk]]⟩
      | .admitted => runWave il update [.discover gvk] (sc.applyResults dryRun force tasks) st := by
  unfold SyncContext.processCreateTasks SyncContext.groupVerdict
  cases sc.disco.serverResourceForGroupVersionKind gvk with
  | error err =>
    by_cases h : (dryRun && err.notFound && hasCRDOfGroupKind createTasks gvk.group gvk.kind) = true
    · simp only [h, if_true]
    · simp only [h, if_false]; rfl
  | ok namespaced =>
    by_cases h : (!sc.proj.isResourcePermitted ⟨gvk.group, gvk.kind⟩ namespaced) = true
    · simp only [h, if_true]; rfl
    · simp only [h, Bool.false_eq_true, if_false]; rfl

/-- The writes of a group, in task order. -/
def SyncContext.groupWrites : List Unstructured → List ResourceDetails
  | [] => []
  | first :: rest =>
    match sc.groupVerdict dryRun createTasks first.groupVersionKind with
    | .skipped => []
    | .refused message => (first :: rest).map (sc.failDetails message)
    | .admitted => waveWrites update (sc.applyResults dryRun force (first :: rest))

/-- Whether a group leaves `syncSuccessful` alone. -/
def SyncContext.groupSucceeded : List Unstructured → Bool
  | [] => true
  | first :: rest =>
    match sc.groupVerdict dryRun createTasks first.groupVersionKind with
    | .skipped => true
    | .refused _ => false
    | .admitted => (sc.applyResults dryRun force (first :: rest)).all fun r => r.1.status.successful

theorem groupWrites_cons (first : Unstructured) (rest : List Unstructured) :
    sc.groupWrites dryRun force update createTasks (first :: rest) =
      match sc.groupVerdict dryRun createTasks first.groupVersionKind with
      | .skipped => []
      | .refused message => (first :: rest).map (sc.failDetails message)
      | .admitted => waveWrites update (sc.applyResults dryRun force (first :: rest)) := rfl

theorem groupSucceeded_cons (first : Unstructured) (rest : List Unstructured) :
    sc.groupSucceeded dryRun force createTasks (first :: rest) =
      match sc.groupVerdict dryRun createTasks first.groupVersionKind with
      | .skipped => true
      | .refused _ => false
      | .admitted => (sc.applyResults dryRun force (first :: rest)).all fun r => r.1.status.successful :=
  rfl

/-- The wave a group adds: none for an empty group, else the discovery call
and, when admitted, one apply per non-hook task. -/
def SyncContext.groupWaves : List Unstructured → List (List ClusterCall)
  | [] => []
  | first :: rest =>
    [.discover first.groupVersionKind ::
      match sc.groupVerdict dryRun createTasks first.groupVersionKind with
      | .admitted => (sc.applyResults dryRun force (first :: rest)).flatMap Prod.snd
      | _ => []]

/-- **What `processGroups` does**: the waves of its groups are appended, its
result is the conjunction of theirs, and its resource list is its start list
with some permutation of their writes applied in turn. -/
theorem processGroups_spec (groups : List (List Unstructured)) (st : ApplyState) :
    let st' := sc.processGroups dryRun force update il createTasks st groups
    st'.waves = st.waves ++ groups.flatMap (sc.groupWaves dryRun force createTasks) ∧
    st'.successful = (st.successful && groups.all (sc.groupSucceeded dryRun force createTasks)) ∧
    ∃ ws, ws ~ groups.flatMap (sc.groupWrites dryRun force update createTasks) ∧
      st'.resources = ws.foldl setResourceDetails st.resources := by
  induction groups generalizing st with
  | nil => exact ⟨by simp [SyncContext.processGroups], by simp [SyncContext.processGroups],
      [], .nil, rfl⟩
  | cons g groups ih =>
    cases g with
    | nil =>
      obtain ⟨h1, h2, ws, hws, h3⟩ := ih st
      exact ⟨by simpa [SyncContext.processGroups, SyncContext.groupWaves] using h1,
        by simpa [SyncContext.processGroups, SyncContext.groupSucceeded] using h2,
        ws, by simpa [SyncContext.groupWrites] using hws, h3⟩
    | cons first rest =>
      simp only [SyncContext.processGroups, processCreateTasks_eq, List.flatMap_cons,
        SyncContext.groupWaves, SyncContext.groupSucceeded, SyncContext.groupWrites, List.all_cons]
      cases sc.groupVerdict dryRun createTasks first.groupVersionKind <;> dsimp only
      case skipped =>
        obtain ⟨h1, h2, ws, hws, h3⟩ := ih { st with waves := st.waves ++ [[.discover _]] }
        exact ⟨by simpa using h1, by simpa using h2, ws, by simpa using hws, h3⟩
      case refused message =>
        obtain ⟨h1, h2, ws, hws, h3⟩ := ih ⟨((first :: rest).map (sc.failDetails message)).foldl
          setResourceDetails st.resources, false, st.waves ++ [[.discover first.groupVersionKind]]⟩
        refine ⟨by simpa using h1, by simpa using h2, _ ++ ws, hws.append_left _, ?_⟩
        rw [h3, List.foldl_append]
      case admitted =>
        obtain ⟨h1, h2, ws, hws, h3⟩ := ih (runWave il update [.discover first.groupVersionKind]
          (sc.applyResults dryRun force (first :: rest)) st)
        refine ⟨by simpa using h1, by simpa [Bool.and_assoc] using h2, _ ++ ws,
          (il.perm st.waves.length _).append hws, ?_⟩
        rw [h3, List.foldl_append, runWave_resources]

/-! ## The whole call -/

variable (syncTasks : List SyncTask) (resources : List ResourceDetails)

/-- The creates `doApplySync` groups: the targets, in task order. -/
def createObjs : List Unstructured := syncTasks.filterMap SyncTask.targetObj

/-- The goroutines of the prune wave. -/
def SyncContext.pruneResults : List (ResourceDetails × List ClusterCall) :=
  (syncTasks.filterMap SyncTask.pruneObj).map fun t => sc.pruneObject t sc.syncOp.prune dryRun

/-- Every write of the call, wave after wave, each wave in task order. -/
def SyncContext.applyWrites : List ResourceDetails :=
  waveWrites update (sc.pruneResults dryRun syncTasks) ++
    (kindGroups (createObjs syncTasks)).flatMap
      (sc.groupWrites dryRun force update (createObjs syncTasks))

/-- **What `doApplySync` does.** The prune wave, then one wave per kind-group;
success exactly when every prune and every group succeeded; and the resource
list is the start list with the call's writes applied in an order that
permutes them. -/
theorem doApplySync_spec :
    let st := sc.doApplySync il syncTasks dryRun force update resources
    st.waves = (sc.pruneResults dryRun syncTasks).flatMap Prod.snd ::
      (kindGroups (createObjs syncTasks)).flatMap
        (sc.groupWaves dryRun force (createObjs syncTasks)) ∧
    st.successful = ((sc.pruneResults dryRun syncTasks).all (fun r => r.1.status.successful) &&
      (kindGroups (createObjs syncTasks)).all
        (sc.groupSucceeded dryRun force (createObjs syncTasks))) ∧
    ∃ ws, ws ~ sc.applyWrites dryRun force update syncTasks ∧
      st.resources = ws.foldl setResourceDetails resources := by
  obtain ⟨h1, h2, ws, hws, h3⟩ := processGroups_spec sc dryRun force update il
    (createObjs syncTasks) (kindGroups (createObjs syncTasks))
    (runWave il update [] (sc.pruneResults dryRun syncTasks) ⟨resources, true, []⟩)
  refine ⟨by simpa using h1, by simpa using h2, _ ++ ws, (il.perm 0 _).append hws, ?_⟩
  rw [List.foldl_append]
  exact h3

/-! ## What each wave calls -/

/-- `applyObject` calls `ApplyResource` once, whatever the answer. -/
@[simp] theorem applyObject_calls (t : Unstructured) :
    (sc.applyObject t dryRun force).2 = [.apply t dryRun force] := by
  unfold SyncContext.applyObject
  split <;> rfl

/-- `pruneObject` calls `DeleteResource` once when `prune` is set and the run
is real, whatever the answer, and nothing otherwise. -/
@[simp] theorem pruneObject_calls (o : Unstructured) (prune : Bool) :
    (sc.pruneObject o prune dryRun).2 = if prune && !dryRun then [.delete o] else [] := by
  unfold SyncContext.pruneObject
  cases prune
  · rfl
  · cases dryRun
    · simp only [if_true, Bool.false_eq_true, if_false]
      split <;> rfl
    · rfl

/-- **The calls of an admitted group's goroutines**: one apply of each
non-hook task, with the call's flags. -/
theorem mem_applyResults_calls {tasks : List Unstructured} {c : ClusterCall}
    (h : c ∈ (sc.applyResults dryRun force tasks).flatMap Prod.snd) :
    ∃ t ∈ tasks, sc.isHook t = false ∧ c = .apply t dryRun force := by
  simp only [SyncContext.applyResults, List.mem_flatMap, List.mem_map, List.mem_filter,
    Bool.not_eq_true'] at h
  obtain ⟨_, ⟨t, ⟨ht, hh⟩, rfl⟩, hc⟩ := h
  exact ⟨t, ht, hh, by simpa using hc⟩

/-- **The calls of the prune wave**: a delete of the live object of a prune
task, and only when `prune` is set and the run is real. -/
theorem mem_pruneResults_calls {c : ClusterCall}
    (h : c ∈ (sc.pruneResults dryRun syncTasks).flatMap Prod.snd) :
    ∃ t ∈ syncTasks, ∃ o, t.pruneObj = some o ∧ sc.syncOp.prune = true ∧ dryRun = false ∧
      c = .delete o := by
  simp only [SyncContext.pruneResults, List.mem_flatMap, List.mem_map, List.mem_filterMap] at h
  obtain ⟨_, ⟨o, ⟨t, ht, ho⟩, rfl⟩, hc⟩ := h
  refine ⟨t, ht, o, ho, ?_⟩
  rw [pruneObject_calls] at hc
  cases hp : sc.syncOp.prune <;> cases hd : dryRun <;> simp_all

/-- An admitted group's goroutines apply each of its non-hook tasks. -/
theorem apply_mem_applyResults_calls {tasks : List Unstructured} {t : Unstructured} (ht : t ∈ tasks)
    (hh : sc.isHook t = false) :
    .apply t dryRun force ∈ (sc.applyResults dryRun force tasks).flatMap Prod.snd := by
  simp only [SyncContext.applyResults, List.flatMap_map, applyObject_calls]
  exact List.mem_flatMap.mpr ⟨t, List.mem_filter.mpr ⟨ht, by simp [hh]⟩, List.mem_singleton_self _⟩
/-- **The prune wave deletes the live object of every prune task when `prune`
is set and the run is real, and calls nothing otherwise.** Its goroutines run
at once, so the wave is a multiset of calls. -/
theorem doApplySync_prune_wave : ∃ w,
    (sc.doApplySync il syncTasks dryRun force update resources).waves.head? = some w ∧
      w ~ if sc.syncOp.prune && !dryRun then (syncTasks.filterMap SyncTask.pruneObj).map .delete
        else [] := by
  refine ⟨_, ?_, .refl _⟩
  rw [(doApplySync_spec ..).1, List.head?_cons, SyncContext.pruneResults, List.flatMap_map]
  simp only [pruneObject_calls]
  split
  · simp [List.map_eq_flatMap]
  · simp

/-- **The calls of a group's wave**: its discovery call, or an apply of one of
its non-hook tasks when the group is admitted. -/
theorem mem_groupWaves {first : Unstructured} {rest : List Unstructured} {w : List ClusterCall}
    {c : ClusterCall} (hw : w ∈ sc.groupWaves dryRun force createTasks (first :: rest)) (hc : c ∈ w) :
    c = .discover first.groupVersionKind ∨
      (sc.groupVerdict dryRun createTasks first.groupVersionKind = .admitted ∧
        ∃ t ∈ first :: rest, sc.isHook t = false ∧ c = .apply t dryRun force) := by
  simp only [SyncContext.groupWaves, List.mem_singleton] at hw
  subst hw
  rcases List.mem_cons.mp hc with rfl | hc
  · exact .inl rfl
  · refine .inr ?_
    cases hv : sc.groupVerdict dryRun createTasks first.groupVersionKind <;>
      simp only [hv, List.not_mem_nil] at hc
    exact ⟨rfl, mem_applyResults_calls sc dryRun force hc⟩

/-- Over non-empty groups, wave `i` of their waves is group `i`'s. -/
theorem getElem_flatMap_groupWaves {groups : List (List Unstructured)} (hne : ∀ g ∈ groups, g ≠ [])
    {i : Nat} (h : i < (groups.flatMap (sc.groupWaves dryRun force createTasks)).length) :
    ∃ hi : i < groups.length,
      (groups.flatMap (sc.groupWaves dryRun force createTasks))[i] ∈
        sc.groupWaves dryRun force createTasks groups[i] := by
  induction groups generalizing i with
  | nil => simp at h
  | cons g groups ih =>
    obtain ⟨first, rest, rfl⟩ := List.exists_cons_of_ne_nil (hne g (List.mem_cons_self _ _))
    have hg : sc.groupWaves dryRun force createTasks (first :: rest) =
        [.discover first.groupVersionKind ::
          match sc.groupVerdict dryRun createTasks first.groupVersionKind with
          | .admitted => (sc.applyResults dryRun force (first :: rest)).flatMap Prod.snd
          | _ => []] := rfl
    cases i with
    | zero => exact ⟨by simp, by simp [hg]⟩
    | succ i =>
      have hlen : i < (groups.flatMap (sc.groupWaves dryRun force createTasks)).length := by
        simpa [hg] using h
      obtain ⟨hi, hmem⟩ := ih (fun g hg => hne g (List.mem_cons_of_mem _ hg)) hlen
      refine ⟨by simpa using hi, ?_⟩
      simpa only [List.flatMap_cons, hg, List.singleton_append, List.getElem_cons_succ] using hmem

/-- Over non-empty groups, each group adds one wave. -/
theorem length_flatMap_groupWaves {groups : List (List Unstructured)} (hne : ∀ g ∈ groups, g ≠ []) :
    (groups.flatMap (sc.groupWaves dryRun force createTasks)).length = groups.length := by
  induction groups with
  | nil => rfl
  | cons g groups ih =>
    obtain ⟨first, rest, rfl⟩ := List.exists_cons_of_ne_nil (hne g (List.mem_cons_self _ _))
    simp [SyncContext.groupWaves, ih fun g hg => hne g (List.mem_cons_of_mem _ hg)]

end ArgoSync
