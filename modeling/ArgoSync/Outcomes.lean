import ArgoSync.Waves
/-!
# Where each outcome of `doApplySync` ends up

`setResourceDetails` files an outcome under the object's kind and name, and
nothing else. When no two objects of a call share that key, the list a call
leaves is fixed by lookups: each written key holds its own write, every
other key what it held (`findDetails_doApplySync`). Two lists unique by key
with the same lookups are permutations of each other
(`perm_of_findDetails_eq`), so the interleaving chooses only where new
entries stand. And a failure always writes, so a call that returns false
leaves one of its `SyncFailed` entries behind. `doApplySync_records_outcomes`
says this task by task.

When two objects share a kind and a name, in two namespaces or two groups,
they share the entry: the interleaving decides which outcome stays, and a
failed call can leave only a success (`doApplySync_same_kind_name_lost`).
-/

namespace ArgoSync

open scoped List

/-- The key `setResourceDetails` files an object's details under. -/
def Unstructured.detailsKey (o : Unstructured) : String × String := (o.kind, o.name)

/-! ## Lookups in a list unique by key -/

section Lookup

variable {r r₁ r₂ : List ResourceDetails}

theorem findDetails_cons (e : ResourceDetails) (k : String × String) :
    findDetails (e :: r) k = if e.key = k then some e else findDetails r k := by
  by_cases h : e.key = k <;> simp [findDetails, List.find?_cons, h]

/-- **In a list unique by key, a lookup finds the one entry with the key.** -/
theorem findDetails_eq_some_iff (h : (keys r).Nodup) {k : String × String} {d : ResourceDetails} :
    findDetails r k = some d ↔ d ∈ r ∧ d.key = k := by
  induction r with
  | nil => simp [findDetails]
  | cons e rest ih =>
    rw [keys_cons, List.nodup_cons] at h
    rw [findDetails_cons]
    by_cases he : e.key = k
    · have hrest : ∀ d ∈ rest, d.key ≠ k := fun d hd hk =>
        h.1 (he ▸ hk ▸ List.mem_map_of_mem _ hd)
      simp only [he, if_true, Option.some.injEq, List.mem_cons]
      exact ⟨fun h => ⟨.inl h.symm, h ▸ he⟩, fun ⟨hd, hk⟩ =>
        (hd.resolve_right fun hd => hrest d hd hk).symm⟩
    · simp only [he, if_false, ih h.2, List.mem_cons]
      exact ⟨fun ⟨hd, hk⟩ => ⟨.inr hd, hk⟩, fun ⟨hd, hk⟩ =>
        ⟨hd.resolve_left fun e' => he (e' ▸ hk), hk⟩⟩

theorem mem_iff_findDetails (h : (keys r).Nodup) {d : ResourceDetails} :
    d ∈ r ↔ findDetails r d.key = some d := by
  rw [findDetails_eq_some_iff h, and_iff_left rfl]

theorem findDetails_perm (hp : r₁ ~ r₂) (h : (keys r₁).Nodup) (k : String × String) :
    findDetails r₁ k = findDetails r₂ k := by
  have h₂ : (keys r₂).Nodup := (hp.map _).nodup_iff.mp h
  exact Option.ext fun d => by
    rw [Option.mem_def, Option.mem_def, findDetails_eq_some_iff h, findDetails_eq_some_iff h₂,
      hp.mem_iff]

/-- **Two lists unique by key with the same lookups are permutations of each
other.** -/
theorem perm_of_findDetails_eq (h₁ : (keys r₁).Nodup) (h₂ : (keys r₂).Nodup)
    (he : ∀ k, findDetails r₁ k = findDetails r₂ k) : r₁ ~ r₂ :=
  (List.perm_ext_iff_of_nodup (h₁.of_map _) (h₂.of_map _)).mpr fun d => by
    rw [mem_iff_findDetails h₁, mem_iff_findDetails h₂, he]

end Lookup

/-! ## The keys a call writes -/

section Call

variable (sc : SyncContext) (il : Interleaving) (syncTasks : List SyncTask)
  (dryRun force update : Bool) (resources : List ResourceDetails)

@[simp] theorem key_pruneObject (o : Unstructured) (prune : Bool) :
    (sc.pruneObject o prune dryRun).1.key = o.detailsKey := by
  unfold SyncContext.pruneObject
  split
  · split
    · rfl
    · split <;> rfl
  · rfl

@[simp] theorem key_applyObject (o : Unstructured) :
    (sc.applyObject o dryRun force).1.key = o.detailsKey := by
  unfold SyncContext.applyObject
  split <;> rfl

@[simp] theorem key_failDetails (message : String) (o : Unstructured) :
    (sc.failDetails message o).key = o.detailsKey := rfl

theorem keys_waveWrites_sublist (results : List (ResourceDetails × List ClusterCall)) :
    keys (waveWrites update results) <+ keys (results.map Prod.fst) :=
  (List.filter_sublist _).map _

/-- A group writes at most once per task, under the task's key. -/
theorem keys_groupWrites_sublist (createTasks g : List Unstructured) :
    keys (sc.groupWrites dryRun force update createTasks g) <+ g.map Unstructured.detailsKey := by
  cases g with
  | nil => exact List.nil_sublist _
  | cons first rest =>
    rw [groupWrites_cons]
    cases sc.groupVerdict dryRun createTasks first.groupVersionKind
    case skipped => exact List.nil_sublist _
    case refused message => simp [keys, Function.comp_def]
    case admitted =>
      refine (keys_waveWrites_sublist update _).trans ?_
      simpa [keys, SyncContext.applyResults, Function.comp_def] using
        (List.filter_sublist (first :: rest)).map Unstructured.detailsKey

/-- **A call writes each key at most as often as its tasks carry it.** -/
theorem keys_applyWrites_sublist :
    keys (sc.applyWrites dryRun force update syncTasks) <+
      (syncTasks.filterMap SyncTask.pruneObj ++ createObjs syncTasks).map Unstructured.detailsKey := by
  rw [SyncContext.applyWrites, keys_append, List.map_append]
  refine List.Sublist.append ?_ ?_
  · have hp : keys ((sc.pruneResults dryRun syncTasks).map Prod.fst) =
        (syncTasks.filterMap SyncTask.pruneObj).map Unstructured.detailsKey := by
      simp [keys, SyncContext.pruneResults, Function.comp_def]
    exact (keys_waveWrites_sublist update _).trans (hp ▸ List.Sublist.refl _)
  · conv_rhs => rw [← flatten_kindGroups (createObjs syncTasks)]
    induction kindGroups (createObjs syncTasks) with
    | nil => exact List.nil_sublist _
    | cons g gs ih =>
      rw [List.flatMap_cons, keys_append, List.flatten_cons, List.map_append]
      exact (keys_groupWrites_sublist sc dryRun force update _ g).append ih

/-! ## The list a call leaves -/

/-- **The lookups after a call whose writes have unique keys**: each written
key holds its write, every other key its old entry, whatever the
interleaving. -/
theorem findDetails_doApplySync (hW : (keys (sc.applyWrites dryRun force update syncTasks)).Nodup)
    (k : String × String) :
    findDetails (sc.doApplySync il syncTasks dryRun force update resources).resources k =
      (findDetails (sc.applyWrites dryRun force update syncTasks) k).or (findDetails resources k) := by
  obtain ⟨-, -, ws, hws, hres⟩ := doApplySync_spec sc dryRun force update il syncTasks resources
  rw [hres, findDetails_foldl, findDetails_perm (hws.symm.trans (List.reverse_perm ws).symm) hW]

theorem nodup_doApplySync (hinit : (keys resources).Nodup) :
    (keys (sc.doApplySync il syncTasks dryRun force update resources).resources).Nodup := by
  obtain ⟨-, -, ws, -, hres⟩ := doApplySync_spec sc dryRun force update il syncTasks resources
  rw [hres]
  exact nodup_foldl ws hinit

/-- **A call that returns false wrote a failure.** -/
theorem exists_failed_write
    (h : (sc.doApplySync il syncTasks dryRun force update resources).successful = false) :
    ∃ d ∈ sc.applyWrites dryRun force update syncTasks, d.status = .syncFailed := by
  obtain ⟨-, hs, -⟩ := doApplySync_spec sc dryRun force update il syncTasks resources
  rw [hs, Bool.and_eq_false_iff, List.all_eq_false, List.all_eq_false] at h
  simp only [SyncContext.applyWrites, List.mem_append, List.mem_flatMap]
  rcases h with ⟨r, hr, hf⟩ | ⟨g, hg, hf⟩
  · have hst : r.1.status = .syncFailed := by simpa using hf
    exact ⟨r.1, .inl (mem_waveWrites_of_failed update hr hst), hst⟩
  · obtain ⟨first, rest, rfl⟩ := List.exists_cons_of_ne_nil (kindGroups_uniform _ g hg).1
    rw [Bool.not_eq_true, groupSucceeded_cons] at hf
    cases hv : sc.groupVerdict dryRun (createObjs syncTasks) first.groupVersionKind with
    | skipped => simp [hv] at hf
    | refused message =>
      refine ⟨sc.failDetails message first, .inr ⟨_, hg, ?_⟩, rfl⟩
      rw [groupWrites_cons, hv]
      exact List.mem_cons_self _ _
    | admitted =>
      simp only [hv, List.all_eq_false] at hf
      obtain ⟨r, hr, hrf⟩ := hf
      have hst : r.1.status = .syncFailed := by simpa using hrf
      refine ⟨r.1, .inr ⟨_, hg, ?_⟩, hst⟩
      rw [groupWrites_cons, hv]
      exact mem_waveWrites_of_failed update hr hst

/-! ## Each task's write -/

/-- A prune task's outcome is written when `update` asks or it failed. -/
theorem pruneWrite_mem_applyWrites {t : SyncTask} {o : Unstructured} (ht : t ∈ syncTasks)
    (ho : t.pruneObj = some o)
    (hw : update = true ∨ (sc.pruneObject o sc.syncOp.prune dryRun).1.status = .syncFailed) :
    (sc.pruneObject o sc.syncOp.prune dryRun).1 ∈ sc.applyWrites dryRun force update syncTasks := by
  simp only [SyncContext.applyWrites, waveWrites, SyncContext.pruneResults, List.mem_append,
    List.mem_filter, List.mem_map, List.mem_filterMap]
  refine .inl ⟨⟨_, ⟨o, ⟨t, ht, ho⟩, rfl⟩, rfl⟩, ?_⟩
  rcases hw with h | h <;> simp [h]

/-- A non-hook create of an admitted group has its outcome written when
`update` asks or it failed. -/
theorem applyWrite_mem_applyWrites {first : Unstructured} {rest : List Unstructured}
    (hg : first :: rest ∈ kindGroups (createObjs syncTasks))
    (hv : sc.groupVerdict dryRun (createObjs syncTasks) first.groupVersionKind = .admitted)
    {o : Unstructured} (ho : o ∈ first :: rest) (hh : sc.isHook o = false)
    (hw : update = true ∨ (sc.applyObject o dryRun force).1.status = .syncFailed) :
    (sc.applyObject o dryRun force).1 ∈ sc.applyWrites dryRun force update syncTasks := by
  refine List.mem_append_right _ (List.mem_flatMap.mpr ⟨_, hg, ?_⟩)
  rw [groupWrites_cons, hv]
  simp only [waveWrites, SyncContext.applyResults, List.mem_filter, List.map_map]
  refine ⟨List.mem_map_of_mem _ (List.mem_filter.mpr ⟨ho, by simp [hh]⟩), ?_⟩
  rcases hw with h | h <;> simp [h]

/-- Every create of a refused group has its failure written. -/
theorem failWrite_mem_applyWrites {first : Unstructured} {rest : List Unstructured}
    (hg : first :: rest ∈ kindGroups (createObjs syncTasks)) {message : String}
    (hv : sc.groupVerdict dryRun (createObjs syncTasks) first.groupVersionKind = .refused message)
    {o : Unstructured} (ho : o ∈ first :: rest) :
    sc.failDetails message o ∈ sc.applyWrites dryRun force update syncTasks := by
  refine List.mem_append_right _ (List.mem_flatMap.mpr ⟨_, hg, ?_⟩)
  rw [groupWrites_cons, hv]
  exact List.mem_map_of_mem _ ho

/-- **Each task's outcome is its key's entry, whatever the interleaving.**
From a resource list unique by key, a call whose prune and create objects
have pairwise distinct kinds and names leaves: under each prune task's key,
its outcome when `update` is set or it failed; under the key of each non-hook
create of an admitted group, its outcome on the same terms; under the key of
each create of a refused group, its failure; a list that any other
interleaving gives up to the order of its entries; and, when the call
returns false, one of the call's `SyncFailed` outcomes in the list. -/
theorem doApplySync_records_outcomes (hinit : (keys resources).Nodup)
    (hkeys : ((syncTasks.filterMap SyncTask.pruneObj ++ createObjs syncTasks).map
      Unstructured.detailsKey).Nodup) :
    let st := sc.doApplySync il syncTasks dryRun force update resources
    (∀ t ∈ syncTasks, ∀ o, t.pruneObj = some o →
      (update = true ∨ (sc.pruneObject o sc.syncOp.prune dryRun).1.status = .syncFailed) →
      findDetails st.resources o.detailsKey = some (sc.pruneObject o sc.syncOp.prune dryRun).1) ∧
    (∀ first rest, first :: rest ∈ kindGroups (createObjs syncTasks) →
      (sc.groupVerdict dryRun (createObjs syncTasks) first.groupVersionKind = .admitted →
        ∀ o ∈ first :: rest, sc.isHook o = false →
        (update = true ∨ (sc.applyObject o dryRun force).1.status = .syncFailed) →
        findDetails st.resources o.detailsKey = some (sc.applyObject o dryRun force).1) ∧
      (∀ message, sc.groupVerdict dryRun (createObjs syncTasks) first.groupVersionKind = .refused message →
        ∀ o ∈ first :: rest, findDetails st.resources o.detailsKey = some (sc.failDetails message o))) ∧
    (∀ il', (sc.doApplySync il' syncTasks dryRun force update resources).resources ~ st.resources) ∧
    (st.successful = false →
      ∃ d ∈ sc.applyWrites dryRun force update syncTasks, d.status = .syncFailed ∧ d ∈ st.resources) := by
  intro st
  have hW := hkeys.sublist (keys_applyWrites_sublist sc syncTasks dryRun force update)
  have hfind : ∀ d ∈ sc.applyWrites dryRun force update syncTasks,
      findDetails st.resources d.key = some d := fun d hd => by
    rw [findDetails_doApplySync sc il syncTasks dryRun force update resources hW,
      (findDetails_eq_some_iff hW).mpr ⟨hd, rfl⟩, Option.or_some]
  refine ⟨fun t ht o ho hw => ?_, fun first rest hg => ⟨fun hv o ho hh hw => ?_, fun message hv o ho => ?_⟩,
    fun il' => perm_of_findDetails_eq (nodup_doApplySync sc il' syncTasks dryRun force update resources hinit)
      (nodup_doApplySync sc il syncTasks dryRun force update resources hinit) fun k => ?_, fun h => ?_⟩
  · simpa using hfind _ (pruneWrite_mem_applyWrites sc syncTasks dryRun force update ht ho hw)
  · simpa using hfind _ (applyWrite_mem_applyWrites sc syncTasks dryRun force update hg hv ho hh hw)
  · simpa using hfind _ (failWrite_mem_applyWrites sc syncTasks dryRun force update hg hv ho)
  · rw [findDetails_doApplySync sc il' syncTasks dryRun force update resources hW,
      findDetails_doApplySync sc il syncTasks dryRun force update resources hW]
  · obtain ⟨d, hd, hf⟩ := exists_failed_write sc il syncTasks dryRun force update resources h
    exact ⟨d, hd, hf, List.mem_of_find?_eq_some (hfind d hd)⟩

end Call

/-- The goroutines of every wave finish in reverse task order. -/
def Interleaving.reversed : Interleaving := ⟨fun _ writes => writes.reverse, fun _ => List.reverse_perm⟩

/-- A cluster that refuses every object of namespace `a`. -/
def denyingContext : SyncContext :=
  { acceptingContext [] with
    kubectl := ⟨fun o _ _ _ => if o.ns = "a" then .error "denied" else .ok "configured", fun _ _ => .ok ()⟩ }

/-- Two `ConfigMap`s in one wave, of namespace `a`, whose apply fails, and of
namespace `b`: every interleaving records the same entries, and the call's
failure is among them. -/
theorem doApplySync_records_outcomes_configMap :
    let tasks := [createTask ⟨"c", "a", "", "v1", "ConfigMap", none, none⟩,
      createTask ⟨"d", "b", "", "v1", "ConfigMap", none, none⟩]
    (kindGroups (createObjs tasks)).length = 1 ∧
    (keys ([] : List ResourceDetails)).Nodup ∧
    ((tasks.filterMap SyncTask.pruneObj ++ createObjs tasks).map Unstructured.detailsKey).Nodup ∧
    (∀ il', (denyingContext.doApplySync il' tasks false false true []).resources ~
      (denyingContext.doApplySync .inOrder tasks false false true []).resources) ∧
    (denyingContext.doApplySync .inOrder tasks false false true []).successful = false ∧
    ∃ d ∈ denyingContext.applyWrites false false true tasks, d.status = .syncFailed ∧
      d ∈ (denyingContext.doApplySync .inOrder tasks false false true []).resources :=
  have hinit := by decide
  have hkeys := by decide
  have hfail := by decide
  have h := doApplySync_records_outcomes denyingContext .inOrder _ false false true [] hinit hkeys
  ⟨by decide, hinit, hkeys, h.2.2.1, hfail, h.2.2.2 hfail⟩

/-- **Two objects of one kind and name share an entry.** ConfigMap `cm` of
namespace `a`, whose apply fails, and of namespace `b`, whose apply succeeds,
are one kind-group. Finishing in task order the group leaves only `b`'s
success, though the call returns false; finishing in reverse it leaves only
`a`'s failure. -/
theorem doApplySync_same_kind_name_lost :
    let cmA : Unstructured := ⟨"cm", "a", "", "v1", "ConfigMap", none, none⟩
    let cmB : Unstructured := ⟨"cm", "b", "", "v1", "ConfigMap", none, none⟩
    let tasks := [createTask cmA, createTask cmB]
    let inOrder := denyingContext.doApplySync .inOrder tasks false false true []
    let reversed := denyingContext.doApplySync .reversed tasks false false true []
    inOrder.resources = [⟨"cm", "ConfigMap", "default", "configured", .synced⟩] ∧
    inOrder.successful = false ∧
    reversed.resources = [⟨"cm", "ConfigMap", "default", "denied", .syncFailed⟩] := by
  refine ⟨by decide, by decide, by decide⟩

end ArgoSync
