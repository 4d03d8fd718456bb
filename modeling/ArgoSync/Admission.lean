import ArgoSync.Waves
/-!
# What admits an apply

`processCreateTasks` asks discovery and the project about one group-kind per
kind-group, the group's first task's, and applies every non-hook task of the
group on that answer. The groups are cut by kind alone, so the answer
covers every applied object's kind (`applied_group_head_admitted`) but not
its group or version. Where no two creates share a kind across groups or
versions, the first task's group-kind is each task's own, and every applied
object was discovered and permitted itself
(`applied_object_admitted`). Where two do, an object the project refuses is
applied on its neighbour's admission
(`apply_admits_other_group_same_kind`).
-/

namespace ArgoSync

variable (sc : SyncContext) (il : Interleaving) (syncTasks : List SyncTask)
  (dryRun force update : Bool) (resources : List ResourceDetails)

/-- **An applied object's group was admitted on a task of its kind.** Every
object applied in wave `n` is a non-hook create whose kind-group opens with a
create of the same kind that discovery found and the project permits. -/
theorem applied_group_head_admitted {n : Nat} {o : Unstructured}
    (h : AppliesIn (sc.doApplySync il syncTasks dryRun force update resources).waves n o) :
    o ∈ createObjs syncTasks ∧ sc.isHook o = false ∧
    ∃ first ∈ createObjs syncTasks, first.kind = o.kind ∧
      ∃ namespaced, sc.disco.serverResourceForGroupVersionKind first.groupVersionKind = .ok namespaced ∧
        sc.proj.isResourcePermitted ⟨first.group, first.kind⟩ namespaced = true := by
  obtain ⟨hn, d, f, hc⟩ := h
  rcases mem_doApplySync_waves sc il syncTasks dryRun force update resources hn hc with
    ⟨-, t, -, o', -, -, -, h⟩ | ⟨i, rfl, hi, first, rest, hfr, h | ⟨hadm, t, ht, hhook, h⟩⟩
  · cases h
  · cases h
  · cases h
    have hg := List.getElem_mem hi
    have hsub : ∀ x ∈ first :: rest, x ∈ createObjs syncTasks := fun x hx =>
      flatten_kindGroups (createObjs syncTasks) ▸ List.mem_flatten.mpr ⟨_, hg, hfr ▸ hx⟩
    obtain ⟨namespaced, hd, hp⟩ := (groupVerdict_eq_admitted_iff sc dryRun _).mp hadm
    exact ⟨hsub o ht, hhook, first, hsub first (List.mem_cons_self _ _),
      (kindGroups_uniform _ _ hg).2 first (hfr ▸ List.mem_cons_self _ _) o (hfr ▸ ht),
      namespaced, hd, hp⟩

/-- **Where kinds name group-kinds, every applied object was admitted
itself.** If two creates of one kind always share their group and version,
then every object `doApplySync` applies was found by discovery under its own
group, version and kind, and the project permits its own group-kind. -/
theorem applied_object_admitted
    (hgvk : ∀ a ∈ createObjs syncTasks, ∀ b ∈ createObjs syncTasks, a.kind = b.kind →
      a.groupVersionKind = b.groupVersionKind)
    {n : Nat} {o : Unstructured}
    (h : AppliesIn (sc.doApplySync il syncTasks dryRun force update resources).waves n o) :
    ∃ namespaced, sc.disco.serverResourceForGroupVersionKind o.groupVersionKind = .ok namespaced ∧
      sc.proj.isResourcePermitted ⟨o.group, o.kind⟩ namespaced = true := by
  obtain ⟨ho, -, first, hfirst, hk, namespaced, hd, hp⟩ :=
    applied_group_head_admitted sc il syncTasks dryRun force update resources h
  have he := hgvk first hfirst o ho hk
  have hgroup : first.group = o.group := by simpa using congrArg GroupVersionKind.group he
  exact ⟨namespaced, he ▸ hd, hgroup ▸ hk ▸ hp⟩

/-- Two core objects, one of them applied: every applied object was admitted. -/
theorem applied_object_admitted_configMap :
    let sc := acceptingContext []
    let tasks := [createTask (coreObj "ConfigMap" "c"), createTask (coreObj "Secret" "s")]
    (∀ a ∈ createObjs tasks, ∀ b ∈ createObjs tasks, a.kind = b.kind →
      a.groupVersionKind = b.groupVersionKind) ∧
    AppliesIn (sc.doApplySync .inOrder tasks false false true []).waves 1 (coreObj "ConfigMap" "c") ∧
    ∃ namespaced, sc.disco.serverResourceForGroupVersionKind (coreObj "ConfigMap" "c").groupVersionKind =
      .ok namespaced ∧ sc.proj.isResourcePermitted ⟨"", "ConfigMap"⟩ namespaced = true :=
  have hgvk := by decide
  have h := ⟨by decide, false, false, by decide⟩
  ⟨hgvk, h, applied_object_admitted _ _ _ _ _ _ _ hgvk h⟩

/-- Two objects of kind `Foo`, of groups `a.io` and `b.io`. -/
def fooOfGroup (group name : String) : Unstructured := ⟨name, "", group, "v1", "Foo", none, none⟩

/-- **An object is applied on the admission of another group's object of its
kind.** `Foo/x` of `a.io` and `Foo/y` of `b.io` form one kind-group, which is
admitted on `a.io`'s answers alone. Whenever discovery finds `a.io`'s `Foo`,
the project permits it, and neither object is a hook, the real apply applies
`b.io`'s `Foo/y`, whatever discovery and the project say of `b.io`. -/
theorem apply_admits_other_group_same_kind
    (hd : ∃ namespaced, sc.disco.serverResourceForGroupVersionKind (fooOfGroup "a.io" "x").groupVersionKind =
      .ok namespaced ∧ sc.proj.isResourcePermitted ⟨"a.io", "Foo"⟩ namespaced = true)
    (hx : sc.isHook (fooOfGroup "a.io" "x") = false) (hy : sc.isHook (fooOfGroup "b.io" "y") = false) :
    ∀ il force update resources,
      AppliesIn (sc.doApplySync il [createTask (fooOfGroup "a.io" "x"), createTask (fooOfGroup "b.io" "y")]
        false force update resources).waves 1 (fooOfGroup "b.io" "y") := by
  intro il force update resources
  have hadm : sc.groupVerdict false [fooOfGroup "a.io" "x", fooOfGroup "b.io" "y"]
      (fooOfGroup "a.io" "x").groupVersionKind = .admitted :=
    (groupVerdict_eq_admitted_iff sc false _).mpr hd
  have hp : sc.pruneResults false
      [createTask (fooOfGroup "a.io" "x"), createTask (fooOfGroup "b.io" "y")] = [] := rfl
  have hg : kindGroups [fooOfGroup "a.io" "x", fooOfGroup "b.io" "y"] =
      [[fooOfGroup "a.io" "x", fooOfGroup "b.io" "y"]] := by decide
  have hw : (sc.doApplySync il [createTask (fooOfGroup "a.io" "x"), createTask (fooOfGroup "b.io" "y")]
      false force update resources).waves =
      [[], [.discover (fooOfGroup "a.io" "x").groupVersionKind, .apply (fooOfGroup "a.io" "x") false force,
        .apply (fooOfGroup "b.io" "y") false force]] := by
    rw [(doApplySync_spec sc false force update il _ resources).1, hp]
    simp only [createObjs, createTask, List.filterMap_cons, List.filterMap_nil, hg]
    simp [SyncContext.groupWaves, hadm, SyncContext.applyResults, hx, hy]
  simp only [AppliesIn, hw]
  exact ⟨by simp, false, force, by simp⟩

/-- A project that permits `a.io`'s `Foo` and refuses `b.io`'s. -/
def aOnlyProject : AppProject := ⟨"a-only", fun gk _ => gk.group == "a.io"⟩

/-- Under that project the real apply applies `b.io`'s refused `Foo`. -/
theorem apply_admits_other_group_same_kind_aOnly :
    let sc := { acceptingContext [] with proj := aOnlyProject }
    sc.proj.isResourcePermitted ⟨"b.io", "Foo"⟩ true = false ∧
    AppliesIn (sc.doApplySync .inOrder [createTask (fooOfGroup "a.io" "x"),
      createTask (fooOfGroup "b.io" "y")] false false true []).waves 1 (fooOfGroup "b.io" "y") :=
  ⟨rfl, apply_admits_other_group_same_kind _ ⟨true, rfl, rfl⟩ rfl rfl _ _ _ _⟩

end ArgoSync
