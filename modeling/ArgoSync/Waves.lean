import ArgoSync.Tasks
import ArgoSync.DoApplySync
import Mathlib.Data.List.SplitBy
/-!
# The apply waves of a sorted task list

`doApplySync` cuts its creates into kind-groups by comparing each task's
kind with the first of the open group, and runs one wave per group after the
prune wave (`doApplySync_spec`), whatever earlier groups did
(`doApplySync_every_group_runs`). On any list the groups are its maximal
runs of one kind (`kindGroups_eq_splitBy`). On a list sorted by a rank of kinds
they are more: each kind is one group, and the groups come in rank order
(`kindGroups_earlierWave`, `kindGroups_sameWave`).

`sort.Sort` gives such a list when no `Namespace` target meets a target of
an unlisted kind (`KindOrder`). Then the waves follow `resourceOrder`, and
unlisted kinds come last (`applyWaves_follow_resourceOrder`). When such a
pair meets they do not: `apply_waves_unlisted_before_namespace`. And a CRD's
wave precedes the wave of the kind it defines when that kind is ranked after
CustomResourceDefinition (`crd_wave_before_instances`), but not when the
custom kind takes the name of one ranked before it
(`crd_skip_instances_first`).
-/

namespace ArgoSync

open scoped List

/-! ## The groups on any list -/

/-- The tasks of a group share one kind. -/
def KindUniform (g : List Unstructured) : Prop := ∀ x ∈ g, ∀ y ∈ g, x.kind = y.kind

section Loop

variable {first task : Unstructured} {more rest : List Unstructured}

@[simp] theorem kindGroupsFrom_nil_right (acc : List Unstructured) :
    kindGroupsFrom acc [] = if 0 < acc.length then [acc] else [] := by
  simp [kindGroupsFrom]

@[simp] theorem kindGroupsFrom_nil_cons : kindGroupsFrom [] (task :: rest) = kindGroupsFrom [task] rest :=
  by simp [kindGroupsFrom]

/-- A task of another kind closes the open group. -/
theorem kindGroupsFrom_of_ne (h : first.kind ≠ task.kind) :
    kindGroupsFrom (first :: more) (task :: rest) = (first :: more) :: kindGroupsFrom [task] rest := by
  simp [kindGroupsFrom, h]

/-- A task of the same kind joins it. -/
theorem kindGroupsFrom_of_eq (h : first.kind = task.kind) :
    kindGroupsFrom (first :: more) (task :: rest) = kindGroupsFrom (first :: more ++ [task]) rest := by
  simp [kindGroupsFrom, h]

end Loop

/-- **The groups cut the list into consecutive pieces.** -/
theorem flatten_kindGroupsFrom : ∀ (acc l : List Unstructured),
    (kindGroupsFrom acc l).flatten = acc ++ l
  | acc, [] => by
    rw [kindGroupsFrom_nil_right]
    split
    · simp
    · rename_i h; simp_all
  | first :: more, task :: rest => by
    by_cases h : first.kind = task.kind
    · rw [kindGroupsFrom_of_eq h, flatten_kindGroupsFrom]; simp
    · rw [kindGroupsFrom_of_ne h, List.flatten_cons, flatten_kindGroupsFrom]; simp
  | [], task :: rest => by
    simp [flatten_kindGroupsFrom [task] rest]

/-- Appending a task of the group's kind keeps it of one kind. -/
theorem KindUniform.append {first task : Unstructured} {more : List Unstructured}
    (hacc : KindUniform (first :: more)) (hk : first.kind = task.kind) :
    KindUniform (first :: more ++ [task]) := by
  have hxk : ∀ z ∈ first :: more ++ [task], z.kind = first.kind := fun z hz => by
    rcases List.mem_append.mp hz with hz | hz
    · exact hacc z hz first (List.mem_cons_self _ _)
    · rw [List.mem_singleton.mp hz, hk]
  intro x hx y hy
  rw [hxk x hx, hxk y hy]

theorem KindUniform.singleton (task : Unstructured) : KindUniform [task] := by
  simp [KindUniform]

/-- **Each group is non-empty and of one kind.** -/
theorem kindGroupsFrom_uniform : ∀ (acc l : List Unstructured), KindUniform acc →
    ∀ g ∈ kindGroupsFrom acc l, g ≠ [] ∧ KindUniform g
  | acc, [], hacc, g, hg => by
    rw [kindGroupsFrom_nil_right] at hg
    split at hg
    · rename_i h
      obtain rfl := List.mem_singleton.mp hg
      exact ⟨List.ne_nil_of_length_pos h, hacc⟩
    · simp at hg
  | first :: more, task :: rest, hacc, g, hg => by
    by_cases hk : first.kind = task.kind
    · rw [kindGroupsFrom_of_eq hk] at hg
      exact kindGroupsFrom_uniform _ rest (hacc.append hk) g hg
    · rw [kindGroupsFrom_of_ne hk] at hg
      rcases List.mem_cons.mp hg with rfl | hg
      · exact ⟨List.cons_ne_nil _ _, hacc⟩
      · exact kindGroupsFrom_uniform [task] rest (KindUniform.singleton task) g hg
  | [], task :: rest, _, g, hg =>
    kindGroupsFrom_uniform [task] rest (KindUniform.singleton task) g (by simpa using hg)

theorem flatten_kindGroups (l : List Unstructured) : (kindGroups l).flatten = l :=
  flatten_kindGroupsFrom [] l

theorem kindGroups_uniform (l : List Unstructured) :
    ∀ g ∈ kindGroups l, g ≠ [] ∧ KindUniform g :=
  kindGroupsFrom_uniform [] l (by simp [KindUniform])

/-- A non-empty group of one kind, met by a task: the task joins it when its
kind is the group's, and closes it otherwise. -/
theorem kindGroupsFrom_cons_of_uniform {acc : List Unstructured} (hne : acc ≠ [])
    (hacc : KindUniform acc) {x task : Unstructured} (hx : x ∈ acc) (rest : List Unstructured) :
    kindGroupsFrom acc (task :: rest) =
      if x.kind = task.kind then kindGroupsFrom (acc ++ [task]) rest
      else acc :: kindGroupsFrom [task] rest := by
  obtain ⟨first, more, rfl⟩ := List.exists_cons_of_ne_nil hne
  have hk : first.kind = x.kind := hacc _ (List.mem_cons_self _ _) _ hx
  split
  · exact kindGroupsFrom_of_eq (hk.trans ‹_›)
  · exact kindGroupsFrom_of_ne (hk ▸ ‹_›)

/-- The loop of `List.splitBy` on kinds, from a group of one kind, is the
grouping loop from the same group. -/
theorem splitBy_loop_kind : ∀ (l : List Unstructured) {ag : Unstructured} {g : List Unstructured}
    (gs : List (List Unstructured)), KindUniform (ag :: g) →
    List.splitBy.loop (fun a b => a.kind == b.kind) l ag g gs =
      gs.reverse ++ kindGroupsFrom (ag :: g).reverse l
  | [], ag, g, gs, _ => by
    simp [List.splitBy.loop]
  | task :: rest, ag, g, gs, hu => by
    have hu' : KindUniform (ag :: g).reverse := fun x hx y hy =>
      hu x (List.mem_reverse.mp hx) y (List.mem_reverse.mp hy)
    rw [List.splitBy.loop,
      kindGroupsFrom_cons_of_uniform (by simp) hu' (List.mem_reverse.mpr (List.mem_cons_self ag g))]
    by_cases hk : ag.kind = task.kind
    · have hall : ∀ z ∈ task :: ag :: g, z.kind = task.kind := fun z hz => by
        rcases List.mem_cons.mp hz with rfl | hz
        · rfl
        · exact (hu z hz ag (List.mem_cons_self _ _)).trans hk
      have hu'' : KindUniform (task :: ag :: g) := fun x hx y hy =>
        (hall x hx).trans (hall y hy).symm
      simp only [hk, beq_self_eq_true, if_true]
      rw [splitBy_loop_kind rest gs hu'', List.reverse_cons]
    · simp only [hk, if_false, beq_eq_false_iff_ne.mpr hk]
      rw [splitBy_loop_kind rest _ (KindUniform.singleton task)]
      simp

/-- **The grouping loop cuts the creates into their maximal runs of one
kind.** It compares each task with the first of the open group, and
`List.splitBy` compares each with the one before; on kinds, where equality
is transitive, the two agree. So the groups concatenate to the creates, each
is non-empty with one kind, and the last task of a group and the first of
the next differ in kind (`List.flatten_splitBy`, `List.chain'_of_mem_splitBy`,
`List.chain'_getLast_head_splitBy`). -/
theorem kindGroups_eq_splitBy (l : List Unstructured) :
    kindGroups l = l.splitBy (fun a b => a.kind == b.kind) := by
  cases l with
  | nil => rfl
  | cons task rest =>
    rw [kindGroups, kindGroupsFrom_nil_cons, List.splitBy,
      splitBy_loop_kind rest [] (KindUniform.singleton task)]
    rfl

/-! ## The groups on a sorted list -/

section Sorted

variable {κ : Type} [LinearOrder κ] {r : String → κ}

/-- **On a list sorted by rank, the groups rise strictly in rank.** A group
closes on a task of another kind, whose rank is then higher than the
group's: at least as high by the sort, and not equal, since ranks name
kinds. -/
theorem kindGroupsFrom_pairwise (hr : Function.Injective r) : ∀ (acc l : List Unstructured),
    KindUniform acc → (acc ++ l).Pairwise (fun x y => r x.kind ≤ r y.kind) →
    (kindGroupsFrom acc l).Pairwise (fun g h => ∀ x ∈ g, ∀ y ∈ h, r x.kind < r y.kind)
  | acc, [], _, _ => by
    rw [kindGroupsFrom_nil_right]
    split
    · exact List.pairwise_singleton _ _
    · exact .nil
  | first :: more, task :: rest, hacc, hs => by
    by_cases hk : first.kind = task.kind
    · rw [kindGroupsFrom_of_eq hk]
      exact kindGroupsFrom_pairwise hr _ rest (hacc.append hk)
        (by rwa [List.append_assoc, List.singleton_append])
    · rw [kindGroupsFrom_of_ne hk]
      obtain ⟨-, hsr, hcross⟩ := List.pairwise_append.mp hs
      refine List.pairwise_cons.mpr ⟨fun h hh x hx y hy => ?_,
        kindGroupsFrom_pairwise hr [task] rest (KindUniform.singleton task) hsr⟩
      have hy' : y ∈ task :: rest := by
        simpa [flatten_kindGroupsFrom] using List.mem_flatten.mpr ⟨h, hh, hy⟩
      have hne : r x.kind ≠ r task.kind := fun e => hk (by
        rw [← hacc x hx first (List.mem_cons_self _ _), hr e])
      have hty : r task.kind ≤ r y.kind := by
        rcases List.mem_cons.mp hy' with rfl | hy'
        · exact le_rfl
        · exact (List.pairwise_cons.mp hsr).1 y hy'
      have hxt : r x.kind ≤ r task.kind := hcross x hx task (List.mem_cons_self _ _)
      exact lt_of_lt_of_le (lt_of_le_of_ne hxt hne) hty
  | [], task :: rest, _, hs => by
    rw [kindGroupsFrom_nil_cons]
    exact kindGroupsFrom_pairwise hr [task] rest (KindUniform.singleton task) hs

/-- `x` is in an earlier group than `y`, wherever each is. -/
def EarlierWave (groups : List (List Unstructured)) (x y : Unstructured) : Prop :=
  ∀ (i j : Nat) (hi : i < groups.length) (hj : j < groups.length), x ∈ groups[i] → y ∈ groups[j] → i < j

/-- `x` and `y` are in one group, wherever each is. -/
def SameWave (groups : List (List Unstructured)) (x y : Unstructured) : Prop :=
  ∀ (i j : Nat) (hi : i < groups.length) (hj : j < groups.length), x ∈ groups[i] → y ∈ groups[j] → i = j

variable (hr : Function.Injective r) {l : List Unstructured}
  (hs : l.Pairwise fun x y => r x.kind ≤ r y.kind)
include hr hs

/-- **A lower rank is an earlier wave.** -/
theorem kindGroups_earlierWave {x y : Unstructured} (hxy : r x.kind < r y.kind) :
    EarlierWave (kindGroups l) x y := by
  intro i j hi hj hx hy
  have hp := List.pairwise_iff_getElem.mp (kindGroupsFrom_pairwise hr [] l (by simp [KindUniform]) hs)
  rcases lt_trichotomy i j with h | rfl | h
  · exact h
  · have := (kindGroups_uniform l _ (List.getElem_mem hi)).2 x hx y hy
    exact absurd hxy (by rw [this]; exact lt_irrefl _)
  · exact absurd (hp j i hj hi h y hy x hx) (not_lt.mpr hxy.le)

/-- **A kind is one wave.** -/
theorem kindGroups_sameWave {x y : Unstructured} (hxy : x.kind = y.kind) :
    SameWave (kindGroups l) x y := by
  intro i j hi hj hx hy
  have hp := List.pairwise_iff_getElem.mp (kindGroupsFrom_pairwise hr [] l (by simp [KindUniform]) hs)
  rcases lt_trichotomy i j with h | h | h
  · exact absurd (hp i j hi hj h x hx y hy) (by rw [hxy]; exact lt_irrefl _)
  · exact h
  · exact absurd (hp j i hj hi h y hy x hx) (by rw [hxy]; exact lt_irrefl _)

end Sorted

/-! ## The waves of a whole call -/

section Call

variable (sc : SyncContext) (il : Interleaving) (syncTasks : List SyncTask)
  (dryRun force update : Bool) (resources : List ResourceDetails)

/-- **What each wave of `doApplySync` calls.** Wave `0` deletes the live
objects of prune tasks, and only when `prune` is set and the run is real;
wave `i + 1` is the `i`-th kind-group's: its discovery call, or, when the
group is admitted, an apply of one of its non-hook tasks. -/
theorem mem_doApplySync_waves {n : Nat} {c : ClusterCall}
    (hn : n < (sc.doApplySync il syncTasks dryRun force update resources).waves.length)
    (hc : c ∈ (sc.doApplySync il syncTasks dryRun force update resources).waves[n]) :
    (n = 0 ∧ ∃ t ∈ syncTasks, ∃ o, t.pruneObj = some o ∧ sc.syncOp.prune = true ∧
      dryRun = false ∧ c = .delete o) ∨
    ∃ i, n = i + 1 ∧ ∃ hi : i < (kindGroups (createObjs syncTasks)).length, ∃ first rest,
      (kindGroups (createObjs syncTasks))[i] = first :: rest ∧
      (c = .discover first.groupVersionKind ∨
        (sc.groupVerdict dryRun (createObjs syncTasks) first.groupVersionKind = .admitted ∧
          ∃ t ∈ first :: rest, sc.isHook t = false ∧ c = .apply t dryRun force)) := by
  obtain ⟨hw, -⟩ := doApplySync_spec sc dryRun force update il syncTasks resources
  rw [List.getElem_of_eq hw hn] at hc
  cases n with
  | zero => exact .inl ⟨rfl, mem_pruneResults_calls sc dryRun syncTasks hc⟩
  | succ i =>
    have hne := fun g hg => (kindGroups_uniform (createObjs syncTasks) g hg).1
    have hlen := hn
    rw [hw, List.length_cons] at hlen
    obtain ⟨hi, hmem⟩ := getElem_flatMap_groupWaves sc dryRun force (createObjs syncTasks) hne
      (Nat.lt_of_succ_lt_succ hlen)
    obtain ⟨first, rest, hfr⟩ := List.exists_cons_of_ne_nil (hne _ (List.getElem_mem hi))
    rw [hfr] at hmem
    exact .inr ⟨i, rfl, hi, first, rest, hfr, mem_groupWaves sc dryRun force _ hmem hc⟩

/-- **No group short-circuits the others.** Whatever the cluster answers and
whatever earlier groups did, `doApplySync` runs one wave per kind-group after
the prune wave; each opens with the discovery call of its group's
GroupVersionKind, and an admitted group's wave applies every non-hook task
of the group. -/
theorem doApplySync_every_group_runs :
    let waves : List (List ClusterCall) := (sc.doApplySync il syncTasks dryRun force update resources).waves
    let groups := kindGroups (createObjs syncTasks)
    waves.length = groups.length + 1 ∧
    ∀ i (hi : i < groups.length), ∃ first rest w, groups[i] = first :: rest ∧
      waves[i + 1]? = some (.discover first.groupVersionKind :: w) ∧
      (sc.groupVerdict dryRun (createObjs syncTasks) first.groupVersionKind = .admitted →
        ∀ t ∈ first :: rest, sc.isHook t = false → .apply t dryRun force ∈ w) := by
  intro waves groups
  obtain ⟨hw, -⟩ := doApplySync_spec sc dryRun force update il syncTasks resources
  have hne := fun g hg => (kindGroups_uniform (createObjs syncTasks) g hg).1
  have hlen := length_flatMap_groupWaves sc dryRun force (createObjs syncTasks) hne
  have hw' : waves = _ := hw
  refine ⟨by rw [hw', List.length_cons, hlen], fun i hi => ?_⟩
  obtain ⟨_, hmem⟩ := getElem_flatMap_groupWaves sc dryRun force (createObjs syncTasks) hne
    (hlen.symm ▸ hi)
  obtain ⟨first, rest, hfr⟩ := List.exists_cons_of_ne_nil (hne _ (List.getElem_mem hi))
  rw [hfr] at hmem
  simp only [SyncContext.groupWaves, List.mem_singleton] at hmem
  have hwave : waves[i + 1]? = some ((kindGroups (createObjs syncTasks)).flatMap
      (sc.groupWaves dryRun force (createObjs syncTasks)))[i] := by
    rw [hw', List.getElem?_cons_succ, List.getElem?_eq_getElem]
  rw [hmem] at hwave
  exact ⟨first, rest, _, hfr, hwave, fun hv t ht hh => by
    simpa only [hv] using apply_mem_applyResults_calls sc dryRun force ht hh⟩

/-- Wave `n` applies `o`, with some flags. -/
def AppliesIn (waves : List (List ClusterCall)) (n : Nat) (o : Unstructured) : Prop :=
  ∃ (h : n < waves.length) (dryRun force : Bool), ClusterCall.apply o dryRun force ∈ waves[n]

/-- **An object applied in wave `n` is a task of group `n - 1`.** -/
theorem appliesIn_group {n : Nat} {o : Unstructured}
    (h : AppliesIn (sc.doApplySync il syncTasks dryRun force update resources).waves n o) :
    ∃ i, n = i + 1 ∧ ∃ hi : i < (kindGroups (createObjs syncTasks)).length,
      o ∈ (kindGroups (createObjs syncTasks))[i] := by
  obtain ⟨hn, d, f, hc⟩ := h
  rcases mem_doApplySync_waves sc il syncTasks dryRun force update resources hn hc with
    ⟨-, t, -, o', -, -, -, h⟩ | ⟨i, rfl, hi, first, rest, hfr, h | ⟨-, t, ht, -, h⟩⟩
  · cases h
  · cases h
  · cases h
    exact ⟨i, rfl, hi, hfr ▸ ht⟩

/-- **The wave of a created object's group**: wave `i + 1` opens with the
discovery of a task of the object's kind, and applies the object when the
group is admitted and the object is no hook. -/
theorem doApplySync_wave_of_mem {i : Nat} (hi : i < (kindGroups (createObjs syncTasks)).length)
    {o : Unstructured} (ho : o ∈ (kindGroups (createObjs syncTasks))[i]) :
    ∃ first ∈ createObjs syncTasks, ∃ w, first.kind = o.kind ∧
      (sc.doApplySync il syncTasks dryRun force update resources).waves[i + 1]? =
        some (.discover first.groupVersionKind :: w) ∧
      (sc.groupVerdict dryRun (createObjs syncTasks) first.groupVersionKind = .admitted →
        sc.isHook o = false → .apply o dryRun force ∈ w) := by
  obtain ⟨first, rest, w, hfr, hw, happ⟩ :=
    (doApplySync_every_group_runs sc il syncTasks dryRun force update resources).2 i hi
  have hg := hfr ▸ List.getElem_mem hi
  rw [hfr] at ho
  refine ⟨first, ?_, w, (kindGroups_uniform _ _ hg).2 first (List.mem_cons_self _ _) o ho, hw,
    fun hv hh => happ hv o ho hh⟩
  rw [← flatten_kindGroups (createObjs syncTasks)]
  exact List.mem_flatten.mpr ⟨_, hg, List.mem_cons_self _ _⟩

end Call

/-! ## The waves of `generateSyncTasks`' order -/

variable (k : KindSorter)

/-- The creates of a list in key order are in kind-rank order. -/
theorem createObjs_sorted {l : List SyncTask} (hl : (l.map k.taskKey).Sorted (· ≤ ·)) :
    (createObjs l).Pairwise fun x y => k.kindRank x.kind ≤ k.kindRank y.kind := by
  refine List.Pairwise.filterMap _ (fun a b hab x hx y hy => ?_) (List.pairwise_map.mp hl)
  simp only [KindSorter.taskKey, Option.mem_def.mp hx, Option.mem_def.mp hy,
    WithTop.coe_le_coe] at hab
  exact Prod.Lex.monotone_fst _ _ hab

/-- The ranks of `resourceOrder`'s sorter tell kinds apart. -/
theorem kindRank_resourceOrder_injective : Function.Injective (newKindSorter resourceOrder).kindRank :=
  fun _ _ h => ((newKindSorter resourceOrder).kindRank_eq_iff (newKindSorter_injective _)).mp h

/-- A listed kind ranks below every kind listed after it and every unlisted
kind. -/
theorem kindRank_lt_of_ordering {a b : String} {i : Nat} (ha : orderingOf resourceOrder a = some i)
    (hb : ∀ j, orderingOf resourceOrder b = some j → i < j) :
    (newKindSorter resourceOrder).kindRank a < (newKindSorter resourceOrder).kindRank b := by
  rw [(newKindSorter resourceOrder).kindRank_of_ordering ha]
  cases h : orderingOf resourceOrder b with
  | none => rw [(newKindSorter resourceOrder).kindRank_of_ordering_none h]; simp [Prod.Lex.lt_iff]
  | some j =>
    rw [(newKindSorter resourceOrder).kindRank_of_ordering h]
    simpa [Prod.Lex.lt_iff] using hb j h

/-- **Clash-free, the creates `generateSyncTasks` gives are in rank order.** -/
theorem generateSyncTasks_createObjs_sorted {sc : SyncContext} {tasks : List SyncTask}
    (h : sc.generateSyncTasks = .ok tasks) (hl : (newKindSorter resourceOrder).NoClash tasks) :
    (createObjs tasks).Pairwise fun x y =>
      (newKindSorter resourceOrder).kindRank x.kind ≤ (newKindSorter resourceOrder).kindRank y.kind := by
  obtain ⟨l, -, rfl⟩ := generateSyncTasks_eq_ok h
  have hp := sc.sortAlgo.perm (newKindSorter resourceOrder).less l
  exact createObjs_sorted _ (KindSorter.sorted_taskKey _ sc.sortAlgo (newKindSorter_injective _)
    fun a ha b hb => hl a (hp.symm.subset ha) b (hp.symm.subset hb))

/-- **Away from clashes the apply waves follow `resourceOrder`.** Run on the
tasks `generateSyncTasks` sorted, with no `Namespace` target beside a target
of an unlisted kind, `doApplySync` applies nothing in the prune wave; it
applies the objects of one kind in one wave; an object of a kind listed
earlier in `resourceOrder` in an earlier wave; and an object of a listed kind
in an earlier wave than one of an unlisted kind. -/
theorem applyWaves_follow_resourceOrder {sc : SyncContext} {tasks : List SyncTask}
    (hgen : sc.generateSyncTasks = .ok tasks) (hl : (newKindSorter resourceOrder).NoClash tasks)
    (il : Interleaving) (dryRun force update : Bool) (resources : List ResourceDetails)
    {x y : Unstructured} {n m : Nat}
    (hx : AppliesIn (sc.doApplySync il tasks dryRun force update resources).waves n x)
    (hy : AppliesIn (sc.doApplySync il tasks dryRun force update resources).waves m y) :
    0 < n ∧ (x.kind = y.kind → n = m) ∧
    (∀ i j, orderingOf resourceOrder x.kind = some i → orderingOf resourceOrder y.kind = some j →
      i < j → n < m) ∧
    ((orderingOf resourceOrder x.kind).isSome → orderingOf resourceOrder y.kind = none → n < m) := by
  have hr := kindRank_resourceOrder_injective
  have hs := generateSyncTasks_createObjs_sorted hgen hl
  obtain ⟨i, rfl, hi, hxi⟩ := appliesIn_group sc il tasks dryRun force update resources hx
  obtain ⟨j, rfl, hj, hyj⟩ := appliesIn_group sc il tasks dryRun force update resources hy
  have hlt : (newKindSorter resourceOrder).kindRank x.kind <
      (newKindSorter resourceOrder).kindRank y.kind → i + 1 < j + 1 := fun h =>
    Nat.succ_lt_succ (kindGroups_earlierWave hr hs h i j hi hj hxi hyj)
  refine ⟨Nat.succ_pos _, fun h => congrArg (· + 1) (kindGroups_sameWave hr hs h i j hi hj hxi hyj),
    fun a b ha hb hab => hlt (kindRank_lt_of_ordering ha fun j hj => ?_),
    fun ha hb => hlt ?_⟩
  · rw [hb, Option.some.injEq] at hj
    exact hj ▸ hab
  · obtain ⟨a, ha⟩ := Option.isSome_iff_exists.mp ha
    exact kindRank_lt_of_ordering ha fun j hj => by simp [hb] at hj

/-! ## Two task lists -/

/-- A `ConfigMap` is applied in an earlier wave than a `Deployment`. -/
theorem applyWaves_follow_resourceOrder_configMap :
    let sc := acceptingContext [targetState (coreObj "Deployment" "d"), targetState (coreObj "ConfigMap" "c")]
    let tasks := [createTask (coreObj "ConfigMap" "c"), createTask (coreObj "Deployment" "d")]
    let waves := (sc.doApplySync .inOrder tasks false false true []).waves
    sc.generateSyncTasks = .ok tasks ∧ (newKindSorter resourceOrder).NoClash tasks ∧
    AppliesIn waves 1 (coreObj "ConfigMap" "c") ∧ AppliesIn waves 2 (coreObj "Deployment" "d") ∧
    (∀ i j, orderingOf resourceOrder "ConfigMap" = some i → orderingOf resourceOrder "Deployment" = some j →
      i < j → 1 < 2) :=
  have hgen := rfl
  have hl := by decide
  have hx := ⟨by decide, false, false, by decide⟩
  have hy := ⟨by decide, false, false, by decide⟩
  ⟨hgen, hl, hx, hy, (applyWaves_follow_resourceOrder hgen hl _ _ _ _ _ hx hy).2.2.1⟩

/-- **A `Namespace` beside an unlisted kind breaks the waves.** `Foo` is
looked up as index `0`, like `Namespace`, so `sort.Sort` orders
`Namespace/m`, `Foo/a` and `Foo/z` by name alone: `Foo/a`, `Namespace/m`,
`Foo/z`. Whatever the cluster answers, a real apply of the tasks then runs
`Foo` in two waves, the first of them before the `Namespace`'s. -/
theorem apply_waves_unlisted_before_namespace {sc : SyncContext}
    (hres : sc.resources = [targetState (coreObj "Namespace" "m"), targetState (coreObj "Foo" "a"),
      targetState (coreObj "Foo" "z")])
    (hsel : sc.syncResources = none) (hsort : sc.sortAlgo = goInsertionSort SyncTask)
    (hdisco : ∀ gvk, ∃ namespaced, sc.disco.serverResourceForGroupVersionKind gvk = .ok namespaced)
    (hperm : ∀ gk namespaced, sc.proj.isResourcePermitted gk namespaced = true)
    (hhook : ∀ o, sc.isHook o = false) :
    let tasks := [createTask (coreObj "Foo" "a"), createTask (coreObj "Namespace" "m"),
      createTask (coreObj "Foo" "z")]
    sc.generateSyncTasks = .ok tasks ∧
    ∀ il force update resources, (sc.doApplySync il tasks false force update resources).waves =
      [[], [.discover (coreObj "Foo" "a").groupVersionKind, .apply (coreObj "Foo" "a") false force],
        [.discover (coreObj "Namespace" "m").groupVersionKind,
          .apply (coreObj "Namespace" "m") false force],
        [.discover (coreObj "Foo" "z").groupVersionKind, .apply (coreObj "Foo" "z") false force]] := by
  intro tasks
  refine ⟨by unfold SyncContext.generateSyncTasks; rw [hres, hsel, hsort]; rfl,
    fun il force update resources => ?_⟩
  have hadm : ∀ gvk, sc.groupVerdict false (createObjs tasks) gvk = .admitted := fun gvk =>
    let ⟨b, hb⟩ := hdisco gvk
    (groupVerdict_eq_admitted_iff sc false _).mpr ⟨b, hb, hperm _ _⟩
  have hg : kindGroups (createObjs tasks) =
      [[coreObj "Foo" "a"], [coreObj "Namespace" "m"], [coreObj "Foo" "z"]] := by decide
  have hp : sc.pruneResults false tasks = [] := rfl
  rw [(doApplySync_spec sc false force update il tasks resources).1, hg]
  simp [SyncContext.groupWaves, hadm, SyncContext.applyResults, hhook, hp]

/-- The accepting context of the three tasks. -/
theorem apply_waves_unlisted_before_namespace_accepting :
    let sc := acceptingContext [targetState (coreObj "Namespace" "m"), targetState (coreObj "Foo" "a"),
      targetState (coreObj "Foo" "z")]
    let tasks := [createTask (coreObj "Foo" "a"), createTask (coreObj "Namespace" "m"),
      createTask (coreObj "Foo" "z")]
    sc.generateSyncTasks = .ok tasks ∧
    ∀ il force update resources, (sc.doApplySync il tasks false force update resources).waves =
      [[], [.discover (coreObj "Foo" "a").groupVersionKind, .apply (coreObj "Foo" "a") false force],
        [.discover (coreObj "Namespace" "m").groupVersionKind,
          .apply (coreObj "Namespace" "m") false force],
        [.discover (coreObj "Foo" "z").groupVersionKind, .apply (coreObj "Foo" "z") false force]] :=
  apply_waves_unlisted_before_namespace rfl rfl rfl (fun _ => ⟨true, rfl⟩) (fun _ _ => rfl) (fun _ => rfl)

/-! ## The CRD exception of the dry run -/

/-- `hasCRDOfGroupKind` finds a CRD among the tasks that defines the group-kind. -/
theorem exists_of_hasCRDOfGroupKind {tasks : List Unstructured} {group kind : String}
    (h : hasCRDOfGroupKind tasks group kind = true) :
    ∃ crd ∈ tasks, isCRD crd = true ∧ crd.specGroup = some group ∧ crd.specNamesKind = some kind := by
  induction tasks with
  | nil => simp [hasCRDOfGroupKind] at h
  | cons task tasks ih =>
    have ih' : hasCRDOfGroupKind tasks group kind = true → ∃ crd ∈ task :: tasks, isCRD crd = true ∧
        crd.specGroup = some group ∧ crd.specNamesKind = some kind := fun h =>
      let ⟨crd, hc, hr⟩ := ih h
      ⟨crd, List.mem_cons_of_mem _ hc, hr⟩
    unfold hasCRDOfGroupKind at h
    split at h
    · rename_i hcrd
      split at h
      · rename_i crdGroup crdKind hg hk
        split at h
        · rename_i heq
          exact ⟨task, List.mem_cons_self _ _, hcrd, heq.1 ▸ hg, heq.2 ▸ hk⟩
        · exact ih' h
      · exact ih' h
    · exact ih' h

/-- A group the dry run skips has a CRD among the creates that defines it. -/
theorem hasCRDOfGroupKind_of_skipped {sc : SyncContext} {creates : List Unstructured}
    {gvk : GroupVersionKind} (h : sc.groupVerdict true creates gvk = .skipped) :
    hasCRDOfGroupKind creates gvk.group gvk.kind = true := by
  unfold SyncContext.groupVerdict at h
  split at h
  · split at h
    · rename_i hv
      simp only [Bool.true_and, Bool.and_eq_true] at hv
      exact hv.2
    · cases h
  · split at h <;> cases h

/-- A created object lies in some kind-group. -/
theorem exists_mem_kindGroups {l : List Unstructured} {o : Unstructured} (h : o ∈ l) :
    ∃ i, ∃ hi : i < (kindGroups l).length, o ∈ (kindGroups l)[i] := by
  rw [← flatten_kindGroups l] at h
  obtain ⟨g, hg, ho⟩ := List.mem_flatten.mp h
  obtain ⟨i, hi, rfl⟩ := List.getElem_of_mem hg
  exact ⟨i, hi, ho⟩

/-- **The CRD's wave precedes its instances' when its kind is ranked after
CustomResourceDefinition.** When the dry run skips a group-kind, a CRD among
the creates defines it. If that kind is unlisted or listed after
CustomResourceDefinition, and no `Namespace` target is beside a target of an
unlisted kind, then a real apply of the same tasks, where discovery finds
CRDs, the project permits them and none is a hook, applies that CRD in some
wave; every object of the kind belongs to a later wave, which opens with the
discovery of the kind and applies the object when its group is admitted. -/
theorem crd_wave_before_instances {sc : SyncContext} {tasks : List SyncTask}
    (hgen : sc.generateSyncTasks = .ok tasks) (hl : (newKindSorter resourceOrder).NoClash tasks)
    {gvk : GroupVersionKind} (hskip : sc.groupVerdict true (createObjs tasks) gvk = .skipped)
    (hk : ∀ i j, orderingOf resourceOrder "CustomResourceDefinition" = some j →
      orderingOf resourceOrder gvk.kind = some i → j < i)
    (hcrd : ∀ o ∈ createObjs tasks, isCRD o = true → sc.isHook o = false ∧ ∃ namespaced,
      sc.disco.serverResourceForGroupVersionKind o.groupVersionKind = .ok namespaced ∧
        sc.proj.isResourcePermitted ⟨o.group, o.kind⟩ namespaced = true) :
    ∃ crd ∈ createObjs tasks, isCRD crd = true ∧ crd.specGroup = some gvk.group ∧
      crd.specNamesKind = some gvk.kind ∧
      ∀ il force update resources, ∃ n,
        AppliesIn (sc.doApplySync il tasks false force update resources).waves n crd ∧
        ∀ x ∈ createObjs tasks, x.kind = gvk.kind → ∃ m, ∃ first : Unstructured, ∃ w,
          n < m ∧ first.kind = gvk.kind ∧
          (sc.doApplySync il tasks false force update resources).waves[m]? =
            some (.discover first.groupVersionKind :: w) ∧
          (sc.groupVerdict false (createObjs tasks) first.groupVersionKind = .admitted →
            sc.isHook x = false → .apply x false force ∈ w) := by
  obtain ⟨crd, hmem, hisCRD, hg, hkd⟩ := exists_of_hasCRDOfGroupKind (hasCRDOfGroupKind_of_skipped hskip)
  have hcrdKind : crd.kind = "CustomResourceDefinition" := by simpa [isCRD] using hisCRD
  refine ⟨crd, hmem, hisCRD, hg, hkd, fun il force update resources => ?_⟩
  -- the CRD's group is admitted, so its wave applies it
  obtain ⟨i, hi, hci⟩ := exists_mem_kindGroups hmem
  obtain ⟨first, hfm, w, hfk, hw, happ⟩ := doApplySync_wave_of_mem sc il tasks false force update resources hi hci
  have hadm : sc.groupVerdict false (createObjs tasks) first.groupVersionKind = .admitted :=
    (groupVerdict_eq_admitted_iff sc false _).mpr
      (hcrd first hfm (by simp [isCRD, hfk.trans hcrdKind])).2
  obtain ⟨hlt, hget⟩ := List.getElem?_eq_some_iff.mp hw
  refine ⟨i + 1, ⟨hlt, false, force, hget ▸ List.mem_cons_of_mem _ (happ hadm (hcrd crd hmem hisCRD).1)⟩,
    fun x hx hxk => ?_⟩
  -- every instance's group comes later, since the CRD's kind ranks lower
  have hrank : (newKindSorter resourceOrder).kindRank crd.kind <
      (newKindSorter resourceOrder).kindRank x.kind := by
    rw [hcrdKind, hxk]
    exact kindRank_lt_of_ordering (by decide) fun j hj => hk j 10 (by decide) hj
  obtain ⟨j, hj, hxj⟩ := exists_mem_kindGroups hx
  obtain ⟨first', -, w', hfk', hw', happ'⟩ := doApplySync_wave_of_mem sc il tasks false force update resources hj hxj
  exact ⟨j + 1, first', w', Nat.succ_lt_succ (kindGroups_earlierWave kindRank_resourceOrder_injective
    (generateSyncTasks_createObjs_sorted hgen hl) hrank i j hi hj hci hxj), hfk'.trans hxk, hw', happ'⟩

/-- A CRD of group `example.io` and kind `Foo`. -/
def fooCRD : Unstructured :=
  ⟨"foos.example.io", "", "apiextensions.k8s.io", "v1", "CustomResourceDefinition", some "example.io",
    some "Foo"⟩

/-- An object of that kind. -/
def fooObj : Unstructured := ⟨"foo", "", "example.io", "v1", "Foo", none, none⟩

/-- A context whose discovery does not know `group` yet. -/
def crdContext (group : String) (resources : List ResourceState) : SyncContext :=
  { acceptingContext resources with
    disco := ⟨fun gvk => if gvk.group = group then .error ⟨"the server could not find the requested resource", true⟩
      else .ok false⟩ }

/-- A `Foo` and its CRD: the dry run skips `Foo`; the real apply applies the
CRD in wave 1 and discovers `Foo` in wave 2. -/
theorem crd_wave_before_instances_foo :
    let sc := crdContext "example.io" [targetState fooObj, targetState fooCRD]
    let tasks := [createTask fooCRD, createTask fooObj]
    sc.generateSyncTasks = .ok tasks ∧ (newKindSorter resourceOrder).NoClash tasks ∧
    sc.groupVerdict true (createObjs tasks) fooObj.groupVersionKind = .skipped ∧
    (∀ o ∈ createObjs tasks, isCRD o = true → sc.isHook o = false ∧ ∃ namespaced,
      sc.disco.serverResourceForGroupVersionKind o.groupVersionKind = .ok namespaced ∧
        sc.proj.isResourcePermitted ⟨o.group, o.kind⟩ namespaced = true) ∧
    ∃ crd ∈ createObjs tasks, isCRD crd = true ∧ crd.specGroup = some "example.io" ∧
      crd.specNamesKind = some "Foo" ∧
      ∀ il force update resources, ∃ n,
        AppliesIn (sc.doApplySync il tasks false force update resources).waves n crd ∧
        ∀ x ∈ createObjs tasks, x.kind = "Foo" → ∃ m, ∃ first : Unstructured, ∃ w, n < m ∧
          first.kind = "Foo" ∧
          (sc.doApplySync il tasks false force update resources).waves[m]? =
            some (.discover first.groupVersionKind :: w) ∧
          (sc.groupVerdict false (createObjs tasks) first.groupVersionKind = .admitted →
            sc.isHook x = false → .apply x false force ∈ w) :=
  have hgen := rfl
  have hl := by decide
  have hskip := by decide
  have hcrd : ∀ o ∈ createObjs [createTask fooCRD, createTask fooObj], isCRD o = true →
      (crdContext "example.io" [targetState fooObj, targetState fooCRD]).isHook o = false ∧ ∃ namespaced,
        (crdContext "example.io" [targetState fooObj, targetState fooCRD]).disco.serverResourceForGroupVersionKind
          o.groupVersionKind = .ok namespaced ∧
        (crdContext "example.io" [targetState fooObj, targetState fooCRD]).proj.isResourcePermitted
          ⟨o.group, o.kind⟩ namespaced = true := fun o ho hc => by
    rw [show createObjs [createTask fooCRD, createTask fooObj] = [fooCRD, fooObj] from rfl] at ho
    rcases List.mem_pair.mp ho with rfl | rfl
    · exact ⟨rfl, false, rfl, rfl⟩
    · cases hc
  ⟨hgen, hl, hskip, hcrd, crd_wave_before_instances hgen hl hskip (fun _ _ _ h => by cases h) hcrd⟩

/-- **A custom kind named like a kind listed before CustomResourceDefinition
is applied before its CRD.** A `ConfigMap` of group `example.io` sorts at
`ConfigMap`'s index, before its CRD. The dry run skips its group, since the
CRD is among the creates; the real apply then runs the instance's group
first, where discovery still does not know the kind: the instance fails and
the sync with it, and the CRD is applied one wave later. -/
theorem crd_skip_instances_first :
    let configMap : Unstructured := ⟨"cm", "", "example.io", "v1", "ConfigMap", none, none⟩
    let crd : Unstructured := ⟨"configmaps.example.io", "", "apiextensions.k8s.io", "v1",
      "CustomResourceDefinition", some "example.io", some "ConfigMap"⟩
    let sc := crdContext "example.io" [targetState crd, targetState configMap]
    let tasks := [createTask configMap, createTask crd]
    let real := sc.doApplySync .inOrder tasks false false true []
    sc.generateSyncTasks = .ok tasks ∧
    sc.groupVerdict true (createObjs tasks) configMap.groupVersionKind = .skipped ∧
    real.waves = [[], [.discover configMap.groupVersionKind],
      [.discover crd.groupVersionKind, .apply crd false false]] ∧
    real.successful = false := by
  refine ⟨rfl, by decide, by decide, by decide⟩

end ArgoSync
