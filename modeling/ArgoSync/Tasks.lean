import ArgoSync.KindOrder
/-!
# The tasks `generateSyncTasks` builds

The loop of `generateSyncTasks` decodes each resource state, stops at the
first side that fails to decode, and keeps the task of each selected pair.
What it does with one state is said once, as an inversion and a construction
(`collectSyncTasks_cons_eq_ok`, `collectSyncTasks_cons_of_ok`). From these: a
permutation of the states permutes the tasks (`collectSyncTasks_perm`); with
no selection every state gives a task; with an empty, non-nil selection none
does.

Over the loop, the sort: away from the clashes of `KindOrder`, the tasks
`generateSyncTasks` returns are in key order, and their key sequence does not
depend on the order of the resource states (`generateSyncTasks_key_order`).
-/

namespace ArgoSync

open scoped List

variable {syncResources : Option (List SyncOperationResource)}

/-! ## One resource state -/

/-- **What the loop does with a state it gets past**: both sides decode, the
rest of the loop succeeds, and the state's task is kept when it is
selected. -/
theorem collectSyncTasks_cons_eq_ok {rs : ResourceState} {rest : List ResourceState}
    {syncTasks : List SyncTask} (h : collectSyncTasks syncResources (rs :: rest) = .ok syncTasks) :
    ∃ liveObj targetObj tasks, ∃ (hl : rs.liveObject = .ok liveObj)
      (ht : rs.targetObject = .ok targetObj), collectSyncTasks syncResources rest = .ok tasks ∧
      syncTasks = if syncResourceSelected syncResources liveObj targetObj then
        ⟨liveObj, targetObj, rs.present _ _ hl ht⟩ :: tasks else tasks := by
  unfold collectSyncTasks at h
  split at h
  · cases h
  · rename_i liveObj hl
    split at h
    · cases h
    · rename_i targetObj ht
      cases hc : collectSyncTasks syncResources rest with
      | error e => rw [hc] at h; cases h
      | ok tasks => rw [hc] at h; cases h; exact ⟨liveObj, targetObj, tasks, hl, ht, rfl, rfl⟩

/-- The loop gets past a state whose sides decode, when the rest succeeds. -/
theorem collectSyncTasks_cons_of_ok {rs : ResourceState} {rest : List ResourceState}
    {liveObj targetObj : Option Unstructured} {tasks : List SyncTask}
    (hl : rs.liveObject = .ok liveObj) (ht : rs.targetObject = .ok targetObj)
    (h : collectSyncTasks syncResources rest = .ok tasks) :
    collectSyncTasks syncResources (rs :: rest) =
      .ok (if syncResourceSelected syncResources liveObj targetObj then
        ⟨liveObj, targetObj, rs.present _ _ hl ht⟩ :: tasks else tasks) := by
  unfold collectSyncTasks
  split
  · rename_i heq; rw [hl] at heq; cases heq
  · rename_i liveObj' hl'
    cases hl.symm.trans hl'
    split
    · rename_i heq; rw [ht] at heq; cases heq
    · rename_i targetObj' ht'
      cases ht.symm.trans ht'
      rw [h]
      rfl

/-! ## The whole loop -/

/-- **Permuting the states permutes the tasks.** The loop succeeds on every
permutation of a list of states it succeeds on, with the same tasks. -/
theorem collectSyncTasks_perm {states states' : List ResourceState} (hp : states ~ states')
    {syncTasks : List SyncTask} (h : collectSyncTasks syncResources states = .ok syncTasks) :
    ∃ syncTasks', collectSyncTasks syncResources states' = .ok syncTasks' ∧ syncTasks' ~ syncTasks := by
  induction hp generalizing syncTasks with
  | nil => exact ⟨_, h, .refl _⟩
  | cons rs _ ih =>
    obtain ⟨l, t, tasks, hl, ht, hc, rfl⟩ := collectSyncTasks_cons_eq_ok h
    obtain ⟨tasks', hc', hp'⟩ := ih hc
    refine ⟨_, collectSyncTasks_cons_of_ok hl ht hc', ?_⟩
    split_ifs
    · exact hp'.cons _
    · exact hp'
  | swap a b rest =>
    obtain ⟨lb, tb, tasks₁, hlb, htb, hc₁, rfl⟩ := collectSyncTasks_cons_eq_ok h
    obtain ⟨la, ta, tasks, hla, hta, hc, rfl⟩ := collectSyncTasks_cons_eq_ok hc₁
    refine ⟨_, collectSyncTasks_cons_of_ok hla hta (collectSyncTasks_cons_of_ok hlb htb hc), ?_⟩
    split_ifs <;> first | exact .swap _ _ _ | rfl
  | trans _ _ ih₁ ih₂ =>
    obtain ⟨tasks₁, h₁, hp₁⟩ := ih₁ h
    obtain ⟨tasks₂, h₂, hp₂⟩ := ih₂ h₁
    exact ⟨tasks₂, h₂, hp₂.trans hp₁⟩

/-- **The loop succeeds when every state decodes.** -/
theorem collectSyncTasks_ok : ∀ {states : List ResourceState},
    (∀ rs ∈ states, (∃ l, rs.liveObject = .ok l) ∧ ∃ t, rs.targetObject = .ok t) →
    ∃ syncTasks, collectSyncTasks syncResources states = .ok syncTasks
  | [], _ => ⟨[], rfl⟩
  | rs :: _, h => by
    obtain ⟨⟨_, hl⟩, _, ht⟩ := h rs (List.mem_cons_self _ _)
    obtain ⟨_, hrest⟩ := collectSyncTasks_ok fun r hr => h r (List.mem_cons_of_mem _ hr)
    exact ⟨_, collectSyncTasks_cons_of_ok hl ht hrest⟩

/-- **With no selection every state gives a task.** -/
theorem length_collectSyncTasks_none {states : List ResourceState} {syncTasks : List SyncTask}
    (h : collectSyncTasks none states = .ok syncTasks) : syncTasks.length = states.length := by
  induction states generalizing syncTasks with
  | nil => simp only [collectSyncTasks] at h; cases h; rfl
  | cons rs rest ih =>
    obtain ⟨l, t, tasks, -, -, hc, rfl⟩ := collectSyncTasks_cons_eq_ok h
    simp [syncResourceSelected, ih hc]

/-- **Every task the loop keeps is selected.** -/
theorem selected_of_mem_collectSyncTasks {states : List ResourceState} {syncTasks : List SyncTask}
    (h : collectSyncTasks syncResources states = .ok syncTasks) {t : SyncTask} (ht : t ∈ syncTasks) :
    syncResourceSelected syncResources t.liveObj t.targetObj = true := by
  induction states generalizing syncTasks with
  | nil => simp only [collectSyncTasks] at h; cases h; cases ht
  | cons rs rest ih =>
    obtain ⟨l, tg, tasks, _, _, hc, rfl⟩ := collectSyncTasks_cons_eq_ok h
    by_cases hsel : syncResourceSelected syncResources l tg = true
    · rw [if_pos hsel] at ht
      rcases List.mem_cons.mp ht with rfl | ht
      · exact hsel
      · exact ih hc ht
    · rw [if_neg hsel] at ht
      exact ih hc ht

/-- A selection by a resource list keeps a pair when the list names its live
or its target object. -/
theorem syncResourceSelected_some_iff {rr : List SyncOperationResource}
    {liveObj targetObj : Option Unstructured} :
    syncResourceSelected (some rr) liveObj targetObj = true ↔
      (∃ o, liveObj = some o ∧ containsSyncResource o.name o.groupVersionKind rr = true) ∨
      ∃ o, targetObj = some o ∧ containsSyncResource o.name o.groupVersionKind rr = true := by
  cases liveObj <;> cases targetObj <;> simp [syncResourceSelected]

/-- The selection of `generateSyncTasks` with an empty, non-nil resource
list selects nothing. -/
theorem syncResourceSelected_nil (liveObj targetObj : Option Unstructured) :
    syncResourceSelected (some []) liveObj targetObj = false := by
  cases liveObj <;> cases targetObj <;> rfl

/-- With an empty, non-nil selection, the loop keeps no task of states that
decode. -/
theorem collectSyncTasks_nil_selection : ∀ (states : List ResourceState),
    (∀ rs ∈ states, ∃ l t, rs.liveObject = .ok l ∧ rs.targetObject = .ok t) →
    collectSyncTasks (some []) states = .ok []
  | [], _ => rfl
  | rs :: states, h => by
    obtain ⟨l, t, hl, ht⟩ := h rs (List.mem_cons_self _ _)
    rw [collectSyncTasks_cons_of_ok hl ht (collectSyncTasks_nil_selection states
      fun rs' h' => h rs' (List.mem_cons_of_mem _ h')), syncResourceSelected_nil]
    rfl

/-! ## A context that accepts everything -/

/-- A resource state with a target and no live object yet. -/
def targetState (o : Unstructured) : ResourceState :=
  ⟨.ok none, .ok (some o), fun _ _ _ ht => .inr (by cases ht; rfl)⟩

/-- A project that permits every group-kind. -/
def permissiveProject : AppProject := ⟨"default", fun _ _ => true⟩

/-- A context whose collaborators accept everything: discovery finds every
kind, namespaced; the project permits every group-kind; nothing is a hook;
every apply and delete succeeds; the sort is `sort.Sort` on a short list and
the goroutines finish in task order. -/
def acceptingContext (resources : List ResourceState) : SyncContext where
  proj := permissiveProject
  resources := resources
  ns := "default"
  syncOp := ⟨"HEAD", false, false, none, none⟩
  syncResources := none
  kubectl := ⟨fun _ _ _ _ => .ok "configured", fun _ _ => .ok ()⟩
  disco := ⟨fun _ => .ok true⟩
  isHook := fun _ => false
  sortAlgo := goInsertionSort SyncTask
  getHooks := .ok []
  hookSync := ⟨fun _ _ _ => none, fun _ _ s => s⟩
  schedule := fun _ => .inOrder

/-! ## The sorted tasks -/

/-- `generateSyncTasks` sorts what the loop collects. -/
theorem generateSyncTasks_eq_ok {sc : SyncContext} {tasks : List SyncTask}
    (h : sc.generateSyncTasks = .ok tasks) :
    ∃ l, collectSyncTasks sc.syncResources sc.resources = .ok l ∧
      tasks = sc.sortAlgo.sort (newKindSorter resourceOrder).less l := by
  unfold SyncContext.generateSyncTasks at h
  cases hc : collectSyncTasks sc.syncResources sc.resources with
  | error e => rw [hc] at h; cases h
  | ok l => rw [hc] at h; cases h; exact ⟨l, rfl, rfl⟩

/-- Every task `generateSyncTasks` returns is selected. -/
theorem selected_of_mem_generateSyncTasks {sc : SyncContext} {tasks : List SyncTask}
    (h : sc.generateSyncTasks = .ok tasks) {t : SyncTask} (ht : t ∈ tasks) :
    syncResourceSelected sc.syncResources t.liveObj t.targetObj = true := by
  obtain ⟨l, hc, rfl⟩ := generateSyncTasks_eq_ok h
  exact selected_of_mem_collectSyncTasks hc ((sc.sortAlgo.perm _ l).subset ht)

/-- **Away from clashes, `generateSyncTasks` returns its tasks in key order,
whatever the order of the resource states.** When its tasks hold no
`Namespace` target beside a target of an unlisted kind, `Less` is the key
order on them and they come out in key order; and a context with the same
selection and the same resource states in any order, sorting with any
`sort.Sort`, returns the same tasks in the same key sequence. -/
theorem generateSyncTasks_key_order {sc sc' : SyncContext} {tasks : List SyncTask}
    (hgen : sc.generateSyncTasks = .ok tasks) (hl : (newKindSorter resourceOrder).NoClash tasks)
    (hres : sc'.resources ~ sc.resources) (hsel : sc'.syncResources = sc.syncResources) :
    let k : KindSorter := newKindSorter resourceOrder
    (∀ a ∈ tasks, ∀ b ∈ tasks, k.less a b = decide (k.taskKey a < k.taskKey b)) ∧
    (tasks.map k.taskKey).Sorted (· ≤ ·) ∧
    ∃ tasks', sc'.generateSyncTasks = .ok tasks' ∧ tasks' ~ tasks ∧
      tasks'.map k.taskKey = tasks.map k.taskKey := by
  intro k
  have hk := newKindSorter_injective resourceOrder
  obtain ⟨l, hc, rfl⟩ := generateSyncTasks_eq_ok hgen
  have hp := sc.sortAlgo.perm k.less l
  have hl' : k.NoClash l := fun a ha b hb => hl a (hp.symm.subset ha) b (hp.symm.subset hb)
  obtain ⟨l', hc', hp'⟩ := collectSyncTasks_perm hres.symm (hsel ▸ hc)
  refine ⟨fun a ha b hb => k.less_eq hk (hl a ha b hb), k.sorted_taskKey _ hk hl',
    sc'.sortAlgo.sort k.less l', ?_, ?_, k.sort_map_taskKey_eq _ _ hk hp' (fun a ha b hb =>
      hl' a (hp'.subset ha) b (hp'.subset hb))⟩
  · simp [SyncContext.generateSyncTasks, hc']
  · exact ((sc'.sortAlgo.perm _ _).trans hp').trans hp.symm

/-- A `Deployment` and a `ConfigMap`, in both orders, give the `ConfigMap`
first. -/
theorem generateSyncTasks_key_order_reversed :
    let states := [targetState (coreObj "Deployment" "d"), targetState (coreObj "ConfigMap" "c")]
    let k : KindSorter := newKindSorter resourceOrder
    let tasks := [createTask (coreObj "ConfigMap" "c"), createTask (coreObj "Deployment" "d")]
    (acceptingContext states).generateSyncTasks = .ok tasks ∧ k.NoClash tasks ∧
    (∀ a ∈ tasks, ∀ b ∈ tasks, k.less a b = decide (k.taskKey a < k.taskKey b)) ∧
    (tasks.map k.taskKey).Sorted (· ≤ ·) ∧
    ∃ tasks', (acceptingContext states.reverse).generateSyncTasks = .ok tasks' ∧ tasks' ~ tasks ∧
      tasks'.map k.taskKey = tasks.map k.taskKey :=
  have hgen := rfl
  have hl := by decide
  ⟨hgen, hl, generateSyncTasks_key_order hgen hl (List.reverse_perm _) rfl⟩

end ArgoSync
