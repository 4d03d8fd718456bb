import ArgoSync.Model.Types
import Mathlib.Data.List.Basic
/-!
# The kind sorter

`resourceOrder`, the map `newKindSorter` builds from it, and
`kindSorter.Less`, as `controller/sync.go` has them (the code is Helm's
`kind_sorter.go`). The slice the sorter holds is the list `sort.Sort` is
given, so the structure keeps only the map.

The map is looked up Go's way: a kind it lacks reads as index `0` with
`ok` false. `Less` compares the two indices before it looks at `ok`, which is
where an unlisted kind meets `Namespace`, the kind at index `0`.
-/

namespace ArgoSync

/-- `sortOrder`: an ordering of kinds. -/
abbrev SortOrder := List String

/-- `resourceOrder`: the order in which kinds are applied. -/
def resourceOrder : SortOrder :=
  ["Namespace", "ResourceQuota", "LimitRange", "PodSecurityPolicy", "Secret", "ConfigMap",
   "StorageClass", "PersistentVolume", "PersistentVolumeClaim", "ServiceAccount",
   "CustomResourceDefinition", "ClusterRole", "ClusterRoleBinding", "Role", "RoleBinding",
   "Service", "DaemonSet", "Pod", "ReplicationController", "ReplicaSet", "Deployment",
   "StatefulSet", "Job", "CronJob", "Ingress", "APIService"]

/-- The map `for v, k := range s { o[k] = v }` builds, read at one kind: the
last index at which `s` lists it. -/
def orderingOf : SortOrder → String → Option Nat
  | [], _ => none
  | k :: s, kind =>
    match orderingOf s kind with
    | some v => some (v + 1)
    | none => if k = kind then some 0 else none

/-- Go's `<` on strings, byte-wise in UTF-8: the order of their characters.
Written on the character lists, which is what `String`'s `<` unfolds to, so
that it evaluates. -/
def goLess (a b : String) : Bool := decide (a.toList < b.toList)

@[simp] theorem goLess_iff {a b : String} : goLess a b = true ↔ a < b := by
  simp [goLess, String.lt_iff_toList_lt]

/-- `kindSorter`, with its `ordering` map. -/
structure KindSorter where
  ordering : String → Option Nat

/-- `newKindSorter(m, s)`. -/
def newKindSorter (s : SortOrder) : KindSorter := ⟨orderingOf s⟩

/-- `first, aok := k.ordering[kind]`: the index, `0` when absent. -/
def KindSorter.index (k : KindSorter) (kind : String) : Nat := (k.ordering kind).getD 0

/-- The `ok` of the same lookup. -/
def KindSorter.ok (k : KindSorter) (kind : String) : Bool := (k.ordering kind).isSome

/-- `kindSorter.Less` on two targets: the same index compares by kind when both
kinds are unlisted and differ, and by name otherwise; an unlisted kind goes
last; listed kinds compare by index. -/
def KindSorter.lessTargets (k : KindSorter) (a b : Unstructured) : Bool :=
  if k.index a.kind = k.index b.kind then
    if !k.ok a.kind && !k.ok b.kind && a.kind ≠ b.kind then goLess a.kind b.kind
    else goLess a.name b.name
  else if !k.ok a.kind then false
  else if !k.ok b.kind then true
  else decide (k.index a.kind < k.index b.kind)

/-- `kindSorter.Less`: a task with no target sorts last. -/
def KindSorter.less (k : KindSorter) (ta tb : SyncTask) : Bool :=
  match ta.targetObj, tb.targetObj with
  | none, _ => false
  | some _, none => true
  | some a, some b => k.lessTargets a b

/-! ## The map -/

theorem orderingOf_some {s : SortOrder} {kind : String} {v : Nat} (h : orderingOf s kind = some v) :
    s[v]? = some kind := by
  induction s generalizing v with
  | nil => simp [orderingOf] at h
  | cons k s ih =>
    simp only [orderingOf] at h
    split at h
    · rename_i w hw
      cases h
      simpa using ih hw
    · split at h
      · cases h; simp_all
      · cases h

theorem orderingOf_isSome {s : SortOrder} {kind : String} :
    (orderingOf s kind).isSome ↔ kind ∈ s := by
  induction s with
  | nil => simp [orderingOf]
  | cons k s ih =>
    simp only [orderingOf, List.mem_cons]
    split
    · rename_i v hv
      simp only [Option.isSome_some, true_iff]
      exact .inr (ih.mp (by simp [hv]))
    · rename_i hv
      have : kind ∉ s := fun hs => by simpa [hv] using ih.mpr hs
      split <;> simp_all [eq_comm]

/-- **Two kinds with the same listed index are the same kind**: an index names
the one kind written there. -/
theorem orderingOf_injective {s : SortOrder} {a b : String} {v : Nat}
    (ha : orderingOf s a = some v) (hb : orderingOf s b = some v) : a = b := by
  have := (orderingOf_some ha).symm.trans (orderingOf_some hb)
  simpa using this

theorem KindSorter.ok_newKindSorter (s : SortOrder) (kind : String) :
    (newKindSorter s).ok kind = decide (kind ∈ s) := by
  rw [Bool.eq_iff_iff, decide_eq_true_iff]
  exact orderingOf_isSome

/-- On a list without repeats the map holds each kind's index. -/
theorem orderingOf_eq_indexOf {s : SortOrder} (hs : s.Nodup) {kind : String} (h : kind ∈ s) :
    orderingOf s kind = some (s.indexOf kind) := by
  induction s with
  | nil => simp at h
  | cons a s ih =>
    obtain ⟨ha, hs⟩ := List.nodup_cons.mp hs
    simp only [orderingOf]
    by_cases hk : a = kind
    · subst hk
      have : orderingOf s a = none := by simpa [← Option.not_isSome_iff_eq_none, orderingOf_isSome]
      simp [this]
    · have hmem : kind ∈ s := by simpa [Ne.symm hk] using h
      rw [ih hs hmem, List.indexOf_cons_ne _ hk]

theorem resourceOrder_nodup : resourceOrder.Nodup := by decide

end ArgoSync
