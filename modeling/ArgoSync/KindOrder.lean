import ArgoSync.Model.Sync
import Mathlib.Data.Prod.Lex
import Mathlib.Data.List.Sort
import Mathlib.Order.WithBot
/-!
# The order `kindSorter.Less` computes

The comments of `kindSorter.Less` and the spec describe an order by key:
listed kinds first by their index in `resourceOrder`, then unlisted kinds by
kind, names breaking ties, and tasks with no target last (`taskKey`).

`Less` computes that order on every pair of tasks but one kind of pair: a
target of the kind listed at index `0` against a target of an unlisted kind.
The map lookup reads the unlisted kind as index `0` too, the indices compare
equal, and `Less` falls through to the names (`clash`, `less_eq`). On a list
with no such pair `Less` is a strict weak order, any `sort.Sort` leaves the
keys in order, and the sorted keys do not depend on the input order. With
such a pair it is none of these: `kindSorter_less_not_key_order`.
-/

namespace ArgoSync

open scoped List

variable (k : KindSorter)

/-- A kind's rank in the described order: listed kinds by index, then
unlisted kinds by kind. -/
def KindSorter.kindRank (kind : String) : ℕ ×ₗ ℕ ×ₗ String :=
  if k.ok kind then toLex (0, toLex (k.index kind, "")) else toLex (1, toLex (0, kind))

/-- A target's key: its kind's rank, then its name. -/
def KindSorter.objKey (o : Unstructured) : (ℕ ×ₗ ℕ ×ₗ String) ×ₗ String :=
  toLex (k.kindRank o.kind, o.name)

/-- A task's key: its target's; a task with no target sorts last. -/
def KindSorter.taskKey (t : SyncTask) : WithTop ((ℕ ×ₗ ℕ ×ₗ String) ×ₗ String) :=
  match t.targetObj with
  | none => ⊤
  | some o => (k.objKey o : WithTop _)

/-- The sorter's map names one kind per index, as `newKindSorter`'s does. -/
def KindSorter.Injective : Prop :=
  ∀ a b v, k.ordering a = some v → k.ordering b = some v → a = b

theorem newKindSorter_injective (s : SortOrder) : (newKindSorter s).Injective :=
  fun _ _ _ ha hb => orderingOf_injective ha hb

/-- The pairs `Less` misorders: equal indices, one kind listed and one not. -/
def KindSorter.clash (a b : Unstructured) : Prop :=
  k.index a.kind = k.index b.kind ∧ k.ok a.kind ≠ k.ok b.kind

/-- Two tasks whose targets clash. -/
def KindSorter.taskClash (ta tb : SyncTask) : Prop :=
  ∃ a b, ta.targetObj = some a ∧ tb.targetObj = some b ∧ k.clash a b

/-- No two tasks of the list clash. -/
def KindSorter.NoClash (l : List SyncTask) : Prop := ∀ a ∈ l, ∀ b ∈ l, ¬ k.taskClash a b

instance (a b : Unstructured) : Decidable (k.clash a b) := inferInstanceAs (Decidable (_ ∧ _))

instance (ta tb : SyncTask) : Decidable (k.taskClash ta tb) :=
  decidable_of_iff (∃ a ∈ ta.targetObj, ∃ b ∈ tb.targetObj, k.clash a b)
    (by simp [KindSorter.taskClash, Option.mem_def])

instance (l : List SyncTask) : Decidable (k.NoClash l) :=
  inferInstanceAs (Decidable (∀ a ∈ l, ∀ b ∈ l, ¬ k.taskClash a b))

theorem KindSorter.kindRank_of_ordering {kind : String} {i : Nat} (h : k.ordering kind = some i) :
    k.kindRank kind = toLex (0, toLex (i, "")) := by
  simp [KindSorter.kindRank, KindSorter.ok, KindSorter.index, h]

theorem KindSorter.kindRank_of_ordering_none {kind : String} (h : k.ordering kind = none) :
    k.kindRank kind = toLex (1, toLex (0, kind)) := by
  simp [KindSorter.kindRank, KindSorter.ok, h]

theorem KindSorter.kindRank_of_ok {kind : String} (h : k.ok kind = true) :
    k.kindRank kind = toLex (0, toLex (k.index kind, "")) := by
  simp [KindSorter.kindRank, h]

theorem KindSorter.kindRank_of_not_ok {kind : String} (h : k.ok kind = false) :
    k.kindRank kind = toLex (1, toLex (0, kind)) := by
  simp [KindSorter.kindRank, h]

theorem KindSorter.index_of_not_ok {kind : String} (h : k.ok kind = false) : k.index kind = 0 := by
  unfold KindSorter.ok at h
  unfold KindSorter.index
  cases ho : k.ordering kind <;> simp_all

/-- Listed kinds of equal index are one kind. -/
theorem KindSorter.eq_of_index_eq (hk : k.Injective) {a b : String} (ha : k.ok a = true)
    (hb : k.ok b = true) (h : k.index a = k.index b) : a = b := by
  obtain ⟨v, hv⟩ := Option.isSome_iff_exists.mp ha
  obtain ⟨w, hw⟩ := Option.isSome_iff_exists.mp hb
  simp only [KindSorter.index, hv, hw, Option.getD_some] at h
  exact hk a b v hv (h ▸ hw)

/-- The rank order, by whether the kinds are listed. -/
theorem KindSorter.kindRank_lt_iff {a b : String} :
    k.kindRank a < k.kindRank b ↔
      (k.ok a = true ∧ k.ok b = true ∧ k.index a < k.index b) ∨
      (k.ok a = true ∧ k.ok b = false) ∨ (k.ok a = false ∧ k.ok b = false ∧ a < b) := by
  cases ha : k.ok a <;> cases hb : k.ok b <;>
    simp [k.kindRank_of_ok, k.kindRank_of_not_ok, ha, hb, Prod.Lex.lt_iff]

/-- **Ranks name kinds.** Two kinds of equal rank are one kind. -/
theorem KindSorter.kindRank_eq_iff (hk : k.Injective) {a b : String} :
    k.kindRank a = k.kindRank b ↔ a = b := by
  refine ⟨fun h => ?_, congrArg _⟩
  cases ha : k.ok a <;> cases hb : k.ok b <;>
    simp only [k.kindRank_of_ok, k.kindRank_of_not_ok, ha, hb, toLex_inj, Prod.mk.injEq] at h
  · exact h.2.2
  · exact absurd h.1 (by decide)
  · exact absurd h.1 (by decide)
  · exact k.eq_of_index_eq hk ha hb h.2.1

theorem goLess_eq (a b : String) : goLess a b = decide (a < b) := by
  rw [Bool.eq_iff_iff, goLess_iff, decide_eq_true_iff]

/-- **`Less` on two targets is the key order, away from clashes.** -/
theorem KindSorter.lessTargets_eq (hk : k.Injective) {a b : Unstructured} (hc : ¬ k.clash a b) :
    k.lessTargets a b = decide (k.objKey a < k.objKey b) := by
  simp only [KindSorter.clash, not_and, ne_eq, not_not] at hc
  rw [Bool.eq_iff_iff, decide_eq_true_iff, KindSorter.objKey, KindSorter.objKey, Prod.Lex.lt_iff,
    k.kindRank_eq_iff hk, k.kindRank_lt_iff, KindSorter.lessTargets]
  by_cases hi : k.index a.kind = k.index b.kind
  · have hok := hc hi
    cases ha : k.ok a.kind <;> cases hb : k.ok b.kind <;>
      simp only [ha, hb, Bool.false_eq_true, Bool.true_eq_false] at hok
    · by_cases hab : a.kind = b.kind <;> simp [hi, ha, hb, hab, goLess_eq]
    · have hab := k.eq_of_index_eq hk ha hb hi
      simp [hi, ha, hb, hab, goLess_eq]
  · have hab : a.kind ≠ b.kind := fun h => hi (h ▸ rfl)
    cases ha : k.ok a.kind <;> cases hb : k.ok b.kind
    · exact absurd ((k.index_of_not_ok ha).trans (k.index_of_not_ok hb).symm) hi
    all_goals simp [hi, ha, hb, hab]

/-- **`Less` is the key order on every pair that does not clash.** -/
theorem KindSorter.less_eq (hk : k.Injective) {ta tb : SyncTask} (hc : ¬ k.taskClash ta tb) :
    k.less ta tb = decide (k.taskKey ta < k.taskKey tb) := by
  unfold KindSorter.less KindSorter.taskKey
  split
  · rename_i h; rw [h]; simp
  · rename_i ha hb; rw [ha, hb]; simp [WithTop.coe_lt_top]
  · rename_i a b ha hb
    rw [ha, hb, k.lessTargets_eq hk (fun h => hc ⟨a, b, ha, hb, h⟩)]
    simp [WithTop.coe_lt_coe]

/-- Away from clashes `Less` is a strict weak order. -/
theorem KindSorter.strictWeakOn (hk : k.Injective) {l : List SyncTask} (hl : k.NoClash l) :
    StrictWeakOn k.less l where
  irrefl a ha := by simp [k.less_eq hk (hl a ha a ha)]
  trans a ha b hb c hc hab hbc := by
    simp only [k.less_eq hk (hl _ ha _ hb), k.less_eq hk (hl _ hb _ hc), k.less_eq hk (hl _ ha _ hc),
      decide_eq_true_eq] at hab hbc ⊢
    exact hab.trans hbc
  connected a ha b hb c hc hac := by
    simp only [k.less_eq hk (hl _ ha _ hb), k.less_eq hk (hl _ hb _ hc), k.less_eq hk (hl _ ha _ hc),
      decide_eq_true_eq] at hac ⊢
    exact (lt_or_le _ _).imp_right fun h => h.trans_lt hac

/-- **Any `sort.Sort` orders a clash-free list by key.** -/
theorem KindSorter.sorted_taskKey (S : SortAlgo SyncTask) (hk : k.Injective) {l : List SyncTask}
    (hl : k.NoClash l) : ((S.sort k.less l).map k.taskKey).Sorted (· ≤ ·) := by
  have hmem : ∀ a ∈ S.sort k.less l, a ∈ l := fun a ha => (S.perm k.less l).subset ha
  refine List.pairwise_map.mpr ((S.sorted k.less l (k.strictWeakOn hk hl)).imp_of_mem ?_)
  intro a b ha hb hba
  rw [k.less_eq hk (hl _ (hmem b hb) _ (hmem a ha))] at hba
  simpa using hba

/-- **The sorted keys do not depend on the input order**, on clash-free lists:
two inputs that are permutations of each other sort to the same key sequence,
under any two `sort.Sort`s. -/
theorem KindSorter.sort_map_taskKey_eq (S₁ S₂ : SortAlgo SyncTask) (hk : k.Injective)
    {l₁ l₂ : List SyncTask} (hp : l₁ ~ l₂) (hl : k.NoClash l₁) :
    (S₁.sort k.less l₁).map k.taskKey = (S₂.sort k.less l₂).map k.taskKey := by
  have hl₂ : k.NoClash l₂ := fun a ha b hb => hl a (hp.symm.subset ha) b (hp.symm.subset hb)
  refine List.eq_of_perm_of_sorted ?_ (k.sorted_taskKey S₁ hk hl) (k.sorted_taskKey S₂ hk hl₂)
  exact (((S₁.perm _ _).trans hp).trans (S₂.perm _ _).symm).map _

/-! ## The clashing pairs of `resourceOrder` -/

/-- A listed kind reads as index `0` exactly when it is `Namespace`. -/
theorem index_resourceOrder_eq_zero_iff {kind : String} (h : kind ∈ resourceOrder) :
    (newKindSorter resourceOrder).index kind = 0 ↔ kind = "Namespace" := by
  simp only [KindSorter.index, newKindSorter]
  rw [orderingOf_eq_indexOf resourceOrder_nodup h, Option.getD_some, resourceOrder]
  rcases eq_or_ne kind "Namespace" with hk | hk
  · simp [hk]
  · simp [List.indexOf_cons_ne _ hk.symm, hk]

/-- **Under `resourceOrder` the clashing pairs are exactly a `Namespace`
beside a kind the order does not list.** Every other pair `Less` compares by
key. -/
theorem newKindSorter_clash_iff {a b : Unstructured} :
    (newKindSorter resourceOrder).clash a b ↔
      (a.kind = "Namespace" ∧ b.kind ∉ resourceOrder) ∨ (a.kind ∉ resourceOrder ∧ b.kind = "Namespace") := by
  have hz : ∀ {kind}, kind ∉ resourceOrder → (newKindSorter resourceOrder).index kind = 0 := fun h =>
    KindSorter.index_of_not_ok _ (by simpa [KindSorter.ok_newKindSorter] using h)
  have hns : ∀ {kind}, kind ∉ resourceOrder → kind ≠ "Namespace" := fun h he => h (he ▸ by decide)
  simp only [KindSorter.clash, KindSorter.ok_newKindSorter, ne_eq, decide_eq_decide]
  by_cases ha : a.kind ∈ resourceOrder <;> by_cases hb : b.kind ∈ resourceOrder
  · simp [ha, hb]
  · simp [ha, hb, hz hb, index_resourceOrder_eq_zero_iff ha]
  · simpa [ha, hb, hz ha, eq_comm] using index_resourceOrder_eq_zero_iff hb
  · simp [ha, hb, hns ha, hns hb]

/-! ## Where `Less` leaves the key order -/

/-- A create task: a target with no live object yet. -/
def createTask (o : Unstructured) : SyncTask := ⟨none, some o, Or.inr rfl⟩

@[simp] theorem taskKey_createTask (o : Unstructured) :
    k.taskKey (createTask o) = (k.objKey o : WithTop _) := rfl

/-- An object of the core group, of this kind and name. -/
def coreObj (kind name : String) : Unstructured := ⟨name, "", "", "v1", kind, none, none⟩

/-- **`Less` is not the key order.** It puts an unlisted `Foo` before a
`Namespace` named later, which the key puts first; it cycles through
`Foo/a < Namespace/z < Secret/m < Foo/a`, so it is no strict weak order; and
`sort.Sort`'s insertion sort leaves two orders of the same three tasks in two
different key sequences. -/
theorem kindSorter_less_not_key_order :
    let k : KindSorter := newKindSorter resourceOrder
    let fooA := createTask (coreObj "Foo" "a")
    let namespaceZ := createTask (coreObj "Namespace" "z")
    let secretM := createTask (coreObj "Secret" "m")
    k.less fooA namespaceZ = true ∧ k.taskKey namespaceZ < k.taskKey fooA ∧
    ¬ StrictWeakOn k.less [fooA, namespaceZ, secretM] ∧
    (insertionSort k.less [fooA, namespaceZ, secretM]).map k.taskKey ≠
      (insertionSort k.less [secretM, fooA, namespaceZ]).map k.taskKey := by
  intro k fooA namespaceZ secretM
  have hfn : k.less fooA namespaceZ = true := by decide
  have hns : k.less namespaceZ secretM = true := by decide
  have hsf : k.less secretM fooA = true := by decide
  have hn : k.ok "Namespace" = true := by decide
  have hf : k.ok "Foo" = false := by decide
  refine ⟨hfn, ?_, fun h => ?_, ?_⟩
  · simp only [namespaceZ, fooA, taskKey_createTask, WithTop.coe_lt_coe, KindSorter.objKey,
      Prod.Lex.lt_iff, coreObj, k.kindRank_of_ok hn, k.kindRank_of_not_ok hf]
    exact .inl (.inl Nat.zero_lt_one)
  · have hfs := h.trans fooA (by simp) namespaceZ (by simp) secretM (by simp) hfn hns
    rw [h.asymm (by simp) (by simp) hsf] at hfs
    exact Bool.false_ne_true hfs
  · have h1 : insertionSort k.less [fooA, namespaceZ, secretM] = [fooA, namespaceZ, secretM] := by
      decide
    have h2 : insertionSort k.less [secretM, fooA, namespaceZ] = [secretM, fooA, namespaceZ] := by
      decide
    rw [h1, h2]
    intro h
    simp only [List.map_cons, List.cons.injEq, fooA, secretM, taskKey_createTask, WithTop.coe_inj,
      KindSorter.objKey, toLex_inj, Prod.mk.injEq, k.kindRank_eq_iff (newKindSorter_injective _),
      coreObj] at h
    exact absurd h.1.1 (by decide)

end ArgoSync
