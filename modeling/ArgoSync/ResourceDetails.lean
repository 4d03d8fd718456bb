import ArgoSync.Model.ApplySync
import Mathlib.Data.Finset.Card
/-!
# `setResourceDetails`, over any sequence of calls

One call changes the key list (kind, name) of `SyncResult.Resources` in one
of two ways: not at all, when the key is there, or by appending the key,
when it is not (`map_key_setResourceDetails`). And a lookup by key after the
call finds the call's details, or what it found before
(`findDetails_setResourceDetails`). Everything else is these two facts
folded over the calls the mutex lets through, one after another, in any
order: keys stay unique, no key moves, the list holds one entry per key, each
key maps to its last write, and the progress predicates never turn false.
Since the keys after a call depend only on the keys before, the order of the
calls changes the key list only up to order (`keys_foldl_perm`).
-/

namespace ArgoSync

open scoped List

/-- The entry `SyncResult.Resources` holds for a key, the first that matches. -/
def findDetails (resources : List ResourceDetails) (k : String × String) : Option ResourceDetails :=
  resources.find? fun d => decide (d.key = k)

/-- The key list of the resource list. -/
def keys (resources : List ResourceDetails) : List (String × String) :=
  resources.map ResourceDetails.key

@[simp] theorem keys_nil : keys [] = [] := rfl

@[simp] theorem keys_cons (d : ResourceDetails) (rs : List ResourceDetails) :
    keys (d :: rs) = d.key :: keys rs := rfl

@[simp] theorem keys_append (a b : List ResourceDetails) : keys (a ++ b) = keys a ++ keys b :=
  List.map_append _ _ _

@[simp] theorem length_keys (rs : List ResourceDetails) : (keys rs).length = rs.length :=
  List.length_map _ _

theorem key_eq_iff {a b : ResourceDetails} : a.key = b.key ↔ a.kind = b.kind ∧ a.name = b.name :=
  Prod.ext_iff

/-- **One call, on the keys.** The key list is unchanged when the key is
there, and grows by the key when it is not. -/
theorem map_key_setResourceDetails (rs : List ResourceDetails) (d : ResourceDetails) :
    keys (setResourceDetails rs d) = if d.key ∈ keys rs then keys rs else keys rs ++ [d.key] := by
  induction rs with
  | nil => simp [setResourceDetails]
  | cons r rest ih =>
    by_cases h : r.kind = d.kind ∧ r.name = d.name
    · have hk : r.key = d.key := key_eq_iff.mpr h
      simp [setResourceDetails, h, hk]
    · have hk : d.key ≠ r.key := fun e => h (key_eq_iff.mp e.symm)
      simp only [setResourceDetails, h, if_false, keys_cons, ih, List.mem_cons, hk, false_or]
      split <;> simp

/-- **One call, on a lookup.** -/
theorem findDetails_setResourceDetails (rs : List ResourceDetails) (d : ResourceDetails)
    (k : String × String) :
    findDetails (setResourceDetails rs d) k = if d.key = k then some d else findDetails rs k := by
  induction rs with
  | nil => by_cases hd : d.key = k <;> simp [findDetails, setResourceDetails, hd]
  | cons r rest ih =>
    simp only [findDetails] at ih ⊢
    by_cases h : r.kind = d.kind ∧ r.name = d.name
    · have hk : r.key = d.key := key_eq_iff.mpr h
      by_cases hd : d.key = k <;> simp [setResourceDetails, h, hk, hd, List.find?_cons]
    · have hk : r.key ≠ d.key := fun e => h (key_eq_iff.mp e)
      simp only [setResourceDetails, h, if_false, List.find?_cons, ih]
      by_cases hr : r.key = k
      · subst hr; simp [Ne.symm hk]
      · simp [hr]

theorem keys_prefix_setResourceDetails (rs : List ResourceDetails) (d : ResourceDetails) :
    keys rs <+: keys (setResourceDetails rs d) := by
  rw [map_key_setResourceDetails]
  split
  · exact List.prefix_refl _
  · exact List.prefix_append _ _

theorem nodup_setResourceDetails {rs : List ResourceDetails} (h : (keys rs).Nodup)
    (d : ResourceDetails) : (keys (setResourceDetails rs d)).Nodup := by
  rw [map_key_setResourceDetails]
  split
  · exact h
  · rename_i hmem
    exact h.append (List.nodup_singleton _) (by simpa using hmem)

theorem toFinset_setResourceDetails (rs : List ResourceDetails) (d : ResourceDetails) :
    (keys (setResourceDetails rs d)).toFinset = insert d.key (keys rs).toFinset := by
  rw [map_key_setResourceDetails]
  split
  · rename_i h
    exact (Finset.insert_eq_of_mem (List.mem_toFinset.mpr h)).symm
  · simp [List.toFinset_append, Finset.union_comm, Finset.insert_eq]

/-! ## Folded over a sequence of calls -/

variable (init calls : List ResourceDetails)

theorem keys_prefix_foldl : keys init <+: keys (calls.foldl setResourceDetails init) := by
  induction calls generalizing init with
  | nil => exact List.prefix_refl _
  | cons d ds ih => exact (keys_prefix_setResourceDetails init d).trans (ih _)

theorem nodup_foldl {init : List ResourceDetails} (h : (keys init).Nodup) :
    (keys (calls.foldl setResourceDetails init)).Nodup := by
  induction calls generalizing init with
  | nil => exact h
  | cons d ds ih => exact ih (nodup_setResourceDetails h d)

theorem toFinset_foldl :
    (keys (calls.foldl setResourceDetails init)).toFinset = (keys (init ++ calls)).toFinset := by
  induction calls generalizing init with
  | nil => simp
  | cons d ds ih =>
    rw [List.foldl_cons, ih, keys_append, keys_append, List.toFinset_append, List.toFinset_append,
      toFinset_setResourceDetails, keys_cons, List.toFinset_cons, Finset.insert_union,
      Finset.union_insert]

theorem findDetails_foldl (k : String × String) :
    findDetails (calls.foldl setResourceDetails init) k =
      (findDetails calls.reverse k).or (findDetails init k) := by
  induction calls generalizing init with
  | nil => simp [findDetails]
  | cons d ds ih =>
    rw [List.foldl_cons, ih, findDetails_setResourceDetails]
    by_cases hd : d.key = k <;> simp [findDetails, hd, List.find?_append, Option.or_assoc]

/-- The key lists of the resource list along the sequence: after `n` calls
the list's keys are a prefix of the final list's keys. -/
theorem keys_prefix_take (n : Nat) :
    keys ((calls.take n).foldl setResourceDetails init) <+: keys (calls.foldl setResourceDetails init) := by
  conv_rhs => rw [← List.take_append_drop n calls, List.foldl_append]
  exact keys_prefix_foldl _ _

/-- A call always leaves an entry. -/
theorem setResourceDetails_ne_nil (rs : List ResourceDetails) (d : ResourceDetails) :
    setResourceDetails rs d ≠ [] := by
  cases rs with
  | nil => simp [setResourceDetails]
  | cons r rest => simp only [setResourceDetails]; split <;> simp

theorem foldl_setResourceDetails_ne_nil (ws : List ResourceDetails) (rs : List ResourceDetails)
    (d : ResourceDetails) : ws.foldl setResourceDetails (setResourceDetails rs d) ≠ [] := fun h => by
  have := (keys_prefix_foldl (setResourceDetails rs d) ws).length_le
  rw [h, keys_nil, List.length_nil, Nat.le_zero, length_keys, List.length_eq_zero] at this
  exact setResourceDetails_ne_nil rs d this

/-! ## The keys, whatever the order of the calls -/

/-- The keys after a call depend only on the keys before, up to order. -/
theorem keys_setResourceDetails_perm {rs₁ rs₂ : List ResourceDetails} (h : keys rs₁ ~ keys rs₂)
    (d : ResourceDetails) : keys (setResourceDetails rs₁ d) ~ keys (setResourceDetails rs₂ d) := by
  rw [map_key_setResourceDetails, map_key_setResourceDetails]
  by_cases hm : d.key ∈ keys rs₁
  · rw [if_pos hm, if_pos (h.mem_iff.mp hm)]
    exact h
  · rw [if_neg hm, if_neg (mt h.mem_iff.mpr hm)]
    exact h.append_right _

/-- Two calls in either order give the same keys, up to order. -/
theorem keys_setResourceDetails_comm (rs : List ResourceDetails) (a b : ResourceDetails) :
    keys (setResourceDetails (setResourceDetails rs a) b) ~
      keys (setResourceDetails (setResourceDetails rs b) a) := by
  by_cases hab : a.key = b.key
  · simp only [map_key_setResourceDetails, hab]
    exact List.Perm.refl _
  · have hba : b.key ≠ a.key := Ne.symm hab
    simp only [map_key_setResourceDetails]
    by_cases ha : a.key ∈ keys rs <;> by_cases hb : b.key ∈ keys rs <;> simp [ha, hb, hab, hba]
    exact (List.perm_append_left_iff _).mpr (List.Perm.swap _ _ _)

theorem keys_foldl_perm_left (ws : List ResourceDetails) {rs₁ rs₂ : List ResourceDetails}
    (h : keys rs₁ ~ keys rs₂) :
    keys (ws.foldl setResourceDetails rs₁) ~ keys (ws.foldl setResourceDetails rs₂) := by
  induction ws generalizing rs₁ rs₂ with
  | nil => exact h
  | cons d ds ih => exact ih (keys_setResourceDetails_perm h d)

/-- **The keys a sequence of calls leaves do not depend on its order**: any
permutation of the calls, from start lists with the same keys, leaves the
same keys, up to order. -/
theorem keys_foldl_perm {ws₁ ws₂ : List ResourceDetails} (hw : ws₁ ~ ws₂) {rs₁ rs₂ : List ResourceDetails}
    (h : keys rs₁ ~ keys rs₂) :
    keys (ws₁.foldl setResourceDetails rs₁) ~ keys (ws₂.foldl setResourceDetails rs₂) := by
  induction hw generalizing rs₁ rs₂ with
  | nil => exact h
  | cons d _ ih => exact ih (keys_setResourceDetails_perm h d)
  | swap a b l =>
    exact keys_foldl_perm_left l ((keys_setResourceDetails_perm (keys_setResourceDetails_perm h b) a).trans
      (keys_setResourceDetails_comm rs₂ b a))
  | trans _ _ ih₁ ih₂ => exact (ih₁ h).trans (ih₂ (List.Perm.refl _))

theorem startedPreSyncPhase_mono {syncRes : SyncOperationResult} {rs : List ResourceDetails}
    (hlen : syncRes.resources.length ≤ rs.length) (h : startedPreSyncPhase syncRes) :
    startedPreSyncPhase { syncRes with resources := rs } := by
  simp only [startedPreSyncPhase, Bool.or_eq_true, decide_eq_true_eq] at h ⊢
  omega

theorem startedSyncPhase_mono {syncRes : SyncOperationResult} {rs : List ResourceDetails}
    (hlen : syncRes.resources.length ≤ rs.length) (h : startedSyncPhase syncRes) :
    startedSyncPhase { syncRes with resources := rs } := by
  simp only [startedSyncPhase, Bool.or_eq_true, decide_eq_true_eq] at h ⊢
  rcases h with h | h
  · exact .inl (by omega)
  · exact .inr h

/-- **`setResourceDetails` is a keyed upsert, over any sequence of calls.**
From a resource list unique by (kind, name), every sequence of calls gives a
list that is unique by key; in which the keys the list had after any number
of the calls keep their positions; that has one entry per key among the
initial entries and the calls; that maps each key to the last call with it,
or to its initial entry; and in which `startedPreSyncPhase` and
`startedSyncPhase`, true after some of the calls, are true at the end. -/
theorem setResourceDetails_keyed_upsert (hinit : (keys init).Nodup) :
    let res := calls.foldl setResourceDetails init
    (keys res).Nodup ∧
    (∀ n, keys ((calls.take n).foldl setResourceDetails init) <+: keys res) ∧
    res.length = (keys (init ++ calls)).toFinset.card ∧
    (∀ k, findDetails res k = (findDetails calls.reverse k).or (findDetails init k)) ∧
    (∀ (n : Nat) (syncRes : SyncOperationResult),
      (startedPreSyncPhase { syncRes with resources := (calls.take n).foldl setResourceDetails init } →
        startedPreSyncPhase { syncRes with resources := res }) ∧
      (startedSyncPhase { syncRes with resources := (calls.take n).foldl setResourceDetails init } →
        startedSyncPhase { syncRes with resources := res })) := by
  intro res
  have hlen : ∀ n, ((calls.take n).foldl setResourceDetails init).length ≤ res.length := fun n => by
    simpa using (keys_prefix_take init calls n).length_le
  refine ⟨nodup_foldl calls hinit, keys_prefix_take init calls, ?_, findDetails_foldl init calls,
    fun n syncRes => ⟨startedPreSyncPhase_mono (hlen n), startedSyncPhase_mono (hlen n)⟩⟩
  rw [← toFinset_foldl, List.toFinset_card_of_nodup (nodup_foldl calls hinit), length_keys]

/-- The upsert from one ConfigMap entry, through a new Secret and a second
write of the ConfigMap. -/
theorem setResourceDetails_keyed_upsert_configMap :
    let init : List ResourceDetails := [⟨"cm", "ConfigMap", "ns", "", .synced⟩]
    let calls : List ResourceDetails :=
      [⟨"s", "Secret", "ns", "", .synced⟩, ⟨"cm", "ConfigMap", "ns", "boom", .syncFailed⟩]
    let res := calls.foldl setResourceDetails init
    (keys init).Nodup ∧ (keys res).Nodup ∧
    (∀ n, keys ((calls.take n).foldl setResourceDetails init) <+: keys res) ∧
    res.length = (keys (init ++ calls)).toFinset.card ∧
    (∀ k, findDetails res k = (findDetails calls.reverse k).or (findDetails init k)) ∧
    (∀ (n : Nat) (syncRes : SyncOperationResult),
      (startedPreSyncPhase { syncRes with resources := (calls.take n).foldl setResourceDetails init } →
        startedPreSyncPhase { syncRes with resources := res }) ∧
      (startedSyncPhase { syncRes with resources := (calls.take n).foldl setResourceDetails init } →
        startedSyncPhase { syncRes with resources := res })) :=
  ⟨by decide, setResourceDetails_keyed_upsert _ _ (by decide)⟩

end ArgoSync
