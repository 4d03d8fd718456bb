import ArgoSync.Outcomes
/-!
# One invocation: `sync` and `SyncAppState`

What one call of `sync` can do, said once, as one lemma per question: which
effects it has (`mem_sync_effects`), and, under the apply strategy, that it
applies for real only right after a successful dry run when no hook is
recorded (`sync_real_apply_after_dry_run`). Then the same for
`SyncAppState`, whose every exit is an error exit or the end in
`syncAndRecord` (`syncAppState_cases`). The theorems over runs are built
from these alone.
-/

namespace ArgoSync

section Sync

variable (sc : SyncContext) (syncTasks : List SyncTask) (s : SyncStatus)

/-! ## The strategy -/

section Hooks

variable (hooks : List Unstructured)

/-- The hook code keeps the revision when it keeps it of the status it is
given. -/
theorem doHookSync_revision (hk : sc.hookSync.KeepsRevision) :
    (sc.doHookSync syncTasks hooks s).1.syncRes.revision = s.syncRes.revision := by
  unfold SyncContext.doHookSync
  split <;> exact hk _ _ _

/-- **What the hand-over calls**: itself, and the real `doApplySync` of the
tasks from the status's resource list, with `update` set. -/
theorem mem_doHookSync_effects {e : Effect} (he : e ∈ (sc.doHookSync syncTasks hooks s).2) :
    (∃ force, e = .doApplySync syncTasks false
      (sc.doApplySync (sc.schedule false) syncTasks false force true s.syncRes.resources)) ∨
    e = .doHookSync syncTasks := by
  unfold SyncContext.doHookSync at he
  split at he
  · exact .inr (List.mem_singleton.mp he)
  · rcases List.mem_pair.mp he with he | he
    · exact .inr he
    · exact .inl ⟨_, he⟩

end Hooks

theorem syncStrategy_revision (hk : sc.hookSync.KeepsRevision) :
    (sc.syncStrategy syncTasks s).1.syncRes.revision = s.syncRes.revision := by
  unfold SyncContext.syncStrategy
  generalize sc.syncOp.syncStrategy.getD ⟨none, some {}⟩ = strategy
  rcases strategy with ⟨_ | apply, _ | hook⟩ <;> dsimp only
  · simp
  · cases sc.getHooks
    · rfl
    · exact doHookSync_revision sc syncTasks s _ hk
  all_goals split <;> [split <;> simp; simp]

/-- **What the strategy calls**: a real `doApplySync` of the tasks from the
status's resource list, with `update` set, or the hand-over to the hook
code. -/
theorem mem_syncStrategy_effects {e : Effect} (he : e ∈ (sc.syncStrategy syncTasks s).2) :
    (∃ force, e = .doApplySync syncTasks false
      (sc.doApplySync (sc.schedule false) syncTasks false force true s.syncRes.resources)) ∨
    e = .doHookSync syncTasks := by
  unfold SyncContext.syncStrategy at he
  generalize sc.syncOp.syncStrategy.getD ⟨none, some {}⟩ = strategy at he
  rcases strategy with ⟨_ | apply, _ | hook⟩ <;> dsimp only at he
  · simp at he
  · cases hh : sc.getHooks <;> rw [hh] at he
    · simp at he
    · exact mem_doHookSync_effects sc syncTasks s _ he
  all_goals
    split at he
    · split at he <;> exact .inl ⟨_, List.mem_singleton.mp he⟩
    · simp at he

/-! ## `sync` -/

theorem OperationPhase.ne_running_of_completed {p : OperationPhase} (h : p.completed = true) :
    p ≠ .running := by
  rintro rfl
  cases h

/-- **What `sync` does**, said once: it stops before the strategy and
completes the operation, with no effect and the sync result it was given, or
with the dry run of its generated tasks and the sync result that dry run
left; or it runs the strategy on its generated, non-empty tasks, from the
status it was given once the pre-sync phase has started, or, for a real
operation whose dry run succeeded, from the status the dry run left. -/
theorem sync_cases :
    (∃ s', ((sc.sync s = (s', []) ∧ s'.syncRes = s.syncRes) ∨
      ∃ syncTasks, sc.generateSyncTasks = .ok syncTasks ∧ ∃ dry,
        dry = sc.doApplySync (sc.schedule true) syncTasks true false sc.syncOp.dryRun
          s.syncRes.resources ∧
        sc.sync s = (s', [.doApplySync syncTasks true dry]) ∧
        s'.syncRes = (s.setResources dry.resources).syncRes) ∧
      s'.phase.completed = true) ∨
    ∃ syncTasks, sc.generateSyncTasks = .ok syncTasks ∧ syncTasks ≠ [] ∧
      ((startedPreSyncPhase s.syncRes = true ∧ sc.sync s = sc.syncStrategy syncTasks s) ∨
        (sc.syncOp.dryRun = false ∧ ∃ dry,
          dry = sc.doApplySync (sc.schedule true) syncTasks true false sc.syncOp.dryRun
            s.syncRes.resources ∧ dry.successful = true ∧
          sc.sync s = ((sc.syncStrategy syncTasks (s.setResources dry.resources)).1,
            .doApplySync syncTasks true dry ::
              (sc.syncStrategy syncTasks (s.setResources dry.resources)).2))) := by
  generalize hr : sc.sync s = r
  unfold SyncContext.sync at hr
  split at hr
  · exact .inl ⟨_, .inl ⟨hr.symm, rfl⟩, rfl⟩
  · rename_i syncTasks hg
    split at hr
    · exact .inl ⟨_, .inl ⟨hr.symm, rfl⟩, rfl⟩
    · rename_i hl
      have hne : syncTasks ≠ [] := by simpa using hl
      split at hr
      · dsimp only at hr
        split at hr
        · exact .inl ⟨_, .inr ⟨_, hg, _, rfl, hr.symm, rfl⟩, rfl⟩
        · rename_i hsucc
          split at hr
          · exact .inl ⟨_, .inr ⟨_, hg, _, rfl, hr.symm, rfl⟩, rfl⟩
          · exact .inr ⟨_, hg, hne, .inr ⟨by simpa using ‹¬ sc.syncOp.dryRun = true›, _, rfl,
              by simpa using hsucc, hr.symm⟩⟩
      · exact .inr ⟨_, hg, hne,
          .inl ⟨by simpa using ‹¬ (!startedPreSyncPhase s.syncRes) = true›, hr.symm⟩⟩

theorem sync_revision (hk : sc.hookSync.KeepsRevision) :
    (sc.sync s).1.syncRes.revision = s.syncRes.revision := by
  rcases sync_cases sc s with
    ⟨s', ⟨h, hs⟩ | ⟨_, _, _, -, h, hs⟩, -⟩ | ⟨syncTasks, -, -, ⟨-, h⟩ | ⟨-, dry, -, -, h⟩⟩ <;> rw [h]
  · rw [hs]
  · rw [hs]; rfl
  · exact syncStrategy_revision _ _ _ hk
  · exact syncStrategy_revision _ _ _ hk

/-- **What `sync` calls.** Every effect concerns the generated tasks: a
`doApplySync` of them, or the hand-over to the hook code. A real apply or the
hand-over happens only for a real operation, or once the pre-sync phase has
started. -/
theorem mem_sync_effects {e : Effect} (he : e ∈ (sc.sync s).2) :
    ∃ syncTasks, sc.generateSyncTasks = .ok syncTasks ∧
    ((∃ dryRun il force update resources, e = .doApplySync syncTasks dryRun
        (sc.doApplySync il syncTasks dryRun force update resources) ∧
        (dryRun = false → sc.syncOp.dryRun = false ∨ startedPreSyncPhase s.syncRes = true)) ∨
      (e = .doHookSync syncTasks ∧ (sc.syncOp.dryRun = false ∨ startedPreSyncPhase s.syncRes = true))) := by
  have hstrat : ∀ syncTasks s', (sc.syncOp.dryRun = false ∨ startedPreSyncPhase s.syncRes = true) →
      e ∈ (sc.syncStrategy syncTasks s').2 →
      (∃ dryRun il force update resources, e = .doApplySync syncTasks dryRun
        (sc.doApplySync il syncTasks dryRun force update resources) ∧
        (dryRun = false → sc.syncOp.dryRun = false ∨ startedPreSyncPhase s.syncRes = true)) ∨
      (e = .doHookSync syncTasks ∧ (sc.syncOp.dryRun = false ∨ startedPreSyncPhase s.syncRes = true)) :=
    fun syncTasks s' hc he => (mem_syncStrategy_effects sc syncTasks s' he).imp
      (fun ⟨force, he⟩ => ⟨false, _, force, true, _, he, fun _ => hc⟩) (fun he => ⟨he, hc⟩)
  rcases sync_cases sc s with
    ⟨s', ⟨h, -⟩ | ⟨syncTasks, hg, _, rfl, h, -⟩, -⟩ | ⟨syncTasks, hg, -, ⟨hp, h⟩ | ⟨hd, dry, rfl, -, h⟩⟩ <;>
    rw [h] at he
  · simp at he
  · exact ⟨syncTasks, hg, .inl ⟨true, _, _, _, _, List.mem_singleton.mp he, by simp⟩⟩
  · exact ⟨syncTasks, hg, hstrat _ _ (.inr hp) he⟩
  · rcases List.mem_cons.mp he with he | he
    · exact ⟨syncTasks, hg, .inl ⟨true, _, _, _, _, he, by simp⟩⟩
    · exact ⟨syncTasks, hg, hstrat _ _ (.inl hd) he⟩

/-- `sync` ends Succeeded only past the generation of its tasks. -/
theorem generateSyncTasks_of_sync_succeeded (h : (sc.sync s).1.phase = .succeeded) :
    ∃ syncTasks, sc.generateSyncTasks = .ok syncTasks := by
  unfold SyncContext.sync at h
  split at h
  · simp at h
  · exact ⟨_, ‹_›⟩

/-- Past the dry run, `sync` is the strategy. -/
theorem sync_of_startedPreSyncPhase (hg : sc.generateSyncTasks = .ok syncTasks) (hne : syncTasks ≠ [])
    (hp : startedPreSyncPhase s.syncRes = true) : sc.sync s = sc.syncStrategy syncTasks s := by
  simp [SyncContext.sync, hg, hne, hp]

/-- **A real apply is the strategy's**, on the generated tasks, which are
not empty. -/
theorem sync_of_real_apply {real : ApplyState}
    (he : .doApplySync syncTasks false real ∈ (sc.sync s).2) :
    sc.generateSyncTasks = .ok syncTasks ∧ syncTasks ≠ [] ∧ ∃ s',
      (sc.sync s).1 = (sc.syncStrategy syncTasks s').1 ∧
      .doApplySync syncTasks false real ∈ (sc.syncStrategy syncTasks s').2 := by
  have hst : ∀ tasks s', .doApplySync syncTasks false real ∈ (sc.syncStrategy tasks s').2 →
      tasks = syncTasks := fun tasks s' h => by
    rcases mem_syncStrategy_effects sc tasks s' h with ⟨_, h⟩ | h <;> cases h
    rfl
  rcases sync_cases sc s with
    ⟨s', ⟨h, -⟩ | ⟨_, _, _, -, h, -⟩, -⟩ | ⟨tasks, hg, hne, ⟨-, h⟩ | ⟨-, dry, -, -, h⟩⟩ <;> rw [h] at he ⊢
  · simp at he
  · simp at he
  · obtain rfl := hst _ _ he
    exact ⟨hg, hne, _, rfl, he⟩
  · have he := List.mem_of_ne_of_mem (by simp) he
    obtain rfl := hst _ _ he
    exact ⟨hg, hne, _, rfl, he⟩

/-- **The apply strategy**: once the sync phase has started it reports
success and calls nothing; before, it applies for real, keeps the resource
list the apply leaves, and fails the operation when the apply fails. -/
theorem syncStrategy_of_apply {apply : SyncStrategyApply} {hook : Option SyncStrategyHook}
    (hstrat : sc.syncOp.syncStrategy = some ⟨some apply, hook⟩) :
    sc.syncStrategy syncTasks s =
      if startedSyncPhase s.syncRes then (s.setOperationPhase .succeeded "successfully synced", [])
      else
        let real := sc.doApplySync (sc.schedule false) syncTasks false apply.force true s.syncRes.resources
        (if real.successful then s.setResources real.resources
          else
            (s.setResources real.resources).setOperationPhase .failed "one or more objects failed to apply",
          [.doApplySync syncTasks false real]) := by
  simp only [SyncContext.syncStrategy, hstrat, Option.getD_some]
  cases startedSyncPhase s.syncRes <;>
    cases (sc.doApplySync (sc.schedule false) syncTasks false apply.force true
      s.syncRes.resources).successful <;>
    rfl

/-- Recorded progress of the sync phase is recorded progress of the pre-sync
phase. -/
theorem startedPreSyncPhase_of_startedSyncPhase {syncRes : SyncOperationResult}
    (h : startedSyncPhase syncRes = true) : startedPreSyncPhase syncRes = true := by
  simp only [startedSyncPhase, startedPreSyncPhase, Bool.or_eq_true, decide_eq_true_eq,
    List.any_eq_true] at h ⊢
  exact h.imp_right fun ⟨_, hx, _⟩ => List.length_pos_of_mem hx

/-- With no hook recorded, the pre-sync and the sync phase start together:
both read the resource list alone. -/
theorem startedSyncPhase_of_startedPreSyncPhase {syncRes : SyncOperationResult}
    (hh : syncRes.hooks = []) (h : startedPreSyncPhase syncRes = true) :
    startedSyncPhase syncRes = true := by
  simpa [startedPreSyncPhase, startedSyncPhase, hh] using h

section Apply

variable {apply : SyncStrategyApply} {hook : Option SyncStrategyHook}
  (hstrat : sc.syncOp.syncStrategy = some ⟨some apply, hook⟩)
include hstrat

/-- **A real apply under the apply strategy leaves its resource list**, and
fails the operation when it fails. -/
theorem sync_real_apply_resources {real : ApplyState}
    (he : .doApplySync syncTasks false real ∈ (sc.sync s).2) :
    (sc.sync s).1.syncRes.resources = real.resources ∧
    (real.successful = false → (sc.sync s).1.phase = .failed) := by
  obtain ⟨-, -, s', h1, he'⟩ := sync_of_real_apply sc syncTasks s he
  rw [syncStrategy_of_apply sc syncTasks s' hstrat] at h1 he'
  by_cases hst : startedSyncPhase s'.syncRes = true
  · simp [hst] at he'
  · simp only [hst, Bool.false_eq_true, if_false, List.mem_singleton, Effect.doApplySync.injEq,
      true_and] at h1 he'
    rw [← he'] at h1
    exact ⟨by rw [h1]; split <;> rfl, fun hf => by simp [h1, hf]⟩

/-- **Once the sync phase has started, the apply strategy ends the
operation**, Succeeded or in an error, with no effect. -/
theorem sync_of_startedSyncPhase (hs : startedSyncPhase s.syncRes = true) :
    (sc.sync s).1.phase ≠ .running ∧ (sc.sync s).2 = [] := by
  cases hg : sc.generateSyncTasks with
  | error message => simp [SyncContext.sync, hg]
  | ok syncTasks =>
    by_cases hl : syncTasks = []
    · subst hl
      simp [SyncContext.sync, hg]
    · rw [sync_of_startedPreSyncPhase sc syncTasks s hg hl (startedPreSyncPhase_of_startedSyncPhase hs),
        syncStrategy_of_apply sc syncTasks s hstrat, if_pos hs]
      simp

/-- Under the apply strategy, once the sync phase has started, `sync` sets
only the phase and the message. -/
theorem sync_syncRes_of_startedSyncPhase (hs : startedSyncPhase s.syncRes = true) :
    (sc.sync s).1.syncRes = s.syncRes := by
  cases hg : sc.generateSyncTasks with
  | error message => simp [SyncContext.sync, hg]
  | ok syncTasks =>
    by_cases hl : syncTasks = []
    · subst hl
      simp [SyncContext.sync, hg]
    · rw [sync_of_startedPreSyncPhase sc syncTasks s hg hl (startedPreSyncPhase_of_startedSyncPhase hs),
        syncStrategy_of_apply sc syncTasks s hstrat, if_pos hs]
      rfl

/-- **Under the apply strategy `sync` keeps the recorded hooks.** -/
theorem sync_hooks : (sc.sync s).1.syncRes.hooks = s.syncRes.hooks := by
  have hst : ∀ tasks s', (sc.syncStrategy tasks s').1.syncRes.hooks = s'.syncRes.hooks :=
    fun tasks s' => by
      rw [syncStrategy_of_apply sc tasks s' hstrat]
      split <;> [rfl; (dsimp only; split <;> rfl)]
  rcases sync_cases sc s with
    ⟨s', ⟨h, hs⟩ | ⟨_, _, _, -, h, hs⟩, -⟩ | ⟨tasks, -, -, ⟨-, h⟩ | ⟨-, dry, -, -, h⟩⟩ <;> rw [h]
  · rw [hs]
  · rw [hs]; rfl
  · exact hst ..
  · exact hst ..

/-- **Under the apply strategy `sync` keeps the resource list unique by
key.** -/
theorem sync_nodup_of_apply (h : (keys s.syncRes.resources).Nodup) :
    (keys (sc.sync s).1.syncRes.resources).Nodup := by
  have hst : ∀ tasks s', (keys s'.syncRes.resources).Nodup →
      (keys (sc.syncStrategy tasks s').1.syncRes.resources).Nodup := fun tasks s' h => by
    rw [syncStrategy_of_apply sc tasks s' hstrat]
    split
    · exact h
    · dsimp only
      split <;> exact nodup_doApplySync _ _ _ _ _ _ _ h
  rcases sync_cases sc s with
    ⟨s', ⟨h', hs⟩ | ⟨_, _, _, rfl, h', hs⟩, -⟩ | ⟨tasks, -, -, ⟨-, h'⟩ | ⟨-, dry, rfl, -, h'⟩⟩ <;>
    rw [h']
  · rw [hs]
    exact h
  · rw [hs]
    exact nodup_doApplySync _ _ _ _ _ _ _ h
  · exact hst _ _ h
  · exact hst _ _ (nodup_doApplySync _ _ _ _ _ _ _ h)

/-- **Under the apply strategy `sync` leaves the operation running only
after a real apply that succeeded.** -/
theorem sync_running_of_apply (h : (sc.sync s).1.phase = .running) :
    ∃ syncTasks real, .doApplySync syncTasks false real ∈ (sc.sync s).2 ∧ real.successful = true := by
  have hst : ∀ tasks s', (sc.syncStrategy tasks s').1.phase = .running →
      ∃ real, (sc.syncStrategy tasks s').2 = [.doApplySync tasks false real] ∧
        real.successful = true := fun tasks s' h => by
    rw [syncStrategy_of_apply sc tasks s' hstrat] at h ⊢
    by_cases hs : startedSyncPhase s'.syncRes = true
    · simp [hs] at h
    · simp only [hs, Bool.false_eq_true, if_false] at h ⊢
      generalize sc.doApplySync (sc.schedule false) tasks false apply.force true
        s'.syncRes.resources = real at h ⊢
      cases hr : real.successful
      · simp [hr] at h
      · exact ⟨real, rfl, hr⟩
  rcases sync_cases sc s with
    ⟨s', ⟨h', -⟩ | ⟨_, _, _, -, h', -⟩, hc⟩ | ⟨tasks, -, -, ⟨-, h'⟩ | ⟨-, dry, -, -, h'⟩⟩ <;>
    rw [h'] at h ⊢
  · exact absurd h (OperationPhase.ne_running_of_completed hc)
  · exact absurd h (OperationPhase.ne_running_of_completed hc)
  · obtain ⟨real, he, hs⟩ := hst _ _ h
    exact ⟨tasks, real, by rw [he]; exact List.mem_singleton_self _, hs⟩
  · obtain ⟨real, he, hs⟩ := hst _ _ h
    exact ⟨tasks, real, by rw [he]; exact List.mem_cons_of_mem _ (List.mem_singleton_self _), hs⟩

/-- Under the apply strategy the strategy keeps the phase or completes the
operation. -/
theorem syncStrategy_phase_of_apply :
    (sc.syncStrategy syncTasks s).1.phase = s.phase ∨
      (sc.syncStrategy syncTasks s).1.phase.completed = true := by
  rw [syncStrategy_of_apply sc syncTasks s hstrat]
  split
  · exact .inr rfl
  · dsimp only
    split
    · exact .inl rfl
    · exact .inr rfl

/-- **Under the apply strategy `sync` keeps the phase or completes the
operation.** -/
theorem sync_phase_of_apply : (sc.sync s).1.phase = s.phase ∨ (sc.sync s).1.phase.completed = true := by
  rcases sync_cases sc s with
    ⟨s', ⟨h, -⟩ | ⟨_, _, _, -, h, -⟩, hc⟩ | ⟨tasks, -, -, ⟨-, h⟩ | ⟨-, dry, -, -, h⟩⟩ <;> rw [h]
  · exact .inr hc
  · exact .inr hc
  · exact syncStrategy_phase_of_apply sc tasks s hstrat
  · exact syncStrategy_phase_of_apply sc tasks _ hstrat

/-- **Under the apply strategy a real apply follows a successful dry run of
the same tasks**, in the same call and for a real operation, when no hook is
recorded: the dry run and the real apply are the call's two effects. -/
theorem sync_real_apply_after_dry_run (hh : s.syncRes.hooks = []) {real : ApplyState}
    (he : .doApplySync syncTasks false real ∈ (sc.sync s).2) :
    sc.syncOp.dryRun = false ∧ ∃ dry, dry.successful = true ∧
      (sc.sync s).2 = [.doApplySync syncTasks true dry, .doApplySync syncTasks false real] := by
  have hst : ∀ tasks s', .doApplySync syncTasks false real ∈ (sc.syncStrategy tasks s').2 →
      tasks = syncTasks ∧ startedSyncPhase s'.syncRes = false ∧
        (sc.syncStrategy tasks s').2 = [.doApplySync syncTasks false real] := fun tasks s' h => by
    rw [syncStrategy_of_apply sc tasks s' hstrat] at h ⊢
    by_cases hs : startedSyncPhase s'.syncRes = true
    · simp [hs] at h
    · simp only [hs, Bool.false_eq_true, if_false, List.mem_singleton, Effect.doApplySync.injEq,
        true_and] at h
      obtain ⟨rfl, rfl⟩ := h
      rw [if_neg hs]
      exact ⟨rfl, eq_false_of_ne_true hs, rfl⟩
  rcases sync_cases sc s with
    ⟨s', ⟨h, -⟩ | ⟨_, _, _, -, h, -⟩, -⟩ | ⟨tasks, -, -, ⟨hp, h⟩ | ⟨hd, dry, -, hdry, h⟩⟩ <;>
    rw [h] at he ⊢
  · simp at he
  · simp at he
  · have hs := startedSyncPhase_of_startedPreSyncPhase hh hp
    simp [(hst _ _ he).2.1] at hs
  · obtain ⟨rfl, -, hs⟩ := hst _ _ (List.mem_of_ne_of_mem (by simp) he)
    rw [hs]
    exact ⟨hd, dry, hdry, rfl⟩

end Apply

/-- **A dry-run operation ends in the invocation that dry-runs it**: in an
error, in the failure of the dry run, or in its success. -/
theorem sync_phase_of_dryRun (hd : sc.syncOp.dryRun = true) (hs : startedPreSyncPhase s.syncRes = false) :
    (sc.sync s).1.phase ≠ .running := by
  rcases sync_cases sc s with
    ⟨s', ⟨h, -⟩ | ⟨_, _, _, -, h, -⟩, hc⟩ | ⟨_, -, -, ⟨hp, -⟩ | ⟨hd', -⟩⟩
  · rw [h]
    exact OperationPhase.ne_running_of_completed hc
  · rw [h]
    exact OperationPhase.ne_running_of_completed hc
  · exact absurd (hs.symm.trans hp) (by decide)
  · exact absurd (hd.symm.trans hd') (by decide)

end Sync

section SyncAppState

variable (env : Env) (app : Application) (state : OperationState)

/-! ## `syncAndRecord` -/

section Record

variable (sc : SyncContext) (syncOp : SyncOperation) (revision : String) (syncRes : SyncOperationResult)

theorem syncAndRecord_operation :
    (syncAndRecord env sc syncOp revision state syncRes).1.operation = state.operation := by
  unfold syncAndRecord
  generalize sc.terminateOrSync state syncRes = r
  dsimp only
  split
  · split <;> rfl
  · rfl

/-- The sync result `syncAndRecord` leaves is the one `terminate` or `sync`
leaves. -/
theorem syncAndRecord_syncResult :
    (syncAndRecord env sc syncOp revision state syncRes).1.syncResult =
      some (sc.terminateOrSync state syncRes).1.syncRes := by
  unfold syncAndRecord
  generalize sc.terminateOrSync state syncRes = r
  dsimp only
  split
  · split <;> rfl
  · rfl

/-- **What `syncAndRecord` calls**: what `terminate` or `sync` calls, and the
history record of a real operation. -/
theorem mem_syncAndRecord_effects {e : Effect}
    (he : e ∈ (syncAndRecord env sc syncOp revision state syncRes).2) :
    e ∈ (sc.terminateOrSync state syncRes).2 ∨
    (e = .persistDeploymentInfo revision ∧ syncOp.dryRun = false ∧
      (syncOp.resources.getD []).length = 0 ∧
      (sc.terminateOrSync state syncRes).1.phase = .succeeded) := by
  unfold syncAndRecord at he
  generalize sc.terminateOrSync state syncRes = r at he ⊢
  dsimp only at he
  split at he
  · rename_i hp
    simp only [Bool.and_eq_true, Bool.not_eq_true', decide_eq_true_eq, OperationPhase.successful_iff] at hp
    split at he <;> rcases List.mem_append.mp he with he | he
    all_goals first | exact .inl he | exact .inr ⟨List.mem_singleton.mp he, hp.1.1, hp.1.2, hp.2⟩
  · exact .inl he

/-- `syncAndRecord` calls first what `terminate` or `sync` calls. -/
theorem isPrefix_syncAndRecord_effects :
    (sc.terminateOrSync state syncRes).2 <+: (syncAndRecord env sc syncOp revision state syncRes).2 := by
  unfold syncAndRecord
  generalize sc.terminateOrSync state syncRes = r
  dsimp only
  split
  · split <;> exact List.prefix_append _ _
  · exact List.prefix_refl _

/-- For a dry-run operation the phase `syncAndRecord` leaves is the one
`terminate` or `sync` leaves. -/
theorem syncAndRecord_phase_of_dryRun (hd : syncOp.dryRun = true) :
    (syncAndRecord env sc syncOp revision state syncRes).1.phase =
      (sc.terminateOrSync state syncRes).1.phase := by
  unfold syncAndRecord
  generalize sc.terminateOrSync state syncRes = r
  simp [hd]

theorem terminateOrSync_revision (hk : sc.hookSync.KeepsRevision) :
    (sc.terminateOrSync state syncRes).1.syncRes.revision = syncRes.revision := by
  unfold SyncContext.terminateOrSync
  split
  · rfl
  · exact sync_revision _ _ hk

/-- Under the apply strategy `terminate` and `sync` keep the recorded hooks. -/
theorem terminateOrSync_hooks {apply : SyncStrategyApply} {hook : Option SyncStrategyHook}
    (hstrat : sc.syncOp.syncStrategy = some ⟨some apply, hook⟩) :
    (sc.terminateOrSync state syncRes).1.syncRes.hooks = syncRes.hooks := by
  unfold SyncContext.terminateOrSync
  split
  · rfl
  · exact sync_hooks _ _ hstrat

/-- Under the apply strategy `terminate` or `sync` keeps the resource list
unique by key. -/
theorem terminateOrSync_nodup_of_apply {apply : SyncStrategyApply} {hook : Option SyncStrategyHook}
    (hstrat : sc.syncOp.syncStrategy = some ⟨some apply, hook⟩) (h : (keys syncRes.resources).Nodup) :
    (keys (sc.terminateOrSync state syncRes).1.syncRes.resources).Nodup := by
  unfold SyncContext.terminateOrSync
  split
  · exact h
  · exact sync_nodup_of_apply sc _ hstrat h

/-- Under the apply strategy `terminate` or `sync` leaves the operation
running only after a real apply that succeeded. -/
theorem terminateOrSync_running_of_apply {apply : SyncStrategyApply} {hook : Option SyncStrategyHook}
    (hstrat : sc.syncOp.syncStrategy = some ⟨some apply, hook⟩)
    (h : (sc.terminateOrSync state syncRes).1.phase = .running) :
    ∃ syncTasks real, .doApplySync syncTasks false real ∈ (sc.terminateOrSync state syncRes).2 ∧
      real.successful = true := by
  unfold SyncContext.terminateOrSync at h ⊢
  split at h
  · simp at h
  · rw [if_neg ‹_›]
    exact sync_running_of_apply sc _ hstrat h

/-- Under the apply strategy `terminate` or `sync` keeps the phase or
completes the operation. -/
theorem terminateOrSync_phase_of_apply {apply : SyncStrategyApply} {hook : Option SyncStrategyHook}
    (hstrat : sc.syncOp.syncStrategy = some ⟨some apply, hook⟩) :
    (sc.terminateOrSync state syncRes).1.phase = state.phase ∨
      (sc.terminateOrSync state syncRes).1.phase.completed = true := by
  unfold SyncContext.terminateOrSync
  split
  · exact .inr rfl
  · exact sync_phase_of_apply sc _ hstrat

/-- **What `terminate` or `sync` calls**: the delete of a hook's resource, or,
when the operation is not terminating, what `sync` calls. -/
theorem mem_terminateOrSync_effects {e : Effect} (he : e ∈ (sc.terminateOrSync state syncRes).2) :
    (state.phase = .terminating ∧ ∃ hook, e = .deleteHook hook) ∨
      state.phase ≠ .terminating ∧ e ∈ (sc.sync ⟨state.phase, state.message, syncRes⟩).2 := by
  unfold SyncContext.terminateOrSync at he
  split at he
  · obtain ⟨hook, -, rfl⟩ := List.mem_map.mp he
    exact .inl ⟨‹_›, hook, rfl⟩
  · exact .inr ⟨‹_›, he⟩

/-- `terminate` or `sync` ends Succeeded only when the operation is not
terminating and its tasks were generated. -/
theorem terminateOrSync_succeeded (h : (sc.terminateOrSync state syncRes).1.phase = .succeeded) :
    state.phase ≠ .terminating ∧ ∃ syncTasks, sc.generateSyncTasks = .ok syncTasks := by
  unfold SyncContext.terminateOrSync at h
  split at h
  · simp at h
  · exact ⟨‹_›, generateSyncTasks_of_sync_succeeded sc _ h⟩

/-- `terminate` and `sync` neither compare nor record. -/
theorem not_mem_terminateOrSync_effects {x : String} :
    .compareAppState x ∉ (sc.terminateOrSync state syncRes).2 ∧
    .persistDeploymentInfo x ∉ (sc.terminateOrSync state syncRes).2 := by
  constructor <;> intro he <;>
  · rcases mem_terminateOrSync_effects _ _ _ he with ⟨-, _, he⟩ | ⟨-, he⟩
    · cases he
    · obtain ⟨_, -, ⟨_, _, _, _, _, he, -⟩ | ⟨he, -⟩⟩ := mem_sync_effects _ _ he <;> cases he

theorem terminateOrSync_of_ne_terminating (hr : state.phase ≠ .terminating) :
    sc.terminateOrSync state syncRes = sc.sync ⟨state.phase, state.message, syncRes⟩ := by
  simp [SyncContext.terminateOrSync, hr]

/-- Under the apply strategy, once the sync phase has started, `terminate` or
`sync` ends the operation, and calls nothing but the deletes of `terminate`. -/
theorem terminateOrSync_of_startedSyncPhase {apply : SyncStrategyApply}
    {hook : Option SyncStrategyHook} (hstrat : sc.syncOp.syncStrategy = some ⟨some apply, hook⟩)
    (hs : startedSyncPhase syncRes = true) :
    (sc.terminateOrSync state syncRes).1.phase ≠ .running ∧
      ∀ e ∈ (sc.terminateOrSync state syncRes).2, ∃ hook, e = .deleteHook hook := by
  by_cases ht : state.phase = .terminating
  · refine ⟨by simp [SyncContext.terminateOrSync, ht], fun e he => ?_⟩
    rcases mem_terminateOrSync_effects _ _ _ he with ⟨-, h⟩ | ⟨hne, -⟩
    · exact h
    · exact absurd ht hne
  · rw [terminateOrSync_of_ne_terminating _ _ _ ht, (sync_of_startedSyncPhase sc _ hstrat hs).2]
    exact ⟨(sync_of_startedSyncPhase sc _ hstrat hs).1, by simp⟩

/-- Under the apply strategy, once the sync phase has started, `terminate`
or `sync` keeps the sync result. -/
theorem terminateOrSync_syncRes_of_startedSyncPhase {apply : SyncStrategyApply}
    {hook : Option SyncStrategyHook} (hstrat : sc.syncOp.syncStrategy = some ⟨some apply, hook⟩)
    (hs : startedSyncPhase syncRes = true) : (sc.terminateOrSync state syncRes).1.syncRes = syncRes := by
  unfold SyncContext.terminateOrSync
  split
  · rfl
  · exact sync_syncRes_of_startedSyncPhase sc _ hstrat hs

/-- The phase `syncAndRecord` leaves: the one `terminate` or `sync` leaves,
or Error when the history record fails. -/
theorem syncAndRecord_phase :
    (syncAndRecord env sc syncOp revision state syncRes).1.phase =
      (sc.terminateOrSync state syncRes).1.phase ∨
    (syncAndRecord env sc syncOp revision state syncRes).1.phase = .error := by
  unfold syncAndRecord
  generalize sc.terminateOrSync state syncRes = r
  dsimp only
  split
  · split
    · exact .inr rfl
    · exact .inl rfl
  · exact .inl rfl

/-- When `terminate` or `sync` does not succeed, `syncAndRecord` calls what
they call and nothing more. -/
theorem syncAndRecord_effects_of_not_successful
    (h : (sc.terminateOrSync state syncRes).1.phase.successful = false) :
    (syncAndRecord env sc syncOp revision state syncRes).2 = (sc.terminateOrSync state syncRes).2 := by
  unfold syncAndRecord
  generalize sc.terminateOrSync state syncRes = r at h ⊢
  simp [h]

/-- **`syncAndRecord` records the history at most once, last**, and only
when it leaves the operation not running: Succeeded, or Error when the
record fails. -/
theorem syncAndRecord_history :
    ∃ pre, (∀ r, .persistDeploymentInfo r ∉ pre) ∧
      ((syncAndRecord env sc syncOp revision state syncRes).2 = pre ∨
        ∃ r, (syncAndRecord env sc syncOp revision state syncRes).2 = pre ++ [.persistDeploymentInfo r] ∧
          (syncAndRecord env sc syncOp revision state syncRes).1.phase ≠ .running) := by
  refine ⟨_, fun _ => (not_mem_terminateOrSync_effects state sc syncRes).2, ?_⟩
  unfold syncAndRecord
  generalize sc.terminateOrSync state syncRes = r
  dsimp only
  split
  · rename_i hp
    simp only [Bool.and_eq_true, OperationPhase.successful_iff] at hp
    split
    · exact .inr ⟨_, rfl, by simp⟩
    · exact .inr ⟨_, rfl, by simp [hp.2]⟩
  · exact .inl rfl

end Record

/-! ## `SyncAppState` -/

/-- **Every exit of `SyncAppState` on a sync operation**: an error exit after
comparing at the revision the sync result gives, with that sync result when
the comparison failed or reported an error condition, or with the revision
the comparison resolved; or the end in `syncAndRecord`, from the sync result
with the resolved revision. -/
theorem syncAppState_cases {syncOp : SyncOperation} (hop : state.operation.sync = some syncOp) :
    let syncRes := state.syncResult.getD .empty
    let revision := syncRes.compareRevision syncOp
    (∃ message sr, ((sr = syncRes ∧ ∀ cmp, env.compareAppState revision = .ok cmp →
          0 < (cmp.conditions.filter (·.isError)).length) ∨
        ∃ cmp, env.compareAppState revision = .ok cmp ∧
          sr = { syncRes with revision := cmp.manifestRevision }) ∧
      syncAppState env app state =
        ({ state with syncResult := some sr }.setError message, [.compareAppState revision])) ∨
    ∃ proj cmp, env.compareAppState revision = .ok cmp ∧
      syncAppState env app state =
        ((syncAndRecord env (env.syncContext app proj syncOp cmp) syncOp cmp.manifestRevision
          { state with syncResult := some { syncRes with revision := cmp.manifestRevision } }
          { syncRes with revision := cmp.manifestRevision }).1,
         .compareAppState revision ::
          (syncAndRecord env (env.syncContext app proj syncOp cmp) syncOp cmp.manifestRevision
            { state with syncResult := some { syncRes with revision := cmp.manifestRevision } }
            { syncRes with revision := cmp.manifestRevision }).2) := by
  dsimp only
  generalize hr : syncAppState env app state = r
  unfold syncAppState at hr
  rw [hop] at hr
  dsimp only at hr
  split at hr
  · rename_i hc
    exact .inl ⟨_, _, .inl ⟨rfl, fun _ h => by rw [hc] at h; cases h⟩, hr.symm⟩
  · rename_i cmp hc
    split at hr
    · exact .inl ⟨_, _, .inl ⟨rfl, fun _ h => by rw [hc] at h; cases h; assumption⟩, hr.symm⟩
    · split at hr
      · exact .inl ⟨_, _, .inr ⟨cmp, hc, rfl⟩, hr.symm⟩
      · exact .inl ⟨_, _, .inr ⟨cmp, hc, rfl⟩, hr.symm⟩
      · exact .inl ⟨_, _, .inr ⟨cmp, hc, rfl⟩, hr.symm⟩
      · exact .inl ⟨_, _, .inr ⟨cmp, hc, rfl⟩, hr.symm⟩
      · exact .inr ⟨_, cmp, hc, hr.symm⟩

theorem syncAppState_operation : (syncAppState env app state).1.operation = state.operation := by
  cases hop : state.operation.sync with
  | none => simp [syncAppState, hop]
  | some syncOp =>
    rcases syncAppState_cases env app state hop with ⟨_, _, -, h⟩ | ⟨_, _, -, h⟩ <;> rw [h]
    · rfl
    · exact syncAndRecord_operation ..

theorem syncAppState_operation_sync {syncOp : SyncOperation} (hop : state.operation.sync = some syncOp) :
    (syncAppState env app state).1.operation.sync = some syncOp := by
  rw [syncAppState_operation, hop]

/-- **What an invocation runs `doApplySync` on**: tasks that the context it
built generates. -/
theorem syncAppState_doApplySync {syncOp : SyncOperation} (hop : state.operation.sync = some syncOp)
    {syncTasks : List SyncTask} {dryRun : Bool} {outcome : ApplyState}
    (he : .doApplySync syncTasks dryRun outcome ∈ (syncAppState env app state).2) :
    ∃ proj cmp, (env.syncContext app proj syncOp cmp).generateSyncTasks = .ok syncTasks ∧
      ∃ il force update resources,
        outcome = (env.syncContext app proj syncOp cmp).doApplySync il syncTasks dryRun force update
          resources := by
  rcases syncAppState_cases env app state hop with ⟨_, _, -, heq⟩ | ⟨proj, cmp, -, heq⟩ <;>
    rw [heq] at he
  · simp at he
  · rcases mem_syncAndRecord_effects _ _ _ _ _ _ (List.mem_of_ne_of_mem (by simp) he) with
      he | ⟨he, -⟩
    · rcases mem_terminateOrSync_effects _ _ _ he with ⟨-, _, he⟩ | ⟨-, he⟩
      · cases he
      obtain ⟨tasks, hg, ⟨d, il, force, update, resources, heff, -⟩ | ⟨heff, -⟩⟩ :=
        mem_sync_effects _ _ he
      · obtain ⟨rfl, rfl, rfl⟩ := Effect.doApplySync.inj heff
        exact ⟨proj, cmp, hg, il, force, update, resources, rfl⟩
      · cases heff
    · cases he

/-- **An invocation records the history at most once, as its last effect,
and then leaves the operation not running.** -/
theorem syncAppState_history :
    ∃ pre, (∀ r, .persistDeploymentInfo r ∉ pre) ∧
      ((syncAppState env app state).2 = pre ∨
        ∃ r, (syncAppState env app state).2 = pre ++ [.persistDeploymentInfo r] ∧
          (syncAppState env app state).1.phase ≠ .running) := by
  cases hop : state.operation.sync with
  | none => exact ⟨[], by simp, .inl (by simp [syncAppState, hop])⟩
  | some syncOp =>
    rcases syncAppState_cases env app state hop with ⟨_, _, -, heq⟩ | ⟨proj, cmp, -, heq⟩ <;> rw [heq]
    · exact ⟨_, by simp, .inl rfl⟩
    · obtain ⟨pre, hpre, h⟩ := syncAndRecord_history env
        { state with syncResult := some { state.syncResult.getD .empty with revision := cmp.manifestRevision } }
        (env.syncContext app proj syncOp cmp) syncOp cmp.manifestRevision
        { state.syncResult.getD .empty with revision := cmp.manifestRevision }
      exact ⟨.compareAppState _ :: pre, by simpa using hpre,
        h.imp (fun h => by rw [h]) fun ⟨r, h, hp⟩ => ⟨r, by rw [h]; rfl, hp⟩⟩

end SyncAppState

end ArgoSync
