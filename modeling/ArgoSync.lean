import ArgoSync.Model.Types
import ArgoSync.GoSort
import ArgoSync.Model.KindSorter
import ArgoSync.Model.ApplySync
import ArgoSync.Model.Sync
import ArgoSync.ResourceDetails
import ArgoSync.KindOrder
import ArgoSync.Tasks
import ArgoSync.DoApplySync
import ArgoSync.Waves
import ArgoSync.Admission
import ArgoSync.Outcomes
import ArgoSync.SyncStep
import ArgoSync.Run
import ArgoSync.Invariants
import ArgoSync.Schedules
import ArgoSync.Liveness
