import Outboxy.Lifecycle.Cluster
import Outboxy.Text

/-!
# The ids of the workers

A process has an identity: the configured worker id, or its host name, or a
random one.  A `WorkerCluster` without an explicit prefix makes one of the
identity, of which it keeps the first two of the parts between dashes, and
numbers its workers behind it.

`workerIdsApart_iff` says when the workers of two clusters have different ids.
What an identity has behind its second dash does not count, and that is where
the pods of one deployment differ.
-/

namespace Outboxy.Lifecycle

inductive IdentitySource where
  | env
  | hostname
  | uuid
deriving DecidableEq, Repr

structure WorkerIdentity where
  id : String
  source : IdentitySource

/-- What `resolveWorkerId` asks the process for: `process.env.HOSTNAME`,
`os.hostname()` and `randomUUID()`. -/
structure Process where
  HOSTNAME : Option String
  hostname : String
  randomUUID : String

def resolveWorkerId (process : Process) (configWorkerId : Option String) : WorkerIdentity :=
  let hostname := process.HOSTNAME.getD process.hostname
  let unconfigured : WorkerIdentity :=
    if hostname ≠ "" ∧ includes hostname "-" then ⟨hostname, .hostname⟩
    else ⟨"worker-" ++ String.ofList (process.randomUUID.toList.take 8), .uuid⟩
  match configWorkerId with
  | none | some "" => unconfigured
  | some id => ⟨id, .env⟩

/-- `id.split("-").slice(0, 2)` -/
def firstParts (id : String) : List String := (split id '-').take 2

/-- What the constructor of a cluster sets `workerIdPrefix` to. -/
def workerIdPrefix (process : Process) (configWorkerId explicit : Option String) : String :=
  explicit.getD (join (firstParts (resolveWorkerId process configWorkerId).id) '-')

variable {σ κ : Type}

/-- The ids of the workers that `start()` creates. -/
def WorkerCluster.workerIds (cluster : WorkerCluster σ κ) : List String :=
  (List.range cluster.workerCount).map fun index => (cluster.worker index).workerId

/-- No two workers of the clusters have the same id. -/
structure WorkerIdsApart (cluster cluster' : WorkerCluster σ κ) : Prop where
  nodup : cluster.workerIds.Nodup
  nodup' : cluster'.workerIds.Nodup
  disjoint : cluster.workerIds.Disjoint cluster'.workerIds

/-! ## One cluster -/

/-- The prefix and the number of a worker can be told from its id. -/
theorem workerId_worker_inj {cluster cluster' : WorkerCluster σ κ} {index index' : Nat} :
    (cluster.worker index).workerId = (cluster'.worker index').workerId ↔
      cluster.workerIdPrefix = cluster'.workerIdPrefix ∧ index = index' :=
  dash_toString_inj

/-- Within a cluster the ids are distinct. -/
theorem nodup_workerIds (cluster : WorkerCluster σ κ) : cluster.workerIds.Nodup :=
  List.nodup_range.map fun _ _ heq => (workerId_worker_inj.mp heq).2

/-! ## Two clusters -/

/-- Clusters with different prefixes have no id in common, and clusters with
the same prefix have that of their first workers. -/
theorem disjoint_workerIds_iff {cluster cluster' : WorkerCluster σ κ} :
    cluster.workerIds.Disjoint cluster'.workerIds ↔
      cluster.workerCount = 0 ∨ cluster'.workerCount = 0 ∨
        cluster.workerIdPrefix ≠ cluster'.workerIdPrefix := by
  constructor
  · intro hdisjoint
    by_contra hcommon
    rw [not_or, not_or, not_not] at hcommon
    obtain ⟨hcount, hcount', hparts⟩ := hcommon
    have hfirst : (cluster.worker 0).workerId ∈ cluster.workerIds :=
      List.mem_map_of_mem (List.mem_range.mpr (Nat.pos_of_ne_zero hcount))
    refine hdisjoint hfirst ?_
    rw [workerId_worker_inj.mpr ⟨hparts, rfl⟩]
    exact List.mem_map_of_mem (List.mem_range.mpr (Nat.pos_of_ne_zero hcount'))
  · intro h id hid hid'
    obtain ⟨index, hindex, rfl⟩ := List.mem_map.mp hid
    obtain ⟨index', hindex', heq⟩ := List.mem_map.mp hid'
    rw [List.mem_range] at hindex hindex'
    rcases h with hcount | hcount | hparts
    · omega
    · omega
    · exact hparts (workerId_worker_inj.mp heq.symm).1

theorem dash_not_mem_of_mem_firstParts {id part : String} (h : part ∈ firstParts id) :
    '-' ∉ part.toList :=
  not_mem_of_mem_split (List.mem_of_mem_take h)

theorem firstParts_ne_nil (id : String) : firstParts id ≠ [] := by
  rw [firstParts, ne_eq, List.take_eq_nil_iff, not_or]
  exact ⟨by decide, split_ne_nil id '-'⟩

/-- A prefix that is not explicit determines the parts that it was made of. -/
theorem workerIdPrefix_inj {process process' : Process} {workerId workerId' : Option String} :
    workerIdPrefix process workerId none = workerIdPrefix process' workerId' none ↔
      firstParts (resolveWorkerId process workerId).id =
        firstParts (resolveWorkerId process' workerId').id :=
  join_inj (firstParts_ne_nil _) (firstParts_ne_nil _)
    (fun _ => dash_not_mem_of_mem_firstParts) (fun _ => dash_not_mem_of_mem_firstParts)

/-- The workers of two clusters without an explicit prefix have different ids
just when one of the clusters has no workers or their identities differ before
the second dash. -/
theorem workerIdsApart_iff (process process' : Process) (workerId workerId' : Option String)
    (cluster cluster' : WorkerCluster σ κ)
    (h : cluster.workerIdPrefix = workerIdPrefix process workerId none)
    (h' : cluster'.workerIdPrefix = workerIdPrefix process' workerId' none) :
    WorkerIdsApart cluster cluster' ↔
      cluster.workerCount = 0 ∨ cluster'.workerCount = 0 ∨
        firstParts (resolveWorkerId process workerId).id ≠
          firstParts (resolveWorkerId process' workerId').id := by
  rw [ne_eq, ← workerIdPrefix_inj, ← h, ← h', ← ne_eq, ← disjoint_workerIds_iff]
  exact ⟨WorkerIdsApart.disjoint, fun hdisjoint =>
    ⟨nodup_workerIds cluster, nodup_workerIds cluster', hdisjoint⟩⟩

namespace Sample

/-- A process on a host, with nothing in its environment. -/
def processOn (hostname : String) : Process := ⟨none, hostname, ""⟩

/-- A publisher that does nothing. -/
def silent : Publisher Unit Unit :=
  ⟨(), fun _ => ((), ()), fun _ _ _ => (), fun _ => ((), ()), fun _ _ _ => ()⟩

/-- The cluster of such a process, with two workers. -/
def clusterOn (hostname : String) : WorkerCluster Unit Unit :=
  ⟨2, workerIdPrefix (processOn hostname) none none, {}, none, silent, id⟩

end Sample

/-- Two deployments. -/
theorem workerIdsApart_deployments :
    WorkerIdsApart (Sample.clusterOn "outboxy-worker-abc12")
      (Sample.clusterOn "billing-worker-abc12") :=
  (workerIdsApart_iff (Sample.processOn "outboxy-worker-abc12")
    (Sample.processOn "billing-worker-abc12") none none _ _ rfl rfl).mpr
      (Or.inr (Or.inr (by decide)))

/-- Two pods of one deployment have different identities, and workers with the
same ids. -/
theorem not_workerIdsApart :
    (resolveWorkerId (Sample.processOn "outboxy-worker-abc12") none).id ≠
        (resolveWorkerId (Sample.processOn "outboxy-worker-def34") none).id ∧
      ¬WorkerIdsApart (Sample.clusterOn "outboxy-worker-abc12")
        (Sample.clusterOn "outboxy-worker-def34") := by
  refine ⟨by decide, fun h => ?_⟩
  rcases disjoint_workerIds_iff.mp h.disjoint with hcount | hcount | hparts
  · exact absurd hcount (by decide)
  · exact absurd hcount (by decide)
  · apply hparts
    show workerIdPrefix (Sample.processOn "outboxy-worker-abc12") none none =
      workerIdPrefix (Sample.processOn "outboxy-worker-def34") none none
    rw [workerIdPrefix_inj]
    decide

end Outboxy.Lifecycle
