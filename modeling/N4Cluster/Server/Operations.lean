import N4Cluster.Server.Database

/-! The methods of `Database` as one type of atomic calls, with the result type
and the script of each. -/
namespace N4Cluster
open Relational Transactional

inductive DbOp where
  | findJobByIdempotency (key : String)
  | createJob (req : JobRequest) (owner : Option String)
  | createTasksForJob (jobId : JobId) (req : JobRequest)
  | createJobWithTasks (req : JobRequest) (owner : Option String)
  | getJob (jobId : JobId)
  | setJobStatus (jobId : JobId) (status : JobStatus) (error : Option String)
  | trySetJobStatus (jobId : JobId) (new : JobStatus)
  | setJobResult (jobId : JobId) (result : JobAggregate)
  | getTask (taskId : TaskId)
  | listTasksForJob (jobId : JobId)
  | leaseNextTask (workerId : WorkerId) (leaseTtlS : Time)
  | startTask (taskId : TaskId) (workerId : WorkerId)
  | completeTask (taskId : TaskId) (workerId : WorkerId) (result : TaskResult)
  | failTask (taskId : TaskId) (workerId : Option WorkerId) (error : String) (retriable : Bool)
  | reapExpiredLeases
  | reapTasksForWorkers (workerIds : List WorkerId) (error : String)
  | cancelJobTasks (jobId : JobId)
  | cancelRunningTask (taskId : TaskId) (workerId : WorkerId)
  | tasksForWorker (workerId : WorkerId)
  | registerWorker (reg : WorkerRegister) (principal : Option String)
  | heartbeatWorker (workerId : WorkerId) (leaseTtlS : Option Time)
  | getWorker (workerId : WorkerId)
  | markDeadWorkers (ttlS : Time)
  | addArtifact (artifact : NewArtifact)
  | linkJobArtifact (jobId : JobId) (taskId : Option TaskId) (role : String)
      (artifactId : ArtifactId)
  | clearJobArtifactRole (jobId : JobId) (role : String)
  | listJobArtifacts (jobId : JobId)
  | addEvent (event : NewEvent)

namespace DbOp

abbrev Ret : DbOp → Type
  | findJobByIdempotency _ => Option JobRow
  | createJob _ _ => JobId
  | createTasksForJob _ _ => List TaskId
  | createJobWithTasks _ _ => JobId × List TaskId
  | getJob _ => Option JobRow
  | setJobStatus _ _ _ => Unit
  | trySetJobStatus _ _ => Bool
  | setJobResult _ _ => Unit
  | getTask _ => Option TaskRow
  | listTasksForJob _ => List TaskRow
  | leaseNextTask _ _ => Option TaskPayload
  | startTask _ _ => TaskRow
  | completeTask _ _ _ => TaskRow
  | failTask _ _ _ _ => TaskRow
  | reapExpiredLeases => List (TaskId × JobId)
  | reapTasksForWorkers _ _ => List (TaskId × JobId)
  | cancelJobTasks _ => List TaskId
  | cancelRunningTask _ _ => Option TaskRow
  | tasksForWorker _ => List TaskId
  | registerWorker _ _ => WorkerId
  | heartbeatWorker _ _ => Bool
  | getWorker _ => Option WorkerRow
  | markDeadWorkers _ => List WorkerId
  | addArtifact _ => ArtifactId
  | linkJobArtifact _ _ _ _ => Unit
  | clearJobArtifactRole _ _ => Unit
  | listJobArtifacts _ => List LinkedArtifact
  | addEvent _ => Nat

def exec (P : Platform) (io : Io) : (op : DbOp) → Sql op.Ret
  | findJobByIdempotency key => N4Cluster.findJobByIdempotency key
  | createJob req owner => N4Cluster.createJob P io req owner
  | createTasksForJob jobId req => N4Cluster.createTasksForJob io jobId req
  | createJobWithTasks req owner => N4Cluster.createJobWithTasks P io req owner
  | getJob jobId => N4Cluster.getJob jobId
  | setJobStatus jobId status error => N4Cluster.setJobStatus io jobId status error
  | trySetJobStatus jobId new => N4Cluster.trySetJobStatus io jobId new
  | setJobResult jobId result => N4Cluster.setJobResult P io jobId result
  | getTask taskId => N4Cluster.getTask taskId
  | listTasksForJob jobId => N4Cluster.listTasksForJob jobId
  | leaseNextTask workerId leaseTtlS => N4Cluster.leaseNextTask P io workerId leaseTtlS
  | startTask taskId workerId => N4Cluster.startTask io taskId workerId
  | completeTask taskId workerId result => N4Cluster.completeTask io taskId workerId result
  | failTask taskId workerId error retriable =>
    N4Cluster.failTask P io taskId workerId error retriable
  | reapExpiredLeases => N4Cluster.reapExpiredLeases io
  | reapTasksForWorkers workerIds error => N4Cluster.reapTasksForWorkers io workerIds error
  | cancelJobTasks jobId => N4Cluster.cancelJobTasks io jobId
  | cancelRunningTask taskId workerId => N4Cluster.cancelRunningTask io taskId workerId
  | tasksForWorker workerId => N4Cluster.tasksForWorker workerId
  | registerWorker reg principal => N4Cluster.registerWorker io reg principal
  | heartbeatWorker workerId leaseTtlS => N4Cluster.heartbeatWorker io workerId leaseTtlS
  | getWorker workerId => N4Cluster.getWorker workerId
  | markDeadWorkers ttlS => N4Cluster.markDeadWorkers io ttlS
  | addArtifact artifact => N4Cluster.addArtifact io artifact
  | linkJobArtifact jobId taskId role artifactId =>
    N4Cluster.linkJobArtifact jobId taskId role artifactId
  | clearJobArtifactRole jobId role => N4Cluster.clearJobArtifactRole jobId role
  | listJobArtifacts jobId => N4Cluster.listJobArtifacts io jobId
  | addEvent event => N4Cluster.addEvent P io event

/-- The store after an operation, whatever it returned or raised. -/
def after (P : Platform) (io : Io) (op : DbOp) (s : Session Db) : Session Db :=
  (op.exec P io s).2

end DbOp
end N4Cluster
