import Datability.Transition
import Mathlib.Algebra.Group.Int.Defs
import Mathlib.Algebra.Order.Group.Int

/-!
# The write stream of Firestore

How the writes of a phone reach the backend: `SyncEngine` puts each one into the mutation queue of the
signed-in user, `RemoteStore` keeps the first few of the queue in its pipeline, and `WriteStream` sends
the pipeline over a gRPC stream that can break at any time. The backend answers the requests of a stream
in order, and refuses one by closing the stream. Everything runs on one worker queue, so each callback
runs to its end before the next one starts.

An assertion of the source that fails ends the process; here a function that contains one returns which
it was. Batches carry the order in which they were issued, and the lists at the end of `SyncEngine` and
`RemoteStore` record what happened on both sides. No step looks at any of these. What a step does not
depend on (the stream token, the lengths of delays, the watch stream) is left out.
-/

namespace Datability

/-- The codes of a `Status`. -/
inductive Status
  | ok
  | cancelled
  | unknown
  | invalidArgument
  | deadlineExceeded
  | notFound
  | alreadyExists
  | permissionDenied
  | resourceExhausted
  | failedPrecondition
  | aborted
  | outOfRange
  | unimplemented
  | internal
  | unavailable
  | dataLoss
  | unauthenticated
deriving DecidableEq, Repr

/-- The assertions of `Stream`, `WriteStream`, `RemoteStore`, `Datastore` and the mutation queue. -/
inductive HardAssert
  | alreadyStarted
  | notStarting
  | backoffWithoutError
  | backoffElapsed
  | notRestarted
  | inhibitBackoffWhenStarted
  | readWhenStopped
  | closeWhenStopped
  | writeWhenNotOpen
  | handshakeCompleted
  | handshakeNotComplete
  | pipelineFull
  | startNotNeeded
  | resultForEmptyPipeline
  | stoppedWhileNeeded
  | errorWithStatusOk
  | batchDoesNotExist
deriving DecidableEq, Repr

/-- `Datastore::IsPermanentError`. -/
def Status.isPermanentError : Status → Except HardAssert Bool
  | .ok => .error .errorWithStatusOk
  | .cancelled | .unknown | .deadlineExceeded | .resourceExhausted | .internal | .unavailable
  | .unauthenticated => .ok false
  | .invalidArgument | .notFound | .alreadyExists | .permissionDenied | .failedPrecondition | .aborted
  | .outOfRange | .unimplemented | .dataLoss => .ok true

/-- `Datastore::IsPermanentWriteError`. -/
def Status.isPermanentWriteError (status : Status) : Except HardAssert Bool := do
  let permanent ← status.isPermanentError
  return permanent && decide (status ≠ .aborted)

/-- The write is at fault, so that sending it again is of no use. -/
def Status.Refuses (status : Status) : Prop := status.isPermanentWriteError = .ok true

instance (status : Status) : Decidable status.Refuses :=
  match h : status.isPermanentWriteError with
  | .ok true => isTrue h
  | .ok false => isFalse (by simp [Status.Refuses, h])
  | .error _ => isFalse (by simp [Status.Refuses, h])

/-- The statuses of a `ByteBufferReader` that fails: the buffer is not valid, or its contents cannot be decoded. -/
def Status.FromReader (status : Status) : Prop := status = .internal ∨ status = .dataLoss

instance (status : Status) : Decidable status.FromReader := inferInstanceAs (Decidable (_ ∨ _))

/-- `MutationBatch`, the writes that one call has issued, and the user whose queue has it. -/
structure MutationBatch (υ α : Type*) where
  user : υ
  batchId : ℤ
  mutations : List α
  /-- The order of issue. -/
  serial : ℕ
deriving DecidableEq, Repr

/-- A message to the backend. -/
inductive WriteRequest (υ α : Type*)
  | handshake
  | mutations (batch : MutationBatch υ α)
deriving DecidableEq, Repr

/-- A message from the backend; a result does not say which batch it is for. -/
inductive WriteResponse (υ α : Type*)
  | handshake
  | result (batch : MutationBatch υ α)
deriving DecidableEq, Repr

/-- An open `GrpcStream`: what was written and is not yet answered, the answers not yet read, and the
status with which the backend has closed it. -/
structure GrpcStream (υ α : Type*) where
  requests : List (WriteRequest υ α) := []
  responses : List (WriteResponse υ α) := []
  closed : Option Status := none
deriving DecidableEq, Repr

/-- `Stream::State`. -/
inductive StreamState
  | initial
  | starting
  | opened
  | healthy
  | error
  | backoff
deriving DecidableEq, Repr

/-- `kBatchIdUnknown`. -/
def kBatchIdUnknown : ℤ := -1

def kMaxPendingWrites : ℕ := 10

/-! ## Write stream -/

structure WriteStream (υ α : Type*) where
  state : StreamState := .initial
  handshakeComplete : Bool := false
  closeCount : ℕ := 0
  /-- The outstanding requests for credentials, each with the close count at its start. -/
  credentialRequests : List ℕ := []
  idlenessTimer : Bool := false
  backoffTimer : Bool := false
  healthCheckTimer : Bool := false
  grpcStream : Option (GrpcStream υ α) := none
  /-- For each stream that is gone and that the backend has not closed, the writes that can still
  arrive. -/
  abandoned : List (List (MutationBatch υ α)) := []
deriving DecidableEq, Repr

namespace GrpcStream

variable {υ α : Type*}

def send (g : GrpcStream υ α) (request : WriteRequest υ α) : GrpcStream υ α :=
  { g with requests := g.requests ++ [request] }

/-- The writes among the requests. -/
def pending (g : GrpcStream υ α) : List (MutationBatch υ α) :=
  g.requests.filterMap fun
    | .handshake => none
    | .mutations batch => some batch

/-- The results among the responses. -/
def results (g : GrpcStream υ α) : List (MutationBatch υ α) :=
  g.responses.filterMap fun
    | .handshake => none
    | .result batch => some batch

/-- The backend uses a status that refuses a write for the first write it has not answered, or in place
of the answer to the handshake. -/
def CanClose (g : GrpcStream υ α) (status : Status) : Prop := status.Refuses → g.requests ≠ []

instance (g : GrpcStream υ α) (status : Status) : Decidable (g.CanClose status) :=
  inferInstanceAs (Decidable (_ → _))

end GrpcStream

namespace WriteStream

variable {υ α : Type*}

def isOpen (ws : WriteStream υ α) : Bool := ws.state = .opened ∨ ws.state = .healthy

def isStarted (ws : WriteStream υ α) : Bool :=
  ws.state = .starting ∨ ws.state = .backoff ∨ ws.isOpen

def requestCredentials (ws : WriteStream υ α) : WriteStream υ α :=
  { ws with credentialRequests := ws.credentialRequests ++ [ws.closeCount] }

def backoffAndTryRestarting (ws : WriteStream υ α) : Except HardAssert (WriteStream υ α) :=
  if ws.state = .error then .ok { ws with state := .backoff, backoffTimer := true }
  else .error .backoffWithoutError

/-- `Stream::Start`. -/
def start (ws : WriteStream υ α) : Except HardAssert (WriteStream υ α) :=
  if ws.state = .error then ws.backoffAndTryRestarting
  else if ws.state = .initial then .ok { ws with state := .starting }.requestCredentials
  else .error .alreadyStarted

/-- The operation that `BackoffAndTryRestarting` schedules. -/
def backoffElapsed (ws : WriteStream υ α) : Except HardAssert (WriteStream υ α) :=
  if ws.state = .backoff then do
    let ws ← { ws with backoffTimer := false, state := .initial }.start
    if ws.isStarted then return ws else throw .notRestarted
  else .error .backoffElapsed

def inhibitBackoff (ws : WriteStream υ α) : Except HardAssert (WriteStream υ α) :=
  if ws.isStarted then .error .inhibitBackoffWhenStarted else .ok { ws with state := .initial }

def markIdle (ws : WriteStream υ α) : WriteStream υ α :=
  if ws.isOpen ∧ ws.idlenessTimer = false then { ws with idlenessTimer := true } else ws

/-- `Stream::Write`. -/
def write (ws : WriteStream υ α) (message : WriteRequest υ α) : Except HardAssert (WriteStream υ α) :=
  if ws.isOpen then
    .ok { ws with idlenessTimer := false, grpcStream := ws.grpcStream.map fun g => g.send message }
  else .error .writeWhenNotOpen

def writeHandshake (ws : WriteStream υ α) : Except HardAssert (WriteStream υ α) :=
  if ws.isOpen = false then .error .writeWhenNotOpen
  else if ws.handshakeComplete then .error .handshakeCompleted
  else ws.write .handshake

def writeMutations (ws : WriteStream υ α) (batch : MutationBatch υ α) :
    Except HardAssert (WriteStream υ α) :=
  if ws.isOpen = false then .error .writeWhenNotOpen
  else if ws.handshakeComplete = false then .error .handshakeNotComplete
  else ws.write (.mutations batch)

/-- The operation that `OnStreamStart` schedules. -/
def healthCheck (ws : WriteStream υ α) : WriteStream υ α :=
  { ws with healthCheckTimer := false, state := if ws.isOpen then .healthy else ws.state }

/-- The gRPC stream is created and opens at once, and `OnWriteStreamOpen` greets the backend. -/
def onStreamStart (ws : WriteStream υ α) : Except HardAssert (WriteStream υ α) := do
  let ws ← { ws with grpcStream := some {}, state := .opened }.writeHandshake
  return { ws with healthCheckTimer := true }

/-- The writes of the stream that can still arrive once it is gone. -/
def leftover (ws : WriteStream υ α) : List (List (MutationBatch υ α)) :=
  match ws.grpcStream with
  | none => []
  | some g => if g.closed.isSome then [] else [g.pending]

/-- The steps of `Stream::Close` before the listener is told. -/
def reset (ws : WriteStream υ α) (status : Status) : WriteStream υ α :=
  { ws with
    idlenessTimer := false
    backoffTimer := false
    healthCheckTimer := false
    closeCount := ws.closeCount + 1
    abandoned := ws.abandoned ++ ws.leftover
    grpcStream := none
    state := if status = .ok then .initial else .error }

/-- The next stream starts with a handshake. -/
def clearHandshake (ws : WriteStream υ α) : WriteStream υ α := { ws with handshakeComplete := false }

end WriteStream

/-! ## Mutation queues and completions -/

/-- The mutation queue of `LocalStore` and the completions that `SyncEngine` has to call. -/
structure SyncEngine (υ α : Type*) where
  currentUser : υ
  /-- The mutation queues of all users, the oldest batch first. -/
  rows : List (MutationBatch υ α) := []
  nextBatchId : ℤ := 1
  /-- For a user and a batch id the write whose completion is to be called. -/
  mutationCallbacks : List ((υ × ℤ) × ℕ) := []
  /-- Every batch issued so far. -/
  issued : List (MutationBatch υ α) := []
  /-- The batches taken out of the queue, and whether as acknowledged. -/
  settled : List (MutationBatch υ α × Bool) := []
  /-- The writes whose completion was called, and whether without an error. -/
  notified : List (ℕ × Bool) := []
deriving DecidableEq, Repr

namespace SyncEngine

variable {υ α : Type*} [DecidableEq υ]

/-- The mutation queue of a user. -/
def queueOf (se : SyncEngine υ α) (u : υ) : List (MutationBatch υ α) :=
  se.rows.filter fun b => b.user = u

/-- The mutation queue in use. -/
def queue (se : SyncEngine υ α) : List (MutationBatch υ α) := se.queueOf se.currentUser

/-- `LoadNextBatchIdFromDb`: one more than the highest id of any user. -/
def loadNextBatchIdFromDb (se : SyncEngine υ α) : ℤ :=
  se.rows.foldl (fun maxBatchId b => max maxBatchId b.batchId) 0 + 1

/-- `NextMutationBatchAfterBatchId`. -/
def getNextMutationBatch (se : SyncEngine υ α) (batchId : ℤ) : Option (MutationBatch υ α) :=
  se.queue.find? fun b => batchId + 1 ≤ b.batchId

def lookupMutationBatch (se : SyncEngine υ α) (batchId : ℤ) : Option (MutationBatch υ α) :=
  se.queue.find? fun b => b.batchId = batchId

/-- `AddMutationBatch` of `SyncEngine::WriteMutations`, with the completion of the write; inserting into
the map of completions does not replace one. -/
def addMutationBatch (se : SyncEngine υ α) (mutations : List α) : SyncEngine υ α :=
  let batch : MutationBatch υ α := ⟨se.currentUser, se.nextBatchId, mutations, se.issued.length⟩
  { se with
    rows := se.rows ++ [batch]
    nextBatchId := se.nextBatchId + 1
    mutationCallbacks :=
      if se.mutationCallbacks.any fun c => c.1 = (se.currentUser, se.nextBatchId) then
        se.mutationCallbacks
      else se.mutationCallbacks ++ [((se.currentUser, se.nextBatchId), batch.serial)]
    issued := se.issued ++ [batch] }

def removeMutationBatch (se : SyncEngine υ α) (batchId : ℤ) : Except HardAssert (SyncEngine υ α) :=
  if (se.lookupMutationBatch batchId).isSome then
    .ok { se with rows := se.rows.filter fun b => ¬ (b.user = se.currentUser ∧ b.batchId = batchId) }
  else .error .batchDoesNotExist

def notifyUser (se : SyncEngine υ α) (batchId : ℤ) (ok : Bool) : SyncEngine υ α :=
  match se.mutationCallbacks.find? fun c => c.1 = (se.currentUser, batchId) with
  | none => se
  | some callback => { se with
      mutationCallbacks := se.mutationCallbacks.filter fun c => c.1 ≠ (se.currentUser, batchId)
      notified := se.notified ++ [(callback.2, ok)] }

/-- Note that a batch leaves the queue. -/
def noteSettled (se : SyncEngine υ α) (batch : MutationBatch υ α) (ok : Bool) : SyncEngine υ α :=
  { se with settled := se.settled ++ [(batch, ok)] }

/-- `HandleSuccessfulWrite` with `LocalStore::AcknowledgeBatch`. -/
def handleSuccessfulWrite (se : SyncEngine υ α) (batch : MutationBatch υ α) :
    Except HardAssert (SyncEngine υ α) :=
  ((se.notifyUser batch.batchId true).noteSettled batch true).removeMutationBatch batch.batchId

/-- `HandleRejectedWrite` with `LocalStore::RejectBatch`. -/
def handleRejectedWrite (se : SyncEngine υ α) (batch : MutationBatch υ α) :
    Except HardAssert (SyncEngine υ α) := do
  let se ← (se.noteSettled batch false).removeMutationBatch batch.batchId
  return se.notifyUser batch.batchId false

/-- `LocalStore::HandleUserChange`, which starts the mutation queue of the new user. -/
def handleUserChange (se : SyncEngine υ α) (user : υ) : SyncEngine υ α :=
  { se with currentUser := user, nextBatchId := se.loadNextBatchIdFromDb }

/-- What a new process finds, in which `user` is signed in. -/
def relaunched (se : SyncEngine υ α) (user : υ) : SyncEngine υ α :=
  { se.handleUserChange user with mutationCallbacks := [] }

end SyncEngine

/-! ## Write pipeline -/

structure RemoteStore (υ α : Type*) where
  syncEngine : SyncEngine υ α
  writeStream : WriteStream υ α := {}
  isNetworkEnabled : Bool := false
  writePipeline : List (MutationBatch υ α) := []
  /-- The batches that the backend has carried out, in order. -/
  applied : List (MutationBatch υ α) := []
  /-- The batches that the backend has refused. -/
  refused : List (MutationBatch υ α) := []
deriving DecidableEq, Repr

namespace RemoteStore

variable {υ α : Type*} [DecidableEq υ]

def setStream (rs : RemoteStore υ α) (writeStream : WriteStream υ α) : RemoteStore υ α :=
  { rs with writeStream := writeStream }

def canUseNetwork (rs : RemoteStore υ α) : Bool := rs.isNetworkEnabled

def canAddToWritePipeline (rs : RemoteStore υ α) : Bool :=
  rs.canUseNetwork ∧ rs.writePipeline.length < kMaxPendingWrites

def addToWritePipeline (rs : RemoteStore υ α) (batch : MutationBatch υ α) :
    Except HardAssert (RemoteStore υ α) :=
  if rs.canAddToWritePipeline then
    let rs := { rs with writePipeline := rs.writePipeline ++ [batch] }
    if rs.writeStream.isOpen ∧ rs.writeStream.handshakeComplete then do
      let writeStream ← rs.writeStream.writeMutations batch
      return rs.setStream writeStream
    else .ok rs
  else .error .pipelineFull

def shouldStartWriteStream (rs : RemoteStore υ α) : Bool :=
  rs.canUseNetwork ∧ rs.writeStream.isStarted = false ∧ rs.writePipeline.isEmpty = false

def startWriteStream (rs : RemoteStore υ α) : Except HardAssert (RemoteStore υ α) :=
  if rs.shouldStartWriteStream then do
    let writeStream ← rs.writeStream.start
    return rs.setStream writeStream
  else .error .startNotNeeded

/-- The loop of `FillWritePipeline`. Each round but the last adds a batch, so `kMaxPendingWrites`
rounds fill the pipeline. -/
def fillLoop : ℕ → RemoteStore υ α → ℤ → Except HardAssert (RemoteStore υ α)
  | 0, rs, _ => .ok rs
  | fuel + 1, rs, lastBatchIdRetrieved =>
    if rs.canAddToWritePipeline then
      match rs.syncEngine.getNextMutationBatch lastBatchIdRetrieved with
      | none =>
        .ok (if rs.writePipeline.isEmpty then rs.setStream rs.writeStream.markIdle else rs)
      | some batch => do
        let rs ← rs.addToWritePipeline batch
        fillLoop fuel rs batch.batchId
    else .ok rs

def fillWritePipeline (rs : RemoteStore υ α) : Except HardAssert (RemoteStore υ α) := do
  let lastBatchIdRetrieved := (rs.writePipeline.getLast?.map MutationBatch.batchId).getD kBatchIdUnknown
  let rs ← fillLoop kMaxPendingWrites rs lastBatchIdRetrieved
  if rs.shouldStartWriteStream then rs.startWriteStream else return rs

/-- The pipeline is sent once the handshake is complete. -/
def onWriteStreamHandshakeComplete (rs : RemoteStore υ α) : Except HardAssert (RemoteStore υ α) := do
  let writeStream ← rs.writePipeline.foldlM WriteStream.writeMutations rs.writeStream
  return rs.setStream writeStream

/-- A result is taken to be for the first batch of the pipeline. -/
def onWriteStreamMutationResult (rs : RemoteStore υ α) : Except HardAssert (RemoteStore υ α) :=
  match rs.writePipeline with
  | [] => .error .resultForEmptyPipeline
  | batch :: rest => do
    let syncEngine ← rs.syncEngine.handleSuccessfulWrite batch
    { rs with writePipeline := rest, syncEngine := syncEngine }.fillWritePipeline

/-- All that `HandleHandshakeError` does is to reset the stream token. -/
def handleHandshakeError (rs : RemoteStore υ α) (status : Status) :
    Except HardAssert (RemoteStore υ α) :=
  if status = .ok then .error .errorWithStatusOk else .ok rs

/-- `HandleWriteError`, called when the pipeline is not empty: an error that is not permanent is left to
the retry logic. -/
def handleWriteError (rs : RemoteStore υ α) (status : Status) : Except HardAssert (RemoteStore υ α) :=
  if status = .ok then .error .errorWithStatusOk
  else
    match status.isPermanentWriteError, rs.writePipeline with
    | .error e, _ => .error e
    | .ok true, batch :: rest => do
      let writeStream ← rs.writeStream.inhibitBackoff
      let syncEngine ← rs.syncEngine.handleRejectedWrite batch
      { rs with
        writePipeline := rest, writeStream := writeStream, syncEngine := syncEngine }.fillWritePipeline
    | .ok _, _ => .ok rs

/-- The error callbacks of `OnWriteStreamClose`. -/
def handleError (rs : RemoteStore υ α) (status : Status) : Except HardAssert (RemoteStore υ α) :=
  if status ≠ .ok ∧ rs.writePipeline.isEmpty = false then
    if rs.writeStream.handshakeComplete then rs.handleWriteError status
    else rs.handleHandshakeError status
  else .ok rs

def onWriteStreamClose (rs : RemoteStore υ α) (status : Status) :
    Except HardAssert (RemoteStore υ α) :=
  if status = .ok ∧ rs.shouldStartWriteStream then .error .stoppedWhileNeeded
  else do
    let rs ← rs.handleError status
    if rs.shouldStartWriteStream then rs.startWriteStream else return rs

/-- `Stream::Close`, with `WriteStream::NotifyStreamClose`. -/
def close (rs : RemoteStore υ α) (status : Status) : Except HardAssert (RemoteStore υ α) :=
  if status = .ok ∧ rs.writeStream.isStarted = false then .ok rs
  else if rs.writeStream.isStarted = false then .error .closeWhenStopped
  else do
    let rs ← (rs.setStream (rs.writeStream.reset status)).onWriteStreamClose status
    return rs.setStream rs.writeStream.clearHandshake

/-- `Stream::Stop`. -/
def stop (rs : RemoteStore υ α) : Except HardAssert (RemoteStore υ α) := rs.close .ok

/-- `Stream::ResumeStartWithCredentials`. -/
def resumeStartWithCredentials (rs : RemoteStore υ α) (authToken : Status) :
    Except HardAssert (RemoteStore υ α) :=
  if rs.writeStream.state = .starting then
    if authToken = .ok then do
      let writeStream ← rs.writeStream.onStreamStart
      return rs.setStream writeStream
    else rs.close authToken
  else .error .notStarting

/-- The callback of `RequestCredentials`, which a stream closed in the meantime ignores. -/
def credentialsReceived (rs : RemoteStore υ α) (initialCloseCount : ℕ) (authToken : Status) :
    Except HardAssert (RemoteStore υ α) :=
  if rs.writeStream.closeCount ≠ initialCloseCount then .ok rs
  else rs.resumeStartWithCredentials authToken

/-- `Stream::OnStreamRead` with `WriteStream::NotifyStreamResponse`: the first response completes the
handshake, and any other is a result. A response that the reader cannot make sense of ends the stream with
the status of the reader. -/
def onStreamRead (rs : RemoteStore υ α) (readStatus : Status) : Except HardAssert (RemoteStore υ α) :=
  if rs.writeStream.isStarted = false then .error .readWhenStopped
  else if readStatus ≠ .ok then rs.close readStatus
  else if rs.writeStream.handshakeComplete = false then
    (rs.setStream { rs.writeStream with handshakeComplete := true }).onWriteStreamHandshakeComplete
  else rs.onWriteStreamMutationResult

def disableNetworkInternal (rs : RemoteStore υ α) : Except HardAssert (RemoteStore υ α) := do
  let rs ← rs.stop
  return { rs with writePipeline := [] }

def enableNetwork (rs : RemoteStore υ α) : Except HardAssert (RemoteStore υ α) :=
  let rs := { rs with isNetworkEnabled := true }
  if rs.canUseNetwork then rs.fillWritePipeline else .ok rs

def disableNetwork (rs : RemoteStore υ α) : Except HardAssert (RemoteStore υ α) :=
  { rs with isNetworkEnabled := false }.disableNetworkInternal

def restartNetwork (rs : RemoteStore υ α) : Except HardAssert (RemoteStore υ α) := do
  let rs ← { rs with isNetworkEnabled := false }.disableNetworkInternal
  let writeStream ← rs.writeStream.inhibitBackoff
  (rs.setStream writeStream).enableNetwork

/-- The callback of the connectivity monitor when a network is available. -/
def connectivityChanged (rs : RemoteStore υ α) : Except HardAssert (RemoteStore υ α) :=
  if rs.canUseNetwork then rs.restartNetwork else .ok rs

/-- `SyncEngine::HandleCredentialChange` with `RemoteStore::HandleCredentialChange`. -/
def handleCredentialChange (rs : RemoteStore υ α) (user : υ) : Except HardAssert (RemoteStore υ α) :=
  let rs :=
    if rs.syncEngine.currentUser ≠ user then
      { rs with syncEngine := rs.syncEngine.handleUserChange user }
    else rs
  if rs.canUseNetwork then rs.restartNetwork else .ok rs

/-- A new process takes the place of one that is gone. -/
def relaunched (rs : RemoteStore υ α) (user : υ) : RemoteStore υ α where
  syncEngine := rs.syncEngine.relaunched user
  writeStream := { abandoned := rs.writeStream.abandoned ++ rs.writeStream.leftover }
  applied := rs.applied
  refused := rs.refused

/-! ## Backend -/

def setGrpcStream (rs : RemoteStore υ α) (g : GrpcStream υ α) : RemoteStore υ α :=
  rs.setStream { rs.writeStream with grpcStream := some g }

/-- The backend answers the first request of the stream. -/
def serve (rs : RemoteStore υ α) (g : GrpcStream υ α) : RemoteStore υ α :=
  match g.requests with
  | [] => rs
  | .handshake :: rest =>
    rs.setGrpcStream { g with requests := rest, responses := g.responses ++ [.handshake] }
  | .mutations batch :: rest =>
    { rs.setGrpcStream { g with requests := rest, responses := g.responses ++ [.result batch] } with
      applied := rs.applied ++ [batch] }

/-- The backend closes the stream; a status that refuses the first write is noted. -/
def closedByBackend (rs : RemoteStore υ α) (g : GrpcStream υ α) (status : Status) : RemoteStore υ α :=
  { rs.setGrpcStream { g with closed := some status } with
    refused := if status.Refuses then rs.refused ++ g.pending.take 1 else rs.refused }

/-- The first of the writes `batch :: rest` of a stream that is gone arrives after all. -/
def serveAbandoned (rs : RemoteStore υ α) (i : ℕ) (batch : MutationBatch υ α)
    (rest : List (MutationBatch υ α)) : RemoteStore υ α :=
  { rs with
    writeStream := { rs.writeStream with abandoned := rs.writeStream.abandoned.set i rest }
    applied := rs.applied ++ [batch] }

end RemoteStore

/-! ## Events -/

inductive StoreEvent (υ α : Type*)
  | writeMutations (mutations : List α)
  | credentials (i : ℕ) (authToken : Status)
  | healthCheck
  | streamRead
  | unreadable (readStatus : Status)
  | streamFinish (status : Status)
  | idleTimeout
  | backoffElapsed
  | enableNetwork
  | disableNetwork
  | connectivityChanged
  | credentialChange (user : υ)
  | relaunch (user : υ)
  | serve
  | backendClose (status : Status)
  | serveAbandoned (i : ℕ)
  | dropAbandoned (i : ℕ)
deriving DecidableEq, Repr

namespace RemoteStore

variable {υ α : Type*} [DecidableEq υ]

/-- A status with which gRPC can end a stream although the backend has not closed it: before the handshake
any error, and afterwards none that refuses a write. -/
def Breaks (rs : RemoteStore υ α) (status : Status) : Prop :=
  status ≠ .ok ∧ (rs.writeStream.handshakeComplete = false ∨ ¬ status.Refuses)

instance (rs : RemoteStore υ α) (status : Status) : Decidable (rs.Breaks status) :=
  inferInstanceAs (Decidable (_ ∧ _))

/-- What the worker queue does for an event, if it can happen. -/
def react (rs : RemoteStore υ α) : StoreEvent υ α → Option (Except HardAssert (RemoteStore υ α))
  | .writeMutations mutations =>
    -- batch ids are signed numbers of 32 bits
    if rs.syncEngine.nextBatchId + 1 < 2 ^ 31 then
      some { rs with syncEngine := rs.syncEngine.addMutationBatch mutations }.fillWritePipeline
    else none
  | .credentials i authToken =>
    rs.writeStream.credentialRequests[i]?.map fun initialCloseCount =>
      (rs.setStream { rs.writeStream with
        credentialRequests := rs.writeStream.credentialRequests.eraseIdx i }).credentialsReceived
          initialCloseCount authToken
  | .healthCheck =>
    if rs.writeStream.healthCheckTimer then some (.ok (rs.setStream rs.writeStream.healthCheck))
    else none
  | .streamRead =>
    rs.writeStream.grpcStream.bind fun g =>
      match g.responses with
      | [] => none
      | _ :: rest => some ((rs.setGrpcStream { g with responses := rest }).onStreamRead .ok)
  | .unreadable readStatus =>
    rs.writeStream.grpcStream.bind fun g =>
      match g.responses with
      | [] => none
      | _ :: rest =>
        if readStatus.FromReader then
          some ((rs.setGrpcStream { g with responses := rest }).onStreamRead readStatus)
        else none
  | .streamFinish status =>
    rs.writeStream.grpcStream.bind fun g =>
      if g.closed = some status ∨ rs.Breaks status then some (rs.close status) else none
  | .idleTimeout => if rs.writeStream.idlenessTimer then some rs.stop else none
  | .backoffElapsed =>
    if rs.writeStream.backoffTimer then
      some (rs.writeStream.backoffElapsed.map rs.setStream)
    else none
  | .enableNetwork => some rs.enableNetwork
  | .disableNetwork => some rs.disableNetwork
  | .connectivityChanged => some rs.connectivityChanged
  | .credentialChange user => some (rs.handleCredentialChange user)
  | .relaunch user => some (rs.relaunched user).enableNetwork
  | .serve =>
    rs.writeStream.grpcStream.bind fun g =>
      if g.closed = none ∧ g.requests ≠ [] then some (.ok (rs.serve g)) else none
  | .backendClose status =>
    rs.writeStream.grpcStream.bind fun g =>
      if g.closed = none ∧ g.CanClose status then some (.ok (rs.closedByBackend g status)) else none
  | .serveAbandoned i =>
    match rs.writeStream.abandoned[i]? with
    | some (batch :: rest) => some (.ok (rs.serveAbandoned i batch rest))
    | _ => none
  | .dropAbandoned i =>
    rs.writeStream.abandoned[i]?.map fun _ => .ok (rs.setStream { rs.writeStream with
      abandoned := rs.writeStream.abandoned.eraseIdx i })

def step (rs : RemoteStore υ α) (e : StoreEvent υ α) : Option (RemoteStore υ α) :=
  (rs.react e).bind Except.toOption

/-- A phone on which nothing was ever written. -/
def installed (user : υ) : RemoteStore υ α where
  syncEngine := { currentUser := user }

end RemoteStore

end Datability
