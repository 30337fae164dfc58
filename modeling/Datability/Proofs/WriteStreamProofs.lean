import Datability.Proofs.RemoteStoreProofs
import Datability.Proofs.TransitionProofs

/-!
# Proofs: what an event does to the write stream

Between two events the stream is in one of five modes, and in each of them the pipeline is the window of
the queue (`Invariant`). `Effect` lists what an event can do in such a state, in terms of the operations
of `RemoteStoreProofs`, and `react_effect` says that nothing else happens: the only assertion that can
fail is the one about a graceful stop, when the backend closes a stream without an error although there
are writes to send.
-/

namespace Datability

open Transition

namespace WriteStream

variable {υ α : Type*} {ws : WriteStream υ α}

/-- Every outstanding request for credentials was made before the stream was last closed. -/
def Stale (ws : WriteStream υ α) : Prop := ∀ c ∈ ws.credentialRequests, c < ws.closeCount

/-- There is no gRPC stream. -/
structure Closed (ws : WriteStream υ α) : Prop where
  handshake : ws.handshakeComplete = false
  grpc : ws.grpcStream = none
  idleness : ws.idlenessTimer = false
  health : ws.healthCheckTimer = false

/-- The stream is closed and nothing is under way. -/
structure Stopped (ws : WriteStream υ α) : Prop extends ws.Closed where
  state : ws.state = .initial ∨ ws.state = .error
  backoff : ws.backoffTimer = false
  stale : ws.Stale

/-- The stream is closed and is started again after a delay. -/
structure Waiting (ws : WriteStream υ α) : Prop extends ws.Closed where
  state : ws.state = .backoff
  backoff : ws.backoffTimer = true
  stale : ws.Stale

/-- The stream waits for credentials. -/
structure Connecting (ws : WriteStream υ α) (old : List ℕ) : Prop extends ws.Closed where
  state : ws.state = .starting
  backoff : ws.backoffTimer = false
  requests : ws.credentialRequests = old ++ [ws.closeCount]
  stale : ∀ c ∈ old, c < ws.closeCount

/-- The stream is open. -/
structure Connected (ws : WriteStream υ α) (g : GrpcStream υ α) : Prop where
  isOpen : ws.isOpen = true
  grpc : ws.grpcStream = some g
  backoff : ws.backoffTimer = false
  stale : ws.Stale

theorem Stopped.isStarted (h : ws.Stopped) : ws.isStarted = false := isStarted_eq_false.2 h.state

theorem Waiting.isStarted (h : ws.Waiting) : ws.isStarted = true := by
  simp [WriteStream.isStarted, h.state]

theorem Connecting.isStarted {old : List ℕ} (h : ws.Connecting old) : ws.isStarted = true := by
  simp [WriteStream.isStarted, h.state]

theorem Connected.isStarted {g : GrpcStream υ α} (h : ws.Connected g) : ws.isStarted = true := by
  simp [WriteStream.isStarted, h.isOpen]

theorem Waiting.backoffElapsed_eq (h : ws.Waiting) :
    ws.backoffElapsed = .ok (restarted { ws with backoffTimer := false, state := .initial }) := by
  have hstart : WriteStream.start { ws with backoffTimer := false, state := .initial } =
      .ok (restarted { ws with backoffTimer := false, state := .initial }) :=
    start_eq (isStarted_eq_false.2 (.inl rfl))
  have hstarted : WriteStream.isStarted
      (restarted { ws with backoffTimer := false, state := .initial }) = true := by
    simp [restarted, requestCredentials, WriteStream.isStarted]
  rw [backoffElapsed, if_pos h.state, hstart]
  exact if_pos (e := Except.error HardAssert.notRestarted) hstarted

theorem Closed.not_ready (h : ws.Closed) : ¬ ws.isReady = true := by
  simp [isReady, h.handshake]

theorem markIdle_of_open (h : ws.isOpen = true) : ws.markIdle = { ws with idlenessTimer := true } := by
  rw [markIdle]
  split
  · rfl
  · next hi =>
    have hi' : ws.idlenessTimer = true := by simpa [h] using hi
    rw [← hi']

/-- However a stream ends, nothing of it is left. -/
theorem stopped_halted (hstale : ∀ c ∈ ws.credentialRequests, c ≤ ws.closeCount) (status : Status) :
    (ws.halted status).Stopped := by
  refine ⟨⟨rfl, rfl, rfl, rfl⟩, ?_, rfl, fun c hc => Nat.lt_succ_of_le (hstale c hc)⟩
  by_cases h : status = .ok <;> simp [halted, reset, clearHandshake, h]

/-- The stream is open, and the handshake is sent. -/
def greets (ws : WriteStream υ α) : WriteStream υ α :=
  { ws with
    grpcStream := some { requests := [.handshake] }
    state := .opened
    idlenessTimer := false
    healthCheckTimer := true }

theorem onStreamStart_eq (h : ws.handshakeComplete = false) : ws.onStreamStart = .ok ws.greets := by
  have hopen : isOpen { ws with grpcStream := some {}, state := .opened } = true := by simp [isOpen]
  rw [onStreamStart, writeHandshake, if_neg (by simp [hopen]), if_neg (by simp [h]), write, if_pos hopen]
  rfl

end WriteStream

namespace GrpcStream

variable {υ α : Type*}

/-- The handshake is on its way, in one direction or the other. -/
def Greeting (g : GrpcStream υ α) : Prop :=
  g.requests = [.handshake] ∧ g.responses = [] ∨
    g.requests = [] ∧ g.responses = [.handshake] ∧ ∀ status, g.closed = some status → ¬ status.Refuses

/-- The writes `done` are answered and the writes `rest` are not; a stream closed with a refusal was
closed over the first of the rest. -/
structure Sending (g : GrpcStream υ α) (refused done rest : List (MutationBatch υ α)) : Prop where
  responses : g.responses = done.map .result
  requests : g.requests = rest.map .mutations
  closed : ∀ status, g.closed = some status → status.Refuses → ∃ b ∈ rest.head?, b ∈ refused

end GrpcStream

namespace RemoteStore

variable {υ α : Type*} [DecidableEq υ] {rs rs' : RemoteStore υ α} {e : StoreEvent υ α}

/-- The modes of the stream between two events. -/
inductive Mode (rs : RemoteStore υ α) : Prop
  | stopped (hws : rs.writeStream.Stopped) (hp : rs.writePipeline = [])
  | waiting (hws : rs.writeStream.Waiting) (hnet : rs.isNetworkEnabled = true)
      (hp : rs.writePipeline ≠ [])
  | connecting (old : List ℕ) (hws : rs.writeStream.Connecting old)
      (hnet : rs.isNetworkEnabled = true) (hp : rs.writePipeline ≠ [])
  | greeting (g : GrpcStream υ α) (hws : rs.writeStream.Connected g)
      (hshake : rs.writeStream.handshakeComplete = false)
      (hidle : rs.writeStream.idlenessTimer = false) (hg : g.Greeting)
      (hnet : rs.isNetworkEnabled = true) (hp : rs.writePipeline ≠ [])
  | sending (g : GrpcStream υ α) (done rest : List (MutationBatch υ α))
      (hws : rs.writeStream.Connected g) (hshake : rs.writeStream.handshakeComplete = true)
      (hidle : rs.writeStream.idlenessTimer = true → rs.writePipeline = [])
      (hg : g.Sending rs.refused done rest) (hnet : rs.isNetworkEnabled = true)
      (hp : rs.writePipeline = done ++ rest)

structure Invariant (rs : RemoteStore υ α) : Prop where
  consistent : rs.syncEngine.Consistent
  pipeline : rs.writePipeline = if rs.isNetworkEnabled then rs.window else []
  mode : Mode rs

theorem Invariant.pipeline_eq (h : Invariant rs) (hnet : rs.isNetworkEnabled = true) :
    rs.writePipeline = rs.window := by
  rw [h.pipeline, if_pos hnet]

/-- The pipeline is a part of the window, whether the network is enabled or not. -/
theorem Invariant.window_eq (h : Invariant rs) : ∃ bs, rs.window = rs.writePipeline ++ bs := by
  rw [h.pipeline]
  split
  · exact ⟨[], by simp⟩
  · exact ⟨rs.window, rfl⟩

omit [DecidableEq υ] in
/-- No outstanding request for credentials has a close count that is still to come. -/
theorem Mode.requests_le (h : Mode rs) :
    ∀ c ∈ rs.writeStream.credentialRequests, c ≤ rs.writeStream.closeCount := by
  intro c hc
  cases h with
  | stopped hws => exact (hws.stale c hc).le
  | waiting hws => exact (hws.stale c hc).le
  | connecting old hws =>
    rw [hws.requests] at hc
    rcases List.mem_append.1 hc with hc | hc
    · exact (hws.stale c hc).le
    · exact (List.mem_singleton.1 hc).le
  | greeting g hws => exact (hws.stale c hc).le
  | sending g done rest hws => exact (hws.stale c hc).le

/-! ## Filling the pipeline keeps the mode -/

theorem mode_refilled_of_stopped (hws : rs.writeStream.Stopped) (hnet : rs.isNetworkEnabled = true) :
    Mode rs.refilled := by
  have hstream : rs.refilled.writeStream =
      if rs.window = [] then rs.writeStream else rs.writeStream.restarted := by
    rw [refilled, if_neg (by simp [hws.isStarted])]
  by_cases hw : rs.window = []
  · rw [if_pos hw] at hstream
    refine .stopped ?_ hw
    rwa [hstream]
  · rw [if_neg hw, WriteStream.restarted] at hstream
    by_cases herr : rs.writeStream.state = .error
    · rw [if_pos herr] at hstream
      refine .waiting ?_ hnet hw
      rw [hstream]
      exact ⟨⟨hws.handshake, hws.grpc, hws.idleness, hws.health⟩, rfl, rfl, hws.stale⟩
    · rw [if_neg herr] at hstream
      refine .connecting rs.writeStream.credentialRequests ?_ hnet hw
      rw [hstream]
      exact ⟨⟨hws.handshake, hws.grpc, hws.idleness, hws.health⟩, rfl, hws.backoff, rfl, hws.stale⟩

/-- A stream that is started but does not take writes yet is left alone. -/
theorem refilled_of_not_ready (hstarted : rs.writeStream.isStarted = true)
    (hready : ¬ rs.writeStream.isReady = true) (hw : rs.window ≠ []) :
    rs.refilled = { rs with writePipeline := rs.window } := by
  rw [refilled, if_pos hstarted, if_neg hw, WriteStream.sent_of_not_ready hready]

theorem mode_refilled_of_sending {g : GrpcStream υ α} {done rest bs : List (MutationBatch υ α)}
    (hws : rs.writeStream.Connected g) (hshake : rs.writeStream.handshakeComplete = true)
    (hidle : rs.writeStream.idlenessTimer = true → rs.writePipeline = [])
    (hg : g.Sending rs.refused done rest) (hnet : rs.isNetworkEnabled = true)
    (hp : rs.writePipeline = done ++ rest) (hwindow : rs.window = rs.writePipeline ++ bs) :
    Mode rs.refilled := by
  have hready : rs.writeStream.isReady = true := WriteStream.isReady_iff.2 ⟨hws.isOpen, hshake⟩
  have hstream : rs.refilled.writeStream =
      if rs.window = [] then rs.writeStream.markIdle else rs.writeStream.sent bs := by
    rw [refilled, if_pos hws.isStarted, hwindow, List.drop_left]
  by_cases hw : rs.window = []
  · rw [if_pos hw] at hstream
    have hpnil : done ++ rest = [] := by
      rw [← hp]
      exact (List.append_eq_nil_iff.1 (hwindow.symm.trans hw)).1
    have hrefilled : rs.refilled.writePipeline = done ++ rest := by rw [hpnil]; exact hw
    rw [WriteStream.markIdle_of_open hws.isOpen] at hstream
    refine .sending g done rest ?_ ?_ (fun _ => hw) hg hnet hrefilled
    · rw [hstream]
      exact ⟨hws.isOpen, hws.grpc, hws.backoff, hws.stale⟩
    · rw [hstream]
      exact hshake
  · rw [if_neg hw] at hstream
    by_cases hbs : bs = []
    · rw [hbs, WriteStream.sent_nil] at hstream
      rw [hbs, List.append_nil] at hwindow
      have hrefilled : rs.refilled.writePipeline = done ++ rest := hwindow.trans hp
      refine .sending g done rest ?_ ?_ ?_ hg hnet hrefilled
      · rw [hstream]
        exact hws
      · rw [hstream]
        exact hshake
      · rw [hstream]
        exact fun h => hwindow.trans (hidle h)
    · rw [WriteStream.sent, if_pos ⟨hready, hbs⟩, hws.grpc] at hstream
      have hrefilled : rs.refilled.writePipeline = done ++ (rest ++ bs) := by
        rw [← List.append_assoc, ← hp]
        exact hwindow
      refine .sending { g with requests := g.requests ++ bs.map .mutations } done (rest ++ bs) ?_ ?_ ?_
        ⟨hg.responses, by rw [hg.requests, List.map_append], ?_⟩ hnet hrefilled
      · rw [hstream]
        exact ⟨hws.isOpen, rfl, hws.backoff, hws.stale⟩
      · rw [hstream]
        exact hshake
      · rw [hstream]
        simp
      · intro status hclosed hrefuses
        obtain ⟨b, hb, hmem⟩ := hg.closed status hclosed hrefuses
        cases rest with
        | nil => simp at hb
        | cons c rest => exact ⟨b, hb, hmem⟩

/-! ## Events -/

/-- Put a batch into the queue. -/
def added (rs : RemoteStore υ α) (mutations : List α) : RemoteStore υ α :=
  { rs with syncEngine := rs.syncEngine.addMutationBatch mutations }

/-- Put a batch into the queue, and into the pipeline if there is room. -/
def written (rs : RemoteStore υ α) (mutations : List α) : RemoteStore υ α :=
  if rs.isNetworkEnabled then (rs.added mutations).refilled else rs.added mutations

/-- Forget a request for credentials. -/
def dropRequest (rs : RemoteStore υ α) (i : ℕ) : RemoteStore υ α :=
  rs.setStream { rs.writeStream with
    credentialRequests := rs.writeStream.credentialRequests.eraseIdx i }

/-- The handshake is complete, and the pipeline is sent. -/
def greeted (rs : RemoteStore υ α) (g : GrpcStream υ α) : RemoteStore υ α :=
  rs.setStream (WriteStream.sent { rs.writeStream with
    grpcStream := some g, handshakeComplete := true } rs.writePipeline)

/-- The batch `b` is acknowledged, and `g` and `p` are left. -/
def acknowledged (rs : RemoteStore υ α) (g : GrpcStream υ α) (b : MutationBatch υ α)
    (p : List (MutationBatch υ α)) : RemoteStore υ α :=
  { rs.setGrpcStream g with
    writePipeline := p
    syncEngine := rs.syncEngine.dequeued b true }

/-- The user changes. -/
def switched (rs : RemoteStore υ α) (user : υ) : RemoteStore υ α :=
  if rs.syncEngine.currentUser ≠ user then
    { rs with syncEngine := rs.syncEngine.handleUserChange user }
  else rs

/-- What an event can do. -/
inductive Effect (rs : RemoteStore υ α) : StoreEvent υ α → RemoteStore υ α → Prop
  | write (mutations : List α) : Effect rs (.writeMutations mutations) (rs.written mutations)
  | staleCredentials {i c : ℕ} {status : Status} (hi : rs.writeStream.credentialRequests[i]? = some c)
      (hc : c ≠ rs.writeStream.closeCount) : Effect rs (.credentials i status) (rs.dropRequest i)
  | opened {i : ℕ} (hi : rs.writeStream.credentialRequests[i]? = some rs.writeStream.closeCount) :
      Effect rs (.credentials i .ok) ((rs.dropRequest i).setStream (rs.dropRequest i).writeStream.greets)
  | unauthorized {i : ℕ} {status : Status}
      (hi : rs.writeStream.credentialRequests[i]? = some rs.writeStream.closeCount)
      (hstatus : status ≠ .ok) : Effect rs (.credentials i status) ((rs.dropRequest i).failed status)
  | healthCheck : Effect rs .healthCheck (rs.setStream rs.writeStream.healthCheck)
  | greeted {g : GrpcStream υ α} {r : WriteResponse υ α} {responses : List (WriteResponse υ α)}
      (hg : rs.writeStream.grpcStream = some g) (hr : g.responses = r :: responses)
      (hshake : rs.writeStream.handshakeComplete = false) :
      Effect rs .streamRead (rs.greeted { g with responses := responses })
  | acknowledged {g : GrpcStream υ α} {r : WriteResponse υ α} {responses : List (WriteResponse υ α)}
      {b : MutationBatch υ α} {p : List (MutationBatch υ α)}
      (hg : rs.writeStream.grpcStream = some g) (hr : g.responses = r :: responses)
      (hshake : rs.writeStream.handshakeComplete = true) (hp : rs.writePipeline = b :: p) :
      Effect rs .streamRead (rs.acknowledged { g with responses := responses } b p).refilled
  | unreadable {g : GrpcStream υ α} {r : WriteResponse υ α} {responses : List (WriteResponse υ α)}
      {status : Status} (hg : rs.writeStream.grpcStream = some g) (hr : g.responses = r :: responses)
      (hstatus : status ≠ .ok)
      (h : rs.writePipeline = [] ∨ rs.writeStream.handshakeComplete = false ∨ ¬ status.Refuses) :
      Effect rs (.unreadable status) (rs.failed status)
  | misread {g : GrpcStream υ α} {r : WriteResponse υ α} {responses : List (WriteResponse υ α)}
      {status : Status} {b : MutationBatch υ α} {p : List (MutationBatch υ α)}
      (hg : rs.writeStream.grpcStream = some g) (hr : g.responses = r :: responses) (hstatus : status.Refuses)
      (hshake : rs.writeStream.handshakeComplete = true) (hp : rs.writePipeline = b :: p) :
      Effect rs (.unreadable status) (rs.rejected status b p).refilled
  | finished (hp : rs.writePipeline = []) :
      Effect rs (.streamFinish .ok) (rs.setStream (rs.writeStream.halted .ok))
  | failed {g : GrpcStream υ α} {status : Status} (hg : rs.writeStream.grpcStream = some g)
      (hstatus : status ≠ .ok)
      (h : rs.writePipeline = [] ∨ rs.writeStream.handshakeComplete = false ∨ ¬ status.Refuses) :
      Effect rs (.streamFinish status) (rs.failed status)
  | refused {g : GrpcStream υ α} {status : Status} {b : MutationBatch υ α}
      {p : List (MutationBatch υ α)} (hg : rs.writeStream.grpcStream = some g)
      (hclosed : g.closed = some status) (hstatus : status.Refuses)
      (hshake : rs.writeStream.handshakeComplete = true) (hp : rs.writePipeline = b :: p) :
      Effect rs (.streamFinish status) (rs.rejected status b p).refilled
  | idleTimeout (hp : rs.writePipeline = []) :
      Effect rs .idleTimeout (rs.setStream (rs.writeStream.halted .ok))
  | backoffElapsed (hws : rs.writeStream.Waiting) :
      Effect rs .backoffElapsed (rs.setStream
        (WriteStream.restarted { rs.writeStream with backoffTimer := false, state := .initial }))
  | enableNetwork : Effect rs .enableNetwork { rs with isNetworkEnabled := true }.refilled
  | disableNetwork : Effect rs .disableNetwork rs.silenced
  | reconnected (hnet : rs.isNetworkEnabled = true) :
      Effect rs .connectivityChanged rs.rewound.refilled
  | connectivityIgnored (hnet : rs.isNetworkEnabled = false) : Effect rs .connectivityChanged rs
  | credentialChange {user : υ} (hnet : rs.isNetworkEnabled = true) :
      Effect rs (.credentialChange user) (rs.switched user).rewound.refilled
  | credentialChangeOffline {user : υ} (hnet : rs.isNetworkEnabled = false) :
      Effect rs (.credentialChange user) (rs.switched user)
  | relaunch {user : υ} :
      Effect rs (.relaunch user) { rs.relaunched user with isNetworkEnabled := true }.refilled
  | servedHandshake {g : GrpcStream υ α} {requests : List (WriteRequest υ α)}
      (hg : rs.writeStream.grpcStream = some g) (hclosed : g.closed = none)
      (hr : g.requests = .handshake :: requests) :
      Effect rs .serve (rs.setGrpcStream
        { g with requests := requests, responses := g.responses ++ [.handshake] })
  | servedWrite {g : GrpcStream υ α} {b : MutationBatch υ α} {requests : List (WriteRequest υ α)}
      (hg : rs.writeStream.grpcStream = some g) (hclosed : g.closed = none)
      (hr : g.requests = .mutations b :: requests) :
      Effect rs .serve { rs.setGrpcStream
        { g with requests := requests, responses := g.responses ++ [.result b] } with
        applied := rs.applied ++ [b] }
  | closedByBackend {g : GrpcStream υ α} {status : Status} (hg : rs.writeStream.grpcStream = some g)
      (hclosed : g.closed = none) (hclose : g.CanClose status) :
      Effect rs (.backendClose status) (rs.closedByBackend g status)
  | servedAbandoned {i : ℕ} {b : MutationBatch υ α} {rest : List (MutationBatch υ α)}
      (hi : rs.writeStream.abandoned[i]? = some (b :: rest)) :
      Effect rs (.serveAbandoned i) (rs.serveAbandoned i b rest)
  | droppedAbandoned {i : ℕ} : Effect rs (.dropAbandoned i) (rs.setStream { rs.writeStream with
      abandoned := rs.writeStream.abandoned.eraseIdx i })

/-- The reaction to an event is an effect, or the one assertion that can fail. -/
def Reacts (rs : RemoteStore υ α) (e : StoreEvent υ α) (r : Except HardAssert (RemoteStore υ α)) : Prop :=
  (e = .streamFinish .ok ∧ rs.writePipeline ≠ [] ∧ r = .error .stoppedWhileNeeded) ∨
    ¬ (e = .streamFinish .ok ∧ rs.writePipeline ≠ []) ∧ ∃ rs', r = .ok rs' ∧ Effect rs e rs'

theorem Reacts.of_effect (he : e ≠ .streamFinish .ok) (h : Effect rs e rs') : Reacts rs e (.ok rs') :=
  .inr ⟨fun hbad => he hbad.1, rs', rfl, h⟩

theorem queue_added (rs : RemoteStore υ α) (mutations : List α) :
    (rs.added mutations).syncEngine.queue =
      rs.syncEngine.queue ++ [rs.syncEngine.nextBatch mutations] := by
  have := SyncEngine.queueOf_addMutationBatch rs.syncEngine mutations rs.syncEngine.currentUser
  rwa [if_pos rfl] at this

theorem Invariant.window_added (h : Invariant rs) (hnet : rs.isNetworkEnabled = true)
    (mutations : List α) :
    (rs.added mutations).window = (rs.added mutations).writePipeline ++
      [rs.syncEngine.nextBatch mutations].take (kMaxPendingWrites - rs.syncEngine.queue.length) := by
  have hp : (rs.added mutations).writePipeline = rs.window := h.pipeline_eq hnet
  rw [hp, window, queue_added, List.take_append, window]

theorem fillWritePipeline_added (h : Invariant rs) (mutations : List α) :
    (rs.added mutations).fillWritePipeline = .ok (rs.written mutations) := by
  rw [written]
  by_cases hnet : rs.isNetworkEnabled = true
  · rw [if_pos hnet]
    exact fillWritePipeline_eq (h.consistent.addMutationBatch mutations) hnet
      (h.window_added hnet mutations)
  · rw [if_neg hnet]
    exact fillWritePipeline_offline (by simpa [added] using hnet)

/-- A request with the current close count is the one that the stream waits for. -/
theorem Invariant.connecting (h : Invariant rs) {i : ℕ}
    (hi : rs.writeStream.credentialRequests[i]? = some rs.writeStream.closeCount) :
    ∃ old, rs.writeStream.Connecting old ∧ rs.isNetworkEnabled = true ∧ rs.writePipeline ≠ [] ∧
      rs.writeStream.credentialRequests.eraseIdx i = old := by
  have hmem := List.mem_of_getElem? hi
  cases h.mode with
  | stopped hws => exact absurd (hws.stale _ hmem) (lt_irrefl _)
  | waiting hws => exact absurd (hws.stale _ hmem) (lt_irrefl _)
  | connecting old hws hnet hp =>
    refine ⟨old, hws, hnet, hp, ?_⟩
    have hlen : i = old.length := by
      rcases lt_trichotomy i old.length with hlt | heq | hgt
      · rw [hws.requests, List.getElem?_append_left hlt] at hi
        exact absurd (hws.stale _ (List.mem_of_getElem? hi)) (lt_irrefl _)
      · exact heq
      · rw [hws.requests, List.getElem?_eq_none (by simp; omega)] at hi
        simp at hi
    rw [hws.requests, hlen, List.eraseIdx_append_of_length_le le_rfl]
    simp
  | greeting g hws => exact absurd (hws.stale _ hmem) (lt_irrefl _)
  | sending g done rest hws => exact absurd (hws.stale _ hmem) (lt_irrefl _)

theorem reacts_credentials (h : Invariant rs) {i c : ℕ} {status : Status}
    (hi : rs.writeStream.credentialRequests[i]? = some c) :
    Reacts rs (.credentials i status) ((rs.dropRequest i).credentialsReceived c status) := by
  by_cases hc : rs.writeStream.closeCount = c
  · subst hc
    obtain ⟨old, hws, hnet, hp, -⟩ := h.connecting hi
    have hstate : (rs.dropRequest i).writeStream.state = .starting := hws.state
    have hshake : (rs.dropRequest i).writeStream.handshakeComplete = false := hws.handshake
    rw [credentialsReceived, if_neg (by simp [dropRequest]), resumeStartWithCredentials, if_pos hstate]
    by_cases hok : status = .ok
    · subst hok
      rw [if_pos rfl, WriteStream.onStreamStart_eq hshake]
      exact .of_effect (by simp) (.opened hi)
    · have hstarted : (rs.dropRequest i).writeStream.isStarted = true := by
        simp [WriteStream.isStarted, hstate]
      rw [if_neg hok, close_failed hstarted hnet hok (.inr (.inl hshake))]
      exact .of_effect (by simp) (.unauthorized hi hok)
  · rw [credentialsReceived, if_pos (by simpa [dropRequest] using hc)]
    exact .of_effect (by simp) (.staleCredentials hi (Ne.symm hc))

omit [DecidableEq υ] in
/-- An open stream is greeting or sending. -/
theorem Mode.of_grpc (h : Mode rs) {g : GrpcStream υ α} (hg : rs.writeStream.grpcStream = some g) :
    rs.writeStream.Connected g ∧ rs.isNetworkEnabled = true ∧
      (rs.writeStream.handshakeComplete = false ∧ g.Greeting ∧ rs.writePipeline ≠ [] ∨
        rs.writeStream.handshakeComplete = true ∧
          ∃ done rest, g.Sending rs.refused done rest ∧ rs.writePipeline = done ++ rest) := by
  cases h with
  | stopped hws => simp [hws.grpc] at hg
  | waiting hws => simp [hws.grpc] at hg
  | connecting old hws => simp [hws.grpc] at hg
  | greeting g' hws hshake hidle hgreet hnet hp =>
    obtain rfl : g' = g := by simpa [hws.grpc] using hg
    exact ⟨hws, hnet, .inl ⟨hshake, hgreet, hp⟩⟩
  | sending g' done rest hws hshake hidle hsend hnet hp =>
    obtain rfl : g' = g := by simpa [hws.grpc] using hg
    exact ⟨hws, hnet, .inr ⟨hshake, done, rest, hsend, hp⟩⟩

/-- A stream ends in the same way whatever is left to be read of it. -/
theorem close_read {g : GrpcStream υ α} (hg : rs.writeStream.grpcStream = some g)
    (hstarted : rs.writeStream.isStarted = true) (responses : List (WriteResponse υ α)) (status : Status) :
    (rs.setGrpcStream { g with responses := responses }).close status = rs.close status := by
  have hreset : (rs.setGrpcStream { g with responses := responses }).writeStream.reset status =
      rs.writeStream.reset status := by
    simp [setGrpcStream, WriteStream.reset, WriteStream.leftover, GrpcStream.pending, hg]
  have hstarted' : (rs.setGrpcStream { g with responses := responses }).writeStream.isStarted = true := hstarted
  rw [close_of_started hstarted, close_of_started hstarted', hreset]
  rfl

/-- A stream that ends with an error is started again after a delay, unless the error refuses a write: then the
first batch of the pipeline is rejected. -/
theorem close_cases (h : Invariant rs) {g : GrpcStream υ α} {status : Status}
    (hg : rs.writeStream.grpcStream = some g) (hok : status ≠ .ok) :
    (rs.writePipeline = [] ∨ rs.writeStream.handshakeComplete = false ∨ ¬ status.Refuses) ∧
        rs.close status = .ok (rs.failed status) ∨
      ∃ b p, status.Refuses ∧ rs.writeStream.handshakeComplete = true ∧ rs.writePipeline = b :: p ∧
        rs.close status = .ok (rs.rejected status b p).refilled := by
  obtain ⟨hws, hnet, -⟩ := h.mode.of_grpc hg
  by_cases hsafe : rs.writePipeline = [] ∨ rs.writeStream.handshakeComplete = false ∨ ¬ status.Refuses
  · exact .inl ⟨hsafe, close_failed hws.isStarted hnet hok hsafe⟩
  · push Not at hsafe
    obtain ⟨hp, hshake, hrefuses⟩ := hsafe
    have hshake' : rs.writeStream.handshakeComplete = true := by simpa using hshake
    obtain ⟨b, p, hbp⟩ := List.exists_cons_of_ne_nil hp
    exact .inr ⟨b, p, hrefuses, hshake', hbp,
      close_refused h.consistent hws.isStarted hnet hshake' hrefuses hbp (h.pipeline_eq hnet)⟩

theorem reacts_unreadable (h : Invariant rs) {g : GrpcStream υ α} {r : WriteResponse υ α}
    {responses : List (WriteResponse υ α)} {status : Status} (hg : rs.writeStream.grpcStream = some g)
    (hr : g.responses = r :: responses) (hstatus : status.FromReader) :
    Reacts rs (.unreadable status)
      ((rs.setGrpcStream { g with responses := responses }).onStreamRead status) := by
  have hstarted := (h.mode.of_grpc hg).1.isStarted
  have hstarted' : (rs.setGrpcStream { g with responses := responses }).writeStream.isStarted = true := hstarted
  have hok : status ≠ .ok := by
    rintro rfl
    rcases hstatus with hstatus | hstatus <;> cases hstatus
  rw [onStreamRead, if_neg (by simp [hstarted']), if_pos hok, close_read hg hstarted]
  rcases close_cases h hg hok with ⟨hsafe, hclose⟩ | ⟨b, p, hrefuses, hshake, hp, hclose⟩
  · rw [hclose]
    exact .of_effect (by simp) (.unreadable hg hr hok hsafe)
  · rw [hclose]
    exact .of_effect (by simp) (.misread hg hr hrefuses hshake hp)

theorem reacts_streamRead (h : Invariant rs) {g : GrpcStream υ α} {r : WriteResponse υ α}
    {responses : List (WriteResponse υ α)} (hg : rs.writeStream.grpcStream = some g)
    (hr : g.responses = r :: responses) :
    Reacts rs .streamRead ((rs.setGrpcStream { g with responses := responses }).onStreamRead .ok) := by
  obtain ⟨hws, hnet, hmode⟩ := h.mode.of_grpc hg
  have hstarted : (rs.setGrpcStream { g with responses := responses }).writeStream.isStarted = true :=
    hws.isStarted
  rw [onStreamRead, if_neg (by simp [hstarted]), if_neg (by simp)]
  rcases hmode with ⟨hshake, -, -⟩ | ⟨hshake, done, rest, hsend, hp⟩
  · have hshake' : (rs.setGrpcStream { g with responses := responses }).writeStream.handshakeComplete =
        false := hshake
    have hready : WriteStream.isReady { rs.writeStream with
        grpcStream := some { g with responses := responses }, handshakeComplete := true } = true :=
      WriteStream.isReady_iff.2 ⟨hws.isOpen, rfl⟩
    rw [if_pos hshake', onWriteStreamHandshakeComplete]
    change Reacts rs .streamRead (do
      let writeStream ← List.foldlM WriteStream.writeMutations { rs.writeStream with
        grpcStream := some { g with responses := responses }, handshakeComplete := true } rs.writePipeline
      return RemoteStore.setStream _ writeStream)
    rw [WriteStream.foldlM_writeMutations hready]
    exact .of_effect (by simp) (.greeted hg hr hshake)
  · have hshake' : ¬ (rs.setGrpcStream { g with responses := responses }).writeStream.handshakeComplete =
        false := by
      change ¬ rs.writeStream.handshakeComplete = false
      simp [hshake]
    -- there is a response to read, so the first batch of the pipeline is answered
    obtain ⟨b, p, hbp⟩ : ∃ b p, rs.writePipeline = b :: p := by
      cases done with
      | nil => simp [hsend.responses] at hr
      | cons b done => exact ⟨b, done ++ rest, hp⟩
    have hbp' : (rs.setGrpcStream { g with responses := responses }).writePipeline = b :: p := hbp
    obtain ⟨q, bs, hq, hq', hbs⟩ :=
      window_dequeued h.consistent ((h.pipeline_eq hnet).symm.trans hbp) true
    have hb : b ∈ rs.syncEngine.queue := by simp [hq]
    rw [if_neg hshake', onWriteStreamMutationResult, hbp']
    change Reacts rs .streamRead (do
      let syncEngine ← rs.syncEngine.handleSuccessfulWrite b
      RemoteStore.fillWritePipeline _)
    rw [SyncEngine.handleSuccessfulWrite_eq hb]
    have hwindow : (rs.acknowledged { g with responses := responses } b p).window =
        (rs.acknowledged { g with responses := responses } b p).writePipeline ++ bs := by
      rw [window, acknowledged, hq', hbs]
    have hconsistent : (rs.acknowledged { g with responses := responses } b p).syncEngine.Consistent :=
      h.consistent.dequeued hq true
    change Reacts rs .streamRead (rs.acknowledged { g with responses := responses } b p).fillWritePipeline
    rw [fillWritePipeline_eq hconsistent hnet hwindow]
    exact .of_effect (by simp) (.acknowledged hg hr hshake hbp)

theorem reacts_streamFinish (h : Invariant rs) {g : GrpcStream υ α} {status : Status}
    (hg : rs.writeStream.grpcStream = some g) (hst : g.closed = some status ∨ rs.Breaks status) :
    Reacts rs (.streamFinish status) (rs.close status) := by
  obtain ⟨hws, hnet, -⟩ := h.mode.of_grpc hg
  by_cases hok : status = .ok
  · subst hok
    by_cases hp : rs.writePipeline = []
    · rw [close_graceful hws.isStarted (.inr hp)]
      exact .inr ⟨fun hbad => hbad.2 hp, _, rfl, .finished hp⟩
    · rw [close_needed hws.isStarted hnet hp]
      exact .inl ⟨rfl, hp, rfl⟩
  · have hne : (StoreEvent.streamFinish status : StoreEvent υ α) ≠ .streamFinish .ok := by simpa using hok
    rcases close_cases h hg hok with ⟨hsafe, hclose⟩ | ⟨b, p, hrefuses, hshake, hp, hclose⟩
    · rw [hclose]
      exact .of_effect hne (.failed hg hok hsafe)
    · have hclosed : g.closed = some status := by
        rcases hst with hst | ⟨-, hst | hst⟩
        · exact hst
        · simp [hshake] at hst
        · exact absurd hrefuses hst
      rw [hclose]
      exact .of_effect hne (.refused hg hclosed hrefuses hshake hp)

theorem handleCredentialChange_eq (h : Invariant rs) (user : υ) :
    rs.handleCredentialChange user =
      .ok (if rs.isNetworkEnabled then (rs.switched user).rewound.refilled else rs.switched user) := by
  have hnet : (rs.switched user).isNetworkEnabled = rs.isNetworkEnabled := by
    rw [switched]
    split <;> rfl
  have hconsistent : (rs.switched user).syncEngine.Consistent := by
    rw [switched]
    split
    · exact h.consistent.handleUserChange user
    · exact h.consistent
  change (if (rs.switched user).canUseNetwork = true then (rs.switched user).restartNetwork
    else .ok (rs.switched user)) = _
  rw [canUseNetwork, hnet]
  cases rs.isNetworkEnabled with
  | true => exact restartNetwork_eq hconsistent
  | false => rfl

/-- What happens for an event between two events. -/
theorem react_effect (h : Invariant rs) {r : Except HardAssert (RemoteStore υ α)}
    (hr : rs.react e = some r) : Reacts rs e r := by
  cases e with
  | writeMutations mutations =>
    simp only [react] at hr
    split at hr
    · obtain rfl := Option.some.inj hr
      change Reacts rs _ (rs.added mutations).fillWritePipeline
      rw [fillWritePipeline_added h]
      exact .of_effect (by simp) (.write mutations)
    · simp at hr
  | credentials i status =>
    simp only [react, Option.map_eq_some_iff] at hr
    obtain ⟨c, hi, rfl⟩ := hr
    exact reacts_credentials h hi
  | healthCheck =>
    simp only [react] at hr
    split at hr
    · obtain rfl := Option.some.inj hr
      exact .of_effect (by simp) .healthCheck
    · simp at hr
  | streamRead =>
    simp only [react, Option.bind_eq_some_iff] at hr
    obtain ⟨g, hg, hr⟩ := hr
    split at hr
    · simp at hr
    · next hresponses =>
      obtain rfl := Option.some.inj hr
      exact reacts_streamRead h hg hresponses
  | unreadable status =>
    simp only [react, Option.bind_eq_some_iff] at hr
    obtain ⟨g, hg, hr⟩ := hr
    split at hr
    · simp at hr
    · next hresponses =>
      split at hr
      · next hstatus =>
        obtain rfl := Option.some.inj hr
        exact reacts_unreadable h hg hresponses hstatus
      · simp at hr
  | streamFinish status =>
    simp only [react, Option.bind_eq_some_iff] at hr
    obtain ⟨g, hg, hr⟩ := hr
    split at hr
    · next hst =>
      obtain rfl := Option.some.inj hr
      exact reacts_streamFinish h hg hst
    · simp at hr
  | idleTimeout =>
    simp only [react] at hr
    split at hr
    · next hidle =>
      obtain rfl := Option.some.inj hr
      obtain ⟨hstarted, hp⟩ : rs.writeStream.isStarted = true ∧ rs.writePipeline = [] := by
        cases h.mode with
        | stopped hws => simp [hws.idleness] at hidle
        | waiting hws => simp [hws.idleness] at hidle
        | connecting old hws => simp [hws.idleness] at hidle
        | greeting g hws hshake hidle' => simp [hidle'] at hidle
        | sending g done rest hws hshake hidle' => exact ⟨hws.isStarted, hidle' hidle⟩
      rw [stop, close_graceful hstarted (.inr hp)]
      exact .of_effect (by simp) (.idleTimeout hp)
    · simp at hr
  | backoffElapsed =>
    simp only [react] at hr
    split at hr
    · next hbackoff =>
      obtain rfl := Option.some.inj hr
      have hws : rs.writeStream.Waiting := by
        cases h.mode with
        | stopped hws => simp [hws.backoff] at hbackoff
        | waiting hws => exact hws
        | connecting old hws => simp [hws.backoff] at hbackoff
        | greeting g hws => simp [hws.backoff] at hbackoff
        | sending g done rest hws => simp [hws.backoff] at hbackoff
      rw [hws.backoffElapsed_eq]
      exact .of_effect (by simp) (.backoffElapsed hws)
    · simp at hr
  | enableNetwork =>
    obtain rfl := Option.some.inj hr
    obtain ⟨bs, hbs⟩ := h.window_eq
    rw [enableNetwork_eq h.consistent hbs]
    exact .of_effect (by simp) .enableNetwork
  | disableNetwork =>
    obtain rfl := Option.some.inj hr
    rw [disableNetwork_eq]
    exact .of_effect (by simp) .disableNetwork
  | connectivityChanged =>
    obtain rfl := Option.some.inj hr
    rw [connectivityChanged, canUseNetwork]
    cases hnet : rs.isNetworkEnabled with
    | true =>
      rw [if_pos rfl, restartNetwork_eq h.consistent]
      exact .of_effect (by simp) (.reconnected hnet)
    | false => exact .of_effect (by simp) (.connectivityIgnored hnet)
  | credentialChange user =>
    obtain rfl := Option.some.inj hr
    rw [handleCredentialChange_eq h]
    cases hnet : rs.isNetworkEnabled with
    | true => exact .of_effect (by simp) (.credentialChange hnet)
    | false => exact .of_effect (by simp) (.credentialChangeOffline hnet)
  | relaunch user =>
    obtain rfl := Option.some.inj hr
    have hwindow : (rs.relaunched user).window =
        (rs.relaunched user).writePipeline ++ (rs.relaunched user).window := rfl
    rw [enableNetwork_eq (h.consistent.relaunched user) hwindow]
    exact .of_effect (by simp) .relaunch
  | serve =>
    simp only [react, Option.bind_eq_some_iff] at hr
    obtain ⟨g, hg, hr⟩ := hr
    split at hr
    · next hopen =>
      obtain rfl := Option.some.inj hr
      rw [serve]
      split
      · next hnil => exact absurd hnil hopen.2
      · next rest hreq => exact .of_effect (by simp) (.servedHandshake hg hopen.1 hreq)
      · next b rest hreq => exact .of_effect (by simp) (.servedWrite hg hopen.1 hreq)
    · simp at hr
  | backendClose status =>
    simp only [react, Option.bind_eq_some_iff] at hr
    obtain ⟨g, hg, hr⟩ := hr
    split at hr
    · next hclose =>
      obtain rfl := Option.some.inj hr
      exact .of_effect (by simp) (.closedByBackend hg hclose.1 hclose.2)
    · simp at hr
  | serveAbandoned i =>
    simp only [react] at hr
    split at hr
    · next b rest hi =>
      obtain rfl := Option.some.inj hr
      exact .of_effect (by simp) (.servedAbandoned hi)
    · simp at hr
  | dropAbandoned i =>
    simp only [react, Option.map_eq_some_iff] at hr
    obtain ⟨-, -, rfl⟩ := hr
    exact .of_effect (by simp) .droppedAbandoned

theorem step_effect (h : Invariant rs) (hs : rs.step e = some rs') : Effect rs e rs' := by
  rw [step, Option.bind_eq_some_iff] at hs
  obtain ⟨r, hr, hok⟩ := hs
  rcases react_effect h hr with ⟨-, -, rfl⟩ | ⟨-, rs'', rfl, heffect⟩
  · simp [Except.toOption] at hok
  · obtain rfl : rs'' = rs' := by simpa [Except.toOption] using hok
    exact heffect

/-! ## The invariant is kept -/

theorem refilled_pipeline (rs : RemoteStore υ α) : rs.refilled.writePipeline = rs.refilled.window := rfl

/-- The invariant of a store that has just been filled. -/
theorem Invariant.of_refilled (hc : rs.syncEngine.Consistent) (hnet : rs.isNetworkEnabled = true)
    (hmode : Mode rs.refilled) : Invariant rs.refilled :=
  ⟨hc, by rw [if_pos (show rs.refilled.isNetworkEnabled = true from hnet), refilled_pipeline], hmode⟩

/-- Only the stream changes. -/
theorem Invariant.setStream (h : Invariant rs) {ws : WriteStream υ α} (hmode : Mode (rs.setStream ws)) :
    Invariant (rs.setStream ws) :=
  ⟨h.consistent, h.pipeline, hmode⟩

omit [DecidableEq υ] in
theorem Mode.stopped_of_not_started (h : Mode rs) (hstarted : rs.writeStream.isStarted = false) :
    rs.writeStream.Stopped := by
  cases h with
  | stopped hws => exact hws
  | waiting hws => simp [hws.isStarted] at hstarted
  | connecting old hws => simp [hws.isStarted] at hstarted
  | greeting g hws => simp [hws.isStarted] at hstarted
  | sending g done rest hws => simp [hws.isStarted] at hstarted

omit [DecidableEq υ] in
theorem Mode.silenced (h : Mode rs) : rs.silenced.writeStream.Stopped := by
  rw [RemoteStore.silenced]
  cases hstarted : rs.writeStream.isStarted with
  | true => exact WriteStream.stopped_halted h.requests_le .ok
  | false => exact h.stopped_of_not_started hstarted

omit [DecidableEq υ] in
theorem Mode.rewound (h : Mode rs) : rs.rewound.writeStream.Stopped := by
  have hstopped := h.silenced
  exact ⟨⟨hstopped.handshake, hstopped.grpc, hstopped.idleness, hstopped.health⟩, .inl rfl,
    hstopped.backoff, hstopped.stale⟩

theorem Invariant.rewound (h : Mode rs) (hc : rs.syncEngine.Consistent) : Invariant rs.rewound.refilled :=
  .of_refilled hc rfl (mode_refilled_of_stopped h.rewound rfl)

theorem Mode.refilled (h : Mode rs) (hnet : rs.isNetworkEnabled = true) {bs : List (MutationBatch υ α)}
    (hwindow : rs.window = rs.writePipeline ++ bs) : Mode rs.refilled := by
  have hne : rs.writePipeline ≠ [] → rs.window ≠ [] := by
    intro hp hw
    exact hp (List.append_eq_nil_iff.1 (hwindow.symm.trans hw)).1
  cases h with
  | stopped hws => exact mode_refilled_of_stopped hws hnet
  | waiting hws _ hp =>
    rw [refilled_of_not_ready hws.isStarted hws.not_ready (hne hp)]
    exact .waiting hws hnet (hne hp)
  | connecting old hws _ hp =>
    rw [refilled_of_not_ready hws.isStarted hws.not_ready (hne hp)]
    exact .connecting old hws hnet (hne hp)
  | greeting g hws hshake hidle hg _ hp =>
    rw [refilled_of_not_ready hws.isStarted (by simp [WriteStream.isReady, hshake]) (hne hp)]
    exact .greeting g hws hshake hidle hg hnet (hne hp)
  | sending g done rest hws hshake hidle hg _ hp =>
    exact mode_refilled_of_sending hws hshake hidle hg hnet hp hwindow

omit [DecidableEq υ] in
theorem Mode.setSyncEngine (h : Mode rs) (se : SyncEngine υ α) : Mode { rs with syncEngine := se } := by
  cases h with
  | stopped hws hp => exact .stopped hws hp
  | waiting hws hnet hp => exact .waiting hws hnet hp
  | connecting old hws hnet hp => exact .connecting old hws hnet hp
  | greeting g hws hshake hidle hg hnet hp => exact .greeting g hws hshake hidle hg hnet hp
  | sending g done rest hws hshake hidle hg hnet hp =>
    exact .sending g done rest hws hshake hidle hg hnet hp

theorem Invariant.written (h : Invariant rs) (mutations : List α) : Invariant (rs.written mutations) := by
  have hc : (rs.added mutations).syncEngine.Consistent := h.consistent.addMutationBatch mutations
  have hmode : Mode (rs.added mutations) := h.mode.setSyncEngine _
  rw [RemoteStore.written]
  by_cases hnet : rs.isNetworkEnabled = true
  · rw [if_pos hnet]
    exact .of_refilled hc hnet (hmode.refilled hnet (h.window_added hnet mutations))
  · rw [if_neg hnet]
    refine ⟨hc, ?_, hmode⟩
    have hp := h.pipeline
    rw [if_neg hnet] at hp
    rw [if_neg (show ¬ (rs.added mutations).isNetworkEnabled = true from hnet)]
    exact hp

omit [DecidableEq υ] in
theorem Mode.enabled (h : Mode rs) : Mode { rs with isNetworkEnabled := true } := by
  cases h with
  | stopped hws hp => exact .stopped hws hp
  | waiting hws hnet hp => exact .waiting hws rfl hp
  | connecting old hws hnet hp => exact .connecting old hws rfl hp
  | greeting g hws hshake hidle hg hnet hp => exact .greeting g hws hshake hidle hg rfl hp
  | sending g done rest hws hshake hidle hg hnet hp =>
    exact .sending g done rest hws hshake hidle hg rfl hp

theorem Invariant.dropRequest (h : Invariant rs) {i c : ℕ}
    (hi : rs.writeStream.credentialRequests[i]? = some c) (hc : c ≠ rs.writeStream.closeCount) :
    Invariant (rs.dropRequest i) := by
  refine h.setStream ?_
  have hsub : ∀ d ∈ rs.writeStream.credentialRequests.eraseIdx i,
      d ∈ rs.writeStream.credentialRequests := fun d hd => (List.eraseIdx_sublist _ i).subset hd
  cases h.mode with
  | stopped hws hp =>
    exact .stopped ⟨⟨hws.handshake, hws.grpc, hws.idleness, hws.health⟩, hws.state, hws.backoff,
      fun d hd => hws.stale d (hsub d hd)⟩ hp
  | waiting hws hnet hp =>
    exact .waiting ⟨⟨hws.handshake, hws.grpc, hws.idleness, hws.health⟩, hws.state, hws.backoff,
      fun d hd => hws.stale d (hsub d hd)⟩ hnet hp
  | connecting old hws hnet hp =>
    -- the request that is forgotten is not the last one
    have hold : i < old.length := by
      by_contra hle
      rw [hws.requests, List.getElem?_append_right (by omega)] at hi
      exact hc (by simpa using (List.mem_of_getElem? hi))
    refine .connecting (old.eraseIdx i) ⟨⟨hws.handshake, hws.grpc, hws.idleness, hws.health⟩, hws.state,
      hws.backoff, ?_, fun d hd => hws.stale d ((List.eraseIdx_sublist _ i).subset hd)⟩ hnet hp
    change rs.writeStream.credentialRequests.eraseIdx i = old.eraseIdx i ++ [rs.writeStream.closeCount]
    rw [hws.requests, List.eraseIdx_append_of_lt_length hold]
  | greeting g hws hshake hidle hg hnet hp =>
    exact .greeting g ⟨hws.isOpen, hws.grpc, hws.backoff, fun d hd => hws.stale d (hsub d hd)⟩ hshake hidle
      hg hnet hp
  | sending g done rest hws hshake hidle hg hnet hp =>
    exact .sending g done rest ⟨hws.isOpen, hws.grpc, hws.backoff, fun d hd => hws.stale d (hsub d hd)⟩
      hshake hidle hg hnet hp

omit [DecidableEq υ] in
theorem Mode.failed (hreq : ∀ c ∈ rs.writeStream.credentialRequests, c ≤ rs.writeStream.closeCount)
    (hnet : rs.isNetworkEnabled = true) {status : Status} (hstatus : status ≠ .ok) :
    Mode (rs.failed status) := by
  have hhalted := WriteStream.stopped_halted hreq status
  have hstate : (rs.writeStream.halted status).state = .error := by
    simp [WriteStream.halted, WriteStream.clearHandshake, WriteStream.reset, hstatus]
  rw [RemoteStore.failed]
  by_cases hp : rs.writePipeline = []
  · rw [if_pos hp]
    exact .stopped hhalted hp
  · rw [if_neg hp, WriteStream.restarted, if_pos hstate]
    exact .waiting ⟨⟨hhalted.handshake, hhalted.grpc, hhalted.idleness, hhalted.health⟩, rfl, rfl,
      hhalted.stale⟩ hnet hp

theorem Invariant.healthCheck (h : Invariant rs) :
    Invariant (rs.setStream rs.writeStream.healthCheck) := by
  refine h.setStream ?_
  have hclosed : rs.writeStream.isOpen = false →
      rs.writeStream.healthCheck = { rs.writeStream with healthCheckTimer := false } := by
    intro hopen
    simp [WriteStream.healthCheck, hopen]
  have hopened : rs.writeStream.isOpen = true →
      rs.writeStream.healthCheck = { rs.writeStream with healthCheckTimer := false, state := .healthy } := by
    intro hopen
    simp [WriteStream.healthCheck, hopen]
  cases h.mode with
  | stopped hws hp =>
    have hopen : rs.writeStream.isOpen = false := by
      rcases hws.state with hs | hs <;> simp [WriteStream.isOpen, hs]
    rw [hclosed hopen]
    exact .stopped ⟨⟨hws.handshake, hws.grpc, hws.idleness, rfl⟩, hws.state, hws.backoff, hws.stale⟩ hp
  | waiting hws hnet hp =>
    rw [hclosed (by simp [WriteStream.isOpen, hws.state])]
    exact .waiting ⟨⟨hws.handshake, hws.grpc, hws.idleness, rfl⟩, hws.state, hws.backoff, hws.stale⟩ hnet hp
  | connecting old hws hnet hp =>
    rw [hclosed (by simp [WriteStream.isOpen, hws.state])]
    exact .connecting old ⟨⟨hws.handshake, hws.grpc, hws.idleness, rfl⟩, hws.state, hws.backoff,
      hws.requests, hws.stale⟩ hnet hp
  | greeting g hws hshake hidle hg hnet hp =>
    rw [hopened hws.isOpen]
    exact .greeting g ⟨rfl, hws.grpc, hws.backoff, hws.stale⟩ hshake hidle hg hnet hp
  | sending g done rest hws hshake hidle hg hnet hp =>
    rw [hopened hws.isOpen]
    exact .sending g done rest ⟨rfl, hws.grpc, hws.backoff, hws.stale⟩ hshake hidle hg hnet hp

theorem Invariant.greeted (h : Invariant rs) {g : GrpcStream υ α} {r : WriteResponse υ α}
    {responses : List (WriteResponse υ α)} (hg : rs.writeStream.grpcStream = some g)
    (hr : g.responses = r :: responses) (hshake : rs.writeStream.handshakeComplete = false) :
    Invariant (rs.greeted { g with responses := responses }) := by
  refine h.setStream ?_
  obtain ⟨hws, hnet, hmode⟩ := h.mode.of_grpc hg
  obtain ⟨hgreet, hp⟩ : g.Greeting ∧ rs.writePipeline ≠ [] := by
    rcases hmode with ⟨-, hgreet, hp⟩ | ⟨hshake', -⟩
    · exact ⟨hgreet, hp⟩
    · simp [hshake] at hshake'
  obtain ⟨hreq, hresp, hclosed⟩ : g.requests = [] ∧ responses = [] ∧
      ∀ status, g.closed = some status → ¬ status.Refuses := by
    rcases hgreet with ⟨-, hresp⟩ | ⟨hreq, hresp, hclosed⟩
    · simp [hr] at hresp
    · rw [hr] at hresp
      exact ⟨hreq, (List.cons.inj hresp).2, hclosed⟩
  have hready : WriteStream.isReady { rs.writeStream with
      grpcStream := some { g with responses := responses }, handshakeComplete := true } = true :=
    WriteStream.isReady_iff.2 ⟨hws.isOpen, rfl⟩
  rw [WriteStream.sent, if_pos ⟨hready, hp⟩]
  refine .sending { g with
    responses := responses, requests := g.requests ++ rs.writePipeline.map .mutations } [] rs.writePipeline
    ⟨hws.isOpen, rfl, hws.backoff, hws.stale⟩ rfl (by simp [RemoteStore.setStream])
    ⟨hresp, by rw [hreq, List.nil_append], fun status hst hrefuses => absurd hrefuses (hclosed status hst)⟩
    hnet rfl

theorem Invariant.acknowledged (h : Invariant rs) {g : GrpcStream υ α} {r : WriteResponse υ α}
    {responses : List (WriteResponse υ α)} {b : MutationBatch υ α} {p : List (MutationBatch υ α)}
    (hg : rs.writeStream.grpcStream = some g) (hr : g.responses = r :: responses)
    (hshake : rs.writeStream.handshakeComplete = true) (hp : rs.writePipeline = b :: p) :
    Invariant (rs.acknowledged { g with responses := responses } b p).refilled := by
  obtain ⟨hws, hnet, -⟩ := h.mode.of_grpc hg
  obtain ⟨q, bs, hq, hq', hbs⟩ := window_dequeued h.consistent ((h.pipeline_eq hnet).symm.trans hp) true
  refine .of_refilled (h.consistent.dequeued hq true) hnet ?_
  cases h.mode with
  | stopped hws' => simp [hws'.grpc] at hg
  | waiting hws' => simp [hws'.grpc] at hg
  | connecting old hws' => simp [hws'.grpc] at hg
  | greeting g' hws' hshake' => simp [hshake] at hshake'
  | sending g' done rest hws' _ hidle hsend _ hp' =>
    obtain rfl : g' = g := by simpa [hws'.grpc] using hg
    cases done with
    | nil => simp [hsend.responses] at hr
    | cons c done =>
      rw [hsend.responses, List.map_cons] at hr
      obtain ⟨-, hresp⟩ := List.cons.inj hr
      have hp'' : p = done ++ rest := (List.cons.inj (hp.symm.trans hp')).2
      have hsend' : GrpcStream.Sending { g' with responses := responses } rs.refused done rest :=
        ⟨hresp.symm, hsend.requests, hsend.closed⟩
      have hwindow : (rs.acknowledged { g' with responses := responses } b p).window =
          (rs.acknowledged { g' with responses := responses } b p).writePipeline ++ bs := by
        rw [window, RemoteStore.acknowledged, hq', hbs]
      refine mode_refilled_of_sending ⟨hws.isOpen, rfl, hws.backoff, hws.stale⟩ hshake ?_ hsend' hnet
        hp'' hwindow
      intro hidle'
      have hempty := hidle hidle'
      simp [hp] at hempty

theorem Invariant.rejected (h : Invariant rs) {g : GrpcStream υ α} (status : Status)
    {b : MutationBatch υ α} {p : List (MutationBatch υ α)} (hg : rs.writeStream.grpcStream = some g)
    (hp : rs.writePipeline = b :: p) : Invariant (rs.rejected status b p).refilled := by
  obtain ⟨hws, hnet, -⟩ := h.mode.of_grpc hg
  obtain ⟨q, -, hq, -⟩ := window_dequeued h.consistent ((h.pipeline_eq hnet).symm.trans hp) false
  have hhalted := WriteStream.stopped_halted h.mode.requests_le status
  refine .of_refilled (h.consistent.dequeued hq false) hnet (mode_refilled_of_stopped ?_ hnet)
  exact ⟨⟨hhalted.handshake, hhalted.grpc, hhalted.idleness, hhalted.health⟩, .inl rfl, hhalted.backoff,
    hhalted.stale⟩

omit [DecidableEq υ] in
theorem Mode.serve_handshake (h : Mode rs) {g : GrpcStream υ α} {requests : List (WriteRequest υ α)}
    (hg : rs.writeStream.grpcStream = some g) (hclosed : g.closed = none)
    (hr : g.requests = .handshake :: requests) :
    Mode (rs.setGrpcStream { g with requests := requests, responses := g.responses ++ [.handshake] }) := by
  cases h with
  | stopped hws => simp [hws.grpc] at hg
  | waiting hws => simp [hws.grpc] at hg
  | connecting old hws => simp [hws.grpc] at hg
  | greeting g' hws hshake hidle hgreet hnet hp =>
    obtain rfl : g' = g := by simpa [hws.grpc] using hg
    refine .greeting _ ⟨hws.isOpen, rfl, hws.backoff, hws.stale⟩ hshake hidle ?_ hnet hp
    rcases hgreet with ⟨hreq, hresp⟩ | ⟨hreq, -⟩
    · rw [hr] at hreq
      exact .inr ⟨(List.cons.inj hreq).2, by simp [hresp], by simp [hclosed]⟩
    · simp [hr] at hreq
  | sending g' done rest hws hshake hidle hsend hnet hp =>
    obtain rfl : g' = g := by simpa [hws.grpc] using hg
    rw [hsend.requests] at hr
    cases rest <;> simp at hr

omit [DecidableEq υ] in
/-- A write that the backend can answer is the first that is not answered. -/
theorem Mode.sending_of_request (h : Mode rs) {g : GrpcStream υ α} {b : MutationBatch υ α}
    {requests : List (WriteRequest υ α)} (hg : rs.writeStream.grpcStream = some g)
    (hr : g.requests = .mutations b :: requests) :
    ∃ done rest, rs.writeStream.Connected g ∧ rs.writeStream.handshakeComplete = true ∧
      (rs.writeStream.idlenessTimer = true → rs.writePipeline = []) ∧
      g.Sending rs.refused done (b :: rest) ∧ rs.isNetworkEnabled = true ∧
      rs.writePipeline = done ++ b :: rest ∧ requests = rest.map .mutations := by
  cases h with
  | stopped hws => simp [hws.grpc] at hg
  | waiting hws => simp [hws.grpc] at hg
  | connecting old hws => simp [hws.grpc] at hg
  | greeting g' hws hshake hidle hgreet hnet hp =>
    obtain rfl : g' = g := by simpa [hws.grpc] using hg
    rcases hgreet with ⟨hreq, -⟩ | ⟨hreq, -⟩ <;> simp [hr] at hreq
  | sending g' done rest hws hshake hidle hsend hnet hp =>
    obtain rfl : g' = g := by simpa [hws.grpc] using hg
    rw [hsend.requests] at hr
    cases rest with
    | nil => simp at hr
    | cons c rest =>
      rw [List.map_cons] at hr
      obtain ⟨hcb, hrest⟩ := List.cons.inj hr
      obtain rfl : c = b := by simpa using hcb
      exact ⟨done, rest, hws, hshake, hidle, hsend, hnet, hp, hrest.symm⟩

omit [DecidableEq υ] in
theorem Mode.serve_write (h : Mode rs) {g : GrpcStream υ α} {b : MutationBatch υ α}
    {requests : List (WriteRequest υ α)} (hg : rs.writeStream.grpcStream = some g)
    (hclosed : g.closed = none) (hr : g.requests = .mutations b :: requests)
    (applied : List (MutationBatch υ α)) :
    Mode { rs.setGrpcStream { g with requests := requests, responses := g.responses ++ [.result b] } with
      applied := applied } := by
  obtain ⟨done, rest, hws, hshake, hidle, hsend, hnet, hp, hrest⟩ := h.sending_of_request hg hr
  refine .sending _ (done ++ [b]) rest ⟨hws.isOpen, rfl, hws.backoff, hws.stale⟩ hshake hidle
    ⟨?_, hrest, by simp [hclosed]⟩ hnet ?_
  · simp [hsend.responses]
  · rw [List.append_assoc]
    exact hp

omit [DecidableEq υ] in
theorem Mode.closedByBackend (h : Mode rs) {g : GrpcStream υ α} {status : Status}
    (hg : rs.writeStream.grpcStream = some g) (hclose : g.CanClose status) :
    Mode (rs.closedByBackend g status) := by
  cases h with
  | stopped hws => simp [hws.grpc] at hg
  | waiting hws => simp [hws.grpc] at hg
  | connecting old hws => simp [hws.grpc] at hg
  | greeting g' hws hshake hidle hgreet hnet hp =>
    obtain rfl : g' = g := by simpa [hws.grpc] using hg
    refine .greeting _ ⟨hws.isOpen, rfl, hws.backoff, hws.stale⟩ hshake hidle ?_ hnet hp
    rcases hgreet with ⟨hreq, hresp⟩ | ⟨hreq, hresp, -⟩
    · exact .inl ⟨hreq, hresp⟩
    · refine .inr ⟨hreq, hresp, fun status' hstatus hrefuses => ?_⟩
      obtain rfl : status = status' := by simpa using hstatus
      exact hclose hrefuses hreq
  | sending g' done rest hws hshake hidle hsend hnet hp =>
    obtain rfl : g' = g := by simpa [hws.grpc] using hg
    refine .sending _ done rest ⟨hws.isOpen, rfl, hws.backoff, hws.stale⟩ hshake hidle
      ⟨hsend.responses, hsend.requests, fun status' hstatus hrefuses => ?_⟩ hnet hp
    obtain rfl : status = status' := by simpa using hstatus
    have hne := hclose hrefuses
    rw [hsend.requests] at hne
    cases rest with
    | nil => simp at hne
    | cons b rest =>
      refine ⟨b, rfl, ?_⟩
      simp [RemoteStore.closedByBackend, hrefuses, GrpcStream.pending, hsend.requests]

omit [DecidableEq υ] in
/-- What the backend does for streams that are gone does not concern the one that is there. -/
theorem Mode.setAbandoned (h : Mode rs) (abandoned : List (List (MutationBatch υ α)))
    (applied : List (MutationBatch υ α)) :
    Mode { rs.setStream { rs.writeStream with abandoned := abandoned } with applied := applied } := by
  cases h with
  | stopped hws hp =>
    exact .stopped ⟨⟨hws.handshake, hws.grpc, hws.idleness, hws.health⟩, hws.state, hws.backoff, hws.stale⟩
      hp
  | waiting hws hnet hp =>
    exact .waiting ⟨⟨hws.handshake, hws.grpc, hws.idleness, hws.health⟩, hws.state, hws.backoff, hws.stale⟩
      hnet hp
  | connecting old hws hnet hp =>
    exact .connecting old ⟨⟨hws.handshake, hws.grpc, hws.idleness, hws.health⟩, hws.state, hws.backoff,
      hws.requests, hws.stale⟩ hnet hp
  | greeting g hws hshake hidle hg hnet hp =>
    exact .greeting g ⟨hws.isOpen, hws.grpc, hws.backoff, hws.stale⟩ hshake hidle hg hnet hp
  | sending g done rest hws hshake hidle hg hnet hp =>
    exact .sending g done rest ⟨hws.isOpen, hws.grpc, hws.backoff, hws.stale⟩ hshake hidle hg hnet hp

theorem Mode.switched (h : Mode rs) (user : υ) : Mode (rs.switched user) := by
  rw [RemoteStore.switched]
  split
  · exact h.setSyncEngine _
  · exact h

theorem switched_consistent (hc : rs.syncEngine.Consistent) (user : υ) :
    (rs.switched user).syncEngine.Consistent := by
  rw [switched]
  split
  · exact hc.handleUserChange user
  · exact hc

theorem switched_isNetworkEnabled (user : υ) :
    (rs.switched user).isNetworkEnabled = rs.isNetworkEnabled := by
  rw [switched]
  split <;> rfl

theorem switched_writePipeline (user : υ) : (rs.switched user).writePipeline = rs.writePipeline := by
  rw [switched]
  split <;> rfl

/-- Whatever happens, the invariant is kept. -/
theorem Effect.invariant (heffect : Effect rs e rs') (h : Invariant rs) : Invariant rs' := by
  cases heffect with
  | write mutations => exact h.written mutations
  | staleCredentials hi hc => exact h.dropRequest hi hc
  | opened hi =>
    obtain ⟨old, hws, hnet, hp, hold⟩ := h.connecting hi
    refine ⟨h.consistent, h.pipeline, ?_⟩
    refine .greeting { requests := [.handshake] } ⟨rfl, rfl, hws.backoff, ?_⟩ hws.handshake rfl
      (.inl ⟨rfl, rfl⟩) hnet hp
    change ∀ c ∈ rs.writeStream.credentialRequests.eraseIdx _, c < rs.writeStream.closeCount
    rw [hold]
    exact hws.stale
  | unauthorized hi hstatus =>
    obtain ⟨old, hws, hnet, -, hold⟩ := h.connecting hi
    refine ⟨h.consistent, h.pipeline, @Mode.failed _ _ (rs.dropRequest _) ?_ hnet _ hstatus⟩
    change ∀ c ∈ rs.writeStream.credentialRequests.eraseIdx _, c ≤ rs.writeStream.closeCount
    rw [hold]
    exact fun c hc => (hws.stale c hc).le
  | healthCheck => exact h.healthCheck
  | greeted hg hr hshake => exact h.greeted hg hr hshake
  | acknowledged hg hr hshake hp => exact h.acknowledged hg hr hshake hp
  | unreadable hg hr hstatus hsafe =>
    obtain ⟨-, hnet, -⟩ := h.mode.of_grpc hg
    exact h.setStream (.failed h.mode.requests_le hnet hstatus)
  | misread hg hr hstatus hshake hp => exact h.rejected _ hg hp
  | finished hp => exact h.setStream (.stopped (WriteStream.stopped_halted h.mode.requests_le .ok) hp)
  | failed hg hstatus hsafe =>
    obtain ⟨-, hnet, -⟩ := h.mode.of_grpc hg
    exact h.setStream (.failed h.mode.requests_le hnet hstatus)
  | refused hg hclosed hstatus hshake hp => exact h.rejected _ hg hp
  | idleTimeout hp => exact h.setStream (.stopped (WriteStream.stopped_halted h.mode.requests_le .ok) hp)
  | backoffElapsed hws =>
    obtain ⟨hnet, hp⟩ : rs.isNetworkEnabled = true ∧ rs.writePipeline ≠ [] := by
      cases h.mode with
      | stopped hws' => exact absurd (hws'.isStarted.symm.trans hws.isStarted) (by decide)
      | waiting _ hnet hp => exact ⟨hnet, hp⟩
      | connecting _ _ hnet hp => exact ⟨hnet, hp⟩
      | greeting _ _ _ _ _ hnet hp => exact ⟨hnet, hp⟩
      | sending g done rest hws' => exact absurd (hws'.grpc.symm.trans hws.grpc) (by simp)
    refine h.setStream (.connecting rs.writeStream.credentialRequests ?_ hnet hp)
    exact ⟨⟨hws.handshake, hws.grpc, hws.idleness, hws.health⟩, rfl, rfl, rfl, hws.stale⟩
  | enableNetwork =>
    obtain ⟨bs, hbs⟩ := h.window_eq
    exact .of_refilled h.consistent rfl (h.mode.enabled.refilled rfl hbs)
  | disableNetwork =>
    exact ⟨h.consistent, by simp [silenced], .stopped h.mode.silenced rfl⟩
  | reconnected hnet => exact .rewound h.mode h.consistent
  | connectivityIgnored hnet => exact h
  | credentialChange hnet =>
    exact .rewound (h.mode.switched _) (switched_consistent h.consistent _)
  | credentialChangeOffline hnet =>
    refine ⟨switched_consistent h.consistent _, ?_, h.mode.switched _⟩
    have hp := h.pipeline
    rw [if_neg (by simp [hnet])] at hp
    rw [switched_isNetworkEnabled, switched_writePipeline, if_neg (by simp [hnet]), hp]
  | relaunch =>
    refine .of_refilled (h.consistent.relaunched _) rfl (mode_refilled_of_stopped ?_ rfl)
    exact ⟨⟨rfl, rfl, rfl, rfl⟩, .inl rfl, rfl, by simp [WriteStream.Stale, relaunched]⟩
  | servedHandshake hg hclosed hr => exact h.setStream (h.mode.serve_handshake hg hclosed hr)
  | servedWrite hg hclosed hr =>
    exact ⟨h.consistent, h.pipeline, h.mode.serve_write hg hclosed hr _⟩
  | closedByBackend hg hclosed hclose =>
    exact ⟨h.consistent, h.pipeline, h.mode.closedByBackend hg hclose⟩
  | @servedAbandoned i b rest hi =>
    exact ⟨h.consistent, h.pipeline,
      h.mode.setAbandoned (rs.writeStream.abandoned.set i rest) (rs.applied ++ [b])⟩
  | @droppedAbandoned i =>
    exact h.setStream (h.mode.setAbandoned (rs.writeStream.abandoned.eraseIdx i) rs.applied)

end RemoteStore

end Datability
