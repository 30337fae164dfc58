import Datability.Proofs.DeliveryProofs
import Datability.Proofs.WriteStreamProofs

/-!
# Proofs: the writes of a phone are delivered

The write stream as a case of delivery in order: the queues are those of the users, the rank of a batch
is the order of its issue, and `history` forgets everything but what the two sides have done. Each effect
of an event is something that can happen to a history, so the results of `DeliveryProofs` hold in every
state that is reached.
-/

namespace Datability

open Transition Delivery

namespace WriteStream

variable {υ α : Type*} {ws : WriteStream υ α}

/-- The results that have not been read. -/
def results (ws : WriteStream υ α) : List (MutationBatch υ α) :=
  match ws.grpcStream with
  | none => []
  | some g => g.results

theorem results_of_none (h : ws.grpcStream = none) : ws.results = [] := by
  simp [results, h]

theorem results_of_some {g : GrpcStream υ α} (h : ws.grpcStream = some g) : ws.results = g.results := by
  simp [results, h]

theorem leftover_of_none (h : ws.grpcStream = none) : ws.leftover = [] := by
  simp [leftover, h]

theorem markIdle_history : ws.markIdle.results = ws.results ∧ ws.markIdle.abandoned = ws.abandoned := by
  rw [markIdle]
  split <;> exact ⟨rfl, rfl⟩

theorem sent_history (bs : List (MutationBatch υ α)) :
    (ws.sent bs).results = ws.results ∧ (ws.sent bs).abandoned = ws.abandoned := by
  rw [sent]
  split
  · refine ⟨?_, rfl⟩
    cases hg : ws.grpcStream with
    | none => rw [results_of_none (by simp), results_of_none hg]
    | some g =>
      rw [results_of_some (by simp; rfl), results_of_some hg]
      rfl
  · exact ⟨rfl, rfl⟩

theorem restarted_history :
    ws.restarted.results = ws.results ∧ ws.restarted.abandoned = ws.abandoned := by
  rw [restarted]
  split <;> exact ⟨rfl, rfl⟩

end WriteStream

namespace GrpcStream

variable {υ α : Type*} {g : GrpcStream υ α} {refused done rest : List (MutationBatch υ α)}

theorem Greeting.pending_eq (h : g.Greeting) : g.pending = [] := by
  rcases h with ⟨hreq, -⟩ | ⟨hreq, -⟩ <;> simp [pending, hreq]

theorem Greeting.results_eq (h : g.Greeting) : g.results = [] := by
  rcases h with ⟨-, hresp⟩ | ⟨-, hresp, -⟩ <;> simp [results, hresp]

theorem Sending.pending_eq (h : g.Sending refused done rest) : g.pending = rest := by
  simp [pending, h.requests, List.filterMap_map]

theorem Sending.results_eq (h : g.Sending refused done rest) : g.results = done := by
  simp [results, h.responses, List.filterMap_map]

end GrpcStream

namespace SyncEngine

variable {υ α : Type*} [DecidableEq υ] {se : SyncEngine υ α} {a b : MutationBatch υ α}

/-- The batches of a queue stand in the order of issue. -/
theorem Consistent.sorted_serial (h : se.Consistent) (u : υ) :
    (se.queueOf u).Pairwise fun a b => a.serial < b.serial := by
  have hissued : se.issued.Pairwise fun a b => a.serial < b.serial := by
    rw [← List.pairwise_map, h.serials]
    exact List.pairwise_lt_range
  have hfilter := hissued.filter fun b => b.user = u
  rw [h.ledger, List.pairwise_append] at hfilter
  exact hfilter.2.1

/-- What was issued before a batch of the queue in use is settled or before it in the queue. -/
theorem Consistent.before (h : se.Consistent) {l r : List (MutationBatch υ α)}
    (hq : se.queue = l ++ b :: r) (ha : a ∈ se.issued) (huser : a.user = b.user)
    (hserial : a.serial < b.serial) : (∃ ok, (a, ok) ∈ se.settled) ∨ a ∈ l := by
  have hb : b.user = se.currentUser := (mem_queue.1 (by rw [hq]; simp : b ∈ se.queue)).2
  have hmem : a ∈ se.issued.filter fun c => c.user = se.currentUser :=
    List.mem_filter.2 ⟨ha, by simp [huser, hb]⟩
  rw [h.ledger, List.mem_append] at hmem
  rcases hmem with hmem | hmem
  · obtain ⟨p, hp, rfl⟩ := List.mem_map.1 (List.mem_filter.1 hmem).1
    exact .inl ⟨p.2, hp⟩
  · have hsorted : se.queue.Pairwise fun a b => a.serial < b.serial := h.sorted_serial _
    have hmem' : a ∈ se.queue := hmem
    rw [hq] at hmem' hsorted
    rcases List.mem_append.1 hmem' with hl | hr
    · exact .inr hl
    · have hle : b.serial ≤ a.serial := by
        rw [List.pairwise_append, List.pairwise_cons] at hsorted
        rcases List.mem_cons.1 hr with rfl | hr
        · exact le_rfl
        · exact (hsorted.2.1.1 a hr).le
      omega

/-- No batch is settled twice. -/
theorem Consistent.nodup_settled (h : se.Consistent) :
    (se.settled.map Prod.fst).Nodup := by
  rw [List.nodup_iff_sublist]
  intro b hb
  have hnodup : (se.issued.filter fun c => c.user = b.user).Nodup :=
    (List.Nodup.of_map _ h.nodup_issued).filter _
  rw [h.ledger, List.nodup_append, List.nodup_iff_sublist] at hnodup
  refine hnodup.1 b ?_
  have := hb.filter fun c => decide (c.user = b.user)
  simpa using this

end SyncEngine

namespace RemoteStore

variable {υ α : Type*} [DecidableEq υ] {rs rs' : RemoteStore υ α} {e : StoreEvent υ α}
  {b : MutationBatch υ α}

/-- What the phone and the backend have done. -/
def history (rs : RemoteStore υ α) : History (MutationBatch υ α) where
  issued := rs.syncEngine.issued
  settled := rs.syncEngine.settled
  applied := rs.applied
  refused := rs.refused
  results := rs.writeStream.results
  abandoned := rs.writeStream.abandoned

/-- The history is sound, batches being ranked by the order of issue in the queues of the users. -/
def Delivers (rs : RemoteStore υ α) : Prop :=
  History.Sound MutationBatch.user MutationBatch.serial rs.history

/-! ## The history of an effect -/

omit [DecidableEq υ] in
theorem history_setStream {ws : WriteStream υ α} (hresults : ws.results = rs.writeStream.results)
    (habandoned : ws.abandoned = rs.writeStream.abandoned) :
    (rs.setStream ws).history = rs.history := by
  simp [history, hresults, habandoned]

/-- Filling the pipeline sends batches, which decides nothing yet. -/
theorem history_refilled (rs : RemoteStore υ α) : rs.refilled.history = rs.history := by
  have hstream : rs.refilled.writeStream.results = rs.writeStream.results ∧
      rs.refilled.writeStream.abandoned = rs.writeStream.abandoned := by
    rw [refilled]
    dsimp only
    split
    · split
      · exact WriteStream.markIdle_history
      · exact WriteStream.sent_history _
    · split
      · exact ⟨rfl, rfl⟩
      · exact WriteStream.restarted_history
  simp only [history, hstream.1, hstream.2]
  rfl

omit [DecidableEq υ] in
theorem history_halted (rs : RemoteStore υ α) (status : Status) :
    (rs.setStream (rs.writeStream.halted status)).history =
      rs.history.abandon rs.writeStream.leftover := rfl

omit [DecidableEq υ] in
/-- When a stream fails, its answers are lost, and what it was sent can still arrive. -/
theorem history_failed (rs : RemoteStore υ α) (status : Status) :
    (rs.failed status).history = rs.history.abandon rs.writeStream.leftover := by
  rw [failed]
  split
  · rfl
  · rw [← history_halted rs status]
    exact @history_setStream _ _ (rs.setStream (rs.writeStream.halted status)) _
      WriteStream.restarted_history.1 WriteStream.restarted_history.2

/-- A rejection is a failure after which the first batch counts as settled. -/
theorem history_rejected (rs : RemoteStore υ α) (status : Status) (b : MutationBatch υ α)
    (p : List (MutationBatch υ α)) :
    (rs.rejected status b p).history = (rs.history.abandon rs.writeStream.leftover).settle b false := by
  simp only [history, rejected, SyncEngine.dequeued_issued]
  rfl

omit [DecidableEq υ] in
theorem history_silenced (h : Mode rs) :
    rs.silenced.history = rs.history.abandon rs.writeStream.leftover := by
  rw [silenced]
  cases hstarted : rs.writeStream.isStarted with
  | true => rfl
  | false =>
    have hgrpc := (h.stopped_of_not_started hstarted).grpc
    rw [WriteStream.leftover_of_none hgrpc, History.abandon, history, history,
      WriteStream.results_of_none hgrpc, List.append_nil]
    simp [WriteStream.results_of_none hgrpc]

omit [DecidableEq υ] in
theorem history_rewound (h : Mode rs) :
    rs.rewound.history = rs.history.abandon rs.writeStream.leftover :=
  history_silenced h

/-- Another queue comes into use; nothing is lost. -/
theorem history_switched (rs : RemoteStore υ α) (user : υ) :
    (rs.switched user).history = rs.history ∧ (rs.switched user).writeStream = rs.writeStream := by
  rw [switched]
  split <;> exact ⟨rfl, rfl⟩

/-! ## What is sent is in order -/

/-- The writes of the stream in use that are not answered. -/
theorem due_of_sending (h : Invariant rs) (hd : rs.Delivers) {g : GrpcStream υ α}
    {done rest pre post : List (MutationBatch υ α)} (hg : rs.writeStream.grpcStream = some g)
    (hsend : g.Sending rs.refused done rest) (hp : rs.writePipeline = done ++ rest)
    (hrest : rest = pre ++ b :: post) :
    b ∈ rs.history.issued ∧ History.Due MutationBatch.user MutationBatch.serial rs.history pre b := by
  obtain ⟨-, hnet, -⟩ := h.mode.of_grpc hg
  have hqueue : rs.syncEngine.queue =
      (done ++ pre) ++ b :: (post ++ rs.syncEngine.queue.drop kMaxPendingWrites) := by
    conv_lhs => rw [← List.take_append_drop kMaxPendingWrites rs.syncEngine.queue]
    rw [show rs.syncEngine.queue.take kMaxPendingWrites = done ++ rest from
      (h.pipeline_eq hnet).symm.trans hp, hrest]
    simp
  have hb : b ∈ rs.syncEngine.queue := by
    rw [hqueue]
    simp
  refine ⟨h.consistent.mem_issued_of_row (SyncEngine.mem_queue.1 hb).1, fun a ha huser hserial => ?_⟩
  rcases h.consistent.before hqueue ha huser hserial with ⟨ok, hsettled⟩ | hmem
  · exact .inl (hd.settled _ hsettled)
  · rcases List.mem_append.1 hmem with hdone | hpre
    · refine .inl (.inl (hd.results a ?_))
      change a ∈ rs.writeStream.results
      rw [WriteStream.results_of_some hg, hsend.results_eq]
      exact hdone
    · exact .inr hpre

/-- What can still arrive of the stream in use is in order. -/
theorem leftover_inOrder (h : Invariant rs) (hd : rs.Delivers) :
    ∀ l ∈ rs.writeStream.leftover,
      History.InOrder MutationBatch.user MutationBatch.serial rs.history l := by
  intro l hl
  cases hg : rs.writeStream.grpcStream with
  | none => simp [WriteStream.leftover_of_none hg] at hl
  | some g =>
    have hl' : l = g.pending := by
      rw [WriteStream.leftover, hg] at hl
      simp only at hl
      split at hl
      · simp at hl
      · exact List.mem_singleton.1 hl
    obtain ⟨-, -, ⟨-, hgreet, -⟩ | ⟨-, done, rest, hsend, hp⟩⟩ := h.mode.of_grpc hg
    · rw [hl', hgreet.pending_eq]
      intro pre b post hnil
      simp at hnil
    · rw [hl', hsend.pending_eq]
      exact fun pre b post hrest => due_of_sending h hd hg hsend hp hrest

theorem Delivers.abandon (hd : rs.Delivers) (h : Invariant rs) :
    History.Sound MutationBatch.user MutationBatch.serial
      (rs.history.abandon rs.writeStream.leftover) :=
  History.Sound.abandon hd (leftover_inOrder h hd)

/-- The result that is read is that of the first batch of the pipeline. -/
theorem acknowledged_result (h : Invariant rs) {g : GrpcStream υ α} {r : WriteResponse υ α}
    {responses : List (WriteResponse υ α)} {p : List (MutationBatch υ α)}
    (hg : rs.writeStream.grpcStream = some g) (hr : g.responses = r :: responses)
    (hshake : rs.writeStream.handshakeComplete = true) (hp : rs.writePipeline = b :: p) :
    rs.writeStream.results = b :: GrpcStream.results { g with responses := responses } := by
  obtain ⟨-, -, ⟨hshake', -⟩ | ⟨-, done, rest, hsend, hp'⟩⟩ := h.mode.of_grpc hg
  · simp [hshake] at hshake'
  · rw [WriteStream.results_of_some hg]
    cases done with
    | nil => simp [hsend.responses] at hr
    | cons c done =>
      obtain rfl : c = b := (List.cons.inj (hp'.symm.trans hp)).1
      rw [hsend.responses, List.map_cons] at hr
      obtain ⟨rfl, rfl⟩ := List.cons.inj hr
      rw [hsend.results_eq]
      simp [GrpcStream.results, List.filterMap_map]

/-- Reading a result settles the batch as applied. -/
theorem history_acknowledged (h : Invariant rs) {g : GrpcStream υ α} {r : WriteResponse υ α}
    {responses : List (WriteResponse υ α)} {p : List (MutationBatch υ α)}
    (hg : rs.writeStream.grpcStream = some g) (hr : g.responses = r :: responses)
    (hshake : rs.writeStream.handshakeComplete = true) (hp : rs.writePipeline = b :: p) :
    (rs.acknowledged { g with responses := responses } b p).history = (rs.history.settle b true).read := by
  have hresults := acknowledged_result h hg hr hshake hp
  simp only [history, acknowledged, SyncEngine.dequeued_issued, History.settle, History.read, hresults]
  rfl

/-- The batch over which a stream is closed is refused, unless there are results that were not read. -/
theorem rejected_cases (h : Invariant rs) {g : GrpcStream υ α} {status : Status}
    {p : List (MutationBatch υ α)} (hg : rs.writeStream.grpcStream = some g)
    (hclosed : g.closed = some status) (hstatus : status.Refuses)
    (hshake : rs.writeStream.handshakeComplete = true) (hp : rs.writePipeline = b :: p) :
    b ∈ rs.writeStream.results ∨ rs.writeStream.results = [] ∧ b ∈ rs.refused := by
  obtain ⟨-, -, ⟨hshake', -⟩ | ⟨-, done, rest, hsend, hp'⟩⟩ := h.mode.of_grpc hg
  · simp [hshake] at hshake'
  · rw [WriteStream.results_of_some hg, hsend.results_eq]
    cases done with
    | nil =>
      obtain ⟨c, hc, hmem⟩ := hsend.closed status hclosed hstatus
      rw [List.nil_append, hp] at hp'
      rw [← hp'] at hc
      obtain rfl : b = c := by simpa using hc
      exact .inr ⟨rfl, hmem⟩
    | cons c done =>
      obtain rfl : c = b := (List.cons.inj (hp'.symm.trans hp)).1
      exact .inl List.mem_cons_self

theorem history_written (rs : RemoteStore υ α) (mutations : List α) :
    (rs.written mutations).history = rs.history.issue (rs.syncEngine.nextBatch mutations) := by
  have hadded : (rs.added mutations).history =
      rs.history.issue (rs.syncEngine.nextBatch mutations) := rfl
  rw [written]
  split
  · rw [history_refilled, hadded]
  · exact hadded

theorem history_opened (h : Invariant rs) {i : ℕ}
    (hi : rs.writeStream.credentialRequests[i]? = some rs.writeStream.closeCount) :
    ((rs.dropRequest i).setStream (rs.dropRequest i).writeStream.greets).history = rs.history := by
  obtain ⟨old, hws, -⟩ := h.connecting hi
  exact @history_setStream _ _ rs (rs.dropRequest i).writeStream.greets
    (WriteStream.results_of_none hws.grpc).symm rfl

theorem history_greeted (h : Invariant rs) {g : GrpcStream υ α} {r : WriteResponse υ α}
    {responses : List (WriteResponse υ α)} (hg : rs.writeStream.grpcStream = some g)
    (hr : g.responses = r :: responses) (hshake : rs.writeStream.handshakeComplete = false) :
    (rs.greeted { g with responses := responses }).history = rs.history := by
  have hresults : g.results = [] := by
    obtain ⟨-, -, ⟨-, hgreet, -⟩ | ⟨hshake', -⟩⟩ := h.mode.of_grpc hg
    · exact hgreet.results_eq
    · simp [hshake] at hshake'
  have hrest : GrpcStream.results { g with responses := responses } = rs.writeStream.results := by
    rw [WriteStream.results_of_some hg, hresults]
    rw [GrpcStream.results, hr] at hresults
    simp only [List.filterMap_cons] at hresults
    split at hresults
    · exact hresults
    · simp at hresults
  obtain ⟨hsent, habandoned⟩ := @WriteStream.sent_history _ _ { rs.writeStream with
    grpcStream := some { g with responses := responses }, handshakeComplete := true } rs.writePipeline
  exact history_setStream (hsent.trans hrest) habandoned

omit [DecidableEq υ] in
theorem history_backoffElapsed (rs : RemoteStore υ α) :
    (rs.setStream (WriteStream.restarted { rs.writeStream with
      backoffTimer := false, state := .initial })).history = rs.history := by
  obtain ⟨hresults, habandoned⟩ := @WriteStream.restarted_history _ _
    { rs.writeStream with backoffTimer := false, state := .initial }
  exact history_setStream hresults habandoned

omit [DecidableEq υ] in
theorem history_servedHandshake {g : GrpcStream υ α} (hg : rs.writeStream.grpcStream = some g)
    (requests : List (WriteRequest υ α)) :
    (rs.setGrpcStream
      { g with requests := requests, responses := g.responses ++ [.handshake] }).history = rs.history := by
  refine history_setStream ?_ rfl
  rw [WriteStream.results_of_some hg]
  simp [WriteStream.results, GrpcStream.results]

omit [DecidableEq υ] in
/-- The backend applies the batch and puts its result on the way back. -/
theorem history_servedWrite {g : GrpcStream υ α} (hg : rs.writeStream.grpcStream = some g)
    (b : MutationBatch υ α) (requests : List (WriteRequest υ α)) :
    RemoteStore.history { rs.setGrpcStream
      { g with requests := requests, responses := g.responses ++ [.result b] } with
      applied := rs.applied ++ [b] } = rs.history.apply b := by
  have hresults : WriteStream.results { rs.writeStream with
      grpcStream := some { g with requests := requests, responses := g.responses ++ [.result b] } } =
      rs.writeStream.results ++ [b] := by
    rw [WriteStream.results_of_some hg]
    simp [WriteStream.results, GrpcStream.results]
  simp only [history, setGrpcStream, setStream_writeStream, hresults]
  rfl

omit [DecidableEq υ] in
/-- A status that refuses is about the first batch that was not answered. -/
theorem history_closedByBackend {g : GrpcStream υ α} (hg : rs.writeStream.grpcStream = some g)
    (status : Status) :
    (rs.closedByBackend g status).history =
      rs.history.refuse (if status.Refuses then g.pending.take 1 else []) := by
  have hresults : WriteStream.results { rs.writeStream with
      grpcStream := some { g with closed := some status } } = rs.writeStream.results := by
    rw [WriteStream.results_of_some hg]
    rfl
  simp only [history, RemoteStore.closedByBackend, setGrpcStream, setStream_writeStream, hresults,
    History.refuse]
  split <;> simp

/-- Each effect is something that can happen to a history. -/
theorem Effect.delivers (heffect : Effect rs e rs') (h : Invariant rs) (hd : rs.Delivers) :
    rs'.Delivers := by
  unfold Delivers
  cases heffect with
  | write mutations =>
    rw [history_written]
    exact History.Sound.issue hd rfl
  | staleCredentials => exact hd
  | opened hi =>
    rw [history_opened h hi]
    exact hd
  | unauthorized hi hstatus =>
    rw [history_failed]
    exact hd.abandon h
  | healthCheck => exact hd
  | greeted hg hr hshake =>
    rw [history_greeted h hg hr hshake]
    exact hd
  | @acknowledged g r responses b p hg hr hshake hp =>
    rw [history_refilled, history_acknowledged h hg hr hshake hp]
    have happlied : b ∈ rs.history.applied := by
      refine hd.results b ?_
      change b ∈ rs.writeStream.results
      rw [acknowledged_result h hg hr hshake hp]
      exact List.mem_cons_self
    exact (History.Sound.settle hd (.inl happlied) fun _ => happlied).read
  | unreadable hg hr hstatus hsafe =>
    rw [history_failed]
    exact hd.abandon h
  | misread hg hr hstatus hshake hp =>
    -- the result that could not be read is that of the batch
    rw [history_refilled, history_rejected]
    refine (hd.abandon h).settle (.inl (hd.results _ ?_)) (by simp)
    change _ ∈ rs.writeStream.results
    rw [acknowledged_result h hg hr hshake hp]
    exact List.mem_cons_self
  | finished hp =>
    rw [history_halted]
    exact hd.abandon h
  | failed hg hstatus hsafe =>
    rw [history_failed]
    exact hd.abandon h
  | refused hg hclosed hstatus hshake hp =>
    rw [history_refilled, history_rejected]
    refine (hd.abandon h).settle ?_ (by simp)
    rcases rejected_cases h hg hclosed hstatus hshake hp with hmem | ⟨-, hmem⟩
    · exact .inl (hd.results _ hmem)
    · exact .inr hmem
  | idleTimeout hp =>
    rw [history_halted]
    exact hd.abandon h
  | backoffElapsed hws =>
    rw [history_backoffElapsed]
    exact hd
  | enableNetwork =>
    rw [history_refilled]
    exact hd
  | disableNetwork =>
    rw [history_silenced h.mode]
    exact hd.abandon h
  | reconnected hnet =>
    rw [history_refilled, history_rewound h.mode]
    exact hd.abandon h
  | connectivityIgnored hnet => exact hd
  | @credentialChange user hnet =>
    obtain ⟨hhistory, hstream⟩ := history_switched rs user
    rw [history_refilled, history_rewound (h.mode.switched user), hhistory, hstream]
    exact hd.abandon h
  | @credentialChangeOffline user hnet =>
    rw [(history_switched rs user).1]
    exact hd
  | relaunch =>
    rw [history_refilled]
    exact hd.abandon h
  | servedHandshake hg hclosed hr =>
    rw [history_servedHandshake hg]
    exact hd
  | @servedWrite g b requests hg hclosed hr =>
    obtain ⟨done, rest, -, -, -, hsend, -, hp, -⟩ := h.mode.sending_of_request hg hr
    obtain ⟨hissued, hdue⟩ := due_of_sending h hd hg hsend hp (List.nil_append (b :: rest)).symm
    rw [history_servedWrite hg]
    exact History.Sound.apply hd hissued hdue
  | closedByBackend hg hclosed hclose =>
    rw [history_closedByBackend hg]
    exact History.Sound.refuse hd _
  | servedAbandoned hi => exact History.Sound.arrive hd hi
  | droppedAbandoned => exact History.Sound.drop hd _

/-! ## Runs -/

theorem installed_invariant (user : υ) : Invariant (installed user : RemoteStore υ α) := by
  refine ⟨?_, rfl, .stopped ⟨⟨rfl, rfl, rfl, rfl⟩, .inl rfl, rfl, by simp [WriteStream.Stale, installed]⟩ rfl⟩
  exact ⟨by simp [installed], by simp [installed], by simp [installed], by simp [installed],
    by simp [installed, SyncEngine.queueOf], by simp [installed], by simp [installed],
    by simp [installed], by simp [installed]⟩

omit [DecidableEq υ] in
theorem installed_delivers (user : υ) : (installed user : RemoteStore υ α).Delivers :=
  ⟨by simp [history, installed], by simp [history, installed, WriteStream.results],
    by simp [history, installed], by simp [history, installed], by simp [history, installed],
    by simp [history, installed]⟩

/-- Every run keeps the invariant. -/
theorem run_keeps {es : List (StoreEvent υ α)} (hr : run step rs es = some rs')
    (h : Invariant rs ∧ rs.Delivers) : Invariant rs' ∧ rs'.Delivers := by
  refine run_invariant (P := fun _ _ => True) (I := fun rs => Invariant rs ∧ rs.Delivers) ?_
    (allSteps_of_forall_mem fun _ _ => trivial) h hr
  rintro s l s' - hI hs
  have heffect := step_effect hI.1 hs
  exact ⟨heffect.invariant hI.1, heffect.delivers hI.1 hI.2⟩

/-- The invariant and the soundness of the history hold in every state that is reached. -/
theorem reached {user : υ} {es : List (StoreEvent υ α)} (hr : run step (installed user) es = some rs) :
    Invariant rs ∧ rs.Delivers :=
  run_keeps hr ⟨installed_invariant user, installed_delivers user⟩

/-- The connection breaks before the result of the first write is read, so that write is sent again. -/
def brokenOnce : List (StoreEvent ℕ ℕ) :=
  [.relaunch 0, .writeMutations [7], .writeMutations [8], .credentials 0 .ok, .serve, .streamRead, .serve,
    .streamFinish .unavailable, .backoffElapsed, .credentials 0 .ok, .serve, .streamRead, .serve, .streamRead]

/-- The first write is acknowledged, the second is refused, and the third has been carried out. -/
def refusedOnce : List (StoreEvent ℕ ℕ) :=
  [.relaunch 0, .writeMutations [7], .writeMutations [8], .credentials 0 .ok, .serve, .streamRead, .serve,
    .streamRead, .backendClose .permissionDenied, .streamFinish .permissionDenied, .writeMutations [9],
    .credentials 0 .ok, .serve, .streamRead, .serve]

/-- In every state that is reached, the only event that can make an assertion fail is that the backend
closes a stream without an error although there are writes to send. -/
theorem assertion_fails_iff {user : υ} {es : List (StoreEvent υ α)}
    (hr : run step (installed user) es = some rs) {r : Except HardAssert (RemoteStore υ α)}
    (he : rs.react e = some r) :
    (∃ a, r = .error a) ↔ e = .streamFinish .ok ∧ rs.writePipeline ≠ [] := by
  rcases react_effect (reached hr).1 he with ⟨hfinish, hp, rfl⟩ | ⟨hne, rs', rfl, -⟩
  · exact ⟨fun _ => ⟨hfinish, hp⟩, fun _ => ⟨_, rfl⟩⟩
  · refine ⟨?_, fun h => absurd h hne⟩
    rintro ⟨a, ha⟩
    simp at ha

theorem assertion_fails_iff_brokenOnce :
    ∃ rs, run step (installed 0) brokenOnce = some rs ∧
      ∃ r, rs.react (.streamFinish .unavailable) = some r ∧ ¬ ∃ a, r = .error a := by
  have h : (run step (installed 0) brokenOnce).any
      (fun rs => (rs.react (.streamFinish .unavailable)).isSome) = true := by decide +kernel
  obtain ⟨rs, hr, hreact⟩ := (Option.any_eq_true _ _).1 h
  obtain ⟨r, he⟩ := Option.isSome_iff_exists.1 hreact
  exact ⟨rs, hr, r, he, fun ha => absurd ((assertion_fails_iff hr he).1 ha).1 (by decide)⟩

/-- No write is lost, and none is overtaken: in every state that is reached, the batches of a user that
were issued are those that were settled followed by those in the queue, which has ascending ids, and the
pipeline holds the first of the queue in use. -/
theorem queued_in_order {user : υ} {es : List (StoreEvent υ α)}
    (hr : run step (installed user) es = some rs) :
    (∀ u, rs.syncEngine.issued.filter (fun b => b.user = u) =
        (rs.syncEngine.settled.map Prod.fst).filter (fun b => b.user = u) ++ rs.syncEngine.queueOf u ∧
      (rs.syncEngine.queueOf u).Pairwise fun a b => a.batchId < b.batchId) ∧
    rs.writePipeline =
      if rs.isNetworkEnabled then rs.syncEngine.queue.take kMaxPendingWrites else [] := by
  have h := (reached hr).1
  exact ⟨fun u => ⟨h.consistent.ledger u, h.consistent.sorted_queueOf u⟩, h.pipeline⟩

theorem queued_in_order_brokenOnce :
    ∃ rs, run step (installed 0) brokenOnce = some rs ∧
      rs.syncEngine.issued.filter (fun b => b.user = 0) =
        (rs.syncEngine.settled.map Prod.fst).filter (fun b => b.user = 0) ++ rs.syncEngine.queueOf 0 := by
  have h : (run step (installed 0) brokenOnce).isSome = true := by decide +kernel
  obtain ⟨rs, hr⟩ := Option.isSome_iff_exists.1 h
  exact ⟨rs, hr, ((queued_in_order hr).1 0).1⟩

/-- What the phone takes to be acknowledged was carried out, and the backend carries out no batch before
it has decided about everything that was issued earlier by the same user. -/
theorem delivered_in_order {user : υ} {es : List (StoreEvent υ α)}
    (hr : run step (installed user) es = some rs) :
    (∀ b, (b, true) ∈ rs.syncEngine.settled → b ∈ rs.applied) ∧
    ∀ b ∈ rs.applied, ∃ l r, rs.syncEngine.issued = l ++ b :: r ∧
      ∀ a ∈ l, a.user = b.user → a ∈ rs.applied ∨ a ∈ rs.refused := by
  obtain ⟨h, hd⟩ := reached hr
  refine ⟨hd.acknowledged, fun b hb => ?_⟩
  obtain ⟨hissued, hdue⟩ := hd.applied b hb
  obtain ⟨l, r, hlr⟩ := List.append_of_mem (show b ∈ rs.syncEngine.issued from hissued)
  refine ⟨l, r, hlr, fun a ha huser => ?_⟩
  have hsorted : rs.syncEngine.issued.Pairwise fun a b => a.serial < b.serial := by
    rw [← List.pairwise_map, h.consistent.serials]
    exact List.pairwise_lt_range
  rw [hlr, List.pairwise_append] at hsorted
  have hserial : a.serial < b.serial := hsorted.2.2 a ha b List.mem_cons_self
  have hmem : a ∈ rs.history.issued := by
    change a ∈ rs.syncEngine.issued
    rw [hlr]
    exact List.mem_append_left _ ha
  rcases hdue a hmem huser hserial with hcov | hnil
  · exact hcov
  · simp at hnil

theorem delivered_in_order_refusedOnce :
    ∃ rs, run step (installed 0) refusedOnce = some rs ∧
      ∀ b ∈ rs.applied, ∃ l r, rs.syncEngine.issued = l ++ b :: r ∧
        ∀ a ∈ l, a.user = b.user → a ∈ rs.applied ∨ a ∈ rs.refused := by
  have h : (run step (installed 0) refusedOnce).isSome = true := by decide +kernel
  obtain ⟨rs, hr⟩ := Option.isSome_iff_exists.1 h
  exact ⟨rs, hr, (delivered_in_order hr).2⟩

/-! ## Completions -/

/-- While the process lives, no completion is forgotten. -/
theorem Effect.notifies (heffect : Effect rs e rs') (h : Invariant rs) (he : ∀ user, e ≠ .relaunch user)
    {start : ℕ} (hn : SyncEngine.Notifies start rs.syncEngine) :
    SyncEngine.Notifies start rs'.syncEngine := by
  cases heffect with
  | write mutations =>
    have hadded := hn.addMutationBatch h.consistent mutations
    rw [written]
    split <;> exact hadded
  | @acknowledged g r responses b p hg hr hshake hp =>
    obtain ⟨-, hnet, -⟩ := h.mode.of_grpc hg
    obtain ⟨q, -, hq, -⟩ := window_dequeued h.consistent ((h.pipeline_eq hnet).symm.trans hp) true
    exact hn.dequeued h.consistent (by rw [hq]; exact List.mem_cons_self) true
  | @misread g r responses status b p hg hr hstatus hshake hp =>
    obtain ⟨-, hnet, -⟩ := h.mode.of_grpc hg
    obtain ⟨q, -, hq, -⟩ := window_dequeued h.consistent ((h.pipeline_eq hnet).symm.trans hp) false
    exact hn.dequeued h.consistent (by rw [hq]; exact List.mem_cons_self) false
  | @refused g status b p hg hclosed hstatus hshake hp =>
    obtain ⟨-, hnet, -⟩ := h.mode.of_grpc hg
    obtain ⟨q, -, hq, -⟩ := window_dequeued h.consistent ((h.pipeline_eq hnet).symm.trans hp) false
    exact hn.dequeued h.consistent (by rw [hq]; exact List.mem_cons_self) false
  | @credentialChange user hnet =>
    change SyncEngine.Notifies start (rs.switched user).syncEngine
    rw [switched]
    split
    · exact ⟨hn.waiting, hn.called⟩
    · exact hn
  | @credentialChangeOffline user hnet =>
    rw [switched]
    split
    · exact ⟨hn.waiting, hn.called⟩
    · exact hn
  | @relaunch user => exact absurd rfl (he user)
  | _ => exact hn

/-- The completion of a write is called with what became of it, and never twice; that of a write of the
same process is called as soon as the write is settled. -/
theorem completion_called {user : υ} {es₀ es : List (StoreEvent υ α)} {rs₀ : RemoteStore υ α}
    (hr₀ : run step (installed user) es₀ = some rs₀) (hr : run step rs₀ es = some rs)
    (hes : ∀ u, .relaunch u ∉ es) :
    (rs.syncEngine.notified.map Prod.fst).Nodup ∧
    ∀ i b, rs.syncEngine.issued[i]? = some b → ∀ ok,
      ((i, ok) ∈ rs.syncEngine.notified → (b, ok) ∈ rs.syncEngine.settled) ∧
      (rs₀.syncEngine.issued.length ≤ i →
        (b, ok) ∈ rs.syncEngine.settled → (i, ok) ∈ rs.syncEngine.notified) := by
  obtain ⟨h₀, hd₀⟩ := reached hr₀
  obtain ⟨h, hn⟩ : Invariant rs ∧
      SyncEngine.Notifies rs₀.syncEngine.issued.length rs.syncEngine := by
    refine run_invariant (P := fun _ e => ∀ u, e ≠ .relaunch u)
      (I := fun rs => Invariant rs ∧ SyncEngine.Notifies rs₀.syncEngine.issued.length rs.syncEngine) ?_
      (allSteps_of_forall_mem (P := fun e : StoreEvent υ α => ∀ u, e ≠ .relaunch u) ?_) ⟨h₀, ?_⟩ hr
    · rintro s l s' hl ⟨hI, hN⟩ hs
      have heffect := step_effect hI hs
      exact ⟨heffect.invariant hI, heffect.notifies hI hl hN⟩
    · rintro e he u rfl
      exact hes u he
    · -- every write so far is of an earlier process or has its completion
      have hlt : ∀ b ∈ rs₀.syncEngine.issued, b.serial < rs₀.syncEngine.issued.length := hd₀.ranked
      refine ⟨fun b hb hstart => ?_, fun p hp hstart => ?_⟩
      · exact absurd hstart (hlt b (h₀.consistent.mem_issued_of_row hb)).not_ge
      · have hp' : (p.1, p.2) ∈ rs₀.syncEngine.settled := hp
        exact absurd hstart (hlt p.1 (h₀.consistent.mem_issued_of_settled hp')).not_ge
  refine ⟨h.consistent.nodup, fun i b hi ok => ?_⟩
  have hserial : b.serial = i := by
    have hget : (rs.syncEngine.issued.map MutationBatch.serial)[i]? = some b.serial := by
      rw [List.getElem?_map, hi]
      rfl
    rw [h.consistent.serials, List.getElem?_range (List.getElem?_eq_some_iff.1 hi).1] at hget
    exact (Option.some.inj hget).symm
  constructor
  · intro hmem
    obtain ⟨c, hc, hci⟩ := h.consistent.notified _ hmem
    obtain rfl : c = b := h.consistent.eq_of_serial (h.consistent.mem_issued_of_settled hc)
      (List.mem_of_getElem? hi) (hci.trans hserial.symm)
    exact hc
  · intro hstart hmem
    rw [← hserial] at hstart ⊢
    exact hn.called _ hmem hstart

theorem completion_called_refusedOnce :
    ∃ rs, run step (installed 0) refusedOnce = some rs ∧ (rs.syncEngine.notified.map Prod.fst).Nodup ∧
      ∀ b, rs.syncEngine.issued[1]? = some b → (b, false) ∈ rs.syncEngine.settled →
        (1, false) ∈ rs.syncEngine.notified := by
  have h₀ : (run step (installed 0) (refusedOnce.take 1)).any (fun rs₀ =>
      decide (rs₀.syncEngine.issued.length ≤ 1) &&
        (run step rs₀ (refusedOnce.drop 1)).isSome) = true := by decide +kernel
  obtain ⟨rs₀, hr₀, h⟩ := (Option.any_eq_true _ _).1 h₀
  rw [Bool.and_eq_true, decide_eq_true_iff] at h
  obtain ⟨rs, hr⟩ := Option.isSome_iff_exists.1 h.2
  obtain ⟨hnodup, hcalled⟩ := completion_called hr₀ hr (by simp [refusedOnce])
  have hrun : run step (installed 0) (refusedOnce.take 1 ++ refusedOnce.drop 1) = some rs :=
    run_append.2 ⟨rs₀, hr₀, hr⟩
  rw [List.take_append_drop] at hrun
  exact ⟨rs, hrun, hnodup, fun b hb hmem => (hcalled 1 b hb false).2 h.1 hmem⟩

/-! ## Refusals -/

/-- The event that ends a stream with a status that refuses a write. -/
def refuses : StoreEvent υ α → Bool
  | .streamFinish status | .unreadable status => decide status.Refuses
  | _ => false

/-- A stream does not end with a refusal while there are results to read, and so no result is unreadable. -/
def ReadsFirst (rs : RemoteStore υ α) (e : StoreEvent υ α) : Prop :=
  refuses e = true → rs.writeStream.results = []

instance (rs : RemoteStore υ α) (e : StoreEvent υ α) : Decidable (rs.ReadsFirst e) :=
  inferInstanceAs (Decidable (_ → _))

/-- A batch is rejected only where the backend refused it, as long as the results are read first. -/
theorem Effect.refusals (heffect : Effect rs e rs') (h : Invariant rs) (hreads : rs.ReadsFirst e)
    (href : ∀ b, (b, false) ∈ rs.syncEngine.settled → b ∈ rs.refused) :
    ∀ b, (b, false) ∈ rs'.syncEngine.settled → b ∈ rs'.refused := by
  cases heffect with
  | write mutations =>
    rw [written]
    split <;> exact href
  | @acknowledged g r responses b p hg hr hshake hp =>
    intro c hc
    change (c, false) ∈ rs.syncEngine.settled ++ [(b, true)] at hc
    exact href c (by simpa using hc)
  | @refused g status b p hg hclosed hstatus hshake hp =>
    intro c hc
    change (c, false) ∈ rs.syncEngine.settled ++ [(b, false)] at hc
    rcases List.mem_append.1 hc with hc | hc
    · exact href c hc
    · obtain ⟨rfl, -⟩ := Prod.mk.inj (List.mem_singleton.1 hc)
      rcases rejected_cases h hg hclosed hstatus hshake hp with hmem | ⟨-, hmem⟩
      · simp [hreads (decide_eq_true hstatus)] at hmem
      · exact hmem
  | misread hg hr hstatus hshake hp =>
    have hresults := acknowledged_result h hg hr hshake hp
    simp [hreads (decide_eq_true hstatus)] at hresults
  | @credentialChange user hnet =>
    change ∀ b, (b, false) ∈ (rs.switched user).syncEngine.settled → b ∈ (rs.switched user).refused
    rw [switched]
    split <;> exact href
  | @credentialChangeOffline user hnet =>
    rw [switched]
    split <;> exact href
  | @closedByBackend g status hg hclosed hclose =>
    intro b hb
    have hmem := href b hb
    rw [RemoteStore.closedByBackend]
    dsimp only
    split
    · exact List.mem_append_left _ hmem
    · exact hmem
  | _ => exact href

/-- If the results that have arrived are read before a refusal is noticed, and each of them can be read, then
what the phone takes to be rejected was refused. -/
theorem rejected_was_refused {user : υ} {es : List (StoreEvent υ α)}
    (hr : run step (installed user) es = some rs)
    (hreads : AllSteps step ReadsFirst (installed user) es) :
    ∀ b, (b, false) ∈ rs.syncEngine.settled → b ∈ rs.refused := by
  refine (run_invariant (I := fun rs : RemoteStore υ α => Invariant rs ∧
    ∀ b, (b, false) ∈ rs.syncEngine.settled → b ∈ rs.refused) ?_ hreads
    ⟨installed_invariant user, by simp [installed]⟩ hr).2
  rintro s l s' hl ⟨hI, href⟩ hs
  have heffect := step_effect hI hs
  exact ⟨heffect.invariant hI, heffect.refusals hI hl href⟩

theorem rejected_was_refused_refusedOnce :
    ∃ rs, run step (installed 0) refusedOnce = some rs ∧ rs.syncEngine.settled.any (fun p => !p.2) ∧
      ∀ b, (b, false) ∈ rs.syncEngine.settled → b ∈ rs.refused := by
  have h : (run step (installed 0) refusedOnce).any
      (fun rs => rs.syncEngine.settled.any fun p => !p.2) = true := by decide +kernel
  obtain ⟨rs, hr, hrejected⟩ := (Option.any_eq_true _ _).1 h
  exact ⟨rs, hr, hrejected, rejected_was_refused hr (by decide +kernel)⟩

/-- The first write is carried out and its result cannot be decoded. -/
def misreadOnce : List (StoreEvent ℕ ℕ) :=
  [.relaunch 0, .writeMutations [7], .credentials 0 .ok, .serve, .streamRead, .serve, .unreadable .dataLoss]

-- the phone takes back a write that the backend has carried out
example : (run step (installed 0) misreadOnce).map (fun rs =>
    (rs.syncEngine.settled.map fun p => (p.1.mutations, p.2), rs.applied.map MutationBatch.mutations,
      rs.refused)) = some ([([7], false)], [[7]], []) := by decide +kernel

/-! ## Exactly once -/

/-- The events that close a stream. -/
def closes : StoreEvent υ α → Bool
  | .unreadable _ | .streamFinish _ | .idleTimeout | .disableNetwork | .connectivityChanged | .credentialChange _
  | .relaunch _ => true
  | _ => false

/-- A stream is not closed while something is in flight: every result was read, and every write that can
still arrive was answered. A result that cannot be read closes the stream before it was read. -/
def ClosesClean (rs : RemoteStore υ α) (e : StoreEvent υ α) : Prop :=
  closes e = true → rs.writeStream.results = [] ∧ ∀ l ∈ rs.writeStream.leftover, l = []

instance (rs : RemoteStore υ α) (e : StoreEvent υ α) : Decidable (rs.ClosesClean e) :=
  inferInstanceAs (Decidable (_ → _ ∧ ∀ l ∈ rs.writeStream.leftover, l = []))

/-- As long as no stream closes with results unread or requests unanswered, what was applied is what is settled
as applied, followed by what is on its way back. -/
theorem Effect.once (heffect : Effect rs e rs') (h : Invariant rs) (hclean : rs.ClosesClean e)
    (ho : rs.history.Once) : rs'.history.Once := by
  cases heffect with
  | write mutations =>
    rw [history_written]
    exact ho.issue _
  | staleCredentials => exact ho
  | opened hi =>
    rw [history_opened h hi]
    exact ho
  | unauthorized hi hstatus =>
    obtain ⟨old, hws, -⟩ := h.connecting hi
    rw [history_failed]
    refine ho.abandon (WriteStream.results_of_none hws.grpc) ?_
    rw [WriteStream.leftover_of_none (show (rs.dropRequest _).writeStream.grpcStream = none from hws.grpc)]
    simp
  | healthCheck => exact ho
  | greeted hg hr hshake =>
    rw [history_greeted h hg hr hshake]
    exact ho
  | acknowledged hg hr hshake hp =>
    rw [history_refilled, history_acknowledged h hg hr hshake hp]
    exact ho.acknowledge (acknowledged_result h hg hr hshake hp)
  | unreadable hg hr hstatus hsafe =>
    rw [history_failed]
    exact ho.abandon (hclean rfl).1 (hclean rfl).2
  | misread hg hr hstatus hshake hp =>
    have hresults := acknowledged_result h hg hr hshake hp
    simp [(hclean rfl).1] at hresults
  | finished hp =>
    rw [history_halted]
    exact ho.abandon (hclean rfl).1 (hclean rfl).2
  | failed hg hstatus hsafe =>
    rw [history_failed]
    exact ho.abandon (hclean rfl).1 (hclean rfl).2
  | refused hg hclosed hstatus hshake hp =>
    rw [history_refilled, history_rejected]
    exact (ho.abandon (hclean rfl).1 (hclean rfl).2).reject _
  | idleTimeout hp =>
    rw [history_halted]
    exact ho.abandon (hclean rfl).1 (hclean rfl).2
  | backoffElapsed hws =>
    rw [history_backoffElapsed]
    exact ho
  | enableNetwork =>
    rw [history_refilled]
    exact ho
  | disableNetwork =>
    rw [history_silenced h.mode]
    exact ho.abandon (hclean rfl).1 (hclean rfl).2
  | reconnected hnet =>
    rw [history_refilled, history_rewound h.mode]
    exact ho.abandon (hclean rfl).1 (hclean rfl).2
  | connectivityIgnored hnet => exact ho
  | @credentialChange user hnet =>
    obtain ⟨hhistory, hstream⟩ := history_switched rs user
    rw [history_refilled, history_rewound (h.mode.switched user), hhistory, hstream]
    exact ho.abandon (hclean rfl).1 (hclean rfl).2
  | @credentialChangeOffline user hnet =>
    rw [(history_switched rs user).1]
    exact ho
  | relaunch =>
    rw [history_refilled]
    exact ho.abandon (hclean rfl).1 (hclean rfl).2
  | servedHandshake hg hclosed hr =>
    rw [history_servedHandshake hg]
    exact ho
  | servedWrite hg hclosed hr =>
    rw [history_servedWrite hg]
    exact ho.apply _
  | closedByBackend hg hclosed hclose =>
    rw [history_closedByBackend hg]
    exact ⟨ho.applied, ho.abandoned⟩
  | servedAbandoned hi => exact absurd (ho.abandoned _ (List.mem_of_getElem? hi)) (by simp)
  | droppedAbandoned => exact ho.drop _

/-- The results that were not read are of batches in the queue, each once. -/
theorem Invariant.results_sublist (h : Invariant rs) :
    rs.writeStream.results.Sublist rs.syncEngine.queue := by
  cases hg : rs.writeStream.grpcStream with
  | none =>
    rw [WriteStream.results_of_none hg]
    exact List.nil_sublist _
  | some g =>
    rw [WriteStream.results_of_some hg]
    obtain ⟨-, hnet, ⟨-, hgreet, -⟩ | ⟨-, done, rest, hsend, hp⟩⟩ := h.mode.of_grpc hg
    · rw [hgreet.results_eq]
      exact List.nil_sublist _
    · rw [hsend.results_eq]
      refine (List.sublist_append_left done rest).trans ?_
      rw [← hp, h.pipeline_eq hnet]
      exact List.take_sublist _ _

/-- If no stream is closed while something is in flight, then the backend has carried out exactly the
acknowledged batches, in this order and each once, followed by those whose results are on their way. -/
theorem applied_exactly_once {user : υ} {es : List (StoreEvent υ α)}
    (hr : run step (installed user) es = some rs)
    (hclean : AllSteps step ClosesClean (installed user) es) :
    rs.applied =
      ((rs.syncEngine.settled.filter fun p => p.2).map Prod.fst) ++ rs.writeStream.results ∧
    rs.applied.Nodup ∧ ∀ b, (b, false) ∈ rs.syncEngine.settled → b ∉ rs.applied := by
  obtain ⟨h, ho⟩ : Invariant rs ∧ rs.history.Once := by
    refine run_invariant (I := fun rs : RemoteStore υ α => Invariant rs ∧ rs.history.Once) ?_ hclean
      ⟨installed_invariant user, ⟨rfl, by simp [history, installed]⟩⟩ hr
    rintro s l s' hl ⟨hI, ho⟩ hs
    have heffect := step_effect hI hs
    exact ⟨heffect.invariant hI, heffect.once hI hl ho⟩
  have happlied : rs.applied =
      ((rs.syncEngine.settled.filter fun p => p.2).map Prod.fst) ++ rs.writeStream.results := ho.applied
  have hsettled : (rs.syncEngine.settled.map Prod.fst).Nodup := h.consistent.nodup_settled
  have hrows : ∀ b ∈ rs.writeStream.results, b ∈ rs.syncEngine.rows :=
    fun b hb => (SyncEngine.mem_queue.1 (h.results_sublist.subset hb)).1
  have hqueue : rs.syncEngine.queue.Nodup :=
    (h.consistent.sorted_serial _).imp fun hlt heq => by
      subst heq
      exact lt_irrefl _ hlt
  refine ⟨happlied, ?_, fun b hb => ?_⟩
  · rw [happlied, List.nodup_append]
    refine ⟨hsettled.sublist (List.filter_sublist.map _), h.results_sublist.nodup hqueue, ?_⟩
    rintro a ha b hb rfl
    obtain ⟨p, hp, rfl⟩ := List.mem_map.1 ha
    have hp' : (p.1, p.2) ∈ rs.syncEngine.settled := (List.mem_filter.1 hp).1
    exact h.consistent.not_mem_rows hp' (hrows _ hb)
  · rw [happlied, List.mem_append, not_or]
    refine ⟨fun ha => ?_, fun hres => h.consistent.not_mem_rows hb (hrows _ hres)⟩
    obtain ⟨⟨c, ok⟩, hp, rfl⟩ := List.mem_map.1 ha
    obtain ⟨hp, hok⟩ := List.mem_filter.1 hp
    obtain ⟨-, rfl⟩ := Prod.mk.inj (List.inj_on_of_nodup_map hsettled hp hb rfl)
    simp at hok

theorem applied_exactly_once_refusedOnce :
    ∃ rs, run step (installed 0) refusedOnce = some rs ∧ rs.applied.Nodup ∧
      ∀ b, (b, false) ∈ rs.syncEngine.settled → b ∉ rs.applied := by
  have h : (run step (installed 0) refusedOnce).isSome = true := by decide +kernel
  obtain ⟨rs, hr⟩ := Option.isSome_iff_exists.1 h
  exact ⟨rs, hr, (applied_exactly_once hr (by decide +kernel)).2⟩

/-! ## Progress -/

/-- An event that can happen and is not the end of a stream without an error has an effect. -/
theorem Invariant.step_of_react (h : Invariant rs) (hr : (rs.react e).isSome = true)
    (he : e ≠ .streamFinish .ok) : ∃ rs', rs.step e = some rs' ∧ Effect rs e rs' := by
  obtain ⟨r, hr⟩ := Option.isSome_iff_exists.1 hr
  rcases react_effect h hr with ⟨hfinish, -⟩ | ⟨-, rs', rfl, heffect⟩
  · exact absurd hfinish he
  · exact ⟨rs', by rw [step, hr]; rfl, heffect⟩

/-- The stream is open, and every write sent over it was acknowledged or is still to be answered. -/
structure Flowing (rs : RemoteStore υ α) (g : GrpcStream υ α) : Prop where
  grpc : rs.writeStream.grpcStream = some g
  shake : rs.writeStream.handshakeComplete = true
  responses : g.responses = []
  closed : g.closed = none

omit [DecidableEq υ] in
theorem Flowing.setStream {ws : WriteStream υ α} {g : GrpcStream υ α} (hg : ws.grpcStream = some g)
    (hshake : ws.handshakeComplete = true) (hresponses : g.responses = []) (hclosed : g.closed = none)
    (bs : List (MutationBatch υ α)) (hstream : rs.writeStream = ws.sent bs) : ∃ g', rs.Flowing g' := by
  rw [WriteStream.sent] at hstream
  split at hstream
  · rw [hg] at hstream
    refine ⟨{ g with requests := g.requests ++ bs.map .mutations }, ?_, ?_, hresponses, hclosed⟩
    · rw [hstream]
      rfl
    · rw [hstream]
      exact hshake
  · exact ⟨g, hstream ▸ hg, hstream ▸ hshake, hresponses, hclosed⟩

omit [DecidableEq υ] in
theorem greeted_flowing (rs : RemoteStore υ α) : ∃ g', (rs.greeted {}).Flowing g' :=
  Flowing.setStream (g := {}) rfl rfl rfl rfl rs.writePipeline rfl

/-- Filling the pipeline of an open stream keeps it open and sends what was added. -/
theorem Flowing.refilled {g : GrpcStream υ α} (hf : rs.Flowing g) (hopen : rs.writeStream.isOpen = true) :
    ∃ g', rs.refilled.Flowing g' := by
  have hstarted : rs.writeStream.isStarted = true := by simp [WriteStream.isStarted, hopen]
  by_cases hw : rs.window = []
  · have hstream : rs.refilled.writeStream = { rs.writeStream with idlenessTimer := true } := by
      rw [RemoteStore.refilled, if_pos hstarted, if_pos hw, WriteStream.markIdle_of_open hopen]
    refine ⟨g, ?_, ?_, hf.responses, hf.closed⟩
    · rw [hstream]
      exact hf.grpc
    · rw [hstream]
      exact hf.shake
  · refine Flowing.setStream hf.grpc hf.shake hf.responses hf.closed
      (rs.window.drop rs.writePipeline.length) ?_
    rw [RemoteStore.refilled, if_pos hstarted, if_neg hw]

/-- The write at the head of the queue is carried out and acknowledged. -/
theorem Flowing.advance {g : GrpcStream υ α} (hf : rs.Flowing g) (h : Invariant rs)
    {q : List (MutationBatch υ α)} (hq : rs.syncEngine.queue = b :: q) :
    ∃ rs' g', run step rs [.serve, .streamRead] = some rs' ∧ Invariant rs' ∧ rs'.Flowing g' ∧
      rs'.syncEngine = rs.syncEngine.dequeued b true := by
  obtain ⟨hws, hnet, ⟨hshake, -⟩ | ⟨-, done, rest, hsend, hp⟩⟩ := h.mode.of_grpc hf.grpc
  · simp [hf.shake] at hshake
  obtain rfl : done = [] := by
    have := hsend.responses
    rw [hf.responses] at this
    simpa using this.symm
  have hwindow : rs.writePipeline = b :: q.take 9 := by
    rw [h.pipeline_eq hnet, window, hq]
    rfl
  have hrest : rest = b :: q.take 9 := hp.symm.trans hwindow
  have hrequests : g.requests = .mutations b :: (q.take 9).map .mutations := by
    rw [hsend.requests, hrest]
    rfl
  obtain ⟨mid, hstep, heffect⟩ := h.step_of_react (e := .serve)
    (by simp [react, hf.grpc, hf.closed, hrequests]) (by simp)
  have hmid := heffect.invariant h
  cases heffect with
  | servedHandshake hg' _ hr' =>
    obtain rfl := Option.some.inj (hf.grpc.symm.trans hg')
    simp [hrequests] at hr'
  | @servedWrite g' c requests hg' _ hr' =>
    obtain rfl := Option.some.inj (hf.grpc.symm.trans hg')
    rw [hrequests] at hr'
    obtain ⟨hcb, rfl⟩ := List.cons.inj hr'
    obtain rfl : b = c := by simpa using hcb
    obtain ⟨rs', hstep', heffect'⟩ := hmid.step_of_react (e := .streamRead)
      (by simp [react, setGrpcStream, hf.responses]) (by simp)
    have hrs' := heffect'.invariant hmid
    cases heffect' with
    | greeted _ _ hshake' => exact absurd (hshake'.symm.trans hf.shake) (by decide)
    | @acknowledged g'' r responses c p hg'' hr'' _ hp'' =>
      obtain rfl := Option.some.inj hg''
      obtain rfl : b = c := (List.cons.inj (hwindow.symm.trans hp'')).1
      rw [hf.responses] at hr''
      obtain ⟨-, hresponses⟩ := List.cons.inj hr''
      have hflow : Flowing (RemoteStore.acknowledged
          { rs.setGrpcStream { g with
            requests := (q.take 9).map .mutations, responses := g.responses ++ [.result b] } with
            applied := rs.applied ++ [b] }
          { g with requests := (q.take 9).map .mutations, responses := responses } b p)
          { g with requests := (q.take 9).map .mutations, responses := responses } :=
        ⟨rfl, hf.shake, hresponses.symm, hf.closed⟩
      obtain ⟨g', hg'⟩ := hflow.refilled hws.isOpen
      exact ⟨_, g', run_cons.2 ⟨_, hstep, run_cons.2 ⟨_, hstep', rfl⟩⟩, hrs', hg', rfl⟩

/-- A stream that waits for credentials can be brought to send. -/
theorem flowing_of_connecting (h : Invariant rs) {old : List ℕ} (hws : rs.writeStream.Connecting old) :
    ∃ es rs' g, run step rs es = some rs' ∧ Invariant rs' ∧ rs'.Flowing g ∧
      rs'.syncEngine = rs.syncEngine := by
  have hi : rs.writeStream.credentialRequests[old.length]? = some rs.writeStream.closeCount := by
    rw [hws.requests]
    simp
  obtain ⟨rs₁, hs₁, he₁⟩ := h.step_of_react (e := .credentials old.length .ok) (by simp [react, hi])
    (by simp)
  have h₁ := he₁.invariant h
  cases he₁ with
  | staleCredentials hi' hc => exact absurd (Option.some.inj (hi'.symm.trans hi)) hc
  | unauthorized _ hstatus => exact absurd rfl hstatus
  | opened _ =>
    obtain ⟨rs₂, hs₂, he₂⟩ := h₁.step_of_react (e := .serve)
      (by simp [react, WriteStream.greets]) (by simp)
    have h₂ := he₂.invariant h₁
    cases he₂ with
    | servedWrite hg _ hr =>
      obtain rfl := Option.some.inj hg
      simp at hr
    | servedHandshake hg _ hr =>
      obtain rfl := Option.some.inj hg
      obtain ⟨-, rfl⟩ := List.cons.inj hr
      obtain ⟨rs₃, hs₃, he₃⟩ := h₂.step_of_react (e := .streamRead)
        (by simp [react, setGrpcStream]) (by simp)
      have h₃ := he₃.invariant h₂
      cases he₃ with
      | acknowledged _ _ hshake => exact absurd (hshake.symm.trans hws.handshake) (by decide)
      | greeted hg hr _ =>
        obtain rfl := Option.some.inj hg
        obtain ⟨-, rfl⟩ := List.cons.inj hr
        obtain ⟨g, hflow⟩ := greeted_flowing (((rs.dropRequest old.length).setStream
          (rs.dropRequest old.length).writeStream.greets).setGrpcStream { responses := [.handshake] })
        exact ⟨[.credentials old.length .ok, .serve, .streamRead], _, g,
          run_cons.2 ⟨_, hs₁, run_cons.2 ⟨_, hs₂, run_cons.2 ⟨_, hs₃, rfl⟩⟩⟩, h₃, hflow, rfl⟩

/-- A stream that waits can be brought to send. -/
theorem flowing_of_waiting (h : Invariant rs) (hws : rs.writeStream.Waiting) :
    ∃ es rs' g, run step rs es = some rs' ∧ Invariant rs' ∧ rs'.Flowing g ∧
      rs'.syncEngine = rs.syncEngine := by
  obtain ⟨rs₁, hs₁, he₁⟩ := h.step_of_react (e := .backoffElapsed) (by simp [react, hws.backoff]) (by simp)
  have h₁ := he₁.invariant h
  cases he₁ with
  | backoffElapsed _ =>
    have hconnecting : (WriteStream.restarted { rs.writeStream with
        backoffTimer := false, state := .initial }).Connecting rs.writeStream.credentialRequests :=
      ⟨⟨hws.handshake, hws.grpc, hws.idleness, hws.health⟩, rfl, rfl, rfl, hws.stale⟩
    obtain ⟨es, rs', g, hr, h', hf, hse⟩ := flowing_of_connecting h₁ hconnecting
    exact ⟨.backoffElapsed :: es, rs', g, run_cons.2 ⟨_, hs₁, hr⟩, h', hf, hse⟩

/-- An open stream can break and be brought to send. -/
theorem flowing_of_open (h : Invariant rs) {g : GrpcStream υ α} (hg : rs.writeStream.grpcStream = some g)
    (hp : rs.writePipeline ≠ []) :
    ∃ es rs' g, run step rs es = some rs' ∧ Invariant rs' ∧ rs'.Flowing g ∧
      rs'.syncEngine = rs.syncEngine := by
  have hbreaks : rs.Breaks .unavailable := ⟨by decide, .inr (by decide)⟩
  obtain ⟨rs₁, hs₁, he₁⟩ := h.step_of_react (e := .streamFinish .unavailable)
    (by simp [react, hg, hbreaks]) (by simp)
  have h₁ := he₁.invariant h
  cases he₁ with
  | refused _ _ hstatus => exact absurd hstatus (by decide)
  | failed _ hstatus _ =>
    have hhalted := WriteStream.stopped_halted h.mode.requests_le .unavailable
    have hstream : (rs.failed .unavailable).writeStream =
        { rs.writeStream.halted .unavailable with state := .backoff, backoffTimer := true } := by
      rw [RemoteStore.failed, if_neg hp]
      rfl
    have hws : (rs.failed .unavailable).writeStream.Waiting := by
      rw [hstream]
      exact ⟨⟨hhalted.handshake, hhalted.grpc, hhalted.idleness, hhalted.health⟩, rfl, rfl, hhalted.stale⟩
    obtain ⟨es, rs', g, hr, h', hf, hse⟩ := flowing_of_waiting h₁ hws
    exact ⟨.streamFinish .unavailable :: es, rs', g, run_cons.2 ⟨_, hs₁, hr⟩, h', hf, hse⟩

/-- A phone that has the network and something to send can come to an open stream, with its queue unchanged. -/
theorem exists_flowing (h : Invariant rs) (hnet : rs.isNetworkEnabled = true)
    (hq : rs.syncEngine.queue ≠ []) :
    ∃ es rs' g, run step rs es = some rs' ∧ Invariant rs' ∧ rs'.Flowing g ∧
      rs'.syncEngine = rs.syncEngine := by
  have hp : rs.writePipeline ≠ [] := by
    rw [h.pipeline_eq hnet, Ne, window_eq_nil]
    exact hq
  cases h.mode with
  | stopped _ hp' => exact absurd hp' hp
  | waiting hws => exact flowing_of_waiting h hws
  | connecting old hws => exact flowing_of_connecting h hws
  | greeting g hws => exact flowing_of_open h hws.grpc hp
  | sending g done rest hws => exact flowing_of_open h hws.grpc hp

/-- A stream that sends can go on until the queue is empty. -/
theorem Flowing.drain {g : GrpcStream υ α} (hf : rs.Flowing g) (h : Invariant rs)
    {q : List (MutationBatch υ α)} (hq : rs.syncEngine.queue = q) :
    ∃ es rs', run step rs es = some rs' ∧ rs'.syncEngine.currentUser = rs.syncEngine.currentUser ∧
      rs'.syncEngine.queue = [] ∧
      rs'.syncEngine.settled = rs.syncEngine.settled ++ q.map fun b => (b, true) := by
  induction q generalizing rs g with
  | nil => exact ⟨[], rs, rfl, rfl, hq, by simp⟩
  | cons b q ih =>
    obtain ⟨rs₁, g₁, hr₁, h₁, hf₁, hse⟩ := hf.advance h hq
    have hq₁ : rs₁.syncEngine.queue = q := by
      rw [hse]
      exact SyncEngine.queue_dequeued h.consistent hq
    obtain ⟨es, rs', hr, huser, hempty, hsettled⟩ := ih hf₁ h₁ hq₁
    refine ⟨[.serve, .streamRead] ++ es, rs', run_append.2 ⟨rs₁, hr₁, hr⟩, ?_, hempty, ?_⟩
    · rw [huser, hse, SyncEngine.dequeued_currentUser]
    · rw [hsettled, hse]
      simp [SyncEngine.dequeued]

/-- No state that is reached is a dead end: with the network enabled, every write that is in the queue can
still be carried out and acknowledged, in order. -/
theorem queue_can_drain {user : υ} {es : List (StoreEvent υ α)}
    (hr : run step (installed user) es = some rs) (hnet : rs.isNetworkEnabled = true) :
    ∃ es' rs', run step rs es' = some rs' ∧
      rs'.syncEngine.currentUser = rs.syncEngine.currentUser ∧ rs'.syncEngine.queue = [] ∧
      rs'.syncEngine.settled = rs.syncEngine.settled ++ rs.syncEngine.queue.map fun b => (b, true) := by
  obtain ⟨h, -⟩ := reached hr
  by_cases hq : rs.syncEngine.queue = []
  · exact ⟨[], rs, rfl, rfl, hq, by simp [hq]⟩
  · obtain ⟨es₁, rs₁, g, hr₁, h₁, hf, hse⟩ := exists_flowing h hnet hq
    obtain ⟨es₂, rs', hr₂, huser, hempty, hsettled⟩ := hf.drain h₁ (congrArg SyncEngine.queue hse)
    refine ⟨es₁ ++ es₂, rs', run_append.2 ⟨rs₁, hr₁, hr₂⟩, ?_, hempty, ?_⟩
    · rw [huser, hse]
    · rw [hsettled, hse]

theorem queue_can_drain_brokenOnce :
    ∃ rs, run step (installed 0) brokenOnce = some rs ∧ rs.syncEngine.queue ≠ [] ∧
      ∃ es' rs', run step rs es' = some rs' ∧ rs'.syncEngine.queue = [] := by
  have h : (run step (installed 0) brokenOnce).any (fun rs =>
      rs.isNetworkEnabled && decide (rs.syncEngine.queue ≠ [])) = true := by decide +kernel
  obtain ⟨rs, hr, hnet⟩ := (Option.any_eq_true _ _).1 h
  rw [Bool.and_eq_true, decide_eq_true_iff] at hnet
  obtain ⟨es', rs', hr', -, hempty, -⟩ := queue_can_drain hr hnet.1
  exact ⟨rs, hr, hnet.2, es', rs', hr', hempty⟩

end RemoteStore

end Datability
