import Datability.Proofs.SyncEngineProofs

/-!
# Proofs: the operations of the write stream

What each operation of `RemoteStore` amounts to in the states in which it is called, assertions
included: `fillWritePipeline` extends the pipeline to the first `kMaxPendingWrites` batches of the queue
and starts the stream if that is needed, a stop leaves no trace of the stream, and a batch that is
settled is the head of its queue.
-/

namespace Datability

open Transition

theorem Status.not_refuses_ok : ¬ Status.ok.Refuses := by decide

/-- No status but OK trips the assertion of `IsPermanentWriteError`. -/
theorem Status.isPermanentWriteError_eq {status : Status} (h : status ≠ .ok) :
    status.isPermanentWriteError = .ok (decide status.Refuses) := by
  cases status <;> first | exact absurd rfl h | decide

namespace WriteStream

variable {υ α : Type*} {ws : WriteStream υ α}

/-- The stream takes writes. -/
def isReady (ws : WriteStream υ α) : Bool := ws.isOpen ∧ ws.handshakeComplete

theorem isReady_iff : ws.isReady = true ↔ ws.isOpen = true ∧ ws.handshakeComplete = true := by
  simp [isReady]

/-- Send batches if the stream takes them. -/
def sent (ws : WriteStream υ α) (bs : List (MutationBatch υ α)) : WriteStream υ α :=
  if ws.isReady ∧ bs ≠ [] then
    { ws with
      idlenessTimer := false
      grpcStream := ws.grpcStream.map fun g => { g with requests := g.requests ++ bs.map .mutations } }
  else ws

@[simp] theorem sent_nil : ws.sent [] = ws := by simp [sent]

theorem sent_of_not_ready (h : ¬ ws.isReady = true) (bs : List (MutationBatch υ α)) :
    ws.sent bs = ws := by
  simp [sent, h]

/-- Sending is the same in one go or in two. -/
theorem sent_append (bs cs : List (MutationBatch υ α)) : (ws.sent bs).sent cs = ws.sent (bs ++ cs) := by
  by_cases hready : ws.isReady = true
  · cases bs with
    | nil => simp
    | cons b bs =>
      cases cs with
      | nil => simp
      | cons c cs =>
        have hready' : (ws.sent (b :: bs)).isReady = true := by
          rw [sent, if_pos ⟨hready, by simp⟩]
          exact hready
        rw [sent, if_pos ⟨hready', by simp⟩, sent, if_pos ⟨hready, by simp⟩, sent,
          if_pos ⟨hready, by simp⟩]
        simp [Function.comp_def]
  · rw [sent_of_not_ready hready, sent_of_not_ready hready, sent_of_not_ready hready]

theorem writeMutations_eq (h : ws.isReady = true) (b : MutationBatch υ α) :
    ws.writeMutations b = .ok (ws.sent [b]) := by
  obtain ⟨hopen, hshake⟩ := isReady_iff.1 h
  simp [writeMutations, write, hopen, hshake, sent, h, GrpcStream.send]

/-- `WriteMutations` for each batch in turn trips no assertion on a stream that takes writes. -/
theorem foldlM_writeMutations (h : ws.isReady = true) (bs : List (MutationBatch υ α)) :
    bs.foldlM writeMutations ws = .ok (ws.sent bs) := by
  induction bs generalizing ws with
  | nil => rw [sent_nil]; rfl
  | cons b bs ih =>
    have hready : (ws.sent [b]).isReady = true := by
      rw [sent, if_pos ⟨h, by simp⟩]
      exact h
    rw [List.foldlM_cons, writeMutations_eq h]
    refine (ih hready).trans ?_
    rw [sent_append, List.singleton_append]

/-- Start the stream, after a delay if it has failed. -/
def restarted (ws : WriteStream υ α) : WriteStream υ α :=
  if ws.state = .error then { ws with state := .backoff, backoffTimer := true }
  else { ws with state := .starting }.requestCredentials

theorem isStarted_eq_false :
    ws.isStarted = false ↔ ws.state = .initial ∨ ws.state = .error := by
  cases h : ws.state <;> simp [isStarted, isOpen, h]

/-- `Start` on a stream that is not started. -/
theorem start_eq (h : ws.isStarted = false) : ws.start = .ok ws.restarted := by
  rcases isStarted_eq_false.1 h with h | h <;> simp [start, restarted, h, backoffAndTryRestarting]

theorem inhibitBackoff_eq (h : ws.isStarted = false) :
    ws.inhibitBackoff = .ok { ws with state := .initial } := by
  simp [inhibitBackoff, h]

/-- The stream is closed. -/
def halted (ws : WriteStream υ α) (status : Status) : WriteStream υ α :=
  (ws.reset status).clearHandshake

/-- The listener restarts the stream before the handshake is forgotten; the order does not matter. -/
theorem clearHandshake_restarted : ws.restarted.clearHandshake = ws.clearHandshake.restarted := by
  rw [restarted, restarted]
  by_cases h : ws.state = .error <;> simp [h, clearHandshake, requestCredentials]

theorem reset_isStarted (status : Status) : (ws.reset status).isStarted = false := by
  rw [isStarted_eq_false, reset]
  by_cases h : status = .ok <;> simp [h]

end WriteStream

namespace RemoteStore

variable {υ α : Type*} [DecidableEq υ] {rs rs' : RemoteStore υ α}

section SetStream

variable (rs) (ws : WriteStream υ α)

omit [DecidableEq υ]

@[simp] theorem setStream_syncEngine : (rs.setStream ws).syncEngine = rs.syncEngine := rfl

@[simp] theorem setStream_writeStream : (rs.setStream ws).writeStream = ws := rfl

@[simp] theorem setStream_isNetworkEnabled :
    (rs.setStream ws).isNetworkEnabled = rs.isNetworkEnabled := rfl

@[simp] theorem setStream_writePipeline : (rs.setStream ws).writePipeline = rs.writePipeline := rfl

@[simp] theorem setStream_applied : (rs.setStream ws).applied = rs.applied := rfl

@[simp] theorem setStream_refused : (rs.setStream ws).refused = rs.refused := rfl

end SetStream

/-- The first batches of the queue in use, as many as may be pending at a time. -/
def window (rs : RemoteStore υ α) : List (MutationBatch υ α) := rs.syncEngine.queue.take kMaxPendingWrites

/-- Add batches to the pipeline, and send them if the stream takes them. -/
def pushed (rs : RemoteStore υ α) (bs : List (MutationBatch υ α)) : RemoteStore υ α :=
  { rs with writePipeline := rs.writePipeline ++ bs, writeStream := rs.writeStream.sent bs }

omit [DecidableEq υ] in
@[simp] theorem pushed_nil : rs.pushed [] = rs := by simp [pushed]

omit [DecidableEq υ] in
theorem pushed_append (bs cs : List (MutationBatch υ α)) :
    (rs.pushed bs).pushed cs = rs.pushed (bs ++ cs) := by
  simp [pushed, WriteStream.sent_append]

/-! ## Filling the pipeline -/

omit [DecidableEq υ] in
/-- `AddToWritePipeline` has room, and sends the batch if the stream takes it. -/
theorem addToWritePipeline_eq (hadd : rs.canAddToWritePipeline = true) (b : MutationBatch υ α) :
    rs.addToWritePipeline b = .ok (rs.pushed [b]) := by
  rw [addToWritePipeline, if_pos hadd]
  by_cases hready : rs.writeStream.isReady = true
  · simp only [WriteStream.isReady_iff.1 hready, and_self, if_true, WriteStream.writeMutations_eq hready]
    rfl
  · rw [WriteStream.isReady_iff] at hready
    simp only [if_neg hready]
    rw [pushed, WriteStream.sent_of_not_ready (by rwa [WriteStream.isReady_iff])]

omit [DecidableEq υ] in
/-- In a queue ordered by id, the batch after those up to `last` is the first of the rest. -/
theorem find_next {p rest : List (MutationBatch υ α)} {last : ℤ} (hp : ∀ b ∈ p, b.batchId ≤ last)
    (hrest : ∀ b ∈ rest, last < b.batchId) :
    (p ++ rest).find? (fun b => last + 1 ≤ b.batchId) = rest.head? := by
  have hnone : p.find? (fun b => decide (last + 1 ≤ b.batchId)) = none := by
    rw [List.find?_eq_none]
    intro b hb
    have := hp b hb
    simp only [decide_eq_true_eq, not_le]
    omega
  rw [List.find?_append, hnone, Option.none_or]
  cases rest with
  | nil => rfl
  | cons b rest =>
    have := hrest b List.mem_cons_self
    rw [List.find?_cons_of_pos (by simp only [decide_eq_true_eq]; omega)]
    rfl

/-- The loop takes batches off the rest of the queue until the pipeline is full. -/
theorem fillLoop_eq {fuel : ℕ} {last : ℤ} {rest : List (MutationBatch υ α)}
    (hnet : rs.isNetworkEnabled = true) (hqueue : rs.syncEngine.queue = rs.writePipeline ++ rest)
    (hsorted : rs.syncEngine.queue.Pairwise fun a b => a.batchId < b.batchId)
    (hp : ∀ b ∈ rs.writePipeline, b.batchId ≤ last) (hrest : ∀ b ∈ rest, last < b.batchId)
    (hfuel : kMaxPendingWrites ≤ rs.writePipeline.length + fuel) :
    fillLoop fuel rs last =
      .ok (if rs.syncEngine.queue = [] then rs.setStream rs.writeStream.markIdle
        else rs.pushed (rest.take (kMaxPendingWrites - rs.writePipeline.length))) := by
  induction fuel generalizing rs last rest with
  | zero =>
    have hfull : kMaxPendingWrites - rs.writePipeline.length = 0 := by omega
    have hne : rs.syncEngine.queue ≠ [] := by
      intro hnil
      rw [hqueue, List.append_eq_nil_iff] at hnil
      simp [hnil.1, kMaxPendingWrites] at hfuel
    rw [fillLoop, if_neg hne, hfull, List.take_zero, pushed_nil]
  | succ fuel ih =>
    rw [fillLoop]
    by_cases hfull : rs.writePipeline.length < kMaxPendingWrites
    · have hadd : rs.canAddToWritePipeline = true := by
        simp [canAddToWritePipeline, canUseNetwork, hnet, hfull]
      rw [if_pos hadd, SyncEngine.getNextMutationBatch, hqueue, find_next hp hrest]
      cases rest with
      | nil => simp only [List.head?_nil, List.append_nil, List.take_nil, pushed_nil, List.isEmpty_iff]
      | cons b rest =>
        obtain ⟨hb, hlast⟩ : (∀ c ∈ rest, b.batchId < c.batchId) ∧
            ∀ c ∈ rs.writePipeline, c.batchId < b.batchId := by
          rw [hqueue, List.pairwise_append] at hsorted
          exact ⟨(List.pairwise_cons.1 hsorted.2.1).1, fun c hc => hsorted.2.2 c hc b List.mem_cons_self⟩
        have hqueue' : (rs.pushed [b]).syncEngine.queue = (rs.pushed [b]).writePipeline ++ rest := by
          simp [pushed, hqueue]
        have hlen : (rs.pushed [b]).writePipeline.length = rs.writePipeline.length + 1 := by simp [pushed]
        have hp' : ∀ c ∈ (rs.pushed [b]).writePipeline, c.batchId ≤ b.batchId := by
          intro c hc
          rcases List.mem_append.1 hc with hc | hc
          · exact (hlast c hc).le
          · rw [List.mem_singleton.1 hc]
        have hne : (rs.pushed [b]).syncEngine.queue ≠ [] := by
          rw [hqueue']
          simp [pushed]
        have hloop := @ih (rs.pushed [b]) _ _ hnet hqueue' hsorted hp' hb (by omega)
        have hroom : kMaxPendingWrites - rs.writePipeline.length =
            kMaxPendingWrites - (rs.pushed [b]).writePipeline.length + 1 := by omega
        rw [if_neg hne, pushed_append, List.singleton_append, ← List.take_succ_cons, ← hroom] at hloop
        have hne' : rs.writePipeline ++ b :: rest ≠ [] := by simp
        simp only [List.head?_cons]
        rw [if_neg hne', addToWritePipeline_eq hadd]
        exact hloop
    · have hadd : ¬ rs.canAddToWritePipeline = true := by simp [canAddToWritePipeline, hfull]
      have hne : rs.syncEngine.queue ≠ [] := by
        intro hnil
        rw [hqueue, List.append_eq_nil_iff] at hnil
        simp [hnil.1, kMaxPendingWrites] at hfull
      have hzero : kMaxPendingWrites - rs.writePipeline.length = 0 := by omega
      rw [if_neg hadd, if_neg hne, hzero, List.take_zero, pushed_nil]

/-- The pipeline is filled up, and the stream is started if it is needed. -/
def refilled (rs : RemoteStore υ α) : RemoteStore υ α :=
  { rs with
    writePipeline := rs.window
    writeStream :=
      if rs.writeStream.isStarted then
        if rs.window = [] then rs.writeStream.markIdle
        else rs.writeStream.sent (rs.window.drop rs.writePipeline.length)
      else if rs.window = [] then rs.writeStream
      else rs.writeStream.restarted }

theorem window_eq_nil : rs.window = [] ↔ rs.syncEngine.queue = [] := by
  simp [window, kMaxPendingWrites]

omit [DecidableEq υ] in
theorem isReady_of_not_started {ws : WriteStream υ α} (h : ws.isStarted = false) :
    ¬ ws.isReady = true := by
  rcases WriteStream.isStarted_eq_false.1 h with h | h <;>
    simp [WriteStream.isReady, WriteStream.isOpen, h]

omit [DecidableEq υ] in
theorem markIdle_of_not_started {ws : WriteStream υ α} (h : ws.isStarted = false) :
    ws.markIdle = ws := by
  rcases WriteStream.isStarted_eq_false.1 h with h | h <;>
    simp [WriteStream.markIdle, WriteStream.isOpen, h]

omit [DecidableEq υ] in
theorem sent_isStarted (ws : WriteStream υ α) (bs : List (MutationBatch υ α)) :
    (ws.sent bs).isStarted = ws.isStarted := by
  rw [WriteStream.sent]
  split <;> rfl

/-- The ids up to the last batch of the pipeline are those of the pipeline. -/
theorem lastBatchIdRetrieved_spec (hc : rs.syncEngine.Consistent) {rest : List (MutationBatch υ α)}
    (hqueue : rs.syncEngine.queue = rs.writePipeline ++ rest) :
    (∀ b ∈ rs.writePipeline,
      b.batchId ≤ (rs.writePipeline.getLast?.map MutationBatch.batchId).getD kBatchIdUnknown) ∧
    ∀ b ∈ rest, (rs.writePipeline.getLast?.map MutationBatch.batchId).getD kBatchIdUnknown < b.batchId := by
  have hsorted : rs.syncEngine.queue.Pairwise fun a b => a.batchId < b.batchId :=
    hc.sorted_queueOf _
  rcases List.eq_nil_or_concat rs.writePipeline with hnil | ⟨p, l, hp⟩
  · refine ⟨by simp [hnil], fun b hb => ?_⟩
    have hmem : b ∈ rs.syncEngine.queue := by
      rw [hqueue]
      exact List.mem_append_right _ hb
    have := hc.pos b (SyncEngine.mem_queue.1 hmem).1
    simp only [hnil, List.getLast?_nil, Option.map_none, Option.getD_none, kBatchIdUnknown]
    omega
  · rw [hqueue, hp, List.concat_eq_append, List.pairwise_append, List.pairwise_append] at hsorted
    obtain ⟨⟨-, -, hlast⟩, -, hrest⟩ := hsorted
    simp only [hp, List.concat_eq_append, List.getLast?_append, List.getLast?_singleton, Option.some_or,
      Option.map_some, Option.getD_some]
    refine ⟨fun b hb => ?_, fun b hb => hrest l (by simp) b hb⟩
    rcases List.mem_append.1 hb with hb | hb
    · exact (hlast b hb l (List.mem_singleton_self l)).le
    · rw [List.mem_singleton.1 hb]

/-- Where the pipeline is a part of the window, `FillWritePipeline` makes it the window. -/
theorem fillWritePipeline_eq (hc : rs.syncEngine.Consistent) (hnet : rs.isNetworkEnabled = true)
    {bs : List (MutationBatch υ α)} (hwindow : rs.window = rs.writePipeline ++ bs) :
    rs.fillWritePipeline = .ok rs.refilled := by
  have hlen : rs.writePipeline.length ≤ kMaxPendingWrites := by
    have := congrArg List.length hwindow
    simp only [window, List.length_take, List.length_append] at this
    omega
  obtain ⟨rest, hqueue, hbs⟩ : ∃ rest, rs.syncEngine.queue = rs.writePipeline ++ rest ∧
      rest.take (kMaxPendingWrites - rs.writePipeline.length) = bs := by
    refine ⟨bs ++ rs.syncEngine.queue.drop kMaxPendingWrites, ?_, ?_⟩
    · rw [← List.append_assoc, ← hwindow, window, List.take_append_drop]
    · have htake : rs.writePipeline ++ bs = (rs.writePipeline ++ (bs ++
          rs.syncEngine.queue.drop kMaxPendingWrites)).take kMaxPendingWrites := by
        rw [← List.append_assoc, ← hwindow, window, List.take_append_drop]
      rw [List.take_append, List.take_of_length_le hlen] at htake
      exact (List.append_cancel_left htake).symm
  obtain ⟨hp, hrest⟩ := lastBatchIdRetrieved_spec hc hqueue
  have hloop := fillLoop_eq hnet hqueue (hc.sorted_queueOf _) hp hrest (Nat.le_add_left _ _)
  rw [hbs] at hloop
  rw [fillWritePipeline, hloop]
  have hdrop : rs.window.drop rs.writePipeline.length = bs := by
    rw [hwindow, List.drop_left]
  by_cases hempty : rs.syncEngine.queue = []
  · have hnil : rs.window = [] := window_eq_nil.2 hempty
    obtain ⟨hpnil, -⟩ := List.append_eq_nil_iff.1 (hwindow.symm.trans hnil)
    have hstart : ¬ ((rs.setStream rs.writeStream.markIdle).shouldStartWriteStream = true) := by
      simp [shouldStartWriteStream, hpnil]
    simp only [if_pos hempty]
    change (if _ then _ else _) = _
    have hrefilled : rs.refilled = rs.setStream rs.writeStream.markIdle := by
      cases hstarted : rs.writeStream.isStarted with
      | true => simp [refilled, hnil, hstarted, setStream, hpnil]
      | false => simp [refilled, hnil, hstarted, setStream, hpnil, markIdle_of_not_started hstarted]
    rw [if_neg hstart, hrefilled]
    rfl
  · have hne : rs.window ≠ [] := fun h => hempty (window_eq_nil.1 h)
    have hpushed : (rs.pushed bs).writePipeline = rs.window := hwindow.symm
    simp only [if_neg hempty]
    change (if _ then _ else _) = _
    cases hstarted : rs.writeStream.isStarted with
    | true =>
      have hstart : ¬ ((rs.pushed bs).shouldStartWriteStream = true) := by
        simp [shouldStartWriteStream, pushed, sent_isStarted, hstarted]
      rw [if_neg hstart, refilled, hstarted, if_pos rfl, if_neg hne, hdrop, hwindow]
      rfl
    | false =>
      have hstart : (rs.pushed bs).shouldStartWriteStream = true := by
        simp only [shouldStartWriteStream, hpushed, canUseNetwork]
        simp [pushed, sent_isStarted, hstarted, hnet, hne]
      have hsame : rs.writeStream.sent bs = rs.writeStream :=
        WriteStream.sent_of_not_ready (isReady_of_not_started hstarted) bs
      rw [if_pos hstart, startWriteStream, if_pos hstart, refilled, hstarted]
      simp only [pushed, hsame, WriteStream.start_eq hstarted, hwindow, Bool.false_eq_true, if_false]
      rw [if_neg (hwindow ▸ hne)]
      rfl

/-- Without a network nothing is filled in. -/
theorem fillWritePipeline_offline (hnet : rs.isNetworkEnabled = false) :
    rs.fillWritePipeline = .ok rs := by
  have hadd : ¬ rs.canAddToWritePipeline = true := by simp [canAddToWritePipeline, canUseNetwork, hnet]
  have hstart : ¬ rs.shouldStartWriteStream = true := by
    simp [shouldStartWriteStream, canUseNetwork, hnet]
  rw [fillWritePipeline, kMaxPendingWrites, fillLoop, if_neg hadd]
  exact if_neg hstart

/-! ## Closing -/

omit [DecidableEq υ] in
theorem not_shouldStart (h : rs.isNetworkEnabled = false ∨ rs.writePipeline = []) :
    ¬ rs.shouldStartWriteStream = true := by
  rcases h with h | h <;> simp [shouldStartWriteStream, canUseNetwork, h]

/-- The listener is told that the stream is closed, and starts it again if it is still needed. -/
theorem close_of_started {status : Status} (hstarted : rs.writeStream.isStarted = true) :
    rs.close status =
      ((rs.setStream (rs.writeStream.reset status)).onWriteStreamClose status).map fun rs =>
        rs.setStream rs.writeStream.clearHandshake := by
  rw [close, if_neg (by simp [hstarted]), if_neg (by simp [hstarted])]
  cases (rs.setStream (rs.writeStream.reset status)).onWriteStreamClose status <;> rfl

/-- A graceful close of a stream that is not needed any more. -/
theorem close_graceful (hstarted : rs.writeStream.isStarted = true)
    (h : rs.isNetworkEnabled = false ∨ rs.writePipeline = []) :
    rs.close .ok = .ok (rs.setStream (rs.writeStream.halted .ok)) := by
  have hstart : ¬ ((rs.setStream (rs.writeStream.reset .ok)).shouldStartWriteStream = true) :=
    not_shouldStart h
  have herror : (rs.setStream (rs.writeStream.reset .ok)).handleError .ok =
      .ok (rs.setStream (rs.writeStream.reset .ok)) := if_neg (by simp)
  rw [close_of_started hstarted, onWriteStreamClose, if_neg (by simp [hstart]), herror]
  change Except.map _ (if _ then _ else _) = _
  rw [if_neg hstart]
  rfl

/-- A graceful close of a stream that is still needed trips the assertion of `OnWriteStreamClose`. -/
theorem close_needed (hstarted : rs.writeStream.isStarted = true) (hnet : rs.isNetworkEnabled = true)
    (h : rs.writePipeline ≠ []) : rs.close .ok = .error .stoppedWhileNeeded := by
  have hstart : (rs.setStream (rs.writeStream.reset .ok)).shouldStartWriteStream = true := by
    simp [shouldStartWriteStream, canUseNetwork, hnet, WriteStream.reset_isStarted, h]
  rw [close_of_started hstarted, onWriteStreamClose, if_pos ⟨rfl, hstart⟩]
  rfl

/-- A stream that fails is started again after a delay if there is something to send. -/
def failed (rs : RemoteStore υ α) (status : Status) : RemoteStore υ α :=
  rs.setStream
    (if rs.writePipeline = [] then rs.writeStream.halted status
    else (rs.writeStream.halted status).restarted)

/-- An error that rejects no batch: there is none, the handshake is not done, or the status is not permanent. -/
theorem close_failed {status : Status} (hstarted : rs.writeStream.isStarted = true)
    (hnet : rs.isNetworkEnabled = true) (hstatus : status ≠ .ok)
    (h : rs.writePipeline = [] ∨ rs.writeStream.handshakeComplete = false ∨ ¬ status.Refuses) :
    rs.close status = .ok (rs.failed status) := by
  have hreset : (rs.writeStream.reset status).isStarted = false := WriteStream.reset_isStarted status
  have herror : (rs.setStream (rs.writeStream.reset status)).handleError status =
      .ok (rs.setStream (rs.writeStream.reset status)) := by
    rw [handleError]
    split
    · next hp =>
      by_cases hs : rs.writeStream.handshakeComplete = true
      · have hrefuses : ¬ status.Refuses := by
          rcases h with h | h | h
          · simp [h] at hp
          · simp [hs] at h
          · exact h
        have hperm : status.isPermanentWriteError = .ok false := by
          rw [Status.isPermanentWriteError_eq hstatus, decide_eq_false hrefuses]
        have hs' : (rs.setStream (rs.writeStream.reset status)).writeStream.handshakeComplete = true := hs
        rw [if_pos hs', handleWriteError, if_neg hstatus, hperm]
      · have hs' : ¬ (rs.setStream (rs.writeStream.reset status)).writeStream.handshakeComplete = true := hs
        rw [if_neg hs', handleHandshakeError, if_neg hstatus]
    · rfl
  rw [close_of_started hstarted, onWriteStreamClose, if_neg (by simp [hstatus]), herror, failed]
  change Except.map _ (if _ then _ else _) = _
  by_cases hp : rs.writePipeline = []
  · have hstart : ¬ (rs.setStream (rs.writeStream.reset status)).shouldStartWriteStream = true :=
      not_shouldStart (.inr hp)
    rw [if_neg hstart, if_pos hp]
    rfl
  · have hstart : (rs.setStream (rs.writeStream.reset status)).shouldStartWriteStream = true := by
      simp [shouldStartWriteStream, canUseNetwork, hnet, hreset, hp]
    rw [if_pos hstart, startWriteStream, if_pos hstart, if_neg hp, setStream_writeStream,
      WriteStream.start_eq hreset, WriteStream.halted, ← WriteStream.clearHandshake_restarted]
    rfl

/-- What is left of a store whose first batch is refused. -/
def rejected (rs : RemoteStore υ α) (status : Status) (b : MutationBatch υ α)
    (rest : List (MutationBatch υ α)) : RemoteStore υ α :=
  { rs with
    writePipeline := rest
    writeStream := { rs.writeStream.halted status with state := .initial }
    syncEngine := rs.syncEngine.dequeued b false }

/-- The batches of the window after the first stay in it when the first is settled. -/
theorem window_dequeued (hc : rs.syncEngine.Consistent) {b : MutationBatch υ α}
    {rest : List (MutationBatch υ α)} (hp : rs.window = b :: rest) (ok : Bool) :
    ∃ q bs, rs.syncEngine.queue = b :: q ∧ (rs.syncEngine.dequeued b ok).queue = q ∧
      q.take kMaxPendingWrites = rest ++ bs := by
  cases hq : rs.syncEngine.queue with
  | nil => simp [window, hq] at hp
  | cons c q =>
    rw [window, hq, kMaxPendingWrites, List.take_succ_cons] at hp
    obtain ⟨rfl, rfl⟩ := List.cons.inj hp
    refine ⟨q, (q.drop 9).take 1, rfl, SyncEngine.queue_dequeued hc hq, ?_⟩
    rw [kMaxPendingWrites, ← List.take_add]

theorem refilled_clearHandshake (h : rs.writeStream.isStarted = false) :
    rs.refilled.setStream rs.refilled.writeStream.clearHandshake =
      (rs.setStream rs.writeStream.clearHandshake).refilled := by
  have h' : rs.writeStream.clearHandshake.isStarted = false := h
  have hwindow : (rs.setStream rs.writeStream.clearHandshake).window = rs.window := rfl
  simp only [refilled, h, h', hwindow, setStream_writeStream, Bool.false_eq_true, if_false]
  by_cases hw : rs.window = []
  · simp only [if_pos hw]
    rfl
  · simp only [if_neg hw, WriteStream.clearHandshake_restarted]
    rfl

/-- `FillWritePipeline` has started the stream if it is needed, so `OnWriteStreamClose` does not start it again. -/
theorem refilled_not_shouldStart (h : rs.writeStream.isStarted = false) :
    ¬ rs.refilled.shouldStartWriteStream = true := by
  by_cases hw : rs.window = []
  · exact not_shouldStart (.inr hw)
  · have hstarted : rs.refilled.writeStream.isStarted = true := by
      simp only [refilled, h, Bool.false_eq_true, if_false, if_neg hw]
      rw [WriteStream.restarted]
      split <;> simp [WriteStream.isStarted, WriteStream.requestCredentials]
    simp [shouldStartWriteStream, hstarted]

/-- A permanent error after the handshake rejects the first batch of the pipeline, and the pipeline is filled up
from what is left of the queue. -/
theorem close_refused {status : Status} (hc : rs.syncEngine.Consistent)
    (hstarted : rs.writeStream.isStarted = true) (hnet : rs.isNetworkEnabled = true)
    (hshake : rs.writeStream.handshakeComplete = true) (hstatus : status.Refuses)
    {b : MutationBatch υ α} {rest : List (MutationBatch υ α)} (hp : rs.writePipeline = b :: rest)
    (hw : rs.writePipeline = rs.window) :
    rs.close status = .ok (rs.rejected status b rest).refilled := by
  have hok : status ≠ .ok := by
    rintro rfl
    exact Status.not_refuses_ok hstatus
  obtain ⟨q, bs, hq, hq', hbs⟩ := window_dequeued hc (hw.symm.trans hp) false
  have hb : b ∈ rs.syncEngine.queue := by simp [hq]
  -- the store while the listener is told, when the handshake still counts as complete
  obtain ⟨mid, hmid⟩ : ∃ mid : RemoteStore υ α, mid = { rs with
      writePipeline := rest
      writeStream := { rs.writeStream.reset status with state := .initial }
      syncEngine := rs.syncEngine.dequeued b false } := ⟨_, rfl⟩
  have hmidStarted : mid.writeStream.isStarted = false := by
    rw [hmid, WriteStream.isStarted_eq_false]
    exact .inl rfl
  have hmidWindow : mid.window = mid.writePipeline ++ bs := by
    rw [hmid, window, hq', hbs]
  have hfill : mid.fillWritePipeline = .ok mid.refilled :=
    fillWritePipeline_eq (by rw [hmid]; exact hc.dequeued hq false) (by rw [hmid]; exact hnet) hmidWindow
  have hshake' : (rs.setStream (rs.writeStream.reset status)).writeStream.handshakeComplete = true := hshake
  have herror : (rs.setStream (rs.writeStream.reset status)).handleError status = .ok mid.refilled := by
    have hperm : status.isPermanentWriteError = .ok true := hstatus
    rw [handleError, if_pos ⟨hok, by simp [hp]⟩, if_pos hshake', handleWriteError, if_neg hok, hperm]
    simp only [setStream_writePipeline, hp, setStream_writeStream, setStream_syncEngine]
    rw [WriteStream.inhibitBackoff_eq (WriteStream.reset_isStarted status),
      SyncEngine.handleRejectedWrite_eq hb, ← hfill, hmid]
    rfl
  rw [close_of_started hstarted, onWriteStreamClose, if_neg (by simp [hok]), herror]
  change Except.map _ (if _ then _ else _) = _
  rw [if_neg (refilled_not_shouldStart hmidStarted)]
  change Except.ok (mid.refilled.setStream mid.refilled.writeStream.clearHandshake) = _
  rw [refilled_clearHandshake hmidStarted, hmid]
  rfl

/-! ## Restarting the network -/

/-- The store without a stream and without a network. -/
def silenced (rs : RemoteStore υ α) : RemoteStore υ α :=
  { rs with
    isNetworkEnabled := false
    writePipeline := []
    writeStream := if rs.writeStream.isStarted then rs.writeStream.halted .ok else rs.writeStream }

/-- Without a network the stream is not needed, so `DisableNetwork` trips no assertion. -/
theorem disableNetwork_eq (rs : RemoteStore υ α) : rs.disableNetwork = .ok rs.silenced := by
  rw [disableNetwork, disableNetworkInternal, stop, silenced]
  cases h : rs.writeStream.isStarted with
  | true =>
    have h' : { rs with isNetworkEnabled := false }.writeStream.isStarted = true := h
    rw [close_graceful h' (.inl rfl)]
    rfl
  | false =>
    have h' : { rs with isNetworkEnabled := false }.writeStream.isStarted = false := h
    rw [close, if_pos ⟨rfl, h'⟩]
    rfl

omit [DecidableEq υ] in
theorem silenced_isStarted : rs.silenced.writeStream.isStarted = false := by
  rw [silenced]
  cases h : rs.writeStream.isStarted with
  | true => exact @WriteStream.reset_isStarted _ _ rs.writeStream .ok
  | false => exact h

/-- The store as it starts over, with the network and without a stream. -/
def rewound (rs : RemoteStore υ α) : RemoteStore υ α :=
  { rs.silenced with
    isNetworkEnabled := true
    writeStream := { rs.silenced.writeStream with state := .initial } }

/-- `RestartNetwork` starts over with the queue of the current user. -/
theorem restartNetwork_eq (hc : rs.syncEngine.Consistent) :
    rs.restartNetwork = .ok rs.rewound.refilled := by
  have hdisable : { rs with isNetworkEnabled := false }.disableNetworkInternal = .ok rs.silenced :=
    disableNetwork_eq rs
  rw [restartNetwork, hdisable]
  change (do let writeStream ← rs.silenced.writeStream.inhibitBackoff; _ : Except _ _) = _
  rw [WriteStream.inhibitBackoff_eq silenced_isStarted]
  have hwindow : rs.rewound.window = rs.rewound.writePipeline ++ rs.rewound.window := rfl
  exact fillWritePipeline_eq hc rfl hwindow

theorem enableNetwork_eq (hc : rs.syncEngine.Consistent) {bs : List (MutationBatch υ α)}
    (hwindow : rs.window = rs.writePipeline ++ bs) :
    rs.enableNetwork = .ok { rs with isNetworkEnabled := true }.refilled :=
  @fillWritePipeline_eq _ _ _ { rs with isNetworkEnabled := true } hc rfl _ hwindow

end RemoteStore

end Datability
