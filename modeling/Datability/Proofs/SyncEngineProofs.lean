import Datability.RemoteStore
import Mathlib.Data.List.Basic
import Mathlib.Data.List.Nodup
import Mathlib.Tactic.Common

/-!
# Proofs: mutation queues and completions

`Consistent` is what every operation on the mutation queues keeps. Ids are given out anew after a change
of users and after a launch, so the order of a queue, the identity of its batches and the completion that
belongs to a batch all rest on the next id being above those of all batches that are left.
-/

namespace Datability

namespace SyncEngine

variable {υ α : Type*} [DecidableEq υ] {se : SyncEngine υ α} {b : MutationBatch υ α}
  {rest : List (MutationBatch υ α)} {ok : Bool} {user : υ}

/-- What a table of mutation queues looks like: ids are positive, below the next one, and ascending in
each queue; the batches of a user that were issued are those that were settled, followed by those in the
queue; and a completion that is still to be called belongs to a batch in a queue. -/
structure Consistent (se : SyncEngine υ α) : Prop where
  pos : ∀ b ∈ se.rows, 0 < b.batchId
  below : ∀ b ∈ se.rows, b.batchId < se.nextBatchId
  next_pos : 0 < se.nextBatchId
  sorted : se.rows.Pairwise fun a b => a.user = b.user → a.batchId < b.batchId
  ledger : ∀ u, se.issued.filter (fun b => b.user = u) =
    (se.settled.map Prod.fst).filter (fun b => b.user = u) ++ se.queueOf u
  serials : se.issued.map MutationBatch.serial = List.range se.issued.length
  callbacks : ∀ c ∈ se.mutationCallbacks, ∃ b ∈ se.rows, c = ((b.user, b.batchId), b.serial)
  notified : ∀ n ∈ se.notified, ∃ b, (b, n.2) ∈ se.settled ∧ b.serial = n.1
  nodup : (se.notified.map Prod.fst).Nodup

theorem mem_queueOf {u : υ} : b ∈ se.queueOf u ↔ b ∈ se.rows ∧ b.user = u := by
  simp [queueOf]

theorem mem_queue : b ∈ se.queue ↔ b ∈ se.rows ∧ b.user = se.currentUser := mem_queueOf

/-- The ids of one queue ascend. -/
theorem Consistent.sorted_queueOf (h : se.Consistent) (u : υ) :
    (se.queueOf u).Pairwise fun a b => a.batchId < b.batchId := by
  refine (List.Pairwise.filter _ h.sorted).imp_of_mem ?_
  intro a b ha hb hab
  exact hab ((mem_queueOf.1 ha).2.trans (mem_queueOf.1 hb).2.symm)

/-- The ids in a queue tell its batches apart. -/
theorem Consistent.eq_of_batchId (h : se.Consistent) {a : MutationBatch υ α} (ha : a ∈ se.rows)
    (hb : b ∈ se.rows) (huser : a.user = b.user) (hid : a.batchId = b.batchId) : a = b := by
  refine List.Pairwise.forall_of_forall_of_flip
    (R := fun a b : MutationBatch υ α => a.user = b.user → a.batchId = b.batchId → a = b)
    (fun _ _ _ _ => rfl) (h.sorted.imp ?_) (h.sorted.imp ?_) ha hb huser hid
  · intro a b hlt huser hid
    exact absurd hid (hlt huser).ne
  · intro a b hlt huser hid
    exact absurd hid (hlt huser.symm).ne'

/-! ## Settling the head of the queue -/

/-- The batch leaves the queue, and its completion is called. -/
def dequeued (se : SyncEngine υ α) (b : MutationBatch υ α) (ok : Bool) : SyncEngine υ α :=
  { se.notifyUser b.batchId ok with
    rows := se.rows.filter fun c => ¬ (c.user = se.currentUser ∧ c.batchId = b.batchId)
    settled := se.settled ++ [(b, ok)] }

theorem notifyUser_eq (se : SyncEngine υ α) (batchId : ℤ) (ok : Bool) :
    se.notifyUser batchId ok = { se with
      mutationCallbacks := (se.notifyUser batchId ok).mutationCallbacks
      notified := (se.notifyUser batchId ok).notified } := by
  unfold notifyUser
  split <;> rfl

theorem notifyUser_with (se : SyncEngine υ α) (batchId : ℤ) (ok : Bool)
    (rows : List (MutationBatch υ α)) (settled : List (MutationBatch υ α × Bool)) :
    { se with rows := rows, settled := settled }.notifyUser batchId ok =
      { se.notifyUser batchId ok with rows := rows, settled := settled } := by
  cases hfind : se.mutationCallbacks.find? fun c => decide (c.1 = (se.currentUser, batchId)) <;>
    simp [notifyUser, hfind]

theorem lookup_isSome (hb : b ∈ se.queue) : (se.lookupMutationBatch b.batchId).isSome = true := by
  rw [lookupMutationBatch, List.find?_isSome]
  exact ⟨b, hb, by simp⟩

/-- `HandleSuccessfulWrite` calls the completion before it removes the batch. -/
theorem handleSuccessfulWrite_eq (hb : b ∈ se.queue) :
    se.handleSuccessfulWrite b = .ok (se.dequeued b true) := by
  have hlookup : (((se.notifyUser b.batchId true).noteSettled b true).lookupMutationBatch
      b.batchId).isSome = true := by
    refine lookup_isSome ?_
    rw [notifyUser_eq]
    exact hb
  rw [handleSuccessfulWrite, removeMutationBatch, if_pos hlookup, dequeued, notifyUser_eq]
  rfl

/-- `HandleRejectedWrite` removes the batch before it calls the completion; the outcome is the same. -/
theorem handleRejectedWrite_eq (hb : b ∈ se.queue) :
    se.handleRejectedWrite b = .ok (se.dequeued b false) := by
  have hlookup : ((se.noteSettled b false).lookupMutationBatch b.batchId).isSome = true :=
    lookup_isSome hb
  rw [handleRejectedWrite, removeMutationBatch, if_pos hlookup, dequeued, ← notifyUser_with]
  rfl

/-- The queues of the other users stay as they are, also where they use the same id. -/
theorem queueOf_dequeued_of_ne {u : υ} (hu : u ≠ se.currentUser) :
    (se.dequeued b ok).queueOf u = se.queueOf u := by
  rw [dequeued, queueOf, queueOf, List.filter_filter]
  refine List.filter_congr fun c _ => ?_
  by_cases hc : c.user = u
  · simp [hc, hu]
  · simp [hc]

@[simp] theorem dequeued_currentUser : (se.dequeued b ok).currentUser = se.currentUser := by
  rw [dequeued, notifyUser_eq]

@[simp] theorem dequeued_issued : (se.dequeued b ok).issued = se.issued := by
  rw [dequeued, notifyUser_eq]

@[simp] theorem dequeued_nextBatchId : (se.dequeued b ok).nextBatchId = se.nextBatchId := by
  rw [dequeued, notifyUser_eq]

/-- The ids ascend, so nothing but the head goes. -/
theorem queue_dequeued (h : se.Consistent) (hq : se.queue = b :: rest) :
    (se.dequeued b ok).queue = rest := by
  have hfilter : (se.dequeued b ok).queue = se.queue.filter fun c => c.batchId ≠ b.batchId := by
    rw [queue, dequeued_currentUser, dequeued, queueOf, queue, queueOf, List.filter_filter,
      List.filter_filter]
    refine List.filter_congr fun c _ => ?_
    by_cases hc : c.user = se.currentUser <;> simp [hc]
  have hsorted := h.sorted_queueOf se.currentUser
  rw [show se.queueOf se.currentUser = b :: rest from hq, List.pairwise_cons] at hsorted
  rw [hfilter, hq, List.filter_cons_of_neg (by simp), List.filter_eq_self]
  intro c hc
  simpa using (hsorted.1 c hc).ne'

/-! ## What the operations keep -/

/-- Both what is queued and what is settled was issued. -/
theorem Consistent.mem_issued_of_row (h : se.Consistent) (hb : b ∈ se.rows) : b ∈ se.issued := by
  have hmem : b ∈ se.issued.filter fun c => c.user = b.user := by
    rw [h.ledger]
    exact List.mem_append_right _ (mem_queueOf.2 ⟨hb, rfl⟩)
  exact (List.mem_filter.1 hmem).1

theorem Consistent.mem_issued_of_settled (h : se.Consistent) (hb : (b, ok) ∈ se.settled) :
    b ∈ se.issued := by
  have hmem : b ∈ se.issued.filter fun c => c.user = b.user := by
    rw [h.ledger]
    exact List.mem_append_left _
      (List.mem_filter.2 ⟨List.mem_map_of_mem (f := Prod.fst) hb, by simp⟩)
  exact (List.mem_filter.1 hmem).1

theorem Consistent.nodup_issued (h : se.Consistent) : (se.issued.map MutationBatch.serial).Nodup := by
  rw [h.serials]
  exact List.nodup_range

/-- Unlike ids, serials are not given out twice. -/
theorem Consistent.eq_of_serial (h : se.Consistent) {a : MutationBatch υ α} (ha : a ∈ se.issued)
    (hb : b ∈ se.issued) (hs : a.serial = b.serial) : a = b :=
  List.inj_on_of_nodup_map h.nodup_issued ha hb hs

/-- A batch that was settled is in no queue. -/
theorem Consistent.not_mem_rows (h : se.Consistent) (hb : (b, ok) ∈ se.settled) : b ∉ se.rows := by
  intro hrow
  have hnodup : (se.issued.filter fun c => c.user = b.user).Nodup :=
    (List.Nodup.of_map _ h.nodup_issued).filter _
  rw [h.ledger, List.nodup_append] at hnodup
  exact hnodup.2.2 b (List.mem_filter.2 ⟨List.mem_map_of_mem (f := Prod.fst) hb, by simp⟩) b
    (mem_queueOf.2 ⟨hrow, rfl⟩) rfl

/-- The completion of a batch in the queue has not been called. -/
theorem Consistent.not_notified (h : se.Consistent) (hb : b ∈ se.rows) :
    b.serial ∉ se.notified.map Prod.fst := by
  intro hmem
  obtain ⟨n, hn, hserial⟩ := List.mem_map.1 hmem
  obtain ⟨c, hc, hcn⟩ := h.notified n hn
  obtain rfl : c = b :=
    h.eq_of_serial (h.mem_issued_of_settled hc) (h.mem_issued_of_row hb) (hcn.trans hserial)
  exact h.not_mem_rows hc hb

/-- The completions of the writes from the `start`-th on are not forgotten. -/
structure Notifies (start : ℕ) (se : SyncEngine υ α) : Prop where
  waiting : ∀ b ∈ se.rows, start ≤ b.serial → ((b.user, b.batchId), b.serial) ∈ se.mutationCallbacks
  called : ∀ p ∈ se.settled, start ≤ p.1.serial → (p.1.serial, p.2) ∈ se.notified

/-- The next id is free, so a write never overwrites the completion of another one. -/
theorem Consistent.no_callback (h : se.Consistent) :
    (se.mutationCallbacks.any fun c => c.1 = (se.currentUser, se.nextBatchId)) = false := by
  rw [List.any_eq_false]
  intro c hc
  obtain ⟨b, hb, rfl⟩ := h.callbacks c hc
  have := h.below b hb
  simp only [decide_eq_true_eq, Prod.mk.injEq, not_and]
  omega

/-- The batch that a write puts into the queue. -/
def nextBatch (se : SyncEngine υ α) (mutations : List α) : MutationBatch υ α :=
  ⟨se.currentUser, se.nextBatchId, mutations, se.issued.length⟩

theorem addMutationBatch_eq (h : se.Consistent) (mutations : List α) :
    se.addMutationBatch mutations = { se with
      rows := se.rows ++ [se.nextBatch mutations]
      nextBatchId := se.nextBatchId + 1
      mutationCallbacks :=
        se.mutationCallbacks ++ [((se.currentUser, se.nextBatchId), se.issued.length)]
      issued := se.issued ++ [se.nextBatch mutations] } := by
  rw [addMutationBatch, h.no_callback]
  rfl

theorem queueOf_addMutationBatch (se : SyncEngine υ α) (mutations : List α) (u : υ) :
    (se.addMutationBatch mutations).queueOf u =
      se.queueOf u ++ if se.currentUser = u then [se.nextBatch mutations] else [] := by
  rw [addMutationBatch, queueOf, queueOf, List.filter_append]
  by_cases hu : se.currentUser = u <;> simp [hu, nextBatch]

/-- A write keeps the tables consistent: its id is above all ids that are left. -/
theorem Consistent.addMutationBatch (h : se.Consistent) (mutations : List α) :
    (se.addMutationBatch mutations).Consistent := by
  have hledger : ∀ u, (se.issued ++ [se.nextBatch mutations]).filter (fun b => b.user = u) =
      (se.settled.map Prod.fst).filter (fun b => b.user = u) ++
        (se.addMutationBatch mutations).queueOf u := by
    intro u
    rw [List.filter_append, h.ledger, queueOf_addMutationBatch, List.append_assoc]
    by_cases hu : se.currentUser = u <;> simp [hu, nextBatch]
  rw [addMutationBatch_eq h] at hledger ⊢
  refine ⟨?_, ?_, Int.lt_add_one_of_le h.next_pos.le, ?_, hledger, ?_, ?_, h.notified, h.nodup⟩
  · intro b hb
    rcases List.mem_append.1 hb with hb | hb
    · exact h.pos b hb
    · rw [List.mem_singleton.1 hb]
      exact h.next_pos
  · intro b hb
    rcases List.mem_append.1 hb with hb | hb
    · have := h.below b hb
      dsimp only
      omega
    · rw [List.mem_singleton.1 hb]
      exact Int.lt_succ _
  · rw [List.pairwise_append]
    refine ⟨h.sorted, List.pairwise_singleton _ _, fun a ha b hb _ => ?_⟩
    rw [List.mem_singleton.1 hb]
    exact h.below a ha
  · simp [h.serials, nextBatch, List.range_succ]
  · intro c hc
    rcases List.mem_append.1 hc with hc | hc
    · obtain ⟨b, hb, rfl⟩ := h.callbacks c hc
      exact ⟨b, List.mem_append_left _ hb, rfl⟩
    · rw [List.mem_singleton.1 hc]
      exact ⟨se.nextBatch mutations, List.mem_append_right _ (List.mem_singleton_self _), rfl⟩

theorem Notifies.addMutationBatch {start : ℕ} (hn : Notifies start se) (h : se.Consistent)
    (mutations : List α) : Notifies start (se.addMutationBatch mutations) := by
  rw [addMutationBatch_eq h]
  refine ⟨fun b hb hstart => ?_, hn.called⟩
  rcases List.mem_append.1 hb with hb | hb
  · exact List.mem_append_left _ (hn.waiting b hb hstart)
  · rw [List.mem_singleton.1 hb]
    exact List.mem_append_right _ (List.mem_singleton_self _)

/-- The completion that `NotifyUser` finds for a batch in the queue is its own. -/
theorem Consistent.notifyUser_cases (h : se.Consistent) (hb : b ∈ se.queue) (ok : Bool) :
    ((∀ c ∈ se.mutationCallbacks, c.1 ≠ (se.currentUser, b.batchId)) ∧
        se.notifyUser b.batchId ok = se) ∨
      se.notifyUser b.batchId ok = { se with
        mutationCallbacks := se.mutationCallbacks.filter fun c => c.1 ≠ (se.currentUser, b.batchId)
        notified := se.notified ++ [(b.serial, ok)] } := by
  obtain ⟨hrow, huser⟩ := mem_queue.1 hb
  unfold notifyUser
  split
  · next hfind => exact .inl ⟨by simpa using List.find?_eq_none.1 hfind, rfl⟩
  · next callback hfind =>
    refine .inr ?_
    obtain ⟨c, hc, rfl⟩ := h.callbacks callback (List.mem_of_find?_eq_some hfind)
    have hkey : (c.user, c.batchId) = (se.currentUser, b.batchId) := by
      simpa using List.find?_some hfind
    obtain ⟨hcu, hcid⟩ := Prod.mk.inj hkey
    obtain rfl : c = b := h.eq_of_batchId hc hrow (hcu.trans huser.symm) hcid
    rfl

/-! What is left of the rows, the settled batches and the completions when the head of the queue is
settled. -/

theorem mem_rows_dequeued {c : MutationBatch υ α} : c ∈ (se.dequeued b ok).rows ↔
    c ∈ se.rows ∧ (c.user, c.batchId) ≠ (se.currentUser, b.batchId) := by
  simp [dequeued, imp_iff_not_or]

/-- The batch has moved from the head of its queue to the end of the settled ones. -/
theorem Consistent.ledger_dequeued (h : se.Consistent) (hq : se.queue = b :: rest) (ok : Bool) (u : υ) :
    se.issued.filter (fun c => c.user = u) =
      ((se.settled ++ [(b, ok)]).map Prod.fst).filter (fun c => c.user = u) ++
        (se.dequeued b ok).queueOf u := by
  have huser : b.user = se.currentUser := (mem_queue.1 (by simp [hq])).2
  rw [h.ledger, List.map_append, List.filter_append, List.append_assoc]
  by_cases hu : u = se.currentUser
  · subst hu
    have hrest : (se.dequeued b ok).queueOf se.currentUser = rest := by
      have hqueue : (se.dequeued b ok).queue = rest := queue_dequeued h hq
      rwa [queue, dequeued_currentUser] at hqueue
    rw [hrest, show se.queueOf se.currentUser = b :: rest from hq]
    simp [huser]
  · rw [queueOf_dequeued_of_ne hu]
    simp [huser, Ne.symm hu]

/-- No completion is left under the id of the batch. -/
theorem Consistent.callbacks_dequeued (h : se.Consistent) (hb : b ∈ se.queue) (ok : Bool) :
    (se.dequeued b ok).mutationCallbacks =
      se.mutationCallbacks.filter fun c => c.1 ≠ (se.currentUser, b.batchId) := by
  rcases h.notifyUser_cases hb ok with ⟨hnone, hsame⟩ | hcalled
  · have hself : se.mutationCallbacks.filter (fun c => c.1 ≠ (se.currentUser, b.batchId)) =
        se.mutationCallbacks := List.filter_eq_self.2 (by simpa using hnone)
    rw [hself]
    simp only [SyncEngine.dequeued, hsame]
  · simp only [SyncEngine.dequeued, hcalled]

/-- The completion of the batch is called, unless it was lost with an earlier process. -/
theorem Consistent.notified_dequeued (h : se.Consistent) (hb : b ∈ se.queue) (ok : Bool) :
    ((∀ c ∈ se.mutationCallbacks, c.1 ≠ (se.currentUser, b.batchId)) ∧
        (se.dequeued b ok).notified = se.notified) ∨
      (se.dequeued b ok).notified = se.notified ++ [(b.serial, ok)] := by
  rcases h.notifyUser_cases hb ok with ⟨hnone, hsame⟩ | hcalled
  · exact .inl ⟨hnone, by simp only [SyncEngine.dequeued, hsame]⟩
  · exact .inr (by simp only [SyncEngine.dequeued, hcalled])

/-- A completion that was called belongs to a settled batch, the last one included. -/
theorem Consistent.settled_of_notified (h : se.Consistent) (hb : b ∈ se.queue) (ok : Bool) :
    ∀ n ∈ (se.dequeued b ok).notified, ∃ c, (c, n.2) ∈ se.settled ++ [(b, ok)] ∧ c.serial = n.1 := by
  have hold : ∀ n ∈ se.notified, ∃ c, (c, n.2) ∈ se.settled ++ [(b, ok)] ∧ c.serial = n.1 := by
    intro n hn
    obtain ⟨c, hc, hcn⟩ := h.notified n hn
    exact ⟨c, List.mem_append_left _ hc, hcn⟩
  intro n hn
  rcases h.notified_dequeued hb ok with ⟨-, hsame⟩ | hcalled
  · rw [hsame] at hn
    exact hold n hn
  · rw [hcalled, List.mem_append, List.mem_singleton] at hn
    rcases hn with hn | rfl
    · exact hold n hn
    · exact ⟨b, List.mem_append_right _ (List.mem_singleton_self _), rfl⟩

/-- The batch was in a queue, so its completion is called for the first time. -/
theorem Consistent.nodup_dequeued (h : se.Consistent) (hb : b ∈ se.queue) (ok : Bool) :
    ((se.dequeued b ok).notified.map Prod.fst).Nodup := by
  rcases h.notified_dequeued hb ok with ⟨-, hsame⟩ | hcalled
  · rw [hsame]
    exact h.nodup
  · rw [hcalled, List.map_append, List.nodup_append]
    refine ⟨h.nodup, List.nodup_singleton _, ?_⟩
    intro n hn m hm
    rw [List.mem_singleton.1 hm]
    rintro rfl
    exact h.not_notified (mem_queue.1 hb).1 hn

/-- Settling the head of the queue keeps the tables consistent. -/
theorem Consistent.dequeued (h : se.Consistent) (hq : se.queue = b :: rest) (ok : Bool) :
    (se.dequeued b ok).Consistent := by
  have hb : b ∈ se.queue := by simp [hq]
  refine ⟨?_, ?_, ?_, h.sorted.filter _, ?_, ?_, ?_, h.settled_of_notified hb ok, h.nodup_dequeued hb ok⟩
  · intro c hc
    exact h.pos c (mem_rows_dequeued.1 hc).1
  · intro c hc
    rw [dequeued_nextBatchId]
    exact h.below c (mem_rows_dequeued.1 hc).1
  · rw [dequeued_nextBatchId]
    exact h.next_pos
  · intro u
    rw [dequeued_issued]
    exact h.ledger_dequeued hq ok u
  · rw [dequeued_issued]
    exact h.serials
  · intro c hc
    rw [h.callbacks_dequeued hb, List.mem_filter] at hc
    obtain ⟨d, hd, rfl⟩ := h.callbacks c hc.1
    exact ⟨d, mem_rows_dequeued.2 ⟨hd, of_decide_eq_true hc.2⟩, rfl⟩

/-- A batch of this process has its completion until it is settled, and then the completion is called. -/
theorem Notifies.dequeued {start : ℕ} (hn : Notifies start se) (h : se.Consistent)
    (hb : b ∈ se.queue) (ok : Bool) : Notifies start (se.dequeued b ok) := by
  obtain ⟨hrow, huser⟩ := mem_queue.1 hb
  refine ⟨fun c hc hstart => ?_, fun p hp hstart => ?_⟩
  · obtain ⟨hc, hkey⟩ := mem_rows_dequeued.1 hc
    rw [h.callbacks_dequeued hb, List.mem_filter]
    exact ⟨hn.waiting c hc hstart, decide_eq_true hkey⟩
  · rcases List.mem_append.1 hp with hp | hp
    · rcases h.notified_dequeued hb ok with ⟨-, hsame⟩ | hcalled
      · rw [hsame]
        exact hn.called p hp hstart
      · rw [hcalled]
        exact List.mem_append_left _ (hn.called p hp hstart)
    · rw [List.mem_singleton.1 hp] at hstart ⊢
      rcases h.notified_dequeued hb ok with ⟨hnone, -⟩ | hcalled
      · have hne := hnone _ (hn.waiting b hrow hstart)
        simp [huser] at hne
      · rw [hcalled]
        exact List.mem_append_right _ (List.mem_singleton_self _)

omit [DecidableEq υ] in
/-- The maximum that `LoadNextBatchIdFromDb` computes over the rows. -/
theorem foldl_max_spec (rows : List (MutationBatch υ α)) (start : ℤ) :
    start ≤ rows.foldl (fun m b => max m b.batchId) start ∧
      ∀ b ∈ rows, b.batchId ≤ rows.foldl (fun m b => max m b.batchId) start := by
  induction rows generalizing start with
  | nil => simp
  | cons b rows ih =>
    obtain ⟨hstart, hrows⟩ := ih (max start b.batchId)
    refine ⟨(le_max_left _ _).trans hstart, fun c hc => ?_⟩
    rcases List.mem_cons.1 hc with rfl | hc
    · exact (le_max_right _ _).trans hstart
    · exact hrows c hc

omit [DecidableEq υ] in
theorem lt_loadNextBatchIdFromDb (hb : b ∈ se.rows) : b.batchId < se.loadNextBatchIdFromDb :=
  Int.lt_add_one_of_le ((foldl_max_spec se.rows 0).2 b hb)

omit [DecidableEq υ] in
theorem loadNextBatchIdFromDb_pos : 0 < se.loadNextBatchIdFromDb :=
  Int.lt_add_one_of_le (foldl_max_spec se.rows 0).1

/-- The next id may fall back, but stays above those of all batches that are left. -/
theorem Consistent.handleUserChange (h : se.Consistent) (user : υ) :
    (se.handleUserChange user).Consistent where
  pos := h.pos
  below _ hb := lt_loadNextBatchIdFromDb hb
  next_pos := loadNextBatchIdFromDb_pos
  sorted := h.sorted
  ledger := h.ledger
  serials := h.serials
  callbacks := h.callbacks
  notified := h.notified
  nodup := h.nodup

/-- A launch forgets all completions. -/
theorem Consistent.relaunched (h : se.Consistent) (user : υ) : (se.relaunched user).Consistent :=
  { h.handleUserChange user with callbacks := by simp [SyncEngine.relaunched] }

end SyncEngine

end Datability
