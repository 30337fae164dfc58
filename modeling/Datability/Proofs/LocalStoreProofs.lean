import Mathlib.Data.Int.Cast.Basic
import Datability.LocalStore
import Datability.Proofs.TransitionProofs

/-!
# Proofs: the local store

The loops of `RecalculateAndSaveOverlays` treat each document on its own: what becomes of a document is what
the pending batches that change it make of it, and its overlay is saved with the last of them. So in every
run an overlay belongs to the last pending batch of its document, and is gone when there is none.
-/

namespace Datability

namespace Firestore

variable {κ δ : Type*} [DecidableEq κ]

theorem MutationBatch.mem_keys {batch : MutationBatch κ δ} {key : κ} :
    key ∈ batch.keys ↔ ∃ m ∈ batch.mutations, m.key = key := by
  rw [MutationBatch.keys, List.mem_dedup, List.mem_map]

theorem MutationBatch.nodup_keys {batch : MutationBatch κ δ} : batch.keys.Nodup := List.nodup_dedup _

namespace LocalStore

variable [DecidableEq δ] [BEq δ] [Add δ] [IntCast δ] {ls : LocalStore κ δ} {key : κ}
  {docs : κ → Option (MutableDocument κ δ)} {r : Recalculation κ δ}

/-! ## Recalculation -/

/-- What the recalculation has found for a document: the document, the changed fields and the ids of the
batches applied to it. -/
structure At (r : Recalculation κ δ) (key : κ) (s : MutableDocument κ δ × Option FieldMask) (ids : List ℤ) :
    Prop where
  doc : r.docs key = some s.1
  mask : (r.masks key).getD (some []) = s.2
  known : ids ≠ [] → (r.masks key).isSome = true
  batches : (r.documentsByBatchId.filter fun e => e.2 = key).map Prod.fst = ids

/-- The recalculation does not touch a document that it was not given. -/
structure Absent (r : Recalculation κ δ) (key : κ) : Prop where
  doc : r.docs key = none
  batches : (r.documentsByBatchId.filter fun e => e.2 = key) = []

theorem recalculateDocument_at {s : MutableDocument κ δ × Option FieldMask} {ids : List ℤ}
    {batch : MutationBatch κ δ} (h : At r key s ids) :
    At (recalculateDocument batch r key) key (batch.applyToLocalView s.1 s.2) (ids ++ [batch.batchId]) := by
  rw [recalculateDocument, h.doc, h.mask]
  refine ⟨by simp, by simp, by simp, ?_⟩
  simp [h.batches]

theorem recalculateDocument_of_ne {batch : MutationBatch κ δ} {k : κ} (hk : k ≠ key) :
    (recalculateDocument batch r k).docs key = r.docs key ∧
      (recalculateDocument batch r k).masks key = r.masks key ∧
      ((recalculateDocument batch r k).documentsByBatchId.filter fun e => e.2 = key) =
        r.documentsByBatchId.filter fun e => e.2 = key := by
  rw [recalculateDocument]
  split
  · exact ⟨rfl, rfl, rfl⟩
  · refine ⟨Function.update_of_ne hk.symm _ _, Function.update_of_ne hk.symm _ _, ?_⟩
    simp [List.filter_append, hk]

theorem At.of_ne {s : MutableDocument κ δ × Option FieldMask} {ids : List ℤ} {batch : MutationBatch κ δ} {k : κ}
    (h : At r key s ids) (hk : k ≠ key) : At (recalculateDocument batch r k) key s ids := by
  obtain ⟨hdocs, hmasks, hbatches⟩ := @recalculateDocument_of_ne _ _ _ _ _ _ _ key r batch k hk
  exact ⟨hdocs ▸ h.doc, hmasks ▸ h.mask, hmasks ▸ h.known, hbatches ▸ h.batches⟩

theorem Absent.recalculateDocument {batch : MutationBatch κ δ} {k : κ} (h : Absent r key) :
    Absent (recalculateDocument batch r k) key := by
  by_cases hk : k = key
  · subst hk
    rw [LocalStore.recalculateDocument, h.doc]
    exact h
  · obtain ⟨hdocs, -, hbatches⟩ := @recalculateDocument_of_ne _ _ _ _ _ _ _ key r batch k hk
    exact ⟨hdocs ▸ h.doc, hbatches ▸ h.batches⟩

theorem foldl_recalculateDocument_of_not_mem {s : MutableDocument κ δ × Option FieldMask} {ids : List ℤ}
    {batch : MutationBatch κ δ} {ks : List κ} (h : At r key s ids) (hks : key ∉ ks) :
    At (ks.foldl (recalculateDocument batch) r) key s ids := by
  induction ks generalizing r with
  | nil => exact h
  | cons k ks ih =>
    rw [List.mem_cons, not_or] at hks
    exact ih (h.of_ne (Ne.symm hks.1)) hks.2

/-- A batch is applied to each document once. -/
theorem foldl_recalculateDocument {s : MutableDocument κ δ × Option FieldMask} {ids : List ℤ}
    {batch : MutationBatch κ δ} {ks : List κ} (h : At r key s ids) (hnodup : ks.Nodup) (hks : key ∈ ks) :
    At (ks.foldl (recalculateDocument batch) r) key (batch.applyToLocalView s.1 s.2)
      (ids ++ [batch.batchId]) := by
  induction ks generalizing r with
  | nil => simp at hks
  | cons k ks ih =>
    obtain ⟨hk, hnodup⟩ := List.nodup_cons.1 hnodup
    rw [List.foldl_cons]
    by_cases heq : k = key
    · subst heq
      exact foldl_recalculateDocument_of_not_mem (recalculateDocument_at h) hk
    · exact ih (h.of_ne heq) hnodup ((List.mem_cons.1 hks).resolve_left (Ne.symm heq))

theorem foldl_recalculateBatch {s : MutableDocument κ δ × Option FieldMask} {ids : List ℤ}
    {batches : List (MutationBatch κ δ)} (h : At r key s ids) :
    At (batches.foldl recalculateBatch r) key
      ((batches.filter fun b => key ∈ b.keys).foldl (fun s b => b.applyToLocalView s.1 s.2) s)
      (ids ++ (batches.filter fun b => key ∈ b.keys).map MutationBatch.batchId) := by
  induction batches generalizing r s ids with
  | nil => simpa using h
  | cons b batches ih =>
    rw [List.foldl_cons]
    by_cases hb : key ∈ b.keys
    · have hstep : At (recalculateBatch r b) key (b.applyToLocalView s.1 s.2) (ids ++ [b.batchId]) :=
        foldl_recalculateDocument h MutationBatch.nodup_keys hb
      rw [List.filter_cons_of_pos (by simpa using hb), List.foldl_cons, List.map_cons]
      simpa using ih hstep
    · have hstep : At (recalculateBatch r b) key s ids := foldl_recalculateDocument_of_not_mem h hb
      rw [List.filter_cons_of_neg (by simpa using hb)]
      exact ih hstep

theorem Absent.foldl_recalculateBatch {batches : List (MutationBatch κ δ)} (h : Absent r key) :
    Absent (batches.foldl recalculateBatch r) key := by
  induction batches generalizing r with
  | nil => exact h
  | cons b batches ih =>
    refine ih ?_
    rw [recalculateBatch]
    induction b.keys generalizing r with
    | nil => exact h
    | cons k ks ih' => exact ih' h.recalculateDocument

omit [DecidableEq δ] [BEq δ] [Add δ] [IntCast δ] in
/-- Only the overlays change when overlays are saved. -/
theorem saveLoop_eq {processed : List κ} {l : List (ℤ × κ)} :
    saveLoop r processed ls l =
      { ls with documentOverlayCache := (saveLoop r processed ls l).documentOverlayCache } := by
  induction l generalizing processed ls with
  | nil => rfl
  | cons e l ih =>
    rw [saveLoop]
    split_ifs
    · exact ih
    · rw [ih]
      rfl

omit [DecidableEq δ] [BEq δ] [Add δ] [IntCast δ] in
/-- The overlay of a document is the one that is found first. -/
theorem saveLoop_overlay {processed : List κ} {l : List (ℤ × κ)} :
    (saveLoop r processed ls l).documentOverlayCache key =
      if key ∈ processed then ls.documentOverlayCache key
      else (((l.filter fun e => e.2 = key).head?.bind fun e => ((r.docs key).bind fun doc =>
        Mutation.calculateOverlayMutation doc ((r.masks key).getD none)).map fun m =>
          (⟨e.1, m⟩ : Overlay κ δ))).or (ls.documentOverlayCache key) := by
  induction l generalizing processed ls with
  | nil => simp [saveLoop]
  | cons e l ih =>
    obtain ⟨batchId, k⟩ := e
    rw [saveLoop]
    by_cases hk : k = key
    · subst hk
      by_cases hp : k ∈ processed
      · rw [if_pos hp, ih, if_pos hp, if_pos hp]
      · rw [if_neg hp, ih, if_pos List.mem_cons_self, if_neg hp, List.filter_cons_of_pos (by simp)]
        simp only [saveOverlays, Function.update_self, List.head?_cons, Option.bind_some]
        cases (r.docs k).bind fun doc => Mutation.calculateOverlayMutation doc ((r.masks k).getD none) with
        | none => rfl
        | some m => rfl
    · have hsave : ∀ o, (ls.saveOverlays batchId (Function.update (fun _ => none) k o)).documentOverlayCache key =
          ls.documentOverlayCache key := by
        intro o
        rw [saveOverlays]
        simp only [Function.update_of_ne (Ne.symm hk)]
      rw [List.filter_cons_of_neg (by simpa using hk)]
      split_ifs with hp hp' hp'
      · rw [ih, if_pos hp']
      · rw [ih, if_neg hp']
      · rw [ih, if_pos (List.mem_cons_of_mem _ hp'), hsave]
      · rw [ih, if_neg (by simp [Ne.symm hk, hp']), hsave]

theorem recalculateAndSaveOverlays_eq :
    (ls.recalculateAndSaveOverlays docs).1 =
      { ls with documentOverlayCache := (ls.recalculateAndSaveOverlays docs).1.documentOverlayCache } :=
  saveLoop_eq

theorem recalculateAndSaveOverlays_absent (h : docs key = none) :
    (ls.recalculateAndSaveOverlays docs).1.documentOverlayCache key = ls.documentOverlayCache key := by
  have habsent : Absent (κ := κ) (δ := δ) { docs } key := ⟨h, rfl⟩
  have hr : Absent (ls.recalculateAndSaveOverlays docs).2 key := habsent.foldl_recalculateBatch
  change (saveLoop (ls.recalculateAndSaveOverlays docs).2 [] ls
    (ls.recalculateAndSaveOverlays docs).2.documentsByBatchId.reverse).documentOverlayCache key = _
  rw [saveLoop_overlay, if_neg List.not_mem_nil, hr.doc]
  simp

/-- The overlay with which a document and its pending batches are saved, if there is one. -/
def freshOverlay (ls : LocalStore κ δ) (key : κ) (doc : MutableDocument κ δ) : Option (Overlay κ δ) :=
  (ls.pending key).getLast?.bind fun batch =>
    (Mutation.calculateOverlayMutation (ls.replay key doc).1 (ls.replay key doc).2).map fun mutation =>
      ⟨batch.batchId, mutation⟩

omit [DecidableEq δ] [BEq δ] [Add δ] [IntCast δ] in
theorem filter_affecting {affected : κ → Bool} (h : affected key = true) :
    ((ls.allMutationBatchesAffectingDocumentKeys affected).filter fun b => key ∈ b.keys) = ls.pending key := by
  rw [allMutationBatchesAffectingDocumentKeys, pending, List.filter_filter]
  refine List.filter_congr fun b _ => ?_
  by_cases hb : key ∈ b.keys
  · have : b.keys.any affected = true := List.any_eq_true.2 ⟨key, hb, h⟩
    simp [hb, this]
  · simp [hb]

theorem recalculateAndSaveOverlays_at {doc : MutableDocument κ δ} (h : docs key = some doc) :
    At (ls.recalculateAndSaveOverlays docs).2 key (ls.replay key doc)
      ((ls.pending key).map MutationBatch.batchId) := by
  have hstart : At (κ := κ) (δ := δ) { docs } key (doc, some []) [] := ⟨h, rfl, by simp, rfl⟩
  have haffecting : ((ls.allMutationBatchesAffectingDocumentKeys fun key => (docs key).isSome).filter
      fun b => key ∈ b.keys) = ls.pending key := filter_affecting (by rw [h]; rfl)
  rw [replay, ← haffecting]
  exact foldl_recalculateBatch hstart

/-- The overlay of a document is calculated from its pending batches and saved with the last of them. If
there is nothing to overlay, the old overlay stays. -/
theorem recalculateAndSaveOverlays_overlay {doc : MutableDocument κ δ} (h : docs key = some doc) :
    (ls.recalculateAndSaveOverlays docs).1.documentOverlayCache key =
      (ls.freshOverlay key doc).or (ls.documentOverlayCache key) := by
  have hat : At (ls.recalculateAndSaveOverlays docs).2 key _ _ := recalculateAndSaveOverlays_at h
  have hhead : (((ls.recalculateAndSaveOverlays docs).2.documentsByBatchId.reverse.filter
      fun e => e.2 = key).head?).map Prod.fst = (ls.pending key).getLast?.map MutationBatch.batchId := by
    rw [List.filter_reverse, List.head?_reverse, ← List.getLast?_map, hat.batches, List.getLast?_map]
  change (saveLoop (ls.recalculateAndSaveOverlays docs).2 [] ls
    (ls.recalculateAndSaveOverlays docs).2.documentsByBatchId.reverse).documentOverlayCache key = _
  rw [saveLoop_overlay, if_neg List.not_mem_nil, hat.doc, freshOverlay]
  congr 1
  cases hlast : (ls.pending key).getLast? with
  | none =>
    rw [hlast, Option.map_none, Option.map_eq_none_iff] at hhead
    rw [hhead]
    rfl
  | some b =>
    rw [hlast, Option.map_some, Option.map_eq_some_iff] at hhead
    obtain ⟨e, he, hid⟩ := hhead
    have hne : (ls.pending key).map MutationBatch.batchId ≠ [] := by
      intro hnil
      rw [List.map_eq_nil_iff] at hnil
      simp [hnil] at hlast
    obtain ⟨mask, hmask⟩ := Option.isSome_iff_exists.1 (hat.known hne)
    have hmask' : mask = (ls.replay key doc).2 := by
      rw [← hat.mask, hmask]
      rfl
    rw [he, hmask, Option.bind_some, Option.bind_some, Option.bind_some, Option.getD_some, hmask', hid]

/-! ## Local mutations -/

section Preconditions

variable {doc : MutableDocument κ δ} {mask : Option FieldMask} {now : Timestamp} {m : Mutation κ δ}
  {batch : MutationBatch κ δ}

omit [DecidableEq κ] in
theorem applyToLocalView_of_invalid (h : m.precondition.isValidFor doc = false) :
    m.applyToLocalView doc mask now = (doc, mask) := by
  cases m <;> (rw [Mutation.applyToLocalView, if_neg]; rw [Bool.not_eq_true]; exact h)

omit [DecidableEq κ] in
theorem hasLocalMutations_of_valid (h : m.precondition.isValidFor doc = true) :
    (m.applyToLocalView doc mask now).1.hasLocalMutations = true := by
  cases m <;> (rw [Mutation.applyToLocalView, if_pos (by exact h)]; rfl)

omit [DecidableEq κ] in
theorem hasLocalMutations_applyToLocalView (h : doc.hasLocalMutations = true) :
    (m.applyToLocalView doc mask now).1.hasLocalMutations = true := by
  by_cases hvalid : m.precondition.isValidFor doc = true
  · exact hasLocalMutations_of_valid hvalid
  · rw [applyToLocalView_of_invalid (Bool.eq_false_iff.2 hvalid)]
    exact h

omit [DecidableEq κ] in
theorem key_applyToLocalView : (m.applyToLocalView doc mask now).1.key = doc.key := by
  cases m <;> (rw [Mutation.applyToLocalView]; split_ifs <;> rfl)

/-- The mutations of a batch that are applied to a document, with the time of the batch. -/
def mutationsOf (batch : MutationBatch κ δ) (key : κ) : List (Mutation κ δ × Timestamp) :=
  ((batch.baseMutations ++ batch.mutations).filter fun m => m.key = key).map fun m => (m, batch.localWriteTime)

theorem applyToLocalView_eq_replay :
    batch.applyToLocalView doc mask = Mutation.replay doc mask (mutationsOf batch doc.key) := by
  rw [MutationBatch.applyToLocalView, mutationsOf]
  induction batch.baseMutations ++ batch.mutations generalizing doc mask with
  | nil => rfl
  | cons m ms ih =>
    rw [List.foldl_cons]
    by_cases hkey : m.key = doc.key
    · rw [if_pos hkey, List.filter_cons_of_pos (by simpa using hkey), List.map_cons, Mutation.replay,
        List.foldl_cons, ← Mutation.replay]
      have hsame : (m.applyToLocalView doc mask batch.localWriteTime).1.key = doc.key := key_applyToLocalView
      rw [← hsame]
      exact ih
    · rw [if_neg hkey, List.filter_cons_of_neg (by simpa using hkey)]
      exact ih

omit [DecidableEq κ] in
theorem hasLocalMutations_replay {ms : List (Mutation κ δ × Timestamp)} (h : doc.hasLocalMutations = true) :
    (Mutation.replay doc mask ms).1.hasLocalMutations = true := by
  induction ms generalizing doc mask with
  | nil => exact h
  | cons m ms ih => exact ih (hasLocalMutations_applyToLocalView h)

theorem hasLocalMutations_batch (h : doc.hasLocalMutations = true) :
    (batch.applyToLocalView doc mask).1.hasLocalMutations = true := by
  rw [applyToLocalView_eq_replay]
  exact hasLocalMutations_replay h

/-- No mutation of the batch applies to the document. -/
def Idle (batch : MutationBatch κ δ) (doc : MutableDocument κ δ) : Prop :=
  doc.hasLocalMutations = false ∧ ∀ m ∈ mutationsOf batch doc.key, m.1.precondition.isValidFor doc = false

omit [DecidableEq κ] in
theorem replay_of_invalid {ms : List (Mutation κ δ × Timestamp)}
    (h : ∀ m ∈ ms, m.1.precondition.isValidFor doc = false) : Mutation.replay doc mask ms = (doc, mask) := by
  induction ms with
  | nil => rfl
  | cons m ms ih =>
    rw [Mutation.replay, List.foldl_cons, applyToLocalView_of_invalid (h m List.mem_cons_self)]
    exact ih fun a ha => h a (List.mem_cons_of_mem _ ha)

omit [DecidableEq κ] in
theorem invalid_of_hasLocalMutations {ms : List (Mutation κ δ × Timestamp)}
    (h : (Mutation.replay doc mask ms).1.hasLocalMutations = false) :
    ∀ m ∈ ms, m.1.precondition.isValidFor doc = false := by
  induction ms with
  | nil => simp
  | cons m ms ih =>
    rw [Mutation.replay, List.foldl_cons, ← Mutation.replay] at h
    have hinvalid : m.1.precondition.isValidFor doc = false := by
      by_contra hvalid
      rw [hasLocalMutations_replay (hasLocalMutations_of_valid (by simpa using hvalid))] at h
      simp at h
    rw [applyToLocalView_of_invalid hinvalid] at h
    intro a ha
    rcases List.mem_cons.1 ha with rfl | ha
    · exact hinvalid
    · exact ih h a ha

theorem Idle.applyToLocalView (h : Idle batch doc) : batch.applyToLocalView doc mask = (doc, mask) := by
  rw [applyToLocalView_eq_replay]
  exact replay_of_invalid h.2

/-- A document has local mutations after a batch unless none of its mutations applies. -/
theorem idle_of_hasLocalMutations (h : (batch.applyToLocalView doc mask).1.hasLocalMutations = false) :
    Idle batch doc := by
  refine ⟨?_, ?_⟩
  · by_contra hdoc
    rw [hasLocalMutations_batch (by simpa using hdoc)] at h
    simp at h
  · rw [applyToLocalView_eq_replay] at h
    exact invalid_of_hasLocalMutations h

omit [DecidableEq δ] [BEq δ] [Add δ] [IntCast δ] in
/-- Only whether a document exists matters for preconditions, and its version if it does. -/
theorem Idle.convertToNoDocument (h : Idle batch doc) (hdoc : doc.isValidDocument = false) :
    Idle batch (doc.convertToNoDocument 0) := by
  refine ⟨rfl, fun m hm => ?_⟩
  have hinvalid := h.2 m hm
  have htype : doc.documentType = .invalid := by simpa [MutableDocument.isValidDocument] using hdoc
  revert hinvalid
  cases m.1.precondition <;>
    simp [Precondition.isValidFor, MutableDocument.isFoundDocument, htype, MutableDocument.convertToNoDocument]

omit [DecidableEq κ] [DecidableEq δ] [BEq δ] [Add δ] [IntCast δ] in
theorem isSome_calculateOverlayMutation :
    (Mutation.calculateOverlayMutation doc mask).isSome = doc.hasLocalMutations := by
  rw [Mutation.calculateOverlayMutation.eq_def]
  cases doc.hasLocalMutations with
  | false => rfl
  | true =>
    cases mask with
    | none =>
      simp only [if_true]
      split_ifs <;> rfl
    | some mask => rfl

/-- The mutation is an overlay. -/
def Calculated (m : Mutation κ δ) : Prop :=
  ∃ doc mask, Mutation.calculateOverlayMutation doc mask = some m

omit [DecidableEq κ] [DecidableEq δ] [BEq δ] [Add δ] [IntCast δ] in
theorem Calculated.precondition (h : Calculated m) : m.precondition = .none := by
  obtain ⟨doc, mask, h⟩ := h
  cases mask with
  | none =>
    rw [Mutation.calculateOverlayMutation.eq_def] at h
    split_ifs at h <;> (obtain rfl := Option.some.inj h; rfl)
  | some mask =>
    rw [Mutation.calculateOverlayMutation.eq_def] at h
    split_ifs at h <;> (obtain rfl := Option.some.inj h; rfl)

omit [DecidableEq κ] [DecidableEq δ] [BEq δ] [Add δ] [IntCast δ] in
theorem Calculated.fieldTransforms (h : Calculated m) : m.fieldTransforms = [] := by
  obtain ⟨doc, mask, h⟩ := h
  cases mask with
  | none =>
    rw [Mutation.calculateOverlayMutation.eq_def] at h
    split_ifs at h <;> (obtain rfl := Option.some.inj h; rfl)
  | some mask =>
    rw [Mutation.calculateOverlayMutation.eq_def] at h
    split_ifs at h <;> (obtain rfl := Option.some.inj h; rfl)

omit [DecidableEq κ] in
/-- The time does not matter for an overlay, since it has no transforms. -/
theorem Calculated.applyToLocalView_time (h : Calculated m) (now' : Timestamp) :
    m.applyToLocalView doc mask now = m.applyToLocalView doc mask now' := by
  have ht := h.fieldTransforms
  cases m with
  | set key value precondition transforms =>
    obtain rfl : transforms = [] := ht
    rfl
  | patch key value fieldMask precondition transforms =>
    obtain rfl : transforms = [] := ht
    rfl
  | delete key precondition => rfl

omit [DecidableEq κ] in
theorem mask_applyToLocalView : (m.applyToLocalView doc none now).2 = none := by
  cases m <;> (rw [Mutation.applyToLocalView]; split_ifs <;> rfl)

omit [DecidableEq κ] in
theorem mask_replay {ms : List (Mutation κ δ × Timestamp)} : (Mutation.replay doc none ms).2 = none := by
  induction ms generalizing doc with
  | nil => rfl
  | cons m ms ih =>
    rw [Mutation.replay, List.foldl_cons, ← Mutation.replay, mask_applyToLocalView]
    exact ih

omit [DecidableEq κ] [DecidableEq δ] [BEq δ] [Add δ] [IntCast δ] in
/-- Where all the fields may have changed, the overlay sets or deletes the document. -/
theorem isPatch_of_none (h : Mutation.calculateOverlayMutation doc none = some m) : m.isPatch = false := by
  rw [Mutation.calculateOverlayMutation.eq_def] at h
  split_ifs at h <;> (obtain rfl := Option.some.inj h; rfl)

end Preconditions

/-! ## Writes -/

section Writes

variable {batch : MutationBatch κ δ} {s : (κ → Option (OverlayedDocument κ δ)) × (κ → Option (Mutation κ δ))}
  {ms : List (Mutation κ δ)} {overlayed : OverlayedDocument κ δ}

theorem applyToDocumentOf_of_ne (batch : MutationBatch κ δ)
    (s : (κ → Option (OverlayedDocument κ δ)) × (κ → Option (Mutation κ δ))) {m : Mutation κ δ} (h : m.key ≠ key) :
    (applyToDocumentOf batch s m).1 key = s.1 key ∧ (applyToDocumentOf batch s m).2 key = s.2 key := by
  rw [applyToDocumentOf]
  split
  · exact ⟨rfl, rfl⟩
  · exact ⟨Function.update_of_ne h.symm _ _, Function.update_of_ne h.symm _ _⟩

theorem applyToDocumentOf_of_eq (batch : MutationBatch κ δ) {m : Mutation κ δ} (h : s.1 m.key = some overlayed) :
    (applyToDocumentOf batch s m).1 m.key = some { overlayed with
      document := if (batch.applyToLocalView overlayed.document overlayed.mutatedFields).1.isValidDocument then
          (batch.applyToLocalView overlayed.document overlayed.mutatedFields).1
        else (batch.applyToLocalView overlayed.document overlayed.mutatedFields).1.convertToNoDocument 0 } ∧
    (applyToDocumentOf batch s m).2 m.key = (s.2 m.key).or (Mutation.calculateOverlayMutation
      (batch.applyToLocalView overlayed.document overlayed.mutatedFields).1
      (batch.applyToLocalView overlayed.document overlayed.mutatedFields).2) := by
  rw [applyToDocumentOf, h]
  exact ⟨Function.update_self .., Function.update_self ..⟩

theorem foldl_applyToDocumentOf_of_not_mem (batch : MutationBatch κ δ)
    (s : (κ → Option (OverlayedDocument κ δ)) × (κ → Option (Mutation κ δ))) (h : ∀ m ∈ ms, m.key ≠ key) :
    (ms.foldl (applyToDocumentOf batch) s).1 key = s.1 key ∧
      (ms.foldl (applyToDocumentOf batch) s).2 key = s.2 key := by
  induction ms generalizing s with
  | nil => exact ⟨rfl, rfl⟩
  | cons m ms ih =>
    obtain ⟨hdoc, hoverlay⟩ := ih (applyToDocumentOf batch s m) fun a ha => h a (List.mem_cons_of_mem _ ha)
    obtain ⟨hdoc', hoverlay'⟩ :=
      applyToDocumentOf_of_ne batch s (h m List.mem_cons_self)
    exact ⟨hdoc.trans hdoc', hoverlay.trans hoverlay'⟩

/-- An overlay that was found is kept. -/
theorem foldl_applyToDocumentOf_of_some {o : Mutation κ δ} (h : s.2 key = some o) :
    (ms.foldl (applyToDocumentOf batch) s).2 key = some o := by
  induction ms generalizing s with
  | nil => exact h
  | cons m ms ih =>
    refine ih ?_
    by_cases hkey : m.key = key
    · subst hkey
      cases hdoc : s.1 m.key with
      | none =>
        rw [applyToDocumentOf, hdoc]
        exact h
      | some overlayed =>
        rw [(applyToDocumentOf_of_eq batch hdoc).2, h]
        rfl
    · rw [(applyToDocumentOf_of_ne batch s hkey).2]
      exact h

/-- There is no overlay for a document to which no mutation applies, however often the batch is applied. -/
theorem foldl_applyToDocumentOf_of_idle (hs : s.1 key = some overlayed) (hidle : Idle batch overlayed.document)
    (h : s.2 key = none) : (ms.foldl (applyToDocumentOf batch) s).2 key = none := by
  induction ms generalizing s overlayed with
  | nil => exact h
  | cons m ms ih =>
    rw [List.foldl_cons]
    by_cases hkey : m.key = key
    · subst hkey
      obtain ⟨hdoc, hoverlay⟩ := applyToDocumentOf_of_eq batch hs
      have hnone : Mutation.calculateOverlayMutation overlayed.document overlayed.mutatedFields = none := by
        rw [← Option.not_isSome_iff_eq_none, isSome_calculateOverlayMutation, hidle.1]
        simp
      rw [hidle.applyToLocalView] at hdoc hoverlay
      rw [h, hnone] at hoverlay
      refine ih hdoc ?_ hoverlay
      simp only
      split_ifs with hvalid
      · exact hidle
      · exact hidle.convertToNoDocument (by simpa using hvalid)
    · obtain ⟨hdoc, hoverlay⟩ := applyToDocumentOf_of_ne batch s hkey
      exact ih (hdoc.trans hs) hidle (hoverlay.trans h)

/-- The overlay of a document is that of the document after the batch. -/
theorem applyToLocalDocumentSet_overlay {documentMap : κ → Option (OverlayedDocument κ δ)}
    (h : documentMap key = some overlayed) :
    (applyToLocalDocumentSet batch documentMap).2 key =
      if key ∈ batch.keys then
        Mutation.calculateOverlayMutation (batch.applyToLocalView overlayed.document overlayed.mutatedFields).1
          (batch.applyToLocalView overlayed.document overlayed.mutatedFields).2
      else none := by
  rw [applyToLocalDocumentSet]
  split_ifs with hkey
  · -- the first mutation of the document is the one that counts
    obtain ⟨m, hm, hmkey⟩ := MutationBatch.mem_keys.1 hkey
    obtain ⟨a, ha⟩ := Option.isSome_iff_exists.1
      (List.find?_isSome.2 ⟨m, hm, by simpa using hmkey⟩ : (batch.mutations.find? fun m => m.key = key).isSome)
    obtain ⟨hakey, before, rest, hsplit, hbefore⟩ := List.find?_eq_some_iff_append.1 ha
    obtain rfl : a.key = key := by simpa using hakey
    have hbefore' : ∀ b ∈ before, b.key ≠ a.key := fun b hb => by simpa using hbefore b hb
    obtain ⟨hdoc, hoverlay⟩ :=
      foldl_applyToDocumentOf_of_not_mem batch (documentMap, fun _ => none) hbefore'
    obtain ⟨hdoc', hoverlay'⟩ := applyToDocumentOf_of_eq batch (hdoc.trans h)
    rw [hsplit, List.foldl_append, List.foldl_cons]
    rw [hoverlay, Option.none_or] at hoverlay'
    cases hcalc : Mutation.calculateOverlayMutation
        (batch.applyToLocalView overlayed.document overlayed.mutatedFields).1
        (batch.applyToLocalView overlayed.document overlayed.mutatedFields).2 with
    | some o => exact foldl_applyToDocumentOf_of_some (hoverlay'.trans hcalc)
    | none =>
      have hlocal : (batch.applyToLocalView overlayed.document overlayed.mutatedFields).1.hasLocalMutations =
          false := by
        rw [← isSome_calculateOverlayMutation, hcalc]
        rfl
      have hidle := idle_of_hasLocalMutations hlocal
      rw [hidle.applyToLocalView] at hdoc'
      refine foldl_applyToDocumentOf_of_idle hdoc' ?_ (hoverlay'.trans hcalc)
      simp only
      split_ifs with hvalid
      · exact hidle
      · exact hidle.convertToNoDocument (by simpa using hvalid)
  · have hnot : ∀ m ∈ batch.mutations, m.key ≠ key := fun m hm heq =>
      hkey (MutationBatch.mem_keys.2 ⟨m, hm, heq⟩)
    rw [(foldl_applyToDocumentOf_of_not_mem _ _ hnot).2]

/-- The local view of a document from which a write starts. -/
def overlayedDocument (ls : LocalStore κ δ) (key : κ) (now : Timestamp) : OverlayedDocument κ δ :=
  match ls.documentOverlayCache key with
  | some overlay => ⟨(overlay.mutation.applyToLocalView (ls.get key) none now).1, overlay.mutation.fieldMask⟩
  | none => ⟨ls.get key, none⟩

/-- The batch of a write. -/
def newBatch (ls : LocalStore κ δ) (mutations : List (Mutation κ δ)) (now : Timestamp) : MutationBatch κ δ :=
  ⟨ls.nextBatchId, now, mutations.filterMap fun mutation =>
    baseMutation (ls.overlayedDocument mutation.key now).document mutation, mutations⟩

theorem computeViews_eq_self {now : Timestamp} : (ls.computeViews docs (fun _ => false) now).1 = ls := by
  have hcache : (ls.recalculateAndSaveOverlays fun _ => none).1.documentOverlayCache = ls.documentOverlayCache :=
    funext fun key => recalculateAndSaveOverlays_absent rfl
  have hsame : (ls.recalculateAndSaveOverlays fun _ => none).1 = _ := recalculateAndSaveOverlays_eq
  rw [hcache] at hsame
  exact hsame

theorem computeViews_view {now : Timestamp} {keys : List κ} (h : key ∈ keys) :
    (ls.computeViews (ls.getAll keys) (fun _ => false) now).2 key = some (ls.overlayedDocument key now) := by
  have hdoc : ls.getAll keys key = some (ls.get key) := if_pos h
  have hfalse : ls.mustRecalculate (fun _ => false) key = false := rfl
  cases hoverlay : ls.documentOverlayCache key with
  | none =>
    simp only [computeViews, hdoc, Option.map_some, hfalse, Bool.false_eq_true, if_false, overlayedDocument, hoverlay]
  | some overlay =>
    simp only [computeViews, hdoc, Option.map_some, hfalse, Bool.false_eq_true, if_false, overlayedDocument, hoverlay]

/-- A write appends its batch to the queue and saves overlays of its documents. -/
theorem writeLocally_eq {mutations : List (Mutation κ δ)} {now : Timestamp} :
    (ls.writeLocally mutations now).1 =
      { ls with mutationQueue := ls.mutationQueue ++ [ls.newBatch mutations now],
                nextBatchId := ls.nextBatchId + 1 }.saveOverlays ls.nextBatchId
        (applyToLocalDocumentSet (ls.newBatch mutations now)
          (ls.computeViews (ls.getAll (mutations.map Mutation.key)) (fun _ => false) now).2).2 := by
  have hbase : (mutations.filterMap fun mutation =>
      ((ls.computeViews (ls.getAll (mutations.map Mutation.key)) (fun _ => false) now).2 mutation.key).bind
        fun overlayed => baseMutation overlayed.document mutation) =
      mutations.filterMap fun mutation => baseMutation (ls.overlayedDocument mutation.key now).document mutation := by
    refine List.filterMap_congr fun m hm => ?_
    rw [computeViews_view (List.mem_map_of_mem hm), Option.bind_some]
  simp only [writeLocally, computeViews_eq_self, hbase]
  rfl

/-- The overlay of a written document is that of the local view after the batch. -/
theorem writeLocally_overlay {mutations : List (Mutation κ δ)} {now : Timestamp} :
    (ls.writeLocally mutations now).1.documentOverlayCache key =
      if key ∈ (ls.newBatch mutations now).keys then
        ((Mutation.calculateOverlayMutation
          ((ls.newBatch mutations now).applyToLocalView (ls.overlayedDocument key now).document
            (ls.overlayedDocument key now).mutatedFields).1
          ((ls.newBatch mutations now).applyToLocalView (ls.overlayedDocument key now).document
            (ls.overlayedDocument key now).mutatedFields).2).map fun m =>
              (⟨ls.nextBatchId, m⟩ : Overlay κ δ)).or (ls.documentOverlayCache key)
      else ls.documentOverlayCache key := by
  rw [writeLocally_eq]
  simp only [saveOverlays]
  split_ifs with hkey
  · have hmem : key ∈ mutations.map Mutation.key := by
      obtain ⟨m, hm, rfl⟩ := MutationBatch.mem_keys.1 hkey
      exact List.mem_map_of_mem hm
    rw [applyToLocalDocumentSet_overlay (computeViews_view hmem), if_pos hkey]
    cases Mutation.calculateOverlayMutation _ _ <;> rfl
  · have hnot : ∀ m ∈ (ls.newBatch mutations now).mutations, m.key ≠ key := fun m hm heq =>
      hkey (MutationBatch.mem_keys.2 ⟨m, hm, heq⟩)
    rw [applyToLocalDocumentSet, (foldl_applyToDocumentOf_of_not_mem _ _ hnot).2]

end Writes

/-! ## Overlays belong to the last pending batch -/

/-- The ids of the batches ascend, and the overlay of a document was calculated for the last batch that changes
it. -/
structure Tracked (ls : LocalStore κ δ) : Prop where
  ids : (ls.mutationQueue.map MutationBatch.batchId).Pairwise (· < ·)
  fresh : ∀ b ∈ ls.mutationQueue, b.batchId < ls.nextBatchId
  last : ∀ key o, ls.documentOverlayCache key = some o →
    Calculated o.mutation ∧ ∃ b, (ls.pending key).getLast? = some b ∧ b.batchId = o.largestBatchId

theorem Tracked.recalculateAndSaveOverlays (h : Tracked ls) : Tracked (ls.recalculateAndSaveOverlays docs).1 := by
  have hsame : (ls.recalculateAndSaveOverlays docs).1 = _ := recalculateAndSaveOverlays_eq
  have hqueue : (ls.recalculateAndSaveOverlays docs).1.mutationQueue = ls.mutationQueue := by rw [hsame]
  have hnext : (ls.recalculateAndSaveOverlays docs).1.nextBatchId = ls.nextBatchId := by rw [hsame]
  refine ⟨hqueue ▸ h.ids, hqueue ▸ hnext ▸ h.fresh, fun key o ho => ?_⟩
  have hpending : (ls.recalculateAndSaveOverlays docs).1.pending key = ls.pending key := by
    rw [pending, hqueue, pending]
  rw [hpending]
  cases hdoc : docs key with
  | none =>
    rw [recalculateAndSaveOverlays_absent hdoc] at ho
    exact h.last key o ho
  | some doc =>
    rw [recalculateAndSaveOverlays_overlay hdoc, Option.or_eq_some_iff] at ho
    rcases ho with ho | ⟨-, ho⟩
    · obtain ⟨b, hb, ho⟩ := Option.bind_eq_some_iff.1 ho
      obtain ⟨m, hm, rfl⟩ := Option.map_eq_some_iff.1 ho
      exact ⟨⟨_, _, hm⟩, b, hb, rfl⟩
    · exact h.last key o ho

/-- A document that has an overlay has local mutations. -/
theorem Tracked.hasLocalMutations_overlayed {o : Overlay κ δ} (h : Tracked ls)
    (ho : ls.documentOverlayCache key = some o) (now : Timestamp) :
    (ls.overlayedDocument key now).document.hasLocalMutations = true := by
  rw [overlayedDocument, ho]
  refine hasLocalMutations_of_valid ?_
  rw [(h.last key o ho).1.precondition]
  rfl

theorem Tracked.writeLocally {mutations : List (Mutation κ δ)} {now : Timestamp} (h : Tracked ls) :
    Tracked (ls.writeLocally mutations now).1 := by
  have hqueue : (ls.writeLocally mutations now).1.mutationQueue =
      ls.mutationQueue ++ [ls.newBatch mutations now] := by rw [writeLocally_eq]; rfl
  have hnext : (ls.writeLocally mutations now).1.nextBatchId = ls.nextBatchId + 1 := by rw [writeLocally_eq]; rfl
  refine ⟨?_, ?_, fun key o ho => ?_⟩
  · rw [hqueue, List.map_append, List.pairwise_append]
    refine ⟨h.ids, List.pairwise_singleton _ _, fun i hi j hj => ?_⟩
    obtain ⟨b, hb, rfl⟩ := List.mem_map.1 hi
    obtain rfl := List.mem_singleton.1 hj
    exact h.fresh b hb
  · rw [hqueue, hnext]
    intro b hb
    rcases List.mem_append.1 hb with hb | hb
    · exact (h.fresh b hb).trans (by omega)
    · obtain rfl := List.mem_singleton.1 hb
      exact Int.lt_succ ls.nextBatchId
  · rw [pending, hqueue, List.filter_append, ← pending]
    rw [writeLocally_overlay] at ho
    split_ifs at ho with hkey
    · rw [List.filter_cons_of_pos (by simpa using hkey), List.filter_nil, List.getLast?_concat]
      rcases Option.or_eq_some_iff.1 ho with ho | ⟨hnone, ho⟩
      · obtain ⟨m, hm, rfl⟩ := Option.map_eq_some_iff.1 ho
        exact ⟨⟨_, _, hm⟩, _, rfl, rfl⟩
      · -- a document that has an overlay gets a new one
        have hlocal := h.hasLocalMutations_overlayed ho now
        have hsome := @isSome_calculateOverlayMutation _ _
          ((ls.newBatch mutations now).applyToLocalView (ls.overlayedDocument key now).document
            (ls.overlayedDocument key now).mutatedFields).1
          ((ls.newBatch mutations now).applyToLocalView (ls.overlayedDocument key now).document
            (ls.overlayedDocument key now).mutatedFields).2
        rw [hasLocalMutations_batch hlocal, Option.map_eq_none_iff.1 hnone] at hsome
        simp at hsome
    · rw [List.filter_cons_of_neg (by simpa using hkey), List.filter_nil, List.append_nil]
      exact h.last key o ho

omit [DecidableEq δ] [BEq δ] [Add δ] [IntCast δ] in
/-- An overlay that is not that of the batch belongs to a batch that stays. -/
theorem Tracked.remove {ls' : LocalStore κ δ} (h : Tracked ls) (batchId : ℤ)
    (hqueue : ls'.mutationQueue = ls.mutationQueue.filter fun b => b.batchId ≠ batchId)
    (hnext : ls'.nextBatchId = ls.nextBatchId)
    (hcache : ∀ key, ls'.documentOverlayCache key =
      (ls.documentOverlayCache key).filter fun o => o.largestBatchId ≠ batchId) : Tracked ls' := by
  refine ⟨?_, ?_, fun key o ho => ?_⟩
  · rw [hqueue]
    exact h.ids.sublist (List.filter_sublist.map _)
  · rw [hqueue, hnext]
    exact fun b hb => h.fresh b (List.mem_filter.1 hb).1
  · rw [hcache, Option.filter_eq_some_iff] at ho
    obtain ⟨ho, hne⟩ := ho
    obtain ⟨hcalculated, b, hlast, hid⟩ := h.last key o ho
    refine ⟨hcalculated, b, ?_, hid⟩
    rw [pending, hqueue, List.filter_comm, ← pending]
    obtain ⟨init, hinit⟩ := List.getLast?_eq_some_iff.1 hlast
    rw [hinit, List.filter_append, List.filter_cons_of_pos (by simpa [hid] using hne), List.filter_nil,
      List.getLast?_concat]

theorem Tracked.acknowledgeBatch {result : MutationBatchResult κ δ} (h : Tracked ls) :
    Tracked (ls.acknowledgeBatch result) := by
  exact Tracked.recalculateAndSaveOverlays (h.remove result.batch.batchId rfl rfl fun _ => rfl)

theorem Tracked.rejectBatch {batch : MutationBatch κ δ} (h : Tracked ls) : Tracked (ls.rejectBatch batch) :=
  Tracked.recalculateAndSaveOverlays (h.remove batch.batchId rfl rfl fun _ => rfl)

theorem Tracked.applyRemoteEvent {documentUpdates : κ → Option (MutableDocument κ δ)} {now : Timestamp}
    (h : Tracked ls) : Tracked (ls.applyRemoteEvent documentUpdates now) := by
  have hpopulated : Tracked (ls.populateDocumentChanges documentUpdates) := ⟨h.ids, h.fresh, h.last⟩
  exact hpopulated.recalculateAndSaveOverlays

omit [DecidableEq κ] [DecidableEq δ] [BEq δ] [Add δ] [IntCast δ] in
theorem le_foldl_max {i n : ℤ} {bs : List (MutationBatch κ δ)} (h : i ≤ n ∨ ∃ b ∈ bs, i ≤ b.batchId) :
    i ≤ bs.foldl (fun maxBatchId b => max maxBatchId b.batchId) n := by
  induction bs generalizing n with
  | nil => simpa using h
  | cons b bs ih =>
    refine ih ?_
    rcases h with h | ⟨a, ha, h⟩
    · exact .inl (le_max_of_le_left h)
    · rcases List.mem_cons.1 ha with rfl | ha
      · exact .inl (le_max_of_le_right h)
      · exact .inr ⟨a, ha, h⟩

omit [DecidableEq δ] [BEq δ] [Add δ] [IntCast δ] in
theorem Tracked.start (h : Tracked ls) : Tracked ls.start := by
  refine ⟨h.ids, fun b hb => ?_, h.last⟩
  exact Int.lt_add_one_of_le (le_foldl_max (.inr ⟨b, hb, le_refl _⟩))

/-- What a step does to the store. -/
theorem Tracked.react {e : Event κ δ} {ls' : LocalStore κ δ} (h : Tracked ls) (hstep : ls.react e = some ls') :
    Tracked ls' := by
  cases e with
  | write mutations now =>
    rw [LocalStore.react] at hstep
    split_ifs at hstep
    obtain rfl := Option.some.inj hstep
    exact h.writeLocally
  | acknowledge batchId mutationResults =>
    obtain ⟨batch, -, hstep⟩ := Option.bind_eq_some_iff.1 hstep
    split_ifs at hstep
    obtain rfl := Option.some.inj hstep
    exact h.acknowledgeBatch
  | reject batchId =>
    obtain ⟨toReject, -, hstep⟩ := Option.bind_eq_some_iff.1 hstep
    obtain rfl := Option.some.inj hstep
    exact h.rejectBatch
  | remoteEvent documentUpdates now =>
    obtain rfl := Option.some.inj hstep
    exact h.applyRemoteEvent
  | restart =>
    obtain rfl := Option.some.inj hstep
    exact h.start

omit [DecidableEq δ] [BEq δ] [Add δ] [IntCast δ] in
theorem tracked_start : Tracked ({} : LocalStore κ δ) :=
  ⟨List.Pairwise.nil, by simp, by simp⟩

theorem tracked_run {es : List (Event κ δ)} {ls' : LocalStore κ δ} (h : Tracked ls)
    (hr : Transition.run react ls es = some ls') : Tracked ls' :=
  Transition.run_invariant (P := fun _ _ => True) (fun _ _ _ _ hs hstep => hs.react hstep)
    (Transition.allSteps_of_forall_mem fun _ _ => trivial) h hr

/-- In every run an overlay belongs to the last pending batch of its document, and a document without pending
batches is seen as the backend has sent it. -/
theorem overlay_of_last_batch {es : List (Event κ δ)} (hr : Transition.run react {} es = some ls) (key : κ) :
    (∀ o, ls.documentOverlayCache key = some o →
      ∃ b, (ls.pending key).getLast? = some b ∧ b.batchId = o.largestBatchId) ∧
    (ls.pending key = [] → ∀ now, ls.getDocument key now = ls.get key) := by
  have htracked := tracked_run tracked_start hr
  refine ⟨fun o ho => (htracked.last key o ho).2, fun hpending now => ?_⟩
  have hnone : ls.documentOverlayCache key = none := by
    by_contra hsome
    obtain ⟨o, ho⟩ := Option.ne_none_iff_exists'.1 hsome
    obtain ⟨b, hb, -⟩ := (htracked.last key o ho).2
    rw [hpending] at hb
    simp at hb
  rw [getDocument, hnone]
  rfl

/-- A write that sets a document. -/
def setK : Mutation String ℤ := .set "k" [("a", .integer 1)] .none []

/-- A write that updates a document. -/
def updateK : Mutation String ℤ := .patch "k" [("a", .integer 2)] [["a"]] (.exists true) []

theorem overlay_of_last_batch_acknowledged :
    ∃ ls : LocalStore String ℤ,
      Transition.run react {} [.write [setK] ⟨0, 0⟩, .acknowledge 1 [⟨5, []⟩]] = some ls ∧
        ls.pending "k" = [] ∧ ls.getDocument "k" ⟨0, 0⟩ = ls.get "k" := by
  have hr : Transition.run react {} [.write [setK] ⟨0, 0⟩, .acknowledge 1 [⟨5, []⟩]] = some _ := rfl
  exact ⟨_, hr, rfl, (overlay_of_last_batch hr "k").2 rfl _⟩

/-! ## Changes of the backend that the app does not see -/

/-- The step writes the document, or settles a batch that does. -/
def Concerns (key : κ) (ls : LocalStore κ δ) : Event κ δ → Prop
  | .write mutations _ => ∃ m ∈ mutations, m.key = key
  | .acknowledge batchId _ | .reject batchId => ∃ b ∈ ls.mutationQueue, b.batchId = batchId ∧ key ∈ b.keys
  | .remoteEvent _ _ | .restart => False

/-- The document has an overlay that sets or deletes it. -/
structure WholeOverlay (key : κ) (o : Overlay κ δ) (ls : LocalStore κ δ) : Prop where
  tracked : Tracked ls
  overlay : ls.documentOverlayCache key = some o
  whole : o.mutation.isPatch = false

omit [DecidableEq δ] [BEq δ] [Add δ] [IntCast δ] in
/-- The overlay is not that of a batch without the document. -/
theorem Tracked.largestBatchId_ne {o : Overlay κ δ} {batchId : ℤ} (h : Tracked ls)
    (ho : ls.documentOverlayCache key = some o)
    (hother : ¬ ∃ b ∈ ls.mutationQueue, b.batchId = batchId ∧ key ∈ b.keys) : o.largestBatchId ≠ batchId := by
  obtain ⟨-, b, hlast, hid⟩ := h.last key o ho
  obtain ⟨hqueue, hkey⟩ := List.mem_filter.1 (List.mem_of_getLast? hlast)
  rintro rfl
  exact hother ⟨b, hqueue, hid, by simpa using hkey⟩

theorem filter_recalculate {ls' : LocalStore κ δ} {o : Overlay κ δ} {batchId : ℤ} {keys : List κ}
    (ho : ls.documentOverlayCache key = some o) (hne : o.largestBatchId ≠ batchId) (hkeys : key ∉ keys)
    (hcache : ls'.documentOverlayCache = (ls.removeOverlaysForBatchId batchId).documentOverlayCache) :
    (ls'.recalculateAndSaveOverlays (ls'.getAll keys)).1.documentOverlayCache key = some o := by
  have hnone : ls'.getAll keys key = none := if_neg hkeys
  rw [recalculateAndSaveOverlays_absent hnone, hcache, removeOverlaysForBatchId]
  simp [ho, Option.filter, hne]

/-- Such an overlay stays until the document is written or a batch that changes it is settled. -/
theorem WholeOverlay.react {o : Overlay κ δ} {e : Event κ δ} {ls' : LocalStore κ δ} (h : WholeOverlay key o ls)
    (hother : ¬ Concerns key ls e) (hstep : ls.react e = some ls') : WholeOverlay key o ls' := by
  refine ⟨h.tracked.react hstep, ?_, h.whole⟩
  cases e with
  | write mutations now =>
    rw [LocalStore.react] at hstep
    split_ifs at hstep
    obtain rfl := Option.some.inj hstep
    have hkey : key ∉ (ls.newBatch mutations now).keys := fun hkey => hother (MutationBatch.mem_keys.1 hkey)
    rw [writeLocally_overlay, if_neg hkey, h.overlay]
  | acknowledge batchId mutationResults =>
    obtain ⟨batch, hbatch, hstep⟩ := Option.bind_eq_some_iff.1 hstep
    split_ifs at hstep
    obtain rfl := Option.some.inj hstep
    have hid : batch.batchId = batchId := by simpa using List.find?_some hbatch
    have hbatch' := List.mem_of_find?_eq_some hbatch
    refine filter_recalculate h.overlay (h.tracked.largestBatchId_ne h.overlay hother) ?_ (by rw [← hid]; rfl)
    intro hkey
    obtain ⟨m, hm, rfl⟩ := List.mem_map.1 hkey
    have hmem : m.1 ∈ batch.mutations := (List.of_mem_zip hm).1
    exact hother ⟨batch, hbatch', hid, MutationBatch.mem_keys.2 ⟨m.1, hmem, rfl⟩⟩
  | reject batchId =>
    obtain ⟨toReject, hbatch, hstep⟩ := Option.bind_eq_some_iff.1 hstep
    obtain rfl := Option.some.inj hstep
    have hid : toReject.batchId = batchId := by simpa using List.find?_some hbatch
    have hbatch' := List.mem_of_find?_eq_some hbatch
    refine filter_recalculate h.overlay (h.tracked.largestBatchId_ne h.overlay hother) ?_ (by rw [← hid]; rfl)
    exact fun hkey => hother ⟨toReject, hbatch', hid, hkey⟩
  | remoteEvent documentUpdates now =>
    obtain rfl := Option.some.inj hstep
    have hkeep : ∀ changed : κ → Bool, (ls.populateDocumentChanges documentUpdates).mustRecalculate changed key =
        false := by
      intro changed
      have hoverlay : (ls.populateDocumentChanges documentUpdates).documentOverlayCache key = some o := h.overlay
      simp [mustRecalculate, hoverlay, h.whole]
    refine (recalculateAndSaveOverlays_absent ?_).trans h.overlay
    rw [hkeep]
    rfl
  | restart =>
    obtain rfl := Option.some.inj hstep
    exact h.overlay

/-- What the app sees of such a document depends on the overlay only. -/
theorem WholeOverlay.getDocument_eq {o : Overlay κ δ} {ls' : LocalStore κ δ} (h : WholeOverlay key o ls)
    (h' : WholeOverlay key o ls') (now now' : Timestamp) : ls'.getDocument key now' = ls.getDocument key now := by
  have htime : o.mutation.applyToLocalView (.invalidDocument key) (some []) now' =
      o.mutation.applyToLocalView (.invalidDocument key) (some []) now :=
    (h.tracked.last key o h.overlay).1.applyToLocalView_time now
  simp only [getDocument, getBaseDocument, h.overlay, h'.overlay, h.whole, Bool.false_eq_true, if_false,
    Option.map_some, Mutation.applyOverlay, htime]

omit [DecidableEq κ] [DecidableEq δ] [BEq δ] [Add δ] [IntCast δ] in
theorem fieldMask_of_isPatch {m : Mutation κ δ} (h : m.isPatch = false) : m.fieldMask = none := by
  cases m with
  | patch => simp [Mutation.isPatch] at h
  | set => rfl
  | delete => rfl

/-- After a write the overlay is no patch if it was none before. -/
theorem isPatch_writeLocally {mutations : List (Mutation κ δ)} {now : Timestamp} {o : Overlay κ δ}
    (hplain : ∀ o, ls.documentOverlayCache key = some o → o.mutation.isPatch = false)
    (ho : (ls.writeLocally mutations now).1.documentOverlayCache key = some o) : o.mutation.isPatch = false := by
  have hfields : (ls.overlayedDocument key now).mutatedFields = none := by
    rw [overlayedDocument]
    cases hcache : ls.documentOverlayCache key with
    | none => rfl
    | some o' => exact fieldMask_of_isPatch (hplain o' hcache)
  rw [writeLocally_overlay] at ho
  split_ifs at ho
  · rcases Option.or_eq_some_iff.1 ho with ho | ⟨-, ho⟩
    · obtain ⟨m, hm, rfl⟩ := Option.map_eq_some_iff.1 ho
      rw [hfields, applyToLocalView_eq_replay, mask_replay] at hm
      exact isPatch_of_none hm
    · exact hplain o ho
  · exact hplain o ho

/-- A write to a document whose overlay is not a patch hides what the backend sends of it: until the document
is written again or a batch that changes it is settled, the app sees the document as it was after the
write. -/
theorem remote_changes_hidden {es es' : List (Event κ δ)} {ls' ls'' : LocalStore κ δ}
    {mutations : List (Mutation κ δ)} {now : Timestamp} (hr : Transition.run react {} es = some ls)
    (hplain : ∀ o, ls.documentOverlayCache key = some o → o.mutation.isPatch = false)
    (hwrite : ls.react (.write mutations now) = some ls') (heffect : ls'.documentOverlayCache key ≠ none)
    (hother : Transition.AllSteps react (fun ls e => ¬ Concerns key ls e) ls' es')
    (hr' : Transition.run react ls' es' = some ls'') (now' : Timestamp) :
    ls''.getDocument key now' = ls'.getDocument key now := by
  have htracked := (tracked_run tracked_start hr).react hwrite
  obtain ⟨o, ho⟩ := Option.ne_none_iff_exists'.1 heffect
  have hwhole : o.mutation.isPatch = false := by
    rw [LocalStore.react] at hwrite
    split_ifs at hwrite
    obtain rfl := Option.some.inj hwrite
    exact isPatch_writeLocally hplain ho
  have hstart : WholeOverlay key o ls' := ⟨htracked, ho, hwhole⟩
  have hend : WholeOverlay key o ls'' :=
    Transition.run_invariant (fun _ _ _ hother hs hstep => hs.react hother hstep) hother hstart hr'
  exact hstart.getDocument_eq hend now now'

/-- The backend sends a document with the fields `a` and `b`. -/
def sendK (version : ℕ) (b : Int64) : Event String ℤ :=
  .remoteEvent (fun _ => some ⟨"k", .foundDocument, version, [("a", .integer 1), ("b", .integer b)], .synced⟩) ⟨0, 0⟩

/-- A new value of `b` is not seen while a new value of `a` is pending. -/
theorem remote_changes_hidden_update :
    ∃ ls ls' ls'' : LocalStore String ℤ, Transition.run react {} [sendK 1 1] = some ls ∧
      ls.react (.write [updateK] ⟨0, 0⟩) = some ls' ∧ Transition.run react ls' [sendK 2 5] = some ls'' ∧
      ls''.getDocument "k" ⟨0, 0⟩ = ls'.getDocument "k" ⟨0, 0⟩ := by
  refine ⟨_, _, _, rfl, rfl, rfl, ?_⟩
  refine @remote_changes_hidden _ _ _ _ _ _ _ _ "k" [sendK 1 1] [sendK 2 5] _ _ [updateK] _ rfl ?_ rfl ?_ ?_ rfl _
  · intro o ho
    cases ho
  · intro hnone
    cases hnone
  · exact ⟨id, fun _ _ => trivial⟩

end LocalStore

end Firestore

end Datability
