import Datability.Proofs.LocalStoreProofs
import Datability.Proofs.MutationProofs

/-!
# Proofs: what the app sees

The app reads a document through its overlay. It should see the document as it is after all pending batches have
been applied to what the backend has sent, and does so as long as overlays are calculated anew whenever
one of the two changes.
-/

namespace Datability

namespace Firestore

open SortedMap MapValue

variable {κ δ : Type*}

/-! ## The values from which increments start -/

theorem mem_foldr_insertKey {f : FieldPath → FieldPath} {l : List FieldPath} {mask : FieldMask} {p : FieldPath} :
    p ∈ l.foldr (fun q => insertKey (f q)) mask ↔ p ∈ l.map f ∨ p ∈ mask := by
  induction l with
  | nil => simp
  | cons q l ih =>
    rw [List.foldr_cons, mem_insertKey, ih, List.map_cons, List.mem_cons, or_assoc]

theorem sortedKeys_foldr_insertKey {f : FieldPath → FieldPath} {l : List FieldPath} {mask : FieldMask}
    (h : SortedKeys mask) : SortedKeys (l.foldr (fun q => insertKey (f q)) mask) := by
  induction l with
  | nil => exact h
  | cons q l ih => exact sortedKeys_insertKey ih

theorem sortedKeys_extractFieldMask {v : MapValue δ} : SortedKeys v.extractFieldMask := by
  fun_induction MapValue.extractFieldMask v with
  | case1 => exact List.Pairwise.nil
  | case2 => exact sortedKeys_insertKey (by assumption)
  | case3 => exact sortedKeys_foldr_insertKey (by assumption)
  | case4 => exact sortedKeys_insertKey (by assumption)

/-- A field of the rest of a map is a field of the map. -/
theorem get_cons_of_get {k : String} {w : Value δ} {v : MapValue δ} (hv : Value.OrderedEntries ((k, w) :: v))
    {p : FieldPath} (hp : p ≠ []) (h : ((Value.map v).get p).isSome = true) :
    ((Value.map ((k, w) :: v)).get p).isSome = true := by
  obtain ⟨l, p, rfl⟩ := List.exists_cons_of_ne_nil hp
  rw [Value.get_cons] at h ⊢
  cases hl : v.lookup l with
  | none => simp [hl] at h
  | some x =>
    have hne : l ≠ k := (hv.1 (l, x) (mem_of_lookup hl)).ne'
    rw [lookup_cons, if_neg hne, hl]
    rwa [hl] at h

/-- There is a field at each path of the mask. -/
theorem get_of_mem_extractFieldMask {v : MapValue δ} (hv : Value.OrderedEntries v) {p : FieldPath}
    (hp : p ∈ v.extractFieldMask) : p ≠ [] ∧ ((Value.map v).get p).isSome = true := by
  fun_induction MapValue.extractFieldMask v generalizing p with
  | case1 => simp at hp
  | case2 k inner fields nested hnil ih ih' =>
    rcases mem_insertKey.1 hp with rfl | hp
    · simp [Value.get_cons, lookup_cons]
    · obtain ⟨hne, hget⟩ := ih' hv.2.2 hp
      exact ⟨hne, get_cons_of_get hv hne hget⟩
  | case3 k inner fields nested hnil ih ih' =>
    rcases mem_foldr_insertKey.1 hp with hp | hp
    · obtain ⟨q, hq, rfl⟩ := List.mem_map.1 hp
      have hinner := (ih (Value.ordered_map.1 hv.2.1) hq).2
      simpa [Value.get_cons, lookup_cons] using hinner
    · obtain ⟨hne, hget⟩ := ih' hv.2.2 hp
      exact ⟨hne, get_cons_of_get hv hne hget⟩
  | case4 k w fields hw ih =>
    rcases mem_insertKey.1 hp with rfl | hp
    · simp [Value.get_cons, lookup_cons]
    · obtain ⟨hne, hget⟩ := ih hv.2.2 hp
      exact ⟨hne, get_cons_of_get hv hne hget⟩

theorem sortFields_number {n : Number δ} : n.toValue.sortFields = n.toValue := by
  cases n <;> simp [Number.toValue, Value.sortFields]

theorem ordered_number {n : Number δ} : n.toValue.Ordered := by
  cases n <;> simp [Number.toValue, Value.Ordered]

theorem look_number {n : Number δ} {p : FieldPath} (hp : p ≠ []) : n.toValue.look p = none := by
  obtain ⟨l, p, rfl⟩ := List.exists_cons_of_ne_nil hp
  cases n <;> rfl

/-- A map whose fields are on the way to these paths. -/
structure FieldsAt (paths : List FieldPath) (v : MapValue δ) : Prop where
  ordered : Value.OrderedEntries v
  above : ∀ p, p ≠ [] → (Value.map v).look p ≠ none → ∃ q ∈ paths, p <+: q

theorem FieldsAt.set {paths : List FieldPath} {v : MapValue δ} (h : FieldsAt paths v) {q : FieldPath}
    (hq : q ∈ paths) (hne : q ≠ []) (n : Number δ) : FieldsAt paths (MapValue.set q n.toValue v) := by
  refine ⟨?_, fun p hp hlook => ?_⟩
  · rw [set_eq_put]
    refine ordered_put (fun x hx => ?_) h.ordered
    obtain rfl := Option.some.inj hx
    rw [sortFields_number]
    exact ordered_number
  · rw [set_eq_put, look_put hne h.ordered] at hlook
    split_ifs at hlook with hqp hpq
    · rw [Option.bind_some, sortFields_number] at hlook
      obtain ⟨rest, rfl⟩ := hqp
      rw [List.drop_left] at hlook
      have hrest : rest = [] := by
        by_contra hrest
        exact hlook (look_number hrest)
      exact ⟨q, hq, by simp [hrest]⟩
    · exact ⟨q, hq, hpq⟩
    · exact h.above p hp hlook

theorem fieldsAt_addBaseValue {doc : MutableDocument κ δ} {paths : List FieldPath} {base : Option (MapValue δ)}
    {t : FieldTransform δ} (ht : t.path ∈ paths) (hne : t.path ≠ []) (hbase : ∀ v, base = some v → FieldsAt paths v)
    {v : MapValue δ} (hv : Mutation.addBaseValue doc base t = some v) : FieldsAt paths v := by
  rw [Mutation.addBaseValue] at hv
  split at hv
  · obtain rfl := Option.some.inj hv
    refine FieldsAt.set ?_ ht hne _
    cases base with
    | none =>
      refine ⟨trivial, fun p hp hlook => absurd ?_ hlook⟩
      obtain ⟨l, p, rfl⟩ := List.exists_cons_of_ne_nil hp
      rfl
    | some v => exact hbase v rfl
  · exact hbase v hv

theorem fieldsAt_baseValue {doc : MutableDocument κ δ} {m : Mutation κ δ} {v : MapValue δ}
    (hpaths : ∀ t ∈ m.fieldTransforms, t.path ≠ []) (h : m.extractTransformBaseValue doc = some v) :
    FieldsAt (m.fieldTransforms.map FieldTransform.path) v := by
  have hloop : ∀ (ts : List (FieldTransform δ)) (base : Option (MapValue δ)), (∀ t ∈ ts, t ∈ m.fieldTransforms) →
      (∀ v, base = some v → FieldsAt (m.fieldTransforms.map FieldTransform.path) v) →
      ∀ v, ts.foldl (Mutation.addBaseValue doc) base = some v →
        FieldsAt (m.fieldTransforms.map FieldTransform.path) v := by
    intro ts
    induction ts with
    | nil => exact fun base _ hbase v hv => hbase v hv
    | cons t ts ih =>
      intro base hts hbase
      have ht := hts t List.mem_cons_self
      refine ih _ (fun a ha => hts a (List.mem_cons_of_mem _ ha)) fun v hv => ?_
      exact fieldsAt_addBaseValue (List.mem_map_of_mem ht) (hpaths t ht) hbase hv
  exact hloop m.fieldTransforms none (fun _ ht => ht) (by simp) v h

/-! ## Paths of at most two segments -/

/-- The paths that a mutation changes. -/
def Mutation.paths (m : Mutation κ δ) : List FieldPath := m.fieldMask.getD [] ++ m.fieldTransforms.map FieldTransform.path

/-- No path leads through more than one map. -/
def Shallow (paths : List FieldPath) : Prop := ∀ p ∈ paths, p.length ≤ 2

theorem anchored_of_shallow {mask : FieldMask} {d : MapValue δ} (h : Shallow mask) : Anchored mask d := by
  intro m hm hlen
  have := h m hm
  omega

theorem SetsFields.transform_paths {m : Mutation κ δ} (h : m.SetsFields) : ∀ t ∈ m.fieldTransforms, t.path ≠ [] := by
  cases m with
  | set key value precondition transforms => exact fun t ht => (h.2 t ht).1
  | patch key value fieldMask precondition transforms => exact fun t ht => (h.2.2.2 t ht).1
  | delete key precondition => simp [Mutation.fieldTransforms]

/-- The patch that restores the values sets fields on the way to the paths of the increments. -/
theorem setsFields_baseMutation {doc : MutableDocument κ δ} {m b : Mutation κ δ} (hm : m.SetsFields)
    (h : LocalStore.baseMutation doc m = some b) : b.SetsFields ∧ (Shallow m.paths → Shallow b.paths) := by
  obtain ⟨v, hv, rfl⟩ := Option.map_eq_some_iff.1 h
  have hfields := fieldsAt_baseValue (SetsFields.transform_paths hm) hv
  refine ⟨⟨hfields.ordered, sortedKeys_extractFieldMask, fun p hp => ?_, by simp⟩, fun hshallow p hp => ?_⟩
  · exact get_of_mem_extractFieldMask hfields.ordered hp
  · have hp' : p ∈ v.extractFieldMask := by simpa [Mutation.paths, Mutation.fieldMask, Mutation.fieldTransforms] using hp
    obtain ⟨hne, hget⟩ := get_of_mem_extractFieldMask hfields.ordered hp'
    obtain ⟨q, hq, hpq⟩ := hfields.above p hne fun hnone => by
      rw [Value.look_eq_none.1 hnone] at hget
      simp at hget
    exact hpq.length_le.trans (hshallow q (List.mem_append_right _ hq))

variable [DecidableEq δ] [BEq δ] [Add δ] [IntCast δ]

/-- The mask is shallow, if there is one. -/
def ShallowMask (mask : Option FieldMask) : Prop := ∀ paths, mask = some paths → Shallow paths

theorem ShallowMask.step {doc : MutableDocument κ δ} {mask : Option FieldMask} {m : Mutation κ δ}
    (h : ShallowMask mask) (hm : Shallow m.paths) (now : Timestamp) :
    ShallowMask (m.applyToLocalView doc mask now).2 := by
  cases m with
  | set => rw [Mutation.applyToLocalView]; split_ifs <;> [simp [ShallowMask]; exact h]
  | delete => rw [Mutation.applyToLocalView]; split_ifs <;> [simp [ShallowMask]; exact h]
  | patch key value fieldMask precondition transforms =>
    rw [Mutation.applyToLocalView]
    split_ifs
    · rintro paths hpaths p hp
      obtain ⟨mask', rfl, rfl⟩ := Option.map_eq_some_iff.1 hpaths
      rcases (@mem_patchedMask _ fieldMask mask' transforms p).1 hp with hp | hp
      · exact h mask' rfl p hp
      · exact hm p (List.mem_append.2 hp)
    · exact h

theorem ShallowMask.replay {doc : MutableDocument κ δ} {mask : Option FieldMask}
    {ms : List (Mutation κ δ × Timestamp)} (h : ShallowMask mask) (hms : ∀ m ∈ ms, Shallow m.1.paths) :
    ShallowMask (Mutation.replay doc mask ms).2 := by
  induction ms generalizing doc mask with
  | nil => exact h
  | cons m ms ih =>
    exact ih (h.step (hms m List.mem_cons_self) m.2) fun a ha => hms a (List.mem_cons_of_mem _ ha)

theorem Replayed.shallow {base : MutableDocument κ δ} {s : MutableDocument κ δ × Option FieldMask} {o : Mutation κ δ}
    (h : Replayed base s) (hlocal : base.hasLocalMutations = false) (hs : ShallowMask s.2)
    (ho : Mutation.calculateOverlayMutation s.1 s.2 = some o) : ShallowMask o.fieldMask := by
  cases h with
  | unchanged => simp [Mutation.calculateOverlayMutation, hlocal] at ho
  | unmasked => simp [Mutation.calculateOverlayMutation, hlocal] at ho
  | @patched mask d hsorted hpaths hd ht =>
    obtain ⟨-, -, -, hfrom⟩ := overlayLoop_spec hd hpaths overlayOf_empty
    obtain rfl := Option.some.inj ho
    intro paths hmask q hq
    obtain rfl := Option.some.inj hmask
    obtain ⟨p, hp, rfl⟩ := (hfrom q hq).resolve_left (by simp)
    exact target_isPrefixOf.length_le.trans (hs mask rfl p hp)
  | replaced hd =>
    obtain rfl := Option.some.inj ho
    intro paths hmask
    simp [Mutation.fieldMask] at hmask
  | deleted =>
    obtain rfl := Option.some.inj ho
    intro paths hmask
    simp [Mutation.fieldMask] at hmask

/-! ## Acknowledged mutations -/

theorem ordered_applyToRemoteDocument {previous : Option (Value δ)} {result : Value δ} {t : FieldTransform δ}
    (ht : t.WellFormed) (h : ∀ v ∈ previous, v.Ordered) (hresult : result.sortFields.Ordered) :
    (t.transformation.applyToRemoteDocument previous result).sortFields.Ordered := by
  obtain ⟨path, op⟩ := t
  cases op with
  | serverTimestamp => exact hresult
  | increment => exact hresult
  | arrayUnion elements =>
    exact @ordered_applyToLocalView _ _ _ _ _ previous ⟨0, 0⟩ ⟨path, .arrayUnion elements⟩ ht h
  | arrayRemove elements =>
    exact @ordered_applyToLocalView _ _ _ _ _ previous ⟨0, 0⟩ ⟨path, .arrayRemove elements⟩ ht h

theorem sets_serverTransformResults {v : MapValue δ} {results : List (Value δ)} {transforms : List (FieldTransform δ)}
    (hv : Value.OrderedEntries v) (ht : ∀ t ∈ transforms, t.WellFormed)
    (hresults : ∀ r ∈ results, r.sortFields.Ordered) :
    Sets (Mutation.serverTransformResults v results transforms) := by
  refine (sets_nil.foldl_insert fun a ha => ?_).1
  obtain ⟨htransform, hresult⟩ := List.of_mem_zip ha
  refine ⟨(ht a.1 htransform).1, ?_⟩
  exact ordered_applyToRemoteDocument (ht a.1 htransform) (fun w hw => (Value.ordered_map.2 hv).get hw)
    (hresults a.2 hresult)

/-- What the store has of a document on the backend: it is in order and has no local mutations. -/
structure Remote (key : κ) (doc : MutableDocument κ δ) : Prop where
  key_eq : doc.key = key
  ordered : Value.OrderedEntries doc.value
  noLocal : doc.hasLocalMutations = false

theorem Remote.applyToRemoteDocument {key : κ} {doc : MutableDocument κ δ} {m : Mutation κ δ} {r : MutationResult δ}
    (h : Remote key doc) (hm : m.SetsFields) (hr : ∀ v ∈ r.transformResults, v.sortFields.Ordered) :
    Remote key (m.applyToRemoteDocument doc r) := by
  cases m with
  | set k value precondition transforms =>
    obtain ⟨hvalue, ht⟩ := hm
    exact ⟨h.key_eq, (touched_empty.setAll hvalue (sets_serverTransformResults h.ordered ht hr)).2, rfl⟩
  | patch k value fieldMask precondition transforms =>
    obtain ⟨hvalue, hs, hmask, ht⟩ := hm
    rw [Mutation.applyToRemoteDocument]
    split_ifs
    · have hpatch := (touched_empty.setAll h.ordered (sets_getPatch hvalue hs hmask).1).2
      exact ⟨h.key_eq, (touched_empty.setAll hpatch (sets_serverTransformResults h.ordered ht hr)).2, rfl⟩
    · exact ⟨h.key_eq, trivial, rfl⟩
  | delete k precondition => exact ⟨h.key_eq, trivial, rfl⟩

theorem Remote.batch [DecidableEq κ] {key : κ} {doc : MutableDocument κ δ} {b : MutationBatch κ δ}
    {results : List (MutationResult δ)} (h : Remote key doc) (hb : ∀ m ∈ b.mutations, m.SetsFields)
    (hresults : ∀ r ∈ results, ∀ v ∈ r.transformResults, v.sortFields.Ordered) :
    Remote key (b.applyToRemoteDocument doc results) := by
  rw [MutationBatch.applyToRemoteDocument]
  have hzip : ∀ m ∈ b.mutations.zip results, m.1.SetsFields ∧ ∀ v ∈ m.2.transformResults, v.sortFields.Ordered :=
    fun m hm => ⟨hb m.1 (List.of_mem_zip hm).1, hresults m.2 (List.of_mem_zip hm).2⟩
  generalize b.mutations.zip results = ms at hzip
  induction ms generalizing doc with
  | nil => exact h
  | cons m ms ih =>
    rw [List.foldl_cons]
    refine ih ?_ fun a ha => hzip a (List.mem_cons_of_mem _ ha)
    split_ifs
    · exact h.applyToRemoteDocument (hzip m List.mem_cons_self).1 (hzip m List.mem_cons_self).2
    · exact h

namespace LocalStore

variable [DecidableEq κ] {ls : LocalStore κ δ} {key : κ} {docs : κ → Option (MutableDocument κ δ)}

/-! ## What is in the store -/

/-- The documents and mutations in the store are in order, and what the overlays delete is below what they
set. -/
structure Sound (ls : LocalStore κ δ) : Prop where
  tracked : Tracked ls
  remote : ∀ key, Remote key (ls.get key)
  batches : ∀ b ∈ ls.mutationQueue, ∀ m ∈ b.baseMutations ++ b.mutations, m.SetsFields
  overlays : ∀ key o, ls.documentOverlayCache key = some o → o.mutation.IsOverlay

/-- What the app writes and the backend sends is in order, and no field is deleted. -/
def WellFormed : Event κ δ → Prop
  | .write mutations _ => ∀ m ∈ mutations, m.SetsFields
  | .acknowledge _ results => ∀ r ∈ results, ∀ v ∈ r.transformResults, v.sortFields.Ordered
  | .remoteEvent documentUpdates _ => ∀ key doc, documentUpdates key = some doc → Remote key doc
  | .reject _ | .restart => True

theorem replayed_batch {base : MutableDocument κ δ} {s : MutableDocument κ δ × Option FieldMask}
    {b : MutationBatch κ δ} (hbase : Value.OrderedEntries base.value) (h : Replayed base s)
    (hb : ∀ m ∈ b.baseMutations ++ b.mutations, m.SetsFields) : Replayed base (b.applyToLocalView s.1 s.2) := by
  rw [applyToLocalView_eq_replay]
  refine h.replay hbase fun m hm => ?_
  obtain ⟨a, ha, rfl⟩ := List.mem_map.1 hm
  exact hb a (List.mem_filter.1 ha).1

/-- What the pending batches make of a document comes about by setting fields. -/
theorem Sound.replayed (h : Sound ls) {doc : MutableDocument κ δ} (hdoc : Value.OrderedEntries doc.value) :
    Replayed doc (ls.replay key doc) := by
  rw [replay]
  have hpending : ∀ b ∈ ls.pending key, ∀ m ∈ b.baseMutations ++ b.mutations, m.SetsFields :=
    fun b hb => h.batches b (List.mem_filter.1 hb).1
  have hstart : Replayed doc (doc, some []) := .unchanged
  generalize (doc, some []) = s at hstart
  generalize ls.pending key = bs at hpending
  induction bs generalizing s with
  | nil => exact hstart
  | cons b bs ih =>
    exact ih _ (replayed_batch hdoc hstart (hpending b List.mem_cons_self)) fun a ha =>
      hpending a (List.mem_cons_of_mem _ ha)

/-- So does the local view from which a write starts. -/
theorem Sound.replayed_overlayed (h : Sound ls) (now : Timestamp) :
    Replayed (ls.get key)
      ((ls.overlayedDocument key now).document, (ls.overlayedDocument key now).mutatedFields) := by
  rw [overlayedDocument]
  cases ho : ls.documentOverlayCache key with
  | none => exact .unmasked
  | some o => exact (h.overlays key o ho).replayed (h.remote key).ordered none now

theorem Sound.recalculateAndSaveOverlays (h : Sound ls) (hdocs : ∀ key doc, docs key = some doc → Remote key doc) :
    Sound (ls.recalculateAndSaveOverlays docs).1 := by
  have hsame : (ls.recalculateAndSaveOverlays docs).1 = _ := recalculateAndSaveOverlays_eq
  refine ⟨h.tracked.recalculateAndSaveOverlays, ?_, ?_, fun key o ho => ?_⟩
  · rw [hsame]
    exact h.remote
  · rw [hsame]
    exact h.batches
  · cases hdoc : docs key with
    | none =>
      rw [recalculateAndSaveOverlays_absent hdoc] at ho
      exact h.overlays key o ho
    | some doc =>
      rw [recalculateAndSaveOverlays_overlay hdoc, Option.or_eq_some_iff] at ho
      rcases ho with ho | ⟨-, ho⟩
      · obtain ⟨b, -, ho⟩ := Option.bind_eq_some_iff.1 ho
        obtain ⟨m, hm, rfl⟩ := Option.map_eq_some_iff.1 ho
        exact (h.replayed (hdocs key doc hdoc).ordered).isOverlay (hdocs key doc hdoc).noLocal hm
      · exact h.overlays key o ho

omit [DecidableEq κ] in
theorem Sound.newBatch {mutations : List (Mutation κ δ)} {now : Timestamp} (hm : ∀ m ∈ mutations, m.SetsFields) :
    ∀ m ∈ (ls.newBatch mutations now).baseMutations ++ (ls.newBatch mutations now).mutations, m.SetsFields := by
  intro m hmem
  rcases List.mem_append.1 hmem with hmem | hmem
  · obtain ⟨a, ha, hbase⟩ := List.mem_filterMap.1 hmem
    exact (setsFields_baseMutation (hm a ha) hbase).1
  · exact hm m hmem

theorem Sound.replayed_write {mutations : List (Mutation κ δ)} (h : Sound ls) (now : Timestamp)
    (hm : ∀ m ∈ mutations, m.SetsFields) :
    Replayed (ls.get key) ((ls.newBatch mutations now).applyToLocalView (ls.overlayedDocument key now).document
      (ls.overlayedDocument key now).mutatedFields) :=
  replayed_batch (h.remote key).ordered (h.replayed_overlayed now) (Sound.newBatch hm)

theorem Sound.writeLocally {mutations : List (Mutation κ δ)} {now : Timestamp} (h : Sound ls)
    (hm : ∀ m ∈ mutations, m.SetsFields) : Sound (ls.writeLocally mutations now).1 := by
  refine ⟨h.tracked.writeLocally, ?_, ?_, fun key o ho => ?_⟩
  · rw [writeLocally_eq]
    exact h.remote
  · rw [writeLocally_eq]
    intro b hb
    rcases List.mem_append.1 hb with hb | hb
    · exact h.batches b hb
    · obtain rfl := List.mem_singleton.1 hb
      exact Sound.newBatch hm
  · rw [writeLocally_overlay] at ho
    split_ifs at ho
    · rcases Option.or_eq_some_iff.1 ho with ho | ⟨-, ho⟩
      · obtain ⟨m, hcalc, rfl⟩ := Option.map_eq_some_iff.1 ho
        exact (h.replayed_write now hm).isOverlay (h.remote key).noLocal hcalc
      · exact h.overlays key o ho
    · exact h.overlays key o ho

omit [DecidableEq δ] [BEq δ] [Add δ] [IntCast δ] in
theorem remote_getAll (h : ∀ key, Remote key (ls.get key)) {keys : List κ} :
    ∀ key doc, ls.getAll keys key = some doc → Remote key doc := by
  intro key doc hdoc
  rw [getAll] at hdoc
  split_ifs at hdoc
  obtain rfl := Option.some.inj hdoc
  exact h key

omit [DecidableEq δ] [BEq δ] [Add δ] [IntCast δ] in
/-- Taking a batch out of the queue, with the overlays that belong to it. -/
theorem Sound.remove {ls' : LocalStore κ δ} (h : Sound ls) (batchId : ℤ)
    (hqueue : ls'.mutationQueue = ls.mutationQueue.filter fun b => b.batchId ≠ batchId)
    (hnext : ls'.nextBatchId = ls.nextBatchId)
    (hcache : ∀ key, ls'.documentOverlayCache key =
      (ls.documentOverlayCache key).filter fun o => o.largestBatchId ≠ batchId)
    (hremote : ∀ key, Remote key (ls'.get key)) : Sound ls' := by
  refine ⟨h.tracked.remove batchId hqueue hnext hcache, hremote, ?_, fun key o ho => ?_⟩
  · rw [hqueue]
    exact fun b hb => h.batches b (List.mem_filter.1 hb).1
  · rw [hcache, Option.filter_eq_some_iff] at ho
    exact h.overlays key o ho.1

theorem Sound.remote_applyBatchResult {result : MutationBatchResult κ δ} (h : Sound ls)
    (hbatch : result.batch ∈ ls.mutationQueue)
    (hresults : ∀ r ∈ result.mutationResults, ∀ v ∈ r.transformResults, v.sortFields.Ordered) (key : κ) :
    Remote key ((ls.applyBatchResult result).get key) := by
  have hremote := h.remote key
  have happly : Remote key (result.batch.applyToRemoteDocument (ls.get key) result.mutationResults) :=
    hremote.batch (fun m hm => h.batches _ hbatch m (List.mem_append_right _ hm)) hresults
  rw [get, applyBatchResult, removeMutationBatch]
  simp only
  split
  · exact hremote
  · split_ifs
    · exact happly
    · exact hremote
    · exact hremote

theorem Sound.acknowledgeBatch {result : MutationBatchResult κ δ} (h : Sound ls)
    (hbatch : result.batch ∈ ls.mutationQueue)
    (hresults : ∀ r ∈ result.mutationResults, ∀ v ∈ r.transformResults, v.sortFields.Ordered) :
    Sound (ls.acknowledgeBatch result) := by
  have hremote := h.remote_applyBatchResult hbatch hresults
  exact Sound.recalculateAndSaveOverlays (h.remove result.batch.batchId rfl rfl (fun _ => rfl) hremote)
    (remote_getAll hremote)

theorem Sound.rejectBatch {batch : MutationBatch κ δ} (h : Sound ls) : Sound (ls.rejectBatch batch) :=
  Sound.recalculateAndSaveOverlays (h.remove batch.batchId rfl rfl (fun _ => rfl) h.remote)
    (remote_getAll h.remote)

omit [DecidableEq κ] [DecidableEq δ] [BEq δ] [Add δ] [IntCast δ] in
theorem remote_invalidDocument : Remote key (.invalidDocument key : MutableDocument κ δ) := ⟨rfl, trivial, rfl⟩

omit [DecidableEq δ] [BEq δ] [Add δ] [IntCast δ] in
theorem Sound.populateDocumentChanges {documentUpdates : κ → Option (MutableDocument κ δ)} (h : Sound ls)
    (hdocs : ∀ key doc, documentUpdates key = some doc → Remote key doc) :
    Sound (ls.populateDocumentChanges documentUpdates) := by
  refine ⟨⟨h.tracked.ids, h.tracked.fresh, h.tracked.last⟩, fun key => ?_, h.batches, h.overlays⟩
  have hremote := h.remote key
  rw [get, LocalStore.populateDocumentChanges]
  simp only
  split
  · exact hremote
  · next doc hdoc =>
    split_ifs
    · exact remote_invalidDocument
    · exact hdocs key doc hdoc
    · exact hremote

/-- The documents whose overlays are calculated when the backend has sent documents. -/
def recalculatedDocs (ls : LocalStore κ δ) (documents : κ → Option (MutableDocument κ δ)) :
    κ → Option (MutableDocument κ δ) :=
  fun key => if (ls.populateDocumentChanges documents).mustRecalculate (ls.existenceChanged documents) key then
    ls.changedDocs documents key else none

omit [DecidableEq κ] [DecidableEq δ] [BEq δ] [Add δ] [IntCast δ] in
theorem remote_recalculatedDocs {documents : κ → Option (MutableDocument κ δ)}
    (h : ∀ key doc, documents key = some doc → Remote key doc) :
    ∀ key doc, ls.recalculatedDocs documents key = some doc → Remote key doc := by
  intro key doc hdoc
  rw [recalculatedDocs] at hdoc
  split_ifs at hdoc
  exact h key doc (Option.filter_eq_some_iff.1 hdoc).1

theorem Sound.applyRemoteEvent {documentUpdates : κ → Option (MutableDocument κ δ)} {now : Timestamp} (h : Sound ls)
    (hdocs : ∀ key doc, documentUpdates key = some doc → Remote key doc) :
    Sound (ls.applyRemoteEvent documentUpdates now) :=
  (h.populateDocumentChanges hdocs).recalculateAndSaveOverlays (remote_recalculatedDocs hdocs)

theorem Sound.react {e : Event κ δ} {ls' : LocalStore κ δ} (h : Sound ls) (he : WellFormed e)
    (hstep : ls.react e = some ls') : Sound ls' := by
  cases e with
  | write mutations now =>
    rw [LocalStore.react] at hstep
    split_ifs at hstep
    obtain rfl := Option.some.inj hstep
    exact h.writeLocally he
  | acknowledge batchId mutationResults =>
    obtain ⟨batch, hbatch, hstep⟩ := Option.bind_eq_some_iff.1 hstep
    split_ifs at hstep
    obtain rfl := Option.some.inj hstep
    exact h.acknowledgeBatch (List.mem_of_find?_eq_some hbatch) he
  | reject batchId =>
    obtain ⟨toReject, -, hstep⟩ := Option.bind_eq_some_iff.1 hstep
    obtain rfl := Option.some.inj hstep
    exact h.rejectBatch
  | remoteEvent documentUpdates now =>
    obtain rfl := Option.some.inj hstep
    exact h.applyRemoteEvent he
  | restart =>
    obtain rfl := Option.some.inj hstep
    exact ⟨h.tracked.start, h.remote, h.batches, h.overlays⟩

theorem sound_run {es : List (Event κ δ)} (he : ∀ e ∈ es, WellFormed e)
    (hr : Transition.run LocalStore.react {} es = some ls) : Sound ls := by
  have hstart : Sound ({} : LocalStore κ δ) :=
    ⟨tracked_start, fun _ => remote_invalidDocument, by simp, by simp⟩
  exact Transition.run_invariant (fun _ _ _ he hs hstep => hs.react he hstep)
    (Transition.allSteps_of_forall_mem he) hstart hr

/-! ## Views of recalculated documents -/

omit [DecidableEq κ] in
theorem document_applyToLocalView {doc : MutableDocument κ δ} {mask mask' : Option FieldMask} {now : Timestamp}
    {m : Mutation κ δ} : (m.applyToLocalView doc mask now).1 = (m.applyToLocalView doc mask' now).1 := by
  cases m <;> (rw [Mutation.applyToLocalView, Mutation.applyToLocalView]; split_ifs <;> rfl)

omit [DecidableEq κ] in
theorem document_replay {doc : MutableDocument κ δ} {mask mask' : Option FieldMask}
    {ms : List (Mutation κ δ × Timestamp)} : (Mutation.replay doc mask ms).1 = (Mutation.replay doc mask' ms).1 := by
  induction ms generalizing doc mask mask' with
  | nil => rfl
  | cons m ms ih =>
    rw [Mutation.replay, Mutation.replay, List.foldl_cons, List.foldl_cons]
    have hdoc : (m.1.applyToLocalView doc mask m.2).1 = (m.1.applyToLocalView doc mask' m.2).1 :=
      document_applyToLocalView
    rw [← Mutation.replay, ← Mutation.replay, hdoc]
    exact ih

/-- The document does not depend on the mask. -/
theorem document_batch {doc : MutableDocument κ δ} {mask mask' : Option FieldMask} {b : MutationBatch κ δ} :
    (b.applyToLocalView doc mask).1 = (b.applyToLocalView doc mask').1 := by
  rw [applyToLocalView_eq_replay, applyToLocalView_eq_replay]
  exact document_replay

theorem foldl_document {doc : MutableDocument κ δ} {mask : Option FieldMask} {bs : List (MutationBatch κ δ)} :
    bs.foldl (fun document b => (b.applyToLocalView document (some [])).1) doc =
      (bs.foldl (fun s b => b.applyToLocalView s.1 s.2) (doc, mask)).1 := by
  induction bs generalizing doc mask with
  | nil => rfl
  | cons b bs ih =>
    rw [List.foldl_cons, List.foldl_cons]
    have hdoc : (b.applyToLocalView doc (some [])).1 = (b.applyToLocalView doc mask).1 := document_batch
    rw [hdoc]
    exact ih

/-- Applying the pending batches one after the other, as the app would see the document without overlays. -/
theorem getDocumentWithBatches_eq :
    ls.getDocumentWithBatches key (ls.pending key) = (ls.replay key (ls.get key)).1 := foldl_document

/-- An overlay that sets or deletes the document does not depend on what the backend has sent. -/
theorem Sound.getDocument_eq (h : Sound ls) (key : κ) (now : Timestamp) :
    ls.getDocument key now =
      Mutation.applyOverlay (ls.get key) now ((ls.documentOverlayCache key).map Overlay.mutation) := by
  rw [getDocument]
  cases ho : ls.documentOverlayCache key with
  | none => rfl
  | some o =>
    have hoverlay := h.overlays key o ho
    have hkey := (h.remote key).key_eq
    obtain ⟨largestBatchId, m⟩ := o
    cases m with
    | patch => rfl
    | set k value precondition transforms =>
      obtain ⟨hvalue, rfl, rfl⟩ := hoverlay
      simp only [getBaseDocument, Mutation.isPatch, Bool.false_eq_true, if_false, Option.map_some,
        Mutation.applyOverlay, apply_set_overlay hvalue]
      simp [MutableDocument.convertToFoundDocument, MutableDocument.setHasLocalMutations,
        MutableDocument.invalidDocument, hkey]
    | delete k precondition =>
      obtain rfl := hoverlay
      simp only [getBaseDocument, Mutation.isPatch, Bool.false_eq_true, if_false, Option.map_some,
        Mutation.applyOverlay, Mutation.applyToLocalView, Precondition.isValidFor, if_true]
      simp [MutableDocument.convertToNoDocument, MutableDocument.setHasLocalMutations,
        MutableDocument.invalidDocument, hkey]

/-- Whether a pending batch has an effect on what the backend has sent. -/
def TakesEffect (ls : LocalStore κ δ) (key : κ) : Prop := (ls.replay key (ls.get key)).1.hasLocalMutations = true

instance (ls : LocalStore κ δ) (key : κ) : Decidable (TakesEffect ls key) :=
  inferInstanceAs (Decidable (_ = true))

theorem mutation_freshOverlay (hlocal : (ls.get key).hasLocalMutations = false) :
    (ls.freshOverlay key (ls.get key)).map Overlay.mutation =
      Mutation.calculateOverlayMutation (ls.replay key (ls.get key)).1 (ls.replay key (ls.get key)).2 := by
  rw [freshOverlay]
  cases hlast : (ls.pending key).getLast? with
  | none =>
    have hnil : ls.pending key = [] := List.getLast?_eq_none_iff.1 hlast
    have hreplay : ls.replay key (ls.get key) = (ls.get key, some []) := by
      rw [replay, hnil]
      rfl
    rw [hreplay, Option.bind_none, Option.map_none, eq_comm, ← Option.not_isSome_iff_eq_none,
      isSome_calculateOverlayMutation, hlocal]
    simp
  | some b =>
    rw [Option.bind_some, Option.map_map]
    exact Option.map_id'

/-- The new overlay of a document is right if a batch takes effect and the mask is anchored. If no batch takes
effect, there must be no overlay, since an old one is kept. -/
theorem Sound.recalculated_iff (h : Sound ls) (hdocs : ∀ key doc, docs key = some doc → Remote key doc)
    (hdoc : docs key = some (ls.get key)) (now : Timestamp) :
    (ls.recalculateAndSaveOverlays docs).1.getDocument key now = (ls.replay key (ls.get key)).1 ↔
      if TakesEffect ls key then ∀ mask, (ls.replay key (ls.get key)).2 = some mask →
        Anchored mask (ls.replay key (ls.get key)).1.value
      else ls.documentOverlayCache key = none := by
  have hget : (ls.recalculateAndSaveOverlays docs).1.get key = ls.get key := by
    rw [recalculateAndSaveOverlays_eq]
    rfl
  have hremote := h.remote key
  have hreplayed : Replayed (ls.get key) (ls.replay key (ls.get key)) := h.replayed hremote.ordered
  have hfresh := mutation_freshOverlay hremote.noLocal
  have hsome := @isSome_calculateOverlayMutation _ _ (ls.replay key (ls.get key)).1 (ls.replay key (ls.get key)).2
  rw [(h.recalculateAndSaveOverlays hdocs).getDocument_eq, hget, recalculateAndSaveOverlays_overlay hdoc]
  split_ifs with heffect
  · rw [heffect, ← hfresh, Option.isSome_map] at hsome
    obtain ⟨o, ho⟩ := Option.isSome_iff_exists.1 hsome
    rw [ho, Option.some_or, ← ho, hfresh]
    exact hreplayed.overlay_iff hremote.ordered hremote.noLocal now
  · have hnone : ls.freshOverlay key (ls.get key) = none := by
      rw [Bool.eq_false_iff.2 heffect, ← hfresh, Option.isSome_map] at hsome
      simpa using hsome
    have hsame := hreplayed.eq_base (Bool.eq_false_iff.2 heffect)
    rw [hnone, Option.none_or, hsame]
    constructor
    · intro heq
      by_contra hcache
      obtain ⟨o, ho⟩ := Option.ne_none_iff_exists'.1 hcache
      have hlocal : (o.mutation.applyToLocalView (ls.get key) (some []) now).1.hasLocalMutations = true := by
        refine hasLocalMutations_of_valid ?_
        rw [(h.tracked.last key o ho).1.precondition]
        rfl
      rw [ho] at heq
      have hview : (o.mutation.applyToLocalView (ls.get key) (some []) now).1 = ls.get key := heq
      rw [hview, hremote.noLocal] at hlocal
      simp at hlocal
    · intro hcache
      rw [hcache]
      rfl

theorem pending_recalculated : (ls.recalculateAndSaveOverlays docs).1.pending key = ls.pending key := by
  rw [recalculateAndSaveOverlays_eq]
  rfl

theorem replay_recalculated {doc : MutableDocument κ δ} :
    (ls.recalculateAndSaveOverlays docs).1.replay key doc = ls.replay key doc := by
  rw [replay, replay, pending_recalculated]

theorem get_recalculated : (ls.recalculateAndSaveOverlays docs).1.get key = ls.get key := by
  rw [recalculateAndSaveOverlays_eq]
  rfl

/-- When a batch has been rejected, the app sees the right document if a remaining batch takes effect and the mask
is anchored. If none does, the overlay must have been that of the rejected batch: an overlay of another batch
stays in the cache, and it hides that nothing is pending that takes effect. -/
theorem rejected_view_iff {es : List (Event κ δ)} {ls' : LocalStore κ δ} {batchId : ℤ} {b : MutationBatch κ δ}
    (he : ∀ e ∈ es, WellFormed e) (hr : Transition.run react {} es = some ls)
    (hstep : ls.react (.reject batchId) = some ls') (hb : ls.lookupMutationBatch batchId = some b)
    (hkey : key ∈ b.keys) (now : Timestamp) :
    ls'.getDocument key now = ls'.getDocumentWithBatches key (ls'.pending key) ↔
      if TakesEffect ls' key then ∀ mask, (ls'.replay key (ls'.get key)).2 = some mask →
        Anchored mask (ls'.replay key (ls'.get key)).1.value
      else ∀ o, ls.documentOverlayCache key = some o → o.largestBatchId = batchId := by
  have hsound := sound_run he hr
  have hid : b.batchId = batchId := by simpa using List.find?_some hb
  have hls' : ls' = ls.rejectBatch b := by
    rw [react, hb] at hstep
    exact (Option.some.inj hstep).symm
  -- the store when the batch is out of the queue and before overlays are calculated
  let ls₁ := (ls.removeMutationBatch b.batchId).removeOverlaysForBatchId b.batchId
  have hsound₁ : Sound ls₁ := hsound.remove b.batchId rfl rfl (fun _ => rfl) hsound.remote
  have hdoc : ls₁.getAll b.keys key = some (ls₁.get key) := if_pos hkey
  have hiff := hsound₁.recalculated_iff (remote_getAll hsound₁.remote) hdoc now
  have hnone : ls₁.documentOverlayCache key = none ↔
      ∀ o, ls.documentOverlayCache key = some o → o.largestBatchId = batchId := by
    have hcache : ls₁.documentOverlayCache key =
        (ls.documentOverlayCache key).filter fun o => o.largestBatchId ≠ b.batchId := rfl
    rw [hcache, Option.filter_eq_none_iff, hid]
    simp
  have heffect : TakesEffect ls' key ↔ TakesEffect ls₁ key := by
    rw [hls', TakesEffect, TakesEffect, rejectBatch, replay_recalculated, get_recalculated]
  rw [getDocumentWithBatches_eq, hls', rejectBatch, replay_recalculated, get_recalculated, ← hnone]
  rw [hls', rejectBatch] at heffect
  simp only [heffect]
  exact hiff

theorem setsFields_setK : setK.SetsFields := by
  refine ⟨⟨by simp, trivial, trivial⟩, by simp⟩

theorem setsFields_updateK : updateK.SetsFields := by
  refine ⟨⟨by simp, trivial, trivial⟩, List.pairwise_singleton _ _, ?_, by simp⟩
  intro p hp
  obtain rfl := List.mem_singleton.1 hp
  exact ⟨by simp, rfl⟩

/-- A document is set and updated, and the first write is rejected: the app still sees both. -/
theorem rejected_view_iff_first :
    ∃ ls ls' : LocalStore String ℤ,
      Transition.run react {} [.write [setK] ⟨0, 0⟩, .write [updateK] ⟨0, 0⟩] = some ls ∧
        ls.react (.reject 1) = some ls' ∧
        ls'.getDocument "k" ⟨0, 0⟩ ≠ ls'.getDocumentWithBatches "k" (ls'.pending "k") := by
  have he : ∀ e ∈ [Event.write [setK] ⟨0, 0⟩, .write [updateK] ⟨0, 0⟩], WellFormed e := by
    simp [WellFormed, setsFields_setK, setsFields_updateK]
  refine ⟨_, _, rfl, rfl, fun heq => ?_⟩
  have hiff := (@rejected_view_iff _ _ _ _ _ _ _ _ "k" _ _ 1 _ he rfl rfl rfl (by decide) ⟨0, 0⟩).1 heq
  rw [if_neg] at hiff
  · have hid := hiff _ rfl
    cases hid
  · intro heffect
    cases heffect

/-! ## Runs -/

/-- The paths of the mutations and of the overlays have at most two segments. -/
structure ShallowStore (ls : LocalStore κ δ) : Prop where
  batches : ∀ b ∈ ls.mutationQueue, ∀ m ∈ b.baseMutations ++ b.mutations, Shallow m.paths
  overlays : ∀ key o, ls.documentOverlayCache key = some o → ShallowMask o.mutation.fieldMask

theorem shallow_batch {s : MutableDocument κ δ × Option FieldMask} {b : MutationBatch κ δ} (hs : ShallowMask s.2)
    (hb : ∀ m ∈ b.baseMutations ++ b.mutations, Shallow m.paths) : ShallowMask (b.applyToLocalView s.1 s.2).2 := by
  rw [applyToLocalView_eq_replay]
  refine hs.replay fun m hm => ?_
  obtain ⟨a, ha, rfl⟩ := List.mem_map.1 hm
  exact hb a (List.mem_filter.1 ha).1

theorem ShallowStore.replay (h : ShallowStore ls) {doc : MutableDocument κ δ} : ShallowMask (ls.replay key doc).2 := by
  rw [LocalStore.replay]
  have hpending : ∀ b ∈ ls.pending key, ∀ m ∈ b.baseMutations ++ b.mutations, Shallow m.paths :=
    fun b hb => h.batches b (List.mem_filter.1 hb).1
  have hstart : ShallowMask (doc, (some [] : Option FieldMask)).2 := by
    intro paths hpaths
    obtain rfl := Option.some.inj hpaths
    simp [Shallow]
  generalize (doc, (some [] : Option FieldMask)) = s at hstart
  generalize ls.pending key = bs at hpending
  induction bs generalizing s with
  | nil => exact hstart
  | cons b bs ih =>
    exact ih _ (shallow_batch hstart (hpending b List.mem_cons_self)) fun a ha =>
      hpending a (List.mem_cons_of_mem _ ha)

/-- The pending batches are not lost on the way to the overlay. -/
theorem ShallowStore.anchored (h : ShallowStore ls) {doc : MutableDocument κ δ} :
    ∀ mask, (ls.replay key doc).2 = some mask → Anchored mask (ls.replay key doc).1.value :=
  fun mask hmask => anchored_of_shallow (h.replay mask hmask)

theorem ShallowStore.recalculateAndSaveOverlays (h : ShallowStore ls) (hsound : Sound ls)
    (hdocs : ∀ key doc, docs key = some doc → Remote key doc) :
    ShallowStore (ls.recalculateAndSaveOverlays docs).1 := by
  refine ⟨?_, fun key o ho => ?_⟩
  · rw [recalculateAndSaveOverlays_eq]
    exact h.batches
  · cases hdoc : docs key with
    | none =>
      rw [recalculateAndSaveOverlays_absent hdoc] at ho
      exact h.overlays key o ho
    | some doc =>
      rw [recalculateAndSaveOverlays_overlay hdoc, Option.or_eq_some_iff] at ho
      rcases ho with ho | ⟨-, ho⟩
      · obtain ⟨b, -, ho⟩ := Option.bind_eq_some_iff.1 ho
        obtain ⟨m, hm, rfl⟩ := Option.map_eq_some_iff.1 ho
        exact (hsound.replayed (hdocs key doc hdoc).ordered).shallow (hdocs key doc hdoc).noLocal h.replay hm
      · exact h.overlays key o ho

omit [DecidableEq κ] in
theorem shallow_newBatch {mutations : List (Mutation κ δ)} {now : Timestamp}
    (hm : ∀ m ∈ mutations, m.SetsFields ∧ Shallow m.paths) :
    ∀ m ∈ (ls.newBatch mutations now).baseMutations ++ (ls.newBatch mutations now).mutations, Shallow m.paths := by
  intro m hmem
  rcases List.mem_append.1 hmem with hmem | hmem
  · obtain ⟨a, ha, hbase⟩ := List.mem_filterMap.1 hmem
    exact (setsFields_baseMutation (hm a ha).1 hbase).2 (hm a ha).2
  · exact (hm m hmem).2

/-- The fields that a write and the overlay before it change. -/
theorem ShallowStore.mask_write {mutations : List (Mutation κ δ)} (h : ShallowStore ls) (now : Timestamp)
    (hm : ∀ m ∈ mutations, m.SetsFields ∧ Shallow m.paths) :
    ShallowMask ((ls.newBatch mutations now).applyToLocalView (ls.overlayedDocument key now).document
      (ls.overlayedDocument key now).mutatedFields).2 := by
  have hfields : ShallowMask (ls.overlayedDocument key now).mutatedFields := by
    rw [overlayedDocument]
    cases ho : ls.documentOverlayCache key with
    | none =>
      intro paths hpaths
      simp at hpaths
    | some o => exact h.overlays key o ho
  exact shallow_batch (s := ((ls.overlayedDocument key now).document, _)) hfields (shallow_newBatch hm)

theorem ShallowStore.writeLocally {mutations : List (Mutation κ δ)} {now : Timestamp} (h : ShallowStore ls)
    (hsound : Sound ls) (hm : ∀ m ∈ mutations, m.SetsFields ∧ Shallow m.paths) :
    ShallowStore (ls.writeLocally mutations now).1 := by
  refine ⟨?_, fun key o ho => ?_⟩
  · rw [writeLocally_eq]
    intro b hb
    rcases List.mem_append.1 hb with hb | hb
    · exact h.batches b hb
    · obtain rfl := List.mem_singleton.1 hb
      exact shallow_newBatch hm
  · rw [writeLocally_overlay] at ho
    split_ifs at ho
    · rcases Option.or_eq_some_iff.1 ho with ho | ⟨-, ho⟩
      · obtain ⟨m, hcalc, rfl⟩ := Option.map_eq_some_iff.1 ho
        exact (hsound.replayed_write now fun m hmem => (hm m hmem).1).shallow (hsound.remote key).noLocal
          (h.mask_write now hm) hcalc
      · exact h.overlays key o ho
    · exact h.overlays key o ho

omit [DecidableEq κ] [DecidableEq δ] [BEq δ] [Add δ] [IntCast δ] in
theorem ShallowStore.remove {ls' : LocalStore κ δ} (h : ShallowStore ls) (batchId : ℤ)
    (hqueue : ls'.mutationQueue = ls.mutationQueue.filter fun b => b.batchId ≠ batchId)
    (hcache : ∀ key, ls'.documentOverlayCache key =
      (ls.documentOverlayCache key).filter fun o => o.largestBatchId ≠ batchId) : ShallowStore ls' := by
  refine ⟨?_, fun key o ho => ?_⟩
  · rw [hqueue]
    exact fun b hb => h.batches b (List.mem_filter.1 hb).1
  · rw [hcache, Option.filter_eq_some_iff] at ho
    exact h.overlays key o ho.1

/-- The paths that the app writes have at most two segments. -/
def ShallowWrites : Event κ δ → Prop
  | .write mutations _ => ∀ m ∈ mutations, Shallow m.paths
  | _ => True

/-- What the app sees of every document is what the pending batches make of it. -/
def Agrees (ls : LocalStore κ δ) (key : κ) : Prop :=
  ∀ now, ls.getDocument key now = (ls.replay key (ls.get key)).1

theorem agrees_of_pending_nil (h : Sound ls) (hnil : ls.pending key = []) : Agrees ls key := by
  intro now
  have hnone : ls.documentOverlayCache key = none := by
    by_contra hsome
    obtain ⟨o, ho⟩ := Option.ne_none_iff_exists'.1 hsome
    obtain ⟨b, hb, -⟩ := (h.tracked.last key o ho).2
    rw [hnil] at hb
    simp at hb
  rw [getDocument, hnone, replay, hnil]
  rfl

/-- A document that a step does not concern is seen as before. -/
theorem Agrees.congr {ls' : LocalStore κ δ} (h : Agrees ls key) (hpending : ls'.pending key = ls.pending key)
    (hget : ls'.get key = ls.get key) (hcache : ls'.documentOverlayCache key = ls.documentOverlayCache key) :
    Agrees ls' key := by
  intro now
  have hbase : ls'.getBaseDocument key (ls.documentOverlayCache key) =
      ls.getBaseDocument key (ls.documentOverlayCache key) := by
    cases ls.documentOverlayCache key <;> simp [getBaseDocument, hget]
  rw [getDocument, hcache, hbase, replay, hpending, hget]
  exact h now

/-- A document whose overlay is calculated is seen as it should be, unless an old overlay remains and no batch
takes effect. -/
theorem agrees_of_recalculated (h : Sound ls) (hshallow : ShallowStore ls)
    (hdocs : ∀ key doc, docs key = some doc → Remote key doc) (hdoc : docs key = some (ls.get key))
    (hcurrent : (ls.recalculateAndSaveOverlays docs).1.documentOverlayCache key = none ∨
      TakesEffect (ls.recalculateAndSaveOverlays docs).1 key) :
    Agrees (ls.recalculateAndSaveOverlays docs).1 key := by
  intro now
  rw [TakesEffect, replay_recalculated, get_recalculated, ← TakesEffect,
    recalculateAndSaveOverlays_overlay hdoc, Option.or_eq_none_iff] at hcurrent
  rw [replay_recalculated, get_recalculated, h.recalculated_iff hdocs hdoc]
  split_ifs with heffect
  · exact hshallow.anchored
  · exact (hcurrent.resolve_right heffect).2

/-- A write starts from what the app sees. -/
theorem Sound.overlayedDocument_eq (h : Sound ls) (now : Timestamp) :
    (ls.overlayedDocument key now).document = ls.getDocument key now := by
  rw [h.getDocument_eq, overlayedDocument]
  cases ls.documentOverlayCache key with
  | none => rfl
  | some o => exact document_applyToLocalView

theorem pending_writeLocally {mutations : List (Mutation κ δ)} {now : Timestamp} :
    (ls.writeLocally mutations now).1.pending key =
      ls.pending key ++ if key ∈ (ls.newBatch mutations now).keys then [ls.newBatch mutations now] else [] := by
  have hqueue : (ls.writeLocally mutations now).1.mutationQueue =
      ls.mutationQueue ++ [ls.newBatch mutations now] := by rw [writeLocally_eq]; rfl
  rw [pending, hqueue, List.filter_append, ← pending]
  split_ifs with hkey
  · rw [List.filter_cons_of_pos (by simpa using hkey), List.filter_nil]
  · rw [List.filter_cons_of_neg (by simpa using hkey), List.filter_nil]

/-- After a write the app sees what the new batch makes of what it saw before. -/
theorem Agrees.writeLocally {mutations : List (Mutation κ δ)} {now : Timestamp} (h : Agrees ls key)
    (hsound : Sound ls) (hshallow : ShallowStore ls) (hm : ∀ m ∈ mutations, m.SetsFields ∧ Shallow m.paths) :
    Agrees (ls.writeLocally mutations now).1 key := by
  have hget : (ls.writeLocally mutations now).1.get key = ls.get key := by rw [writeLocally_eq]; rfl
  have hcache := @writeLocally_overlay _ _ _ _ _ _ _ ls key mutations now
  have hpending := @pending_writeLocally _ _ _ _ _ _ _ ls key mutations now
  by_cases hkey : key ∈ (ls.newBatch mutations now).keys
  · rw [if_pos hkey] at hcache hpending
    intro now'
    have hremote := hsound.remote key
    have hfields : ∀ m ∈ mutations, m.SetsFields := fun m hmem => (hm m hmem).1
    have hreplayed : Replayed (ls.get key) _ := hsound.replayed_write now hfields
    have hmask : ShallowMask ((ls.newBatch mutations now).applyToLocalView (ls.overlayedDocument key now).document
      (ls.overlayedDocument key now).mutatedFields).2 := hshallow.mask_write now hm
    have hsound' : Sound (ls.writeLocally mutations now).1 := hsound.writeLocally hfields
    have hreplay : ((ls.writeLocally mutations now).1.replay key (ls.get key)).1 =
        ((ls.newBatch mutations now).applyToLocalView (ls.overlayedDocument key now).document
          (ls.overlayedDocument key now).mutatedFields).1 := by
      rw [LocalStore.replay, hpending, List.foldl_append, List.foldl_cons, List.foldl_nil, ← LocalStore.replay,
        hsound.overlayedDocument_eq, h now]
      exact document_batch
    have hnone : ((ls.newBatch mutations now).applyToLocalView (ls.overlayedDocument key now).document
        (ls.overlayedDocument key now).mutatedFields).1.hasLocalMutations = false →
          ls.documentOverlayCache key = none := by
      intro hlocal
      by_contra hsome
      obtain ⟨o, ho⟩ := Option.ne_none_iff_exists'.1 hsome
      rw [hasLocalMutations_batch (hsound.tracked.hasLocalMutations_overlayed ho now)] at hlocal
      simp at hlocal
    rw [hget, hreplay, hsound'.getDocument_eq, hget, hcache]
    generalize (ls.newBatch mutations now).applyToLocalView (ls.overlayedDocument key now).document
      (ls.overlayedDocument key now).mutatedFields = v at hreplayed hmask hnone
    have hsome := @isSome_calculateOverlayMutation _ _ v.1 v.2
    cases hlocal : v.1.hasLocalMutations with
    | true =>
      rw [hlocal] at hsome
      obtain ⟨m, hcalc⟩ := Option.isSome_iff_exists.1 hsome
      have hiff := hreplayed.overlay_iff hremote.ordered hremote.noLocal now'
      rw [hcalc] at hiff ⊢
      exact hiff.2 fun mask hmask' => anchored_of_shallow (hmask mask hmask')
    | false =>
      rw [hlocal] at hsome
      have hcalc : Mutation.calculateOverlayMutation v.1 v.2 = none := by simpa using hsome
      rw [hcalc, hnone hlocal, hreplayed.eq_base hlocal]
      rfl
  · rw [if_neg hkey] at hcache hpending
    exact h.congr (hpending.trans (List.append_nil _)) hget hcache

/-- The step takes a batch of the document out of the queue, or brings a new version of the document. -/
def Changes (key : κ) (ls : LocalStore κ δ) : Event κ δ → Prop
  | .acknowledge batchId _ | .reject batchId => ∃ b, ls.lookupMutationBatch batchId = some b ∧ key ∈ b.keys
  | .remoteEvent documentUpdates _ => ∃ doc, documentUpdates key = some doc ∧ isNewer doc (ls.get key) = true
  | .write _ _ | .restart => False

/-- The step calculates the overlay of the document. An answer of the backend does so for all documents of its
batch, and a new version if the document comes into existence or ceases to exist by it. -/
def Recalculates (key : κ) (ls : LocalStore κ δ) : Event κ δ → Prop
  | .acknowledge _ _ | .reject _ => True
  | .remoteEvent documentUpdates _ => ∃ doc, documentUpdates key = some doc ∧ doc.version ≠ 0 ∧
      doc.isFoundDocument ≠ (ls.get key).isFoundDocument ∧
      ∀ o, ls.documentOverlayCache key = some o → o.mutation.isPatch = true
  | .write _ _ | .restart => False

/-- A document that the step changes has no pending batches afterwards or gets a new overlay; and if it has an
overlay afterwards, then a pending batch takes effect. -/
def Renews (ls : LocalStore κ δ) (e : Event κ δ) : Prop :=
  ∀ ls', ls.react e = some ls' → ∀ key, Changes key ls e →
    (ls'.pending key = [] ∨ Recalculates key ls e) ∧ (ls'.documentOverlayCache key = none ∨ TakesEffect ls' key)

omit [DecidableEq δ] [BEq δ] [Add δ] [IntCast δ] in
/-- An acknowledged batch has its overlays calculated anew for all of its documents. -/
theorem mem_getKeysWithTransformResults {b : MutationBatch κ δ} {results : List (MutationResult δ)}
    (hlength : results.length = b.mutations.length) :
    key ∈ MutationBatchResult.getKeysWithTransformResults ⟨b, results⟩ ↔ key ∈ b.keys := by
  unfold MutationBatchResult.getKeysWithTransformResults
  have hfst : (b.mutations.zip results).map Prod.fst = b.mutations := List.map_fst_zip hlength.ge
  have hkeys : (b.mutations.zip results).map (fun m => m.1.key) = b.mutations.map Mutation.key := by
    rw [← hfst, List.map_map, hfst]
    rfl
  rw [hkeys, MutationBatch.mem_keys, List.mem_map]

omit [DecidableEq δ] [BEq δ] [Add δ] [IntCast δ] in
theorem docVersion_of_not_mem {result : MutationBatchResult κ δ} (h : key ∉ result.batch.keys) :
    result.docVersion key = none := by
  rw [MutationBatchResult.docVersion]
  have hzip : ∀ m ∈ result.batch.mutations.zip result.mutationResults, m.1.key ≠ key :=
    fun m hm heq => h (MutationBatch.mem_keys.2 ⟨m.1, (List.of_mem_zip hm).1, heq⟩)
  generalize result.batch.mutations.zip result.mutationResults = ms at hzip
  induction ms with
  | nil => rfl
  | cons m ms ih =>
    rw [List.foldl_cons, if_neg (hzip m List.mem_cons_self)]
    exact ih fun a ha => hzip a (List.mem_cons_of_mem _ ha)

omit [DecidableEq δ] [BEq δ] [Add δ] [IntCast δ] in
/-- Taking a batch out of the queue does not concern the documents that it does not change. -/
theorem pending_remove {ls' : LocalStore κ δ} {b : MutationBatch κ δ} (h : Tracked ls) (hb : b ∈ ls.mutationQueue)
    (hkey : key ∉ b.keys)
    (hqueue : ls'.mutationQueue = ls.mutationQueue.filter fun a => a.batchId ≠ b.batchId) :
    ls'.pending key = ls.pending key := by
  rw [pending, hqueue, List.filter_filter, pending]
  refine List.filter_congr fun a ha => ?_
  by_cases hid : a.batchId = b.batchId
  · have hnodup : (ls.mutationQueue.map MutationBatch.batchId).Nodup := h.ids.imp fun hab => hab.ne
    obtain rfl := List.inj_on_of_nodup_map hnodup ha hb hid
    simp [hkey]
  · simp [hid]

/-- A document of other batches only is seen as before. -/
theorem Agrees.remove {ls₁ : LocalStore κ δ} {b : MutationBatch κ δ} {keys : List κ} (h : Agrees ls key)
    (htracked : Tracked ls) (hb : b ∈ ls.mutationQueue) (hkey : key ∉ b.keys) (hkeys : key ∉ keys)
    (hqueue : ls₁.mutationQueue = ls.mutationQueue.filter fun a => a.batchId ≠ b.batchId)
    (hget : ls₁.get key = ls.get key)
    (hcache : ls₁.documentOverlayCache key =
      (ls.documentOverlayCache key).filter fun o => o.largestBatchId ≠ b.batchId) :
    Agrees (ls₁.recalculateAndSaveOverlays (ls₁.getAll keys)).1 key := by
  have hnone : ls₁.getAll keys key = none := if_neg hkeys
  have hqueue' : (ls₁.recalculateAndSaveOverlays (ls₁.getAll keys)).1.mutationQueue =
      ls.mutationQueue.filter fun a => a.batchId ≠ b.batchId := by
    rw [recalculateAndSaveOverlays_eq]
    exact hqueue
  refine h.congr (pending_remove htracked hb hkey hqueue') (get_recalculated.trans hget) ?_
  rw [recalculateAndSaveOverlays_absent hnone, hcache]
  cases ho : ls.documentOverlayCache key with
  | none => rfl
  | some o =>
    have hne : o.largestBatchId ≠ b.batchId := by
      refine htracked.largestBatchId_ne ho ?_
      rintro ⟨a, ha, hid, hkey'⟩
      have hnodup : (ls.mutationQueue.map MutationBatch.batchId).Nodup := htracked.ids.imp fun hab => hab.ne
      obtain rfl := List.inj_on_of_nodup_map hnodup ha hb hid
      exact hkey hkey'
    simp [Option.filter, hne]

omit [DecidableEq κ] [DecidableEq δ] [BEq δ] [Add δ] [IntCast δ] in
theorem get_populated {documentUpdates : κ → Option (MutableDocument κ δ)} {doc : MutableDocument κ δ}
    (hdoc : documentUpdates key = some doc) (hnewer : isNewer doc (ls.get key) = true) (hversion : doc.version ≠ 0) :
    (ls.populateDocumentChanges documentUpdates).get key = doc := by
  rw [get, populateDocumentChanges]
  simp [hdoc, hnewer, hversion]

omit [DecidableEq κ] [DecidableEq δ] [BEq δ] [Add δ] [IntCast δ] in
theorem get_not_populated {documentUpdates : κ → Option (MutableDocument κ δ)}
    (hold : ∀ doc, documentUpdates key = some doc → isNewer doc (ls.get key) = false) :
    (ls.populateDocumentChanges documentUpdates).get key = ls.get key := by
  rw [get, populateDocumentChanges, get]
  cases hdoc : documentUpdates key with
  | none => simp [hdoc]
  | some doc =>
    have hnewer := hold doc hdoc
    have hkeep : (doc.isNoDocument && decide (doc.version = 0)) = false := by
      rw [isNewer] at hnewer
      simp only [Bool.or_eq_false_iff] at hnewer
      exact hnewer.1.1.1
    simp [hdoc, hnewer, hkeep]

omit [DecidableEq κ] [DecidableEq δ] [BEq δ] [Add δ] [IntCast δ] in
theorem mustRecalculate_of_changed {documentUpdates : κ → Option (MutableDocument κ δ)} {doc : MutableDocument κ δ}
    (hdoc : documentUpdates key = some doc) (hexists : doc.isFoundDocument ≠ (ls.get key).isFoundDocument)
    (hpatch : ∀ o, ls.documentOverlayCache key = some o → o.mutation.isPatch = true) :
    (ls.populateDocumentChanges documentUpdates).mustRecalculate (ls.existenceChanged documentUpdates) key =
      true := by
  have hcache : (ls.populateDocumentChanges documentUpdates).documentOverlayCache key =
      ls.documentOverlayCache key := rfl
  have hchanged : ls.existenceChanged documentUpdates key = true := by simp [existenceChanged, hdoc, hexists]
  rw [mustRecalculate, hcache, hchanged]
  cases ho : ls.documentOverlayCache key with
  | none => rfl
  | some o => exact hpatch o ho

/-- An acknowledged batch leaves the documents alone that it does not change. -/
theorem get_applyBatchResult_of_not_mem {b : MutationBatch κ δ} {results : List (MutationResult δ)}
    (hkey : key ∉ b.keys) : (ls.applyBatchResult ⟨b, results⟩).get key = ls.get key := by
  have hversion : MutationBatchResult.docVersion ⟨b, results⟩ key = none := docVersion_of_not_mem hkey
  rw [get, get]
  simp only [applyBatchResult, removeMutationBatch, hversion]

/-- The store without an acknowledged batch, before the overlays are calculated. -/
theorem acknowledged_sound {b : MutationBatch κ δ} {results : List (MutationResult δ)} (h : Sound ls)
    (hshallow : ShallowStore ls) (hb : b ∈ ls.mutationQueue)
    (hresults : ∀ r ∈ results, ∀ v ∈ r.transformResults, v.sortFields.Ordered) :
    Sound ((ls.applyBatchResult ⟨b, results⟩).removeOverlaysForBatchId b.batchId) ∧
      ShallowStore ((ls.applyBatchResult ⟨b, results⟩).removeOverlaysForBatchId b.batchId) := by
  have hremote : ∀ key, Remote key ((ls.applyBatchResult ⟨b, results⟩).get key) :=
    h.remote_applyBatchResult hb hresults
  exact ⟨h.remove b.batchId rfl rfl (fun _ => rfl) hremote, hshallow.remove b.batchId rfl fun _ => rfl⟩

omit [DecidableEq δ] [BEq δ] [Add δ] [IntCast δ] in
/-- The store without a rejected batch, before the overlays are calculated. -/
theorem rejected_sound (h : Sound ls) (hshallow : ShallowStore ls) (batchId : ℤ) :
    Sound ((ls.removeMutationBatch batchId).removeOverlaysForBatchId batchId) ∧
      ShallowStore ((ls.removeMutationBatch batchId).removeOverlaysForBatchId batchId) :=
  ⟨h.remove batchId rfl rfl (fun _ => rfl) h.remote, hshallow.remove batchId rfl fun _ => rfl⟩

/-- The paths of the masks stay short in every step. -/
theorem ShallowStore.react {e : Event κ δ} {ls' : LocalStore κ δ} (h : ShallowStore ls) (hsound : Sound ls)
    (he : WellFormed e) (hwrites : ShallowWrites e) (hstep : ls.react e = some ls') : ShallowStore ls' := by
  cases e with
  | write mutations now =>
    rw [LocalStore.react] at hstep
    split_ifs at hstep
    obtain rfl := Option.some.inj hstep
    exact h.writeLocally hsound fun m hmem => ⟨he m hmem, hwrites m hmem⟩
  | acknowledge batchId results =>
    obtain ⟨b, hlookup, hstep⟩ := Option.bind_eq_some_iff.1 hstep
    split_ifs at hstep
    obtain rfl := Option.some.inj hstep
    obtain ⟨hsound₁, hshallow₁⟩ := acknowledged_sound hsound h (List.mem_of_find?_eq_some hlookup) he
    exact hshallow₁.recalculateAndSaveOverlays hsound₁ (remote_getAll hsound₁.remote)
  | reject batchId =>
    obtain ⟨b, hlookup, hstep⟩ := Option.bind_eq_some_iff.1 hstep
    obtain rfl := Option.some.inj hstep
    obtain ⟨hsound₁, hshallow₁⟩ := rejected_sound hsound h b.batchId
    exact hshallow₁.recalculateAndSaveOverlays hsound₁ (remote_getAll hsound₁.remote)
  | remoteEvent documentUpdates now =>
    obtain rfl := Option.some.inj hstep
    have hshallow₁ : ShallowStore (ls.populateDocumentChanges documentUpdates) := ⟨h.batches, h.overlays⟩
    exact hshallow₁.recalculateAndSaveOverlays (hsound.populateDocumentChanges he) (remote_recalculatedDocs he)
  | restart =>
    obtain rfl := Option.some.inj hstep
    exact ⟨h.batches, h.overlays⟩

/-- A document stays right when the backend sends others, or when its overlay is calculated for the new version. -/
theorem Agrees.applyRemoteEvent {documentUpdates : κ → Option (MutableDocument κ δ)} {now : Timestamp}
    (h : Agrees ls key) (hsound : Sound ls) (hshallow : ShallowStore ls)
    (he : WellFormed (.remoteEvent documentUpdates now))
    (hrenews : Changes key ls (.remoteEvent documentUpdates now) →
      ((ls.applyRemoteEvent documentUpdates now).pending key = [] ∨
        Recalculates key ls (.remoteEvent documentUpdates now)) ∧
      ((ls.applyRemoteEvent documentUpdates now).documentOverlayCache key = none ∨
        TakesEffect (ls.applyRemoteEvent documentUpdates now) key)) :
    Agrees (ls.applyRemoteEvent documentUpdates now) key := by
  have hsound₁ := hsound.populateDocumentChanges he
  have hshallow₁ : ShallowStore (ls.populateDocumentChanges documentUpdates) :=
    ⟨hshallow.batches, hshallow.overlays⟩
  have hdocs : ∀ key doc, ls.recalculatedDocs documentUpdates key = some doc → Remote key doc :=
    remote_recalculatedDocs he
  by_cases hnew : ∃ doc, documentUpdates key = some doc ∧ isNewer doc (ls.get key) = true
  · obtain ⟨hpending | ⟨doc, hdoc, hversion, hexists, hpatch⟩, hcurrent⟩ := hrenews hnew
    · exact agrees_of_pending_nil (hsound.applyRemoteEvent he) hpending
    · obtain ⟨doc', hdoc', hnewer⟩ := hnew
      obtain rfl := Option.some.inj (hdoc.symm.trans hdoc')
      have hrecalc : ls.recalculatedDocs documentUpdates key =
          some ((ls.populateDocumentChanges documentUpdates).get key) := by
        rw [get_populated hdoc hnewer hversion, recalculatedDocs,
          if_pos (mustRecalculate_of_changed hdoc hexists hpatch), changedDocs, hdoc]
        simp [hnewer]
      exact agrees_of_recalculated hsound₁ hshallow₁ hdocs hrecalc hcurrent
  · have hold : ∀ doc, documentUpdates key = some doc → isNewer doc (ls.get key) = false :=
      fun doc hdoc => Bool.eq_false_iff.2 fun hnewer => hnew ⟨doc, hdoc, hnewer⟩
    have hnone : ls.recalculatedDocs documentUpdates key = none := by
      have hchanged : ls.changedDocs documentUpdates key = none := by
        rw [changedDocs, Option.filter_eq_none_iff]
        intro doc hdoc
        simp [hold doc hdoc]
      rw [recalculatedDocs, hchanged, ite_self]
    have hagrees : Agrees (ls.populateDocumentChanges documentUpdates) key :=
      h.congr rfl (get_not_populated hold) rfl
    exact hagrees.congr pending_recalculated get_recalculated (recalculateAndSaveOverlays_absent hnone)

/-- What the app sees of a document stays right in a step that does not change it, and in one that keeps its
overlay up to date. -/
theorem Agrees.react {e : Event κ δ} {ls' : LocalStore κ δ} (h : Agrees ls key) (hsound : Sound ls)
    (hshallow : ShallowStore ls) (he : WellFormed e) (hwrites : ShallowWrites e)
    (hrenews : Changes key ls e → (ls'.pending key = [] ∨ Recalculates key ls e) ∧
      (ls'.documentOverlayCache key = none ∨ TakesEffect ls' key))
    (hstep : ls.react e = some ls') : Agrees ls' key := by
  cases e with
  | write mutations now =>
    rw [LocalStore.react] at hstep
    split_ifs at hstep
    obtain rfl := Option.some.inj hstep
    exact h.writeLocally hsound hshallow fun m hmem => ⟨he m hmem, hwrites m hmem⟩
  | acknowledge batchId results =>
    obtain ⟨b, hlookup, hstep⟩ := Option.bind_eq_some_iff.1 hstep
    split_ifs at hstep with hlength
    obtain rfl := Option.some.inj hstep
    have hb := List.mem_of_find?_eq_some hlookup
    obtain ⟨hsound₁, hshallow₁⟩ := acknowledged_sound hsound hshallow hb he
    by_cases hkey : key ∈ b.keys
    · exact agrees_of_recalculated hsound₁ hshallow₁ (remote_getAll hsound₁.remote)
        (if_pos ((mem_getKeysWithTransformResults hlength).2 hkey)) (hrenews ⟨b, hlookup, hkey⟩).2
    · refine h.remove hsound.tracked hb hkey ?_ rfl (get_applyBatchResult_of_not_mem hkey) rfl
      rwa [mem_getKeysWithTransformResults hlength]
  | reject batchId =>
    obtain ⟨b, hlookup, hstep⟩ := Option.bind_eq_some_iff.1 hstep
    obtain rfl := Option.some.inj hstep
    have hb := List.mem_of_find?_eq_some hlookup
    obtain ⟨hsound₁, hshallow₁⟩ := rejected_sound hsound hshallow b.batchId
    by_cases hkey : key ∈ b.keys
    · exact agrees_of_recalculated hsound₁ hshallow₁ (remote_getAll hsound₁.remote) (if_pos hkey)
        (hrenews ⟨b, hlookup, hkey⟩).2
    · exact h.remove hsound.tracked hb hkey hkey rfl rfl rfl
  | remoteEvent documentUpdates now =>
    obtain rfl := Option.some.inj hstep
    exact h.applyRemoteEvent hsound hshallow he hrenews
  | restart =>
    obtain rfl := Option.some.inj hstep
    exact h.congr rfl rfl rfl

/-- In every run whose steps keep the overlays up to date, the app sees every document as it is after the pending
batches have been applied to what the backend has sent. -/
theorem view_agrees {es : List (Event κ δ)} (he : ∀ e ∈ es, WellFormed e) (hwrites : ∀ e ∈ es, ShallowWrites e)
    (hrenews : Transition.AllSteps react Renews {} es) (hr : Transition.run react {} es = some ls) (key : κ)
    (now : Timestamp) : ls.getDocument key now = ls.getDocumentWithBatches key (ls.pending key) := by
  have hsteps : Transition.AllSteps react (fun ls e => Renews ls e ∧ WellFormed e ∧ ShallowWrites e) {} es :=
    hrenews.and (Transition.allSteps_of_forall_mem fun e hmem => ⟨he e hmem, hwrites e hmem⟩)
  have hstart : Sound ({} : LocalStore κ δ) ∧ ShallowStore ({} : LocalStore κ δ) ∧
      ∀ key, Agrees ({} : LocalStore κ δ) key :=
    ⟨⟨tracked_start, fun _ => remote_invalidDocument, by simp, by simp⟩, ⟨by simp, by simp⟩, fun _ _ => rfl⟩
  obtain ⟨-, -, hagrees⟩ := Transition.run_invariant
    (I := fun ls => Sound ls ∧ ShallowStore ls ∧ ∀ key, Agrees ls key)
    (fun ls e ls' hp hs hstep => ⟨hs.1.react hp.2.1 hstep, hs.2.1.react hs.1 hp.2.1 hp.2.2 hstep,
      fun key => (hs.2.2 key).react hs.1 hs.2.1 hp.2.1 hp.2.2 (hp.1 ls' hstep key) hstep⟩) hsteps hstart hr
  rw [getDocumentWithBatches_eq]
  exact hagrees key now

/-- A document is set and updated, and the first write is acknowledged. -/
theorem view_agrees_acknowledged :
    ∃ ls : LocalStore String ℤ,
      Transition.run react {} [.write [setK] ⟨0, 0⟩, .write [updateK] ⟨0, 0⟩, .acknowledge 1 [⟨5, []⟩]] = some ls ∧
        ls.getDocument "k" ⟨0, 0⟩ = ls.getDocumentWithBatches "k" (ls.pending "k") := by
  have he : ∀ e ∈ [Event.write [setK] ⟨0, 0⟩, .write [updateK] ⟨0, 0⟩, .acknowledge 1 [⟨5, []⟩]],
      WellFormed e := by
    simp [WellFormed, setsFields_setK, setsFields_updateK]
  have hwrites : ∀ e ∈ [Event.write [setK] ⟨0, 0⟩, .write [updateK] ⟨0, 0⟩, .acknowledge 1 [⟨5, []⟩]],
      ShallowWrites e := by
    simp [ShallowWrites, Shallow, setK, updateK, Mutation.paths, Mutation.fieldMask, Mutation.fieldTransforms]
  have hrenews : Transition.AllSteps react Renews {}
      [.write [setK] ⟨0, 0⟩, .write [updateK] ⟨0, 0⟩, .acknowledge 1 [⟨5, []⟩]] := by
    refine ⟨fun _ _ _ hfalse => hfalse.elim, fun _ h₁ => ?_⟩
    obtain rfl := Option.some.inj h₁
    refine ⟨fun _ _ _ hfalse => hfalse.elim, fun _ h₂ => ?_⟩
    obtain rfl := Option.some.inj h₂
    refine ⟨?_, fun _ _ => trivial⟩
    rintro _ h₃ key ⟨b, hb, hkey⟩
    obtain rfl := Option.some.inj h₃
    obtain rfl := Option.some.inj hb
    obtain rfl : key = "k" := by simpa [MutationBatch.keys, setK, Mutation.key] using hkey
    exact ⟨.inr trivial, .inr rfl⟩
  exact ⟨_, rfl, view_agrees he hwrites hrenews rfl "k" _⟩

end LocalStore

end Firestore

end Datability
