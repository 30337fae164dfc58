import Datability.DocumentView
import Datability.Proofs.FirestoreProofs
import Datability.Proofs.IncrementProofs
import Datability.Proofs.LocalViewProofs
import Datability.Proofs.TransitionProofs

/-!
# Proofs: user documents in the local store

A batch that starts from the number which the document has is the same as the write it stands for. The base value
of an increment is the number that the phone saw, so this stays so as long as nobody else changes the document
while writes of the phone are pending; then the view of the client library is the document of the server with the
queue of the phone applied to it.
-/

namespace Datability

open Firestore Firestore.LocalStore Transition

theorem Key.name_injective : Function.Injective Key.name := by
  intro k l h
  cases k <;> cases l <;> first | rfl | (exact absurd h (by decide))

/-! ## Writes to other documents -/

namespace Server

variable {s s' : Server} {doc : String}

theorem users_apply_of_isTo_eq_false {x : Write} (h : x.isTo doc = false) : (s.apply x).users doc = s.users doc := by
  cases x with
  | addDocument c e => rfl
  | setData doc' fields =>
    have hne : doc ≠ doc' := by simpa [Write.isTo, eq_comm] using h
    simp [apply, hne]
  | increment doc' k q =>
    have hne : doc ≠ doc' := by simpa [Write.isTo, eq_comm] using h
    simp [apply, updateUser, hne]
  | updateData doc' k v =>
    have hne : doc ≠ doc' := by simpa [Write.isTo, eq_comm] using h
    simp [apply, updateUser, hne]

theorem users_apply_congr (h : s'.users doc = s.users doc) (x : Write) :
    (s'.apply x).users doc = (s.apply x).users doc := by
  cases hto : x.isTo doc with
  | false => rw [users_apply_of_isTo_eq_false hto, users_apply_of_isTo_eq_false hto, h]
  | true =>
    cases x with
    | addDocument c e => exact h
    | setData doc' fields =>
      obtain rfl : doc' = doc := by simpa [Write.isTo] using hto
      simp [apply]
    | increment doc' k q =>
      obtain rfl : doc' = doc := by simpa [Write.isTo] using hto
      simp [apply, updateUser, h]
    | updateData doc' k v =>
      obtain rfl : doc' = doc := by simpa [Write.isTo] using hto
      simp [apply, updateUser, h]

/-- Of a queue only the writes to the document matter to it. -/
theorem users_foldl_filter_isTo (ws : List Write) (h : s'.users doc = s.users doc) :
    ((ws.filter (Write.isTo doc)).foldl apply s').users doc = (ws.foldl apply s).users doc := by
  induction ws generalizing s s' with
  | nil => exact h
  | cons x ws ih =>
    cases hto : x.isTo doc with
    | true =>
      rw [List.filter_cons_of_pos hto]
      exact ih (users_apply_congr h x)
    | false =>
      rw [List.filter_cons_of_neg (by simp [hto])]
      exact ih (h.trans (users_apply_of_isTo_eq_false hto).symm)

end Server

namespace Firestore

/-! ## Reading -/

/-- What the app can read has no fields of its own. -/
theorem Value.sortFields_of_read {x : Value ℚ} {v : Datability.Value} (h : x.read = some v) :
    x.sortFields = x := by
  cases x <;> first | rfl | simp [Value.read] at h

theorem Value.ordered_of_read {x : Value ℚ} {v : Datability.Value} (h : x.read = some v) : x.Ordered := by
  cases x <;> trivial

theorem Value.read_number (n : Number ℚ) : n.toValue.read = some (.number n.asDouble) := by
  cases n <;> rfl

/-- The base value of an increment is the number that the app reads. -/
theorem asDouble_computeBaseValue (m : MapValue ℚ) (k : Key) :
    (TransformOperation.computeBaseValue ((Value.map m).get [k.name])).asDouble = (MapValue.read m).double k := by
  have hget : (Value.map m).get [k.name] = m.lookup k.name := by
    rw [Value.get_cons]
    cases m.lookup k.name <;> simp
  rw [hget, Fields.double, MapValue.read]
  cases m.lookup k.name with
  | none => simp [TransformOperation.computeBaseValue, Number.asDouble]
  | some x => cases x <;> simp [TransformOperation.computeBaseValue, Number.asDouble, Value.read]

/-- Setting one field. -/
theorem read_setAll {m : MapValue ℚ} (hm : Value.OrderedEntries m) (k : Key) {x : Value ℚ} {v : Datability.Value}
    (hx : x.read = some v) :
    Value.OrderedEntries (MapValue.setAll [([k.name], some x)] m) ∧
      MapValue.read (MapValue.setAll [([k.name], some x)] m) = (MapValue.read m).set k v := by
  have hsort : ∀ y ∈ some x, y.sortFields.Ordered := by
    intro y hy
    obtain rfl := Option.some.inj hy
    rw [Value.sortFields_of_read hx]
    exact Value.ordered_of_read hx
  have hset : MapValue.setAll [([k.name], some x)] m = MapValue.putField k.name (some x) m := by
    rw [MapValue.setAll_eq hm (by simp) (by simp) (by simpa using hsort) (by simp [MapValue.DeletesAbsent])]
    rfl
  rw [hset]
  refine ⟨MapValue.ordered_putField hsort hm, ?_⟩
  funext l
  rw [MapValue.read, MapValue.lookup_putField hm.sorted]
  by_cases hl : l = k
  · subst hl
    rw [if_pos rfl, Fields.set_self, Option.map_some, Value.sortFields_of_read hx]
    exact hx
  · rw [if_neg (Key.name_injective.ne hl), Fields.set_of_ne _ _ hl]
    rfl

/-! ## One write -/

/-- A document that reads as `users/<doc>` of the server `s`. -/
structure ReadsAs (doc : String) (s : Server) (document : MutableDocument String ℚ) : Prop where
  key_eq : document.key = doc
  ordered : Value.OrderedEntries document.value
  read_eq : document.read = s.users doc

theorem ReadsAs.found {doc : String} {s : Server} {document : MutableDocument String ℚ} {f : Fields}
    (h : ReadsAs doc s document) (hf : s.users doc = some f) :
    document.isFoundDocument = true ∧ MapValue.read document.value = f := by
  have hread := h.read_eq
  rw [hf, MutableDocument.read] at hread
  split_ifs at hread with hfound
  exact ⟨hfound, Option.some.inj hread⟩

theorem ReadsAs.congr {doc : String} {s s' : Server} {document : MutableDocument String ℚ}
    (h : ReadsAs doc s document) (hs : s'.users doc = s.users doc) : ReadsAs doc s' document :=
  ⟨h.key_eq, h.ordered, h.read_eq.trans hs.symm⟩

/-- All increments of the app are floating point numbers, so none of them is cut off. -/
theorem applyToLocalView_increment (previous : Option (Value ℚ)) (now : Timestamp) (q : ℚ) :
    (TransformOperation.increment (.double q)).applyToLocalView previous now =
      .double ((TransformOperation.computeBaseValue previous).asDouble + q) := by
  unfold TransformOperation.applyToLocalView
  cases TransformOperation.computeBaseValue previous <;> rfl

/-- On the server an increment is the assignment of the sum. -/
theorem users_increment_eq {doc : String} {s : Server} {f : Fields} (hf : s.users doc = some f) (k : Key) (q : ℚ) :
    (s.apply (.increment doc k q)).users doc =
      (s.apply (.updateData doc k (.number (f.double k + q)))).users doc := by
  rw [Server.users_increment_self hf, Server.users_updateData_self hf]

/-- A mutation that sets one field of the document. -/
theorem ReadsAs.setField {doc : String} {s : Server} {document : MutableDocument String ℚ} {f : Fields}
    (h : ReadsAs doc s document) (hf : s.users doc = some f) (k : Key) {x : Value ℚ} {v : Datability.Value}
    (hx : x.read = some v) (version : ℕ) :
    ReadsAs doc (s.apply (.updateData doc k v)) (document.convertToFoundDocument version
      (MapValue.setAll [([k.name], some x)] document.value)) := by
  obtain ⟨hordered, hread⟩ := read_setAll h.ordered k hx
  refine ⟨h.key_eq, hordered, ?_⟩
  rw [Server.users_updateData_self hf, ← (h.found hf).2, ← hread]
  rfl

/-- A document that is there can be updated. -/
theorem ReadsAs.isValidFor {doc : String} {s : Server} {document : MutableDocument String ℚ} {f : Fields}
    (h : ReadsAs doc s document) (hf : s.users doc = some f) :
    (Precondition.exists true).isValidFor document = true := by
  simp [Precondition.isValidFor, (h.found hf).1]

theorem getPatch_singleton (k : Key) (x : Value ℚ) :
    Mutation.getPatch [(k.name, x)] [[k.name]] = [([k.name], some x)] := by
  simp [Mutation.getPatch, Value.get_cons, SortedMap.insert]

/-- A mutation makes of the document what the write does on the server. -/
theorem ReadsAs.applyToLocalView {doc : String} {s : Server} {document : MutableDocument String ℚ} {x : Write}
    {m : Mutation String ℚ} (h : ReadsAs doc s document) (hm : x.Becomes m) (hkey : m.key = doc)
    (hpatch : m.isPatch = true → s.users doc ≠ none) (mask : Option FieldMask) (now : Timestamp) :
    ReadsAs doc (s.apply x) (m.applyToLocalView document mask now).1 ∧
      (m.applyToLocalView document mask now).1.hasLocalMutations = true := by
  cases hm with
  | @setData doc' fields value hordered hread =>
    obtain rfl : doc' = doc := hkey
    rw [apply_set_overlay hordered]
    refine ⟨⟨h.key_eq, hordered, ?_⟩, rfl⟩
    rw [← hread]
    simp [Server.apply, MutableDocument.read, MutableDocument.isFoundDocument,
      MutableDocument.convertToFoundDocument, MutableDocument.setHasLocalMutations]
  | increment doc' k q =>
    obtain rfl : doc' = doc := hkey
    obtain ⟨f, hf⟩ := Option.ne_none_iff_exists'.1 (hpatch rfl)
    have hpatch : MapValue.setAll (Mutation.getPatch [] []) document.value = document.value :=
      setAll_nil h.ordered
    have hresults : Mutation.localTransformResults document.value now [⟨[k.name], .increment (.double q)⟩] =
        [([k.name], some (.double (f.double k + q)))] := by
      rw [← (h.found hf).2, ← asDouble_computeBaseValue, ← applyToLocalView_increment _ now]
      rfl
    have hset := h.setField hf k (x := .double (f.double k + q)) rfl document.version
    rw [Mutation.applyToLocalView, if_pos (h.isValidFor hf)]
    simp only [hpatch, hresults]
    exact ⟨⟨hset.key_eq, hset.ordered, hset.read_eq.trans (users_increment_eq hf k q).symm⟩, rfl⟩
  | @updateData doc' k v y hread =>
    obtain rfl : doc' = doc := hkey
    obtain ⟨f, hf⟩ := Option.ne_none_iff_exists'.1 (hpatch rfl)
    have hset := h.setField hf k hread document.version
    have hresults : Mutation.localTransformResults document.value now ([] : List (FieldTransform ℚ)) = [] := rfl
    rw [Mutation.applyToLocalView, if_pos (h.isValidFor hf)]
    simp only [getPatch_singleton, hresults]
    rw [setAll_nil (read_setAll h.ordered k hread).1]
    exact ⟨⟨hset.key_eq, hset.ordered, hset.read_eq⟩, rfl⟩

/-! ## The batch of a write -/

/-- The batch of a write to `users/<doc>`; an increment starts from the number that the server `s` has. -/
inductive IsBatchOf (doc : String) (s : Server) : Write → MutationBatch String ℚ → Prop
  | setData {fields : Fields} {value : MapValue ℚ} {batchId : ℤ} {now : Timestamp}
      (hordered : Value.OrderedEntries value) (hread : MapValue.read value = fields) :
      IsBatchOf doc s (.setData doc fields) ⟨batchId, now, [], [.set doc value .none []]⟩
  | increment {f : Fields} {k : Key} {q : ℚ} {n : Number ℚ} {batchId : ℤ} {now : Timestamp}
      (hf : s.users doc = some f) (hbase : n.asDouble = f.double k) :
      IsBatchOf doc s (.increment doc k q)
        ⟨batchId, now, [.patch doc [(k.name, n.toValue)] [[k.name]] (.exists true) []],
          [.patch doc [] [] (.exists true) [⟨[k.name], .increment (.double q)⟩]]⟩
  | updateData {f : Fields} {k : Key} {v : Datability.Value} {x : Value ℚ} {batchId : ℤ} {now : Timestamp}
      (hf : s.users doc = some f) (hread : x.read = some v) :
      IsBatchOf doc s (.updateData doc k v)
        ⟨batchId, now, [], [.patch doc [(k.name, x)] [[k.name]] (.exists true) []]⟩

variable {doc : String} {s s' : Server} {document : MutableDocument String ℚ} {x : Write}
  {b : MutationBatch String ℚ}

/-- A batch that changes no other document. -/
theorem applyToLocalView_of_keys (hkeys : ∀ m ∈ b.baseMutations ++ b.mutations, m.key = document.key)
    (mask : Option FieldMask) : b.applyToLocalView document mask =
      Mutation.replay document mask ((b.baseMutations ++ b.mutations).map fun m => (m, b.localWriteTime)) := by
  rw [applyToLocalView_eq_replay, mutationsOf, List.filter_eq_self.2 (by simpa using hkeys)]

/-- The batch makes of the document what the write does on the server. The base value is put in first, and is the
number that is there already. -/
theorem IsBatchOf.applyToLocalView (h : IsBatchOf doc s x b) (hdoc : ReadsAs doc s document)
    (mask : Option FieldMask) :
    ReadsAs doc (s.apply x) (b.applyToLocalView document mask).1 ∧
      (b.applyToLocalView document mask).1.hasLocalMutations = true := by
  cases h with
  | @setData fields value batchId now hordered hread =>
    rw [applyToLocalView_of_keys (by simp [Mutation.key, hdoc.key_eq])]
    exact hdoc.applyToLocalView (.setData hordered hread) rfl (by simp [Mutation.isPatch]) mask now
  | @updateData f k v y batchId now hf hread =>
    rw [applyToLocalView_of_keys (by simp [Mutation.key, hdoc.key_eq])]
    exact hdoc.applyToLocalView (.updateData (k := k) hread) rfl (by simp [hf]) mask now
  | @increment f k q n batchId now hf hbase =>
    have hnumber : n.toValue.read = some (.number (f.double k)) := by rw [Value.read_number, hbase]
    have hf' : (s.apply (.updateData doc k (.number (f.double k)))).users doc =
        some (f.set k (.number (f.double k))) := Server.users_updateData_self hf
    obtain ⟨hrestored, -⟩ :=
      hdoc.applyToLocalView (.updateData (k := k) hnumber) rfl (by simp [hf]) mask now
    obtain ⟨hmade, hlocal⟩ := hrestored.applyToLocalView (.increment doc k q) rfl (by simp [hf'])
      ((Mutation.patch doc [(k.name, n.toValue)] [[k.name]] (.exists true) []).applyToLocalView document mask now).2
      now
    rw [applyToLocalView_of_keys (by simp [Mutation.key, hdoc.key_eq])]
    refine ⟨ReadsAs.congr hmade ?_, hlocal⟩
    -- the number that the base value puts in is overwritten by the sum
    rw [Server.users_increment_self hf, Server.users_increment_self hf', Fields.double_set_self]
    simp [Fields.set]

/-- The batches of the writes of a queue, each of which starts from what the writes before it have made. -/
inductive Current (doc : String) : Server → List Write → List (MutationBatch String ℚ) → Prop
  | nil {s : Server} : Current doc s [] []
  | cons {s : Server} {x : Write} {xs : List Write} {b : MutationBatch String ℚ}
      {bs : List (MutationBatch String ℚ)} (h : IsBatchOf doc s x b) (hrest : Current doc (s.apply x) xs bs) :
      Current doc s (x :: xs) (b :: bs)

variable {xs : List Write} {bs : List (MutationBatch String ℚ)}

theorem Current.concat (h : Current doc s xs bs) (hb : IsBatchOf doc (xs.foldl Server.apply s) x b) :
    Current doc s (xs ++ [x]) (bs ++ [b]) := by
  induction h with
  | nil => exact .cons hb .nil
  | cons h _ ih => exact .cons h (ih hb)

theorem hasLocalMutations_foldl (h : document.hasLocalMutations = true) (mask : Option FieldMask) :
    (bs.foldl (fun s b => b.applyToLocalView s.1 s.2) (document, mask)).1.hasLocalMutations = true := by
  induction bs generalizing document mask with
  | nil => exact h
  | cons b bs ih => exact ih (hasLocalMutations_batch h) (b.applyToLocalView document mask).2

/-- The batches make of the document what the queue does on the server. -/
theorem Current.replay (h : Current doc s xs bs) (hdoc : ReadsAs doc s document) (mask : Option FieldMask) :
    ReadsAs doc (xs.foldl Server.apply s) (bs.foldl (fun s b => b.applyToLocalView s.1 s.2) (document, mask)).1 ∧
      (bs ≠ [] → (bs.foldl (fun s b => b.applyToLocalView s.1 s.2) (document, mask)).1.hasLocalMutations =
        true) := by
  induction h generalizing document mask with
  | nil => exact ⟨hdoc, by simp⟩
  | @cons s x xs b bs h hrest ih =>
    obtain ⟨hmade, hlocal⟩ := h.applyToLocalView hdoc mask
    obtain ⟨hread, -⟩ := ih hmade (b.applyToLocalView document mask).2
    exact ⟨hread, fun _ => hasLocalMutations_foldl hlocal _⟩

/-! ## The batch that a write puts into the queue -/

/-- The base value of an increment as `WriteLocally` takes it from the local view. -/
theorem baseMutation_increment (document : MutableDocument String ℚ) (doc : String) (k : Key) (q : ℚ) :
    baseMutation document (.patch doc [] [] (.exists true) [⟨[k.name], .increment (.double q)⟩]) =
      some (.patch doc [(k.name, (TransformOperation.computeBaseValue (document.field [k.name])).toValue)]
        [[k.name]] (.exists true) []) := by
  generalize hn : TransformOperation.computeBaseValue (document.field [k.name]) = n
  have hset : MapValue.set [k.name] n.toValue [] = [(k.name, n.toValue)] := by
    simp [MapValue.set, MapValue.parentMap, MapValue.applyChanges, MapValue.calculateSizeOfUnion,
      MapValue.mergeLoop, sortFields_number]
  have hmask : MapValue.extractFieldMask [(k.name, n.toValue)] = [[k.name]] := by
    cases n <;> simp [MapValue.extractFieldMask, Number.toValue, SortedMap.insertKey]
  simp only [baseMutation, Mutation.extractTransformBaseValue, Mutation.fieldTransforms, List.foldl_cons,
    List.foldl_nil, Mutation.addBaseValue, hn, Option.getD_none, hset, hmask, Option.map_some, Mutation.key]

variable {ls : LocalStore String ℚ} {m : Mutation String ℚ} {now : Timestamp}

/-- The batch of a write starts from what the app sees. -/
theorem isBatchOf_newBatch (hm : x.Becomes m) (hkey : m.key = doc) (hpatch : m.isPatch = true → s.users doc ≠ none)
    (hview : ReadsAs doc s (ls.overlayedDocument doc now).document) :
    IsBatchOf doc s x (ls.newBatch [m] now) := by
  cases hm with
  | @setData doc' fields value hordered hread =>
    obtain rfl : doc' = doc := hkey
    exact .setData hordered hread
  | increment doc' k q =>
    obtain rfl : doc' = doc := hkey
    obtain ⟨f, hf⟩ := Option.ne_none_iff_exists'.1 (hpatch rfl)
    have hbase := asDouble_computeBaseValue (ls.overlayedDocument doc' now).document.value k
    rw [(hview.found hf).2] at hbase
    have hbatch := baseMutation_increment (ls.overlayedDocument doc' now).document doc' k q
    have heq : ls.newBatch [.patch doc' [] [] (.exists true) [⟨[k.name], .increment (.double q)⟩]] now =
        ⟨ls.nextBatchId, now, [.patch doc' [(k.name, (TransformOperation.computeBaseValue
          ((ls.overlayedDocument doc' now).document.field [k.name])).toValue)] [[k.name]] (.exists true) []],
          [.patch doc' [] [] (.exists true) [⟨[k.name], .increment (.double q)⟩]]⟩ := by
      simp only [newBatch, List.filterMap_cons, Mutation.key, hbatch, List.filterMap_nil]
    rw [heq]
    exact .increment hf hbase
  | @updateData doc' k v y hread =>
    obtain rfl : doc' = doc := hkey
    obtain ⟨f, hf⟩ := Option.ne_none_iff_exists'.1 (hpatch rfl)
    exact .updateData hf hread

/-! ## The answer to a batch -/

theorem IsBatchOf.keys_eq (h : IsBatchOf doc s x b) : b.keys = [doc] := by
  cases h <;> rfl

/-- The backend answers with the values that it has computed. -/
def Computed (doc : String) (s : Server) (x : Write) (result : MutationResult ℚ) : Prop :=
  result.transformResults.map Value.read = x.transformed.map fun k => (s.apply x).field doc k

variable {result : MutationResult ℚ}

/-- The answer to an increment is the sum. -/
theorem Computed.increment {k : Key} {q : ℚ} {f : Fields} (h : Computed doc s (.increment doc k q) result)
    (hf : s.users doc = some f) :
    ∃ y, result.transformResults = [y] ∧ y.read = some (.number (f.double k + q)) := by
  have hfield : (s.apply (.increment doc k q)).field doc k = some (.number (f.double k + q)) := by
    rw [Server.field, Server.users_increment_self hf, Option.bind_some, Fields.set_self]
  rw [Computed, Write.transformed, List.map_singleton, hfield] at h
  obtain ⟨y, rest, hresults, hy, hrest⟩ := List.map_eq_cons_iff.1 h
  exact ⟨y, by rw [hresults, List.map_eq_nil_iff.1 hrest], hy⟩

/-- The values of an answer are in order. -/
theorem IsBatchOf.ordered_results (h : IsBatchOf doc s x b) (hresult : Computed doc s x result) :
    ∀ y ∈ result.transformResults, y.sortFields.Ordered := by
  cases h with
  | setData hordered hread => simp [List.map_eq_nil_iff.1 hresult]
  | updateData hf hread => simp [List.map_eq_nil_iff.1 hresult]
  | increment hf hbase =>
    obtain ⟨y, hresults, hy⟩ := hresult.increment hf
    rw [hresults]
    intro z hz
    obtain rfl := List.mem_singleton.1 hz
    rw [Value.sortFields_of_read hy]
    exact Value.ordered_of_read hy

/-- A batch of one mutation. -/
theorem applyToRemoteDocument_singleton {m : Mutation String ℚ} {batchId : ℤ} {now : Timestamp}
    {base : List (Mutation String ℚ)} (hkey : m.key = document.key) :
    MutationBatch.applyToRemoteDocument document [result] ⟨batchId, now, base, [m]⟩ =
      m.applyToRemoteDocument document result := by
  simp [MutationBatch.applyToRemoteDocument, hkey]

/-- An acknowledged batch makes of the cached document what the write does on the server. -/
theorem IsBatchOf.applyToRemoteDocument (h : IsBatchOf doc s x b) (hdoc : ReadsAs doc s document)
    (hresult : Computed doc s x result) :
    ReadsAs doc (s.apply x) (b.applyToRemoteDocument document [result]) ∧
      (b.applyToRemoteDocument document [result]).isValidDocument = true := by
  cases h with
  | @setData fields value batchId now hordered hread =>
    have hresults : Mutation.serverTransformResults document.value result.transformResults [] = [] := rfl
    have hkey : (Mutation.set doc value .none []).key = document.key := hdoc.key_eq.symm
    rw [applyToRemoteDocument_singleton hkey, Mutation.applyToRemoteDocument]
    simp only [hresults, setAll_nil hordered]
    refine ⟨⟨hdoc.key_eq, hordered, ?_⟩, rfl⟩
    rw [← hread]
    simp [Server.apply, MutableDocument.read, MutableDocument.isFoundDocument,
      MutableDocument.convertToFoundDocument, MutableDocument.setHasCommittedMutations]
  | @increment f k q n batchId now hf hbase =>
    obtain ⟨y, hy, hread⟩ := hresult.increment hf
    have hpatch : MapValue.setAll (Mutation.getPatch [] []) document.value = document.value :=
      setAll_nil hdoc.ordered
    have hresults : Mutation.serverTransformResults document.value result.transformResults
        [⟨[k.name], .increment (.double q)⟩] = [([k.name], some y)] := by
      rw [hy]
      rfl
    have hset := hdoc.setField hf k hread result.version
    have hkey : (Mutation.patch doc [] [] (.exists true) [⟨[k.name], .increment (.double q)⟩]).key =
        document.key := hdoc.key_eq.symm
    rw [applyToRemoteDocument_singleton hkey, Mutation.applyToRemoteDocument, if_pos (hdoc.isValidFor hf)]
    simp only [hpatch, hresults]
    exact ⟨⟨hset.key_eq, hset.ordered, hset.read_eq.trans (users_increment_eq hf k q).symm⟩, rfl⟩
  | @updateData f k v y batchId now hf hread =>
    have hresults : Mutation.serverTransformResults document.value result.transformResults [] = [] := rfl
    have hset := hdoc.setField hf k hread result.version
    have hkey : (Mutation.patch doc [(k.name, y)] [[k.name]] (.exists true) []).key = document.key :=
      hdoc.key_eq.symm
    rw [applyToRemoteDocument_singleton hkey, Mutation.applyToRemoteDocument, if_pos (hdoc.isValidFor hf)]
    simp only [getPatch_singleton, hresults]
    rw [setAll_nil (read_setAll hdoc.ordered k hread).1]
    exact ⟨⟨hset.key_eq, hset.ordered, hset.read_eq⟩, rfl⟩

/-! ## Steps of the store -/

theorem becomes_setsFields (hm : x.Becomes m) : m.SetsFields ∧ Shallow m.paths := by
  cases hm with
  | setData hordered hread =>
    exact ⟨⟨hordered, by simp⟩, by simp [Shallow, Mutation.paths, Mutation.fieldMask, Mutation.fieldTransforms]⟩
  | increment doc k q =>
    refine ⟨⟨trivial, List.Pairwise.nil, by simp, ?_⟩, ?_⟩
    · simp [FieldTransform.WellFormed]
    · simp [Shallow, Mutation.paths, Mutation.fieldMask, Mutation.fieldTransforms]
  | @updateData doc k v y hread =>
    refine ⟨⟨⟨by simp, Value.ordered_of_read hread, trivial⟩, by simp [SortedMap.SortedKeys], ?_, by simp⟩, ?_⟩
    · simp [Value.get_cons]
    · simp [Shallow, Mutation.paths, Mutation.fieldMask, Mutation.fieldTransforms]

variable {ls' : LocalStore String ℚ}

/-- A step that neither writes the document nor settles a batch of it, and brings no new version of it. -/
theorem unchanged_react {e : LocalStore.Event String ℚ} (h : Tracked ls) (hother : ¬ Concerns doc ls e)
    (hold : ¬ Changes doc ls e) (hstep : ls.react e = some ls') :
    ls'.pending doc = ls.pending doc ∧ ls'.get doc = ls.get doc := by
  cases e with
  | write mutations now =>
    rw [LocalStore.react] at hstep
    split_ifs at hstep
    obtain rfl := Option.some.inj hstep
    have hkey : doc ∉ (ls.newBatch mutations now).keys := fun hkey => hother (MutationBatch.mem_keys.1 hkey)
    rw [pending_writeLocally, if_neg hkey, List.append_nil, writeLocally_eq]
    exact ⟨rfl, rfl⟩
  | acknowledge batchId results =>
    obtain ⟨b, hlookup, hstep⟩ := Option.bind_eq_some_iff.1 hstep
    split_ifs at hstep
    obtain rfl := Option.some.inj hstep
    have hkey : doc ∉ b.keys := fun hkey => hold ⟨b, hlookup, hkey⟩
    refine ⟨?_, get_recalculated.trans (get_applyBatchResult_of_not_mem hkey)⟩
    exact pending_recalculated.trans (pending_remove h (List.mem_of_find?_eq_some hlookup) hkey rfl)
  | reject batchId =>
    obtain ⟨b, hlookup, hstep⟩ := Option.bind_eq_some_iff.1 hstep
    obtain rfl := Option.some.inj hstep
    have hkey : doc ∉ b.keys := fun hkey => hold ⟨b, hlookup, hkey⟩
    refine ⟨?_, get_recalculated⟩
    exact pending_recalculated.trans (pending_remove h (List.mem_of_find?_eq_some hlookup) hkey rfl)
  | remoteEvent documentUpdates now =>
    obtain rfl := Option.some.inj hstep
    have hnew : ∀ d, documentUpdates doc = some d → isNewer d (ls.get doc) = false :=
      fun d hd => Bool.eq_false_iff.2 fun hnewer => hold ⟨d, hd, hnewer⟩
    exact ⟨pending_recalculated, get_recalculated.trans (get_not_populated hnew)⟩
  | restart =>
    obtain rfl := Option.some.inj hstep
    exact ⟨rfl, rfl⟩

/-- The backend acknowledges the oldest batch of the document: this batch leaves the queue, and the cached document
becomes what the batch makes of it. -/
theorem acknowledge_head (h : Tracked ls) (hpending : ls.pending doc = b :: bs) (hb : IsBatchOf doc s x b)
    (hversion : (ls.get doc).version < result.version)
    (hvalid : (b.applyToRemoteDocument (ls.get doc) [result]).isValidDocument = true)
    (hstep : ls.react (.acknowledge b.batchId [result]) = some ls') :
    ls'.pending doc = bs ∧ ls'.get doc = b.applyToRemoteDocument (ls.get doc) [result] := by
  obtain ⟨b', hlookup, hstep⟩ := Option.bind_eq_some_iff.1 hstep
  split_ifs at hstep with hlength
  obtain rfl := Option.some.inj hstep
  have hnodup : (ls.mutationQueue.map MutationBatch.batchId).Nodup := h.ids.imp fun hab => hab.ne
  have hmem : b ∈ ls.mutationQueue := (List.mem_filter.1 (hpending ▸ List.mem_cons_self)).1
  obtain rfl : b' = b :=
    List.inj_on_of_nodup_map hnodup (List.mem_of_find?_eq_some hlookup) hmem (by simpa using List.find?_some hlookup)
  have hids : (ls.pending doc).Pairwise fun a c => a.batchId < c.batchId :=
    List.Pairwise.filter _ (List.pairwise_map.1 h.ids)
  rw [hpending, List.pairwise_cons] at hids
  refine ⟨pending_recalculated.trans ?_, get_recalculated.trans ?_⟩
  · have hqueue : ((ls.applyBatchResult ⟨b', [result]⟩).removeOverlaysForBatchId b'.batchId).pending doc =
        (ls.pending doc).filter fun a => a.batchId ≠ b'.batchId := by
      rw [pending, pending, List.filter_filter]
      simp only [removeOverlaysForBatchId, applyBatchResult, removeMutationBatch, List.filter_filter]
      exact List.filter_congr fun a _ => Bool.and_comm _ _
    rw [hqueue, hpending, List.filter_cons_of_neg (by simp)]
    exact List.filter_eq_self.2 fun a ha => by simpa using (hids.1 a ha).ne'
  · have hdocVersion : MutationBatchResult.docVersion ⟨b', [result]⟩ doc = some result.version := by
      cases hb <;> simp [MutationBatchResult.docVersion, Mutation.key]
    show ((ls.applyBatchResult ⟨b', [result]⟩).remoteDocumentCache doc).getD _ = _
    simp only [applyBatchResult, removeMutationBatch, hdocVersion, if_pos hversion, if_pos hvalid,
      Option.getD_some]

end Firestore

namespace DocumentView

variable {doc : String} {v v' : DocumentView} {now : Timestamp}

/-- Nobody else changes the document while writes of the phone to it are pending, and the backend answers with
what it has. An update is of a document that the app sees. -/
def Undisturbed (doc : String) (v : DocumentView) : Event → Prop
  | .issue x m _ => x.Becomes m ∧ m.key = doc ∧ (m.isPatch = true → v.localView doc ≠ none)
  | .settle result => (v.store.get doc).version < result.version ∧
      ∀ x ∈ v.queue.head?, Computed doc v.server x result
  | .send server document _ => v.queue = [] ∧ Remote doc document ∧ document.version ≠ 0 ∧
      isNewer document (v.store.get doc) = true ∧ document.read = server.users doc
  | .elsewhere e => WellFormed e ∧ ShallowWrites e ∧ ¬ Concerns doc v.store e ∧ ¬ Changes doc v.store e

/-- The store has the document of the server, and its batches are those of the queue. -/
structure Shows (doc : String) (v : DocumentView) : Prop where
  sound : Sound v.store
  shallow : ShallowStore v.store
  agrees : Agrees v.store doc
  cached : ReadsAs doc v.server (v.store.get doc)
  current : Current doc v.server v.queue (v.store.pending doc)

/-- What the app sees in the client library. -/
theorem Shows.readsAs (h : Shows doc v) (now : Timestamp) :
    ReadsAs doc (v.queue.foldl Server.apply v.server) (v.store.getDocument doc now) := by
  rw [h.agrees now]
  exact (h.current.replay h.cached (some [])).1

/-- A write of the app. -/
theorem Shows.issue {x : Write} {m : Mutation String ℚ} (h : Shows doc v) (hm : x.Becomes m) (hkey : m.key = doc)
    (hpatch : m.isPatch = true → v.localView doc ≠ none) (hstep : v.step doc (.issue x m now) = some v') :
    Shows doc v' := by
  rw [DocumentView.step, Option.bind_eq_bind, Option.bind_eq_some_iff] at hstep
  obtain ⟨store, hreact, hstep⟩ := hstep
  obtain rfl := Option.some.inj hstep
  obtain ⟨hfields, hpaths⟩ := becomes_setsFields hm
  have he : WellFormed (.write [m] now) := by simpa [WellFormed] using hfields
  have hwrites : ShallowWrites (.write [m] now) := by simpa [ShallowWrites] using hpaths
  -- the base value is read off the local view, which is the document after the writes before this one
  have hbatch : IsBatchOf doc (v.queue.foldl Server.apply v.server) x (v.store.newBatch [m] now) := by
    refine isBatchOf_newBatch hm hkey hpatch ?_
    rw [h.sound.overlayedDocument_eq]
    exact h.readsAs now
  refine ⟨h.sound.react he hreact, h.shallow.react h.sound he hwrites hreact,
    h.agrees.react h.sound h.shallow he hwrites (fun hfalse => hfalse.elim) hreact, ?_, ?_⟩
  all_goals obtain rfl : (v.store.writeLocally [m] now).1 = store := by simpa [LocalStore.react] using hreact
  · have hget : (v.store.writeLocally [m] now).1.get doc = v.store.get doc := by rw [writeLocally_eq]; rfl
    show ReadsAs doc v.server ((v.store.writeLocally [m] now).1.get doc)
    rw [hget]
    exact h.cached
  · show Current doc v.server (v.queue ++ [x]) ((v.store.writeLocally [m] now).1.pending doc)
    rw [pending_writeLocally, if_pos (by simp [hbatch.keys_eq])]
    exact h.current.concat hbatch

/-- The rest of the batches start from what the first has made, which is now the document of the server. -/
theorem Shows.settle {result : MutationResult ℚ} (h : Shows doc v)
    (hversion : (v.store.get doc).version < result.version)
    (hresult : ∀ x ∈ v.queue.head?, Computed doc v.server x result)
    (hstep : v.step doc (.settle result) = some v') : Shows doc v' := by
  obtain ⟨x, hx, hstep⟩ := Option.bind_eq_some_iff.1 hstep
  obtain ⟨b, hb, hstep⟩ := Option.bind_eq_some_iff.1 hstep
  obtain ⟨store, hreact, hstep⟩ := Option.bind_eq_some_iff.1 hstep
  obtain rfl := Option.some.inj hstep
  have hcomputed := hresult x hx
  obtain ⟨xs, hqueue⟩ := List.head?_eq_some_iff.1 hx
  obtain ⟨bs, hpending⟩ := List.head?_eq_some_iff.1 hb
  have hcurrent := h.current
  rw [hqueue, hpending] at hcurrent
  obtain _ | ⟨hbatch, hrest⟩ := hcurrent
  obtain ⟨hread, hvalid⟩ := hbatch.applyToRemoteDocument h.cached hcomputed
  obtain ⟨hpending', hget⟩ := acknowledge_head h.sound.tracked hpending hbatch hversion hvalid hreact
  have he : WellFormed (.acknowledge b.batchId [result] : LocalStore.Event String ℚ) := by
    simpa [WellFormed] using hbatch.ordered_results hcomputed
  have hsound := h.sound.react he hreact
  rw [← hget] at hread
  rw [← hpending'] at hrest
  refine ⟨hsound, h.shallow.react h.sound he trivial hreact, ?_, hread, by rwa [hqueue]⟩
  -- a remaining batch takes effect, so no overlay of before stays
  by_cases hnil : store.pending doc = []
  · exact agrees_of_pending_nil hsound hnil
  · exact h.agrees.react h.sound h.shallow he trivial
      (fun _ => ⟨.inr trivial, .inr ((hrest.replay hread (some [])).2 hnil)⟩) hreact

/-- No batch is pending, so the new document is what the app sees. -/
theorem Shows.send {server : Server} {document : MutableDocument String ℚ} (h : Shows doc v)
    (hqueue : v.queue = []) (hremote : Remote doc document) (hversion : document.version ≠ 0)
    (hnewer : isNewer document (v.store.get doc) = true) (hread : document.read = server.users doc)
    (hstep : v.step doc (.send server document now) = some v') : Shows doc v' := by
  rw [DocumentView.step, Option.bind_eq_bind, Option.bind_eq_some_iff] at hstep
  obtain ⟨store, hreact, hstep⟩ := hstep
  obtain rfl := Option.some.inj hstep
  have he : WellFormed (.remoteEvent (Function.update (fun _ => none) doc (some document)) now) := by
    intro key d hd
    by_cases hkey : key = doc
    · subst hkey
      obtain rfl : document = d := by simpa using hd
      exact hremote
    · simp [hkey] at hd
  have hsound := h.sound.react he hreact
  have hpending : store.pending doc = [] := by
    have hcurrent := h.current
    rw [hqueue] at hcurrent
    obtain rfl := Option.some.inj hreact
    refine pending_recalculated.trans ?_
    show v.store.pending doc = []
    cases hp : v.store.pending doc with
    | nil => rfl
    | cons b bs => rw [hp] at hcurrent; cases hcurrent
  have hget : store.get doc = document := by
    obtain rfl := Option.some.inj hreact
    exact get_recalculated.trans (get_populated (by simp) hnewer hversion)
  refine ⟨hsound, h.shallow.react h.sound he trivial hreact, agrees_of_pending_nil hsound hpending, ?_, ?_⟩
  · rw [hget]
    exact ⟨hremote.key_eq, hremote.ordered, hread⟩
  · rw [hpending, hqueue]
    exact .nil

/-- A step that has to do with other documents only. -/
theorem Shows.elsewhere {e : LocalStore.Event String ℚ} (h : Shows doc v) (he : WellFormed e)
    (hwrites : ShallowWrites e) (hother : ¬ Concerns doc v.store e) (hold : ¬ Changes doc v.store e)
    (hstep : v.step doc (.elsewhere e) = some v') : Shows doc v' := by
  rw [DocumentView.step, Option.bind_eq_bind, Option.bind_eq_some_iff] at hstep
  obtain ⟨store, hreact, hstep⟩ := hstep
  obtain rfl := Option.some.inj hstep
  obtain ⟨hpending, hget⟩ := unchanged_react h.sound.tracked hother hold hreact
  refine ⟨h.sound.react he hreact, h.shallow.react h.sound he hwrites hreact,
    h.agrees.react h.sound h.shallow he hwrites (fun hchanges => (hold hchanges).elim) hreact, ?_, ?_⟩
  · rw [hget]
    exact h.cached
  · rw [hpending]
    exact h.current

theorem Shows.step {e : Event} (h : Shows doc v) (he : Undisturbed doc v e) (hstep : v.step doc e = some v') :
    Shows doc v' := by
  cases e with
  | issue x m now => exact h.issue he.1 he.2.1 he.2.2 hstep
  | settle result => exact h.settle he.1 he.2 hstep
  | send server document now => exact h.send he.1 he.2.1 he.2.2.1 he.2.2.2.1 he.2.2.2.2 hstep
  | elsewhere e => exact h.elsewhere he.1 he.2.1 he.2.2.1 he.2.2.2 hstep

/-- A phone that knows nothing of a document shows none. -/
theorem shows_start {server : Server} (h : server.users doc = none) : Shows doc ⟨server, [], {}⟩ :=
  ⟨⟨tracked_start, fun _ => remote_invalidDocument, by simp, by simp⟩, ⟨by simp, by simp⟩, fun _ => rfl,
    ⟨rfl, trivial, by rw [h]; rfl⟩, .nil⟩

/-- The view of the client library is the document of the server with the writes of the queue made on it. -/
theorem getDocument_eq_localView {server : Server} {es : List Event} (hserver : server.users doc = none)
    (hes : AllSteps (step doc) (Undisturbed doc) ⟨server, [], {}⟩ es)
    (hr : run (step doc) ⟨server, [], {}⟩ es = some v) (now : Timestamp) :
    v.getDocument doc now = v.localView doc := by
  have hshows : Shows doc v :=
    run_invariant (fun _ _ _ he h hstep => h.step he hstep) hes (shows_start hserver) hr
  exact (hshows.readsAs now).read_eq

/-- A phone that has nothing of the document. -/
def unknown : DocumentView := ⟨⟨[], fun _ => none, []⟩, [], {}⟩

/-- The document `users/ada` with a number of snaps. -/
def snaps (n : ℚ) : Server := ⟨[], fun _ => some (Fields.empty.set .totalSnapsTakenLocal (.number n)), []⟩

/-- The backend sends this document. -/
def sendSnaps (version : ℕ) (n : ℚ) : Event :=
  .send (snaps n) ⟨"ada", .foundDocument, version, [("totalSnapsTakenLocal", .double n)], .synced⟩ ⟨0, 0⟩

/-- The app counts a snap. -/
def countSnap : Event :=
  .issue (.increment "ada" .totalSnapsTakenLocal 1)
    (.patch "ada" [] [] (.exists true) [⟨["totalSnapsTakenLocal"], .increment (.double 1)⟩]) ⟨0, 0⟩

-- two snaps are counted, and the backend acknowledges the first
example : ∃ v, run (step "ada") unknown [sendSnaps 1 1, countSnap, countSnap, .settle ⟨2, [.double 2]⟩] = some v ∧
    (v.localView "ada").bind (fun f => f .totalSnapsTakenLocal) = some (.number 3) ∧
      ∀ now, v.getDocument "ada" now = v.localView "ada" := by
  have hcount : (Write.increment "ada" .totalSnapsTakenLocal 1).Becomes
      (.patch "ada" [] [] (.exists true) [⟨["totalSnapsTakenLocal"], .increment (.double 1)⟩]) := .increment _ _ _
  have hes : AllSteps (step "ada") (Undisturbed "ada") unknown
      [sendSnaps 1 1, countSnap, countSnap, .settle ⟨2, [.double 2]⟩] := by
    refine ⟨⟨rfl, ⟨rfl, ⟨by simp, trivial, trivial⟩, rfl⟩, by decide, rfl, ?_⟩, fun _ h₁ => ?_⟩
    · refine congrArg some (funext fun k => ?_)
      cases k <;> rfl
    obtain rfl := Option.some.inj h₁
    refine ⟨⟨hcount, rfl, fun _ => Option.some_ne_none _⟩, fun _ h₂ => ?_⟩
    obtain rfl := Option.some.inj h₂
    refine ⟨⟨hcount, rfl, fun _ => Option.some_ne_none _⟩, fun _ h₃ => ?_⟩
    obtain rfl := Option.some.inj h₃
    refine ⟨⟨by decide +kernel, fun x hx => ?_⟩, fun _ _ => trivial⟩
    obtain rfl := Option.some.inj hx
    show [some (Datability.Value.number 2)] = [some (.number (1 + 1))]
    decide +kernel
  exact ⟨_, rfl, by decide +kernel, getDocument_eq_localView rfl hes rfl⟩

-- the two views differ when another phone counts four snaps while a write of this phone is pending
example :
    ((run (step "ada") unknown [sendSnaps 1 1,
        .issue (.updateData "ada" .fullNameLocal (.string "Ada"))
          (.patch "ada" [("fullNameLocal", .string "Ada")] [["fullNameLocal"]] (.exists true) []) ⟨0, 0⟩,
        sendSnaps 2 5]).map fun v =>
      ((v.getDocument "ada" ⟨0, 0⟩).map fun f => f .totalSnapsTakenLocal,
        (v.localView "ada").map fun f => f .totalSnapsTakenLocal)) =
      some (some (some (.number 1)), some (some (.number 5))) := by
  decide +kernel

/-- So a phone of a `World` is answered as the client library does it, if the library has been sent the document
as it is on the server. -/
theorem users_localView_eq_getDocument {ι : Type*} {w : World ι} {d : ι} {server : Server} {es : List Event}
    (hserver : server.users doc = none) (hes : AllSteps (step doc) (Undisturbed doc) ⟨server, [], {}⟩ es)
    (hr : run (step doc) ⟨server, [], {}⟩ es = some v) (hsent : v.server.users doc = w.server.users doc)
    (hqueue : v.queue = ((w.devices d).queue.map Issued.write).filter (Write.isTo doc)) (now : Timestamp) :
    (w.localView d).users doc = v.getDocument doc now := by
  rw [getDocument_eq_localView hserver hes hr now, localView, hqueue]
  exact (Server.users_foldl_filter_isTo _ hsent).symm

end DocumentView

end Datability
