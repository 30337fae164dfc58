import Datability.Mutation
import Datability.Proofs.OverlayProofs

/-!
# Proofs: mutations

Applying mutations to a document leaves it as it is, touches it at the paths of the mask that has been
collected, or replaces it. So the mutation that is calculated from the document and the mask can be applied
in place of all of them.
-/

namespace Datability

namespace Firestore

open SortedMap MapValue

variable {κ δ : Type*}

namespace Value

/-! ## Values that can be sorted -/

theorem sortEntries_eq_map {m : MapValue δ} : sortEntries m = m.map fun e => (e.1, e.2.sortFields) := by
  induction m with
  | nil => rw [sortEntries, List.map_nil]
  | cons e m ih =>
    obtain ⟨k, v⟩ := e
    rw [sortEntries, ih, List.map_cons]

/-- Sorting brings a map in order if no name occurs twice. -/
theorem ordered_sortFields_map {m : MapValue δ} (hnodup : (m.map Prod.fst).Nodup)
    (hvalues : ∀ e ∈ m, e.2.sortFields.Ordered) : (Value.map m).sortFields.Ordered := by
  rw [sortFields, ordered_map, orderedEntries_iff]
  have hperm := List.perm_insertionSort (fun a b : String × Value δ => a.1 ≤ b.1) (sortEntries m)
  have hkeys : (sortEntries m).map Prod.fst = m.map Prod.fst := by
    rw [sortEntries_eq_map, List.map_map]
    rfl
  refine ⟨?_, fun e he => ?_⟩
  · have : Std.Total fun a b : String × Value δ => a.1 ≤ b.1 := ⟨fun a b => le_total a.1 b.1⟩
    have : IsTrans (String × Value δ) fun a b => a.1 ≤ b.1 := ⟨fun _ _ _ hab hbc => hab.trans hbc⟩
    have hle := List.pairwise_insertionSort (fun a b : String × Value δ => a.1 ≤ b.1) (sortEntries m)
    have hne : (((sortEntries m).insertionSort fun a b => a.1 ≤ b.1).map Prod.fst).Nodup :=
      (hperm.map Prod.fst).nodup_iff.2 (hkeys ▸ hnodup)
    exact (hle.and (List.pairwise_map.1 hne)).imp fun ⟨hab, hab'⟩ => lt_of_le_of_ne hab hab'
  · have he' := hperm.mem_iff.1 he
    rw [sortEntries_eq_map] at he'
    obtain ⟨c, hc, rfl⟩ := List.mem_map.1 he'
    exact hvalues c hc

theorem ordered_sortFields_array {vs : List (Value δ)} (h : ∀ v ∈ vs, v.sortFields.Ordered) :
    (Value.array vs).sortFields.Ordered := by
  rw [sortFields, Ordered]
  induction vs with
  | nil => trivial
  | cons v vs ih =>
    rw [sortValues, OrderedValues]
    exact ⟨h v List.mem_cons_self, ih fun w hw => h w (List.mem_cons_of_mem _ hw)⟩

theorem ordered_of_mem {vs : List (Value δ)} (h : OrderedValues vs) {v : Value δ} (hv : v ∈ vs) : v.Ordered := by
  induction vs with
  | nil => simp at hv
  | cons w vs ih =>
    rw [OrderedValues] at h
    rcases List.mem_cons.1 hv with rfl | hv
    · exact h.1
    · exact ih h.2 hv

theorem Ordered.sortable {v : Value δ} (h : v.Ordered) : v.sortFields.Ordered := by
  rwa [sortFields_of_ordered h]

end Value

theorem ordered_encodeServerTimestamp {t : Timestamp} {previous : Option (Value δ)}
    (h : ∀ v ∈ previous, v.Ordered) : (Value.encodeServerTimestamp t previous).sortFields.Ordered := by
  refine Value.ordered_sortFields_map ?_ ?_
  · cases previous with
    | none => simp [Value.kTypeKey, Value.kLocalWriteTimeKey]
    | some v => simp [Value.kTypeKey, Value.kLocalWriteTimeKey, Value.kPreviousValueKey]
  · intro e he
    rcases List.mem_append.1 he with he | he
    · simp only [List.mem_cons, List.not_mem_nil, or_false] at he
      rcases he with rfl | rfl
      · simp [Value.sortFields, Value.Ordered]
      · simp [Value.sortFields, Value.Ordered]
    · obtain ⟨v, hv, rfl⟩ : ∃ v, previous = some v ∧ (Value.kPreviousValueKey, v) = e := by
        cases previous with
        | none => simp at he
        | some v => exact ⟨v, rfl, (List.mem_singleton.1 he).symm⟩
      exact (h v hv).sortable

theorem mem_newElements [DecidableEq δ] [BEq δ] {array found elements : List (Value δ)} {v : Value δ}
    (h : v ∈ TransformOperation.newElements array found elements) : v ∈ found ∨ v ∈ elements := by
  induction elements generalizing found with
  | nil => exact .inl h
  | cons e elements ih =>
    rw [TransformOperation.newElements] at h
    split_ifs at h
    · rcases ih h with h | h
      · rcases List.mem_append.1 h with h | h
        · exact .inl h
        · exact .inr (by simp [List.mem_singleton.1 h])
      · exact .inr (List.mem_cons_of_mem _ h)
    · exact (ih h).imp_right (List.mem_cons_of_mem _)

theorem ordered_coerced {previous : Option (Value δ)} (h : ∀ v ∈ previous, v.Ordered) :
    ∀ v ∈ TransformOperation.coercedFieldValueArray previous, v.sortFields.Ordered := by
  intro v hv
  rw [TransformOperation.coercedFieldValueArray.eq_def] at hv
  split at hv
  · next values =>
    have hvalues : (Value.array values).Ordered := h _ rfl
    rw [Value.Ordered] at hvalues
    exact (Value.ordered_of_mem hvalues hv).sortable
  · simp at hv

variable [DecidableEq δ] [BEq δ] [Add δ] [IntCast δ]

theorem ordered_applyToLocalView {previous : Option (Value δ)} {now : Timestamp} {t : FieldTransform δ}
    (ht : t.WellFormed) (h : ∀ v ∈ previous, v.Ordered) :
    (t.transformation.applyToLocalView previous now).sortFields.Ordered := by
  obtain ⟨path, op⟩ := t
  obtain ⟨-, ht⟩ := ht
  cases op with
  | serverTimestamp => exact ordered_encodeServerTimestamp h
  | arrayUnion elements =>
    refine Value.ordered_sortFields_array fun v hv => ?_
    rcases List.mem_append.1 hv with hv | hv
    · exact ordered_coerced h v hv
    · exact ht v ((mem_newElements hv).resolve_left (by simp))
  | arrayRemove elements =>
    exact Value.ordered_sortFields_array fun v hv => ordered_coerced h v (List.mem_filter.1 hv).1
  | increment operand =>
    simp only [TransformOperation.applyToLocalView]
    split <;> simp [Value.sortFields, Value.Ordered]

/-! ## The fields that a mutation sets -/

omit [DecidableEq δ] [BEq δ] [Add δ] [IntCast δ] in
theorem Sets.insert {data : TransformMap δ} {path : FieldPath} {x : Value δ} (h : Sets data) (hpath : path ≠ [])
    (hx : x.sortFields.Ordered) : Sets (SortedMap.insert path (some x) data) := by
  refine ⟨h.sorted.insert, fun e he => ?_, fun e he => ?_⟩
  · rcases mem_insert he with rfl | he
    · exact hpath
    · exact h.paths e he
  · rcases mem_insert he with rfl | he
    · exact ⟨x, rfl, hx⟩
    · exact h.values e he

omit [DecidableEq δ] [BEq δ] [Add δ] [IntCast δ] in
theorem Sets.foldl_insert {α : Type*} {f : α → FieldPath} {g : α → Value δ} {l : List α} {data : TransformMap δ}
    (h : Sets data) (hl : ∀ a ∈ l, f a ≠ [] ∧ (g a).sortFields.Ordered) :
    Sets (l.foldl (fun results a => SortedMap.insert (f a) (some (g a)) results) data) ∧
      {p | p ∈ (l.foldl (fun results a => SortedMap.insert (f a) (some (g a)) results) data).map Prod.fst} =
        {p | p ∈ data.map Prod.fst} ∪ {p | p ∈ l.map f} := by
  induction l generalizing data with
  | nil => exact ⟨h, by simp⟩
  | cons a l ih =>
    obtain ⟨hpath, hvalue⟩ := hl a List.mem_cons_self
    obtain ⟨hsets, hkeys⟩ := ih (h.insert hpath hvalue) fun b hb => hl b (List.mem_cons_of_mem _ hb)
    refine ⟨hsets, ?_⟩
    rw [List.foldl_cons, hkeys]
    ext p
    simp only [Set.mem_union, Set.mem_ofPred_eq, mem_keys_insert, List.map_cons, List.mem_cons]
    tauto

omit [DecidableEq δ] [BEq δ] [Add δ] [IntCast δ] in
theorem sets_nil : Sets ([] : TransformMap δ) := ⟨List.Pairwise.nil, by simp, by simp⟩

theorem sets_localTransformResults {v : MapValue δ} {now : Timestamp} {transforms : List (FieldTransform δ)}
    (hv : Value.OrderedEntries v) (ht : ∀ t ∈ transforms, t.WellFormed) :
    Sets (Mutation.localTransformResults v now transforms) ∧
      {p | p ∈ (Mutation.localTransformResults v now transforms).map Prod.fst} =
        {p | p ∈ transforms.map FieldTransform.path} := by
  have hvalues : ∀ t ∈ transforms, t.path ≠ [] ∧
      (t.transformation.applyToLocalView ((Value.map v).get t.path) now).sortFields.Ordered := by
    intro t htmem
    refine ⟨(ht t htmem).1, ?_⟩
    exact ordered_applyToLocalView (ht t htmem) fun w hw => (Value.ordered_map.2 hv).get hw
  obtain ⟨hsets, hkeys⟩ := sets_nil.foldl_insert hvalues
  exact ⟨hsets, hkeys.trans (by simp)⟩

omit [DecidableEq δ] [BEq δ] [Add δ] [IntCast δ] in
theorem sets_getPatch {value : MapValue δ} {mask : FieldMask} (hvalue : Value.OrderedEntries value)
    (hs : SortedKeys mask) (hmask : ∀ p ∈ mask, p ≠ [] ∧ ((Value.map value).get p).isSome = true) :
    Sets (Mutation.getPatch value mask) ∧
      {p | p ∈ (Mutation.getPatch value mask).map Prod.fst} = {p | p ∈ mask} := by
  rw [getPatch_eq hs fun p hp => (hmask p hp).1]
  refine ⟨⟨List.pairwise_map.2 hs, fun e he => ?_, fun e he => ?_⟩, ?_⟩
  · obtain ⟨p, hp, rfl⟩ := List.mem_map.1 he
    exact (hmask p hp).1
  · obtain ⟨p, hp, rfl⟩ := List.mem_map.1 he
    obtain ⟨x, hx⟩ := Option.isSome_iff_exists.1 (hmask p hp).2
    exact ⟨x, hx, ((Value.ordered_map.2 hvalue).get hx).sortable⟩
  · ext p
    simp

omit [DecidableEq δ] [BEq δ] [Add δ] [IntCast δ] in
theorem mem_foldl_insertKey {α : Type*} {f : α → FieldPath} {l : List α} {mask : FieldMask} {p : FieldPath} :
    p ∈ l.foldl (fun mask a => insertKey (f a) mask) mask ↔ p ∈ mask ∨ p ∈ l.map f := by
  induction l generalizing mask with
  | nil => simp
  | cons a l ih =>
    rw [List.foldl_cons, ih, mem_insertKey, List.map_cons, List.mem_cons]
    tauto

omit [DecidableEq δ] [BEq δ] [Add δ] [IntCast δ] in
theorem sortedKeys_foldl_insertKey {α : Type*} {f : α → FieldPath} {l : List α} {mask : FieldMask}
    (h : SortedKeys mask) : SortedKeys (l.foldl (fun mask a => insertKey (f a) mask) mask) := by
  induction l generalizing mask with
  | nil => exact h
  | cons a l ih => exact ih (sortedKeys_insertKey h)

/-- The mask after a patch. -/
def patchedMask (fieldMask : FieldMask) (transforms : List (FieldTransform δ)) (mask : FieldMask) : FieldMask :=
  transforms.foldl (fun mask t => insertKey t.path mask) (fieldMask.foldl (fun mask p => insertKey p mask) mask)

variable {fieldMask mask : FieldMask} {transforms : List (FieldTransform δ)} {p : FieldPath}

omit [DecidableEq δ] [BEq δ] [Add δ] [IntCast δ] in
theorem mem_patchedMask : p ∈ patchedMask fieldMask transforms mask ↔
    p ∈ mask ∨ p ∈ fieldMask ∨ p ∈ transforms.map FieldTransform.path := by
  rw [patchedMask, mem_foldl_insertKey, mem_foldl_insertKey, List.map_id', or_assoc]

omit [DecidableEq δ] [BEq δ] [Add δ] [IntCast δ] in
theorem setOf_mem_patchedMask : {p | p ∈ patchedMask fieldMask transforms mask} =
    {p | p ∈ mask} ∪ {p | p ∈ fieldMask} ∪ {p | p ∈ transforms.map FieldTransform.path} := by
  ext p
  simp only [Set.mem_ofPred_eq, Set.mem_union, mem_patchedMask, or_assoc]

omit [DecidableEq δ] [BEq δ] [Add δ] [IntCast δ] in
theorem sortedKeys_patchedMask (h : SortedKeys mask) : SortedKeys (patchedMask fieldMask transforms mask) :=
  sortedKeys_foldl_insertKey (sortedKeys_foldl_insertKey h)

/-! ## Replaying mutations -/

/-- What has become of a document and its mask when mutations have been applied to it: nothing has changed,
it was touched at the paths of the mask, or it was set or deleted as a whole. If there was no mask to begin with,
there is none afterwards. -/
inductive Replayed (base : MutableDocument κ δ) : MutableDocument κ δ × Option FieldMask → Prop
  | unchanged : Replayed base (base, some [])
  | unmasked : Replayed base (base, none)
  | patched {mask : FieldMask} {d : MapValue δ} (hs : SortedKeys mask) (hpaths : ∀ p ∈ mask, p ≠ [])
      (hd : Value.OrderedEntries d) (ht : Touched {p | p ∈ mask} base.value d) :
      Replayed base ((base.convertToFoundDocument 0 d).setHasLocalMutations, some mask)
  | replaced {d : MapValue δ} (hd : Value.OrderedEntries d) :
      Replayed base ((base.convertToFoundDocument 0 d).setHasLocalMutations, none)
  | deleted : Replayed base ((base.convertToNoDocument 0).setHasLocalMutations, none)

theorem Replayed.step {base : MutableDocument κ δ} {s : MutableDocument κ δ × Option FieldMask}
    (hbase : Value.OrderedEntries base.value) (h : Replayed base s) {m : Mutation κ δ} (hm : m.SetsFields)
    (now : Timestamp) : Replayed base (m.applyToLocalView s.1 s.2 now) := by
  have hdoc : Value.OrderedEntries s.1.value := by
    cases h with
    | unchanged => exact hbase
    | unmasked => exact hbase
    | patched _ _ hd _ => exact hd
    | replaced hd => exact hd
    | deleted => trivial
  cases m with
  | set key value precondition transforms =>
    obtain ⟨hvalue, ht⟩ := hm
    rw [Mutation.applyToLocalView]
    split_ifs
    · have hordered : Value.OrderedEntries (MapValue.setAll
          (Mutation.localTransformResults s.1.value now transforms) value) :=
        (touched_empty.setAll hvalue (sets_localTransformResults hdoc ht).1).2
      cases h <;> exact .replaced hordered
    · exact h
  | patch key value fieldMask precondition transforms =>
    obtain ⟨hvalue, hs, hmask, ht⟩ := hm
    obtain ⟨hsets, hkeys⟩ := sets_getPatch hvalue hs hmask
    obtain ⟨hsets', hkeys'⟩ : Sets (Mutation.localTransformResults s.1.value now transforms) ∧ _ :=
      sets_localTransformResults hdoc ht
    have hpaths : ∀ p, p ∈ fieldMask ∨ p ∈ transforms.map FieldTransform.path → p ≠ [] := by
      rintro p (hp | hp)
      · exact (hmask p hp).1
      · obtain ⟨t, ht', rfl⟩ := List.mem_map.1 hp
        exact (ht t ht').1
    rw [Mutation.applyToLocalView]
    split_ifs
    · -- the paths of the mask and then those of the transforms are set
      have htouch : ∀ mask' : FieldMask, Touched {p | p ∈ mask'} base.value s.1.value →
          Touched {p | p ∈ patchedMask fieldMask transforms mask'} base.value
            (MapValue.setAll (Mutation.localTransformResults s.1.value now transforms)
              (MapValue.setAll (Mutation.getPatch value fieldMask) s.1.value)) := by
        intro mask' htouched
        obtain ⟨htouched, hordered⟩ := htouched.setAll hdoc hsets
        rw [setOf_mem_patchedMask, ← hkeys, ← hkeys']
        exact (htouched.setAll hordered hsets').1
      have hordered := (touched_empty.setAll (touched_empty.setAll hdoc hsets).2 hsets').2
      cases h with
      | unchanged =>
        exact .patched (sortedKeys_patchedMask List.Pairwise.nil)
          (fun p hp => (mem_patchedMask.1 hp).elim (by simp) (hpaths p)) hordered
          (htouch [] (by simpa using touched_empty))
      | unmasked => exact .replaced hordered
      | patched hs' hpaths' _ ht' =>
        exact .patched (sortedKeys_patchedMask hs')
          (fun p hp => (mem_patchedMask.1 hp).elim (hpaths' p) (hpaths p)) hordered (htouch _ ht')
      | replaced _ => exact .replaced hordered
      | deleted => exact .replaced hordered
    · exact h
  | delete key precondition =>
    rw [Mutation.applyToLocalView]
    split_ifs
    · cases h <;> exact .deleted
    · exact h

theorem Replayed.replay {base : MutableDocument κ δ} {s : MutableDocument κ δ × Option FieldMask}
    (hbase : Value.OrderedEntries base.value) (h : Replayed base s) {ms : List (Mutation κ δ × Timestamp)}
    (hms : ∀ m ∈ ms, m.1.SetsFields) : Replayed base (Mutation.replay s.1 s.2 ms) := by
  induction ms generalizing s with
  | nil => exact h
  | cons m ms ih =>
    rw [Mutation.replay, List.foldl_cons]
    exact ih (h.step hbase (hms m List.mem_cons_self) m.2) fun a ha => hms a (List.mem_cons_of_mem _ ha)

/-! ## The overlay of a document that mutations have led to -/

section Overlay

variable {base doc : MutableDocument κ δ} {now : Timestamp} {previousMask : Option FieldMask} {key : κ}

omit [DecidableEq δ] [BEq δ] [Add δ] [IntCast δ] in
theorem setAll_nil {v : MapValue δ} (hv : Value.OrderedEntries v) : MapValue.setAll [] v = v := by
  rw [MapValue.setAll, MapValue.setAllLoop]
  exact applyChanges_nil hv.sorted

theorem apply_set_overlay {value : MapValue δ} (hvalue : Value.OrderedEntries value) :
    ((Mutation.set key value .none []).applyToLocalView base previousMask now).1 =
      (base.convertToFoundDocument 0 value).setHasLocalMutations := by
  have hvalid : Precondition.isValidFor base .none = true := rfl
  have hresults : Mutation.localTransformResults base.value now ([] : List (FieldTransform δ)) = [] := rfl
  rw [Mutation.applyToLocalView, if_pos hvalid]
  simp only [hresults, setAll_nil hvalue]
  rfl

theorem apply_patch_overlay {value : MapValue δ} {fieldMask : FieldMask}
    (hordered : Value.OrderedEntries (MapValue.setAll (Mutation.getPatch value fieldMask) base.value)) :
    ((Mutation.patch key value fieldMask .none []).applyToLocalView base previousMask now).1 =
      (base.convertToFoundDocument 0
        (MapValue.setAll (Mutation.getPatch value fieldMask) base.value)).setHasLocalMutations := by
  have hvalid : Precondition.isValidFor base .none = true := rfl
  have hresults : Mutation.localTransformResults base.value now ([] : List (FieldTransform δ)) = [] := rfl
  rw [Mutation.applyToLocalView, if_pos hvalid]
  simp only [hresults, setAll_nil hordered]
  rfl

/-- An overlay that the client has calculated. What a patch deletes is below another path of its mask. -/
def Mutation.IsOverlay : Mutation κ δ → Prop
  | .set _ value precondition transforms =>
    Value.OrderedEntries value ∧ precondition = .none ∧ transforms = []
  | .patch _ value fieldMask precondition transforms =>
    OverlayOf value value fieldMask ∧ precondition = .none ∧ transforms = [] ∧
      ∀ q ∈ fieldMask, (Value.map value).get q = none → ∃ c ∈ fieldMask, c <+: q ∧ c ≠ q
  | .delete _ precondition => precondition = .none

/-- Applying an overlay is like applying mutations that set fields. -/
theorem Mutation.IsOverlay.replayed {o : Mutation κ δ} (hbase : Value.OrderedEntries base.value)
    (h : o.IsOverlay) (previousMask : Option FieldMask) (now : Timestamp) :
    Replayed base ((o.applyToLocalView base previousMask now).1, o.fieldMask) := by
  cases o with
  | set key value precondition transforms =>
    obtain ⟨hvalue, rfl, rfl⟩ := h
    rw [apply_set_overlay hvalue]
    exact .replaced hvalue
  | patch key value fieldMask precondition transforms =>
    obtain ⟨hover, rfl, rfl, habove⟩ := h
    obtain ⟨hpatched, hordered⟩ := patched_setAll hover hover.ordered hbase habove
    rw [apply_patch_overlay hordered]
    refine .patched hover.sorted hover.paths hordered ⟨?_, ?_, ?_⟩
    · exact fun p _ hext => hpatched.extended p hext
    · exact fun p hcov hext => hpatched.same p hext hcov
    · intro q hq hnone
      by_cases hext : Extended {q | q ∈ fieldMask} q
      · rw [hpatched.extended q hext] at hnone
        simp at hnone
      · rw [hpatched.covered q hext ⟨q, hq, List.prefix_rfl⟩] at hnone
        exact habove q hq (Value.look_eq_none.1 hnone)
  | delete key precondition =>
    obtain rfl := h
    exact .deleted

omit [DecidableEq δ] [BEq δ] [Add δ] [IntCast δ] in
theorem overlayOf_empty {d : MapValue δ} : OverlayOf d [] [] :=
  ⟨trivial, List.Pairwise.nil, by simp, fun p ⟨q, hq, _⟩ => by simp at hq⟩

/-- The value of the patch that is calculated agrees with the document at the paths of its mask. -/
theorem overlayLoop_isOverlay {v d : MapValue δ} (hs : ∀ m ∈ mask, m ≠ []) (hd : Value.OrderedEntries d)
    (ht : Touched {p | p ∈ mask} v d) :
    OverlayOf d (Mutation.overlayLoop d [] [] mask).1 (Mutation.overlayLoop d [] [] mask).2 ∧
      (∀ q ∈ (Mutation.overlayLoop d [] [] mask).2, (Value.map d).get q = none →
        ∃ c ∈ (Mutation.overlayLoop d [] [] mask).2, c <+: q ∧ c ≠ q) := by
  obtain ⟨hover, -, hcov, hfrom⟩ := overlayLoop_spec hd hs overlayOf_empty
  refine ⟨hover, fun q hq hnone => ?_⟩
  exact exists_above ht hs hcov (fun c hc => (hfrom c hc).resolve_left (by simp)) hq hnone

omit [DecidableEq δ] [BEq δ] [Add δ] [IntCast δ] in
theorem OverlayOf.get_eq {d patchValue : MapValue δ} {maskSet : FieldMask} (h : OverlayOf d patchValue maskSet)
    (hd : Value.OrderedEntries d) {q : FieldPath} (hq : q ∈ maskSet) :
    (Value.map patchValue).get q = (Value.map d).get q := by
  refine Value.get_eq_of_look (Value.ordered_map.2 h.ordered) (Value.ordered_map.2 hd) fun rest => ?_
  exact h.agrees _ ⟨q, hq, List.prefix_append q rest⟩

/-- What is calculated is an overlay. -/
theorem Replayed.isOverlay {s : MutableDocument κ δ × Option FieldMask} (h : Replayed base s) {o : Mutation κ δ}
    (hlocal : base.hasLocalMutations = false) (ho : Mutation.calculateOverlayMutation s.1 s.2 = some o) :
    o.IsOverlay := by
  cases h with
  | unchanged => simp [Mutation.calculateOverlayMutation, hlocal] at ho
  | unmasked => simp [Mutation.calculateOverlayMutation, hlocal] at ho
  | patched hs hpaths hd ht =>
    obtain ⟨hover, habove⟩ := overlayLoop_isOverlay hpaths hd ht
    obtain rfl := Option.some.inj ho
    refine ⟨⟨hover.ordered, hover.sorted, hover.paths, fun _ _ => rfl⟩, rfl, rfl, fun q hq hnone => ?_⟩
    exact habove q hq ((hover.get_eq hd hq).symm.trans hnone)
  | replaced hd =>
    obtain rfl := Option.some.inj ho
    exact ⟨hd, rfl, rfl⟩
  | deleted =>
    obtain rfl := Option.some.inj ho
    exact rfl

omit [DecidableEq δ] [BEq δ] [Add δ] [IntCast δ] in
/-- A document without local mutations is as it was. -/
theorem Replayed.eq_base {s : MutableDocument κ δ × Option FieldMask} (h : Replayed base s)
    (hlocal : s.1.hasLocalMutations = false) : s.1 = base := by
  cases h with
  | unchanged => rfl
  | unmasked => rfl
  | patched => simp [MutableDocument.hasLocalMutations, MutableDocument.setHasLocalMutations] at hlocal
  | replaced => simp [MutableDocument.hasLocalMutations, MutableDocument.setHasLocalMutations] at hlocal
  | deleted => simp [MutableDocument.hasLocalMutations, MutableDocument.setHasLocalMutations] at hlocal

/-- The overlay that is calculated has the effect of the mutations just in case the mask is anchored. -/
theorem Replayed.overlay_iff {s : MutableDocument κ δ × Option FieldMask} (h : Replayed base s)
    (hbase : Value.OrderedEntries base.value) (hlocal : base.hasLocalMutations = false) (now : Timestamp) :
    Mutation.applyOverlay base now (Mutation.calculateOverlayMutation s.1 s.2) = s.1 ↔
      ∀ mask, s.2 = some mask → Anchored mask s.1.value := by
  cases h with
  | unchanged => simp [Mutation.calculateOverlayMutation, hlocal, Mutation.applyOverlay, Anchored]
  | unmasked => simp [Mutation.calculateOverlayMutation, hlocal, Mutation.applyOverlay]
  | replaced hd =>
    refine ⟨fun _ mask hmask => by simp at hmask, fun _ => ?_⟩
    exact apply_set_overlay hd
  | deleted =>
    refine ⟨fun _ mask hmask => by simp at hmask, fun _ => rfl⟩
  | @patched mask d hs hpaths hd ht =>
    obtain ⟨hover, -, hcov, hfrom⟩ := overlayLoop_spec hd hpaths overlayOf_empty
    obtain ⟨-, habove⟩ := overlayLoop_isOverlay hpaths hd ht
    obtain ⟨hpatched, hordered⟩ := patched_setAll hover hd hbase habove
    have hview : Mutation.applyOverlay base now (Mutation.calculateOverlayMutation
        (base.convertToFoundDocument 0 d).setHasLocalMutations (some mask)) =
        (base.convertToFoundDocument 0 (MapValue.setAll (Mutation.getPatch
          (Mutation.overlayLoop d [] [] mask).1 (Mutation.overlayLoop d [] [] mask).2)
            base.value)).setHasLocalMutations := apply_patch_overlay hordered
    have hiff := patched_eq_iff ht hpatched hd hordered hpaths hcov fun q hq =>
      (hfrom q hq).resolve_left (by simp)
    rw [hview]
    constructor
    · rintro heq _ hmask
      obtain rfl := Option.some.inj hmask
      exact hiff.1 (congrArg MutableDocument.value heq)
    · intro hanchored
      rw [hiff.2 (hanchored mask rfl)]

end Overlay

end Firestore

end Datability
