import Mathlib.Data.List.Pairwise
import Datability.Proofs.LocalViewProofs

/-!
# Proofs: increments

An increment is not idempotent, so `WriteLocally` records the value from which it starts in a patch of its
own. This module shows what that patch is for: whatever the backend sends of the document while the batch
is pending, the incremented field is the value seen at the time of the write plus the operand.
-/

namespace Datability

namespace Firestore

open SortedMap MapValue

variable {κ δ : Type*} {p : FieldPath} {n : Number δ}

/-- Neither path is above the other. -/
def Apart (p q : FieldPath) : Prop := ¬ p <+: q ∧ ¬ q <+: p

theorem Apart.symm {q : FieldPath} (h : Apart p q) : Apart q p := ⟨h.2, h.1⟩

/-! ## Numbers at paths -/

/-- A number is not changed by taking its shape, so there is no difference between the two ways to read it. -/
theorem look_eq_number {v : Value δ} : v.look p = some n.toValue ↔ v.get p = some n.toValue := by
  unfold Value.look
  cases hget : v.get p with
  | none => simp
  | some w =>
    cases w <;> cases n <;> simp [Number.toValue, Value.shape]

theorem look_put_number {m : MapValue δ} (hp : p ≠ []) (hm : Value.OrderedEntries m) :
    (Value.map (MapValue.put p (some n.toValue) m)).look p = some n.toValue := by
  rw [look_put hp hm, if_pos List.prefix_rfl, Option.bind_some, sortFields_number, List.drop_length]
  exact look_eq_number.2 rfl

theorem look_put_of_apart {m : MapValue δ} {q : FieldPath} {value : Option (Value δ)} (hq : q ≠ [])
    (hm : Value.OrderedEntries m) (h : Apart p q) :
    (Value.map (MapValue.put q value m)).look p = (Value.map m).look p := by
  rw [look_put hq hm, if_neg h.2, if_neg h.1]

/-- Setting fields apart from a path leaves it as it is. -/
theorem look_foldl_put_of_apart {data : TransformMap δ} {m : MapValue δ} (hdata : Sets data)
    (hm : Value.OrderedEntries m) (h : ∀ e ∈ data, Apart p e.1) :
    (Value.map (data.foldl (fun m e => MapValue.put e.1 e.2 m) m)).look p = (Value.map m).look p := by
  induction data generalizing m with
  | nil => rfl
  | cons e data ih =>
    have he : e ∈ e :: data := List.mem_cons_self
    have hput : Value.OrderedEntries (MapValue.put e.1 e.2 m) := ordered_put (hdata.ordered e he) hm
    rw [List.foldl_cons, ih hdata.tail hput fun a ha => h a (List.mem_cons_of_mem _ ha)]
    exact look_put_of_apart (hdata.paths e he) hm (h e he)

/-- A number that is set is there afterwards, if the other fields that are set are apart from it. -/
theorem look_foldl_put {data : TransformMap δ} {m : MapValue δ} (hdata : Sets data)
    (hm : Value.OrderedEntries m) (hapart : data.Pairwise fun a b => Apart a.1 b.1)
    (h : (p, some n.toValue) ∈ data) :
    (Value.map (data.foldl (fun m e => MapValue.put e.1 e.2 m) m)).look p = some n.toValue := by
  induction data generalizing m with
  | nil => simp at h
  | cons e data ih =>
    obtain ⟨hfirst, hrest⟩ := List.pairwise_cons.1 hapart
    have he : e ∈ e :: data := List.mem_cons_self
    have hput : Value.OrderedEntries (MapValue.put e.1 e.2 m) := ordered_put (hdata.ordered e he) hm
    rw [List.foldl_cons]
    rcases List.mem_cons.1 h with rfl | h
    · rw [look_foldl_put_of_apart hdata.tail hput hfirst]
      exact look_put_number (hdata.paths _ he) hm
    · exact ih hdata.tail hput hrest h

/-! ## The values from which the increments start -/

/-- The base values so far are in order, and have a number at the path. -/
structure HasBase (p : FieldPath) (n : Number δ) (v : MapValue δ) : Prop where
  ordered : Value.OrderedEntries v
  number : (Value.map v).look p = some n.toValue

theorem ordered_set_number {q : FieldPath} {v : MapValue δ} (hv : Value.OrderedEntries v) :
    Value.OrderedEntries (MapValue.set q n.toValue v) := by
  rw [set_eq_put]
  refine ordered_put (fun x hx => ?_) hv
  obtain rfl := Option.some.inj hx
  rw [sortFields_number]
  exact ordered_number

/-- The base values of the other increments are apart, so a base value stays. -/
theorem HasBase.foldl {doc : MutableDocument κ δ} {ts : List (FieldTransform δ)} {v : MapValue δ}
    (h : HasBase p n v) (hpaths : ∀ t ∈ ts, t.path ≠ []) (hapart : ∀ t ∈ ts, Apart p t.path) :
    ∃ v', ts.foldl (Mutation.addBaseValue doc) (some v) = some v' ∧ HasBase p n v' := by
  induction ts generalizing v with
  | nil => exact ⟨v, rfl, h⟩
  | cons t ts ih =>
    have ht : t ∈ t :: ts := List.mem_cons_self
    have hpaths' : ∀ t ∈ ts, t.path ≠ [] := fun a ha => hpaths a (List.mem_cons_of_mem _ ha)
    have hapart' : ∀ t ∈ ts, Apart p t.path := fun a ha => hapart a (List.mem_cons_of_mem _ ha)
    rw [List.foldl_cons]
    cases hop : t.transformation with
    | increment operand =>
      have hstep : Mutation.addBaseValue doc (some v) t = some (MapValue.set t.path
          (TransformOperation.computeBaseValue (doc.field t.path)).toValue v) := by
        rw [Mutation.addBaseValue, hop]
        rfl
      rw [hstep]
      refine ih ⟨ordered_set_number h.ordered, ?_⟩ hpaths' hapart'
      rw [set_eq_put, look_put_of_apart (hpaths t ht) h.ordered (hapart t ht)]
      exact h.number
    | _ =>
      have hstep : Mutation.addBaseValue doc (some v) t = some v := by rw [Mutation.addBaseValue, hop]
      rw [hstep]
      exact ih h hpaths' hapart'

/-- Each increment has the number in its field as base value. -/
theorem exists_hasBase {doc : MutableDocument κ δ} {ts : List (FieldTransform δ)} {base : Option (MapValue δ)}
    (hbase : ∀ v ∈ base, Value.OrderedEntries v) (hpaths : ∀ t ∈ ts, t.path ≠ [])
    (hapart : ts.Pairwise fun t u => Apart t.path u.path) {t : FieldTransform δ} (ht : t ∈ ts)
    {operand : Number δ} (hop : t.transformation = .increment operand) :
    ∃ v, ts.foldl (Mutation.addBaseValue doc) base = some v ∧
      HasBase t.path (TransformOperation.computeBaseValue (doc.field t.path)) v := by
  induction ts generalizing base with
  | nil => simp at ht
  | cons u ts ih =>
    obtain ⟨hfirst, hrest⟩ := List.pairwise_cons.1 hapart
    have hu : u.path ≠ [] := hpaths u List.mem_cons_self
    have hpaths' : ∀ t ∈ ts, t.path ≠ [] := fun a ha => hpaths a (List.mem_cons_of_mem _ ha)
    have hordered : Value.OrderedEntries (base.getD []) := by
      cases base with
      | none => trivial
      | some v => exact hbase v rfl
    rw [List.foldl_cons]
    rcases List.mem_cons.1 ht with rfl | ht
    · have hstep : Mutation.addBaseValue doc base t = some (MapValue.set t.path
          (TransformOperation.computeBaseValue (doc.field t.path)).toValue (base.getD [])) := by
        rw [Mutation.addBaseValue, hop]
      rw [hstep]
      refine HasBase.foldl ⟨ordered_set_number hordered, ?_⟩ hpaths' hfirst
      rw [set_eq_put]
      exact look_put_number hu hordered
    · refine ih (fun v hv => ?_) hpaths' hrest ht
      unfold Mutation.addBaseValue at hv
      split at hv
      · obtain rfl := Option.some.inj hv
        exact ordered_set_number hordered
      · exact hbase v hv

/-- A number has no fields, so its path is one of the mask. -/
theorem mem_extractFieldMask {v : MapValue δ} (hp : p ≠ []) (h : (Value.map v).get p = some n.toValue) :
    p ∈ v.extractFieldMask := by
  obtain ⟨l, q, rfl⟩ := List.exists_cons_of_ne_nil hp
  clear hp
  fun_induction MapValue.extractFieldMask v generalizing l q with
  | case1 => simp [Value.get_cons] at h
  | case2 k inner fields nested hnil ih ih' =>
    rw [Value.get_cons, lookup_cons] at h
    rw [mem_insertKey]
    split_ifs at h with hl
    · rw [Option.bind_some] at h
      cases q with
      | nil => cases n <;> simp [Number.toValue] at h
      | cons l' q =>
        have hmem := ih l' q h
        simp [nested, hnil] at hmem
    · exact .inr (ih' l q (by rwa [Value.get_cons]))
  | case3 k inner fields nested hnil ih ih' =>
    rw [Value.get_cons, lookup_cons] at h
    rw [mem_foldr_insertKey]
    split_ifs at h with hl
    · rw [Option.bind_some] at h
      cases q with
      | nil => cases n <;> simp [Number.toValue] at h
      | cons l' q =>
        refine .inl (List.mem_map.2 ⟨l' :: q, ih l' q h, ?_⟩)
        rw [hl]
    · exact .inr (ih' l q (by rwa [Value.get_cons]))
  | case4 k w fields hw ih =>
    rw [Value.get_cons, lookup_cons] at h
    rw [mem_insertKey]
    split_ifs at h with hl
    · rw [Option.bind_some] at h
      cases q with
      | nil => exact .inl (by rw [hl])
      | cons l' q =>
        cases w with
        | map inner => exact absurd rfl (hw inner)
        | _ => simp [Value.get] at h
    · exact .inr (ih l q (by rwa [Value.get_cons]))

/-- The patch of the base values restores the number, whatever the document has there. -/
theorem HasBase.patched {v d : MapValue δ} (h : HasBase p n v) (hp : p ≠ []) (hd : Value.OrderedEntries d) :
    HasBase p n (setAll (Mutation.getPatch v v.extractFieldMask) d) := by
  have hmask : ∀ q ∈ v.extractFieldMask, q ≠ [] ∧ ((Value.map v).get q).isSome = true :=
    fun q hq => get_of_mem_extractFieldMask h.ordered hq
  have hoverlay : OverlayOf v v v.extractFieldMask :=
    ⟨h.ordered, sortedKeys_extractFieldMask, fun q hq => (hmask q hq).1, fun _ _ => rfl⟩
  obtain ⟨hpatched, hordered⟩ := patched_setAll hoverlay h.ordered hd fun q hq hnone => by
    have hsome := (hmask q hq).2
    simp [hnone] at hsome
  refine ⟨hordered, ?_⟩
  have hmem : p ∈ v.extractFieldMask := mem_extractFieldMask hp (look_eq_number.1 h.number)
  -- nothing of the mask is below a number
  have hext : ¬ Extended {q | q ∈ v.extractFieldMask} p := by
    rintro ⟨q, hq, hpq, hne⟩
    obtain ⟨w, hw⟩ := Option.isSome_iff_exists.1 (hmask q hq).2
    have hmap := Value.look_of_get hw hpq hne
    rw [h.number] at hmap
    cases n <;> simp [Number.toValue] at hmap
  rw [hpatched.covered p hext ⟨p, hmem, List.prefix_rfl⟩]
  exact h.number

/-! ## Mutations with increments -/

/-- The data of a mutation are in order, as `ObjectValue` keeps them. -/
def Mutation.Ordered : Mutation κ δ → Prop
  | .set _ value _ transforms => Value.OrderedEntries value ∧ ∀ t ∈ transforms, t.WellFormed
  | .patch _ value _ _ transforms => Value.OrderedEntries value ∧ ∀ t ∈ transforms, t.WellFormed
  | .delete _ _ => True

theorem Mutation.Ordered.transforms {m : Mutation κ δ} (h : m.Ordered) : ∀ t ∈ m.fieldTransforms, t.WellFormed := by
  cases m with
  | set => exact h.2
  | patch => exact h.2
  | delete => simp [Mutation.fieldTransforms]

theorem ordered_setAllLoop {data : TransformMap δ} {parent : FieldPath} {upserts m : MapValue δ}
    {deletes : List String} (hm : Value.OrderedEntries m) (hu : Sorted upserts)
    (hvalues : ∀ e ∈ upserts, e.2.sortFields.Ordered) (hdata : ∀ e ∈ data, ∀ x ∈ e.2, x.sortFields.Ordered) :
    Value.OrderedEntries (setAllLoop parent upserts deletes data m) := by
  induction data generalizing parent upserts deletes m with
  | nil => exact ordered_parentMap (fun i hi => ordered_applyChanges hi hu hvalues) hm
  | cons e data ih =>
    obtain ⟨path, value⟩ := e
    have hdata' : ∀ e ∈ data, ∀ x ∈ e.2, x.sortFields.Ordered := fun e he => hdata e (List.mem_cons_of_mem _ he)
    have hflush : Value.OrderedEntries (parentMap (fun i => applyChanges i upserts deletes) parent m) :=
      ordered_parentMap (fun i hi => ordered_applyChanges hi hu hvalues) hm
    unfold setAllLoop
    split_ifs
    · cases value with
      | none => exact ih hm hu hvalues hdata'
      | some x =>
        refine ih hm hu.insert (fun e he => ?_) hdata'
        rcases mem_insert he with rfl | he
        · exact hdata _ List.mem_cons_self x rfl
        · exact hvalues e he
    · cases value with
      | none => exact ih hflush List.Pairwise.nil (by simp) hdata'
      | some x =>
        refine ih hflush (List.pairwise_singleton _ _) (fun e he => ?_) hdata'
        obtain rfl := List.mem_singleton.1 he
        exact hdata _ List.mem_cons_self x rfl

theorem ordered_setAll_getPatch {value d : MapValue δ} {mask : FieldMask} (hvalue : Value.OrderedEntries value)
    (hd : Value.OrderedEntries d) : Value.OrderedEntries (setAll (Mutation.getPatch value mask) d) := by
  refine ordered_setAllLoop hd List.Pairwise.nil (by simp) fun e he x hx => ?_
  induction mask with
  | nil => simp [Mutation.getPatch] at he
  | cons q mask ih =>
    unfold Mutation.getPatch at he
    split_ifs at he
    · exact ih he
    · rcases mem_insert he with rfl | he
      · exact ((Value.ordered_map.2 hvalue).get hx).sortable
      · exact ih he

section Transforms

variable [DecidableEq δ] [BEq δ] [Add δ] [IntCast δ] {d : MapValue δ} {now : Timestamp}
  {ts : List (FieldTransform δ)}

/-- What an increment makes is a number, and it depends on the number in the field only. -/
theorem increment_number {operand : Number δ} {previous : Option (Value δ)} :
    ∃ n : Number δ, (TransformOperation.increment operand).applyToLocalView previous now = n.toValue ∧
      (TransformOperation.increment operand).applyToLocalView
        (some (TransformOperation.computeBaseValue previous).toValue) now = n.toValue := by
  have hbase : TransformOperation.computeBaseValue
      (some (TransformOperation.computeBaseValue previous).toValue) =
        TransformOperation.computeBaseValue previous := by
    cases TransformOperation.computeBaseValue previous <;> rfl
  unfold TransformOperation.applyToLocalView
  rw [hbase]
  cases TransformOperation.computeBaseValue previous <;> cases operand
  · exact ⟨.integer _, rfl, rfl⟩
  · exact ⟨.double _, rfl, rfl⟩
  · exact ⟨.double _, rfl, rfl⟩
  · exact ⟨.double _, rfl, rfl⟩

/-- Transforms at paths that are apart do not disturb each other. -/
theorem look_setAll_localTransformResults {v : MapValue δ} (hv : Value.OrderedEntries v)
    (hd : Value.OrderedEntries d) (hts : ∀ t ∈ ts, t.WellFormed)
    (hapart : ts.Pairwise fun t u => Apart t.path u.path) {t : FieldTransform δ} (ht : t ∈ ts)
    (hn : t.transformation.applyToLocalView ((Value.map d).get t.path) now = n.toValue) :
    (Value.map (setAll (Mutation.localTransformResults d now ts) v)).look t.path = some n.toValue := by
  obtain ⟨hsets, hkeys⟩ : Sets (Mutation.localTransformResults d now ts) ∧ _ := sets_localTransformResults hd hts
  have hne : ts.Pairwise fun t u => t.path ≠ u.path := by
    refine hapart.imp fun {t u} h => ?_
    intro heq
    have hsame : t.path <+: u.path := heq ▸ List.prefix_rfl
    exact h.1 hsame
  have hmem : (t.path, some n.toValue) ∈ Mutation.localTransformResults d now ts := by
    refine mem_of_lookup ?_
    rw [Mutation.localTransformResults, lookup_foldl_insert hne ht, hn]
  have hpath : ∀ e ∈ Mutation.localTransformResults d now ts, ∃ u ∈ ts, u.path = e.1 := by
    intro e he
    have he' : e.1 ∈ {p | p ∈ (Mutation.localTransformResults d now ts).map Prod.fst} :=
      List.mem_map_of_mem he
    rw [hkeys] at he'
    exact List.mem_map.1 he'
  rw [hsets.setAll_eq hv]
  refine look_foldl_put hsets hv (hsets.sorted.imp_of_mem fun {a b} ha hb hlt => ?_) hmem
  obtain ⟨t, ht, hta⟩ := hpath a ha
  obtain ⟨u, hu, hub⟩ := hpath b hb
  rw [← hta, ← hub]
  have : Std.Symm fun t u : FieldTransform δ => Apart t.path u.path := ⟨fun _ _ => Apart.symm⟩
  refine hapart.forall ht hu ?_
  rintro rfl
  exact hlt.ne (hta.symm.trans hub)

/-- A mutation makes the increments of the document that it is applied to. -/
theorem field_applyToLocalView {m : Mutation κ δ} {doc : MutableDocument κ δ} {mask : Option FieldMask}
    (hm : m.Ordered) (hdoc : Value.OrderedEntries doc.value) (hvalid : m.precondition.isValidFor doc = true)
    (hapart : m.fieldTransforms.Pairwise fun t u => Apart t.path u.path) {t : FieldTransform δ}
    (ht : t ∈ m.fieldTransforms) {operand : Number δ} (hop : t.transformation = .increment operand) :
    (m.applyToLocalView doc mask now).1.field t.path =
      some ((TransformOperation.increment operand).applyToLocalView (doc.field t.path) now) := by
  obtain ⟨n, hn, -⟩ := @increment_number δ _ _ _ _ now operand (doc.field t.path)
  have hresult : t.transformation.applyToLocalView ((Value.map doc.value).get t.path) now = n.toValue := by
    rw [hop]
    exact hn
  rw [hn]
  cases m with
  | set key value precondition transforms =>
    have hlook := look_setAll_localTransformResults hm.1 hdoc hm.2 hapart ht hresult
    change precondition.isValidFor doc = true at hvalid
    rw [Mutation.applyToLocalView, if_pos hvalid]
    exact look_eq_number.1 hlook
  | patch key value fieldMask precondition transforms =>
    have hpatched : Value.OrderedEntries (setAll (Mutation.getPatch value fieldMask) doc.value) :=
      ordered_setAll_getPatch hm.1 hdoc
    have hlook := look_setAll_localTransformResults hpatched hdoc hm.2 hapart ht hresult
    change precondition.isValidFor doc = true at hvalid
    rw [Mutation.applyToLocalView, if_pos hvalid]
    exact look_eq_number.1 hlook
  | delete => simp [Mutation.fieldTransforms] at ht

end Transforms

/-! ## Batches with increments -/

namespace LocalStore

variable [DecidableEq κ] [DecidableEq δ] [BEq δ] [Add δ] [IntCast δ] {ls : LocalStore κ δ}
  {mutations : List (Mutation κ δ)} {now : Timestamp} {key : κ} {m : Mutation κ δ}

omit [DecidableEq κ] [DecidableEq δ] [BEq δ] [Add δ] [IntCast δ] in
theorem key_baseMutation {doc : MutableDocument κ δ} {b : Mutation κ δ} (h : baseMutation doc m = some b) :
    b.key = m.key := by
  obtain ⟨v, -, rfl⟩ := Option.map_eq_some_iff.1 h
  rfl

omit [DecidableEq δ] [BEq δ] [Add δ] [IntCast δ] in
/-- The patches that restore the base values have the keys of their mutations. -/
theorem filter_filterMap_baseMutation {view : κ → MutableDocument κ δ} :
    (mutations.filterMap fun a => baseMutation (view a.key) a).filter (fun a => a.key = key) =
      (mutations.filter fun a => a.key = key).filterMap fun a => baseMutation (view a.key) a := by
  induction mutations with
  | nil => rfl
  | cons a mutations ih =>
    rw [List.filterMap_cons]
    by_cases hkey : a.key = key
    · rw [List.filter_cons_of_pos (by simpa using hkey), List.filterMap_cons]
      cases hbase : baseMutation (view a.key) a with
      | none => exact ih
      | some b =>
        have hb : b.key = key := (key_baseMutation hbase).trans hkey
        change (b :: _).filter _ = b :: _
        rw [List.filter_cons_of_pos (by simpa using hb), ih]
    · rw [List.filter_cons_of_neg (by simpa using hkey)]
      cases hbase : baseMutation (view a.key) a with
      | none => exact ih
      | some b =>
        have hb : b.key ≠ key := by rwa [key_baseMutation hbase]
        change (b :: _).filter _ = _
        rw [List.filter_cons_of_neg (by simpa using hb), ih]

/-- A document that is written once in a batch is patched with the base values first. -/
theorem mutationsOf_newBatch {b : Mutation κ δ} (hone : mutations.filter (fun a => a.key = key) = [m])
    (hbase : baseMutation (ls.overlayedDocument key now).document m = some b) :
    mutationsOf (ls.newBatch mutations now) key = [(b, now), (m, now)] := by
  have hkey : m.key = key := by
    have hmem : m ∈ mutations.filter fun a => a.key = key := by rw [hone]; exact List.mem_singleton_self m
    simpa using (List.mem_filter.1 hmem).2
  have hpatch : (ls.newBatch mutations now).baseMutations.filter (fun a => a.key = key) = [b] := by
    have hfilter := @filter_filterMap_baseMutation κ δ _ mutations key
      fun k => (ls.overlayedDocument k now).document
    rw [hone, List.filterMap_cons, hkey, hbase] at hfilter
    exact hfilter
  unfold mutationsOf
  rw [List.filter_append, hpatch]
  change ([b] ++ mutations.filter fun a => a.key = key).map _ = _
  rw [hone]
  rfl

/-- **Increments do not flicker.** The batch that a write puts into the queue makes, of every version of the
document that the backend may send, one in which an incremented field is the number that the app saw when it
wrote plus the operand. -/
theorem increment_stable (hone : mutations.filter (fun a => a.key = key) = [m]) (hm : m.Ordered)
    (hpre : m.precondition = .none ∨ m.precondition = .exists true)
    (hapart : m.fieldTransforms.Pairwise fun t u => Apart t.path u.path) {t : FieldTransform δ}
    (ht : t ∈ m.fieldTransforms) {operand : Number δ} (hop : t.transformation = .increment operand) :
    ∃ batch, (ls.writeLocally mutations now).1.mutationQueue = ls.mutationQueue ++ [batch] ∧
      ∀ (doc : MutableDocument κ δ) (mask : Option FieldMask), doc.key = key → doc.isFoundDocument = true →
        Value.OrderedEntries doc.value →
        (batch.applyToLocalView doc mask).1.field t.path =
          some ((TransformOperation.increment operand).applyToLocalView
            ((ls.overlayedDocument key now).document.field t.path) now) := by
  refine ⟨ls.newBatch mutations now, by rw [writeLocally_eq]; rfl, fun doc mask hkey hfound hdoc => ?_⟩
  have hpath : t.path ≠ [] := (hm.transforms t ht).1
  obtain ⟨v, hv, hbase⟩ := @exists_hasBase κ δ (ls.overlayedDocument key now).document m.fieldTransforms none
    (by simp) (fun u hu => (hm.transforms u hu).1) hapart t ht operand hop
  have hmutation : baseMutation (ls.overlayedDocument key now).document m =
      some (.patch m.key v v.extractFieldMask (.exists true) []) := by
    rw [baseMutation, Mutation.extractTransformBaseValue, hv]
    rfl
  have hrestored := hbase.patched hpath hdoc
  have hvalid : (Precondition.exists true).isValidFor doc = true := by
    rw [Precondition.isValidFor, hfound]
    rfl
  -- the document after the patch of the base values
  generalize hpatched : (Mutation.patch m.key v v.extractFieldMask (.exists true) []).applyToLocalView doc mask now =
    s
  rw [Mutation.applyToLocalView, if_pos hvalid] at hpatched
  have hvalue : s.1.value = setAll (Mutation.getPatch v v.extractFieldMask) doc.value := by
    rw [← hpatched]
    exact applyChanges_nil hrestored.ordered.sorted
  have hsvalid : m.precondition.isValidFor s.1 = true := by
    rcases hpre with h | h
    · rw [h]
      rfl
    · rw [h, ← hpatched]
      rfl
  have hsfield : s.1.field t.path = some (TransformOperation.computeBaseValue
      ((ls.overlayedDocument key now).document.field t.path)).toValue := by
    rw [MutableDocument.field, hvalue]
    exact look_eq_number.1 hrestored.number
  obtain ⟨n, hn, hn'⟩ := @increment_number δ _ _ _ _ now operand
    ((ls.overlayedDocument key now).document.field t.path)
  rw [applyToLocalView_eq_replay, hkey, mutationsOf_newBatch hone hmutation]
  change (m.applyToLocalView ((Mutation.patch m.key v v.extractFieldMask (.exists true) []).applyToLocalView doc mask
    now).1 _ now).1.field t.path = _
  rw [Mutation.applyToLocalView, if_pos hvalid, hpatched]
  rw [field_applyToLocalView hm (hvalue ▸ hrestored.ordered) hsvalid hapart ht hop, hsfield, hn, hn']

/-- The number of snaps is raised from two while the backend sends a document in which it is raised already. -/
theorem increment_stable_sent :
    ∃ batch : MutationBatch ℕ ℤ,
      (batch.applyToLocalView ⟨0, .foundDocument, 7, [("snaps", .integer 3)], .synced⟩ (some [])).1.field
        ["snaps"] = some (.integer 3) := by
  obtain ⟨batch, -, hstable⟩ := @increment_stable ℕ ℤ _ _ _ _ _
    { remoteDocumentCache := fun key => some ⟨key, .foundDocument, 5, [("snaps", .integer 2)], .synced⟩ }
    [.patch 0 [] [] (.exists true) [⟨["snaps"], .increment (.integer 1)⟩]] ⟨1, 0⟩ 0
    (.patch 0 [] [] (.exists true) [⟨["snaps"], .increment (.integer 1)⟩]) rfl
    ⟨trivial, by simp [FieldTransform.WellFormed]⟩ (.inr rfl) (List.pairwise_singleton _ _)
    ⟨["snaps"], .increment (.integer 1)⟩ List.mem_cons_self (.integer 1) rfl
  refine ⟨batch, (hstable _ _ rfl rfl ?_).trans ?_⟩
  · simp [Value.OrderedEntries, Value.Ordered]
  · rfl

end LocalStore

end Firestore

end Datability
