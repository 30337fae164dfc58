import Datability.Proofs.ObjectValueProofs

/-!
# Proofs: reading and changing a document at paths

A value in order is determined by what there is at each path, so each operation on a document is described
by what is at a path afterwards: a value that is set puts maps on the way to it, replaces what is below
it, and leaves the rest alone.
-/

namespace Datability

namespace Firestore

open SortedMap

variable {δ : Type*}

namespace Value

/-! ## Order -/

theorem orderedEntries_iff {m : MapValue δ} : OrderedEntries m ↔ Sorted m ∧ ∀ e ∈ m, e.2.Ordered := by
  induction m with
  | nil => simp [OrderedEntries, Sorted]
  | cons e m ih =>
    obtain ⟨k, v⟩ := e
    rw [OrderedEntries, ih, SortedMap.sorted_cons, List.forall_mem_cons]
    constructor
    · rintro ⟨hlt, hv, hm, hall⟩
      exact ⟨⟨hlt, hm⟩, hv, hall⟩
    · rintro ⟨⟨hlt, hm⟩, hv, hall⟩
      exact ⟨hlt, hv, hm, hall⟩

theorem OrderedEntries.sorted {m : MapValue δ} (h : OrderedEntries m) : Sorted m := (orderedEntries_iff.1 h).1

theorem OrderedEntries.of_lookup {m : MapValue δ} (h : OrderedEntries m) {k : String} {v : Value δ}
    (hk : m.lookup k = some v) : v.Ordered :=
  (orderedEntries_iff.1 h).2 (k, v) (mem_of_lookup hk)

theorem ordered_map {m : MapValue δ} : (Value.map m).Ordered ↔ OrderedEntries m := by rw [Ordered]

mutual

/-- A value in order is not changed by sorting. -/
theorem sortFields_of_ordered : ∀ {v : Value δ}, v.Ordered → v.sortFields = v
  | .map fields, h => by
    have hfields : OrderedEntries fields := ordered_map.1 h
    rw [sortFields, sortEntries_of_ordered hfields]
    have hle : fields.Pairwise fun a b => a.1 ≤ b.1 := hfields.sorted.imp fun hab => hab.le
    rw [List.Pairwise.insertionSort_eq hle]
  | .array values, h => by
    rw [sortFields, sortValues_of_ordered (by rwa [Ordered] at h)]
  | .null, _ => by rw [sortFields]
  | .boolean _, _ => by rw [sortFields]
  | .integer _, _ => by rw [sortFields]
  | .double _, _ => by rw [sortFields]
  | .timestamp _ _, _ => by rw [sortFields]
  | .string _, _ => by rw [sortFields]
  | .bytes _, _ => by rw [sortFields]
  | .reference _, _ => by rw [sortFields]
  | .geoPoint _ _, _ => by rw [sortFields]

theorem sortEntries_of_ordered : ∀ {m : List (String × Value δ)}, OrderedEntries m → sortEntries m = m
  | [], _ => by rw [sortEntries]
  | (k, v) :: m, h => by
    rw [OrderedEntries] at h
    rw [sortEntries, sortFields_of_ordered h.2.1, sortEntries_of_ordered h.2.2]

theorem sortValues_of_ordered : ∀ {vs : List (Value δ)}, OrderedValues vs → sortValues vs = vs
  | [], _ => by rw [sortValues]
  | v :: vs, h => by
    rw [OrderedValues] at h
    rw [sortValues, sortFields_of_ordered h.1, sortValues_of_ordered h.2]

end

/-! ## What there is at a path -/

@[simp] theorem get_nil {v : Value δ} : v.get [] = some v := by cases v <;> rfl

theorem get_cons {m : MapValue δ} {k : String} {p : FieldPath} :
    (Value.map m).get (k :: p) = (m.lookup k).bind fun v => v.get p := by
  rw [get]
  cases m.lookup k <;> rfl

theorem get_append {p q : FieldPath} : ∀ {v : Value δ}, v.get (p ++ q) = (v.get p).bind fun w => w.get q := by
  induction p with
  | nil => simp
  | cons k p ih =>
    intro v
    cases v with
    | map m =>
      rw [List.cons_append, get_cons, get_cons]
      cases m.lookup k with
      | none => rfl
      | some w => exact ih
    | _ => rfl

@[simp] theorem look_nil {v : Value δ} : v.look [] = some v.shape := by simp [look]

theorem look_cons {m : MapValue δ} {k : String} {p : FieldPath} :
    (Value.map m).look (k :: p) = (m.lookup k).bind fun v => v.look p := by
  rw [look, get_cons]
  cases m.lookup k <;> rfl

theorem look_append {v : Value δ} {p q : FieldPath} : v.look (p ++ q) = (v.get p).bind fun w => w.look q := by
  rw [look, get_append]
  cases v.get p <;> rfl

theorem look_eq_none {v : Value δ} {p : FieldPath} : v.look p = none ↔ v.get p = none := by simp [look]

theorem shape_eq_map {v : Value δ} : v.shape = .map [] ↔ ∃ m, v = .map m := by cases v <;> simp [shape]

theorem shape_of_ne_map {v : Value δ} (h : ∀ m, v ≠ .map m) : v.shape = v := by
  cases v with
  | map m => exact absurd rfl (h m)
  | _ => rfl

theorem sizeOf_of_lookup {m : MapValue δ} {k : String} {v : Value δ} (h : m.lookup k = some v) :
    sizeOf v < sizeOf (Value.map m) := by
  have hmem := List.sizeOf_lt_of_mem (mem_of_lookup h)
  simp only [Prod.mk.sizeOf_spec, Value.map.sizeOf_spec] at hmem ⊢
  omega

/-- A value in order is determined by what there is at each path. -/
theorem eq_of_look {v w : Value δ} (hv : v.Ordered) (hw : w.Ordered) (h : ∀ p, v.look p = w.look p) :
    v = w := by
  induction hsize : sizeOf v using Nat.strong_induction_on generalizing v w with
  | _ n ih =>
    have hshape : v.shape = w.shape := by simpa using h []
    by_cases hmap : ∃ m, v = .map m
    · obtain ⟨m, rfl⟩ := hmap
      obtain ⟨m', rfl⟩ : ∃ m', w = .map m' := shape_eq_map.1 hshape.symm
      have hm := ordered_map.1 hv
      have hm' := ordered_map.1 hw
      refine congrArg Value.map (hm.sorted.ext hm'.sorted fun k => ?_)
      have hk : ∀ p, ((m.lookup k).bind fun v => v.look p) = (m'.lookup k).bind fun v => v.look p := by
        intro p
        rw [← look_cons, ← look_cons, h]
      cases ha : m.lookup k with
      | none =>
        cases hb : m'.lookup k with
        | none => rfl
        | some b => simpa [ha, hb] using hk []
      | some a =>
        cases hb : m'.lookup k with
        | none => simpa [ha, hb] using hk []
        | some b =>
          simp only [ha, hb, Option.bind_some] at hk
          rw [ih (sizeOf a) (hsize ▸ sizeOf_of_lookup ha) (hm.of_lookup ha) (hm'.of_lookup hb) hk rfl]
    · have hw' : ∀ m, w ≠ .map m := by
        rintro m rfl
        exact hmap (shape_eq_map.1 hshape)
      rw [shape_of_ne_map fun m hm => hmap ⟨m, hm⟩, shape_of_ne_map hw'] at hshape
      exact hshape

theorem Ordered.get {v w : Value δ} {p : FieldPath} (hv : v.Ordered) (h : v.get p = some w) : w.Ordered := by
  induction p generalizing v with
  | nil =>
    obtain rfl : v = w := by simpa using h
    exact hv
  | cons k p ih =>
    cases v with
    | map m =>
      rw [get_cons] at h
      obtain ⟨u, hu, hw⟩ := Option.bind_eq_some_iff.1 h
      exact ih ((ordered_map.1 hv).of_lookup hu) hw
    | _ => simp [Value.get] at h

/-- Two values have the same value at a path if there is the same at it and below it. -/
theorem get_eq_of_look {a b : Value δ} {q : FieldPath} (ha : a.Ordered) (hb : b.Ordered)
    (h : ∀ rest, a.look (q ++ rest) = b.look (q ++ rest)) : a.get q = b.get q := by
  simp only [look_append] at h
  cases hx : a.get q with
  | none =>
    cases hy : b.get q with
    | none => rfl
    | some y => simpa [hx, hy] using h []
  | some x =>
    cases hy : b.get q with
    | none => simpa [hx, hy] using h []
    | some y =>
      rw [eq_of_look (ha.get hx) (hb.get hy) fun p => by simpa [hx, hy] using h p]

/-- On the way to a value there are maps. -/
theorem look_of_get {v w : Value δ} {p q : FieldPath} (h : v.get q = some w) (hp : p <+: q) (hne : p ≠ q) :
    v.look p = some (.map []) := by
  obtain ⟨r, rfl⟩ := hp
  rw [get_append] at h
  obtain ⟨u, hu, hw⟩ := Option.bind_eq_some_iff.1 h
  rw [look, hu]
  cases r with
  | nil => simp at hne
  | cons l r =>
    cases u with
    | map m => rfl
    | _ => simp [Value.get] at hw

end Value

namespace MapValue

open Firestore.Value

variable {m upserts : MapValue δ} {deletes : List String} {change : MapValue δ → MapValue δ} {k : String}

/-! ## Changes to one map -/

theorem lookup_applyChanges (hm : Sorted m) (hu : Sorted upserts) (hd : SortedKeys deletes)
    (hdisj : ∀ d ∈ deletes, ∀ e ∈ upserts, e.1 ≠ d) (hun : Unobstructed m upserts deletes) :
    (applyChanges m upserts deletes).lookup k = if k ∈ deletes then none else
      ((upserts.lookup k).map sortFields).or (m.lookup k) := by
  rw [(applyChanges_eq_iff hm hu hd hdisj).2 hun, lookup_changed hm]

theorem lookup_upserts (hm : Sorted m) (hu : Sorted upserts) :
    (applyChanges m upserts []).lookup k = ((upserts.lookup k).map sortFields).or (m.lookup k) := by
  rw [lookup_applyChanges hm hu List.Pairwise.nil (by simp) (by simp [Unobstructed])]
  simp

/-- A single delete is not obstructed. -/
theorem lookup_delete (hm : Sorted m) {l : String} :
    (applyChanges m [] [l]).lookup k = if k = l then none else m.lookup k := by
  have hun : Unobstructed m [] [l] := by
    intro d hd _ d' hd' _ hlt
    simp only [List.mem_singleton] at hd hd'
    subst hd hd'
    exact absurd hlt (lt_irrefl _)
  rw [lookup_applyChanges hm List.Pairwise.nil (List.pairwise_singleton _ _) (by simp) hun]
  simp

theorem ordered_applyChanges (hm : OrderedEntries m) (hu : Sorted upserts)
    (hvalues : ∀ e ∈ upserts, e.2.sortFields.Ordered) : OrderedEntries (applyChanges m upserts deletes) := by
  refine orderedEntries_iff.2 ⟨sorted_mergeLoop hm.sorted hu, fun e he => ?_⟩
  rcases mem_mergeLoop he with he | he
  · obtain ⟨c, hc, rfl⟩ := List.mem_map.1 he
    exact hvalues c hc
  · exact (orderedEntries_iff.1 hm).2 e he

/-! ## The map at a path -/

/-- The map in a field, or an empty one if there is none. -/
def inner (m : MapValue δ) (segment : String) : MapValue δ :=
  match m.lookup segment with
  | some (.map fields) => fields
  | _ => []

/-- The map at a path, or an empty one if there is none. -/
def mapAt : FieldPath → MapValue δ → MapValue δ
  | [], m => m
  | segment :: path, m => mapAt path (inner m segment)

theorem ordered_inner (hm : OrderedEntries m) {segment : String} : OrderedEntries (inner m segment) := by
  rw [inner]
  split
  · next fields h => exact ordered_map.1 (hm.of_lookup h)
  · trivial

theorem ordered_mapAt {path : FieldPath} (hm : OrderedEntries m) : OrderedEntries (mapAt path m) := by
  induction path generalizing m with
  | nil => exact hm
  | cons segment path ih => exact ih (ordered_inner hm)

theorem map_fst_setEntry {segment : String} {v : Value δ} :
    (setEntry segment v m).map Prod.fst = m.map Prod.fst := by
  rw [setEntry, List.map_map]
  refine List.map_congr_left fun e _ => ?_
  simp only [Function.comp_apply]
  split_ifs with h
  · exact h.symm
  · rfl

theorem sorted_setEntry {segment : String} {v : Value δ} (hm : Sorted m) : Sorted (setEntry segment v m) := by
  have hkeys : (m.map Prod.fst).Pairwise (· < ·) := List.pairwise_map.2 hm
  have hsame : (setEntry segment v m).map Prod.fst = m.map Prod.fst := map_fst_setEntry
  rw [← hsame] at hkeys
  exact List.pairwise_map.1 hkeys

theorem lookup_setEntry {segment : String} {v : Value δ} :
    (setEntry segment v m).lookup k = if k = segment then (m.lookup k).map fun _ => v else m.lookup k := by
  induction m with
  | nil => simp [setEntry]
  | cons e m ih =>
    change ((if e.1 = segment then (segment, v) else e) :: setEntry segment v m).lookup k = _
    rw [SortedMap.lookup_cons, SortedMap.lookup_cons, ih]
    by_cases he : e.1 = segment <;> by_cases hk : k = segment <;> by_cases hke : k = e.1 <;> simp_all

theorem ordered_setEntry {segment : String} {v : Value δ} (hm : OrderedEntries m) (hv : v.Ordered) :
    OrderedEntries (setEntry segment v m) := by
  refine orderedEntries_iff.2 ⟨sorted_setEntry hm.sorted, fun e he => ?_⟩
  obtain ⟨c, hc, rfl⟩ := List.mem_map.1 he
  split_ifs
  · exact hv
  · exact (orderedEntries_iff.1 hm).2 c hc

/-- `ParentMap` goes on in the map of the first segment, and leaves the other fields alone. -/
theorem lookup_parentMap (hm : Sorted m) {segment : String} {path : FieldPath} :
    (parentMap change (segment :: path) m).lookup k =
      if k = segment then some (.map (parentMap change path (inner m segment))) else m.lookup k := by
  have hsingle : Sorted [(segment, (Value.map [] : Value δ))] := List.pairwise_singleton _ _
  rw [parentMap, inner]
  split
  · next fields h =>
    rw [lookup_setEntry]
    split_ifs with hk
    · rw [hk, h]
      rfl
    · rfl
  · next v hne h =>
    rw [lookup_setEntry]
    split_ifs with hk
    · rw [hk, h]
      cases v <;> first | rfl | exact absurd rfl (hne _)
    · rfl
  · next h =>
    rw [lookup_setEntry, lookup_upserts hm hsingle, SortedMap.lookup_cons, h]
    split_ifs with hk <;> rfl

theorem sorted_parentMap (hm : Sorted m) {segment : String} {path : FieldPath} :
    Sorted (parentMap change (segment :: path) m) := by
  rw [parentMap]
  split
  · exact sorted_setEntry hm
  · exact sorted_setEntry hm
  · exact sorted_setEntry (sorted_mergeLoop hm (List.pairwise_singleton _ _))

theorem ordered_parentMap (hchange : ∀ i, OrderedEntries i → OrderedEntries (change i)) {path : FieldPath}
    (hm : OrderedEntries m) : OrderedEntries (parentMap change path m) := by
  induction path generalizing m with
  | nil => exact hchange m hm
  | cons segment path ih =>
    have hsorted : Sorted (parentMap change (segment :: path) m) := sorted_parentMap hm.sorted
    refine orderedEntries_iff.2 ⟨hsorted, fun e he => ?_⟩
    have hlookup := hsorted.lookup_of_mem he
    rw [lookup_parentMap hm.sorted] at hlookup
    split_ifs at hlookup
    · rw [← Option.some.inj hlookup]
      exact ordered_map.2 (ih (ordered_inner hm))
    · exact hm.of_lookup hlookup

/-- Two changes to the map at a path are one change. -/
theorem parentMap_comp {change' : MapValue δ → MapValue δ} {path : FieldPath} (hm : OrderedEntries m) :
    parentMap change' path (parentMap change path m) = parentMap (fun i => change' (change i)) path m := by
  induction path generalizing m with
  | nil => rfl
  | cons segment path ih =>
    have hsorted : Sorted (parentMap change (segment :: path) m) := sorted_parentMap hm.sorted
    refine Sorted.ext (sorted_parentMap hsorted) (sorted_parentMap hm.sorted) fun k => ?_
    have hinner : inner (parentMap change (segment :: path) m) segment =
        parentMap change path (inner m segment) := by
      rw [inner, lookup_parentMap hm.sorted, if_pos rfl]
    rw [lookup_parentMap hsorted, lookup_parentMap hm.sorted, lookup_parentMap hm.sorted, hinner,
      ih (ordered_inner hm)]
    split_ifs <;> rfl

theorem parentMap_congr {change' : MapValue δ → MapValue δ} {path : FieldPath}
    (h : change (mapAt path m) = change' (mapAt path m)) : parentMap change path m = parentMap change' path m := by
  induction path generalizing m with
  | nil => exact h
  | cons segment path ih =>
    have hinner := ih (m := inner m segment) h
    rw [parentMap, parentMap]
    cases hk : m.lookup segment with
    | none =>
      rw [inner, hk] at hinner
      simp only [hinner]
    | some v =>
      rw [inner, hk] at hinner
      cases v <;> simp_all

/-- What there is below a field that is not a map, or that does not exist. -/
theorem look_inner {segment l : String} {path : FieldPath} :
    (Value.map (inner m segment)).look (l :: path) = (Value.map m).look (segment :: l :: path) := by
  rw [look_cons, look_cons, inner]
  cases m.lookup segment with
  | none => rfl
  | some v =>
    cases v with
    | map fields => exact look_cons.symm
    | _ => rfl

theorem look_mapAt {path rest : FieldPath} {l : String} :
    (Value.map (mapAt path m)).look (l :: rest) = (Value.map m).look (path ++ l :: rest) := by
  induction path generalizing m with
  | nil => rfl
  | cons segment path ih =>
    rw [mapAt, ih]
    cases path with
    | nil => exact look_inner
    | cons segment' path => exact look_inner

/-- What there is at a path after a change to the map at `q`. -/
theorem look_parentMap {q p : FieldPath} (hm : OrderedEntries m) :
    (Value.map (parentMap change q m)).look p =
      if q <+: p then (Value.map (change (mapAt q m))).look (p.drop q.length)
      else if p <+: q then some (.map [])
      else (Value.map m).look p := by
  induction q generalizing m p with
  | nil => simp [parentMap, mapAt]
  | cons segment q ih =>
    cases p with
    | nil => simp [shape]
    | cons l p =>
      rw [look_cons, lookup_parentMap hm.sorted]
      by_cases hl : l = segment
      · subst hl
        rw [if_pos rfl, Option.bind_some, ih (ordered_inner hm)]
        simp only [List.cons_prefix_cons, true_and, List.length_cons, List.drop_succ_cons, mapAt]
        split_ifs with hqp hpq
        · rfl
        · rfl
        · cases p with
          | nil => exact absurd List.nil_prefix hpq
          | cons l' p => exact look_inner
      · rw [if_neg hl, ← look_cons]
        simp [hl, Ne.symm hl]

/-! ## One path at a time -/

/-- Set or delete one field of a map. -/
def putField (k : String) (value : Option (Value δ)) (m : MapValue δ) : MapValue δ :=
  match value with
  | some value => applyChanges m [(k, value)] []
  | none => applyChanges m [] [k]

/-- Set or delete the field at one path. -/
def put (path : FieldPath) (value : Option (Value δ)) (m : MapValue δ) : MapValue δ :=
  parentMap (putField (path.getLastD "") value) path.dropLast m

theorem set_eq_put {path : FieldPath} {value : Value δ} : set path value m = put path (some value) m := rfl

theorem lookup_putField (hm : Sorted m) {l : String} {value : Option (Value δ)} :
    (putField l value m).lookup k = if k = l then value.map sortFields else m.lookup k := by
  cases value with
  | none =>
    rw [putField, lookup_delete hm]
    rfl
  | some value =>
    rw [putField, lookup_upserts hm (List.pairwise_singleton _ _), SortedMap.lookup_cons]
    split_ifs <;> rfl

theorem sorted_putField (hm : Sorted m) {l : String} {value : Option (Value δ)} : Sorted (putField l value m) := by
  cases value with
  | none => exact sorted_mergeLoop hm List.Pairwise.nil
  | some value => exact sorted_mergeLoop hm (List.pairwise_singleton _ _)

theorem ordered_putField {l : String} {value : Option (Value δ)} (hvalue : ∀ v ∈ value, v.sortFields.Ordered)
    (hm : OrderedEntries m) : OrderedEntries (putField l value m) := by
  cases value with
  | none => exact ordered_applyChanges hm List.Pairwise.nil (by simp)
  | some value =>
    refine ordered_applyChanges hm (List.pairwise_singleton _ _) ?_
    simpa using hvalue

theorem ordered_put {path : FieldPath} {value : Option (Value δ)} (hvalue : ∀ v ∈ value, v.sortFields.Ordered)
    (hm : OrderedEntries m) : OrderedEntries (put path value m) :=
  ordered_parentMap (fun _ => ordered_putField hvalue) hm

/-- What there is at a path after one field was set or deleted: at the path and below what was set, on the
way to it maps, and elsewhere what was there before. -/
theorem look_put {path p : FieldPath} {value : Option (Value δ)} (hpath : path ≠ []) (hm : OrderedEntries m) :
    (Value.map (put path value m)).look p =
      if path <+: p then value.bind fun v => v.sortFields.look (p.drop path.length)
      else if p <+: path then some (.map [])
      else (Value.map m).look p := by
  obtain ⟨q, l, rfl⟩ : ∃ q l, path = q ++ [l] := ⟨_, _, (List.dropLast_concat_getLast hpath).symm⟩
  rw [put, List.dropLast_concat, List.getLastD_concat, look_parentMap hm]
  by_cases hq : q <+: p
  · obtain ⟨r, rfl⟩ := hq
    rw [if_pos (List.prefix_append q r), List.drop_left]
    cases r with
    | nil =>
      have hlen : ¬ q ++ [l] <+: q ++ [] := by
        intro h
        simpa using h.length_le
      rw [if_neg hlen, if_pos (by simp)]
      rfl
    | cons l' r =>
      rw [look_cons, lookup_putField (ordered_mapAt hm).sorted]
      simp only [List.prefix_append_right_inj, List.cons_prefix_cons, List.nil_prefix, and_true,
        List.prefix_nil, List.length_append, List.length_singleton]
      by_cases hl : l' = l
      · subst hl
        have hdrop : (q ++ l' :: r).drop (q.length + 1) = r := by simp [List.drop_append]
        rw [if_pos rfl, if_pos rfl, hdrop]
        cases value <;> rfl
      · rw [if_neg hl, if_neg (Ne.symm hl), if_neg (fun h => hl h.1), ← look_cons, look_mapAt]
  · have hpath' : ¬ q ++ [l] <+: p := fun h => hq ((List.prefix_append q [l]).trans h)
    rw [if_neg hq, if_neg hpath']
    by_cases hp : p <+: q ++ [l]
    · have hpq : p <+: q := by
        rcases List.prefix_concat_iff.1 hp with rfl | h
        · exact absurd (List.prefix_append q [l]) hq
        · exact h
      rw [if_pos hp, if_pos hpq]
    · rw [if_neg hp, if_neg fun h => hp (h.trans (List.prefix_append q [l]))]

theorem ordered_delete {path : FieldPath} (hm : OrderedEntries m) : OrderedEntries (delete path m) := by
  fun_induction delete path m with
  | case1 => exact hm
  | case2 fields segment => exact ordered_applyChanges hm List.Pairwise.nil (by simp)
  | case3 segment path fields hne i hi ih =>
    have hinner : OrderedEntries i := ordered_map.1 (hm.of_lookup hi)
    exact ordered_setEntry hm (ordered_map.2 (ih hinner))
  | case4 => exact hm

/-- What there is at a path after a field was deleted. -/
theorem look_delete {path p : FieldPath} (hpath : path ≠ []) (hm : OrderedEntries m) :
    (Value.map (delete path m)).look p = if path <+: p then none else (Value.map m).look p := by
  induction path generalizing m p with
  | nil => exact absurd rfl hpath
  | cons segment path ih =>
    cases p with
    | nil => simp [shape]
    | cons l p =>
      cases path with
      | nil =>
        rw [delete, look_cons, lookup_delete hm.sorted]
        by_cases hl : l = segment
        · simp [hl]
        · rw [if_neg hl, ← look_cons]
          simp [Ne.symm hl]
      | cons segment' path =>
        rw [delete.eq_3 _ _ _ (by simp)]
        split
        · next fields hfields =>
          have hordered : OrderedEntries fields := ordered_map.1 (hm.of_lookup hfields)
          rw [look_cons, lookup_setEntry]
          by_cases hl : l = segment
          · subst hl
            rw [if_pos rfl, hfields, Option.map_some, Option.bind_some, ih (by simp) hordered]
            simp [look_cons, hfields]
          · rw [if_neg hl, ← look_cons]
            simp [Ne.symm hl]
        · next hfields =>
          -- where the path leads to no map, there is nothing below it
          split_ifs with hprefix
          · obtain ⟨r, hr⟩ := hprefix
            obtain ⟨rfl, rfl⟩ := List.cons.inj hr
            rw [look_cons]
            cases hv : m.lookup segment with
            | none => rfl
            | some v =>
              cases v with
              | map fields => exact absurd hv (hfields fields)
              | _ => rfl
          · rfl

/-! ## All paths together -/

/-- Whatever is deleted is not there when it is. -/
def DeletesAbsent : TransformMap δ → MapValue δ → Prop
  | [], _ => True
  | (path, value) :: data, m =>
    (value = none → (Value.map m).get path = none) ∧ DeletesAbsent data (put path value m)

/-- The changes that `SetAll` has collected for one map: nothing is set and deleted, and what is deleted is
not there. -/
structure Collected (m upserts : MapValue δ) (deletes : List String) : Prop where
  sorted : Sorted upserts
  sortedKeys : SortedKeys deletes
  disjoint : ∀ d ∈ deletes, upserts.lookup d = none
  absent : ∀ d ∈ deletes, m.lookup d = none

theorem Collected.lookup (hm : Sorted m) (h : Collected m upserts deletes) :
    (applyChanges m upserts deletes).lookup k = ((upserts.lookup k).map sortFields).or (m.lookup k) := by
  have hdisj : ∀ d ∈ deletes, ∀ e ∈ upserts, e.1 ≠ d := fun d hd => lookup_eq_none.1 (h.disjoint d hd)
  have hun : Unobstructed m upserts deletes := by
    intro _ _ _ d hd hpresent
    obtain ⟨e, he, rfl⟩ := List.mem_map.1 hpresent
    exact absurd rfl (lookup_eq_none.1 (h.absent _ hd) e he)
  rw [lookup_applyChanges hm h.sorted h.sortedKeys hdisj hun]
  split_ifs with hk
  · simp [h.disjoint k hk, h.absent k hk]
  · rfl

/-- One more change is made together with the others as it would be made after them. -/
theorem Collected.applyChanges_insert (hm : Sorted m) (h : Collected m upserts deletes) {l : String}
    {value : Value δ} (hl : l ∉ deletes) :
    Collected m (insert l value upserts) deletes ∧
      applyChanges m (insert l value upserts) deletes =
        putField l (some value) (applyChanges m upserts deletes) := by
  have h' : Collected m (insert l value upserts) deletes := by
    refine ⟨h.sorted.insert, h.sortedKeys, fun d hd => ?_, h.absent⟩
    have hne : d ≠ l := fun heq => hl (heq ▸ hd)
    rw [lookup_insert, if_neg hne]
    exact h.disjoint d hd
  have hsorted : Sorted (applyChanges m upserts deletes) := sorted_mergeLoop hm h.sorted
  refine ⟨h', Sorted.ext (sorted_mergeLoop hm h'.sorted) (sorted_putField hsorted) fun k => ?_⟩
  rw [h'.lookup hm, lookup_putField hsorted, h.lookup hm, lookup_insert]
  split_ifs <;> rfl

theorem Collected.applyChanges_insertKey (hm : Sorted m) (h : Collected m upserts deletes) {l : String}
    (hl : (applyChanges m upserts deletes).lookup l = none) :
    Collected m upserts (insertKey l deletes) ∧
      applyChanges m upserts (insertKey l deletes) = putField l none (applyChanges m upserts deletes) := by
  rw [h.lookup hm, Option.or_eq_none_iff, Option.map_eq_none_iff] at hl
  have h' : Collected m upserts (insertKey l deletes) := by
    refine ⟨h.sorted, sortedKeys_insertKey h.sortedKeys, fun d hd => ?_, fun d hd => ?_⟩
    · rcases mem_insertKey.1 hd with rfl | hd
      · exact hl.1
      · exact h.disjoint d hd
    · rcases mem_insertKey.1 hd with rfl | hd
      · exact hl.2
      · exact h.absent d hd
  have hsorted : Sorted (applyChanges m upserts deletes) := sorted_mergeLoop hm h.sorted
  refine ⟨h', Sorted.ext (sorted_mergeLoop hm h'.sorted) (sorted_putField hsorted) fun k => ?_⟩
  rw [h'.lookup hm, lookup_putField hsorted, h.lookup hm]
  split_ifs with hk
  · simp [hk, hl.1, hl.2]
  · rfl

theorem isImmediateParentOf_iff {parent path : FieldPath} :
    parent.isImmediateParentOf path = true ↔ ∃ l, path = parent ++ [l] := by
  rw [FieldPath.isImmediateParentOf, Bool.and_eq_true, List.isPrefixOf_iff_prefix]
  constructor
  · rintro ⟨hlen, r, rfl⟩
    rw [beq_iff_eq, List.length_append] at hlen
    obtain ⟨l, rfl⟩ : ∃ l, r = [l] := List.length_eq_one_iff.1 (by omega)
    exact ⟨l, rfl⟩
  · rintro ⟨l, rfl⟩
    simp

theorem lookup_eq_none_of_look (h : (Value.map m).look [k] = none) : m.lookup k = none := by
  rw [look_cons] at h
  cases hk : m.lookup k with
  | none => rfl
  | some v => simp [hk] at h

/-- `SetAll` sets and deletes one path after the other, as long as what it deletes is not there. -/
theorem setAllLoop_eq {parent : FieldPath} {data : TransformMap δ} (hm : OrderedEntries m)
    (hpaths : ∀ e ∈ data, e.1 ≠ []) (hnodup : (data.map Prod.fst).Nodup)
    (hc : Collected (mapAt parent m) upserts deletes)
    (hvalues : ∀ e ∈ upserts, e.2.sortFields.Ordered) (hdata : ∀ e ∈ data, ∀ v ∈ e.2, v.sortFields.Ordered)
    (hfresh : ∀ d ∈ deletes, parent ++ [d] ∉ data.map Prod.fst)
    (habsent : DeletesAbsent data (parentMap (fun i => applyChanges i upserts deletes) parent m)) :
    setAllLoop parent upserts deletes data m =
      data.foldl (fun m e => put e.1 e.2 m)
        (parentMap (fun i => applyChanges i upserts deletes) parent m) := by
  induction data generalizing parent upserts deletes m with
  | nil => rfl
  | cons e data ih =>
    obtain ⟨path, value⟩ := e
    obtain ⟨q, l, rfl⟩ : ∃ q l, path = q ++ [l] :=
      ⟨_, _, (List.dropLast_concat_getLast (hpaths _ List.mem_cons_self)).symm⟩
    obtain ⟨habsent, hrest⟩ := habsent
    obtain ⟨hfirst, hnodup'⟩ := List.nodup_cons.1 hnodup
    have hpaths' : ∀ e ∈ data, e.1 ≠ [] := fun e he => hpaths e (List.mem_cons_of_mem _ he)
    have hdata' : ∀ e ∈ data, ∀ v ∈ e.2, v.sortFields.Ordered :=
      fun e he => hdata e (List.mem_cons_of_mem _ he)
    have hfresh' : ∀ d ∈ deletes, parent ++ [d] ∉ data.map Prod.fst :=
      fun d hd hmem => hfresh d hd (List.mem_cons_of_mem _ hmem)
    have hflush : OrderedEntries (parentMap (fun i => applyChanges i upserts deletes) parent m) :=
      ordered_parentMap (fun i hi => ordered_applyChanges hi hc.sorted hvalues) hm
    have hsorted : Sorted (mapAt parent m) := (ordered_mapAt hm).sorted
    rw [List.foldl_cons]
    by_cases hparent : parent.isImmediateParentOf (q ++ [l]) = true
    · obtain ⟨l', hl'⟩ := isImmediateParentOf_iff.1 hparent
      obtain ⟨rfl, hl⟩ := List.append_inj' hl' rfl
      obtain rfl : l = l' := by simpa using hl
      have hl : l ∉ deletes := fun hd => hfresh l hd List.mem_cons_self
      have hput : put (q ++ [l]) value (parentMap (fun i => applyChanges i upserts deletes) q m) =
          parentMap (fun i => putField l value (applyChanges i upserts deletes)) q m := by
        rw [put, List.dropLast_concat, List.getLastD_concat, parentMap_comp hm]
      simp only [hput] at hrest ⊢
      cases value with
      | some v =>
        rw [setAllLoop, if_pos hparent, List.getLastD_concat]
        obtain ⟨hc', heq⟩ : Collected _ (insert l v upserts) deletes ∧ _ := hc.applyChanges_insert hsorted hl
        have hcongr : parentMap (fun i => applyChanges i (insert l v upserts) deletes) q m =
            parentMap (fun i => putField l (some v) (applyChanges i upserts deletes)) q m := parentMap_congr heq
        rw [← hcongr] at hrest ⊢
        refine ih hm hpaths' hnodup' hc' (fun e he => ?_) hdata' hfresh' hrest
        rcases mem_insert he with rfl | he
        · exact hdata _ List.mem_cons_self v rfl
        · exact hvalues e he
      | none =>
        rw [setAllLoop, if_pos hparent, List.getLastD_concat]
        have hnone : (applyChanges (mapAt q m) upserts deletes).lookup l = none := by
          have hlook := look_eq_none.2 (habsent rfl)
          rw [look_parentMap hm, if_pos (List.prefix_append q [l]), List.drop_left] at hlook
          exact lookup_eq_none_of_look hlook
        obtain ⟨hc', heq⟩ := hc.applyChanges_insertKey hsorted hnone
        have hcongr : parentMap (fun i => applyChanges i upserts (insertKey l deletes)) q m =
            parentMap (fun i => putField l none (applyChanges i upserts deletes)) q m := parentMap_congr heq
        rw [← hcongr] at hrest ⊢
        refine ih hm hpaths' hnodup' hc' hvalues hdata' (fun d hd => ?_) hrest
        rcases mem_insertKey.1 hd with rfl | hd
        · exact hfirst
        · exact hfresh' d hd
    · rw [put, List.dropLast_concat, List.getLastD_concat] at hrest ⊢
      cases value with
      | some v =>
        rw [setAllLoop, if_neg hparent, List.getLastD_concat, List.dropLast_concat]
        refine ih hflush hpaths' hnodup' ⟨List.pairwise_singleton _ _, List.Pairwise.nil, by simp, by simp⟩ ?_
          hdata' (by simp) hrest
        simpa using hdata _ List.mem_cons_self v rfl
      | none =>
        rw [setAllLoop, if_neg hparent, List.getLastD_concat, List.dropLast_concat]
        refine ih hflush hpaths' hnodup'
          ⟨List.Pairwise.nil, List.pairwise_singleton _ _, by simp, ?_⟩ (by simp) hdata' ?_ hrest
        · have hlook := look_eq_none.2 (habsent rfl)
          rw [← look_mapAt] at hlook
          intro d hd
          rw [List.mem_singleton.1 hd]
          exact lookup_eq_none_of_look hlook
        · simpa using hfirst

theorem applyChanges_nil (hm : Sorted m) : applyChanges m [] [] = m := by
  refine Sorted.ext (sorted_mergeLoop hm List.Pairwise.nil) hm fun k => ?_
  rw [lookup_upserts hm List.Pairwise.nil]
  rfl

theorem setAll_eq {data : TransformMap δ} (hm : OrderedEntries m) (hpaths : ∀ e ∈ data, e.1 ≠ [])
    (hnodup : (data.map Prod.fst).Nodup) (hdata : ∀ e ∈ data, ∀ v ∈ e.2, v.sortFields.Ordered)
    (habsent : DeletesAbsent data m) : setAll data m = data.foldl (fun m e => put e.1 e.2 m) m := by
  have hstart : parentMap (fun i => applyChanges i [] []) [] m = m := applyChanges_nil hm.sorted
  rw [setAll, setAllLoop_eq hm hpaths hnodup ⟨List.Pairwise.nil, List.Pairwise.nil, by simp, by simp⟩
    (by simp) hdata (by simp) (by rwa [hstart]), hstart]

end MapValue

end Firestore

end Datability
