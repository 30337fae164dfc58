import Datability.Mutation
import Datability.Proofs.FieldPathProofs

/-!
# Proofs: overlays

An overlay has the effect of the mutations that it stands for if every map in which a path of its mask
lies still exists. The proof compares the two documents path by path: what the mutations leave alone is
described by `Touched`, and what a patch does by `Patched`.
-/

namespace Datability

namespace Firestore

open SortedMap MapValue

variable {δ : Type*} {s : Set FieldPath} {v d r : MapValue δ} {p q : FieldPath}

/-- A path of the set is above the path, or is the path. -/
def Covered (s : Set FieldPath) (p : FieldPath) : Prop := ∃ q ∈ s, q <+: p

/-- A path of the set is below the path. -/
def Extended (s : Set FieldPath) (p : FieldPath) : Prop := ∃ q ∈ s, p <+: q ∧ p ≠ q

/-- How a document `d` can differ from `v` if all that was done is to set fields at the paths of the set.
A field that was set and is gone has been replaced by one above it. -/
structure Touched (s : Set FieldPath) (v d : MapValue δ) : Prop where
  extended : ∀ p, ¬ Covered s p → Extended s p → (Value.map d).look p = some (.map [])
  same : ∀ p, ¬ Covered s p → ¬ Extended s p → (Value.map d).look p = (Value.map v).look p
  present : ∀ q ∈ s, (Value.map d).look q = none → ∃ c ∈ s, c <+: q ∧ c ≠ q

/-- The document `r` is `v` with the fields of `d` at the paths of the set. -/
structure Patched (s : Set FieldPath) (d v r : MapValue δ) : Prop where
  extended : ∀ p, Extended s p → (Value.map r).look p = some (.map [])
  covered : ∀ p, ¬ Extended s p → Covered s p → (Value.map r).look p = (Value.map d).look p
  same : ∀ p, ¬ Extended s p → ¬ Covered s p → (Value.map r).look p = (Value.map v).look p

/-! ## Setting fields -/

theorem touched_empty : Touched ∅ v v :=
  ⟨fun _ _ h => by simp [Extended] at h, fun _ _ _ => rfl, fun q h => by simp at h⟩

theorem not_covered_insert (hp : ¬ Covered (Insert.insert q s) p) : ¬ Covered s p ∧ ¬ q <+: p :=
  ⟨fun ⟨c, hc, hcp⟩ => hp ⟨c, .inr hc, hcp⟩, fun hqp => hp ⟨q, .inl rfl, hqp⟩⟩

theorem Touched.put {x : Value δ} (h : Touched s v d) (hd : Value.OrderedEntries d) (hq : q ≠ []) :
    Touched (Insert.insert q s) v (MapValue.put q (some x) d) := by
  refine ⟨fun p hp hext => ?_, fun p hp hext => ?_, fun c hc hnone => ?_⟩
  · obtain ⟨hp', hqp⟩ := not_covered_insert hp
    rw [look_put hq hd, if_neg hqp]
    split_ifs with hpq
    · rfl
    · obtain ⟨c, rfl | hc, hpc, hne⟩ := hext
      · exact absurd hpc hpq
      · exact h.extended p hp' ⟨c, hc, hpc, hne⟩
  · obtain ⟨hp', hqp⟩ := not_covered_insert hp
    have hpq : ¬ p <+: q := by
      intro hpq
      refine hext ⟨q, .inl rfl, hpq, ?_⟩
      rintro rfl
      exact hqp List.prefix_rfl
    rw [look_put hq hd, if_neg hqp, if_neg hpq]
    exact h.same p hp' fun ⟨c, hc, hpc⟩ => hext ⟨c, .inr hc, hpc⟩
  · rw [look_put hq hd] at hnone
    split_ifs at hnone with hqc hcq
    · obtain ⟨s, rfl⟩ := hqc
      cases s with
      | nil => simp at hnone
      | cons l s => exact ⟨q, .inl rfl, List.prefix_append q _, by simp⟩
    · rcases hc with rfl | hc
      · exact absurd List.prefix_rfl hqc
      · obtain ⟨b, hb, hbc⟩ := h.present c hc hnone
        exact ⟨b, .inr hb, hbc⟩

/-- All the fields of `data` are set, none is deleted, and the values can be sorted. -/
structure Sets (data : TransformMap δ) : Prop where
  sorted : Sorted data
  paths : ∀ e ∈ data, e.1 ≠ []
  values : ∀ e ∈ data, ∃ x : Value δ, e.2 = some x ∧ x.sortFields.Ordered

theorem Sets.tail {e : FieldPath × Option (Value δ)} {data : TransformMap δ} (h : Sets (e :: data)) :
    Sets data :=
  ⟨h.sorted.tail, fun a ha => h.paths a (List.mem_cons_of_mem _ ha),
    fun a ha => h.values a (List.mem_cons_of_mem _ ha)⟩

theorem Sets.deletesAbsent {data : TransformMap δ} (h : Sets data) (m : MapValue δ) : DeletesAbsent data m := by
  induction data generalizing m with
  | nil => trivial
  | cons e data ih =>
    obtain ⟨x, hx, -⟩ := h.values e List.mem_cons_self
    refine ⟨fun hnone => ?_, ih h.tail _⟩
    rw [hx] at hnone
    simp at hnone

theorem Sets.ordered {data : TransformMap δ} (h : Sets data) : ∀ e ∈ data, ∀ x ∈ e.2, x.sortFields.Ordered := by
  intro e he x hx
  obtain ⟨y, hy, hordered⟩ := h.values e he
  rw [hy] at hx
  obtain rfl := Option.some.inj hx
  exact hordered

theorem Sets.setAll_eq {data : TransformMap δ} (h : Sets data) (hv : Value.OrderedEntries v) :
    setAll data v = data.foldl (fun m e => MapValue.put e.1 e.2 m) v := by
  refine MapValue.setAll_eq hv h.paths ?_ h.ordered (h.deletesAbsent v)
  exact (List.pairwise_map.2 h.sorted).imp fun hab => hab.ne

theorem ordered_foldl_put {data : TransformMap δ} (hdata : ∀ e ∈ data, ∀ x ∈ e.2, x.sortFields.Ordered)
    (hv : Value.OrderedEntries v) :
    Value.OrderedEntries (data.foldl (fun m e => MapValue.put e.1 e.2 m) v) := by
  induction data generalizing v with
  | nil => exact hv
  | cons e data ih =>
    rw [List.foldl_cons]
    exact ih (fun a ha => hdata a (List.mem_cons_of_mem _ ha)) (ordered_put (hdata e List.mem_cons_self) hv)

/-- Setting fields touches the document at their paths. -/
theorem Touched.setAll {data : TransformMap δ} (h : Touched s v d) (hd : Value.OrderedEntries d)
    (hdata : Sets data) :
    Touched (s ∪ {p | p ∈ data.map Prod.fst}) v (MapValue.setAll data d) ∧
      Value.OrderedEntries (MapValue.setAll data d) := by
  rw [hdata.setAll_eq hd]
  refine ⟨?_, ordered_foldl_put hdata.ordered hd⟩
  induction data generalizing s d with
  | nil => simpa using h
  | cons e data ih =>
    obtain ⟨path, value⟩ := e
    obtain ⟨x, hx, hordered⟩ := hdata.values _ List.mem_cons_self
    obtain rfl : value = some x := hx
    have hput : Touched (Insert.insert path s) v (MapValue.put path (some x) d) :=
      h.put hd (hdata.paths _ List.mem_cons_self)
    have hset : s ∪ {p | p ∈ ((path, some x) :: data).map Prod.fst} =
        Insert.insert path s ∪ {p | p ∈ data.map Prod.fst} := by
      ext p
      simp only [List.map_cons, List.mem_cons, Set.mem_union, Set.mem_ofPred_eq, Set.mem_insert_iff]
      tauto
    rw [List.foldl_cons, hset]
    exact ih hput (ordered_put (by simpa using hordered) hd) hdata.tail

/-! ## Patching -/

theorem patched_empty : Patched ∅ d v v :=
  ⟨fun _ h => by simp [Extended] at h, fun _ _ h => by simp [Covered] at h, fun _ _ _ => rfl⟩

/-- A path that is not above those of the set takes its field from `d`. -/
theorem Patched.put (h : Patched s d v r) (hr : Value.OrderedEntries r) (hd : Value.OrderedEntries d)
    (hq : q ≠ []) (hlast : ∀ c ∈ s, ¬ q <+: c) :
    Patched (Insert.insert q s) d v (MapValue.put q ((Value.map d).get q) r) := by
  have hlook : ∀ p, q <+: p →
      (Value.map (MapValue.put q ((Value.map d).get q) r)).look p = (Value.map d).look p := by
    rintro p ⟨rest, rfl⟩
    rw [look_put hq hr, if_pos (List.prefix_append q rest), List.drop_left, Value.look_append]
    cases hx : (Value.map d).get q with
    | none => rfl
    | some x =>
      rw [Option.bind_some, Option.bind_some,
        Value.sortFields_of_ordered ((Value.ordered_map.2 hd).get hx)]
  refine ⟨fun p hext => ?_, fun p hext hcov => ?_, fun p hext hcov => ?_⟩
  · obtain ⟨c, hc, hpc, hne⟩ := hext
    have hqp : ¬ q <+: p := by
      intro hqp
      rcases hc with rfl | hc
      · exact hne (hpc.eq_of_length_le hqp.length_le)
      · exact hlast c hc (hqp.trans hpc)
    rw [look_put hq hr, if_neg hqp]
    split_ifs with hpq
    · rfl
    · rcases hc with rfl | hc
      · exact absurd hpc hpq
      · exact h.extended p ⟨c, hc, hpc, hne⟩
  · by_cases hqp : q <+: p
    · exact hlook p hqp
    · have hpq : ¬ p <+: q := by
        intro hpq
        refine hext ⟨q, .inl rfl, hpq, ?_⟩
        rintro rfl
        exact hqp List.prefix_rfl
      rw [look_put hq hr, if_neg hqp, if_neg hpq]
      obtain ⟨c, rfl | hc, hcp⟩ := hcov
      · exact absurd hcp hqp
      · exact h.covered p (fun ⟨b, hb, hpb⟩ => hext ⟨b, .inr hb, hpb⟩) ⟨c, hc, hcp⟩
  · obtain ⟨hcov', hqp⟩ := not_covered_insert hcov
    have hpq : ¬ p <+: q := by
      intro hpq
      refine hext ⟨q, .inl rfl, hpq, ?_⟩
      rintro rfl
      exact hqp List.prefix_rfl
    rw [look_put hq hr, if_neg hqp, if_neg hpq]
    exact h.same p (fun ⟨b, hb, hpb⟩ => hext ⟨b, .inr hb, hpb⟩) hcov'

/-! ## The mask and the value of an overlay -/

/-- The path that stands for a path of the mask in the overlay. -/
def target (d : MapValue δ) (path : FieldPath) : FieldPath :=
  if ((Value.map d).get path).isNone && path.length > 1 then path.dropLast else path

theorem target_ne_nil (hp : p ≠ []) : target d p ≠ [] := by
  rw [target]
  split_ifs with h
  · rw [Bool.and_eq_true, decide_eq_true_iff] at h
    intro hnil
    have hlen := congrArg List.length hnil
    rw [List.length_dropLast, List.length_nil] at hlen
    omega
  · exact hp

theorem target_isPrefixOf : target d p <+: p := by
  rw [target]
  split_ifs
  · exact List.dropLast_prefix p
  · exact List.prefix_rfl

/-- What the loop of `CalculateOverlayMutation` has found: a value that agrees with the document at the
paths of the new mask. -/
structure OverlayOf (d patchValue : MapValue δ) (maskSet : FieldMask) : Prop where
  ordered : Value.OrderedEntries patchValue
  sorted : SortedKeys maskSet
  paths : ∀ q ∈ maskSet, q ≠ []
  agrees : ∀ p, Covered {q | q ∈ maskSet} p → (Value.map patchValue).look p = (Value.map d).look p

variable {patchValue : MapValue δ} {maskSet : FieldMask}

theorem OverlayOf.set (h : OverlayOf d patchValue maskSet) (hd : Value.OrderedEntries d) (hq : q ≠ [])
    {x : Value δ} (hx : (Value.map d).get q = some x) :
    OverlayOf d (MapValue.set q x patchValue) (insertKey q maskSet) := by
  have hordered : x.sortFields = x := Value.sortFields_of_ordered ((Value.ordered_map.2 hd).get hx)
  refine ⟨?_, sortedKeys_insertKey h.sorted, fun c hc => ?_, fun p hp => ?_⟩
  · rw [set_eq_put]
    refine ordered_put ?_ h.ordered
    rintro y hy
    obtain rfl := Option.some.inj hy
    rw [hordered]
    exact (Value.ordered_map.2 hd).get hx
  · rcases mem_insertKey.1 hc with rfl | hc
    · exact hq
    · exact h.paths c hc
  · rw [set_eq_put, look_put hq h.ordered]
    split_ifs with hqp hpq
    · obtain ⟨rest, rfl⟩ := hqp
      rw [Option.bind_some, hordered, List.drop_left, Value.look_append, hx, Option.bind_some]
    · refine (Value.look_of_get hx hpq ?_).symm
      rintro rfl
      exact hqp List.prefix_rfl
    · obtain ⟨c, hc, hcp⟩ := hp
      rcases mem_insertKey.1 hc with rfl | hc
      · exact absurd hcp hqp
      · exact h.agrees p ⟨c, hc, hcp⟩

theorem OverlayOf.delete (h : OverlayOf d patchValue maskSet) (hq : q ≠ [])
    (hx : (Value.map d).get q = none) :
    OverlayOf d (MapValue.delete q patchValue) (insertKey q maskSet) := by
  refine ⟨ordered_delete h.ordered, sortedKeys_insertKey h.sorted, fun c hc => ?_, fun p hp => ?_⟩
  · rcases mem_insertKey.1 hc with rfl | hc
    · exact hq
    · exact h.paths c hc
  · rw [look_delete hq h.ordered]
    split_ifs with hqp
    · obtain ⟨rest, rfl⟩ := hqp
      rw [Value.look_append, hx]
      rfl
    · obtain ⟨c, hc, hcp⟩ := hp
      rcases mem_insertKey.1 hc with rfl | hc
      · exact absurd hcp hqp
      · exact h.agrees p ⟨c, hc, hcp⟩

theorem overlayLoop_cons_of_some [DecidableEq δ] [BEq δ] [Add δ] [IntCast δ] {mask : FieldMask} {m : FieldPath}
    {x : Value δ} (hmem : m ∉ maskSet) (hx : (Value.map d).get (target d m) = some x) :
    Mutation.overlayLoop d patchValue maskSet (m :: mask) =
      Mutation.overlayLoop d (MapValue.set (target d m) x patchValue) (insertKey (target d m) maskSet) mask := by
  unfold target at hx ⊢
  rw [Mutation.overlayLoop, if_neg hmem]
  simp only [hx]

theorem overlayLoop_cons_of_none [DecidableEq δ] [BEq δ] [Add δ] [IntCast δ] {mask : FieldMask} {m : FieldPath}
    (hmem : m ∉ maskSet) (hx : (Value.map d).get (target d m) = none) :
    Mutation.overlayLoop d patchValue maskSet (m :: mask) =
      Mutation.overlayLoop d (MapValue.delete (target d m) patchValue) (insertKey (target d m) maskSet) mask := by
  unfold target at hx ⊢
  rw [Mutation.overlayLoop, if_neg hmem]
  simp only [hx]

/-- The mask of the overlay has for each path of the mask the path itself or the one that stands for it. -/
theorem overlayLoop_spec [DecidableEq δ] [BEq δ] [Add δ] [IntCast δ] {mask : FieldMask}
    (hd : Value.OrderedEntries d) (hmask : ∀ m ∈ mask, m ≠ []) (h : OverlayOf d patchValue maskSet) :
    OverlayOf d (Mutation.overlayLoop d patchValue maskSet mask).1
      (Mutation.overlayLoop d patchValue maskSet mask).2 ∧
    (∀ q ∈ maskSet, q ∈ (Mutation.overlayLoop d patchValue maskSet mask).2) ∧
    (∀ m ∈ mask, m ∈ (Mutation.overlayLoop d patchValue maskSet mask).2 ∨
      target d m ∈ (Mutation.overlayLoop d patchValue maskSet mask).2) ∧
    ∀ q ∈ (Mutation.overlayLoop d patchValue maskSet mask).2, q ∈ maskSet ∨ ∃ m ∈ mask, q = target d m := by
  induction mask generalizing patchValue maskSet with
  | nil => exact ⟨h, fun _ hq => hq, by simp, fun _ hq => .inl hq⟩
  | cons m mask ih =>
    have hm : m ≠ [] := hmask m List.mem_cons_self
    have hmask' : ∀ m ∈ mask, m ≠ [] := fun a ha => hmask a (List.mem_cons_of_mem _ ha)
    by_cases hmem : m ∈ maskSet
    · rw [Mutation.overlayLoop, if_pos hmem]
      obtain ⟨hover, hsub, hcov, hfrom⟩ := ih hmask' h
      refine ⟨hover, hsub, fun a ha => ?_, fun q hq => ?_⟩
      · rcases List.mem_cons.1 ha with rfl | ha
        · exact .inl (hsub a hmem)
        · exact hcov a ha
      · rcases hfrom q hq with hq | ⟨a, ha, heq⟩
        · exact .inl hq
        · exact .inr ⟨a, List.mem_cons_of_mem _ ha, heq⟩
    · obtain ⟨pv, hloop, hpv⟩ : ∃ pv,
          Mutation.overlayLoop d patchValue maskSet (m :: mask) =
            Mutation.overlayLoop d pv (insertKey (target d m) maskSet) mask ∧
          OverlayOf d pv (insertKey (target d m) maskSet) := by
        cases hx : (Value.map d).get (target d m) with
        | some x => exact ⟨_, overlayLoop_cons_of_some hmem hx, h.set hd (target_ne_nil hm) hx⟩
        | none => exact ⟨_, overlayLoop_cons_of_none hmem hx, h.delete (target_ne_nil hm) hx⟩
      obtain ⟨hover, hsub, hcov, hfrom⟩ := ih hmask' hpv
      rw [hloop]
      refine ⟨hover, fun q hq => hsub q (mem_insertKey.2 (.inr hq)), fun a ha => ?_, fun q hq => ?_⟩
      · rcases List.mem_cons.1 ha with rfl | ha
        · exact .inr (hsub _ (mem_insertKey.2 (.inl rfl)))
        · exact hcov a ha
      · rcases hfrom q hq with hq | ⟨a, ha, heq⟩
        · rcases mem_insertKey.1 hq with rfl | hq
          · exact .inr ⟨m, List.mem_cons_self, rfl⟩
          · exact .inl hq
        · exact .inr ⟨a, List.mem_cons_of_mem _ ha, heq⟩

/-! ## The overlay of a document -/

/-- Where a path of the mask has nothing in the map in which it should be, and that map does not exist
either, the map in which that one should be does. -/
def Anchored (mask : FieldMask) (d : MapValue δ) : Prop :=
  ∀ m ∈ mask, m.length > 2 → (Value.map d).get m.dropLast = none →
    (Value.map d).look m.dropLast.dropLast = some (.map [])

theorem target_eq_or : target d p = p ∨ (target d p = p.dropLast ∧ (Value.map d).get p = none ∧ p.length > 1) := by
  rw [target]
  split_ifs with h
  · rw [Bool.and_eq_true, decide_eq_true_iff, Option.isNone_iff_eq_none] at h
    exact .inr ⟨rfl, h⟩
  · exact .inl rfl

/-- A path of the overlay with nothing at it stands for one below it. -/
theorem eq_dropLast_of_none {mask : FieldMask} (ht : Touched {q | q ∈ mask} v d) (hmask : ∀ m ∈ mask, m ≠ [])
    {m : FieldPath} (hm : m ∈ mask) (hnone : (Value.map d).get (target d m) = none) :
    target d m = m.dropLast ∧ (Value.map d).get m = none ∧ m.length > 1 := by
  rcases target_eq_or (d := d) (p := m) with heq | h
  · rw [heq] at hnone
    -- nothing is above a field of the document itself, so it cannot be gone
    obtain ⟨c, hc, hcm, hne⟩ := ht.present m hm (Value.look_eq_none.2 hnone)
    have hlen : c.length < m.length := by
      rcases hcm.length_le.lt_or_eq with hlt | hlen
      · exact hlt
      · exact absurd (hcm.eq_of_length hlen) hne
    have hpos : 0 < c.length := List.length_pos_of_ne_nil (hmask c hc)
    refine ⟨?_, hnone, by omega⟩
    rw [target, hnone, if_pos]
    rw [Bool.and_eq_true, decide_eq_true_iff]
    exact ⟨rfl, by omega⟩
  · exact h

theorem strict_prefix_dropLast {c m : FieldPath} (h : c <+: m) (hne : c ≠ m) : c <+: m.dropLast := by
  have hm : m ≠ [] := by
    rintro rfl
    exact hne (List.prefix_nil.1 h)
  rw [← List.dropLast_concat_getLast hm] at h hne
  exact (List.prefix_concat_iff.1 h).resolve_left hne

/-- A path of the overlay with nothing at it is below another one. -/
theorem exists_above {mask : FieldMask} (ht : Touched {q | q ∈ mask} v d) (hmask : ∀ m ∈ mask, m ≠ [])
    (hcov : ∀ m ∈ mask, m ∈ maskSet ∨ target d m ∈ maskSet)
    (hfrom : ∀ q ∈ maskSet, ∃ m ∈ mask, q = target d m) (hq : q ∈ maskSet)
    (hnone : (Value.map d).get q = none) : ∃ c ∈ maskSet, c <+: q ∧ c ≠ q := by
  obtain ⟨m, hm, rfl⟩ := hfrom q hq
  obtain ⟨htarget, hmnone, -⟩ := eq_dropLast_of_none ht hmask hm hnone
  rw [htarget] at hnone ⊢
  obtain ⟨c, hc, hcm, hcne⟩ : ∃ c ∈ mask, c <+: m.dropLast ∧ c ≠ m.dropLast := by
    obtain ⟨c, hc, hcm, hne⟩ := ht.present m hm (Value.look_eq_none.2 hmnone)
    by_cases heq : c = m.dropLast
    · subst heq
      exact ht.present _ hc (Value.look_eq_none.2 hnone)
    · exact ⟨c, hc, strict_prefix_dropLast hcm hne, heq⟩
  have hlen : c.length < m.dropLast.length := by
    rcases hcm.length_le.lt_or_eq with hlt | hlen
    · exact hlt
    · exact absurd (hcm.eq_of_length hlen) hcne
  rcases hcov c hc with hmem | hmem
  · exact ⟨c, hmem, hcm, hcne⟩
  · refine ⟨target d c, hmem, target_isPrefixOf.trans hcm, fun heq => ?_⟩
    have hle := (target_isPrefixOf (d := d) (p := c)).length_le
    rw [heq] at hle
    omega

theorem getPatch_eq {value : MapValue δ} {mask : FieldMask} (hs : SortedKeys mask) (hpaths : ∀ q ∈ mask, q ≠ []) :
    Mutation.getPatch value mask = mask.map fun q => (q, (Value.map value).get q) := by
  induction mask with
  | nil => rfl
  | cons q mask ih =>
    obtain ⟨hlt, hs⟩ := List.pairwise_cons.1 hs
    rw [Mutation.getPatch, if_neg (hpaths q List.mem_cons_self),
      ih hs fun a ha => hpaths a (List.mem_cons_of_mem _ ha)]
    cases mask with
    | nil => rfl
    | cons a mask =>
      rw [List.map_cons, List.map_cons, List.map_cons, SortedMap.insert, if_pos (hlt a List.mem_cons_self)]

theorem path_le_of_extends {c q : FieldPath} (h : c <+: q) : c ≤ q := not_lt.1 (List.not_lt.2 h.le)

theorem lt_of_prefix_of_ne {c q : FieldPath} (h : c <+: q) (hne : c ≠ q) : c < q :=
  lt_of_le_of_ne (path_le_of_extends h) hne

/-- The paths of the mask are patched one after the other. What is deleted is below a path that has been
patched, so it is not there any more. -/
theorem patched_foldl {done rest : FieldMask} (hs : SortedKeys (done ++ rest))
    (hpaths : ∀ q ∈ rest, q ≠ []) (hd : Value.OrderedEntries d) (hr : Value.OrderedEntries r)
    (h : Patched {q | q ∈ done} d v r)
    (habove : ∀ q ∈ rest, (Value.map d).get q = none → ∃ c ∈ done ++ rest, c <+: q ∧ c ≠ q) :
    DeletesAbsent (rest.map fun q => (q, (Value.map d).get q)) r ∧
      Patched {q | q ∈ done ++ rest} d v
        ((rest.map fun q => (q, (Value.map d).get q)).foldl (fun m e => MapValue.put e.1 e.2 m) r) := by
  induction rest generalizing done r with
  | nil => exact ⟨trivial, by simpa using h⟩
  | cons q rest ih =>
    obtain ⟨hdone, hrest, hcross⟩ := List.pairwise_append.1 hs
    have hlt : ∀ c ∈ done, c < q := fun c hc => hcross c hc q List.mem_cons_self
    have hlast : ∀ c ∈ {q | q ∈ done}, ¬ q <+: c := fun c hc hqc => (hlt c hc).not_ge (path_le_of_extends hqc)
    have hordered : ∀ x ∈ (Value.map d).get q, x.sortFields.Ordered := by
      intro x hx
      have hx' := (Value.ordered_map.2 hd).get hx
      rwa [Value.sortFields_of_ordered hx']
    have hput := h.put hr hd (hpaths q List.mem_cons_self) hlast
    have hset : Insert.insert q {q | q ∈ done} = {p | p ∈ done ++ [q]} := by
      ext p
      simp [or_comm]
    rw [hset] at hput
    have happend : done ++ q :: rest = (done ++ [q]) ++ rest := by simp
    obtain ⟨habsent, hpatched⟩ := ih (happend ▸ hs) (fun a ha => hpaths a (List.mem_cons_of_mem _ ha))
      (ordered_put hordered hr) hput fun a ha hnone => happend ▸ habove a (List.mem_cons_of_mem _ ha) hnone
    refine ⟨⟨fun hnone => ?_, habsent⟩, ?_⟩
    · obtain ⟨c, hc, hcq, hne⟩ := habove q List.mem_cons_self hnone
      have hc' : c ∈ done := by
        rcases List.mem_append.1 hc with hc | hc
        · exact hc
        · rcases List.mem_cons.1 hc with rfl | hc
          · exact absurd rfl hne
          · exact absurd (lt_of_prefix_of_ne hcq hne) ((List.pairwise_cons.1 hrest).1 c hc).asymm
      refine Value.look_eq_none.1 ?_
      rw [h.covered q (fun ⟨b, hb, hqb, _⟩ => hlast b hb hqb) ⟨c, hc', hcq⟩]
      exact Value.look_eq_none.2 hnone
    · rw [List.map_cons, List.foldl_cons, happend]
      exact hpatched

/-- Applying a patch that agrees with `d`, if what it deletes is below other paths of its mask. -/
theorem patched_setAll (h : OverlayOf d patchValue maskSet) (hd : Value.OrderedEntries d)
    (hv : Value.OrderedEntries v)
    (habove : ∀ q ∈ maskSet, (Value.map d).get q = none → ∃ c ∈ maskSet, c <+: q ∧ c ≠ q) :
    Patched {q | q ∈ maskSet} d v (setAll (Mutation.getPatch patchValue maskSet) v) ∧
      Value.OrderedEntries (setAll (Mutation.getPatch patchValue maskSet) v) := by
  have hget : ∀ q ∈ maskSet, (Value.map patchValue).get q = (Value.map d).get q := by
    intro q hq
    refine Value.get_eq_of_look (Value.ordered_map.2 h.ordered) (Value.ordered_map.2 hd) fun rest => ?_
    exact h.agrees _ ⟨q, hq, List.prefix_append q rest⟩
  have hdata : Mutation.getPatch patchValue maskSet = maskSet.map fun q => (q, (Value.map d).get q) := by
    rw [getPatch_eq h.sorted h.paths]
    exact List.map_congr_left fun q hq => by rw [hget q hq]
  have hnone : Patched {q | q ∈ ([] : FieldMask)} d v v := by simpa using patched_empty
  have hs : SortedKeys ([] ++ maskSet) := h.sorted
  obtain ⟨habsent, hpatched⟩ := patched_foldl hs h.paths hd hv hnone habove
  have hvalues : ∀ e ∈ maskSet.map fun q => (q, (Value.map d).get q), ∀ x ∈ e.2, x.sortFields.Ordered := by
    intro e he x hx
    obtain ⟨q, -, rfl⟩ := List.mem_map.1 he
    have hx' := (Value.ordered_map.2 hd).get hx
    rwa [Value.sortFields_of_ordered hx']
  have hpaths : ∀ e ∈ maskSet.map fun q => (q, (Value.map d).get q), e.1 ≠ [] := by
    intro e he
    obtain ⟨q, hq, rfl⟩ := List.mem_map.1 he
    exact h.paths q hq
  have hnodup : ((maskSet.map fun q => (q, (Value.map d).get q)).map Prod.fst).Nodup := by
    have hnodup : maskSet.Nodup := h.sorted.imp fun hab => hab.ne
    rw [List.map_map]
    simpa [Function.comp_def] using hnodup
  rw [hdata, setAll_eq hv hpaths hnodup hvalues habsent]
  exact ⟨hpatched, ordered_foldl_put hvalues hv⟩

/-- The overlay brings about the document just in case the maps on the way to its paths exist. -/
theorem patched_eq_iff {mask : FieldMask} (ht : Touched {q | q ∈ mask} v d) (hp : Patched {q | q ∈ maskSet} d v r)
    (hd : Value.OrderedEntries d) (hr : Value.OrderedEntries r) (hmask : ∀ m ∈ mask, m ≠ [])
    (hcov : ∀ m ∈ mask, m ∈ maskSet ∨ target d m ∈ maskSet)
    (hfrom : ∀ q ∈ maskSet, ∃ m ∈ mask, q = target d m) : r = d ↔ Anchored mask d := by
  have hroot : (Value.map d).look [] = some (.map []) := by simp [Value.shape]
  constructor
  · rintro rfl m hm hlen hnone
    refine hp.extended _ ?_
    have hgone : (Value.map r).get m = none := by
      have hm' : m ≠ [] := hmask m hm
      rw [← List.dropLast_concat_getLast hm', Value.get_append, hnone]
      rfl
    have htarget : target r m = m.dropLast := by
      rw [target, hgone, if_pos]
      rw [Bool.and_eq_true, decide_eq_true_iff]
      exact ⟨rfl, by omega⟩
    have hshort : m.dropLast.dropLast ≠ m.dropLast := by
      intro heq
      have := congrArg List.length heq
      simp only [List.length_dropLast] at this
      omega
    rcases hcov m hm with hmem | hmem
    · refine ⟨m, hmem, (List.dropLast_prefix _).trans (List.dropLast_prefix m), fun heq => ?_⟩
      have := congrArg List.length heq
      simp only [List.length_dropLast] at this
      omega
    · exact ⟨m.dropLast, htarget ▸ hmem, List.dropLast_prefix _, hshort⟩
  · intro hanchored
    -- the maps on the way to a path of the overlay exist in the document
    have hmaps : ∀ p, Extended {q | q ∈ maskSet} p → (Value.map d).look p = some (.map []) := by
      rintro p ⟨q, hq, hpq, hne⟩
      cases hx : (Value.map d).get q with
      | some x => exact Value.look_of_get hx hpq hne
      | none =>
        obtain ⟨m, hm, rfl⟩ := hfrom q hq
        obtain ⟨htarget, -, hlen⟩ := eq_dropLast_of_none ht hmask hm hx
        rw [htarget] at hpq hne hx
        have hp' := strict_prefix_dropLast hpq hne
        by_cases hlen' : m.length > 2
        · have hlook := hanchored m hm hlen' hx
          by_cases heq : p = m.dropLast.dropLast
          · rw [heq, hlook]
          · obtain ⟨x, hx', -⟩ := Option.map_eq_some_iff.1 hlook
            exact Value.look_of_get hx' hp' heq
        · have hnil : p = [] := by
            have := hp'.length_le
            simp only [List.length_dropLast] at this
            exact List.length_eq_zero_iff.1 (by omega)
          rw [hnil, hroot]
    have hlook : ∀ p, (Value.map r).look p = (Value.map d).look p := by
      intro p
      by_cases hext : Extended {q | q ∈ maskSet} p
      · rw [hp.extended p hext, hmaps p hext]
      by_cases hcovered : Covered {q | q ∈ maskSet} p
      · exact hp.covered p hext hcovered
      have hcovered' : ¬ Covered {q | q ∈ mask} p := by
        rintro ⟨m, hm, hmp⟩
        rcases hcov m hm with hmem | hmem
        · exact hcovered ⟨m, hmem, hmp⟩
        · exact hcovered ⟨target d m, hmem, target_isPrefixOf.trans hmp⟩
      have hext' : ¬ Extended {q | q ∈ mask} p := by
        rintro ⟨m, hm, hpm, hne⟩
        rcases hcov m hm with hmem | hmem
        · exact hext ⟨m, hmem, hpm, hne⟩
        · have hpt : p <+: target d m := by
            rcases target_eq_or (d := d) (p := m) with heq | ⟨heq, -⟩
            · rwa [heq]
            · rw [heq]
              exact strict_prefix_dropLast hpm hne
          by_cases heq : p = target d m
          · exact hcovered ⟨target d m, hmem, heq ▸ List.prefix_rfl⟩
          · exact hext ⟨target d m, hmem, hpt, heq⟩
      rw [hp.same p hext hcovered, ht.same p hcovered' hext']
    exact Value.map.inj (Value.eq_of_look (Value.ordered_map.2 hr) (Value.ordered_map.2 hd) hlook)

end Firestore

end Datability
