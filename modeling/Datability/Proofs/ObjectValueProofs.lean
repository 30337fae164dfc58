import Datability.ObjectValue
import Datability.Proofs.SortedMapProofs

/-!
# Proofs: the fields of a document

`ApplyChanges` merges the fields of a map with the upserts and leaves out the deletes. It compares the
next field with the first of the remaining deletes only, so a delete of a field that does not exist keeps
the later ones from being found.
-/

namespace Datability

namespace Firestore

open SortedMap

variable {δ : Type*}

namespace MapValue

variable {source upserts : MapValue δ} {deletes : List String} {room : ℕ}

theorem sorted_cons {e : String × Value δ} : sorted (e :: upserts) = (e.1, e.2.sortFields) :: sorted upserts :=
  rfl

theorem sorted_sorted (hu : Sorted upserts) : Sorted (sorted upserts) :=
  List.pairwise_map.2 hu

theorem lookup_sorted {k : String} : (sorted upserts).lookup k = (upserts.lookup k).map Value.sortFields := by
  induction upserts with
  | nil => rfl
  | cons e upserts ih =>
    rw [sorted_cons, SortedMap.lookup_cons, SortedMap.lookup_cons, ih]
    split_ifs <;> rfl

/-! ## The merge -/

theorem mergeLoop_deleted {k : String} {v : Value δ} (h : deletes.head? = some k) :
    mergeLoop ((k, v) :: source) upserts deletes (room + 1) =
      mergeLoop source upserts deletes.tail (room + 1) := by
  rw [mergeLoop.eq_def]
  simp [h]

theorem mergeLoop_kept_nil {k : String} {v : Value δ} (h : ¬ deletes.head? = some k) :
    mergeLoop ((k, v) :: source) [] deletes (room + 1) = (k, v) :: mergeLoop source [] deletes room := by
  rw [mergeLoop.eq_def]
  simp [h]

theorem mergeLoop_kept {k l : String} {v w : Value δ} (h : ¬ deletes.head? = some k) (hlt : k < l) :
    mergeLoop ((k, v) :: source) ((l, w) :: upserts) deletes (room + 1) =
      (k, v) :: mergeLoop source ((l, w) :: upserts) deletes room := by
  rw [mergeLoop.eq_def]
  simp [h, hlt, hlt.ne']

theorem mergeLoop_replaced {k : String} {v w : Value δ} (h : ¬ deletes.head? = some k) :
    mergeLoop ((k, v) :: source) ((k, w) :: upserts) deletes (room + 1) =
      (k, w.sortFields) :: mergeLoop source upserts deletes room := by
  rw [mergeLoop.eq_def]
  simp [h]

theorem mergeLoop_inserted {k l : String} {v w : Value δ} (h : ¬ deletes.head? = some k) (hlt : l < k) :
    mergeLoop ((k, v) :: source) ((l, w) :: upserts) deletes (room + 1) =
      (l, w.sortFields) :: mergeLoop ((k, v) :: source) upserts deletes room := by
  rw [mergeLoop.eq_def]
  simp [h, hlt.ne, hlt.not_gt]

/-- A field that precedes the upserts comes first. -/
theorem union_kept {k : String} {v : Value δ} (hs : Sorted ((k, v) :: source)) (h : ∀ a ∈ upserts, k < a.1) :
    union ((k, v) :: source) (sorted upserts) = (k, v) :: union source (sorted upserts) := by
  have hu : ∀ a ∈ sorted upserts, k < a.1 := by
    intro a ha
    obtain ⟨c, hc, rfl⟩ := List.mem_map.1 ha
    exact h c hc
  have hsorted : Sorted ((k, v) :: union source (sorted upserts)) := by
    refine SortedMap.sorted_cons.2 ⟨fun a ha => ?_, sorted_union hs.tail⟩
    rcases mem_union ha with ha | ha
    · exact hu a ha
    · exact (SortedMap.sorted_cons.1 hs).1 a ha
  refine Sorted.ext (sorted_union hs) hsorted fun l => ?_
  rw [lookup_union, SortedMap.lookup_cons, SortedMap.lookup_cons, lookup_union]
  split_ifs with hl
  · have hnone : (sorted upserts).lookup l = none := lookup_eq_none.2 fun a ha => hl ▸ (hu a ha).ne'
    simp [hnone]
  · rfl

/-- An upsert of the first field replaces it. -/
theorem union_replaced {k : String} {v w : Value δ} (hs : Sorted ((k, v) :: source))
    (hu : Sorted ((k, w) :: upserts)) :
    union ((k, v) :: source) (sorted ((k, w) :: upserts)) = (k, w.sortFields) :: union source (sorted upserts) := by
  have hu' := sorted_sorted hu
  have hsorted : Sorted ((k, w.sortFields) :: union source (sorted upserts)) := by
    refine SortedMap.sorted_cons.2 ⟨fun a ha => ?_, sorted_union hs.tail⟩
    rcases mem_union ha with ha | ha
    · exact (SortedMap.sorted_cons.1 hu').1 a ha
    · exact (SortedMap.sorted_cons.1 hs).1 a ha
  refine Sorted.ext (sorted_union hs) hsorted fun l => ?_
  simp only [sorted_cons, lookup_union, SortedMap.lookup_cons]
  split_ifs <;> rfl

/-- An upsert that precedes the fields comes first. -/
theorem union_inserted {k : String} {w : Value δ} (hs : Sorted source) (hu : Sorted ((k, w) :: upserts))
    (h : ∀ e ∈ source, k < e.1) :
    union source (sorted ((k, w) :: upserts)) = (k, w.sortFields) :: union source (sorted upserts) := by
  have hu' := sorted_sorted hu
  have hsorted : Sorted ((k, w.sortFields) :: union source (sorted upserts)) := by
    refine SortedMap.sorted_cons.2 ⟨fun a ha => ?_, sorted_union hs⟩
    rcases mem_union ha with ha | ha
    · exact (SortedMap.sorted_cons.1 hu').1 a ha
    · exact h a ha
  refine Sorted.ext (sorted_union hs) hsorted fun l => ?_
  simp only [sorted_cons, lookup_union, SortedMap.lookup_cons]
  split_ifs <;> rfl

theorem lt_of_sorted_cons {k l : String} {w : Value δ} (hu : Sorted ((l, w) :: upserts)) (h : k < l) :
    ∀ a ∈ (l, w) :: upserts, k < a.1 := by
  intro a ha
  rcases List.mem_cons.1 ha with rfl | ha
  · exact h
  · exact h.trans ((SortedMap.sorted_cons.1 hu).1 a ha)

/-- Where no field of the source is the first of the deletes, nothing is left out: the loop takes as many
fields as there is room for. -/
theorem mergeLoop_stuck (hs : Sorted source) (hu : Sorted upserts)
    (hd : ∀ e ∈ source, deletes.head? ≠ some e.1) :
    mergeLoop source upserts deletes room = (union source (sorted upserts)).take room := by
  fun_induction mergeLoop source upserts deletes room with
  | case1 => simp
  | case2 deletes room k v source upserts hdel => exact absurd hdel (hd (k, v) List.mem_cons_self)
  | case3 deletes room k v source hdel ih =>
    rw [ih hs.tail hu fun e he => hd e (List.mem_cons_of_mem _ he), union_kept hs (by simp),
      List.take_succ_cons]
  | case4 deletes room v source k w upserts hdel ih =>
    rw [ih hs.tail hu.tail fun e he => hd e (List.mem_cons_of_mem _ he), union_replaced hs hu,
      List.take_succ_cons]
  | case5 deletes room k v source hdel l w upserts hne hlt ih =>
    rw [ih hs.tail hu fun e he => hd e (List.mem_cons_of_mem _ he),
      union_kept hs (lt_of_sorted_cons hu hlt), List.take_succ_cons]
  | case6 deletes room k v source hdel l w upserts hne hlt ih =>
    have hlk : l < k := lt_of_le_of_ne (not_lt.1 hlt) hne
    rw [ih hs hu.tail hd, union_inserted hs hu (lt_of_sorted_cons hs hlk), List.take_succ_cons]
  | case7 deletes room l w upserts ih =>
    rw [ih hs hu.tail hd, union_inserted hs hu (by simp), List.take_succ_cons]
  | case8 => simp [sorted, union]

theorem sorted_changed (hs : Sorted source) : Sorted (changed source upserts deletes) :=
  (sorted_union hs).filter _

theorem lookup_changed (hs : Sorted source) {k : String} :
    (changed source upserts deletes).lookup k =
      if k ∈ deletes then none else ((upserts.lookup k).map Value.sortFields).or (source.lookup k) := by
  rw [changed, lookup_filter (sorted_union hs) fun k => decide (k ∉ deletes), lookup_union, lookup_sorted]
  by_cases hk : k ∈ deletes <;> simp [hk]

/-- A field that is not deleted and comes first stays first. -/
theorem changed_of_union {source' upserts' : MapValue δ} {e : String × Value δ}
    (h : union source (sorted upserts) = e :: union source' (sorted upserts')) (he : e.1 ∉ deletes) :
    changed source upserts deletes = e :: changed source' upserts' deletes := by
  rw [changed, h, List.filter_cons_of_pos (by simpa using he), changed]

theorem Unobstructed.iff_of_cons {source' upserts' : MapValue δ} {e : String × Value δ}
    (hchanged : changed source upserts deletes = e :: changed source' upserts' deletes)
    (hkeys : ∀ d ∈ deletes, d ∈ source.map Prod.fst ↔ d ∈ source'.map Prod.fst)
    (hlt : ∀ d ∈ source'.map Prod.fst, d ∈ deletes → e.1 < d) :
    Unobstructed source upserts deletes ↔ Unobstructed source' upserts' deletes := by
  constructor
  · intro h d hd hmiss d' hd' hpresent hdd' a ha
    refine h d hd (mt (hkeys d hd).1 hmiss) d' hd' ((hkeys d' hd').2 hpresent) hdd' a ?_
    rw [hchanged]
    exact List.mem_cons_of_mem _ ha
  · intro h d hd hmiss d' hd' hpresent hdd' a ha
    rw [hchanged] at ha
    rcases List.mem_cons.1 ha with rfl | ha
    · exact hlt d' ((hkeys d' hd').1 hpresent) hd'
    · exact h d hd (mt (hkeys d hd).2 hmiss) d' hd' ((hkeys d' hd').1 hpresent) hdd' a ha

/-- What is left of the source and of the deletes when the first field is deleted. -/
theorem changed_of_deleted {k : String} {v : Value δ} (hs : Sorted ((k, v) :: source))
    (hdisj : ∀ e ∈ upserts, e.1 ≠ k) :
    changed ((k, v) :: source) upserts (k :: deletes) = changed source upserts deletes := by
  refine Sorted.ext (sorted_changed hs) (sorted_changed hs.tail) fun l => ?_
  rw [lookup_changed hs, lookup_changed hs.tail, SortedMap.lookup_cons]
  by_cases hl : l = k
  · subst hl
    have hup : upserts.lookup l = none := lookup_eq_none.2 hdisj
    have hsrc : source.lookup l = none :=
      lookup_eq_none.2 fun e he => ((SortedMap.sorted_cons.1 hs).1 e he).ne'
    simp [hup, hsrc]
  · simp [hl]

theorem Unobstructed.iff_of_deleted {k : String} {v : Value δ} (hs : Sorted ((k, v) :: source))
    (hd : SortedKeys (k :: deletes)) (hdisj : ∀ e ∈ upserts, e.1 ≠ k) :
    Unobstructed ((k, v) :: source) upserts (k :: deletes) ↔ Unobstructed source upserts deletes := by
  have hlt : ∀ d ∈ deletes, k < d := (List.pairwise_cons.1 hd).1
  have hkeys : ∀ d ∈ deletes, d ∈ ((k, v) :: source).map Prod.fst ↔ d ∈ source.map Prod.fst := by
    intro d hd
    simp [(hlt d hd).ne']
  constructor
  · intro h d hd hmiss d' hd' hpresent hdd' a ha
    refine h d (List.mem_cons_of_mem _ hd) (mt (hkeys d hd).1 hmiss) d' (List.mem_cons_of_mem _ hd')
      ((hkeys d' hd').2 hpresent) hdd' a ?_
    rw [changed_of_deleted hs hdisj]
    exact ha
  · intro h d hd hmiss d' hd' hpresent hdd' a ha
    rw [changed_of_deleted hs hdisj] at ha
    rcases List.mem_cons.1 hd with rfl | hmem
    · simp at hmiss
    · rcases List.mem_cons.1 hd' with rfl | hmem'
      · exact absurd hdd' (hlt d hmem).asymm
      · exact h d hmem (mt (hkeys d hmem).2 hmiss) d' hmem' ((hkeys d' hmem').1 hpresent) hdd' a ha

/-- Where the first of the deletes is missing, the loop is right just in case nothing is obstructed. -/
theorem stuck_eq_iff (hs : Sorted source) (hu : Sorted upserts) (hd : SortedKeys deletes)
    (hdisj : ∀ d ∈ deletes, ∀ e ∈ upserts, e.1 ≠ d) (hstuck : ∀ e ∈ source, deletes.head? ≠ some e.1) :
    mergeLoop source upserts deletes (changed source upserts deletes).length =
        changed source upserts deletes ↔ Unobstructed source upserts deletes := by
  rw [mergeLoop_stuck hs hu hstuck, changed, take_filter_iff]
  cases deletes with
  | nil =>
    refine iff_of_true ?_ (by simp [Unobstructed])
    exact List.pairwise_of_forall fun _ _ => by simp
  | cons d deletes =>
    have hmiss : d ∉ source.map Prod.fst := by
      intro hmem
      obtain ⟨e, he, rfl⟩ := List.mem_map.1 hmem
      exact hstuck e he rfl
    have hlt : ∀ d' ∈ deletes, d < d' := (List.pairwise_cons.1 hd).1
    have hnotup : ∀ e ∈ sorted upserts, e.1 ∉ d :: deletes := by
      intro e he hmem
      obtain ⟨c, hc, rfl⟩ := List.mem_map.1 he
      exact hdisj _ hmem c hc rfl
    constructor
    · intro hpair _ _ _ d' hd' hpresent _ e he
      obtain ⟨he, hstays⟩ := List.mem_filter.1 he
      obtain ⟨c, hc, rfl⟩ := List.mem_map.1 hpresent
      have hc' : c ∈ union source (sorted upserts) := by
        have hup : (sorted upserts).lookup c.1 = none :=
          lookup_eq_none.2 fun a ha heq => hnotup a ha (heq ▸ hd')
        refine mem_of_lookup (k := c.1) (v := c.2) ?_
        rw [lookup_union, hup, hs.lookup_of_mem hc]
        rfl
      rcases lt_trichotomy e.1 c.1 with hlt' | heq | hgt
      · exact hlt'
      · rw [heq] at hstays
        simp [hd'] at hstays
      · have hgone := (sorted_union hs).rel_of_lt hpair hc' he hgt hstays
        simp [hd'] at hgone
    · intro hun
      refine List.Pairwise.imp_of_mem (fun {a b} ha hb hab hstays => ?_) (sorted_union hs)
      by_contra hgone
      have hgone : a.1 ∈ d :: deletes := not_not.1 (mt decide_eq_true hgone)
      have ha' : a ∈ source := (mem_union ha).resolve_left fun hmem => hnotup a hmem hgone
      have hpresent : a.1 ∈ source.map Prod.fst := List.mem_map_of_mem ha'
      have hlt' : d < a.1 := by
        rcases List.mem_cons.1 hgone with heq | hmem
        · exact absurd (heq ▸ hpresent) hmiss
        · exact hlt _ hmem
      have hba := hun d List.mem_cons_self hmiss a.1 hgone hpresent hlt' b (List.mem_filter.2 ⟨hb, hstays⟩)
      exact hab.asymm hba

/-- The first field is not deleted if the first of the deletes is a later field. -/
theorem not_mem_of_not_stuck {k : String} {v : Value δ} (hs : Sorted ((k, v) :: source))
    (hd : SortedKeys deletes) (hdel : ¬ deletes.head? = some k)
    (hstuck : ¬ ∀ e ∈ (k, v) :: source, deletes.head? ≠ some e.1) : k ∉ deletes := by
  intro hk
  push Not at hstuck
  obtain ⟨e, he, hhead⟩ := hstuck
  have hke : k < e.1 := by
    rcases List.mem_cons.1 he with rfl | he
    · exact absurd hhead hdel
    · exact (SortedMap.sorted_cons.1 hs).1 e he
  cases deletes with
  | nil => simp at hk
  | cons d deletes =>
    obtain rfl : d = e.1 := by simpa using hhead
    rcases List.mem_cons.1 hk with heq | hk
    · exact hke.ne heq
    · exact hke.asymm ((List.pairwise_cons.1 hd).1 k hk)

theorem mem_keys_cons {k : String} {v : Value δ} (hk : k ∉ deletes) :
    ∀ d ∈ deletes, d ∈ ((k, v) :: source).map Prod.fst ↔ d ∈ source.map Prod.fst := by
  intro d hd
  have hne : d ≠ k := fun heq => hk (heq ▸ hd)
  simp [hne]

theorem lt_of_mem_keys {k : String} {v : Value δ} (hs : Sorted ((k, v) :: source)) :
    ∀ d ∈ source.map Prod.fst, d ∈ deletes → k < d := by
  intro d hpresent _
  obtain ⟨e, he, rfl⟩ := List.mem_map.1 hpresent
  exact (SortedMap.sorted_cons.1 hs).1 e he

/-- If the loop goes on with the field that comes first, it is right just in case the rest of it is. -/
theorem eq_iff_of_emitted {source' upserts' : MapValue δ} {e : String × Value δ}
    (hloop : mergeLoop source upserts deletes (room + 1) = e :: mergeLoop source' upserts' deletes room)
    (hchanged : changed source upserts deletes = e :: changed source' upserts' deletes)
    (hroom : room + 1 = (changed source upserts deletes).length)
    (ih : room = (changed source' upserts' deletes).length →
      (mergeLoop source' upserts' deletes room = changed source' upserts' deletes ↔
        Unobstructed source' upserts' deletes))
    (hkeys : ∀ d ∈ deletes, d ∈ source.map Prod.fst ↔ d ∈ source'.map Prod.fst)
    (hlt : ∀ d ∈ source'.map Prod.fst, d ∈ deletes → e.1 < d) :
    mergeLoop source upserts deletes (room + 1) = changed source upserts deletes ↔
      Unobstructed source upserts deletes := by
  rw [hchanged, List.length_cons] at hroom
  rw [hloop, Unobstructed.iff_of_cons hchanged hkeys hlt, hchanged, List.cons.injEq, ← ih (by omega)]
  simp

/-- The loop with just enough room makes the changes if and only if nothing is obstructed. -/
theorem mergeLoop_eq_iff (hs : Sorted source) (hu : Sorted upserts) (hd : SortedKeys deletes)
    (hdisj : ∀ d ∈ deletes, ∀ e ∈ upserts, e.1 ≠ d) (hroom : room = (changed source upserts deletes).length) :
    mergeLoop source upserts deletes room = changed source upserts deletes ↔
      Unobstructed source upserts deletes := by
  induction source, upserts, deletes, room using mergeLoop.induct with
  | case1 source upserts deletes =>
    have hnil : changed source upserts deletes = [] := List.length_eq_zero_iff.1 hroom.symm
    refine iff_of_true (by rw [mergeLoop, hnil]) ?_
    simp [Unobstructed, hnil]
  | case2 deletes room k v source upserts hdel ih =>
    obtain ⟨deletes, rfl⟩ : ∃ ds, deletes = k :: ds := by
      cases deletes with
      | nil => simp at hdel
      | cons d ds => exact ⟨ds, by simpa using hdel⟩
    have hdisj' : ∀ e ∈ upserts, e.1 ≠ k := hdisj k List.mem_cons_self
    have hchanged := @changed_of_deleted _ _ _ deletes _ _ hs hdisj'
    rw [mergeLoop_deleted hdel, List.tail_cons, hchanged, Unobstructed.iff_of_deleted hs hd hdisj']
    rw [hchanged] at hroom
    exact ih hs.tail hu (List.pairwise_cons.1 hd).2
      (fun d hmem => hdisj d (List.mem_cons_of_mem _ hmem)) hroom
  | case3 deletes room k v source hdel ih =>
    by_cases hstuck : ∀ e ∈ (k, v) :: source, deletes.head? ≠ some e.1
    · rw [hroom]
      exact stuck_eq_iff hs hu hd hdisj hstuck
    · have hk := not_mem_of_not_stuck hs hd hdel hstuck
      exact eq_iff_of_emitted (mergeLoop_kept_nil hdel) (changed_of_union (union_kept hs (by simp)) hk) hroom
        (ih hs.tail hu hd hdisj) (mem_keys_cons hk) (lt_of_mem_keys hs)
  | case4 deletes room v source k w upserts hdel ih =>
    have hk : k ∉ deletes := fun hmem => hdisj k hmem (k, w) List.mem_cons_self rfl
    exact eq_iff_of_emitted (mergeLoop_replaced hdel) (changed_of_union (union_replaced hs hu) hk) hroom
      (ih hs.tail hu.tail hd fun d hd e he => hdisj d hd e (List.mem_cons_of_mem _ he)) (mem_keys_cons hk)
      (lt_of_mem_keys hs)
  | case5 deletes room k v source hdel l w upserts hne hlt ih =>
    by_cases hstuck : ∀ e ∈ (k, v) :: source, deletes.head? ≠ some e.1
    · rw [hroom]
      exact stuck_eq_iff hs hu hd hdisj hstuck
    · have hk := not_mem_of_not_stuck hs hd hdel hstuck
      exact eq_iff_of_emitted (mergeLoop_kept hdel hlt)
        (changed_of_union (union_kept hs (lt_of_sorted_cons hu hlt)) hk) hroom (ih hs.tail hu hd hdisj)
        (mem_keys_cons hk) (lt_of_mem_keys hs)
  | case6 deletes room k v source hdel l w upserts hne hlt ih =>
    have hlk : l < k := lt_of_le_of_ne (not_lt.1 hlt) hne
    have hl : l ∉ deletes := fun hmem => hdisj l hmem (l, w) List.mem_cons_self rfl
    refine eq_iff_of_emitted (mergeLoop_inserted hdel hlk)
      (changed_of_union (union_inserted hs hu (lt_of_sorted_cons hs hlk)) hl) hroom
      (ih hs hu.tail hd fun d hd e he => hdisj d hd e (List.mem_cons_of_mem _ he)) (fun _ _ => Iff.rfl) ?_
    intro d hpresent _
    obtain ⟨e, he, rfl⟩ := List.mem_map.1 hpresent
    exact lt_of_sorted_cons hs hlk e he
  | case7 deletes room l w upserts ih =>
    rw [hroom]
    exact stuck_eq_iff hs hu hd hdisj (by simp)
  | case8 deletes room =>
    rw [hroom]
    exact stuck_eq_iff hs hu hd hdisj (by simp)

theorem calculateSizeOfUnion_eq (hs : Sorted source) (hu : Sorted upserts)
    (hdisj : ∀ d ∈ deletes, ∀ e ∈ upserts, e.1 ≠ d) :
    calculateSizeOfUnion source upserts deletes = (changed source upserts deletes).length := by
  have hperm : (changed source upserts deletes).Perm (sorted upserts ++ source.filter fun e =>
      !deletes.contains e.1 && !(upserts.lookup e.1).isSome) := by
    have hu' := sorted_sorted hu
    refine (List.perm_ext_iff_of_nodup (sorted_changed hs).nodup ?_).2 ?_
    · refine List.nodup_append.2 ⟨hu'.nodup, hs.nodup.filter _, ?_⟩
      rintro a ha b hb rfl
      have hnone : upserts.lookup a.1 = none := by
        have hb' := (List.mem_filter.1 hb).2
        simp only [Bool.and_eq_true, Bool.not_eq_true', Option.isSome_eq_false_iff] at hb'
        simpa using hb'.2
      have hsome : (sorted upserts).lookup a.1 = some a.2 := hu'.lookup_of_mem ha
      rw [lookup_sorted, hnone] at hsome
      simp at hsome
    · rintro ⟨k, v⟩
      rw [← (sorted_changed hs).lookup_iff, lookup_changed hs, List.mem_append, List.mem_filter,
        ← hu'.lookup_iff, ← hs.lookup_iff, lookup_sorted]
      by_cases hk : k ∈ deletes
      · have hnone : upserts.lookup k = none := lookup_eq_none.2 (hdisj k hk)
        simp [hk, hnone]
      · cases hup : upserts.lookup k <;> simp [hk]
  rw [hperm.length_eq, List.length_append, calculateSizeOfUnion, List.countP_eq_length_filter, sorted,
    List.length_map]

theorem applyChanges_eq_iff (hs : Sorted source) (hu : Sorted upserts) (hd : SortedKeys deletes)
    (hdisj : ∀ d ∈ deletes, ∀ e ∈ upserts, e.1 ≠ d) :
    applyChanges source upserts deletes = changed source upserts deletes ↔
      Unobstructed source upserts deletes :=
  mergeLoop_eq_iff hs hu hd hdisj (calculateSizeOfUnion_eq hs hu hdisj)

/-- Whatever the loop emits is an upsert or a field of the source. -/
theorem mem_mergeLoop {e : String × Value δ} (h : e ∈ mergeLoop source upserts deletes room) :
    e ∈ sorted upserts ∨ e ∈ source := by
  fun_induction mergeLoop source upserts deletes room with
  | case1 => simp at h
  | case2 deletes room k v source upserts hdel ih => exact (ih h).imp_right (List.mem_cons_of_mem _)
  | case3 deletes room k v source hdel ih =>
    rcases List.mem_cons.1 h with rfl | h
    · exact .inr List.mem_cons_self
    · exact (ih h).imp_right (List.mem_cons_of_mem _)
  | case4 deletes room v source k w upserts hdel ih =>
    rcases List.mem_cons.1 h with rfl | h
    · exact .inl List.mem_cons_self
    · exact (ih h).imp (List.mem_cons_of_mem _) (List.mem_cons_of_mem _)
  | case5 deletes room k v source hdel l w upserts hne hlt ih =>
    rcases List.mem_cons.1 h with rfl | h
    · exact .inr List.mem_cons_self
    · exact (ih h).imp_right (List.mem_cons_of_mem _)
  | case6 deletes room k v source hdel l w upserts hne hlt ih =>
    rcases List.mem_cons.1 h with rfl | h
    · exact .inl List.mem_cons_self
    · exact (ih h).imp_left (List.mem_cons_of_mem _)
  | case7 deletes room l w upserts ih =>
    rcases List.mem_cons.1 h with rfl | h
    · exact .inl List.mem_cons_self
    · exact (ih h).imp_left (List.mem_cons_of_mem _)
  | case8 => simp at h

theorem lt_of_mem_mergeLoop {k : String} (hs : ∀ e ∈ source, k < e.1) (hu : ∀ e ∈ upserts, k < e.1)
    {e : String × Value δ} (h : e ∈ mergeLoop source upserts deletes room) : k < e.1 := by
  rcases mem_mergeLoop h with h | h
  · obtain ⟨c, hc, rfl⟩ := List.mem_map.1 h
    exact hu c hc
  · exact hs e h

/-- Also where the loop is wrong, its result is in order. -/
theorem sorted_mergeLoop (hs : Sorted source) (hu : Sorted upserts) :
    Sorted (mergeLoop source upserts deletes room) := by
  fun_induction mergeLoop source upserts deletes room with
  | case1 => exact List.Pairwise.nil
  | case2 deletes room k v source upserts hdel ih => exact ih hs.tail hu
  | case3 deletes room k v source hdel ih =>
    exact SortedMap.sorted_cons.2
      ⟨fun e he => lt_of_mem_mergeLoop (SortedMap.sorted_cons.1 hs).1 (by simp) he, ih hs.tail hu⟩
  | case4 deletes room v source k w upserts hdel ih =>
    exact SortedMap.sorted_cons.2
      ⟨fun e he => lt_of_mem_mergeLoop (SortedMap.sorted_cons.1 hs).1 (SortedMap.sorted_cons.1 hu).1 he,
        ih hs.tail hu.tail⟩
  | case5 deletes room k v source hdel l w upserts hne hlt ih =>
    exact SortedMap.sorted_cons.2
      ⟨fun e he => lt_of_mem_mergeLoop (SortedMap.sorted_cons.1 hs).1 (lt_of_sorted_cons hu hlt) he,
        ih hs.tail hu⟩
  | case6 deletes room k v source hdel l w upserts hne hlt ih =>
    have hlk : l < k := lt_of_le_of_ne (not_lt.1 hlt) hne
    exact SortedMap.sorted_cons.2
      ⟨fun e he => lt_of_mem_mergeLoop (lt_of_sorted_cons hs hlk) (SortedMap.sorted_cons.1 hu).1 he,
        ih hs hu.tail⟩
  | case7 deletes room l w upserts ih =>
    exact SortedMap.sorted_cons.2
      ⟨fun e he => lt_of_mem_mergeLoop (by simp) (SortedMap.sorted_cons.1 hu).1 he, ih hs hu.tail⟩
  | case8 => exact List.Pairwise.nil

theorem union_subset_cons {k : String} {v : Value δ} (hs : Sorted ((k, v) :: source)) :
    union source (sorted upserts) ⊆ union ((k, v) :: source) (sorted upserts) := by
  rintro ⟨l, w⟩ hmem
  rw [← (sorted_union hs.tail).lookup_iff, lookup_union] at hmem
  rw [← (sorted_union hs).lookup_iff, lookup_union, SortedMap.lookup_cons]
  split_ifs with hl
  · have hnone : source.lookup l = none :=
      lookup_eq_none.2 fun e he => hl ▸ ((SortedMap.sorted_cons.1 hs).1 e he).ne'
    rw [hnone, Option.or_none] at hmem
    rw [hmem, Option.some_or]
  · exact hmem

/-- Whatever the loop emits has the value that it has after the upserts. -/
theorem mergeLoop_subset_union (hs : Sorted source) (hu : Sorted upserts) :
    mergeLoop source upserts deletes room ⊆ union source (sorted upserts) := by
  fun_induction mergeLoop source upserts deletes room with
  | case1 => simp
  | case2 deletes room k v source upserts hdel ih => exact List.Subset.trans (ih hs.tail hu) (union_subset_cons hs)
  | case3 deletes room k v source hdel ih =>
    rw [union_kept hs (by simp)]
    exact List.cons_subset_cons _ (ih hs.tail hu)
  | case4 deletes room v source k w upserts hdel ih =>
    rw [union_replaced hs hu]
    exact List.cons_subset_cons _ (ih hs.tail hu.tail)
  | case5 deletes room k v source hdel l w upserts hne hlt ih =>
    rw [union_kept hs (lt_of_sorted_cons hu hlt)]
    exact List.cons_subset_cons _ (ih hs.tail hu)
  | case6 deletes room k v source hdel l w upserts hne hlt ih =>
    have hlk : l < k := lt_of_le_of_ne (not_lt.1 hlt) hne
    rw [union_inserted hs hu (lt_of_sorted_cons hs hlk)]
    exact List.cons_subset_cons _ (ih hs hu.tail)
  | case7 deletes room l w upserts ih =>
    rw [union_inserted hs hu (by simp)]
    exact List.cons_subset_cons _ (ih hs hu.tail)
  | case8 => simp

theorem length_changed_le {source' upserts' : MapValue δ} {e : String × Value δ}
    (h : union source (sorted upserts) = e :: union source' (sorted upserts')) :
    (changed source upserts deletes).length ≤ (changed source' upserts' deletes).length + 1 := by
  rw [changed, h, changed, List.filter_cons]
  split_ifs
  · rfl
  · exact Nat.le_succ _

/-- The loop never runs out of fields: also where it is wrong, its result has as many of them as it should. -/
theorem length_mergeLoop (hs : Sorted source) (hu : Sorted upserts)
    (hdisj : ∀ d ∈ deletes, ∀ e ∈ upserts, e.1 ≠ d) (hroom : room ≤ (changed source upserts deletes).length) :
    (mergeLoop source upserts deletes room).length = room := by
  fun_induction mergeLoop source upserts deletes room with
  | case1 => rfl
  | case2 deletes room k v source upserts hdel ih =>
    obtain ⟨deletes, rfl⟩ := List.head?_eq_some_iff.1 hdel
    rw [changed_of_deleted hs (hdisj k List.mem_cons_self)] at hroom
    exact ih hs.tail hu (fun d hmem => hdisj d (List.mem_cons_of_mem _ hmem)) hroom
  | case3 deletes room k v source hdel ih =>
    have hle := hroom.trans (length_changed_le (union_kept hs (by simp)))
    rw [List.length_cons, ih hs.tail hu hdisj (Nat.le_of_succ_le_succ hle)]
  | case4 deletes room v source k w upserts hdel ih =>
    have hle := hroom.trans (length_changed_le (union_replaced hs hu))
    rw [List.length_cons, ih hs.tail hu.tail (fun d hd e he => hdisj d hd e (List.mem_cons_of_mem _ he))
      (Nat.le_of_succ_le_succ hle)]
  | case5 deletes room k v source hdel l w upserts hne hlt ih =>
    have hle := hroom.trans (length_changed_le (union_kept hs (lt_of_sorted_cons hu hlt)))
    rw [List.length_cons, ih hs.tail hu hdisj (Nat.le_of_succ_le_succ hle)]
  | case6 deletes room k v source hdel l w upserts hne hlt ih =>
    have hlk : l < k := lt_of_le_of_ne (not_lt.1 hlt) hne
    have hle := hroom.trans (length_changed_le (union_inserted hs hu (lt_of_sorted_cons hs hlk)))
    rw [List.length_cons, ih hs hu.tail (fun d hd e he => hdisj d hd e (List.mem_cons_of_mem _ he))
      (Nat.le_of_succ_le_succ hle)]
  | case7 deletes room l w upserts ih =>
    have hle := hroom.trans (length_changed_le (union_inserted hs hu (by simp)))
    rw [List.length_cons, ih hs hu.tail (fun d hd e he => hdisj d hd e (List.mem_cons_of_mem _ he))
      (Nat.le_of_succ_le_succ hle)]
  | case8 => simp [changed, sorted, union] at hroom

theorem length_applyChanges (hs : Sorted source) (hu : Sorted upserts)
    (hdisj : ∀ d ∈ deletes, ∀ e ∈ upserts, e.1 ≠ d) :
    (applyChanges source upserts deletes).length = (changed source upserts deletes).length := by
  have hsize := calculateSizeOfUnion_eq hs hu hdisj
  rw [applyChanges, length_mergeLoop hs hu hdisj hsize.le, hsize]

theorem exists_delete_kept (hs : Sorted source) (hu : Sorted upserts)
    (hdisj : ∀ d ∈ deletes, ∀ e ∈ upserts, e.1 ≠ d)
    (hne : applyChanges source upserts deletes ≠ changed source upserts deletes) :
    ∃ d ∈ deletes, (applyChanges source upserts deletes).lookup d ≠ none := by
  by_contra! hgone
  refine hne ((sorted_mergeLoop hs hu).eq_of_subset (sorted_changed hs) (fun e he => ?_)
    (length_applyChanges hs hu hdisj).ge)
  refine List.mem_filter.2 ⟨mergeLoop_subset_union hs hu he, ?_⟩
  have hstays : e.1 ∉ deletes := fun hmem => lookup_eq_none.1 (hgone _ hmem) e he rfl
  simpa using hstays

theorem exists_field_lost (hs : Sorted source) (hu : Sorted upserts)
    (hdisj : ∀ d ∈ deletes, ∀ e ∈ upserts, e.1 ≠ d)
    (hne : applyChanges source upserts deletes ≠ changed source upserts deletes) :
    ∃ e ∈ changed source upserts deletes, (applyChanges source upserts deletes).lookup e.1 = none := by
  by_contra! hkept
  refine hne (Eq.symm ((sorted_changed hs).eq_of_subset (sorted_mergeLoop hs hu) (fun e he => ?_)
    (length_applyChanges hs hu hdisj).le))
  obtain ⟨v, hv⟩ := Option.ne_none_iff_exists'.1 (hkept e he)
  have hunion := sorted_union (n := sorted upserts) hs
  have hmem : (e.1, v) ∈ applyChanges source upserts deletes := mem_of_lookup hv
  -- both values are that of the field after the upserts
  have hvalue := hunion.lookup_of_mem (mergeLoop_subset_union hs hu hmem)
  rw [hunion.lookup_of_mem (List.mem_filter.1 he).1] at hvalue
  rw [← Option.some.inj hvalue] at hmem
  exact hmem

/-- `ApplyChanges` keeps the fields in order. If no field is both set and deleted, then it sets and deletes what
it should if and only if no field that is to be deleted comes after a delete of a missing field and before a
field that stays; and otherwise a field that was to be deleted is still there and one that was to stay is not. -/
theorem applyChanges_right_iff (hs : Sorted source) (hu : Sorted upserts) (hd : SortedKeys deletes) :
    Sorted (applyChanges source upserts deletes) ∧
    ((∀ d ∈ deletes, ∀ e ∈ upserts, e.1 ≠ d) →
      ((∀ k, (applyChanges source upserts deletes).lookup k = if k ∈ deletes then none else
          ((upserts.lookup k).map Value.sortFields).or (source.lookup k)) ↔
        Unobstructed source upserts deletes) ∧
      (¬ Unobstructed source upserts deletes →
        (∃ d ∈ deletes, (applyChanges source upserts deletes).lookup d ≠ none) ∧
        ∃ k ∉ deletes, ((upserts.lookup k).map Value.sortFields).or (source.lookup k) ≠ none ∧
          (applyChanges source upserts deletes).lookup k = none)) := by
  have hsorted : Sorted (applyChanges source upserts deletes) := sorted_mergeLoop hs hu
  refine ⟨hsorted, fun hdisj => ?_⟩
  rw [← applyChanges_eq_iff hs hu hd hdisj]
  refine ⟨⟨fun h => ?_, fun h k => ?_⟩, fun hne => ⟨exists_delete_kept hs hu hdisj hne, ?_⟩⟩
  · refine hsorted.ext (sorted_changed hs) fun k => ?_
    rw [h, lookup_changed hs]
  · rw [h, lookup_changed hs]
  · obtain ⟨e, he, hlost⟩ := exists_field_lost hs hu hdisj hne
    have hlookup := (sorted_changed hs).lookup_of_mem he
    rw [lookup_changed hs] at hlookup
    split_ifs at hlookup with hk
    exact ⟨e.1, hk, by rw [hlookup]; simp, hlost⟩

/-- The fields `b` and `c` of a document. -/
def twoFields : MapValue ℕ := [("b", .integer 1), ("c", .integer 2)]

/-- If `a` and `b` are deleted and there is no `a`, then `b` stays and `c` is lost. -/
theorem applyChanges_right_iff_missingDelete :
    applyChanges twoFields [] ["a", "b"] = [("b", .integer 1)] ∧
    Sorted (applyChanges twoFields [] ["a", "b"]) ∧
    ¬ (∀ k, (applyChanges twoFields [] ["a", "b"]).lookup k = if k ∈ ["a", "b"] then none else
      ((List.lookup k []).map Value.sortFields).or (twoFields.lookup k)) ∧
    (∃ d ∈ ["a", "b"], (applyChanges twoFields [] ["a", "b"]).lookup d ≠ none) ∧
    ∃ k ∉ ["a", "b"], ((List.lookup k []).map Value.sortFields).or (twoFields.lookup k) ≠ none ∧
      (applyChanges twoFields [] ["a", "b"]).lookup k = none := by
  have hobstructed : ¬ Unobstructed twoFields [] ["a", "b"] := by decide
  obtain ⟨hsorted, hright⟩ := @applyChanges_right_iff _ twoFields [] ["a", "b"] (by decide) List.Pairwise.nil
    (by decide)
  obtain ⟨hiff, hwrong⟩ := hright (by simp)
  have heq : applyChanges twoFields [] ["a", "b"] = [("b", .integer 1)] := by
    rw [applyChanges, mergeLoop_stuck (by decide) List.Pairwise.nil (by simp [twoFields])]
    rfl
  exact ⟨heq, hsorted, fun h => hobstructed (hiff.1 h), hwrong hobstructed⟩

end MapValue

end Firestore

end Datability
