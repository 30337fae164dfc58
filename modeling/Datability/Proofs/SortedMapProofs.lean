import Datability.SortedMap

/-!
# Proofs: sorted maps

A sorted map is determined by what it assigns to the keys, so two ways to compute one are compared key by
key.
-/

namespace SortedMap

variable {κ β : Type*} [LinearOrder κ] {m n : List (κ × β)} {k : κ} {v : β} {ks : List κ}

theorem lookup_cons {e : κ × β} : (e :: m).lookup k = if k = e.1 then some e.2 else m.lookup k := by
  obtain ⟨l, w⟩ := e
  rw [List.lookup_cons]
  by_cases h : k = l
  · simp [h]
  · rw [beq_false_of_ne h, if_neg h]

theorem lookup_eq_none : m.lookup k = none ↔ ∀ e ∈ m, e.1 ≠ k := by
  induction m with
  | nil => simp
  | cons e m ih =>
    rw [lookup_cons, List.forall_mem_cons, ← ih]
    by_cases h : k = e.1
    · simp [h]
    · simp [h, Ne.symm h]

theorem mem_of_lookup (h : m.lookup k = some v) : (k, v) ∈ m := by
  induction m with
  | nil => simp at h
  | cons e m ih =>
    rw [lookup_cons] at h
    split_ifs at h with hk
    · obtain rfl := Option.some.inj h
      simp [hk]
    · exact List.mem_cons_of_mem _ (ih h)

theorem Sorted.lookup_of_mem (hm : Sorted m) (h : (k, v) ∈ m) : m.lookup k = some v := by
  induction m with
  | nil => simp at h
  | cons e m ih =>
    obtain ⟨hlt, hm⟩ := List.pairwise_cons.1 hm
    rw [lookup_cons]
    rcases List.mem_cons.1 h with rfl | h
    · exact if_pos rfl
    · have hne : k ≠ e.1 := (hlt _ h).ne'
      rw [if_neg hne]
      exact ih hm h

theorem Sorted.lookup_iff (hm : Sorted m) : m.lookup k = some v ↔ (k, v) ∈ m :=
  ⟨mem_of_lookup, hm.lookup_of_mem⟩

theorem sorted_cons {e : κ × β} : Sorted (e :: m) ↔ (∀ a ∈ m, e.1 < a.1) ∧ Sorted m := List.pairwise_cons

theorem Sorted.tail {e : κ × β} (h : Sorted (e :: m)) : Sorted m := (sorted_cons.1 h).2

theorem Sorted.nodup (hm : Sorted m) : m.Nodup :=
  hm.imp fun hab heq => hab.ne (congrArg Prod.fst heq)

/-- A sorted map is determined by what it assigns to the keys. -/
theorem Sorted.ext (hm : Sorted m) (hn : Sorted n) (h : ∀ k, m.lookup k = n.lookup k) : m = n := by
  have hmem : ∀ e, e ∈ m ↔ e ∈ n := by
    rintro ⟨k, v⟩
    rw [← hm.lookup_iff, ← hn.lookup_iff, h]
  have hperm : m.Perm n := (List.perm_ext_iff_of_nodup hm.nodup hn.nodup).2 hmem
  refine hperm.eq_of_pairwise ?_ hm hn
  intro a b _ _ hab hba
  exact absurd hab hba.asymm

/-- A sorted map that has entries of another one only, and not fewer, is that map. -/
theorem Sorted.eq_of_subset (hm : Sorted m) (hn : Sorted n) (hsub : m ⊆ n) (hlength : n.length ≤ m.length) :
    m = n := by
  have hperm : m.Perm n := (List.subperm_of_subset hm.nodup hsub).perm_of_length_le hlength
  refine hm.ext hn fun k => Option.ext fun v => ?_
  rw [hm.lookup_iff, hn.lookup_iff]
  exact hperm.mem_iff

/-- In a sorted map, what holds from left to right holds from smaller to larger keys. -/
theorem Sorted.rel_of_lt {r : κ × β → κ × β → Prop} (hm : Sorted m) (h : m.Pairwise r) {a b : κ × β}
    (ha : a ∈ m) (hb : b ∈ m) (hlt : a.1 < b.1) : r a b := by
  induction m with
  | nil => simp at ha
  | cons e m ih =>
    obtain ⟨hfirst, hm⟩ := sorted_cons.1 hm
    obtain ⟨hr, h⟩ := List.pairwise_cons.1 h
    rcases List.mem_cons.1 ha with rfl | ha' <;> rcases List.mem_cons.1 hb with rfl | hb'
    · exact absurd hlt (lt_irrefl _)
    · exact hr b hb'
    · exact absurd hlt (hfirst a ha').asymm
    · exact ih hm h ha' hb'

theorem mem_insert {e : κ × β} (h : e ∈ insert k v m) : e = (k, v) ∨ e ∈ m := by
  induction m with
  | nil => simpa [insert] using h
  | cons a m ih =>
    rw [insert] at h
    split_ifs at h with hlt heq
    · simpa using h
    · rcases List.mem_cons.1 h with h | h
      · exact .inl h
      · exact .inr (List.mem_cons_of_mem _ h)
    · rcases List.mem_cons.1 h with h | h
      · exact .inr (by simp [h])
      · exact (ih h).imp_right (List.mem_cons_of_mem _)

theorem Sorted.insert (hm : Sorted m) : Sorted (SortedMap.insert k v m) := by
  induction m with
  | nil => simp [SortedMap.insert, Sorted]
  | cons a m ih =>
    obtain ⟨hlt, hm'⟩ := sorted_cons.1 hm
    rw [SortedMap.insert]
    split_ifs with hka heq
    · refine sorted_cons.2 ⟨fun b hb => ?_, hm⟩
      rcases List.mem_cons.1 hb with rfl | hb
      · exact hka
      · exact hka.trans (hlt b hb)
    · subst heq
      exact sorted_cons.2 ⟨hlt, hm'⟩
    · refine sorted_cons.2 ⟨fun b hb => ?_, ih hm'⟩
      rcases mem_insert hb with rfl | hb
      · exact lt_of_le_of_ne (not_lt.1 hka) (Ne.symm heq)
      · exact hlt b hb

theorem lookup_insert {l : κ} : (insert k v m).lookup l = if l = k then some v else m.lookup l := by
  induction m with
  | nil =>
    by_cases h : l = k <;> simp [insert, lookup_cons, h]
  | cons a m ih =>
    rw [insert]
    split_ifs with hka heq <;> grind [lookup_cons]

section Assignments

variable {α : Type*} {f : α → κ} {g : α → β} {l : List α}

theorem lookup_foldl_insert_of_ne (h : ∀ a ∈ l, f a ≠ k) :
    (l.foldl (fun m a => insert (f a) (g a) m) m).lookup k = m.lookup k := by
  induction l generalizing m with
  | nil => rfl
  | cons a l ih =>
    rw [List.foldl_cons, ih fun b hb => h b (List.mem_cons_of_mem _ hb), lookup_insert]
    exact if_neg (h a List.mem_cons_self).symm

/-- Of assignments to different keys, each one holds in the end. -/
theorem lookup_foldl_insert (hne : l.Pairwise fun a b => f a ≠ f b) {a : α} (ha : a ∈ l) :
    (l.foldl (fun m a => insert (f a) (g a) m) m).lookup (f a) = some (g a) := by
  induction l generalizing m with
  | nil => simp at ha
  | cons b l ih =>
    obtain ⟨hfirst, hrest⟩ := List.pairwise_cons.1 hne
    rw [List.foldl_cons]
    rcases List.mem_cons.1 ha with rfl | ha
    · rw [lookup_foldl_insert_of_ne fun c hc => (hfirst c hc).symm, lookup_insert, if_pos rfl]
    · exact ih hrest ha

end Assignments

theorem sorted_union (hm : Sorted m) : Sorted (union m n) := by
  induction n with
  | nil => exact hm
  | cons e n ih => exact Sorted.insert ih

theorem lookup_union {l : κ} : (union m n).lookup l = (n.lookup l).or (m.lookup l) := by
  induction n with
  | nil => simp [union]
  | cons e n ih =>
    change (insert e.1 e.2 (union m n)).lookup l = _
    rw [lookup_insert, ih, lookup_cons]
    by_cases h : l = e.1 <;> simp [h]

theorem mem_union {e : κ × β} (h : e ∈ union m n) : e ∈ n ∨ e ∈ m := by
  induction n with
  | nil => exact .inr h
  | cons a n ih =>
    rcases mem_insert h with rfl | h
    · exact .inl List.mem_cons_self
    · exact (ih h).imp_left (List.mem_cons_of_mem _)

theorem Sorted.filter (hm : Sorted m) (p : κ × β → Bool) : Sorted (m.filter p) := List.Pairwise.filter p hm

theorem lookup_filter (hm : Sorted m) (p : κ → Bool) :
    (m.filter fun e => p e.1).lookup k = if p k then m.lookup k else none := by
  induction m with
  | nil => simp
  | cons e m ih =>
    have hm' := ih hm.tail
    by_cases hp : p e.1 <;> by_cases hk : k = e.1 <;> grind [lookup_cons]

/-- The first elements of a list, as many as have a property, are those that have it just in case none of
the others precedes one of these. -/
theorem take_filter_iff {α : Type*} {l : List α} {p : α → Bool} :
    l.take (l.filter p).length = l.filter p ↔ l.Pairwise fun a b => p b = true → p a = true := by
  induction l with
  | nil => simp
  | cons a l ih =>
    rw [List.pairwise_cons]
    by_cases ha : p a = true
    · rw [List.filter_cons_of_pos ha, List.length_cons, List.take_succ_cons, List.cons.injEq, ih]
      simp [ha]
    · rw [List.filter_cons_of_neg ha]
      cases hf : l.filter p with
      | nil =>
        have hl : ∀ b ∈ l, p b ≠ true := List.filter_eq_nil_iff.1 hf
        refine iff_of_true rfl ⟨fun b hb hpb => absurd hpb (hl b hb), ?_⟩
        exact List.Pairwise.imp_of_mem (fun _ hb _ hpb => absurd hpb (hl _ hb)) (List.pairwise_of_forall fun _ _ => trivial)
      | cons b r =>
        have hb : b ∈ l ∧ p b = true := List.mem_filter.1 (by rw [hf]; exact List.mem_cons_self)
        refine iff_of_false ?_ ?_
        · intro h
          rw [List.length_cons, List.take_succ_cons] at h
          obtain ⟨rfl, -⟩ := List.cons.inj h
          exact ha hb.2
        · intro h
          exact ha (h.1 b hb.1 hb.2)

theorem mem_insertKey {a b : κ} {ks : List κ} : a ∈ insertKey b ks ↔ a = b ∨ a ∈ ks := by
  induction ks with
  | nil => simp [insertKey]
  | cons c ks ih =>
    rw [insertKey]
    split_ifs with hlt heq <;> grind

theorem sortedKeys_insertKey {a : κ} {ks : List κ} (h : SortedKeys ks) :
    SortedKeys (insertKey a ks) := by
  induction ks with
  | nil => simp [insertKey, SortedKeys]
  | cons c ks ih =>
    obtain ⟨hlt, hks⟩ := List.pairwise_cons.1 h
    rw [insertKey]
    split_ifs with hac heq
    · refine List.pairwise_cons.2 ⟨fun b hb => ?_, h⟩
      rcases List.mem_cons.1 hb with rfl | hb
      · exact hac
      · exact hac.trans (hlt b hb)
    · exact h
    · refine List.pairwise_cons.2 ⟨fun b hb => ?_, ih hks⟩
      rcases mem_insertKey.1 hb with rfl | hb
      · exact lt_of_le_of_ne (not_lt.1 hac) (Ne.symm heq)
      · exact hlt b hb

theorem mem_keys_insert {m : List (κ × β)} {k l : κ} {v : β} :
    l ∈ (insert k v m).map Prod.fst ↔ l = k ∨ l ∈ m.map Prod.fst := by
  induction m with
  | nil => simp [insert]
  | cons e m ih =>
    rw [insert]
    split_ifs with hlt heq
    · simp
    · simp [heq]
    · simp only [List.map_cons, List.mem_cons, ih]
      tauto

end SortedMap
