import Mathlib.Algebra.BigOperators.Group.List.Basic
import Mathlib.Algebra.BigOperators.Group.Finset.Piecewise
import Mathlib.Tactic.Abel

/-!
# Proofs: lists of outstanding requests

A request is named by its position in the list. Delivering its reply erases the position, and
answering it replaces the element there; both are permutations of the list that leave every other
request alone, so counts move by one element. Over a family indexed by a finite type, changing one
member moves a total by one term.
-/

namespace Outstanding

variable {α : Type*} {l : List α} {a b : α} {i : ℕ}

theorem perm_cons_eraseIdx (h : l[i]? = some a) : (a :: l.eraseIdx i).Perm l := by
  obtain ⟨hi, rfl⟩ := List.getElem?_eq_some_iff.1 h
  exact List.getElem_cons_eraseIdx_perm hi

theorem perm_set (h : l[i]? = some a) : (l.set i b).Perm (b :: l.eraseIdx i) := by
  obtain ⟨hi, rfl⟩ := List.getElem?_eq_some_iff.1 h
  have hb : (l.set i b)[i]? = some b := by simp [hi]
  simpa [List.eraseIdx_set_eq] using (perm_cons_eraseIdx hb).symm

/-- Every element is the erased one or is still there. -/
theorem mem_iff_eraseIdx (h : l[i]? = some a) : b ∈ l ↔ b = a ∨ b ∈ l.eraseIdx i := by
  rw [← (perm_cons_eraseIdx h).mem_iff, List.mem_cons]

/-- Every element of the changed list is the new one or was there before. -/
theorem mem_set (h : l[i]? = some a) {c : α} : c ∈ l.set i b ↔ c = b ∨ c ∈ l.eraseIdx i := by
  rw [(perm_set h).mem_iff, List.mem_cons]

theorem countP_eraseIdx (p : α → Bool) (h : l[i]? = some a) :
    l.countP p = (l.eraseIdx i).countP p + if p a then 1 else 0 := by
  rw [← (perm_cons_eraseIdx h).countP_eq, List.countP_cons]

section Keys

variable {β : Type*} {f : α → β}

/-- A request with a new key. -/
theorem nodup_map_concat (hl : (l.map f).Nodup) (hb : ∀ a ∈ l, f a ≠ f b) :
    ((l ++ [b]).map f).Nodup := by
  rw [List.map_append, List.nodup_append]
  refine ⟨hl, List.nodup_singleton _, ?_⟩
  intro x hx y hy
  obtain ⟨a, ha, rfl⟩ := List.mem_map.1 hx
  obtain rfl := List.mem_singleton.1 hy
  exact hb a ha

/-- When the keys are different, a request that ends takes its key with it. -/
theorem ne_of_mem_eraseIdx (hl : (l.map f).Nodup) (h : l[i]? = some a) :
    ∀ b ∈ l.eraseIdx i, f b ≠ f a := by
  have hnodup := ((perm_cons_eraseIdx h).map f).nodup_iff.2 hl
  rw [List.map_cons, List.nodup_cons] at hnodup
  intro b hm heq
  exact hnodup.1 (heq ▸ List.mem_map_of_mem hm)

end Keys

/-! ## Tokens

Tokens are drawn fresh and then only moved or dropped; `copies a` counts the places where the token
`a` is. -/

/-- Every token is in at most one place, and only drawn tokens are anywhere. -/
structure Unique (copies : α → ℕ) (drawn : α → Prop) : Prop where
  once : ∀ a, copies a ≤ 1
  drawn : ∀ a, copies a ≠ 0 → drawn a

/-- A step that creates copies of undrawn tokens only, one of each, and draws them. -/
theorem Unique.step {copies copies' fresh : α → ℕ} {drawn drawn' : α → Prop}
    (h : Unique copies drawn) (hle : ∀ a, copies' a ≤ copies a + fresh a)
    (hfresh : ∀ a, fresh a ≠ 0 → ¬ drawn a ∧ fresh a ≤ 1)
    (hdrawn : ∀ a, drawn a ∨ fresh a ≠ 0 → drawn' a) : Unique copies' drawn' where
  once a := by
    have h1 := h.once a
    have h2 := hle a
    by_cases hf : fresh a = 0
    · omega
    · obtain ⟨hnot, hone⟩ := hfresh a hf
      have h0 : copies a = 0 := by
        by_contra hne
        exact hnot (h.drawn a hne)
      omega
  drawn a ha := by
    have h2 := hle a
    refine hdrawn a ?_
    by_cases hf : fresh a = 0
    · exact .inl (h.drawn a (by omega))
    · exact .inr hf

section Family

variable {ι β M : Type*} [Fintype ι] [DecidableEq ι]

/-- Changing one member of a family of counters. -/
theorem sum_update_add [AddCommMonoid M] (f : β → M) (g : ι → β) (d : ι) (x : β) :
    ∑ i, f (Function.update g d x i) + f (g d) = ∑ i, f (g i) + f x := by
  have h1 : (fun i => f (Function.update g d x i)) = Function.update (fun i => f (g i)) d (f x) := by
    funext i
    by_cases hi : i = d
    · subst hi; simp
    · simp [hi]
  have h2 := Finset.sum_update_of_mem (Finset.mem_univ d) (fun i => f (g i)) (f x)
  have h3 := Finset.sum_update_of_mem (Finset.mem_univ d) (fun i => f (g i)) (f (g d))
  rw [Function.update_eq_self] at h3
  rw [h1, h2, h3]
  abel

/-- Changing one member of a family changes a total by the change of its term. -/
theorem sum_update [AddCommGroup M] (f : β → M) (g : ι → β) (d : ι) (x : β) :
    ∑ i, f (Function.update g d x i) = ∑ i, f (g i) + (f x - f (g d)) := by
  rw [← add_sub_assoc, ← sum_update_add f g d x, add_sub_cancel_right]

end Family

end Outstanding
