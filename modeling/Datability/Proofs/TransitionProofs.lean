import Datability.Transition
import Mathlib.Algebra.BigOperators.Group.List.Basic
import Mathlib.Order.Basic

/-!
# Proofs: rules for runs

The induction rules of the development: an invariant is checked on one step (`run_invariant`), a
relation between two runs that look the same to an observer on one step that is not seen and on one pair
of steps that look the same (`unwinding`), a quantity is added up over a run label by label (`run_add`), a property that fails exactly when a potential grows is read off the
potential at the end (`allSteps_iff_potential`), a property of all states is traded for the condition
on steps that keeps it (`allStates_iff_allSteps`), and a simulation is checked on one step
(`run_translate`).
-/

namespace Transition

variable {σ ℓ : Type*} {step : σ → ℓ → Option σ}

@[simp] theorem run_nil (s : σ) : run step s [] = some s := rfl

theorem run_cons {s s' : σ} {l : ℓ} {ls : List ℓ} :
    run step s (l :: ls) = some s' ↔ ∃ t, step s l = some t ∧ run step t ls = some s' := by
  simp [run, Option.bind_eq_some_iff]

theorem run_singleton {s : σ} {l : ℓ} : run step s [l] = step s l := by simp [run]

theorem run_append {s s' : σ} {ls ms : List ℓ} :
    run step s (ls ++ ms) = some s' ↔ ∃ t, run step s ls = some t ∧ run step t ms = some s' := by
  induction ls generalizing s with
  | nil => simp
  | cons l ls ih =>
    simp only [List.cons_append, run_cons, ih]
    constructor
    · rintro ⟨t, ht, u, hu, hr⟩
      exact ⟨u, ⟨t, ht, hu⟩, hr⟩
    · rintro ⟨u, ⟨t, ht, hu⟩, hr⟩
      exact ⟨t, ht, u, hu, hr⟩

theorem allSteps_of_forall_mem {P : ℓ → Prop} {s : σ} {ls : List ℓ} (h : ∀ l ∈ ls, P l) :
    AllSteps step (fun _ l => P l) s ls := by
  induction ls generalizing s with
  | nil => trivial
  | cons l ls ih =>
    exact ⟨h l List.mem_cons_self, fun _ _ => ih fun m hm => h m (List.mem_cons_of_mem _ hm)⟩

theorem forall_mem_of_allSteps {P : ℓ → Prop} {s s' : σ} {ls : List ℓ}
    (h : AllSteps step (fun _ l => P l) s ls) (hr : run step s ls = some s') : ∀ l ∈ ls, P l := by
  induction ls generalizing s with
  | nil => simp
  | cons l ls ih =>
    obtain ⟨t, ht, hr⟩ := run_cons.1 hr
    intro m hm
    rcases List.mem_cons.1 hm with rfl | hm
    · exact h.1
    · exact ih (h.2 t ht) hr m hm

theorem AllSteps.and {P Q : σ → ℓ → Prop} {s : σ} {ls : List ℓ} (hP : AllSteps step P s ls)
    (hQ : AllSteps step Q s ls) : AllSteps step (fun s l => P s l ∧ Q s l) s ls := by
  induction ls generalizing s with
  | nil => trivial
  | cons l ls ih => exact ⟨⟨hP.1, hQ.1⟩, fun s' hs => ih (hP.2 s' hs) (hQ.2 s' hs)⟩

/-- An invariant of the steps that satisfy `P` holds at the end of a run of such steps. -/
theorem run_invariant {P : σ → ℓ → Prop} {I : σ → Prop}
    (hstep : ∀ s l s', P s l → I s → step s l = some s' → I s') {s s' : σ} {ls : List ℓ}
    (hP : AllSteps step P s ls) (hI : I s) (hr : run step s ls = some s') : I s' := by
  induction ls generalizing s with
  | nil =>
    obtain rfl : s = s' := by simpa using hr
    exact hI
  | cons l ls ih =>
    obtain ⟨t, ht, hr⟩ := run_cons.1 hr
    exact ih (hP.2 t ht) (hstep s l t hP.1 hI ht) hr

/-- An invariant of every step holds in every state of every run. -/
theorem allStates_of_invariant {P : σ → ℓ → Prop} {I : σ → Prop}
    (hstep : ∀ s l s', P s l → I s → step s l = some s' → I s') {s : σ} {ls : List ℓ}
    (hP : AllSteps step P s ls) (hI : I s) : AllStates step I s ls := by
  induction ls generalizing s with
  | nil => exact hI
  | cons l ls ih => exact ⟨hI, fun s' hs => ih (hP.2 s' hs) (hstep s l s' hP.1 hI hs)⟩

/-- What an invariant grants to the steps from its states holds of every step. -/
theorem allSteps_of_invariant {P Q : σ → ℓ → Prop} {I : σ → Prop}
    (hstep : ∀ s l s', P s l → I s → step s l = some s' → I s') (hQ : ∀ s l, P s l → I s → Q s l)
    {s : σ} {ls : List ℓ} (hP : AllSteps step P s ls) (hI : I s) : AllSteps step Q s ls := by
  induction ls generalizing s with
  | nil => trivial
  | cons l ls ih =>
    exact ⟨hQ s l hP.1 hI, fun s' hs => ih (hP.2 s' hs) (hstep s l s' hP.1 hI hs)⟩

theorem AllStates.imp {P Q : σ → Prop} (h : ∀ s, P s → Q s) {s : σ} {ls : List ℓ}
    (hP : AllStates step P s ls) : AllStates step Q s ls := by
  induction ls generalizing s with
  | nil => exact h _ hP
  | cons l ls ih => exact ⟨h _ hP.1, fun s' hs => ih (hP.2 s' hs)⟩

theorem AllStates.head {P : σ → Prop} {s : σ} {ls : List ℓ} (hP : AllStates step P s ls) : P s := by
  cases ls with
  | nil => exact hP
  | cons l ls => exact hP.1

/-- A potential that never shrinks does not shrink over a run. -/
theorem run_mono {α : Type*} [Preorder α] {P : σ → ℓ → Prop} {I : σ → Prop} {g : σ → α}
    (hstep : ∀ s l s', P s l → I s → step s l = some s' → I s' ∧ g s ≤ g s') {s s' : σ}
    {ls : List ℓ} (hP : AllSteps step P s ls) (hI : I s) (hr : run step s ls = some s') :
    g s ≤ g s' := by
  induction ls generalizing s with
  | nil =>
    obtain rfl : s = s' := by simpa using hr
    exact le_rfl
  | cons l ls ih =>
    obtain ⟨t, ht, hr⟩ := run_cons.1 hr
    obtain ⟨hIt, hle⟩ := hstep s l t hP.1 hI ht
    exact hle.trans (ih (hP.2 t ht) hIt hr)

/-- A quantity that each label changes by its own amount changes over a run by the sum of these. -/
theorem run_add {α : Type*} [AddCommMonoid α] {P : σ → ℓ → Prop} {I : σ → Prop} {g : σ → α} {f : ℓ → α}
    (hstep : ∀ s l s', P s l → I s → step s l = some s' → I s' ∧ g s' = g s + f l) {s s' : σ}
    {ls : List ℓ} (hP : AllSteps step P s ls) (hI : I s) (hr : run step s ls = some s') :
    I s' ∧ g s' = g s + (ls.map f).sum := by
  induction ls generalizing s with
  | nil =>
    obtain rfl : s = s' := by simpa using hr
    exact ⟨hI, by simp⟩
  | cons l ls ih =>
    obtain ⟨t, ht, hr⟩ := run_cons.1 hr
    obtain ⟨hIt, hg⟩ := hstep s l t hP.1 hI ht
    obtain ⟨hI', hsum⟩ := ih (hP.2 t ht) hIt hr
    refine ⟨hI', ?_⟩
    rw [hsum, hg, List.map_cons, List.sum_cons, add_assoc]

/-- If each step keeps the potential `g` exactly when it satisfies `C`, and raises it otherwise, then
a run consists of `C`-steps exactly when it keeps the potential. -/
theorem allSteps_iff_potential {α : Type*} [PartialOrder α] {P C : σ → ℓ → Prop} {I : σ → Prop}
    {g : σ → α}
    (hstep : ∀ s l s', P s l → I s → step s l = some s' →
      I s' ∧ g s ≤ g s' ∧ (C s l ↔ g s' = g s))
    {s s' : σ} {ls : List ℓ} (hP : AllSteps step P s ls) (hI : I s)
    (hr : run step s ls = some s') : AllSteps step C s ls ↔ g s' = g s := by
  induction ls generalizing s with
  | nil =>
    obtain rfl : s = s' := by simpa using hr
    simp [AllSteps]
  | cons l ls ih =>
    obtain ⟨t, ht, hr⟩ := run_cons.1 hr
    obtain ⟨hIt, hle, hC⟩ := hstep s l t hP.1 hI ht
    have hmono : g t ≤ g s' :=
      run_mono (fun s l s' hP hI hs => ⟨(hstep s l s' hP hI hs).1, (hstep s l s' hP hI hs).2.1⟩)
        (hP.2 t ht) hIt hr
    have hrest := ih (hP.2 t ht) hIt hr
    constructor
    · rintro ⟨hCl, hCs⟩
      exact (hrest.1 (hCs t ht)).trans (hC.1 hCl)
    · intro hg
      -- the potential is squeezed between its equal end values, so no step raised it
      have htg : g t = g s := le_antisymm (hg ▸ hmono) hle
      refine ⟨hC.2 htg, fun u hu => ?_⟩
      obtain rfl : t = u := by simpa [ht] using hu
      exact hrest.2 (hg.trans htg.symm)

/-- If `C` is exactly what a step needs to lead from good states to good states, then the states of a
run are all good exactly when its steps all satisfy `C`. -/
theorem allStates_iff_allSteps {C : σ → ℓ → Prop} {I Q : σ → Prop} (hQ : ∀ s, I s → Q s)
    (hstep : ∀ s l s', I s → step s l = some s' → (C s l → I s') ∧ (¬ C s l → ¬ Q s'))
    {s s' : σ} {ls : List ℓ} (hI : I s) (hr : run step s ls = some s') :
    AllStates step Q s ls ↔ AllSteps step C s ls := by
  induction ls generalizing s with
  | nil => exact ⟨fun _ => trivial, fun _ => hQ s hI⟩
  | cons l ls ih =>
    obtain ⟨t, ht, hr⟩ := run_cons.1 hr
    obtain ⟨hgood, hbad⟩ := hstep s l t hI ht
    constructor
    · rintro ⟨-, hstates⟩
      have hQt : Q t := AllStates.head (hstates t ht)
      have hC : C s l := by
        by_contra hC
        exact hbad hC hQt
      refine ⟨hC, fun u hu => ?_⟩
      obtain rfl : t = u := by simpa [ht] using hu
      exact (ih (hgood hC) hr).1 (hstates t ht)
    · rintro ⟨hC, hsteps⟩
      refine ⟨hQ s hI, fun u hu => ?_⟩
      obtain rfl : t = u := by simpa [ht] using hu
      exact (ih (hgood hC) hr).2 (hsteps t ht)

/-- A forward simulation, in which the number `n` of steps that are still allowed is counted down: if
each step is matched by the labels it amounts to, then so is a run. -/
theorem run_translate {τ κ : Type*} {step' : τ → κ → Option τ} {f : σ → ℓ → List κ}
    {R : ℕ → σ → τ → Prop}
    (hstep : ∀ n s l s' t, R (n + 1) s t → step s l = some s' →
      ∃ t', run step' t (f s l) = some t' ∧ R n s' t')
    {n : ℕ} {s s' : σ} {t : τ} {ls : List ℓ} (hR : R (n + ls.length) s t)
    (hr : run step s ls = some s') :
    ∃ t', run step' t (translate step f s ls) = some t' ∧ R n s' t' := by
  induction ls generalizing s t with
  | nil =>
    obtain rfl : s = s' := by simpa using hr
    exact ⟨t, rfl, hR⟩
  | cons l ls ih =>
    obtain ⟨u, hu, hr⟩ := run_cons.1 hr
    obtain ⟨v, hv, hR⟩ := hstep (n + ls.length) s l u t hR hu
    obtain ⟨t', ht', hR⟩ := ih hR hr
    refine ⟨t', ?_, hR⟩
    rw [translate, hu]
    exact run_append.2 ⟨v, hv, ht'⟩

/-! ## What is seen of a run -/

section Trace

variable {ο : Type*} {seen : σ → ℓ → Option ο} {s s' t t' : σ} {l : ℓ} {ls ms : List ℓ}

theorem trace_cons_hidden (hs : step s l = some s') (hseen : seen s l = none) :
    trace step seen s (l :: ls) = trace step seen s' ls := by
  simp [trace, translate, hs, hseen]

theorem trace_cons_seen {o : ο} (hs : step s l = some s') (hseen : seen s l = some o) :
    trace step seen s (l :: ls) = o :: trace step seen s' ls := by
  simp [trace, translate, hs, hseen]

/-- A relation that is kept by every step of which nothing is seen, on either side, and by every pair of steps
that look the same holds between the ends of two runs that look the same. -/
theorem unwinding {P : σ → ℓ → Prop} {S : σ → σ → Prop} (hsymm : ∀ s t, S s t → S t s)
    (hhidden : ∀ s t l s', P s l → seen s l = none → S s t → step s l = some s' → S s' t)
    (hseen : ∀ s t l m s' t' o, P s l → P t m → seen s l = some o → seen t m = some o → S s t →
      step s l = some s' → step t m = some t' → S s' t')
    (hls : AllSteps step P s ls) (hms : AllSteps step P t ms)
    (htrace : trace step seen s ls = trace step seen t ms) (hS : S s t)
    (hs : run step s ls = some s') (ht : run step t ms = some t') : S s' t' := by
  induction ls generalizing s t ms with
  | nil =>
    obtain rfl : s = s' := by simpa using hs
    -- nothing is seen of the other run
    induction ms generalizing t with
    | nil =>
      obtain rfl : t = t' := by simpa using ht
      exact hS
    | cons m ms ih =>
      obtain ⟨v, hv, ht⟩ := run_cons.1 ht
      cases hm : seen t m with
      | none =>
        rw [trace_cons_hidden hv hm] at htrace
        exact ih (hms.2 v hv) htrace (hsymm _ _ (hhidden t s m v hms.1 hm (hsymm _ _ hS) hv)) ht
      | some o =>
        rw [trace_cons_seen hv hm] at htrace
        cases htrace
  | cons l ls ih =>
    obtain ⟨u, hu, hs⟩ := run_cons.1 hs
    cases hl : seen s l with
    | none =>
      rw [trace_cons_hidden hu hl] at htrace
      exact ih (hls.2 u hu) hms htrace (hhidden s t l u hls.1 hl hS hu) hs ht
    | some o =>
      rw [trace_cons_seen hu hl] at htrace
      -- the other run goes on until it takes the step that looks the same
      induction ms generalizing t with
      | nil => cases htrace
      | cons m ms ih' =>
        obtain ⟨v, hv, ht⟩ := run_cons.1 ht
        cases hm : seen t m with
        | none =>
          rw [trace_cons_hidden hv hm] at htrace
          exact ih' (hms.2 v hv) (hsymm _ _ (hhidden t s m v hms.1 hm (hsymm _ _ hS) hv)) ht htrace
        | some o' =>
          rw [trace_cons_seen hv hm] at htrace
          obtain ⟨rfl, hrest⟩ := List.cons.inj htrace
          exact ih (hls.2 u hu) (hms.2 v hv) hrest (hseen s t l m u v o hls.1 hms.1 hl hm hS hu hv) hs ht

end Trace

/-! ## Requests of which something is seen -/

section Number

variable {α β : Type*} {seen : α → Option β} {l l' : List α} {a a' : α} {b b' : β} {i i' n : ℕ}

theorem number_eq_none (ha : l[i]? = some a) : number seen l i = none ↔ seen a = none := by
  simp [number, ha]

theorem filterMap_split (ha : l[i]? = some a) :
    l.filterMap seen = (l.take i).filterMap seen ++ (seen a).toList ++ (l.drop (i + 1)).filterMap seen := by
  obtain ⟨hi, rfl⟩ := List.getElem?_eq_some_iff.1 ha
  have hsplit : l = l.take i ++ l[i] :: l.drop (i + 1) := by
    rw [← List.drop_eq_getElem_cons hi, List.take_append_drop]
  have hcons : (l[i] :: l.drop (i + 1)).filterMap seen =
      (seen l[i]).toList ++ (l.drop (i + 1)).filterMap seen := by
    cases hseen : seen l[i] with
    | none => rw [List.filterMap_cons_none hseen, Option.toList_none, List.nil_append]
    | some b => rw [List.filterMap_cons_some hseen, Option.toList_some, List.singleton_append]
  rw [List.append_assoc, ← hcons, ← List.filterMap_append, ← hsplit]

/-- A request that ends takes with it what was seen of it. -/
theorem filterMap_eraseIdx (i : ℕ) :
    (l.eraseIdx i).filterMap seen = (l.take i).filterMap seen ++ (l.drop (i + 1)).filterMap seen := by
  rw [List.eraseIdx_eq_take_drop_succ, List.filterMap_append]

theorem filterMap_set (ha : l[i]? = some a) (c : α) :
    (l.set i c).filterMap seen =
      (l.take i).filterMap seen ++ (seen c).toList ++ (l.drop (i + 1)).filterMap seen := by
  obtain ⟨hi, -⟩ := List.getElem?_eq_some_iff.1 ha
  have hc : (l.set i c)[i]? = some c := by simp [hi]
  rw [filterMap_split hc, List.take_set_of_le (Nat.le_refl i), List.drop_set_of_lt (Nat.lt_succ_self i)]

/-- Nothing is seen of the end of a request of which nothing is seen. -/
theorem filterMap_eraseIdx_hidden (ha : l[i]? = some a) (hseen : seen a = none) :
    (l.eraseIdx i).filterMap seen = l.filterMap seen := by
  rw [filterMap_eraseIdx, filterMap_split ha, hseen]
  simp

theorem filterMap_set_hidden (ha : l[i]? = some a) (hseen : seen a = none) {c : α} (hc : seen c = none) :
    (l.set i c).filterMap seen = l.filterMap seen := by
  rw [filterMap_set ha, filterMap_split ha, hseen, hc]

/-- Two lists that look the same, each with one more request. -/
theorem filterMap_concat (hl : l'.filterMap seen = l.filterMap seen) (ha : seen a' = seen a) :
    (l' ++ [a']).filterMap seen = (l ++ [a]).filterMap seen := by
  rw [List.filterMap_append, List.filterMap_append, hl, List.filterMap_cons, List.filterMap_cons, ha]

/-- Two lists that look the same, split at requests with the same number. -/
theorem split_of_number (hl : l'.filterMap seen = l.filterMap seen) (ha : l[i]? = some a)
    (ha' : l'[i']? = some a') (hn : number seen l i = some n) (hn' : number seen l' i' = some n) :
    (∃ b, seen a = some b ∧ seen a' = some b) ∧
      (l'.take i').filterMap seen = (l.take i).filterMap seen ∧
      (l'.drop (i' + 1)).filterMap seen = (l.drop (i + 1)).filterMap seen := by
  obtain ⟨b, hb⟩ : ∃ b, seen a = some b := by
    rw [number, ha] at hn
    cases h : seen a with
    | none => simp [h] at hn
    | some b => exact ⟨b, rfl⟩
  obtain ⟨b', hb'⟩ : ∃ b, seen a' = some b := by
    rw [number, ha'] at hn'
    cases h : seen a' with
    | none => simp [h] at hn'
    | some b => exact ⟨b, rfl⟩
  have hlength : ((l'.take i').filterMap seen).length = ((l.take i).filterMap seen).length := by
    simp only [number, ha, ha', hb, hb', Option.bind_some, Option.map_some, Option.some.injEq] at hn hn'
    rw [hn, hn']
  rw [filterMap_split ha, filterMap_split ha', hb, hb', List.append_assoc, List.append_assoc] at hl
  obtain ⟨htake, hrest⟩ := List.append_inj hl hlength
  obtain ⟨hbb, hdrop⟩ := List.cons.inj hrest
  exact ⟨⟨b, hb, hbb ▸ hb'⟩, htake, hdrop⟩

theorem filterMap_eraseIdx_number (hl : l'.filterMap seen = l.filterMap seen) (ha : l[i]? = some a)
    (ha' : l'[i']? = some a') (hn : number seen l i = some n) (hn' : number seen l' i' = some n) :
    (l'.eraseIdx i').filterMap seen = (l.eraseIdx i).filterMap seen := by
  obtain ⟨-, htake, hdrop⟩ := split_of_number hl ha ha' hn hn'
  rw [filterMap_eraseIdx, filterMap_eraseIdx, htake, hdrop]

theorem filterMap_set_number (hl : l'.filterMap seen = l.filterMap seen) (ha : l[i]? = some a)
    (ha' : l'[i']? = some a') (hn : number seen l i = some n) (hn' : number seen l' i' = some n) {c c' : α}
    (hc : seen c' = seen c) : (l'.set i' c').filterMap seen = (l.set i c).filterMap seen := by
  obtain ⟨-, htake, hdrop⟩ := split_of_number hl ha ha' hn hn'
  rw [filterMap_set ha, filterMap_set ha', htake, hdrop, hc]

end Number

end Transition
