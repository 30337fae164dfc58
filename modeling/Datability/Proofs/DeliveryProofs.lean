import Datability.Delivery
import Mathlib.Tactic.Common

/-!
# Proofs: delivery in order

Each thing that can happen keeps a history sound. What may arrive later is judged by what was issued
before it, so it stays in order while more is issued and decided (`Grows`).
-/

namespace Delivery

namespace History

variable {β κ : Type*} {key : β → κ} {rank : β → ℕ} {h h' : History β} {b : β}

/-- What is issued later has a higher rank, so an item that is due stays due. -/
theorem Due.grows {pre : List β} (hdue : Due key rank h pre b) (hb : rank b < h.issued.length)
    (hgrows : Grows rank h h') : Due key rank h' pre b := by
  intro a ha hkey hrank
  rcases hgrows.fresh a ha with ha | ha
  · exact (hdue a ha hkey hrank).imp_left (hgrows.covered a)
  · omega

theorem InOrder.grows {l : List β} (hl : InOrder key rank h l)
    (hranked : ∀ b ∈ h.issued, rank b < h.issued.length) (hgrows : Grows rank h h') :
    InOrder key rank h' l := by
  intro pre b post heq
  obtain ⟨hb, hdue⟩ := hl pre b post heq
  exact ⟨hgrows.issued b hb, hdue.grows (hranked b hb) hgrows⟩

/-- What is left of items that arrive in order once the first has arrived. -/
theorem InOrder.tail {rest : List β} (hl : InOrder key rank h (b :: rest)) (hgrows : Grows rank h h')
    (hranked : ∀ b ∈ h.issued, rank b < h.issued.length) (hb : h'.Covered b) :
    InOrder key rank h' rest := by
  intro pre c post heq
  obtain ⟨hc, hdue⟩ := hl (b :: pre) c post (by rw [heq, List.cons_append])
  refine ⟨hgrows.issued c hc, fun a ha hkey hrank => ?_⟩
  rcases hdue.grows (hranked c hc) hgrows a ha hkey hrank with hcov | hmem
  · exact .inl hcov
  · rcases List.mem_cons.1 hmem with rfl | hmem
    · exact .inl hb
    · exact .inr hmem

theorem grows_of_issued (hissued : h'.issued = h.issued) (hcov : ∀ b, h.Covered b → h'.Covered b) :
    Grows rank h h' :=
  ⟨fun _ hb => hissued ▸ hb, fun _ hb => .inl (hissued ▸ hb), hcov⟩

/-- An item of the next rank comes after all others of its queue. -/
theorem Sound.issue (hs : Sound key rank h) (hb : rank b = h.issued.length) :
    Sound key rank (h.issue b) := by
  have hgrows : Grows rank h (h.issue b) := by
    refine ⟨fun c hc => List.mem_append_left _ hc, fun c hc => ?_, fun _ hc => hc⟩
    rcases List.mem_append.1 hc with hc | hc
    · exact .inl hc
    · rw [List.mem_singleton.1 hc]
      exact .inr (Nat.le_of_eq hb.symm)
  refine ⟨fun c hc => ?_, hs.results, hs.acknowledged, hs.settled, fun c hc => ?_, fun l hl => ?_⟩
  · simp only [History.issue, List.length_append, List.length_singleton]
    rcases List.mem_append.1 hc with hc | hc
    · have := hs.ranked c hc
      omega
    · rw [List.mem_singleton.1 hc]
      omega
  · obtain ⟨hissued, hdue⟩ := hs.applied c hc
    exact ⟨hgrows.issued c hissued, hdue.grows (hs.ranked c hissued) hgrows⟩
  · exact (hs.abandoned l hl).grows hs.ranked hgrows

/-- Only what the receiver has decided about is settled, and as applied only what was applied. -/
theorem Sound.settle (hs : Sound key rank h) {ok : Bool} (hb : h.Covered b)
    (hok : ok = true → b ∈ h.applied) : Sound key rank (h.settle b ok) := by
  refine ⟨hs.ranked, hs.results, fun c hc => ?_, fun p hp => ?_, hs.applied, hs.abandoned⟩
  · rcases List.mem_append.1 hc with hc | hc
    · exact hs.acknowledged c hc
    · obtain ⟨rfl, rfl⟩ := Prod.mk.inj (List.mem_singleton.1 hc)
      exact hok rfl
  · rcases List.mem_append.1 hp with hp | hp
    · exact hs.settled p hp
    · rw [List.mem_singleton.1 hp]
      exact hb

/-- More is decided than before. -/
theorem Sound.of_grows (hs : Sound key rank h) (hgrows : Grows rank h h')
    (hissued : h'.issued = h.issued) (hsettled : h'.settled = h.settled)
    (happlied : ∀ b ∈ h.applied, b ∈ h'.applied)
    (hnew : ∀ b ∈ h'.applied, b ∈ h.applied ∨ b ∈ h.issued ∧ Due key rank h [] b)
    (hresults : ∀ b ∈ h'.results, b ∈ h'.applied)
    (habandoned : ∀ l ∈ h'.abandoned, InOrder key rank h' l) : Sound key rank h' := by
  refine ⟨fun b hb => ?_, hresults, fun b hb => ?_, fun p hp => ?_, fun b hb => ?_, habandoned⟩
  · rw [hissued] at hb ⊢
    exact hs.ranked b hb
  · rw [hsettled] at hb
    exact happlied b (hs.acknowledged b hb)
  · rw [hsettled] at hp
    exact hgrows.covered _ (hs.settled p hp)
  · obtain ⟨hmem, hdue⟩ : b ∈ h.issued ∧ Due key rank h [] b := by
      rcases hnew b hb with hb | hb
      · exact hs.applied b hb
      · exact hb
    exact ⟨hgrows.issued b hmem, hdue.grows (hs.ranked b hmem) hgrows⟩

/-- An item is applied when everything before it in its queue is decided. -/
theorem Sound.apply (hs : Sound key rank h) (hb : b ∈ h.issued) (hdue : Due key rank h [] b) :
    Sound key rank (h.apply b) := by
  have hgrows : Grows rank h (h.apply b) := grows_of_issued rfl fun _ hc => hc.imp_left (List.mem_append_left _)
  refine hs.of_grows hgrows rfl rfl (fun c hc => List.mem_append_left _ hc) (fun c hc => ?_)
    (fun c hc => ?_) fun l hl => (hs.abandoned l hl).grows hs.ranked hgrows
  · rcases List.mem_append.1 hc with hc | hc
    · exact .inl hc
    · rw [List.mem_singleton.1 hc]
      exact .inr ⟨hb, hdue⟩
  · rcases List.mem_append.1 hc with hc | hc
    · exact List.mem_append_left _ (hs.results c hc)
    · exact List.mem_append_right _ hc

theorem Sound.refuse (hs : Sound key rank h) (bs : List β) : Sound key rank (h.refuse bs) := by
  have hgrows : Grows rank h (h.refuse bs) :=
    grows_of_issued rfl fun _ hc => hc.imp_right (List.mem_append_left _)
  exact hs.of_grows hgrows rfl rfl (fun _ hc => hc) (fun _ hc => .inl hc) hs.results
    fun l hl => (hs.abandoned l hl).grows hs.ranked hgrows

theorem Sound.read (hs : Sound key rank h) : Sound key rank h.read :=
  { hs with results := fun b hb => hs.results b (List.mem_of_mem_tail hb) }

/-- What was sent over the stream that is gone can still arrive, in order. -/
theorem Sound.abandon (hs : Sound key rank h) {ls : List (List β)}
    (hls : ∀ l ∈ ls, InOrder key rank h l) : Sound key rank (h.abandon ls) := by
  refine { hs with results := by simp [History.abandon], abandoned := fun l hl => ?_ }
  rcases List.mem_append.1 hl with hl | hl
  · exact hs.abandoned l hl
  · exact hls l hl

/-- A late arrival is due, and then so is the next one over the same stream. -/
theorem Sound.arrive (hs : Sound key rank h) {i : ℕ} {rest : List β}
    (hi : h.abandoned[i]? = some (b :: rest)) : Sound key rank (h.arrive i b rest) := by
  have hgrows : Grows rank h (h.arrive i b rest) :=
    grows_of_issued rfl fun _ hc => hc.imp_left (List.mem_append_left _)
  have hin : InOrder key rank h (b :: rest) := hs.abandoned _ (List.mem_of_getElem? hi)
  refine hs.of_grows hgrows rfl rfl (fun c hc => List.mem_append_left _ hc) (fun c hc => ?_)
    (fun c hc => List.mem_append_left _ (hs.results c hc)) fun l hl => ?_
  · rcases List.mem_append.1 hc with hc | hc
    · exact .inl hc
    · rw [List.mem_singleton.1 hc]
      exact .inr (hin [] b rest rfl)
  · rcases List.mem_or_eq_of_mem_set hl with hl | rfl
    · exact (hs.abandoned l hl).grows hs.ranked hgrows
    · exact hin.tail hgrows hs.ranked (.inl (List.mem_append_right _ (List.mem_singleton_self b)))

theorem Sound.drop (hs : Sound key rank h) (i : ℕ) : Sound key rank (h.drop i) :=
  { hs with abandoned := fun l hl => hs.abandoned l ((List.eraseIdx_sublist _ i).subset hl) }

/-! ## Exactly once -/

theorem Once.issue (ho : h.Once) (b : β) : (h.issue b).Once := ⟨ho.applied, ho.abandoned⟩

/-- The item goes on its way back. -/
theorem Once.apply (ho : h.Once) (b : β) : (h.apply b).Once := by
  refine ⟨?_, ho.abandoned⟩
  simp only [History.apply, ho.applied, List.append_assoc]

/-- The answer that is read settles the item it is for. -/
theorem Once.acknowledge (ho : h.Once) {results : List β} (hres : h.results = b :: results) :
    (h.settle b true).read.Once := by
  refine ⟨?_, ho.abandoned⟩
  simp only [History.settle, History.read, ho.applied, hres, List.filter_append, List.map_append,
    List.append_assoc]
  rfl

/-- A rejection applies nothing. -/
theorem Once.reject (ho : h.Once) (b : β) : (h.settle b false).Once := by
  refine ⟨?_, ho.abandoned⟩
  simp [History.settle, ho.applied]

/-- A stream may go only when all its answers were read and nothing can arrive late. -/
theorem Once.abandon (ho : h.Once) (hres : h.results = []) {ls : List (List β)}
    (hls : ∀ l ∈ ls, l = []) : (h.abandon ls).Once := by
  refine ⟨?_, fun l hl => ?_⟩
  · simp only [History.abandon, ho.applied, hres]
  · rcases List.mem_append.1 hl with hl | hl
    · exact ho.abandoned l hl
    · exact hls l hl

theorem Once.drop (ho : h.Once) (i : ℕ) : (h.drop i).Once :=
  ⟨ho.applied, fun l hl => ho.abandoned l ((List.eraseIdx_sublist _ i).subset hl)⟩

end History

end Delivery
