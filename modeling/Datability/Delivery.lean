import Mathlib.Data.List.Basic

/-!
# Delivery in order over streams that break

A sender issues items, each of which belongs to a queue and has a rank, and sends the items of a queue
over a stream, in order and again from the first unsettled one when a stream breaks. The receiver applies
what arrives, and what was sent over a stream that is gone can still arrive. A `History` is what has
happened up to now, and `Sound` says that the receiver is never ahead of itself: before an item is
applied, everything issued earlier for its queue was applied or refused.
-/

namespace Delivery

structure History (β : Type*) where
  issued : List β
  /-- The items that the sender takes to be done, and whether as applied. -/
  settled : List (β × Bool)
  /-- What the receiver has applied, in order. -/
  applied : List β
  refused : List β
  /-- The items applied over the stream in use whose answer has not been read. -/
  results : List β
  /-- What can still arrive of each stream that is gone. -/
  abandoned : List (List β)

namespace History

variable {β κ : Type*}

/-- The receiver has decided about the item. -/
def Covered (h : History β) (b : β) : Prop := b ∈ h.applied ∨ b ∈ h.refused

/-- Everything issued before the item for its queue is decided or among `pre`. -/
def Due (key : β → κ) (rank : β → ℕ) (h : History β) (pre : List β) (b : β) : Prop :=
  ∀ a ∈ h.issued, key a = key b → rank a < rank b → h.Covered a ∨ a ∈ pre

/-- The items can arrive one after the other. -/
def InOrder (key : β → κ) (rank : β → ℕ) (h : History β) (l : List β) : Prop :=
  ∀ pre b post, l = pre ++ b :: post → b ∈ h.issued ∧ Due key rank h pre b

structure Sound (key : β → κ) (rank : β → ℕ) (h : History β) : Prop where
  ranked : ∀ b ∈ h.issued, rank b < h.issued.length
  results : ∀ b ∈ h.results, b ∈ h.applied
  acknowledged : ∀ b, (b, true) ∈ h.settled → b ∈ h.applied
  settled : ∀ p ∈ h.settled, h.Covered p.1
  applied : ∀ b ∈ h.applied, b ∈ h.issued ∧ Due key rank h [] b
  abandoned : ∀ l ∈ h.abandoned, InOrder key rank h l

/-- Later in the same run: only items of a higher rank were issued, and decisions stand. -/
structure Grows (rank : β → ℕ) (h h' : History β) : Prop where
  issued : ∀ b ∈ h.issued, b ∈ h'.issued
  fresh : ∀ b ∈ h'.issued, b ∈ h.issued ∨ h.issued.length ≤ rank b
  covered : ∀ b, h.Covered b → h'.Covered b

/-! ## What can happen -/

def issue (h : History β) (b : β) : History β := { h with issued := h.issued ++ [b] }

def settle (h : History β) (b : β) (ok : Bool) : History β :=
  { h with settled := h.settled ++ [(b, ok)] }

/-- The item is applied over the stream in use. -/
def apply (h : History β) (b : β) : History β :=
  { h with applied := h.applied ++ [b], results := h.results ++ [b] }

def refuse (h : History β) (bs : List β) : History β := { h with refused := h.refused ++ bs }

/-- The first of the results is read. -/
def read (h : History β) : History β := { h with results := h.results.tail }

/-- The stream in use is gone, and `ls` can still arrive. -/
def abandon (h : History β) (ls : List (List β)) : History β :=
  { h with results := [], abandoned := h.abandoned ++ ls }

/-- The first of `b :: rest` arrives over the `i`-th stream that is gone. -/
def arrive (h : History β) (i : ℕ) (b : β) (rest : List β) : History β :=
  { h with applied := h.applied ++ [b], abandoned := h.abandoned.set i rest }

/-- Nothing more arrives over the `i`-th stream that is gone. -/
def drop (h : History β) (i : ℕ) : History β := { h with abandoned := h.abandoned.eraseIdx i }

/-- Everything was applied once: what is settled as applied, and then what is on its way back. -/
structure Once (h : History β) : Prop where
  applied : h.applied = (h.settled.filter fun p => p.2).map Prod.fst ++ h.results
  abandoned : ∀ l ∈ h.abandoned, l = []

end History

end Delivery
