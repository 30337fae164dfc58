import Datability.Ledger
import Datability.Maps
import Datability.Proofs.OutstandingProofs
import Datability.Proofs.TransitionProofs
import Mathlib.Algebra.Order.Group.Multiset

/-!
# Proofs: what the map shows

Every call of `getMapCoordinates` will in the end add one marker for every own entry whose challenge
has a document. What is on the map and what the outstanding queries will still add make a quantity
that only the calls change, each by that same amount. So after `n` calls each entry has `n` markers.
-/

namespace Datability

open Transition

/-! ## Multisets -/

theorem sum_filter_fst {α β : Type} [DecidableEq α] (s : Multiset (α × β)) {cs : List α} (h : cs.Nodup) :
    (cs.map fun c => s.filter fun e => e.1 = c).sum = s.filter fun e => e.1 ∈ cs := by
  induction cs with
  | nil => simp
  | cons c cs ih =>
    obtain ⟨hc, hcs⟩ := List.nodup_cons.1 h
    have hdisj : s.filter (fun e => e.1 = c ∧ e.1 ∈ cs) = 0 := by
      refine Multiset.filter_eq_nil.2 fun e _ he => hc ?_
      exact he.1 ▸ he.2
    rw [List.map_cons, List.sum_cons, ih hcs, Multiset.filter_add_filter, hdisj, add_zero]
    simp

/-- A number of copies of a part make up the whole only if the part is the whole and there is one copy,
or if there is nothing. -/
theorem nsmul_filter_eq_self {α : Type} (p : α → Prop) [DecidablePred p] (s : Multiset α) {n : ℕ}
    (hn : 1 ≤ n) : n • s.filter p = s ↔ n = 1 ∧ (∀ a ∈ s, p a) ∨ s = 0 := by
  constructor
  · intro h
    by_cases hone : n = 1
    · rw [hone, one_nsmul] at h
      exact .inl ⟨hone, Multiset.filter_eq_self.1 h⟩
    · -- the part is as many copies of itself, so it is empty
      have hcopies : n • s.filter p = s.filter p := by
        have hfilter := congrArg (Multiset.filter p) h
        simpa [Multiset.filter_nsmul, Multiset.filter_filter] using hfilter
      have hcard := congrArg Multiset.card hcopies
      rw [Multiset.card_nsmul] at hcard
      have hzero : (s.filter p).card = 0 := by
        by_contra hne
        have hlt : 1 * (s.filter p).card < n * (s.filter p).card :=
          Nat.mul_lt_mul_of_pos_right (by omega) (Nat.pos_of_ne_zero hne)
        omega
      rw [Multiset.card_eq_zero.1 hzero, nsmul_zero] at h
      exact .inr h.symm
  · rintro (⟨rfl, hall⟩ | rfl)
    · rw [one_nsmul]
      exact Multiset.filter_eq_self.2 hall
    · simp

/-! ## The entries of a challenge -/

namespace Collections

variable (db : Collections) (u : Uid)

/-- The own entries of one challenge. -/
def shown (c : String) : Multiset (String × Entry) :=
  Multiset.filter (fun e => e.1 = c) (db.own u : Multiset (String × Entry))

/-- The own entries that one call of `getMapCoordinates` leads to. -/
def reached : Multiset (String × Entry) :=
  Multiset.filter (fun e => e.1 ∈ db.challenges) (db.own u : Multiset (String × Entry))

/-- The documents of `challenges` are distinct, so an entry is reached at most once. -/
theorem sum_shown : (db.challenges.map (db.shown u)).sum = db.reached u :=
  sum_filter_fst _ db.nodup

/-- What the query of the entries of `c` returns of `u`. -/
theorem shown_eq (c : String) :
    (((db.server.entriesOf c).filter fun e => e.host = some u.val).map (Prod.mk c) :
      Multiset (String × Entry)) = db.shown u c := by
  unfold shown own Server.entriesOf
  rw [Multiset.filter_coe]
  refine congrArg _ ?_
  induction db.server.entries with
  | nil => rfl
  | cons e es ih =>
    obtain ⟨c', e⟩ := e
    by_cases hc : c' = c
    · subst hc
      by_cases hh : e.host = some u.val
      · simpa [hh] using ih
      · simpa [hh] using ih
    · by_cases hh : e.host = some u.val
      · simpa [hc, hh] using ih
      · simpa [hc, hh] using ih

end Collections

namespace MapLoader

variable {db : Collections} {u : Uid} {s s' : MapLoader}

theorem isOwn_eq (hu : s.currentUser = some u) (e : Entry) :
    s.isOwn e = decide (e.host = some u.val) := by
  unfold isOwn
  rw [hu]
  cases e.host with
  | none => simpa using u.ne_error.symm
  | some h => simp [beq_eq_decide]

/-- The user is signed in, and every marker stands where its entry is. -/
structure MapInv (u : Uid) (s : MapLoader) : Prop where
  user : s.currentUser = some u
  placed : ∀ m ∈ s.allMapCoordinates, m.dataCoordinates = m.entry.2.coordinates

/-- The entries on the map, and those that the outstanding queries will add. -/
def total (db : Collections) (u : Uid) (s : MapLoader) : Multiset (String × Entry) :=
  (s.allMapCoordinates.map DataMapCoordinates.entry : Multiset (String × Entry)) +
    (s.entryQueries.map (db.shown u)).sum + s.challengeQueries • db.reached u

/-- What an event adds to the total. -/
def added (db : Collections) (u : Uid) : MapEvent → Multiset (String × Entry)
  | .onAppear => db.reached u
  | _ => 0

/-- The markers that a reply adds are those of the own entries of its challenge. -/
theorem entry_markers (hu : s.currentUser = some u) {c : String} {docs : List Entry}
    (h : docs.Perm (db.server.entriesOf c)) :
    (((docs.filter s.isOwn).map fun e => (⟨e.coordinates, (c, e)⟩ : DataMapCoordinates)).map
      DataMapCoordinates.entry : Multiset (String × Entry)) = db.shown u c := by
  have hown : s.isOwn = fun e => decide (e.host = some u.val) := funext fun e => isOwn_eq hu e
  rw [← db.shown_eq u c, List.map_map, hown]
  exact Multiset.coe_eq_coe.2 ((h.filter _).map _)

theorem total_step {e : MapEvent} (ha : s.Undisturbed db u e) (hI : s.MapInv u)
    (h : s.step e = some s') : s'.MapInv u ∧ s'.total db u = s.total db u + added db u e := by
  cases e with
  | session currentUser =>
    cases h
    obtain rfl : currentUser = some u := ha
    exact ⟨⟨rfl, hI.placed⟩, by simp [total, added]⟩
  | onAppear =>
    cases h
    refine ⟨⟨hI.user, hI.placed⟩, ?_⟩
    simp only [total, getMapCoordinates, added, succ_nsmul]
    abel
  | challengesReply documents =>
    simp only [step, Option.ite_none_left_eq_some] at h
    obtain ⟨hpos, h⟩ := h
    obtain ⟨docs, hdocs, hperm⟩ := ha
    obtain rfl : documents = some docs := hdocs
    cases h
    refine ⟨⟨hI.user, hI.placed⟩, ?_⟩
    -- the entries that the query stood for are now in the queries of the single challenges
    have hsum : (docs.map (db.shown u)).sum = db.reached u := by
      rw [(hperm.map (db.shown u)).sum_eq, db.sum_shown]
    obtain ⟨n, hn⟩ := Nat.exists_eq_succ_of_ne_zero hpos
    simp only [total, challengesCompletion, added, List.map_append, List.sum_append, hsum, hn,
      Nat.succ_sub_one, succ_nsmul]
    abel
  | entriesReply i documents =>
    simp only [step, Option.map_eq_some_iff] at h
    obtain ⟨c, hc, rfl⟩ := h
    obtain ⟨docs, hdocs, hperm⟩ := ha c hc
    obtain rfl : documents = some docs := hdocs
    refine ⟨⟨hI.user, fun m hm => ?_⟩, ?_⟩
    · rcases List.mem_append.1 hm with hm | hm
      · exact hI.placed m hm
      · obtain ⟨e, -, rfl⟩ := List.mem_map.1 hm
        rfl
    · have hqueries : (s.entryQueries.map (db.shown u)).sum =
          db.shown u c + ((s.entryQueries.eraseIdx i).map (db.shown u)).sum := by
        rw [← ((Outstanding.perm_cons_eraseIdx hc).map (db.shown u)).sum_eq, List.map_cons,
          List.sum_cons]
      have hmarkers := entry_markers (s := { s with entryQueries := s.entryQueries.eraseIdx i })
        hI.user hperm
      simp only [total, entriesCompletion, added, List.map_append, ← Multiset.coe_add, hmarkers,
        hqueries]
      abel

/-! ## Whole runs -/

theorem sum_added (es : List MapEvent) :
    (es.map (added db u)).sum = appearances es • db.reached u := by
  induction es with
  | nil => simp [appearances]
  | cons e es ih =>
    have hcons : appearances (e :: es) =
        appearances es + if (match e with | .onAppear => true | _ => false) = true then 1 else 0 :=
      List.countP_cons
    rw [List.map_cons, List.sum_cons, ih, hcons]
    cases e with
    | onAppear => simp [added, succ_nsmul']
    | session v | challengesReply docs | entriesReply i docs => simp [added]

/-- Once everything is delivered, each entry that is reached has a marker for every appearance of the
challenges screen. -/
theorem markers_eq {es : List MapEvent} (ha : AllSteps step (Undisturbed db u) (started u) es)
    (hr : run step (started u) es = some s) (hd : s.Delivered) :
    s.MapInv u ∧ (s.allMapCoordinates.map DataMapCoordinates.entry : Multiset (String × Entry)) =
      appearances es • db.reached u := by
  have hinv : MapInv u (started u) := ⟨rfl, by simp [started]⟩
  obtain ⟨hI, htotal⟩ := run_add (fun s e s' ha hI h => total_step ha hI h) ha hinv hr
  refine ⟨hI, ?_⟩
  rw [sum_added] at htotal
  simpa [total, started, hd.1, hd.2] using htotal

/-- **The map of own entries.** Over unchanged collections, with the user signed in and every reply
delivered without error, the map shows each own entry exactly once if and only if the challenges
screen has appeared once and every own entry belongs to a challenge that has a document, or there is
no own entry. -/
theorem showsOwnOnce_iff {es : List MapEvent}
    (ha : AllSteps step (Undisturbed db u) (started u) es)
    (hr : run step (started u) es = some s) (hd : s.Delivered) (hn : 1 ≤ appearances es) :
    s.ShowsOwnOnce db u ↔
      appearances es = 1 ∧ (∀ e ∈ db.own u, e.1 ∈ db.challenges) ∨ db.own u = [] := by
  obtain ⟨hI, hmarkers⟩ := markers_eq ha hr hd
  have hcoordinates : s.allMapCoordinates.map DataMapCoordinates.dataCoordinates =
      (s.allMapCoordinates.map DataMapCoordinates.entry).map fun e => e.2.coordinates := by
    rw [List.map_map]
    exact List.map_congr_left hI.placed
  have honce : s.ShowsOwnOnce db u ↔
      appearances es • db.reached u = (db.own u : Multiset (String × Entry)) := by
    rw [← hmarkers, Multiset.coe_eq_coe]
    refine ⟨fun h => h.once, fun h => ⟨?_, h⟩⟩
    rw [hcoordinates]
    exact h.map _
  rw [honce]
  have hself := nsmul_filter_eq_self (fun e : String × Entry => e.1 ∈ db.challenges)
    (db.own u : Multiset (String × Entry)) hn
  rwa [Multiset.coe_eq_zero] at hself

/-- The challenge for roses, with one entry of the sample user and one of somebody else. -/
def gardens : Collections where
  challenges := ["roses"]
  nodup := by decide
  server := { Sample.server with
    entries := [("roses", ⟨some "u1", some "a.png", some 1, some 2, some 0⟩),
      ("roses", ⟨some "u2", some "b.png", some 3, some 4, some 0⟩)] }

/-- The challenges screen appears, and both replies are delivered. -/
def appear : List MapEvent :=
  [.onAppear, .challengesReply (some ["roses"]), .entriesReply 0 (some (gardens.server.entriesOf "roses"))]

theorem showsOwnOnce_iff_appear :
    ∃ s, run step (started Sample.user) appear = some s ∧ s.ShowsOwnOnce gardens Sample.user := by
  have h : (run step (started Sample.user) appear).any (fun s => decide s.Delivered) = true := by
    decide +kernel
  obtain ⟨s, hr, hd⟩ := (Option.any_eq_true _ _).1 h
  exact ⟨s, hr, (showsOwnOnce_iff (by decide +kernel) hr (of_decide_eq_true hd) (by decide +kernel)).2
    (.inl (by decide +kernel))⟩

/-- The second appearance of the screen shows the same entry again. -/
theorem appearTwice_shows_twice :
    AllSteps step (Undisturbed gardens Sample.user) (started Sample.user) (appear ++ appear) ∧
      ∃ s, run step (started Sample.user) (appear ++ appear) = some s ∧ s.Delivered ∧
        s.allMapCoordinates.map DataMapCoordinates.dataCoordinates = [⟨1, 2⟩, ⟨1, 2⟩] ∧
        (gardens.own Sample.user).map (fun e => e.2.coordinates) = [⟨1, 2⟩] ∧
        ¬ s.ShowsOwnOnce gardens Sample.user := by
  refine ⟨by decide +kernel, ?_⟩
  have h : (run step (started Sample.user) (appear ++ appear)).any (fun s => decide (s.Delivered ∧
      s.allMapCoordinates.map DataMapCoordinates.dataCoordinates = [⟨1, 2⟩, ⟨1, 2⟩])) = true := by
    decide +kernel
  have hown : (gardens.own Sample.user).map (fun e => e.2.coordinates) = [⟨1, 2⟩] := by decide +kernel
  obtain ⟨s, hr, hs⟩ := (Option.any_eq_true _ _).1 h
  obtain ⟨hd, htwice⟩ := of_decide_eq_true hs
  refine ⟨s, hr, hd, htwice, hown, fun honce => ?_⟩
  have hlen := honce.coordinates.length_eq
  rw [htwice, hown] at hlen
  simp at hlen

end MapLoader

end Datability
