import Datability.Proofs.LedgerProofs
import Mathlib.Tactic.Linarith
import Mathlib.Tactic.NormNum
import Mathlib.Tactic.Ring
import Mathlib.Tactic.Push

/-!
# Proofs: snaps and entries

Every accepted snap raises the counter, and its entry is on the way as an upload whose challenge has
an id, as a queued write, or as a document. The gap between the two, with everything in flight
counted in, is the number of steps on which a snap lost its entry: it never shrinks, and it stays
where it is exactly on the steps that store (`StoresSnap`).
-/

namespace Datability

open Transition

/-- The change of the gap when the server applies the write. -/
def Issued.gap (u : Uid) (x : Issued) : ℚ :=
  match x.write with
  | .increment _ .totalSnapsTakenLocal q => q
  | .addDocument _ e => if e.host = some u.val then -1 else 0
  | _ => 0

namespace Device

variable {dev dev' : Device} {u : Uid}

/-- The part of the gap that is still in flight on a phone. -/
def gap (u : Uid) (dev : Device) : ℚ :=
  (dev.queue.map (Issued.gap u)).sum - dev.uploads.countP fun up => up.challenge.id.isSome

theorem Idle.storesSnap {e : Event} (h : dev.Idle e) : dev.StoresSnap e := by
  cases e <;> first
    | trivial
    | exact h.elim
    | exact fun scan hscan hreply => absurd hreply (h scan hscan)

/-- The gap grows by one on the events that lose an entry, and by nothing on the others. -/
theorem LedgerEffect.gap {e : Event} (h : LedgerEffect dev e dev') (hu : dev.currentUser = some u) :
    (dev.StoresSnap e ∧ dev'.gap u = dev.gap u) ∨
      (¬ dev.StoresSnap e ∧ dev'.gap u = dev.gap u + 1) := by
  cases h with
  | same h he => exact .inl ⟨he.storesSnap, by simp [Device.gap, h.queue, h.uploads]⟩
  | @accepted i scan reply r imageUUID pngData hscan hreply hlo hhi =>
    have hq : (dev.endScan i scan reply).queue = dev.queue := rfl
    have hup : (dev.endScan i scan reply).uploads = dev.uploads := rfl
    have hiff : dev.StoresSnap (.scanReply i reply r imageUUID pngData) ↔
        scan.challenge.id.isSome = true ∧ pngData = true := by
      simp [Device.StoresSnap, hscan, hreply]
    have hgap : ((dev.endScan i scan reply).snapAccepted scan r imageUUID pngData).gap u = dev.gap u + 1 -
        if scan.challenge.id.isSome = true ∧ pngData = true then 1 else 0 := by
      simp only [Device.gap, snapAccepted_queue, snapAccepted_uploads, hq, hup, List.map_append,
        List.sum_append, List.countP_append]
      cases hid : scan.challenge.id <;> cases pngData <;> simp [Issued.gap, hid] <;> ring
    rw [hgap, hiff]
    by_cases hc : scan.challenge.id.isSome = true ∧ pngData = true
    · exact .inl ⟨hc, by rw [if_pos hc]; ring⟩
    · exact .inr ⟨hc, by rw [if_neg hc]; ring⟩
  | sent hm =>
    refine .inl ⟨trivial, ?_⟩
    have hup : ∀ amount, (dev.mailComposeController amount .sent).uploads = dev.uploads := fun _ => rfl
    simp [Device.gap, hup, Issued.gap]
  | @uploadFailed i up date hup =>
    have hcount := Outstanding.countP_eraseIdx (fun up : Upload => up.challenge.id.isSome) hup
    have hiff : dev.StoresSnap (.uploadReply i true date) ↔ ¬ up.challenge.id.isSome = true := by
      simp [Device.StoresSnap, hup]
    rw [hiff]
    by_cases hc : up.challenge.id.isSome = true
    · refine .inr ⟨not_not_intro hc, ?_⟩
      rw [if_pos hc] at hcount
      simp only [Device.gap, endUpload, hcount]
      push_cast
      ring
    · refine .inl ⟨hc, ?_⟩
      rw [if_neg hc] at hcount
      simp only [Device.gap, endUpload, hcount]
      push_cast
      ring
  | @uploaded i up date hup =>
    refine .inl ⟨fun _ _ _ => rfl, ?_⟩
    have hcount := Outstanding.countP_eraseIdx (fun up : Upload => up.challenge.id.isSome) hup
    cases hc : up.challenge.id with
    | none =>
      rw [uploadEntries_none _ _ _ _ _ _ hc]
      simp only [hc, Option.isSome_none, Bool.false_eq_true, if_false, add_zero] at hcount
      simp only [Device.gap, noteStored, endUpload, hcount]
    | some c =>
      rw [uploadEntries_some ((dev.endUpload i).noteStored up) hu _ _ _ _ _ hc]
      simp only [hc, Option.isSome_some, if_true] at hcount
      simp only [Device.gap, issue, noteStored, endUpload, hcount, List.map_append, List.sum_append]
      simp [Issued.gap]
      ring
  | queryFailed hq => exact .inl ⟨trivial, rfl⟩
  | @queryAnswered i q docs hq hdocs =>
    refine .inl ⟨trivial, ?_⟩
    unfold entriesReply
    split
    · rfl
    · simp [Device.gap, issue, countLocal, endQuery, Issued.gap]

/-! ### Which photos have an entry coming -/

/-- The entry of the photo is in the queue, or its upload is outstanding. -/
def EntryComing (dev : Device) (p : Photo) : Prop :=
  (∃ y ∈ dev.queue, y.IsEntry p) ∨ ∃ up ∈ dev.uploads, up.photo = p ∧ up.challenge.id.isSome = true

/-- The photo has caused a queued write or an outstanding query. -/
def Counts (dev : Device) (p : Photo) : Prop :=
  (∃ x ∈ dev.queue, x.cause = .photo p) ∨ ∃ q ∈ dev.queries, q.photo = p

/-- New writes keep the coming entries, if every upload is still there or has become an entry. -/
theorem EntryComing.mono {new : List Issued} {p : Photo} (h : dev.EntryComing p)
    (hqueue : dev'.queue = dev.queue ++ new) (huploads : ∀ up ∈ dev.uploads,
      up.challenge.id.isSome = true → dev'.EntryComing up.photo) : dev'.EntryComing p := by
  rcases h with ⟨y, hy, hp⟩ | ⟨up, hup, rfl, hid⟩
  · refine .inl ⟨y, ?_, hp⟩
    rw [hqueue]
    exact List.mem_append_left _ hy
  · exact huploads up hup hid

/-- What counts has counted before, or the new writes and queries make it count. -/
theorem Counts.of_append {new : List Issued} {p : Photo} {R : Prop} (h : dev'.Counts p)
    (hqueue : dev'.queue = dev.queue ++ new) (hnew : ∀ x ∈ new, x.cause = .photo p → R)
    (hqueries : ∀ q ∈ dev'.queries, q.photo = p → dev.Counts p ∨ R) : dev.Counts p ∨ R := by
  rcases h with ⟨x, hx, hp⟩ | ⟨q, hq, hp⟩
  · rw [hqueue] at hx
    rcases List.mem_append.1 hx with hx | hx
    · exact .inl (.inl ⟨x, hx, hp⟩)
    · exact .inr (hnew x hx hp)
  · exact hqueries q hq hp

theorem entryComing_endUpload {i : ℕ} {up : Upload} {p : Photo} (hup : dev.uploads[i]? = some up)
    (hid : up.challenge.id = none) (h : dev.EntryComing p) : (dev.endUpload i).EntryComing p := by
  rcases h with hy | ⟨up', hm, hp, hid'⟩
  · exact .inl hy
  · rcases (Outstanding.mem_iff_eraseIdx hup).1 hm with rfl | hm
    · simp [hid] at hid'
    · exact .inr ⟨up', hm, hp, hid'⟩

/-- An event that stores keeps the coming entries, and whatever starts to count has one. -/
theorem LedgerEffect.entryComing {e : Event} (h : LedgerEffect dev e dev')
    (hu : dev.currentUser = some u) (hs : dev.StoresSnap e) (p : Photo) :
    (dev.EntryComing p → dev'.EntryComing p) ∧
      (dev'.Counts p → dev.Counts p ∨ dev'.EntryComing p) := by
  cases h with
  | same h he =>
    simp only [EntryComing, Counts, h.queue, h.uploads, h.queries]
    exact ⟨id, .inl⟩
  | @accepted i scan reply r imageUUID pngData hscan hreply hlo hhi =>
    obtain ⟨hid, rfl⟩ := hs scan hscan hreply
    have huploads := snapAccepted_uploads (dev.endScan i scan reply) scan r imageUUID true
    rw [if_pos rfl] at huploads
    -- both increments and the query are made for the photo that is being uploaded
    have hnew : ((dev.endScan i scan reply).snapAccepted scan r imageUUID true).EntryComing scan.photo := by
      refine .inr ⟨⟨scan.photo, imageUUID ++ ".png", scan.oneCoord.latitude,
        scan.oneCoord.longitude, scan.challenge⟩, ?_, rfl, hid⟩
      rw [huploads]
      exact List.mem_append_right _ (List.mem_singleton.2 rfl)
    constructor
    · intro hc
      refine hc.mono (snapAccepted_queue (dev.endScan i scan reply) ..) fun up hup hid' => ?_
      refine .inr ⟨up, ?_, rfl, hid'⟩
      rw [huploads]
      exact List.mem_append_left _ hup
    · intro hc
      refine hc.of_append (snapAccepted_queue (dev.endScan i scan reply) ..) (fun x hx hp => ?_) fun q hq hp => ?_
      · simp only [List.mem_cons, List.not_mem_nil, or_false] at hx
        rcases hx with rfl | rfl
        · exact Cause.photo.inj hp ▸ hnew
        · exact Cause.photo.inj hp ▸ hnew
      · rw [snapAccepted_queries] at hq
        rcases List.mem_append.1 hq with hq | hq
        · exact .inl (.inr ⟨q, hq, hp⟩)
        · obtain rfl := List.mem_singleton.1 hq
          exact .inr (hp ▸ hnew)
  | @sent amount hm =>
    have hqueue := mailComposeController_sent_queue dev amount
    refine ⟨fun hc => hc.mono hqueue fun up hup hid => .inr ⟨up, hup, rfl, hid⟩, fun hc => ?_⟩
    refine hc.of_append hqueue (fun x hx hp => ?_) fun q hq hp => .inl (.inr ⟨q, hq, hp⟩)
    obtain rfl := List.mem_singleton.1 hx
    cases hp
  | @uploadFailed i up date hup =>
    have hid : up.challenge.id = none := by
      by_contra hne
      exact absurd (hs up hup (Option.isSome_iff_ne_none.2 hne)) (by simp)
    exact ⟨entryComing_endUpload hup hid, .inl⟩
  | @uploaded i up date hup =>
    cases hc : up.challenge.id with
    | none =>
      rw [uploadEntries_none _ _ _ _ _ _ hc]
      exact ⟨entryComing_endUpload hup hc, .inl⟩
    | some c =>
      rw [uploadEntries_some ((dev.endUpload i).noteStored up) hu _ _ _ _ _ hc]
      have hqueue : (((dev.endUpload i).noteStored up).issue (.photo up.photo) (.addDocument c
          ⟨some u.val, some up.path, some up.lat, some up.long, some date⟩)).queue =
          dev.queue ++ [⟨.addDocument c ⟨some u.val, some up.path, some up.lat, some up.long,
            some date⟩, .photo up.photo⟩] := rfl
      have hnew : (((dev.endUpload i).noteStored up).issue (.photo up.photo) (.addDocument c
          ⟨some u.val, some up.path, some up.lat, some up.long, some date⟩)).EntryComing up.photo :=
        .inl ⟨_, List.mem_append_right _ (List.mem_singleton.2 rfl), rfl, _, _, rfl⟩
      constructor
      · intro hcoming
        refine hcoming.mono hqueue fun up' hm hid => ?_
        rcases (Outstanding.mem_iff_eraseIdx hup).1 hm with rfl | hm
        · exact hnew
        · exact .inr ⟨up', hm, rfl, hid⟩
      · intro hcounts
        refine hcounts.of_append hqueue (fun x hx hp => ?_) fun q hq hp => .inl (.inr ⟨q, hq, hp⟩)
        obtain rfl := List.mem_singleton.1 hx
        exact Cause.photo.inj hp ▸ hnew
  | @queryFailed i q hq =>
    refine ⟨id, ?_⟩
    rintro (hx | ⟨q', hm, hp⟩)
    · exact .inl (.inl hx)
    · exact .inl (.inr ⟨q', (Outstanding.mem_iff_eraseIdx hq).2 (.inr hm), hp⟩)
  | @queryAnswered i q docs hq hdocs =>
    obtain ⟨new, hqueue, hnew⟩ := (dev.endQuery i).entriesReply_queue q.photo docs
    constructor
    · intro hc
      refine hc.mono hqueue fun up hup hid => .inr ⟨up, ?_, rfl, hid⟩
      rwa [entriesReply_uploads]
    · intro hc
      refine .inl (or_self_iff.1 (hc.of_append (R := dev.Counts p) hqueue (fun x hx hp => ?_)
        fun q' hq' hp => ?_))
      · -- the participation is counted for the photo of the query
        rw [hnew x hx] at hp
        exact .inr ⟨q, List.mem_of_getElem? hq, Cause.photo.inj hp⟩
      · rw [entriesReply_queries] at hq'
        exact .inl (.inr ⟨q', (Outstanding.mem_iff_eraseIdx hq).2 (.inr hq'), hp⟩)

end Device

namespace World

variable {ι : Type*} [Fintype ι] [DecidableEq ι] {w w' : World ι} {u : Uid}

/-- The snaps counted and the entries stored, with everything in flight counted in. -/
def gap (u : Uid) (w : World ι) : ℚ :=
  w.server.counter u .totalSnapsTakenLocal - w.entryCount u + ∑ d, (w.devices d).gap u

theorem gap_apply {x : Issued} (hx : x.Ledger u) {s : Server} (hn : ∃ f, s.users u.val = some f) :
    (s.apply x.write).counter u .totalSnapsTakenLocal -
        ((s.apply x.write).entries.countP fun e => e.2.host = some u.val : ℕ) =
      s.counter u .totalSnapsTakenLocal - (s.entries.countP fun e => e.2.host = some u.val : ℕ) +
        x.gap u := by
  cases hx with
  | snap p => rw [Server.counter_increment hn]; simp [Issued.gap]; ring
  | credit p r hlo hhi => rw [Server.counter_increment hn]; simp [Issued.gap]
  | first p => rw [Server.counter_increment hn]; simp [Issued.gap]
  | payout a => rw [Server.counter_updateData hn]; simp [Issued.gap]
  | entry p c e he => simp [Issued.gap, he]; ring

theorem gap_step {l : Label ι} (hI : w.LedgerInv u) (h : LedgerStep w l w') :
    w.gap u ≤ w'.gap u ∧ (StoresSnap w l ↔ w'.gap u = w.gap u) := by
  cases h with
  | @app d e dev' hf h =>
    have hsum := sum_setDevice (Device.gap u) (w.record e) d dev'
    simp only [record_devices] at hsum
    have hc : ((w.record e).setDevice d dev').gap u = w.gap u + (dev'.gap u - (w.devices d).gap u) := by
      simp only [gap, entryCount, setDevice_server, record_server, hsum]
      ring
    rcases h.gap (hI.signedIn d) with ⟨hs, hg⟩ | ⟨hs, hg⟩
    · rw [hc, hg]
      exact ⟨by simp, by simpa [StoresSnap] using hs⟩
    · rw [hc, hg]
      exact ⟨by simp, by simpa [StoresSnap] using hs⟩
  | @serveQuery d i q hq hnone =>
    have hsum := sum_setDevice (Device.gap u) w d
      ((w.devices d).answerQuery i q ((w.localView d).entriesOf q.document))
    have hd : ((w.devices d).answerQuery i q ((w.localView d).entriesOf q.document)).gap u =
        (w.devices d).gap u := rfl
    have hc : (w.setDevice d ((w.devices d).answerQuery i q
        ((w.localView d).entriesOf q.document))).gap u = w.gap u := by
      simp only [gap, entryCount, setDevice_server, hsum, hd]
      ring
    rw [hc]
    exact ⟨le_rfl, by simp [StoresSnap]⟩
  | @apply d x rest hq =>
    have hx : x.Ledger u := hI.writes d x (by simp [hq])
    have hdoc := (hI.numbers .totalSnapsTakenLocal (by simp [Key.counters])).exists_doc
    have ha := gap_apply hx hdoc
    have hsum := sum_setDevice (Device.gap u) w d ((w.devices d).setQueue rest)
    have hd : (w.devices d).gap u = ((w.devices d).setQueue rest).gap u + x.gap u := by
      simp only [Device.gap, Device.setQueue, hq, List.map_cons, List.sum_cons]
      ring
    have hc : ((w.setDevice d ((w.devices d).setQueue rest)).commit x).gap u = w.gap u := by
      simp only [gap, entryCount, commit, setDevice_server, hsum, ha, hd]
      ring
    rw [hc]
    exact ⟨le_rfl, by simp [StoresSnap]⟩

omit [DecidableEq ι] in
theorem gap_of_quiet (hq : w.Quiet) :
    w.gap u = w.server.counter u .totalSnapsTakenLocal - w.entryCount u := by
  simp [gap, Device.gap, (hq _).queue, (hq _).uploads]

/-! ## No photo is paid without an entry -/

/-- The entry of the photo is stored or on its way. -/
def EntryComing (w : World ι) (p : Photo) : Prop :=
  (∃ y ∈ w.applied, y.IsEntry p) ∨ ∃ d, (w.devices d).EntryComing p

/-- Every photo that has caused a write or a query has its entry stored or on its way. -/
structure Backed (w : World ι) : Prop where
  applied : ∀ x ∈ w.applied, ∀ p, x.cause = .photo p → w.EntryComing p
  counts : ∀ d p, (w.devices d).Counts p → w.EntryComing p

omit [Fintype ι] in
theorem EntryComing.setDevice {d : ι} {dev' : Device} {p : Photo} (h : w.EntryComing p)
    (hd : (w.devices d).EntryComing p → dev'.EntryComing p) :
    (w.setDevice d dev').EntryComing p := by
  rcases h with ha | ⟨d', hd'⟩
  · exact .inl ha
  · refine .inr ⟨d', ?_⟩
    by_cases hdd : d' = d
    · subst hdd
      simpa using hd hd'
    · simpa [hdd] using hd'

omit [Fintype ι] in
/-- A change of one phone keeps `Backed` if it keeps the coming entries and whatever starts to count
has one. -/
theorem Backed.setDevice {d : ι} {dev' : Device} (h : w.Backed)
    (hd : ∀ p, ((w.devices d).EntryComing p → dev'.EntryComing p) ∧
      (dev'.Counts p → (w.devices d).Counts p ∨ dev'.EntryComing p)) :
    (w.setDevice d dev').Backed where
  applied x hx p hp := (h.applied x hx p hp).setDevice (hd p).1
  counts d' p hc := by
    by_cases hdd : d' = d
    · subst hdd
      rw [setDevice_self] at hc
      rcases (hd p).2 hc with hc | hc
      · exact (h.counts d' p hc).setDevice (hd p).1
      · exact .inr ⟨d', by simpa using hc⟩
    · rw [setDevice_of_ne _ _ hdd] at hc
      exact (h.counts d' p hc).setDevice (hd p).1

omit [Fintype ι] in
theorem Backed.step {l : Label ι} (hI : w.LedgerInv u) (h : w.Backed) (hs : StoresSnap w l)
    (hstep : LedgerStep w l w') : w'.Backed := by
  cases hstep with
  | @app d e dev' hf heff =>
    have hrec : (w.record e).Backed := by
      refine ⟨fun x hx p hp => ?_, fun d p hc => ?_⟩
      · simpa [EntryComing] using h.applied x (by simpa using hx) p hp
      · simpa [EntryComing] using h.counts d p (by simpa using hc)
    refine hrec.setDevice fun p => ?_
    simpa using heff.entryComing (hI.signedIn d) hs p
  | @serveQuery d i q hq hnone =>
    refine h.setDevice fun p => ⟨id, ?_⟩
    rintro (hx | ⟨q', hm, hp⟩)
    · exact .inl (.inl hx)
    · rcases (Outstanding.mem_set hq).1 hm with rfl | hm
      · exact .inl (.inr ⟨q, List.mem_of_getElem? hq, hp⟩)
      · exact .inl (.inr ⟨q', (Outstanding.mem_iff_eraseIdx hq).2 (.inr hm), hp⟩)
  | @apply d x rest hq =>
    -- the entry moves from the queue to the server, or stays where it is
    have hcoming : ∀ p, w.EntryComing p →
        ((w.setDevice d ((w.devices d).setQueue rest)).commit x).EntryComing p := by
      rintro p (⟨y, hy, hp⟩ | ⟨d', ⟨y, hy, hp⟩ | ⟨up, hm, hp⟩⟩)
      · exact .inl ⟨y, List.mem_append_left _ hy, hp⟩
      · by_cases hdd : d' = d
        · subst hdd
          rw [hq] at hy
          rcases List.mem_cons.1 hy with rfl | hy
          · exact .inl ⟨y, List.mem_append_right _ (List.mem_singleton.2 rfl), hp⟩
          · exact .inr ⟨d', .inl ⟨y, by simpa [commit, Device.setQueue] using hy, hp⟩⟩
        · exact .inr ⟨d', .inl ⟨y, by simpa [commit, hdd] using hy, hp⟩⟩
      · refine .inr ⟨d', .inr ⟨up, ?_, hp⟩⟩
        by_cases hdd : d' = d
        · subst hdd
          simpa [commit, Device.setQueue] using hm
        · simpa [commit, hdd] using hm
    refine ⟨fun y hy p hp => ?_, fun d' p hc => ?_⟩
    · rcases List.mem_append.1 hy with hy | hy
      · exact hcoming p (h.applied y hy p hp)
      · obtain rfl := List.mem_singleton.1 hy
        exact hcoming p (h.counts d p (.inl ⟨y, by simp [hq], hp⟩))
    · refine hcoming p (h.counts d' p ?_)
      by_cases hdd : d' = d
      · subst hdd
        rcases hc with ⟨y, hy, hp⟩ | ⟨q, hm, hp⟩
        · refine .inl ⟨y, ?_, hp⟩
          rw [hq]
          exact List.mem_cons_of_mem _ (by simpa [commit, Device.setQueue] using hy)
        · exact .inr ⟨q, by simpa [commit, Device.setQueue] using hm, hp⟩
      · simpa [commit, hdd] using hc

omit [Fintype ι] [DecidableEq ι] in
theorem Backed.paidBacked (h : w.Backed) (hq : w.Quiet) : w.PaidBacked := by
  intro x hx p hp
  rcases h.applied x hx p hp with ha | ⟨d, ⟨y, hy, -⟩ | ⟨up, hm, -⟩⟩
  · exact ha
  · simp [(hq d).queue] at hy
  · simp [(hq d).uploads] at hm

/-! ## The law -/

/-- **Paid snaps are backed.** From a state in which the snap counter is the number of entries, a run
ends with the same agreement and with an entry for every paid photo exactly when each of its accepted
snaps got stored. -/
theorem snaps_backed_iff {w₀ : World ι} {ls : List (Label ι)} (h₀ : w₀.Start u)
    (hb : w₀.server.field u.val .totalSnapsTakenLocal = some (.number (w₀.entryCount u)))
    (hl : ∀ l ∈ ls, l.ledger = true) (hr : run World.step w₀ ls = some w) (hq : w.Quiet) :
    w.SnapsBacked u ↔ AllSteps World.step StoresSnap w₀ ls := by
  have hsteps : AllSteps World.step (fun (_ : World ι) l => l.ledger = true) w₀ ls :=
    allSteps_of_forall_mem hl
  have hI : w.LedgerInv u :=
    run_invariant (fun w l w' hP hI h => hI.step (ledger_cases hP h)) hsteps h₀.inv hr
  have hgap : AllSteps World.step StoresSnap w₀ ls ↔ w.gap u = w₀.gap u :=
    allSteps_iff_potential
      (fun w l w' hP hI h => ⟨LedgerInv.step hI (ledger_cases hP h), gap_step hI (ledger_cases hP h)⟩)
      hsteps h₀.inv hr
  have h0 : w₀.gap u = 0 := by
    rw [gap_of_quiet h₀.quiet, Server.counter_eq_of_field hb, sub_self]
  rw [h0, gap_of_quiet hq] at hgap
  have hfield := (hI.numbers .totalSnapsTakenLocal (by simp [Key.counters])).field_eq
  constructor
  · rintro ⟨hcount, -⟩
    rw [hgap, Server.counter_eq_of_field hcount, sub_self]
  · intro hs
    refine ⟨?_, ?_⟩
    · rw [hfield, sub_eq_zero.1 (hgap.1 hs)]
    · have hback : w₀.Backed := by
        refine ⟨fun x hx => ?_, fun d p hc => ?_⟩
        · simp [h₀.applied] at hx
        · simp [Device.Counts, (h₀.quiet d).queue, (h₀.quiet d).queries] at hc
      have hinv : w.LedgerInv u ∧ w.Backed :=
        run_invariant (I := fun w => w.LedgerInv u ∧ w.Backed) (fun w l w' hP hI h =>
            ⟨hI.1.step (ledger_cases hP.1 h), hI.2.step hI.1 hP.2 (ledger_cases hP.1 h)⟩)
          (hsteps.and hs) ⟨h₀.inv, hback⟩ hr
      exact hinv.2.paidBacked hq

/-- A rose is credited, stored and counted. -/
def storedSnap : List (Label Unit) :=
  [.app () (Sample.capture 0 Sample.roses), .app () (Sample.accept (1 / 2) "a")] ++ Sample.store 3 ++
    Sample.ask

theorem snaps_backed_iff_storedSnap :
    ∃ w, run World.step (Sample.world Unit) storedSnap = some w ∧ w.Quiet ∧
      w.SnapsBacked Sample.user := by
  have h : (run World.step (Sample.world Unit) storedSnap).any (fun w => decide w.Quiet) = true := by
    decide +kernel
  obtain ⟨w, hw, hq⟩ := (Option.any_eq_true _ _).1 h
  exact ⟨w, hw, of_decide_eq_true hq, (snaps_backed_iff (Sample.world_start Unit) (by decide +kernel)
    (by decide) hw (of_decide_eq_true hq)).2 (by decide +kernel)⟩

/-- The photo is accepted and credited, and then its upload fails. -/
def lostUpload : List (Label Unit) :=
  [.app () (Sample.capture 0 Sample.roses), .app () (Sample.accept (1 / 2) "a"),
    .app () (.uploadReply 0 true 0), .apply () true, .apply () true] ++ Sample.ask ++ [.apply () true]

theorem lostUpload_not_backed :
    (Sample.world Unit).Start Sample.user ∧
      (Sample.world Unit).server.field "u1" .totalSnapsTakenLocal =
        some (.number ((Sample.world Unit).entryCount Sample.user)) ∧
      (∀ l ∈ lostUpload, l.ledger = true) ∧
      ∃ w, run World.step (Sample.world Unit) lostUpload = some w ∧ w.Quiet ∧
        w.server.field "u1" .totalMoneyEarnedLocal = some (.number (1 / 2)) ∧
        ¬ w.SnapsBacked Sample.user := by
  refine ⟨Sample.world_start Unit, by decide +kernel, by decide, ?_⟩
  have h : (run World.step (Sample.world Unit) lostUpload).any (fun w => decide (w.Quiet ∧
      w.server.field "u1" .totalMoneyEarnedLocal = some (.number (1 / 2)) ∧
      w.server.field "u1" .totalSnapsTakenLocal = some (.number 1) ∧
      w.entryCount Sample.user = 0)) = true := by decide +kernel
  obtain ⟨w, hw, hp⟩ := (Option.any_eq_true _ _).1 h
  obtain ⟨hq, hm, hf, hc⟩ := of_decide_eq_true hp
  refine ⟨w, hw, hq, hm, ?_⟩
  rintro ⟨hs, -⟩
  have hs' : some (Value.number 1) = some (Value.number (w.entryCount Sample.user)) := hf.symm.trans hs
  simp [hc] at hs'

end World

end Datability
