import Datability.Entries
import Datability.Proofs.LedgerProofs
import Mathlib.Tactic.Linarith
import Mathlib.Tactic.NormNum
import Mathlib.Tactic.Ring
import Mathlib.Tactic.Push

/-!
# Proofs: participations

A challenge is claimed once an entry of the user is stored, queued, or uploading behind a query that
has been answered. In the order that `CountsFirst` asks for, a query that finds no entry claims its
challenge, and nothing else does: so the negative answers, the increments they cause and the counter
together count the claimed challenges, each of them once.
-/

namespace Datability

open Transition

/-- What an applied write adds to the participations. -/
def Issued.participations (x : Issued) : ℚ :=
  match x.write with
  | .increment _ .challengesCompletedLocal q => q
  | _ => 0

/-- The query has been answered, and the answer has no entry of `u`. -/
def Query.negative (u : Uid) (q : Query) : Bool :=
  match q.reply with
  | some docs => !docs.any fun e => decide (e.host = some u.val)
  | none => false

namespace Device

variable {dev dev' : Device} {u : Uid} {s : Server}

/-! ## Snaps and their numbers -/

/-- The outstanding scans and queries of a phone are for different photos, a photo that is still being
scanned is in no later stage, and the query and the upload of one snap name the same challenge. -/
structure Numbered (n : ℕ) (dev : Device) : Prop where
  scans : ∀ s ∈ dev.scans, s.photo.serial < n
  uploads : ∀ up ∈ dev.uploads, up.photo.serial < n
  queries : ∀ q ∈ dev.queries, q.photo.serial < n
  scan_once : (dev.scans.map fun s => s.photo.serial).Nodup
  query_once : (dev.queries.map fun q => q.photo.serial).Nodup
  scan_upload : ∀ s ∈ dev.scans, ∀ up ∈ dev.uploads, up.photo.serial ≠ s.photo.serial
  scan_query : ∀ s ∈ dev.scans, ∀ q ∈ dev.queries, q.photo.serial ≠ s.photo.serial
  same : ∀ q ∈ dev.queries, ∀ up ∈ dev.uploads, up.photo = q.photo →
    up.challenge.id = some q.document

/-- Requests that end leave the numbering in order. -/
theorem Numbered.of_sublist {n m : ℕ} (h : dev.Numbered n) (hn : n ≤ m)
    (hs : dev'.scans.Sublist dev.scans) (hu : dev'.uploads.Sublist dev.uploads)
    (hq : dev'.queries.Sublist dev.queries) : dev'.Numbered m where
  scans s hm := (h.scans s (hs.subset hm)).trans_le hn
  uploads up hm := (h.uploads up (hu.subset hm)).trans_le hn
  queries q hm := (h.queries q (hq.subset hm)).trans_le hn
  scan_once := h.scan_once.sublist (hs.map _)
  query_once := h.query_once.sublist (hq.map _)
  scan_upload s hm up hm' := h.scan_upload s (hs.subset hm) up (hu.subset hm')
  scan_query s hm q hm' := h.scan_query s (hs.subset hm) q (hq.subset hm')
  same q hm up hm' := h.same q (hq.subset hm) up (hu.subset hm')

theorem Numbered.of_eq {n m : ℕ} (h : dev.Numbered n) (hn : n ≤ m) (hs : dev'.scans = dev.scans)
    (hu : dev'.uploads = dev.uploads) (hq : dev'.queries = dev.queries) : dev'.Numbered m :=
  h.of_sublist hn (by rw [hs]) (by rw [hu]) (by rw [hq])

/-- The next photo is sent to be scanned. -/
theorem Numbered.capture {n : ℕ} (h : dev.Numbered n) {scan : Scan} (hscan : scan.photo.serial = n)
    (hs : dev'.scans = dev.scans ++ [scan]) (hu : dev'.uploads = dev.uploads)
    (hq : dev'.queries = dev.queries) : dev'.Numbered (n + 1) where
  scans s hm := by
    rw [hs] at hm
    rcases List.mem_append.1 hm with hm | hm
    · have := h.scans s hm
      omega
    · obtain rfl := List.mem_singleton.1 hm
      omega
  uploads up hm := by
    rw [hu] at hm
    have := h.uploads up hm
    omega
  queries q hm := by
    rw [hq] at hm
    have := h.queries q hm
    omega
  scan_once := by
    rw [hs]
    refine Outstanding.nodup_map_concat h.scan_once fun s hm => ?_
    have := h.scans s hm
    omega
  query_once := by
    rw [hq]
    exact h.query_once
  scan_upload s hm up hm' := by
    rw [hs] at hm
    rw [hu] at hm'
    rcases List.mem_append.1 hm with hm | hm
    · exact h.scan_upload s hm up hm'
    · obtain rfl := List.mem_singleton.1 hm
      have := h.uploads up hm'
      omega
  scan_query s hm q hm' := by
    rw [hs] at hm
    rw [hq] at hm'
    rcases List.mem_append.1 hm with hm | hm
    · exact h.scan_query s hm q hm'
    · obtain rfl := List.mem_singleton.1 hm
      have := h.queries q hm'
      omega
  same := by
    rw [hu, hq]
    exact h.same

/-- A scan is accepted: its photo moves on to an upload and a query. -/
theorem Numbered.accept {n : ℕ} (h : dev.Numbered n) {i : ℕ} {scan : Scan}
    (hscan : dev.scans[i]? = some scan) (hid : scan.challenge.id.isSome = true) (r : ℚ)
    (imageUUID : String) (pngData : Bool) :
    ((dev.endScan i scan reply).snapAccepted scan r imageUUID pngData).Numbered n := by
  have hmem : scan ∈ dev.scans := List.mem_of_getElem? hscan
  have hother : ∀ s ∈ dev.scans.eraseIdx i, s.photo.serial ≠ scan.photo.serial :=
    Outstanding.ne_of_mem_eraseIdx h.scan_once hscan
  have hsub : ∀ s ∈ dev.scans.eraseIdx i, s ∈ dev.scans := (List.eraseIdx_sublist _ _).subset
  have hs : ((dev.endScan i scan reply).snapAccepted scan r imageUUID pngData).scans = dev.scans.eraseIdx i :=
    snapAccepted_scans ..
  have hup : ∀ up ∈ ((dev.endScan i scan reply).snapAccepted scan r imageUUID pngData).uploads,
      up ∈ dev.uploads ∨ up.photo = scan.photo ∧ up.challenge = scan.challenge := by
    intro up hm
    rw [snapAccepted_uploads] at hm
    rcases List.mem_append.1 hm with hm | hm
    · exact .inl hm
    · split at hm
      · obtain rfl := List.mem_singleton.1 hm
        exact .inr ⟨rfl, rfl⟩
      · simp at hm
  have hqs : ((dev.endScan i scan reply).snapAccepted scan r imageUUID pngData).queries =
      dev.queries ++ [⟨scan.photo, scan.challenge.document, none⟩] := snapAccepted_queries ..
  have hq : ∀ q ∈ ((dev.endScan i scan reply).snapAccepted scan r imageUUID pngData).queries,
      q ∈ dev.queries ∨ q = ⟨scan.photo, scan.challenge.document, none⟩ := by
    intro q hm
    rw [hqs] at hm
    rcases List.mem_append.1 hm with hm | hm
    · exact .inl hm
    · exact .inr (List.mem_singleton.1 hm)
  constructor
  · intro s hm
    rw [hs] at hm
    exact h.scans s (hsub s hm)
  · intro up hm
    rcases hup up hm with hm | ⟨hp, -⟩
    · exact h.uploads up hm
    · rw [hp]
      exact h.scans scan hmem
  · intro q hm
    rcases hq q hm with hm | rfl
    · exact h.queries q hm
    · exact h.scans scan hmem
  · rw [hs]
    exact h.scan_once.sublist ((List.eraseIdx_sublist _ _).map _)
  · rw [hqs]
    exact Outstanding.nodup_map_concat h.query_once fun q hm => h.scan_query scan hmem q hm
  · intro s hm up hm'
    rw [hs] at hm
    rcases hup up hm' with hm' | ⟨hp, -⟩
    · exact h.scan_upload s (hsub s hm) up hm'
    · rw [hp]
      exact (hother s hm).symm
  · intro s hm q hm'
    rw [hs] at hm
    rcases hq q hm' with hm' | rfl
    · exact h.scan_query s (hsub s hm) q hm'
    · exact (hother s hm).symm
  · intro q hm up hm' heq
    obtain ⟨c, hc⟩ := Option.isSome_iff_exists.1 hid
    rcases hq q hm with hm | rfl
    · rcases hup up hm' with hm' | ⟨hp, -⟩
      · exact h.same q hm up hm' heq
      · exact absurd (congrArg Photo.serial (hp.symm.trans heq)).symm (h.scan_query scan hmem q hm)
    · rcases hup up hm' with hm' | ⟨-, hch⟩
      · exact absurd (congrArg Photo.serial heq) (h.scan_upload scan hmem up hm')
      · simp [hch, hc, Challenge.document]

theorem Effect.numbered {n m : ℕ} {e : Event} (h : Effect dev e dev') (he : e.ledger = true)
    (hn : n ≤ m) (hcap : ∀ serial ch oneCoord loc enc, e = .capture serial ch oneCoord loc enc →
      serial = n ∧ m = n + 1)
    (hid : ∀ i scan reply r imageUUID pngData, e = .scanReply i reply r imageUUID pngData →
      dev.scans[i]? = some scan →
      plantScannerReply reply scan.challenge.expectedPlant = some true →
      scan.challenge.id.isSome = true ∧ m = n)
    (hI : dev.Numbered n) : dev'.Numbered m := by
  cases h with
  | captureSent hv =>
    obtain ⟨rfl, rfl⟩ := hcap _ _ _ _ _ rfl
    refine hI.capture ?_ rfl rfl rfl
    rfl
  | scanAccepted hscan hreply hlo hhi hcount =>
    obtain ⟨hsome, rfl⟩ := hid _ _ _ _ _ _ rfl hscan hreply
    exact hI.accept hscan hsome _ _ _
  | scanRejected hscan hreply =>
    exact hI.of_sublist hn (List.eraseIdx_sublist _ _) (List.Sublist.refl _) (List.Sublist.refl _)
  | uploadFailed hup =>
    exact hI.of_sublist hn (List.Sublist.refl _) (List.eraseIdx_sublist _ _) (List.Sublist.refl _)
  | @uploaded i up date hup =>
    have hend : ((dev.endUpload i).noteStored up).Numbered m :=
      hI.of_sublist hn (List.Sublist.refl _) (List.eraseIdx_sublist _ _) (List.Sublist.refl _)
    exact hend.of_eq le_rfl (by simp) (by simp) (by simp)
  | queryFailed hq =>
    exact hI.of_sublist hn (List.Sublist.refl _) (List.Sublist.refl _) (List.eraseIdx_sublist _ _)
  | @queryAnswered i q docs hq hdocs hcount =>
    have hend : (dev.endQuery i).Numbered m :=
      hI.of_sublist hn (List.Sublist.refl _) (List.Sublist.refl _) (List.eraseIdx_sublist _ _)
    exact hend.of_eq le_rfl (by simp) (by simp) (by simp)
  | selectTab | pressWithdrawal | mailSent | mailNotSent | noLocation | captureUnsent =>
    exact hI.of_eq hn rfl rfl rfl
  | _ => simp [Event.ledger] at he

/-! ## Claims -/

/-- An entry of `u` is queued, or uploading behind a query that has been answered. -/
def Claims (u : Uid) (dev : Device) (c : String) : Prop := dev.Adds u c ∨ dev.Passed c

/-- A query that has not been answered finds an entry, or the upload of its snap is outstanding. -/
def Owned (u : Uid) (s : Server) (dev : Device) : Prop :=
  ∀ q ∈ dev.queries, q.reply = none → s.HasEntry u q.document ∨ dev.Adds u q.document ∨
    ∃ up ∈ dev.uploads, up.photo = q.photo

theorem adds_append (dev : Device) {new : List Issued} (h : dev'.queue = dev.queue ++ new) (c : String) :
    dev'.Adds u c ↔ dev.Adds u c ∨ ∃ x ∈ new, x.write.entryFor u = some c := by
  unfold Adds
  rw [h]
  constructor
  · rintro ⟨x, hx, hc⟩
    rcases List.mem_append.1 hx with hx | hx
    · exact .inl ⟨x, hx, hc⟩
    · exact .inr ⟨x, hx, hc⟩
  · rintro (⟨x, hx, hc⟩ | ⟨x, hx, hc⟩)
    · exact ⟨x, List.mem_append_left _ hx, hc⟩
    · exact ⟨x, List.mem_append_right _ hx, hc⟩

theorem adds_of_eq (h : dev'.queue = dev.queue) (c : String) : dev'.Adds u c ↔ dev.Adds u c := by
  unfold Adds
  rw [h]

/-- Writes that add no entry. -/
theorem adds_append_none (dev : Device) {new : List Issued} (h : dev'.queue = dev.queue ++ new)
    (hnew : ∀ x ∈ new, x.write.entryFor u = none) (c : String) : dev'.Adds u c ↔ dev.Adds u c := by
  rw [adds_append dev h]
  refine or_iff_left ?_
  rintro ⟨x, hx, hc⟩
  rw [hnew x hx] at hc
  cases hc

/-- The write that follows an upload adds an entry to its challenge. -/
theorem adds_uploaded (hu : dev.currentUser = some u) (i : ℕ) (up : Upload) (date : ℚ) (c : String) :
    (((dev.endUpload i).noteStored up).uploadEntries up.photo up.path up.lat up.long date
      up.challenge).Adds u c ↔ dev.Adds u c ∨ up.challenge.id = some c := by
  cases hid : up.challenge.id with
  | none =>
    rw [uploadEntries_none _ _ _ _ _ _ hid]
    simp [Adds, noteStored, endUpload]
  | some c' =>
    rw [uploadEntries_some ((dev.endUpload i).noteStored up) hu _ _ _ _ _ hid]
    have hqueue : (((dev.endUpload i).noteStored up).issue (.photo up.photo) (.addDocument c'
        ⟨some u.val, some up.path, some up.lat, some up.long, some date⟩)).queue =
        dev.queue ++ [⟨.addDocument c' ⟨some u.val, some up.path, some up.lat, some up.long,
          some date⟩, .photo up.photo⟩] := rfl
    rw [adds_append dev hqueue]
    simp [Write.entryFor]

theorem adds_entriesReply (photo : Photo) (docs : List Entry) (c : String) :
    (dev.entriesReply photo docs).Adds u c ↔ dev.Adds u c := by
  obtain ⟨new, hqueue, hnew⟩ := dev.entriesReply_queue photo docs
  refine adds_append_none dev hqueue (fun x hx => ?_) c
  rw [hnew x hx]
  rfl

theorem claims_of_eq (hqueue : dev'.queue = dev.queue) (huploads : dev'.uploads = dev.uploads)
    (hqueries : dev'.queries = dev.queries) (c : String) : dev'.Claims u c ↔ dev.Claims u c := by
  unfold Claims Passed Waiting
  rw [adds_of_eq hqueue, huploads, hqueries]

/-- The snap that is accepted claims nothing yet: its upload waits for its query. -/
theorem Numbered.accept_claims {n : ℕ} (hI : dev.Numbered n) {i : ℕ} {scan : Scan}
    (hscan : dev.scans[i]? = some scan) (r : ℚ) (imageUUID c : String) :
    ((dev.endScan i scan reply).snapAccepted scan r imageUUID true).Claims u c ↔ dev.Claims u c := by
  have hmem : scan ∈ dev.scans := List.mem_of_getElem? hscan
  have hadds : ((dev.endScan i scan reply).snapAccepted scan r imageUUID true).Adds u c ↔ dev.Adds u c := by
    rw [adds_append (dev.endScan i scan reply) (snapAccepted_queue ..)]
    simp [Write.entryFor, Adds, endScan]
  -- the new query is for another photo than the uploads that were there
  have hwait : ∀ up ∈ dev.uploads,
      ((dev.endScan i scan reply).snapAccepted scan r imageUUID true).Waiting up ↔ dev.Waiting up := by
    intro up hup
    have hne : scan.photo ≠ up.photo := fun heq =>
      hI.scan_upload scan hmem up hup (congrArg Photo.serial heq.symm)
    have hqs : (dev.endScan i scan reply).queries = dev.queries := rfl
    unfold Waiting
    rw [snapAccepted_queries, hqs]
    simp [or_and_right, exists_or, hne]
  have hpassed : ((dev.endScan i scan reply).snapAccepted scan r imageUUID true).Passed c ↔ dev.Passed c := by
    constructor
    · rintro ⟨up, hup, hid, hw⟩
      rw [snapAccepted_uploads, if_pos rfl] at hup
      rcases List.mem_append.1 hup with hup | hup
      · exact ⟨up, hup, hid, fun h => hw ((hwait up hup).2 h)⟩
      · obtain rfl := List.mem_singleton.1 hup
        refine absurd ⟨⟨scan.photo, scan.challenge.document, none⟩, ?_, rfl, rfl⟩ hw
        rw [snapAccepted_queries]
        exact List.mem_append_right _ (List.mem_singleton.2 rfl)
    · rintro ⟨up, hup, hid, hw⟩
      refine ⟨up, ?_, hid, fun h => hw ((hwait up hup).1 h)⟩
      rw [snapAccepted_uploads]
      exact List.mem_append_left _ hup
  unfold Claims
  rw [hadds, hpassed]

/-- An upload that ends gives up its claim and queues its entry instead. -/
theorem claims_uploaded (hu : dev.currentUser = some u) (i : ℕ) (up : Upload) (date : ℚ) (c : String) :
    (((dev.endUpload i).noteStored up).uploadEntries up.photo up.path up.lat up.long date
      up.challenge).Claims u c ↔ (dev.Adds u c ∨ up.challenge.id = some c) ∨
        (dev.endUpload i).Passed c := by
  have hpassed : (((dev.endUpload i).noteStored up).uploadEntries up.photo up.path up.lat up.long
      date up.challenge).Passed c ↔ (dev.endUpload i).Passed c := by
    unfold Passed Waiting
    rw [uploadEntries_uploads, uploadEntries_queries]
    exact Iff.rfl
  unfold Claims
  rw [adds_uploaded hu, hpassed]

theorem passed_endUpload {i : ℕ} {up : Upload} (hup : dev.uploads[i]? = some up) (c : String) :
    dev.Passed c ↔ (up.challenge.id = some c ∧ ¬ dev.Waiting up) ∨ (dev.endUpload i).Passed c := by
  constructor
  · rintro ⟨up', hup', hid, hw⟩
    rcases (Outstanding.mem_iff_eraseIdx hup).1 hup' with rfl | hup'
    · exact .inl ⟨hid, hw⟩
    · exact .inr ⟨up', hup', hid, hw⟩
  · rintro (⟨hid, hw⟩ | ⟨up', hup', hid, hw⟩)
    · exact ⟨up, List.mem_of_getElem? hup, hid, hw⟩
    · exact ⟨up', (List.eraseIdx_sublist _ _).subset hup', hid, hw⟩

/-- Delivering the answer to a query does not make its upload wait again. -/
theorem claims_endQuery {i : ℕ} {q : Query} {docs : List Entry} (hq : dev.queries[i]? = some q)
    (hdocs : q.reply = some docs) (c : String) : (dev.endQuery i).Claims u c ↔ dev.Claims u c := by
  have hwait : ∀ up, (dev.endQuery i).Waiting up ↔ dev.Waiting up := by
    intro up
    constructor
    · rintro ⟨q', hm, hp, hr⟩
      exact ⟨q', (List.eraseIdx_sublist _ _).subset hm, hp, hr⟩
    · rintro ⟨q', hm, hp, hr⟩
      rcases (Outstanding.mem_iff_eraseIdx hq).1 hm with rfl | hm
      · simp [hdocs] at hr
      · exact ⟨q', hm, hp, hr⟩
  unfold Claims Passed
  simp only [hwait]
  exact Iff.rfl

/-- An event keeps the claims, in the order that the participations need, and makes none that was not
one before or an entry already. -/
theorem LedgerEffect.claims {n : ℕ} {e : Event} (h : LedgerEffect dev e dev')
    (hu : dev.currentUser = some u) (hI : dev.Numbered n) (hok : e.succeeds = true)
    (hc : ∀ i date up c, e = .uploadReply i false date → dev.uploads[i]? = some up →
      up.challenge.id = some c → (s.HasEntry u c ∨ dev.Adds u c) ∨ ¬ dev.Waiting up) (c : String) :
    (dev.Claims u c → dev'.Claims u c) ∧ (dev'.Claims u c → s.HasEntry u c ∨ dev.Claims u c) := by
  -- all events but the end of an upload leave the claims as they are
  have hkeep : (dev'.Claims u c ↔ dev.Claims u c) →
      (dev.Claims u c → dev'.Claims u c) ∧ (dev'.Claims u c → s.HasEntry u c ∨ dev.Claims u c) :=
    fun hiff => ⟨hiff.2, fun hcl => .inr (hiff.1 hcl)⟩
  cases h with
  | same h he => exact hkeep (claims_of_eq h.queue h.uploads h.queries c)
  | @accepted i scan reply r imageUUID pngData hscan hreply hlo hhi =>
    obtain rfl : pngData = true := hok
    exact hkeep (hI.accept_claims hscan r imageUUID c)
  | @sent amount hm =>
    have hadds : (dev.mailComposeController amount .sent).Adds u c ↔ dev.Adds u c :=
      adds_append_none dev (mailComposeController_sent_queue ..) (by simp [Write.entryFor]) c
    exact hkeep (or_congr hadds Iff.rfl)
  | uploadFailed hup => simp [Event.succeeds] at hok
  | @uploaded i up date hup =>
    rw [claims_uploaded hu]
    constructor
    · rintro (hadd | hp)
      · exact .inl (.inl hadd)
      · rcases (passed_endUpload hup c).1 hp with ⟨hid, -⟩ | hp
        · exact .inl (.inr hid)
        · exact .inr hp
    · rintro ((hadd | hid) | hp)
      · exact .inr (.inl hadd)
      · rcases hc i date up c rfl hup hid with (hhas | hadd) | hw
        · exact .inl hhas
        · exact .inr (.inl hadd)
        · exact .inr (.inr ((passed_endUpload hup c).2 (.inl ⟨hid, hw⟩)))
      · exact .inr (.inr ((passed_endUpload hup c).2 (.inr hp)))
  | queryFailed hq => simp [Event.succeeds] at hok
  | @queryAnswered i q docs hq hdocs =>
    have hpassed : ((dev.endQuery i).entriesReply q.photo docs).Passed c ↔
        (dev.endQuery i).Passed c := by
      simp [Passed, Waiting]
    exact hkeep ((or_congr (adds_entriesReply _ _ _) hpassed).trans (claims_endQuery hq hdocs c))

theorem LedgerEffect.owned {n : ℕ} {e : Event} (h : LedgerEffect dev e dev')
    (hu : dev.currentUser = some u) (hI : dev.Numbered n) (hok : e.succeeds = true)
    (ho : dev.Owned u s) : dev'.Owned u s := by
  cases h with
  | same h he =>
    intro q hq hr
    rw [h.queries] at hq
    rw [adds_of_eq h.queue, h.uploads]
    exact ho q hq hr
  | @accepted i scan reply r imageUUID pngData hscan hreply hlo hhi =>
    obtain rfl : pngData = true := hok
    intro q hq hr
    rw [snapAccepted_queries] at hq
    rw [adds_append (dev.endScan i scan reply) (snapAccepted_queue ..), snapAccepted_uploads, if_pos rfl]
    rcases List.mem_append.1 hq with hq | hq
    · rcases ho q hq hr with hs | ha | ⟨up, hup, hp⟩
      · exact .inl hs
      · exact .inr (.inl (.inl ha))
      · exact .inr (.inr ⟨up, List.mem_append_left _ hup, hp⟩)
    · obtain rfl := List.mem_singleton.1 hq
      exact .inr (.inr ⟨_, List.mem_append_right _ (List.mem_singleton.2 rfl), rfl⟩)
  | @sent amount hm =>
    intro q hq hr
    rw [adds_append dev (mailComposeController_sent_queue ..)]
    rcases ho q hq hr with hs | ha | hup
    · exact .inl hs
    · exact .inr (.inl (.inl ha))
    · exact .inr (.inr hup)
  | uploadFailed hup => simp [Event.succeeds] at hok
  | @uploaded i up date hup =>
    -- the upload of the query's own snap is replaced by its entry
    have hend : ∀ q ∈ dev.queries, q.reply = none → s.HasEntry u q.document ∨
        dev.Adds u q.document ∨ up.challenge.id = some q.document ∨
        ∃ up' ∈ dev.uploads.eraseIdx i, up'.photo = q.photo := by
      intro q hq hr
      rcases ho q hq hr with hs | ha | ⟨up', hup', hp⟩
      · exact .inl hs
      · exact .inr (.inl ha)
      · rcases (Outstanding.mem_iff_eraseIdx hup).1 hup' with rfl | hup'
        · exact .inr (.inr (.inl (hI.same q hq up' (List.mem_of_getElem? hup) hp)))
        · exact .inr (.inr (.inr ⟨up', hup', hp⟩))
    intro q hq hr
    rw [uploadEntries_queries] at hq
    rw [adds_uploaded hu, uploadEntries_uploads]
    rcases hend q hq hr with hs | ha | hid | hup'
    · exact .inl hs
    · exact .inr (.inl (.inl ha))
    · exact .inr (.inl (.inr hid))
    · exact .inr (.inr hup')
  | queryFailed hq => simp [Event.succeeds] at hok
  | @queryAnswered i q docs hq hdocs =>
    intro q' hq' hr
    rw [entriesReply_queries] at hq'
    rw [adds_entriesReply, entriesReply_uploads]
    exact ho q' ((List.eraseIdx_sublist _ _).subset hq') hr

/-! ## The count in flight -/

/-- The participations on their way to the counter: the queued increments, and the negative answers
that have not been delivered yet. -/
def participations (u : Uid) (dev : Device) : ℚ :=
  (dev.queue.map Issued.participations).sum + (dev.queries.countP (Query.negative u) : ℕ)

theorem doesHaveCurrentUserEntrie_eq (hu : dev.currentUser = some u) (docs : List Entry) :
    dev.doesHaveCurrentUserEntrie docs = docs.any fun e => decide (e.host = some u.val) := by
  unfold doesHaveCurrentUserEntrie
  refine congrArg (List.any docs) (funext fun e => ?_)
  rw [hu]
  cases e.host with
  | none => simpa using u.ne_error.symm
  | some h => simp [beq_eq_decide]

theorem LedgerEffect.participations {e : Event} (h : LedgerEffect dev e dev')
    (hu : dev.currentUser = some u) (hok : e.succeeds = true) :
    dev'.participations u = dev.participations u := by
  cases h with
  | same h he => simp [Device.participations, h.queue, h.queries]
  | @accepted i scan reply r imageUUID pngData hscan hreply hlo hhi =>
    have hq : (dev.endScan i scan reply).queue = dev.queue := rfl
    have hqs : (dev.endScan i scan reply).queries = dev.queries := rfl
    simp only [Device.participations, snapAccepted_queue, snapAccepted_queries, hq, hqs,
      List.map_append, List.sum_append, List.countP_append]
    simp [Issued.participations, Query.negative]
  | @sent amount hm =>
    have hqs : (dev.mailComposeController amount .sent).queries = dev.queries := rfl
    simp [Device.participations, hqs, Issued.participations]
  | uploadFailed hup => rfl
  | @uploaded i up date hup =>
    unfold uploadEntries
    split
    · rfl
    · split
      · rfl
      · simp [Device.participations, issue, noteStored, endUpload, Issued.participations]
  | queryFailed hq => simp [Event.succeeds] at hok
  | @queryAnswered i q docs hq hdocs =>
    have hcount := Outstanding.countP_eraseIdx (Query.negative u) hq
    have hu' : (dev.endQuery i).currentUser = some u := hu
    have hneg : Query.negative u q = !(dev.endQuery i).doesHaveCurrentUserEntrie docs := by
      simp [Query.negative, hdocs, doesHaveCurrentUserEntrie_eq hu']
    cases hb : (dev.endQuery i).doesHaveCurrentUserEntrie docs with
    | true =>
      rw [hneg, hb] at hcount
      rw [entriesReply_pos _ hb]
      simp [Device.participations, endQuery, hcount]
    | false =>
      rw [hneg, hb] at hcount
      rw [entriesReply_neg _ hb]
      simp only [Device.participations, issue, countLocal, endQuery, hcount, List.map_append,
        List.sum_append]
      simp [Issued.participations]
      ring

/-! ## The answer to a query -/

section Answer

variable {i : ℕ} {q : Query} (docs : List Entry)

/-- The other queries are for other photos. -/
theorem Numbered.query_ne {n : ℕ} (h : dev.Numbered n) (hq : dev.queries[i]? = some q) :
    ∀ q' ∈ dev.queries.eraseIdx i, q'.photo ≠ q.photo := by
  intro q' hm heq
  exact Outstanding.ne_of_mem_eraseIdx h.query_once hq q' hm (congrArg Photo.serial heq)

theorem Numbered.answer {n : ℕ} (h : dev.Numbered n) (hq : dev.queries[i]? = some q) :
    (dev.answerQuery i q docs).Numbered n := by
  have hmem : ∀ q' ∈ (dev.answerQuery i q docs).queries, ∃ q'' ∈ dev.queries,
      q'.photo = q''.photo ∧ q'.document = q''.document := by
    intro q' hm
    rcases (Outstanding.mem_set hq).1 hm with rfl | hm
    · exact ⟨q, List.mem_of_getElem? hq, rfl, rfl⟩
    · exact ⟨q', (List.eraseIdx_sublist _ _).subset hm, rfl, rfl⟩
  refine ⟨h.scans, h.uploads, fun q' hm => ?_, h.scan_once, ?_, h.scan_upload, fun s hs q' hm => ?_,
    fun q' hm up hup heq => ?_⟩
  · obtain ⟨q'', hm'', hp, -⟩ := hmem q' hm
    rw [hp]
    exact h.queries q'' hm''
  · have hperm : ((dev.answerQuery i q docs).queries.map fun q => q.photo.serial).Perm
        (dev.queries.map fun q => q.photo.serial) := by
      refine ((Outstanding.perm_set hq).map _).trans ?_
      exact (Outstanding.perm_cons_eraseIdx hq).map fun q => q.photo.serial
    exact hperm.nodup_iff.2 h.query_once
  · obtain ⟨q'', hm'', hp, -⟩ := hmem q' hm
    rw [hp]
    exact h.scan_query s hs q'' hm''
  · obtain ⟨q'', hm'', hp, hd⟩ := hmem q' hm
    rw [hd]
    exact h.same q'' hm'' up hup (heq.trans hp)

theorem Owned.answer (ho : dev.Owned u s) (hq : dev.queries[i]? = some q) :
    (dev.answerQuery i q docs).Owned u s := by
  intro q' hm hr
  rcases (Outstanding.mem_set hq).1 hm with rfl | hm
  · simp at hr
  · exact ho q' ((List.eraseIdx_sublist _ _).subset hm) hr

/-- The answer releases the upload of the same snap, and no other. -/
theorem answerQuery_waiting {n : ℕ} (h : dev.Numbered n) (hq : dev.queries[i]? = some q)
    (up : Upload) :
    (dev.answerQuery i q docs).Waiting up ↔ dev.Waiting up ∧ up.photo ≠ q.photo := by
  constructor
  · rintro ⟨q', hm, hp, hr⟩
    rcases (Outstanding.mem_set hq).1 hm with rfl | hm
    · simp at hr
    · exact ⟨⟨q', (List.eraseIdx_sublist _ _).subset hm, hp, hr⟩, hp ▸ h.query_ne hq q' hm⟩
  · rintro ⟨⟨q', hm, hp, hr⟩, hne⟩
    rcases (Outstanding.mem_iff_eraseIdx hq).1 hm with rfl | hm
    · exact absurd hp.symm hne
    · exact ⟨q', (Outstanding.mem_set hq).2 (.inr hm), hp, hr⟩

/-- So the answer claims the challenge of its query, if the upload is still outstanding. -/
theorem answerQuery_claims {n : ℕ} (h : dev.Numbered n) (hq : dev.queries[i]? = some q) (c : String) :
    (dev.answerQuery i q docs).Claims u c ↔
      dev.Claims u c ∨ c = q.document ∧ ∃ up ∈ dev.uploads, up.photo = q.photo := by
  have hadds : (dev.answerQuery i q docs).Adds u c ↔ dev.Adds u c := Iff.rfl
  unfold Claims
  rw [hadds, or_assoc]
  refine or_congr_right ?_
  constructor
  · rintro ⟨up, hup, hid, hw⟩
    rw [answerQuery_waiting docs h hq] at hw
    by_cases hp : up.photo = q.photo
    · have hdoc := h.same q (List.mem_of_getElem? hq) up hup hp
      exact .inr ⟨Option.some.inj (hid.symm.trans hdoc), up, hup, hp⟩
    · exact .inl ⟨up, hup, hid, fun hw' => hw ⟨hw', hp⟩⟩
  · rintro (⟨up, hup, hid, hw⟩ | ⟨rfl, up, hup, hp⟩)
    · refine ⟨up, hup, hid, fun hw' => hw ?_⟩
      exact ((answerQuery_waiting docs h hq up).1 hw').1
    · refine ⟨up, hup, h.same q (List.mem_of_getElem? hq) up hup hp, fun hw' => ?_⟩
      exact ((answerQuery_waiting docs h hq up).1 hw').2 hp

theorem answerQuery_participations (hq : dev.queries[i]? = some q) (hnone : q.reply = none) :
    (dev.answerQuery i q docs).participations u = dev.participations u +
      if docs.any (fun e => decide (e.host = some u.val)) = true then 0 else 1 := by
  have hcount := Outstanding.countP_eraseIdx (Query.negative u) hq
  have hset : (dev.answerQuery i q docs).queries.countP (Query.negative u) =
      (dev.queries.eraseIdx i).countP (Query.negative u) +
        if docs.any (fun e => decide (e.host = some u.val)) = true then 0 else 1 := by
    rw [answerQuery, (Outstanding.perm_set hq).countP_eq, List.countP_cons]
    have hans : Query.negative u { q with reply := some docs } =
        !docs.any fun e => decide (e.host = some u.val) := rfl
    rw [hans]
    by_cases hd : docs.any (fun e => decide (e.host = some u.val)) = true
    · rw [if_pos hd, hd]
      rfl
    · rw [if_neg hd, eq_false_of_ne_true hd]
      rfl
  have hneg : Query.negative u q = false := by simp [Query.negative, hnone]
  have hqueue : (dev.answerQuery i q docs).queue = dev.queue := rfl
  rw [hneg] at hcount
  unfold Device.participations
  rw [hset, hqueue, hcount]
  push_cast
  ring

end Answer

end Device

namespace Server

variable {s : Server} {u : Uid}

theorem hasEntry_apply (x : Write) (c : String) :
    (s.apply x).HasEntry u c ↔ s.HasEntry u c ∨ x.entryFor u = some c := by
  cases x with
  | addDocument c' e =>
    by_cases he : e.host = some u.val
    · simp [HasEntry, Write.entryFor, he, or_and_right, exists_or]
    · simp [HasEntry, Write.entryFor, he, or_and_right, exists_or]
  | setData | increment | updateData => simp [HasEntry, Write.entryFor, apply, updateUser]

theorem hasEntry_foldl_apply (ws : List Write) (c : String) :
    (ws.foldl apply s).HasEntry u c ↔ s.HasEntry u c ∨ ∃ x ∈ ws, x.entryFor u = some c := by
  induction ws generalizing s with
  | nil => simp
  | cons x ws ih =>
    rw [List.foldl_cons, ih, hasEntry_apply, or_assoc]
    simp

theorem any_entriesOf (c : String) :
    (s.entriesOf c).any (fun e => decide (e.host = some u.val)) = true ↔ s.HasEntry u c := by
  simp [entriesOf, HasEntry]

end Server

namespace World

variable {ι : Type*} [DecidableEq ι] {w w' : World ι} {u : Uid}

omit [DecidableEq ι] in
/-- The answer to a query has an entry of `u` exactly when the phone sees one. -/
theorem any_localView (d : ι) (c : String) :
    ((w.localView d).entriesOf c).any (fun e => decide (e.host = some u.val)) = true ↔
      w.Sees u d c := by
  rw [Server.any_entriesOf, localView, Server.hasEntry_foldl_apply]
  simp [Sees, Device.Adds]

/-- A change of one phone that neither makes nor loses a claim. -/
theorem claimed_setDevice {d : ι} {dev' : Device} {c : String}
    (hkeep : (w.devices d).Claims u c → dev'.Claims u c)
    (hback : dev'.Claims u c → w.server.HasEntry u c ∨ (w.devices d).Claims u c) :
    (w.setDevice d dev').Claimed u c ↔ w.Claimed u c := by
  constructor
  · rintro (hs | ⟨d', hcl⟩)
    · exact .inl hs
    · by_cases hdd : d' = d
      · subst hdd
        rw [setDevice_self] at hcl
        exact (hback hcl).imp_right fun h => ⟨d', h⟩
      · rw [setDevice_of_ne _ _ hdd] at hcl
        exact .inr ⟨d', hcl⟩
  · rintro (hs | ⟨d', hcl⟩)
    · exact .inl hs
    · refine .inr ⟨d', ?_⟩
      by_cases hdd : d' = d
      · subst hdd
        rw [setDevice_self]
        exact hkeep hcl
      · rw [setDevice_of_ne _ _ hdd]
        exact hcl

/-- Applying a write turns a queued entry into a stored one. -/
theorem claimed_apply {d : ι} {x : Issued} {rest : List Issued}
    (hq : (w.devices d).queue = x :: rest) (c : String) :
    ((w.setDevice d ((w.devices d).setQueue rest)).commit x).Claimed u c ↔ w.Claimed u c := by
  have hadds : (w.devices d).Adds u c ↔ x.write.entryFor u = some c ∨
      ((w.devices d).setQueue rest).Adds u c := by
    simp [Device.Adds, Device.setQueue, hq]
  have hserver : ((w.setDevice d ((w.devices d).setQueue rest)).commit x).server.HasEntry u c ↔
      w.server.HasEntry u c ∨ x.write.entryFor u = some c := Server.hasEntry_apply _ _
  constructor
  · rintro (hs | ⟨d', hcl⟩)
    · rcases hserver.1 hs with hs | hx
      · exact .inl hs
      · exact .inr ⟨d, .inl (hadds.2 (.inl hx))⟩
    · refine .inr ⟨d', ?_⟩
      by_cases hdd : d' = d
      · subst hdd
        have hcl' : ((w.devices d').setQueue rest).Claims u c := by
          simpa [commit, Device.Claims] using hcl
        exact hcl'.imp (fun ha => hadds.2 (.inr ha)) id
      · simpa [commit, hdd] using hcl
  · rintro (hs | ⟨d', hcl⟩)
    · exact .inl (hserver.2 (.inl hs))
    · by_cases hdd : d' = d
      · subst hdd
        rcases hcl with ha | hp
        · rcases hadds.1 ha with hx | ha
          · exact .inl (hserver.2 (.inr hx))
          · exact .inr ⟨d', .inl (by simpa [commit] using ha)⟩
        · have hp' : ((w.devices d').setQueue rest).Passed c := hp
          exact .inr ⟨d', .inr (by simpa [commit] using hp')⟩
      · exact .inr ⟨d', by simpa [commit, hdd] using hcl⟩

theorem counter_apply_participations {x : Issued} (hx : x.Ledger u) {s : Server}
    (hn : ∃ f, s.users u.val = some f) :
    (s.apply x.write).counter u .challengesCompletedLocal =
      s.counter u .challengesCompletedLocal + x.participations := by
  cases hx with
  | snap p => rw [Server.counter_increment hn]; simp [Issued.participations]
  | credit p r hlo hhi => rw [Server.counter_increment hn]; simp [Issued.participations]
  | first p => rw [Server.counter_increment hn]; simp [Issued.participations]
  | payout a => rw [Server.counter_updateData hn]; simp [Issued.participations]
  | entry p c e he => simp [Issued.participations]

/-! ## The invariant -/

variable [Fintype ι]

/-- The counter and everything on its way to it. -/
def participations (u : Uid) (w : World ι) : ℚ :=
  w.server.counter u .challengesCompletedLocal + ∑ d, (w.devices d).participations u

/-- The participations that were counted since `w₀` are the challenges claimed since then. -/
structure ParticipationInv (u : Uid) (w₀ w : World ι) : Prop extends w.LedgerInv u where
  numbered : ∀ d, (w.devices d).Numbered w.photos
  owned : ∀ d, (w.devices d).Owned u w.server
  kept : ∀ c, w₀.server.HasEntry u c → w.server.HasEntry u c
  counted : ∃ claimed : List String, claimed.Nodup ∧
    (∀ c, c ∈ claimed ↔ w.Claimed u c ∧ ¬ w₀.server.HasEntry u c) ∧
    w.participations u = w₀.participations u + claimed.length

omit [DecidableEq ι] in
/-- A step that makes no claim and counts nothing. -/
theorem counted_of_same {w₀ : World ι} (hI : ParticipationInv u w₀ w)
    (hc : ∀ c, w'.Claimed u c ↔ w.Claimed u c) (hp : w'.participations u = w.participations u) :
    ∃ claimed : List String, claimed.Nodup ∧
      (∀ c, c ∈ claimed ↔ w'.Claimed u c ∧ ¬ w₀.server.HasEntry u c) ∧
      w'.participations u = w₀.participations u + claimed.length := by
  obtain ⟨claimed, hnodup, hmem, hcount⟩ := hI.counted
  exact ⟨claimed, hnodup, fun c => by rw [hmem, hc], by rw [hp, hcount]⟩

omit [Fintype ι] in
theorem forall_owned {d : ι} {dev' : Device} (ho : ∀ d, (w.devices d).Owned u w.server)
    (hd : dev'.Owned u w.server) :
    ∀ d', ((w.setDevice d dev').devices d').Owned u (w.setDevice d dev').server :=
  forall_setDevice (P := fun _ dev => dev.Owned u w.server) hd ho

theorem ParticipationInv.app {w₀ : World ι} {d : ι} {e : Event} {dev' : Device}
    (hI : ParticipationInv u w₀ w) (hf : w.fresh e = true) (h : (w.devices d).Effect e dev')
    (he : e.ledger = true) (hok : e.succeeds = true) (hc : w.CountsFirst u (.app d e)) :
    ParticipationInv u w₀ ((w.record e).setDevice d dev') := by
  have hled := h.ledger he
  have hupload : ∀ i date up c, e = .uploadReply i false date →
      (w.devices d).uploads[i]? = some up → up.challenge.id = some c →
      (w.server.HasEntry u c ∨ (w.devices d).Adds u c) ∨ ¬ (w.devices d).Waiting up := by
    rintro i date up c rfl hup hid
    exact hc up hup c hid
  have hcl := fun c => hled.claims (s := w.server) (hI.signedIn d) (hI.numbered d) hok hupload c
  refine ⟨hI.toLedgerInv.step (.app hf hled), ?_, ?_, by simpa using hI.kept, ?_⟩
  · have hphotos : w.photos ≤ (w.record e).photos := by
      cases e <;> simp [record]
    have hdev : dev'.Numbered (w.record e).photos := by
      refine h.numbered he hphotos ?_ ?_ (hI.numbered d)
      · rintro serial ch oneCoord loc enc rfl
        exact ⟨by simpa [fresh] using hf, rfl⟩
      · rintro i scan reply r imageUUID pngData rfl hscan hreply
        exact ⟨hc scan hscan hreply, rfl⟩
    refine forall_setDevice (P := fun _ dev => dev.Numbered (w.record e).photos) hdev fun d' => ?_
    rw [record_devices]
    exact (hI.numbered d').of_eq hphotos rfl rfl rfl
  · refine forall_owned (fun d' => ?_) ?_
    · simpa using hI.owned d'
    · simpa using hled.owned (hI.signedIn d) (hI.numbered d) hok (hI.owned d)
  · refine counted_of_same hI (fun c => ?_) ?_
    · have hrec : (w.record e).Claimed u c ↔ w.Claimed u c := by simp [Claimed]
      rw [← hrec]
      exact claimed_setDevice (by simpa using (hcl c).1) (by simpa using (hcl c).2)
    · have hsum := sum_setDevice (Device.participations u) (w.record e) d dev'
      simp only [record_devices, hled.participations (hI.signedIn d) hok] at hsum
      simp only [participations, setDevice_server, record_server, hsum]
      ring

theorem ParticipationInv.serveQuery {w₀ : World ι} {d : ι} {i : ℕ} {q : Query}
    (hI : ParticipationInv u w₀ w) (hq : (w.devices d).queries[i]? = some q) (hnone : q.reply = none)
    (hc : w.Sees u d q.document ∨ ¬ w.Claimed u q.document) :
    ParticipationInv u w₀ (w.setDevice d
      ((w.devices d).answerQuery i q ((w.localView d).entriesOf q.document))) := by
  have hclaims := fun c => Device.answerQuery_claims (u := u)
    ((w.localView d).entriesOf q.document) (hI.numbered d) hq c
  have hparts := Device.answerQuery_participations (u := u)
    ((w.localView d).entriesOf q.document) hq hnone
  have hsum := sum_setDevice (Device.participations u) w d
    ((w.devices d).answerQuery i q ((w.localView d).entriesOf q.document))
  refine ⟨hI.toLedgerInv.step (.serveQuery hq hnone), ?_, ?_, hI.kept, ?_⟩
  · exact forall_setDevice (P := fun _ dev => dev.Numbered w.photos)
      ((hI.numbered d).answer _ hq) hI.numbered
  · exact forall_owned hI.owned ((hI.owned d).answer _ hq)
  · by_cases hsees : w.Sees u d q.document
    · -- an entry is there: the challenge is claimed already, and the answer is positive
      rw [if_pos ((any_localView d q.document).2 hsees), add_zero] at hparts
      refine counted_of_same hI (fun c => ?_) ?_
      · refine claimed_setDevice (fun h => (hclaims c).2 (.inl h)) fun h => ?_
        rcases (hclaims c).1 h with h | ⟨rfl, -⟩
        · exact .inr h
        · exact hsees.imp_right .inl
      · simp only [participations, setDevice_server, hsum, hparts]
        ring
    · -- no entry is there: the answer is negative, and claims the challenge for the snap's upload
      rw [if_neg fun h => hsees ((any_localView d q.document).1 h)] at hparts
      have hnot : ¬ w.Claimed u q.document := hc.resolve_left hsees
      have hstart : ¬ w₀.server.HasEntry u q.document := fun h => hsees (.inl (hI.kept _ h))
      have hup : ∃ up ∈ (w.devices d).uploads, up.photo = q.photo := by
        rcases hI.owned d q (List.mem_of_getElem? hq) hnone with h | h | h
        · exact absurd (.inl h) hsees
        · exact absurd (.inr h) hsees
        · exact h
      obtain ⟨claimed, hnodup, hmem, hcount⟩ := hI.counted
      refine ⟨q.document :: claimed, ?_, fun c => ?_, ?_⟩
      · refine List.nodup_cons.2 ⟨fun h => hnot ((hmem _).1 h).1, hnodup⟩
      · rw [List.mem_cons, hmem]
        by_cases hcq : c = q.document
        · subst hcq
          refine iff_of_true (.inl rfl) ⟨.inr ⟨d, ?_⟩, hstart⟩
          rw [setDevice_self]
          exact (hclaims _).2 (.inr ⟨rfl, hup⟩)
        · have hiff : (w.setDevice d ((w.devices d).answerQuery i q
              ((w.localView d).entriesOf q.document))).Claimed u c ↔ w.Claimed u c := by
            refine claimed_setDevice (fun h => (hclaims c).2 (.inl h)) fun h => ?_
            exact .inr (((hclaims c).1 h).resolve_right fun h => hcq h.1)
          rw [hiff]
          simp [hcq]
      · simp only [participations, setDevice_server, hsum, hparts, List.length_cons] at hcount ⊢
        push_cast
        linarith

theorem ParticipationInv.applied {w₀ : World ι} {d : ι} {x : Issued} {rest : List Issued}
    (hI : ParticipationInv u w₀ w) (hq : (w.devices d).queue = x :: rest) :
    ParticipationInv u w₀ ((w.setDevice d ((w.devices d).setQueue rest)).commit x) := by
  have hx : x.Ledger u := hI.writes d x (by simp [hq])
  have hmono : ∀ c, w.server.HasEntry u c → (w.server.apply x.write).HasEntry u c := fun c h =>
    (Server.hasEntry_apply _ _).2 (.inl h)
  refine ⟨hI.toLedgerInv.step (.apply hq), ?_, ?_, fun c h => hmono c (hI.kept c h), ?_⟩
  · exact forall_setDevice (P := fun _ dev => dev.Numbered w.photos)
      ((hI.numbered d).of_eq le_rfl rfl rfl rfl) hI.numbered
  · refine forall_setDevice (P := fun _ dev => dev.Owned u (w.server.apply x.write)) ?_ fun d' => ?_
    · intro q hm hr
      rcases hI.owned d q hm hr with h | ⟨y, hy, hyc⟩ | h
      · exact .inl (hmono _ h)
      · rw [hq] at hy
        rcases List.mem_cons.1 hy with rfl | hy
        · exact .inl ((Server.hasEntry_apply _ _).2 (.inr hyc))
        · exact .inr (.inl ⟨y, hy, hyc⟩)
      · exact .inr (.inr h)
    · intro q hm hr
      exact (hI.owned d' q hm hr).imp_left (hmono _)
  · refine counted_of_same hI (claimed_apply hq) ?_
    have hdoc := (hI.numbers .challengesCompletedLocal (by simp [Key.counters])).exists_doc
    have hcount := counter_apply_participations hx hdoc
    have hsum := sum_setDevice (Device.participations u) w d ((w.devices d).setQueue rest)
    have hdev : (w.devices d).participations u =
        ((w.devices d).setQueue rest).participations u + x.participations := by
      simp only [Device.participations, Device.setQueue, hq, List.map_cons, List.sum_cons]
      ring
    simp only [participations, commit, setDevice_server, hsum, hcount, hdev]
    ring

theorem ParticipationInv.step {w₀ : World ι} {l : Label ι} (hI : ParticipationInv u w₀ w)
    (hl : l.ledger = true) (hok : l.succeeds = true) (hc : w.CountsFirst u l)
    (h : w.step l = some w') : ParticipationInv u w₀ w' := by
  cases step_effect h with
  | app hf heff => exact hI.app hf heff hl hok hc
  | serveQuery hq hnone => exact hI.serveQuery hq hnone (hc _ hq)
  | applied hq => exact hI.applied hq
  | _ => simp [Label.ledger] at hl

/-! ## The law -/

omit [DecidableEq ι] [Fintype ι] in
theorem mem_challengesOf (c : String) : c ∈ w.challengesOf u ↔ w.server.HasEntry u c := by
  simp [challengesOf, Server.HasEntry]

omit [DecidableEq ι] [Fintype ι] in
theorem mem_newChallenges {w₀ : World ι} (c : String) :
    c ∈ newChallenges u w₀ w ↔ w.server.HasEntry u c ∧ ¬ w₀.server.HasEntry u c := by
  rw [newChallenges, List.mem_filter, mem_challengesOf, decide_eq_true_eq]

omit [DecidableEq ι] in
theorem Start.participationInv {w₀ : World ι} (h₀ : w₀.Start u) : ParticipationInv u w₀ w₀ := by
  have hq := h₀.quiet
  have hclaimed : ∀ c, w₀.Claimed u c ↔ w₀.server.HasEntry u c := by
    intro c
    simp [Claimed, Device.Adds, Device.Passed, (hq _).queue, (hq _).uploads]
  refine ⟨h₀.inv, fun d => ?_, fun d q hm => ?_, fun c h => h, [], List.nodup_nil, fun c => ?_, ?_⟩
  · constructor <;> simp [(hq d).scans, (hq d).uploads, (hq d).queries]
  · simp [(hq d).queries] at hm
  · simp [hclaimed c]
  · simp

/-- **Challenges are counted once.** In a run in which queries and uploads keep the order of
`CountsFirst`, the participation counter grows by the number of challenges that have an entry of the
user at the end and had none at the start. -/
theorem participations_counted_once {w₀ : World ι} {ls : List (Label ι)} (h₀ : w₀.Start u)
    (hl : ∀ l ∈ ls, l.ledger = true ∧ l.succeeds = true)
    (hc : AllSteps World.step (CountsFirst u) w₀ ls) (hr : run World.step w₀ ls = some w)
    (hq : w.Quiet) : CountedOnce u w₀ w := by
  have hI : ParticipationInv u w₀ w := run_invariant
    (fun w l w' hP hI h => hI.step hP.1.1 hP.1.2 hP.2 h)
    ((allSteps_of_forall_mem hl).and hc) h₀.participationInv hr
  have hbase := (h₀.numbers .challengesCompletedLocal (by simp [Key.counters])).field_eq
  have hend := (hI.numbers .challengesCompletedLocal (by simp [Key.counters])).field_eq
  refine ⟨_, _, hbase, hend, ?_⟩
  obtain ⟨claimed, hnodup, hmem, hcount⟩ := hI.counted
  have hlen : claimed.length = (newChallenges u w₀ w).length := by
    have hnew : (newChallenges u w₀ w).Nodup := (List.nodup_dedup _).filter _
    refine ((List.perm_ext_iff_of_nodup hnodup hnew).2 fun c => ?_).length_eq
    rw [hmem, mem_newChallenges]
    simp [Claimed, Device.Adds, Device.Passed, (hq _).queue, (hq _).uploads]
  have hflight : ∀ {w : World ι}, w.Quiet →
      w.participations u = w.server.counter u .challengesCompletedLocal := by
    intro w hq
    simp [participations, Device.participations, (hq _).queue, (hq _).queries]
  rw [hflight hq, hflight h₀.quiet, hlen] at hcount
  exact hcount

/-- Two roses of one challenge: the second one is queried after the entry of the first. -/
def secondAfterFirst : List (Label Unit) :=
  [.app () (Sample.capture 0 Sample.roses), .app () (Sample.accept (1 / 2) "a"), .serveQuery () 0,
    .app () (Sample.capture 1 Sample.roses), .app () (Sample.accept (1 / 2) "b")] ++
    Sample.store 5 ++ [.app () (.queryReply 0 false), .app () (.uploadReply 0 false 1),
      .serveQuery () 0, .app () (.queryReply 0 false), .apply () true, .apply () true]

theorem participations_counted_once_secondAfterFirst :
    ∃ w, run World.step (Sample.world Unit) secondAfterFirst = some w ∧ w.Quiet ∧
      CountedOnce Sample.user (Sample.world Unit) w := by
  have h : (run World.step (Sample.world Unit) secondAfterFirst).any (fun w => decide w.Quiet) = true := by
    decide +kernel
  obtain ⟨w, hw, hq⟩ := (Option.any_eq_true _ _).1 h
  exact ⟨w, hw, of_decide_eq_true hq, participations_counted_once (Sample.world_start Unit)
    (by decide) (by decide +kernel) hw (of_decide_eq_true hq)⟩

/-- The upload ends before the query is answered, which then finds the entry of its own snap. -/
def uploadFirst : List (Label Unit) :=
  [.app () (Sample.capture 0 Sample.roses), .app () (Sample.accept (1 / 2) "a")] ++ Sample.store 3 ++
    Sample.ask

theorem uploadFirst_not_counted :
    (Sample.world Unit).Start Sample.user ∧
      (∀ l ∈ uploadFirst, l.ledger = true ∧ l.succeeds = true) ∧
      ∃ w, run World.step (Sample.world Unit) uploadFirst = some w ∧ w.Quiet ∧
        newChallenges Sample.user (Sample.world Unit) w = ["roses"] ∧
        ¬ CountedOnce Sample.user (Sample.world Unit) w := by
  refine ⟨Sample.world_start Unit, by decide, ?_⟩
  have h : (run World.step (Sample.world Unit) uploadFirst).any (fun w => decide (w.Quiet ∧
      newChallenges Sample.user (Sample.world Unit) w = ["roses"] ∧
      (Sample.world Unit).server.field "u1" .challengesCompletedLocal = some (.number 0) ∧
      w.server.field "u1" .challengesCompletedLocal = some (.number 0))) = true := by decide +kernel
  obtain ⟨w, hw, hp⟩ := (Option.any_eq_true _ _).1 h
  obtain ⟨hq, hnew, hbase, hend⟩ := of_decide_eq_true hp
  refine ⟨w, hw, hq, hnew, ?_⟩
  rintro ⟨a, b, ha, hb, hab⟩
  have ha' : a = 0 := by simpa using ha.symm.trans hbase
  have hb' : b = 0 := by simpa using hb.symm.trans hend
  rw [ha', hb', hnew] at hab
  norm_num at hab

end World

end Datability
