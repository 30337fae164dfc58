import Datability.Entries
import Datability.Proofs.DeviceProofs
import Datability.Proofs.OutstandingProofs
import Datability.Proofs.StepProofs
import Datability.Proofs.TransitionProofs

/-!
# Proofs: referential integrity of the entries

Two arguments, each over all events of all phones. `Traced` follows one photo from its capture to its
entry: every stage carries the data of the photo it was started for, and the histories that an entry
is checked against only grow. The counts `objectCopies` and `photoCopies` follow the object name and
the number of a photo as tokens, which are drawn once and then moved from stage to stage or dropped.
-/

namespace Datability

open Transition

/-- The object name that an event draws. -/
def Event.drawsObject : Event → String → ℕ
  | .scanReply _ _ _ imageUUID _, a => if imageUUID ++ ".png" = a then 1 else 0
  | _, _ => 0

/-- The photo number that an event takes. -/
def Event.takesPhoto : Event → ℕ → ℕ
  | .capture serial _ _ _ _, n => if serial = n then 1 else 0
  | _, _ => 0

/-- What the event of a step brings in. -/
def Label.fresh {ι : Type*} (new : Event → ℕ) : Label ι → ℕ
  | .app _ e => new e
  | _ => 0

theorem Issued.entry?_eq_some {x : Issued} {p : Photo} {c : String} {e : Entry} :
    x.entry? = some (p, c, e) ↔ x.write = .addDocument c e ∧ x.cause = .photo p := by
  obtain ⟨write, cause⟩ := x
  cases write <;> cases cause <;> simp [Issued.entry?]
  tauto

theorem entry_of_not_addDocument {x : Issued} (h : ∀ c e, x.write ≠ .addDocument c e) :
    x.entry? = none := by
  unfold Issued.entry?
  split
  · rename_i c e p hw hp
    exact absurd hw (h c e)
  · rfl

namespace Device

variable {dev dev' : Device}

/-! ## From the capture to the entry -/

/-- The histories have only grown. -/
structure Grows (dev dev' : Device) : Prop where
  captures : dev.captures ⊆ dev'.captures
  replies : dev.replies ⊆ dev'.replies
  stored : dev.stored ⊆ dev'.stored

theorem Grows.of_eq (hc : dev'.captures = dev.captures) (hv : dev'.replies = dev.replies)
    (hs : dev'.stored = dev.stored) : Grows dev dev' := by
  refine ⟨?_, ?_, ?_⟩
  · rw [hc]
    exact List.Subset.refl _
  · rw [hv]
    exact List.Subset.refl _
  · rw [hs]
    exact List.Subset.refl _

theorem Accepted.mono {p : Photo} {ch : Challenge} (h : dev.Accepted p ch) (hg : Grows dev dev') :
    dev'.Accepted p ch := by
  obtain ⟨hc, reply, hreply, htrue⟩ := h
  exact ⟨hg.captures hc, reply, hg.replies hreply, htrue⟩

theorem Vouches.mono {p : Photo} {c : String} {e : Entry} (h : dev.Vouches p c e)
    (hg : Grows dev dev') : dev'.Vouches p c e where
  accepted := by
    obtain ⟨ch, hid, hv⟩ := h.accepted
    exact ⟨ch, hid, hv.mono hg⟩
  lat := h.lat
  long := h.long
  stored := by
    obtain ⟨path, hp, he⟩ := h.stored
    exact ⟨path, hg.stored hp, he⟩

/-- Every stage on the way to an entry carries the data of its photo. -/
structure Traced (dev : Device) : Prop where
  scans : ∀ s ∈ dev.scans, (s.photo, s.challenge) ∈ dev.captures ∧ s.oneCoord = s.photo.location
  uploads : ∀ up ∈ dev.uploads, dev.Accepted up.photo up.challenge ∧
    up.lat = up.photo.location.latitude ∧ up.long = up.photo.location.longitude
  queue : ∀ x ∈ dev.queue, ∀ c e, x.write = .addDocument c e →
    ∃ p, x.cause = .photo p ∧ dev.Vouches p c e

/-! ## What an event does on this way -/

/-- No stage is added and no entry is written. -/
structure Still (dev dev' : Device) : Prop where
  grows : Grows dev dev'
  scans : dev'.scans.Sublist dev.scans
  uploads : dev'.uploads.Sublist dev.uploads
  queue : ∃ new, dev'.queue = dev.queue ++ new ∧ ∀ x ∈ new, ∀ c e, x.write ≠ .addDocument c e

theorem Still.of_eq (hg : Grows dev dev') (hs : dev'.scans = dev.scans)
    (hu : dev'.uploads = dev.uploads) (hq : dev'.queue = dev.queue) : Still dev dev' :=
  ⟨hg, by rw [hs], by rw [hu], [], by simp [hq], by simp⟩

/-- The events on the way from a capture to an entry, and all others. -/
inductive EntryEffect (dev : Device) : Event → Device → Prop
  | still {e : Event} {dev' : Device} (h : Still dev dev') : EntryEffect dev e dev'
  | captured {serial : ℕ} {challenge : Challenge} {loc : Location} {currentLoc : Option Location}
      {encoded : Bool} : EntryEffect dev (.capture serial challenge (some loc) currentLoc encoded)
        { dev with
          captures := dev.captures ++ [(⟨serial, dev.currentUser, loc⟩, challenge)]
          scans := dev.scans ++ [⟨⟨serial, dev.currentUser, loc⟩, loc, challenge⟩] }
  | accepted {i : ℕ} {scan : Scan} {reply : PlantReply} {r : ℚ} {imageUUID : String} {pngData : Bool}
      (hscan : dev.scans[i]? = some scan)
      (hreply : plantScannerReply reply scan.challenge.expectedPlant = some true) :
      EntryEffect dev (.scanReply i reply r imageUUID pngData)
        ((dev.endScan i scan reply).snapAccepted scan r imageUUID pngData)
  | uploaded {i : ℕ} {up : Upload} {date : ℚ} {u : Uid} {c : String} (hup : dev.uploads[i]? = some up)
      (hc : up.challenge.id = some c) : EntryEffect dev (.uploadReply i false date)
        (((dev.endUpload i).noteStored up).issue (.photo up.photo) (.addDocument c
          ⟨some u.val, some up.path, some up.lat, some up.long, some date⟩))

theorem Effect.entry {e : Event} (h : Effect dev e dev') : EntryEffect dev e dev' := by
  cases h with
  | captureSent hv => exact .captured
  | scanAccepted hscan hreply hlo hhi hcount => exact .accepted hscan hreply
  | @uploaded i up date hup =>
    have hstored : Still dev ((dev.endUpload i).noteStored up) :=
      ⟨⟨List.Subset.refl _, List.Subset.refl _, List.subset_append_left _ _⟩, List.Sublist.refl _,
        List.eraseIdx_sublist _ _, [], (List.append_nil _).symm, by simp⟩
    cases hc : up.challenge.id with
    | none =>
      rw [uploadEntries_none _ _ _ _ _ _ hc]
      exact .still hstored
    | some c =>
      cases hu : dev.currentUser with
      | none =>
        have hu' : ((dev.endUpload i).noteStored up).currentUser = none := hu
        simp only [uploadEntries, hc, hu']
        exact .still hstored
      | some u =>
        rw [uploadEntries_some ((dev.endUpload i).noteStored up) hu _ _ _ _ _ hc]
        exact .uploaded hup hc
  | launch hr =>
    rw [viewDidLoad_eq]
    exact .still (.of_eq (.of_eq rfl rfl rfl) rfl rfl rfl)
  | kill hr =>
    exact .still ⟨.of_eq rfl rfl rfl, List.nil_sublist _, List.nil_sublist _, [], (List.append_nil _).symm,
      by simp⟩
  | getUserAnswered hreq hreply =>
    rw [getUserCompletion_eq]
    exact .still (.of_eq (.of_eq rfl rfl rfl) rfl rfl rfl)
  | finishOnboarding hl hc hp =>
    rw [finishOnboarding_eq]
    refine .still ⟨.of_eq rfl rfl rfl, List.Sublist.refl _, List.Sublist.refl _, _, rfl, fun x hx => ?_⟩
    obtain ⟨u, -, rfl⟩ := List.mem_map.1 hx
    simp
  | mailSent hm =>
    exact .still ⟨.of_eq rfl rfl rfl, List.Sublist.refl _, List.Sublist.refl _, _, rfl, by simp⟩
  | captureUnsent hv =>
    exact .still (.of_eq ⟨List.subset_append_left _ _, List.Subset.refl _, List.Subset.refl _⟩ rfl rfl
      rfl)
  | scanRejected hscan hreply =>
    exact .still ⟨⟨List.Subset.refl _, List.subset_append_left _ _, List.Subset.refl _⟩,
      List.eraseIdx_sublist _ _, List.Sublist.refl _, [], (List.append_nil _).symm, by simp⟩
  | uploadFailed hup =>
    exact .still ⟨.of_eq rfl rfl rfl, List.Sublist.refl _, List.eraseIdx_sublist _ _, [],
      (List.append_nil _).symm, by simp⟩
  | @queryAnswered i q docs hq hdocs hcount =>
    refine .still ?_
    unfold entriesReply
    split
    · exact .of_eq (.of_eq rfl rfl rfl) rfl rfl rfl
    · exact ⟨.of_eq rfl rfl rfl, List.Sublist.refl _, List.Sublist.refl _, _, rfl, by simp⟩
  | editLogin | pressSignIn | signedIn | signInRefused | accountCreated | createUserRefused
  | getUserFailed | dismissPermissions | pressLetsGo | selectTab | signOutThrew | signedOut
  | pressWithdrawal | mailNotSent | noLocation | queryFailed =>
    exact .still (.of_eq (.of_eq rfl rfl rfl) rfl rfl rfl)

theorem EntryEffect.grows {e : Event} (h : EntryEffect dev e dev') : Grows dev dev' := by
  cases h with
  | still h => exact h.grows
  | captured => exact ⟨List.subset_append_left _ _, List.Subset.refl _, List.Subset.refl _⟩
  | @accepted i scan reply r imageUUID pngData hscan hreply =>
    rw [snapAccepted_eq]
    exact ⟨List.Subset.refl _, List.subset_append_left _ _, List.Subset.refl _⟩
  | uploaded hup hc =>
    exact ⟨List.Subset.refl _, List.Subset.refl _, List.subset_append_left _ _⟩

/-- What was traced before is still traced, after a step that lets the histories grow. -/
theorem Traced.queue_mono (hI : dev.Traced) (hg : Grows dev dev') {x : Issued} (hx : x ∈ dev.queue) :
    ∀ c e, x.write = .addDocument c e → ∃ p, x.cause = .photo p ∧ dev'.Vouches p c e := by
  intro c e hw
  obtain ⟨p, hp, hv⟩ := hI.queue x hx c e hw
  exact ⟨p, hp, hv.mono hg⟩

theorem Still.traced (h : Still dev dev') (hI : dev.Traced) : dev'.Traced where
  scans s hs := by
    obtain ⟨hc, hl⟩ := hI.scans s (h.scans.subset hs)
    exact ⟨h.grows.captures hc, hl⟩
  uploads up hup := by
    obtain ⟨hv, hlat, hlong⟩ := hI.uploads up (h.uploads.subset hup)
    exact ⟨hv.mono h.grows, hlat, hlong⟩
  queue x hx c e hw := by
    obtain ⟨new, hq, hnew⟩ := h.queue
    rw [hq] at hx
    rcases List.mem_append.1 hx with hx | hx
    · exact hI.queue_mono h.grows hx c e hw
    · exact absurd hw (hnew x hx c e)

theorem EntryEffect.traced {e : Event} (h : EntryEffect dev e dev') (hI : dev.Traced) :
    dev'.Traced := by
  have hg := h.grows
  have hscans : ∀ s ∈ dev.scans, (s.photo, s.challenge) ∈ dev'.captures ∧ s.oneCoord = s.photo.location := by
    intro s hs
    exact ⟨hg.captures (hI.scans s hs).1, (hI.scans s hs).2⟩
  have huploads : ∀ up ∈ dev.uploads, dev'.Accepted up.photo up.challenge ∧
      up.lat = up.photo.location.latitude ∧ up.long = up.photo.location.longitude := by
    intro up hup
    obtain ⟨hv, hlat, hlong⟩ := hI.uploads up hup
    exact ⟨hv.mono hg, hlat, hlong⟩
  cases h with
  | still h => exact h.traced hI
  | captured =>
    refine ⟨fun s hs => ?_, huploads, fun x hx => hI.queue_mono hg hx⟩
    rcases List.mem_append.1 hs with hs | hs
    · exact hscans s hs
    · obtain rfl := List.mem_singleton.1 hs
      exact ⟨List.mem_append_right _ (List.mem_singleton.2 rfl), rfl⟩
  | @accepted i scan reply r imageUUID pngData hscan hreply =>
    obtain ⟨hcap, hloc⟩ := hscans scan (List.mem_of_getElem? hscan)
    have hverdict : ((dev.endScan i scan reply).snapAccepted scan r imageUUID pngData).Accepted
        scan.photo scan.challenge := by
      refine ⟨hcap, reply, ?_, hreply⟩
      rw [snapAccepted_eq]
      exact List.mem_append_right _ (List.mem_singleton.2 rfl)
    refine ⟨fun s hs => ?_, fun up hup => ?_, fun x hx c e hw => ?_⟩
    · rw [snapAccepted_scans] at hs
      exact hscans s ((List.eraseIdx_sublist _ _).subset hs)
    · rw [snapAccepted_uploads] at hup
      rcases List.mem_append.1 hup with hup | hup
      · exact huploads up hup
      · split at hup
        · obtain rfl := List.mem_singleton.1 hup
          exact ⟨hverdict, by rw [hloc], by rw [hloc]⟩
        · simp at hup
    · rw [snapAccepted_queue] at hx
      rcases List.mem_append.1 hx with hx | hx
      · exact hI.queue_mono hg hx c e hw
      · simp only [List.mem_cons, List.not_mem_nil, or_false] at hx
        rcases hx with rfl | rfl <;> simp at hw
  | @uploaded i up date u c hup hc =>
    obtain ⟨hv, hlat, hlong⟩ := huploads up (List.mem_of_getElem? hup)
    refine ⟨hscans, fun up' hup' => huploads up' ((List.eraseIdx_sublist _ _).subset hup'),
      fun x hx c' e hw => ?_⟩
    rcases List.mem_append.1 hx with hx | hx
    · exact hI.queue_mono hg hx c' e hw
    · obtain rfl := List.mem_singleton.1 hx
      cases hw
      exact ⟨up.photo, rfl, ⟨up.challenge, hc, hv⟩, by rw [hlat], by rw [hlong], up.path,
        List.mem_append_right _ (List.mem_singleton.2 rfl), rfl⟩

/-! ## Objects and photos as tokens -/

/-- How often the object named `a` is being uploaded or queued in an entry. -/
def objectCopies (dev : Device) (a : String) : ℕ :=
  dev.uploads.countP (fun up => up.path = a) + dev.queue.countP (fun x => x.object = some a)

/-- How often the photo with the number `n` is being scanned, uploaded or queued in an entry. -/
def photoCopies (dev : Device) (n : ℕ) : ℕ :=
  dev.scans.countP (fun s => s.photo.serial = n) +
    dev.uploads.countP (fun up => up.photo.serial = n) + dev.queue.countP (fun x => x.serial = some n)

theorem Still.objectCopies_le (h : Still dev dev') (a : String) :
    dev'.objectCopies a ≤ dev.objectCopies a := by
  obtain ⟨new, hq, hnew⟩ := h.queue
  have h0 : new.countP (fun x => x.object = some a) = 0 := by
    refine List.countP_eq_zero.2 fun x hx => ?_
    simp [entry_of_not_addDocument (hnew x hx), Issued.object]
  have hu := h.uploads.countP_le (p := fun up => decide (up.path = a))
  simp only [objectCopies, hq, List.countP_append, h0]
  omega

theorem Still.photoCopies_le (h : Still dev dev') (n : ℕ) : dev'.photoCopies n ≤ dev.photoCopies n := by
  obtain ⟨new, hq, hnew⟩ := h.queue
  have h0 : new.countP (fun x => x.serial = some n) = 0 := by
    refine List.countP_eq_zero.2 fun x hx => ?_
    simp [entry_of_not_addDocument (hnew x hx), Issued.serial]
  have hs := h.scans.countP_le (p := fun s => decide (s.photo.serial = n))
  have hu := h.uploads.countP_le (p := fun up => decide (up.photo.serial = n))
  simp only [photoCopies, hq, List.countP_append, h0]
  omega

/-- Only an accepted scan brings in an object, under the name it draws. -/
theorem EntryEffect.objectCopies_le {e : Event} (h : EntryEffect dev e dev') (a : String) :
    dev'.objectCopies a ≤ dev.objectCopies a + e.drawsObject a := by
  cases h with
  | still h => exact (h.objectCopies_le a).trans (Nat.le_add_right _ _)
  | captured => exact Nat.le_add_right _ _
  | @accepted i scan reply r imageUUID pngData hscan hreply =>
    have hu : (dev.endScan i scan reply).uploads = dev.uploads := rfl
    have hq : (dev.endScan i scan reply).queue = dev.queue := rfl
    simp only [objectCopies, snapAccepted_uploads, snapAccepted_queue, hu, hq, List.countP_append,
      Event.drawsObject]
    cases pngData <;> simp [Issued.object, Issued.entry?, List.countP_cons]
    omega
  | @uploaded i up date u c hup hc =>
    have hcount := Outstanding.countP_eraseIdx (fun up : Upload => decide (up.path = a)) hup
    simp only [objectCopies, issue, noteStored, endUpload, hcount, List.countP_append,
      List.countP_singleton, Issued.object, Issued.entry?, Option.bind_some, Option.some.injEq,
      Event.drawsObject]
    omega

/-- Only a capture brings in a photo, under its own number. -/
theorem EntryEffect.photoCopies_le {e : Event} (h : EntryEffect dev e dev') (n : ℕ) :
    dev'.photoCopies n ≤ dev.photoCopies n + e.takesPhoto n := by
  cases h with
  | still h => exact (h.photoCopies_le n).trans (Nat.le_add_right _ _)
  | captured =>
    simp only [photoCopies, List.countP_append, List.countP_singleton, Event.takesPhoto,
      decide_eq_true_eq]
    omega
  | @accepted i scan reply r imageUUID pngData hscan hreply =>
    have hcount := Outstanding.countP_eraseIdx (fun s : Scan => decide (s.photo.serial = n)) hscan
    have hs : (dev.endScan i scan reply).scans = dev.scans.eraseIdx i := rfl
    have hu : (dev.endScan i scan reply).uploads = dev.uploads := rfl
    have hq : (dev.endScan i scan reply).queue = dev.queue := rfl
    simp only [photoCopies, snapAccepted_scans, snapAccepted_uploads, snapAccepted_queue, hs, hu, hq,
      hcount, List.countP_append]
    cases pngData <;> simp [Issued.serial, Issued.entry?, List.countP_cons] <;> omega
  | @uploaded i up date u c hup hc =>
    have hcount := Outstanding.countP_eraseIdx (fun up : Upload => decide (up.photo.serial = n)) hup
    simp only [photoCopies, issue, noteStored, endUpload, hcount, List.countP_append,
      List.countP_singleton, Issued.serial, Issued.entry?, Option.map_some, Option.some.injEq,
      Event.takesPhoto]
    omega

end Device

namespace World

variable {ι : Type*} [DecidableEq ι] {w w' : World ι}

/-- The whole chain, on all phones and on the server. -/
structure EntryInv (w₀ w : World ι) : Prop where
  traced : ∀ d, (w.devices d).Traced
  documents : w.server.entries = w₀.server.entries ++ w.added.map Prod.snd
  vouched : ∀ p c e, (p, c, e) ∈ w.added → ∃ d, (w.devices d).Vouches p c e

theorem EntryInv.setDevice {w₀ : World ι} {d : ι} {dev' : Device} (hI : EntryInv w₀ w)
    (ht : dev'.Traced) (hg : Device.Grows (w.devices d) dev') : EntryInv w₀ (w.setDevice d dev') where
  traced := forall_setDevice (P := fun _ dev => dev.Traced) ht hI.traced
  documents := hI.documents
  vouched p c e hm := by
    obtain ⟨d', hv⟩ := hI.vouched p c e hm
    refine ⟨d', ?_⟩
    by_cases hdd : d' = d
    · subst hdd
      simpa using hv.mono hg
    · simpa [hdd] using hv

/-- Taking a write out of the queue, whether or not it is applied afterwards. -/
theorem EntryInv.dequeue {w₀ : World ι} {d : ι} {x : Issued} {rest : List Issued}
    (hI : EntryInv w₀ w) (hq : (w.devices d).queue = x :: rest) :
    EntryInv w₀ (w.setDevice d ((w.devices d).setQueue rest)) := by
  have hg : Device.Grows (w.devices d) ((w.devices d).setQueue rest) := .of_eq rfl rfl rfl
  refine hI.setDevice ⟨(hI.traced d).scans, (hI.traced d).uploads, fun y hy => ?_⟩ hg
  refine (hI.traced d).queue_mono hg ?_
  rw [hq]
  exact List.mem_cons_of_mem _ hy

theorem EntryInv.step {w₀ : World ι} {l : Label ι} (hI : EntryInv w₀ w) (h : w.step l = some w') :
    EntryInv w₀ w' := by
  -- an answer of the backend changes a list that the chain does not look at
  have hserve : ∀ d dev', Device.Still (w.devices d) dev' → EntryInv w₀ (w.setDevice d dev') :=
    fun d dev' hs => hI.setDevice (hs.traced (hI.traced d)) hs.grows
  cases step_effect h with
  | @app d e dev' hf heff =>
    have hrec : EntryInv w₀ (w.record e) :=
      ⟨by simpa using hI.traced, by simpa [added] using hI.documents, by simpa [added] using hI.vouched⟩
    exact hrec.setDevice (heff.entry.traced (hI.traced d)) (by simpa using heff.entry.grows)
  | serveSignIn | refuseCreateUser | serveGetUser | serveQuery =>
    exact hserve _ _ (.of_eq (.of_eq rfl rfl rfl) rfl rfl rfl)
  | @serveCreateUser d i uid req hreq hnone hnew =>
    have hopen : EntryInv w₀ (w.openAccount req.email req.password uid) :=
      ⟨hI.traced, hI.documents, hI.vouched⟩
    have hs : Device.Still (w.devices d) ((w.devices d).answerCreateUser i req (some uid)) :=
      .of_eq (.of_eq rfl rfl rfl) rfl rfl rfl
    exact hopen.setDevice (hs.traced (hI.traced d)) hs.grows
  | @applied d x rest hq =>
    have hdeq := hI.dequeue hq
    refine ⟨hdeq.traced, ?_, ?_⟩
    · have hdocs := hI.documents
      simp only [commit, added, setDevice_server, setDevice_applied, List.filterMap_append] at hdocs ⊢
      cases hw : x.write with
      | addDocument c e =>
        obtain ⟨p, hp, -⟩ := (hI.traced d).queue x (by simp [hq]) c e hw
        simp [Server.apply, Issued.entry?, hw, hp, hdocs]
      | setData | increment | updateData =>
        simp [Server.apply, Server.updateUser, Issued.entry?, hw, hdocs]
    · intro p c e hm
      simp only [commit, added, setDevice_applied, List.filterMap_append, List.mem_append] at hm
      rcases hm with hm | hm
      · exact hdeq.vouched p c e hm
      · obtain ⟨y, hy, hyx⟩ := List.mem_filterMap.1 hm
        obtain rfl := List.mem_singleton.1 hy
        obtain ⟨hw, hcause⟩ := Issued.entry?_eq_some.1 hyx
        obtain ⟨p', hp', hv⟩ := (hI.traced d).queue y (by simp [hq]) c e hw
        obtain rfl : p = p' := Cause.photo.inj (hcause.symm.trans hp')
        refine ⟨d, ?_⟩
        have hg : Device.Grows (w.devices d) ((w.devices d).setQueue rest) := .of_eq rfl rfl rfl
        simpa [commit] using hv.mono hg
  | rejected hq => exact hI.dequeue hq

/-! ## Tokens over the whole world -/

section Copies

variable [Fintype ι]

/-- Where a token is: on the phones, counted by `f`, and in the writes of the server that carry it. -/
def copies (f : Device → ℕ) (g : Issued → Bool) (w : World ι) : ℕ :=
  ∑ d, f (w.devices d) + w.applied.countP g

variable {f : Device → ℕ} {g : Issued → Bool}

theorem copies_setDevice (w : World ι) (d : ι) (dev' : Device) :
    (w.setDevice d dev').copies f g + f (w.devices d) = w.copies f g + f dev' := by
  have h := Outstanding.sum_update_add f w.devices d dev'
  simp only [copies, setDevice] at h ⊢
  omega

/-- A token that only `fresh` brings in, and that the server takes over from the queue. -/
theorem copies_step {fresh : Event → ℕ} {l : Label ι}
    (hstill : ∀ dev dev', Device.Still dev dev' → f dev' ≤ f dev)
    (hfresh : ∀ dev e dev', Device.EntryEffect dev e dev' → f dev' ≤ f dev + fresh e)
    (hqueue : ∀ dev x rest, dev.queue = x :: rest →
      f dev = f (dev.setQueue rest) + if g x = true then 1 else 0)
    (h : w.step l = some w') : w'.copies f g ≤ w.copies f g + l.fresh fresh := by
  have hserve : ∀ d dev' n, Device.Still (w.devices d) dev' →
      (w.setDevice d dev').copies f g ≤ w.copies f g + n := by
    intro d dev' n hs
    have h1 := copies_setDevice (f := f) (g := g) w d dev'
    have h2 := hstill _ _ hs
    omega
  cases step_effect h with
  | @app d e dev' hf heff =>
    have h1 := copies_setDevice (f := f) (g := g) (w.record e) d dev'
    have h2 := hfresh _ _ _ heff.entry
    have h3 : (w.record e).copies f g = w.copies f g := by simp [copies]
    simp only [record_devices] at h1
    simp only [Label.fresh]
    omega
  | serveSignIn | refuseCreateUser | serveGetUser | serveQuery =>
    exact hserve _ _ _ (.of_eq (.of_eq rfl rfl rfl) rfl rfl rfl)
  | @serveCreateUser d i uid req hreq hnone hnew =>
    exact hserve d ((w.devices d).answerCreateUser i req (some uid)) _
      (.of_eq (.of_eq rfl rfl rfl) rfl rfl rfl)
  | @applied d x rest hq =>
    have h1 := copies_setDevice (f := f) (g := g) w d ((w.devices d).setQueue rest)
    have h2 := hqueue _ _ _ hq
    have h3 : ((w.setDevice d ((w.devices d).setQueue rest)).commit x).copies f g =
        (w.setDevice d ((w.devices d).setQueue rest)).copies f g + if g x = true then 1 else 0 := by
      simp only [copies, commit, List.countP_append, List.countP_singleton]
      omega
    simp only [Label.fresh]
    omega
  | @rejected d x rest hq =>
    have h1 := copies_setDevice (f := f) (g := g) w d ((w.devices d).setQueue rest)
    have h2 := hqueue _ _ _ hq
    simp only [Label.fresh]
    omega

omit [Fintype ι] in
/-- A step draws a UUID that is new, or it draws none. -/
theorem drawn_step {l : Label ι} (h : w.step l = some w') :
    (∃ d i reply r imageUUID pngData, l = .app d (.scanReply i reply r imageUUID pngData) ∧
      imageUUID ∉ w.uuids ∧ w'.uuids = imageUUID :: w.uuids) ∨
    ((∀ a, l.fresh (·.drawsObject a) = 0) ∧ w'.uuids = w.uuids) := by
  cases step_effect h with
  | @app d e dev' hf heff =>
    cases e with
    | scanReply i reply r imageUUID pngData =>
      exact .inl ⟨d, i, reply, r, imageUUID, pngData, rfl, by simpa [fresh] using hf, rfl⟩
    | _ => exact .inr ⟨fun _ => rfl, rfl⟩
  | serveSignIn | refuseCreateUser | serveCreateUser | serveGetUser | serveQuery | applied
  | rejected => exact .inr ⟨fun _ => rfl, rfl⟩

omit [Fintype ι] in
/-- A step takes the next photo number, or it takes none. -/
theorem taken_step {l : Label ι} (h : w.step l = some w') :
    ((∀ n, l.fresh (·.takesPhoto n) = if w.photos = n then 1 else 0) ∧ w'.photos = w.photos + 1) ∨
    ((∀ n, l.fresh (·.takesPhoto n) = 0) ∧ w'.photos = w.photos) := by
  cases step_effect h with
  | @app d e dev' hf heff =>
    cases e with
    | capture serial challenge oneCoord currentLoc encoded =>
      obtain rfl : serial = w.photos := by simpa [fresh] using hf
      exact .inl ⟨fun _ => rfl, rfl⟩
    | _ => exact .inr ⟨fun _ => rfl, rfl⟩
  | serveSignIn | refuseCreateUser | serveCreateUser | serveGetUser | serveQuery | applied
  | rejected => exact .inr ⟨fun _ => rfl, rfl⟩

/-- The names of objects: drawn with the UUID of an accepted scan. -/
def ObjectsUnique (w : World ι) : Prop :=
  Outstanding.Unique (fun a => w.copies (·.objectCopies a) fun x => x.object = some a)
    (· ∈ w.uuids.map (· ++ ".png"))

/-- The numbers of photos: taken in order. -/
def PhotosUnique (w : World ι) : Prop :=
  Outstanding.Unique (fun n => w.copies (·.photoCopies n) fun x => x.serial = some n) (· < w.photos)

theorem ObjectsUnique.step {l : Label ι} (hI : w.ObjectsUnique) (h : w.step l = some w') :
    w'.ObjectsUnique := by
  have hle : ∀ a, w'.copies (·.objectCopies a) (fun x => x.object = some a) ≤
      w.copies (·.objectCopies a) (fun x => x.object = some a) + l.fresh (·.drawsObject a) := by
    intro a
    refine copies_step (fun _ _ hs => hs.objectCopies_le a) (fun _ _ _ he => he.objectCopies_le a)
      (fun dev x rest hq => ?_) h
    simp only [Device.objectCopies, Device.setQueue, hq, List.countP_cons, decide_eq_true_eq]
    omega
  refine Outstanding.Unique.step hI hle (fun a ha => ?_) (fun a ha => ?_)
  · rcases drawn_step h with ⟨d, i, reply, r, imageUUID, pngData, rfl, hnew, -⟩ | ⟨hl, -⟩
    · simp only [Label.fresh, Event.drawsObject] at ha ⊢
      split_ifs at ha ⊢ with hpath
      · subst hpath
        refine ⟨fun hm => ?_, le_rfl⟩
        obtain ⟨b, hb, hab⟩ := List.mem_map.1 hm
        exact hnew ((String.append_left_inj _).1 hab ▸ hb)
      · exact absurd rfl ha
    · exact absurd (hl a) ha
  · rcases drawn_step h with ⟨d, i, reply, r, imageUUID, pngData, rfl, -, huuids⟩ | ⟨hl, huuids⟩
    · rw [huuids, List.map_cons, List.mem_cons]
      rcases ha with ha | ha
      · exact .inr ha
      · simp only [Label.fresh, Event.drawsObject, ne_eq, ite_eq_right_iff, one_ne_zero, imp_false,
          not_not] at ha
        exact .inl ha.symm
    · rw [huuids]
      exact ha.resolve_right fun hne => hne (hl a)

theorem PhotosUnique.step {l : Label ι} (hI : w.PhotosUnique) (h : w.step l = some w') :
    w'.PhotosUnique := by
  have hle : ∀ n, w'.copies (·.photoCopies n) (fun x => x.serial = some n) ≤
      w.copies (·.photoCopies n) (fun x => x.serial = some n) + l.fresh (·.takesPhoto n) := by
    intro n
    refine copies_step (fun _ _ hs => hs.photoCopies_le n) (fun _ _ _ he => he.photoCopies_le n)
      (fun dev x rest hq => ?_) h
    simp only [Device.photoCopies, Device.setQueue, hq, List.countP_cons, decide_eq_true_eq]
    omega
  refine Outstanding.Unique.step hI hle (fun n hn => ?_) (fun n hn => ?_)
  · rcases taken_step h with ⟨hl, -⟩ | ⟨hl, -⟩
    · rw [hl] at hn ⊢
      split_ifs at hn ⊢ with heq
      · exact ⟨by omega, le_rfl⟩
      · exact absurd rfl hn
    · exact absurd (hl n) hn
  · rcases taken_step h with ⟨hl, hphotos⟩ | ⟨hl, hphotos⟩
    · rw [hl] at hn
      rw [hphotos]
      split_ifs at hn with heq <;> omega
    · rw [hphotos]
      exact hn.resolve_right fun hne => hne (hl n)

end Copies

/-! ## The law -/

variable [Fintype ι]

omit [DecidableEq ι] in
theorem ObjectsUnique.nodup (h : w.ObjectsUnique) : (w.added.filterMap fun a => a.2.2.photo).Nodup := by
  rw [added, List.filterMap_filterMap, List.nodup_iff_count]
  intro a
  have hcount : (w.applied.filterMap fun x => x.entry?.bind fun t => t.2.2.photo).count a =
      w.applied.countP (fun x => x.object = some a) := by
    rw [List.count_filterMap]
    refine List.countP_congr fun x _ => ?_
    rw [beq_iff_eq, decide_eq_true_eq]
    rfl
  rw [hcount]
  exact (Nat.le_add_left _ _).trans (h.once a)

omit [DecidableEq ι] in
theorem PhotosUnique.nodup (h : w.PhotosUnique) : (w.added.map fun a => a.1.serial).Nodup := by
  rw [added, List.map_filterMap, List.nodup_iff_count]
  intro n
  have hcount : (w.applied.filterMap fun x => x.entry?.map fun t => t.1.serial).count n =
      w.applied.countP (fun x => x.serial = some n) := by
    rw [List.count_filterMap]
    refine List.countP_congr fun x _ => ?_
    rw [beq_iff_eq, decide_eq_true_eq]
    rfl
  rw [hcount]
  exact (Nat.le_add_left _ _).trans (h.once n)

omit [DecidableEq ι] in
theorem BeforeFirstCapture.inv {w₀ : World ι} (h₀ : w₀.BeforeFirstCapture) :
    EntryInv w₀ w₀ ∧ w₀.ObjectsUnique ∧ w₀.PhotosUnique := by
  have hnone : ∀ d, ∀ x ∈ (w₀.devices d).queue, x.entry? = none := fun d x hx =>
    entry_of_not_addDocument ((h₀.devices d).queue x hx)
  have hobjects : ∀ a, w₀.copies (·.objectCopies a) (fun x => x.object = some a) = 0 := by
    intro a
    have hd : ∀ d, (w₀.devices d).objectCopies a = 0 := by
      intro d
      have hq : (w₀.devices d).queue.countP (fun x => x.object = some a) = 0 :=
        List.countP_eq_zero.2 fun x hx => by simp [Issued.object, hnone d x hx]
      simp [Device.objectCopies, (h₀.devices d).uploads, hq]
    simp [copies, hd, h₀.applied]
  have hphotos : ∀ n, w₀.copies (·.photoCopies n) (fun x => x.serial = some n) = 0 := by
    intro n
    have hd : ∀ d, (w₀.devices d).photoCopies n = 0 := by
      intro d
      have hq : (w₀.devices d).queue.countP (fun x => x.serial = some n) = 0 :=
        List.countP_eq_zero.2 fun x hx => by simp [Issued.serial, hnone d x hx]
      simp [Device.photoCopies, (h₀.devices d).uploads, (h₀.devices d).scans, hq]
    simp [copies, hd, h₀.applied]
  refine ⟨⟨fun d => ⟨?_, ?_, ?_⟩, ?_, ?_⟩, ⟨?_, ?_⟩, ⟨?_, ?_⟩⟩
  · simp [(h₀.devices d).scans]
  · simp [(h₀.devices d).uploads]
  · exact fun x hx c e hw => absurd hw ((h₀.devices d).queue x hx c e)
  · simp [added, h₀.applied]
  · simp [added, h₀.applied]
  · exact fun a => by simp [hobjects a]
  · exact fun a ha => absurd (hobjects a) ha
  · exact fun n => by simp [hphotos n]
  · exact fun n hn => absurd (hphotos n) hn

/-- **Referential integrity of entries.** In every state of every run, on any phones and with any
failures, each entry that was added goes back to one captured photo, to a reply of plant.id to it that shows
the plant of its challenge, and to one stored object of its own. -/
theorem entries_sound {w₀ : World ι} {ls : List (Label ι)} (h₀ : w₀.BeforeFirstCapture)
    (hr : run World.step w₀ ls = some w) : EntriesSound w₀ w := by
  have hinv : EntryInv w₀ w ∧ w.ObjectsUnique ∧ w.PhotosUnique :=
    run_invariant (P := fun _ _ => True)
      (I := fun w : World ι => EntryInv w₀ w ∧ w.ObjectsUnique ∧ w.PhotosUnique)
      (fun w l w' _ hI h => ⟨hI.1.step h, hI.2.1.step h, hI.2.2.step h⟩)
      (allSteps_of_forall_mem fun _ _ => trivial) h₀.inv hr
  obtain ⟨hentries, hobjects, hphotos⟩ := hinv
  exact ⟨hentries.documents, hentries.vouched, hobjects.nodup, hphotos.nodup⟩

/-- Two phones capture a rose each; the uploads finish in the other order. -/
def twoSnaps : List (Label Bool) :=
  [.app true (Sample.capture 0 Sample.roses), .app false (Sample.capture 1 Sample.roses),
    .app true (Sample.accept (1 / 2) "a"), .app false (Sample.accept 1 "b"),
    .app false (.uploadReply 0 false 7), .app true (.uploadReply 0 false 8), .apply false true,
    .apply false true, .apply false true, .apply true true, .apply true true, .apply true true]

theorem entries_sound_twoSnaps : ∃ w, run World.step (Sample.world Bool) twoSnaps = some w ∧
    w.added.length = 2 ∧ EntriesSound (Sample.world Bool) w := by
  have h : (run World.step (Sample.world Bool) twoSnaps).any (fun w =>
      decide (w.added.length = 2)) = true := by decide +kernel
  obtain ⟨w, hw, hn⟩ := (Option.any_eq_true _ _).1 h
  have h₀ : (Sample.world Bool).BeforeFirstCapture :=
    ⟨fun _ => ⟨rfl, rfl, rfl, rfl, rfl, by simp [Sample.world, Sample.phone]⟩, rfl⟩
  exact ⟨w, hw, of_decide_eq_true hn, entries_sound h₀ hw⟩

end World

end Datability
