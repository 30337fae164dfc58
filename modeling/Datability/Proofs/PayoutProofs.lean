import Datability.Proofs.LedgerProofs
import Datability.Reserve
import Mathlib.Algebra.Order.BigOperators.Group.Finset
import Mathlib.Tactic.Linarith
import Mathlib.Tactic.NormNum
import Mathlib.Tactic.Ring
import Mathlib.Tactic.Push

/-!
# Proofs: the payout bound

The snaps of `users/<uid>` are the account on which the other two counters draw: an applied snap puts
in one, a credit takes out its amount and a participation takes out one. Every phone queues its snap
before the credit and the participation that it pays for, so the reserve of a queue
(`Queue.reserve`) is what is left of payments already made. The invariant is that the snaps cover the
counter together with the reserves of all queues; the queries that are still outstanding are the base
of the reserve of the participations, for each of them may queue one more.
-/

namespace Datability

open Transition Queue

namespace Issued

/-- What an applied write takes out of the snaps for the balance. -/
def moneyDraw (x : Issued) : ℚ :=
  match x.write with
  | .increment _ .totalSnapsTakenLocal q => -q
  | .increment _ .totalMoneyEarnedLocal q => q
  | _ => 0

/-- What an applied write takes out of the snaps for the participations. -/
def challengeDraw (x : Issued) : ℚ :=
  match x.write with
  | .increment _ .totalSnapsTakenLocal q => -q
  | .increment _ .challengesCompletedLocal q => q
  | _ => 0

end Issued

namespace Device

variable {dev dev' : Device}

def moneyReserve (dev : Device) : ℚ := reserve 0 (dev.queue.map Issued.moneyDraw)

def challengeReserve (dev : Device) : ℚ :=
  reserve (dev.queries.length : ℚ) (dev.queue.map Issued.challengeDraw)

theorem challengeReserve_nonneg (dev : Device) : 0 ≤ dev.challengeReserve :=
  reserve_nonneg (Nat.cast_nonneg _) _

theorem moneyReserve_nonneg (dev : Device) : 0 ≤ dev.moneyReserve := reserve_nonneg le_rfl _

/-- Writes that draw nothing do not change a reserve when they are queued. -/
theorem reserve_idle {base : ℚ} (hb : 0 ≤ base) (ds : List ℚ) :
    reserve base (ds ++ [0]) = reserve base ds :=
  reserve_append_eq (by simp [reserve_cons, hb]) ds

/-- An accepted snap pays for its own credit. -/
theorem LedgerEffect.moneyReserve {e : Event} (h : LedgerEffect dev e dev') :
    dev'.moneyReserve = dev.moneyReserve := by
  cases h with
  | same h he => simp [Device.moneyReserve, h.queue]
  | @accepted i scan reply r imageUUID pngData hscan hreply hlo hhi =>
    have hq : (dev.endScan i scan reply).queue = dev.queue := rfl
    simp only [Device.moneyReserve, snapAccepted_queue, hq, List.map_append]
    refine reserve_append_eq ?_ _
    have hr : max 0 r = r := max_eq_right (by linarith)
    simp only [List.map_cons, List.map_nil, Issued.moneyDraw, reserve_cons, reserve_nil, zero_add, hr]
    exact max_eq_left (by linarith)
  | sent hm =>
    simp only [Device.moneyReserve, mailComposeController_sent_queue, List.map_append]
    exact reserve_idle le_rfl _
  | uploadFailed hup => rfl
  | @uploaded i up date hup =>
    unfold uploadEntries
    split
    · rfl
    · split
      · rfl
      · simp only [Device.moneyReserve, issue, List.map_append]
        exact reserve_idle le_rfl _
  | queryFailed hq => rfl
  | @queryAnswered i q docs hq hdocs =>
    unfold entriesReply
    split
    · rfl
    · simp only [Device.moneyReserve, issue, countLocal, List.map_append]
      exact reserve_idle le_rfl _

/-- An accepted snap pays for the participation that its query may count. -/
theorem LedgerEffect.challengeReserve {e : Event} (h : LedgerEffect dev e dev') :
    dev'.challengeReserve ≤ dev.challengeReserve := by
  have hb : (0 : ℚ) ≤ dev.queries.length := Nat.cast_nonneg _
  cases h with
  | same h he => simp [Device.challengeReserve, h.queue, h.queries]
  | @accepted i scan reply r imageUUID pngData hscan hreply hlo hhi =>
    have hq : (dev.endScan i scan reply).queue = dev.queue := rfl
    have hqs : (dev.endScan i scan reply).queries = dev.queries := rfl
    simp only [Device.challengeReserve, snapAccepted_queue, snapAccepted_queries, hq, hqs,
      List.map_append]
    refine le_of_eq (reserve_append_eq ?_ _)
    simp only [List.map_cons, List.map_nil, Issued.challengeDraw, reserve_cons, reserve_nil,
      List.length_append, List.length_singleton, Nat.cast_add, Nat.cast_one, add_zero]
    have hk : max 0 ((dev.queries.length : ℚ) + 1) = dev.queries.length + 1 :=
      max_eq_right (by linarith)
    rw [hk, max_eq_right (by linarith)]
    ring
  | sent hm =>
    simp only [Device.challengeReserve, mailComposeController_sent_queue, List.map_append]
    exact le_of_eq (reserve_idle hb _)
  | uploadFailed hup => exact le_rfl
  | @uploaded i up date hup =>
    unfold uploadEntries
    split
    · exact le_rfl
    · split
      · exact le_rfl
      · simp only [Device.challengeReserve, issue, List.map_append]
        exact le_of_eq (reserve_idle hb _)
  | @queryFailed i q hq =>
    refine reserve_mono ?_ _
    exact_mod_cast (List.length_eraseIdx_le ..)
  | @queryAnswered i q docs hq hdocs =>
    obtain ⟨hi, -⟩ := List.getElem?_eq_some_iff.1 hq
    have hlen : (dev.endQuery i).queries.length + 1 = dev.queries.length := by
      have := List.length_eraseIdx_add_one hi
      simpa [endQuery] using this
    have hcast : ((dev.endQuery i).queries.length : ℚ) + 1 = dev.queries.length := by
      exact_mod_cast hlen
    unfold entriesReply
    split
    · refine reserve_mono ?_ _
      linarith
    · simp only [Device.challengeReserve, issue, countLocal, List.map_append]
      refine le_of_eq (reserve_append_eq ?_ _)
      simp only [List.map_cons, List.map_nil, Issued.challengeDraw, reserve_cons, reserve_nil]
      rw [hcast]
      exact max_eq_right hb

/-- What a phone may do to the payout invariant: it queues ledger writes, and its claims on the snaps do
not grow. -/
structure Pays (u : Uid) (dev dev' : Device) : Prop where
  currentUser : dev'.currentUser = some u
  writes : ∃ new, dev'.queue = dev.queue ++ new ∧ ∀ x ∈ new, x.Ledger u
  moneyReserve : dev'.moneyReserve = dev.moneyReserve
  challengeReserve : dev'.challengeReserve ≤ dev.challengeReserve

/-- The queue is the same, and queries may only have been lost. -/
theorem pays_of_queue {u : Uid} (hu : dev'.currentUser = some u) (hqueue : dev'.queue = dev.queue)
    (hqueries : dev'.queries.length ≤ dev.queries.length) : dev.Pays u dev' where
  currentUser := hu
  writes := ⟨[], by rw [hqueue, List.append_nil], by simp⟩
  moneyReserve := by rw [Device.moneyReserve, Device.moneyReserve, hqueue]
  challengeReserve := by
    rw [Device.challengeReserve, Device.challengeReserve, hqueue]
    exact reserve_mono (by exact_mod_cast hqueries) _

/-- A kill drops the queries that are still outstanding; the queue survives it. -/
theorem Effect.pays {u : Uid} {e : Event} (h : Effect dev e dev') (he : e.staysSignedIn = true)
    (hu : dev.currentUser = some u) : dev.Pays u dev' := by
  by_cases hledger : e.ledger = true
  · have hL := h.ledger hledger
    obtain ⟨hu', hwrites⟩ := hL.writes hu
    exact ⟨hu', hwrites, hL.moneyReserve, hL.challengeReserve⟩
  cases h with
  | launch hr =>
    rw [viewDidLoad_eq]
    exact pays_of_queue hu rfl le_rfl
  | kill hr => exact pays_of_queue hu rfl (Nat.zero_le _)
  | editLogin | pressSignIn | getUserFailed | pressLetsGo | signOutThrew =>
    exact pays_of_queue hu rfl le_rfl
  | dismissPermissions => exact pays_of_queue hu rfl le_rfl
  | getUserAnswered hreq hreply =>
    rw [getUserCompletion_eq]
    exact pays_of_queue hu rfl le_rfl
  | signedIn | signInRefused | accountCreated | createUserRefused | finishOnboarding | signedOut =>
    simp [Event.staysSignedIn] at he
  | selectTab | pressWithdrawal | mailSent | mailNotSent | noLocation | captureUnsent | captureSent
  | scanAccepted | scanRejected | uploadFailed | uploaded | queryFailed | queryAnswered =>
    exact absurd rfl hledger

end Device

namespace World

variable {ι : Type*} [Fintype ι] [DecidableEq ι] {w w' : World ι} {u : Uid}

/-- The snaps cover the other two counters and every claim on them that is still queued. -/
structure PayoutInv (u : Uid) (w : World ι) : Prop extends LedgerInv u w where
  money_nonneg : 0 ≤ w.server.counter u .totalMoneyEarnedLocal
  challenges_nonneg : 0 ≤ w.server.counter u .challengesCompletedLocal
  money_le : w.server.counter u .totalMoneyEarnedLocal + ∑ d, (w.devices d).moneyReserve ≤
    w.server.counter u .totalSnapsTakenLocal
  challenges_le : w.server.counter u .challengesCompletedLocal +
    ∑ d, (w.devices d).challengeReserve ≤ w.server.counter u .totalSnapsTakenLocal
  snaps_int : ∃ n : ℤ, w.server.counter u .totalSnapsTakenLocal = n
  challenges_int : ∃ n : ℤ, w.server.counter u .challengesCompletedLocal = n

/-- What a write of a ledger run does to the three counters. -/
theorem counters_apply {x : Issued} (hx : x.Ledger u) {s : Server}
    (hn : ∃ f, s.users u.val = some f) (hm : 0 ≤ s.counter u .totalMoneyEarnedLocal) :
    ∃ (a b : ℕ) (m : ℚ), 0 ≤ s.counter u .totalMoneyEarnedLocal + m ∧
      (s.apply x.write).counter u .totalSnapsTakenLocal = s.counter u .totalSnapsTakenLocal + a ∧
      (s.apply x.write).counter u .challengesCompletedLocal =
        s.counter u .challengesCompletedLocal + b ∧
      (s.apply x.write).counter u .totalMoneyEarnedLocal =
        s.counter u .totalMoneyEarnedLocal + m ∧
      m ≤ x.moneyDraw + a ∧ (b : ℚ) = x.challengeDraw + a := by
  cases hx with
  | snap p =>
    refine ⟨1, 0, 0, ?_⟩
    simp only [Server.counter_increment hn]
    simp [Issued.moneyDraw, Issued.challengeDraw, hm]
  | credit p r hlo hhi =>
    refine ⟨0, 0, r, ?_⟩
    simp only [Server.counter_increment hn]
    simp only [Issued.moneyDraw, Issued.challengeDraw, reduceCtorEq, if_false, if_true]
    norm_num
    linarith
  | first p =>
    refine ⟨0, 1, 0, ?_⟩
    simp only [Server.counter_increment hn]
    simp [Issued.moneyDraw, Issued.challengeDraw, hm]
  | payout a =>
    refine ⟨0, 0, -s.counter u .totalMoneyEarnedLocal, ?_⟩
    simp only [Server.counter_updateData hn]
    simp [Issued.moneyDraw, Issued.challengeDraw, hm]
  | entry p c e he => exact ⟨0, 0, 0, by simp [Issued.moneyDraw, Issued.challengeDraw, hm]⟩

omit [DecidableEq ι] in
theorem PayoutInv.of_eq (hI : PayoutInv u w) (husers : w'.server.users = w.server.users)
    (hdevices : w'.devices = w.devices) : PayoutInv u w' := by
  obtain ⟨⟨hu, hwrites, hnumbers⟩, hm, hc, hml, hcl, hsi, hci⟩ := hI
  have hcounter : ∀ k, w'.server.counter u k = w.server.counter u k := by
    intro k
    rw [Server.counter, Server.counter, husers]
  refine ⟨⟨?_, ?_, ?_⟩, ?_, ?_, ?_, ?_, ?_, ?_⟩
  · rwa [hdevices]
  · rwa [hdevices]
  · intro k hk
    rw [Server.HasNumber, Server.field, husers]
    exact hnumbers k hk
  all_goals
    simp only [hcounter, hdevices]
    assumption

/-- A change of one phone that claims no more of the snaps. -/
theorem PayoutInv.setDevice (hI : PayoutInv u w) {d : ι} {dev' : Device} (h : (w.devices d).Pays u dev') :
    PayoutInv u (w.setDevice d dev') := by
  obtain ⟨hu, ⟨new, hqueue, hnew⟩, hmoney, hchallenge⟩ := h
  have hml := hI.money_le
  have hcl := hI.challenges_le
  refine ⟨⟨?_, ?_, hI.numbers⟩, hI.money_nonneg, hI.challenges_nonneg, ?_, ?_, hI.snaps_int,
    hI.challenges_int⟩
  · exact forall_setDevice (P := fun _ dev => dev.currentUser = some u) hu hI.signedIn
  · refine forall_setDevice (P := fun _ dev => ∀ x ∈ dev.queue, x.Ledger u) ?_ hI.writes
    intro x hx
    rw [hqueue, List.mem_append] at hx
    exact hx.elim (hI.writes d x) (hnew x)
  · rw [sum_setDevice, setDevice_server, hmoney]
    linarith
  · rw [sum_setDevice, setDevice_server]
    linarith

/-- The oldest write of a phone is carried out. -/
theorem PayoutInv.commit {d : ι} {x : Issued} {rest : List Issued} (hI : PayoutInv u w)
    (hq : (w.devices d).queue = x :: rest) :
    PayoutInv u ((w.setDevice d ((w.devices d).setQueue rest)).commit x) ∧
      w.server.counter u .totalSnapsTakenLocal ≤
        ((w.setDevice d ((w.devices d).setQueue rest)).commit x).server.counter u .totalSnapsTakenLocal := by
  have hL := hI.toLedgerInv.step (.apply hq)
  have hx : x.Ledger u := hI.writes d x (by simp [hq])
  have hdoc := (hI.numbers .totalMoneyEarnedLocal (by simp [Key.counters])).exists_doc
  obtain ⟨a, b, m, hm0, hs, hc, hm, hdm, hdc⟩ := counters_apply hx hdoc hI.money_nonneg
  -- the reserve of the queue without its front element
  have hmr : ((w.devices d).setQueue rest).moneyReserve + x.moneyDraw ≤
      (w.devices d).moneyReserve := by
    simp only [Device.moneyReserve, Device.setQueue, hq, List.map_cons]
    exact reserve_add_le _ _ _
  have hcr : ((w.devices d).setQueue rest).challengeReserve + x.challengeDraw ≤
      (w.devices d).challengeReserve := by
    simp only [Device.challengeReserve, Device.setQueue, hq, List.map_cons]
    exact reserve_add_le _ _ _
  have hsm := sum_setDevice Device.moneyReserve w d ((w.devices d).setQueue rest)
  have hsc := sum_setDevice Device.challengeReserve w d ((w.devices d).setQueue rest)
  have ha : (0 : ℚ) ≤ a := Nat.cast_nonneg _
  have hb : (0 : ℚ) ≤ b := Nat.cast_nonneg _
  have hml := hI.money_le
  have hcl := hI.challenges_le
  have hc0 := hI.challenges_nonneg
  obtain ⟨n, hn⟩ := hI.snaps_int
  obtain ⟨k, hk⟩ := hI.challenges_int
  refine ⟨⟨hL, ?_, ?_, ?_, ?_, ⟨n + a, ?_⟩, ⟨k + b, ?_⟩⟩, ?_⟩
  · simp only [World.commit, setDevice_server, hm]; linarith
  · simp only [World.commit, setDevice_server, hc]; linarith
  · simp only [World.commit, setDevice_server, hm, hs, hsm]; linarith
  · simp only [World.commit, setDevice_server, hc, hs, hsc]; linarith
  · simp only [World.commit, setDevice_server, hs, hn]; push_cast; ring
  · simp only [World.commit, setDevice_server, hc, hk]; push_cast; ring
  · simp only [World.commit, setDevice_server, hs]; linarith

theorem PayoutInv.step {l : Label ι} (hI : PayoutInv u w) (hl : l.staysSignedIn = true)
    (h : w.step l = some w') :
    PayoutInv u w' ∧
      w.server.counter u .totalSnapsTakenLocal ≤ w'.server.counter u .totalSnapsTakenLocal := by
  cases step_effect h with
  | @app d e dev' hf heff =>
    have hrecord : PayoutInv u (w.record e) := hI.of_eq (by simp) (by simp)
    refine ⟨hrecord.setDevice ?_, by simp⟩
    rw [record_devices]
    exact heff.pays hl (hI.signedIn d)
  | @serveCreateUser d i uid req hreq hnone hnew hfree =>
    have hopen : PayoutInv u (w.openAccount req.email req.password uid) := hI.of_eq rfl rfl
    exact ⟨hopen.setDevice (Device.pays_of_queue (hI.signedIn d) rfl le_rfl), le_rfl⟩
  | @serveQuery d i q hq hnone =>
    refine ⟨hI.setDevice (Device.pays_of_queue (hI.signedIn d) rfl ?_), le_rfl⟩
    exact le_of_eq List.length_set
  | @serveSignIn d | @refuseCreateUser d | @serveGetUser d =>
    exact ⟨hI.setDevice (Device.pays_of_queue (hI.signedIn d) rfl le_rfl), le_rfl⟩
  | applied hq => exact hI.commit hq
  | rejected hq => simp [Label.staysSignedIn] at hl

omit [DecidableEq ι] in
theorem PayoutInv.bound (hI : PayoutInv u w) : w.PayoutBound u := by
  obtain ⟨n, hn⟩ := hI.snaps_int
  obtain ⟨k, hk⟩ := hI.challenges_int
  have hm := Finset.sum_nonneg fun d (_ : d ∈ Finset.univ) => (w.devices d).moneyReserve_nonneg
  have hc := Finset.sum_nonneg fun d (_ : d ∈ Finset.univ) => (w.devices d).challengeReserve_nonneg
  have hml := hI.money_le
  have hcl := hI.challenges_le
  have hc0 := hI.challenges_nonneg
  rw [hn] at hml hcl
  rw [hk] at hcl hc0
  refine ⟨n, k, _, ?_, ?_, (hI.numbers .totalMoneyEarnedLocal (by simp [Key.counters])).field_eq,
    hI.money_nonneg, by linarith, by exact_mod_cast hc0, ?_⟩
  · rw [← hn]; exact (hI.numbers .totalSnapsTakenLocal (by simp [Key.counters])).field_eq
  · rw [← hk]; exact (hI.numbers .challengesCompletedLocal (by simp [Key.counters])).field_eq
  · exact_mod_cast (show (k : ℚ) ≤ n by linarith)

omit [DecidableEq ι] in
theorem BeforeFirstSnap.inv {name email phone password : String} (h : w.BeforeFirstSnap u)
    (hdoc : w.server.users u.val = some (userDocument name email phone password)) :
    PayoutInv u w := by
  have hzero : ∀ k ∈ Key.counters, w.server.field u.val k = some (.number 0) := by
    intro k hk
    simp only [Key.counters, List.mem_cons, List.not_mem_nil, or_false] at hk
    rcases hk with rfl | rfl | rfl <;>
      simp [Server.field, hdoc, userDocument, newUser, Fields.setUser]
  have hs := Server.counter_eq_of_field (hzero .totalSnapsTakenLocal (by simp [Key.counters]))
  have hm := Server.counter_eq_of_field (hzero .totalMoneyEarnedLocal (by simp [Key.counters]))
  have hc := Server.counter_eq_of_field (hzero .challengesCompletedLocal (by simp [Key.counters]))
  -- payouts draw on nothing, so every reserve is zero
  have hidle : ∀ (f : Issued → ℚ) (q : List Issued), (∀ x ∈ q, f x = 0) →
      reserve 0 (q.map f) = 0 := by
    intro f q hq
    induction q with
    | nil => rfl
    | cons x q ih =>
      rw [List.map_cons, reserve_cons, ih fun y hy => hq y (List.mem_cons_of_mem _ hy),
        hq x List.mem_cons_self]
      simp
  have hmr : ∀ d, (w.devices d).moneyReserve = 0 := by
    refine fun d => hidle _ _ fun x hx => ?_
    obtain ⟨amount, rfl⟩ := h.payouts d x hx
    rfl
  have hcr : ∀ d, (w.devices d).challengeReserve = 0 := by
    intro d
    rw [Device.challengeReserve, h.queries d]
    refine hidle _ _ fun x hx => ?_
    obtain ⟨amount, rfl⟩ := h.payouts d x hx
    rfl
  refine ⟨⟨h.signedIn, fun d x hx => ?_, fun k hk => ⟨0, hzero k hk⟩⟩, hm.ge, hc.ge, ?_, ?_,
    ⟨0, by simp [hs]⟩, ⟨0, by simp [hc]⟩⟩
  · obtain ⟨amount, rfl⟩ := h.payouts d x hx
    exact .payout amount
  · simp [hm, hs, hmr]
  · simp [hc, hs, hcr]

/-- **Payout bound.** Once the document of `uploadUser` is applied, every interleaving of snaps,
participations and withdrawals on any number of phones, over kills and relaunches, keeps the balance and the
participations between zero and the number of snaps, the counters integral, and the snaps from
decreasing. -/
theorem payout_bound {w₀ : World ι} {ls : List (Label ι)} {name email phone password : String}
    (h₀ : w₀.BeforeFirstSnap u)
    (hdoc : w₀.server.users u.val = some (userDocument name email phone password))
    (hl : ∀ l ∈ ls, l.staysSignedIn = true) (hr : run World.step w₀ ls = some w) :
    w.PayoutBound u ∧ ∀ ls₁ ls₂ w₁, ls = ls₁ ++ ls₂ → run World.step w₀ ls₁ = some w₁ →
      w₁.server.counter u .totalSnapsTakenLocal ≤ w.server.counter u .totalSnapsTakenLocal := by
  have hstep : ∀ (w : World ι) (l : Label ι) (w' : World ι), l.staysSignedIn = true → PayoutInv u w →
      w.step l = some w' → PayoutInv u w' ∧
        w.server.counter u .totalSnapsTakenLocal ≤ w'.server.counter u .totalSnapsTakenLocal :=
    fun w l w' hl hI h => hI.step hl h
  have hinv : ∀ {ls : List (Label ι)} {w₁ : World ι}, (∀ l ∈ ls, l.staysSignedIn = true) →
      run World.step w₀ ls = some w₁ → PayoutInv u w₁ := fun hl hr =>
    run_invariant (fun w l w' hl hI h => (hstep w l w' hl hI h).1) (allSteps_of_forall_mem hl)
      (h₀.inv hdoc) hr
  refine ⟨(hinv hl hr).bound, ?_⟩
  rintro ls₁ ls₂ w₁ rfl h₁
  obtain ⟨t, ht, hr₂⟩ := run_append.1 hr
  obtain rfl : w₁ = t := by simpa [h₁] using ht
  exact run_mono (g := fun w => w.server.counter u .totalSnapsTakenLocal) hstep
    (allSteps_of_forall_mem fun l hl' => hl l (List.mem_append_right _ hl'))
    (hinv (fun l hl' => hl l (List.mem_append_left _ hl')) h₁) hr₂

/-- Two phones accept a rose each; the second one is killed and launched again, and the backend works off
their queues in turn. -/
def twoPhones : List (Label (Fin 2)) :=
  [.app 0 (Sample.capture 0 Sample.roses), .app 1 (Sample.capture 1 Sample.roses),
    .app 0 (Sample.accept 1 "a"), .app 1 (Sample.accept (3 / 4) "b"), .apply 0 true, .apply 1 true,
    .app 1 .kill, .app 1 .launch, .apply 1 true, .serveQuery 0 0, .app 0 (.queryReply 0 false),
    .apply 0 true, .apply 0 true]

theorem payout_bound_twoPhones :
    ∃ w, run World.step (Sample.world (Fin 2)) twoPhones = some w ∧ w.PayoutBound Sample.user ∧
      w.server.field "u1" .totalSnapsTakenLocal = some (.number 2) ∧
      w.server.field "u1" .totalMoneyEarnedLocal = some (.number (7 / 4)) ∧
      w.server.field "u1" .challengesCompletedLocal = some (.number 1) := by
  have h : (run World.step (Sample.world (Fin 2)) twoPhones).any (fun w => decide (
      w.server.field "u1" .totalSnapsTakenLocal = some (.number 2) ∧
      w.server.field "u1" .totalMoneyEarnedLocal = some (.number (7 / 4)) ∧
      w.server.field "u1" .challengesCompletedLocal = some (.number 1))) = true := by decide +kernel
  obtain ⟨w, hw, hcounters⟩ := (Option.any_eq_true _ _).1 h
  have hdoc : (Sample.world (Fin 2)).server.users Sample.user.val =
      some (userDocument "Ada" "ada@mail.org" "555" "secret") := rfl
  have h₀ : (Sample.world (Fin 2)).BeforeFirstSnap Sample.user :=
    ⟨fun _ => rfl, by simp [Sample.world, Sample.phone], fun _ => rfl, fun _ => rfl⟩
  exact ⟨w, hw, (payout_bound h₀ hdoc (by decide) hw).1, of_decide_eq_true hcounters⟩

end World

end Datability
