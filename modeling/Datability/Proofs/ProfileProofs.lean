import Datability.Home
import Datability.Proofs.FirestoreProofs
import Mathlib.Algebra.Order.Field.Rat
import Mathlib.Tactic.NormNum

/-!
# Proofs: reading and storing a profile

The reader of a profile succeeds exactly on complete fields whose counters fit, and reads back what the
seven assignments have stored. Every kind of write that the app makes leaves a complete document
complete, and so does raising a counter of the local copy.
-/

namespace Datability

theorem Key.Accepts.add {k : Key} {q q' : ℚ} (h : k.Accepts (.number q)) (h' : k.Accepts (.number q')) :
    k.Accepts (.number (q + q')) := by
  cases k with
  | fullNameLocal | emailLocal | phoneNumberLocal => simp [Accepts] at h
  | moneyTilNextPaymentLocal | totalMoneyEarnedLocal => exact ⟨_, rfl⟩
  | challengesCompletedLocal | totalSnapsTakenLocal =>
    obtain ⟨z, hz⟩ := h
    obtain ⟨z', hz'⟩ := h'
    refine ⟨z + z', ?_⟩
    rw [Value.number.inj hz, Value.number.inj hz', Int.cast_add]
  | password => trivial

namespace Fields

variable {f : Fields}

theorem intCast_inRange (z : ℤ) :
    ((-2 ^ 63 : ℚ) ≤ z ∧ (z : ℚ) < 2 ^ 63) ↔ -2 ^ 63 ≤ z ∧ z < 2 ^ 63 := by
  have h : ((2 ^ 63 : ℤ) : ℚ) = 2 ^ 63 := by norm_num
  rw [← h, ← Int.cast_neg, Int.cast_le, Int.cast_lt]

theorem asInt_eq_some {v : Value} {z : ℤ} :
    v.asInt = some z ↔ v = .number z ∧ -2 ^ 63 ≤ z ∧ z < 2 ^ 63 := by
  cases v with
  | string s => simp [Value.asInt]
  | number q =>
    simp only [Value.asInt, Option.ite_none_right_eq_some, Option.some.injEq, Value.number.injEq]
    constructor
    · rintro ⟨⟨hden, hlo, hhi⟩, rfl⟩
      exact ⟨((Rat.den_eq_one_iff q).1 hden).symm, hlo, hhi⟩
    · rintro ⟨rfl, hlo, hhi⟩
      exact ⟨⟨Rat.den_intCast z, by simpa using hlo, by simpa using hhi⟩, Rat.num_intCast z⟩

theorem asString_eq_some {v : Value} {s : String} : v.asString = some s ↔ v = .string s := by
  cases v <;> simp [Value.asString]

theorem asDouble_eq_some {v : Value} {q : ℚ} : v.asDouble = some q ↔ v = .number q := by
  cases v <;> simp [Value.asDouble]

/-- The fields hold the profile `p`, and the counters of `p` fit their type. -/
structure Holds (f : Fields) (p : DatabilityUser) : Prop where
  fullName : f .fullNameLocal = some (.string p.fullNameLocal)
  challengesCompleted : f .challengesCompletedLocal = some (.number p.challengesCompletedLocal)
  email : f .emailLocal = some (.string p.emailLocal)
  moneyTilNextPayment : f .moneyTilNextPaymentLocal = some (.number p.moneyTilNextPaymentLocal)
  phoneNumber : f .phoneNumberLocal = some (.string p.phoneNumberLocal)
  totalMoneyEarned : f .totalMoneyEarnedLocal = some (.number p.totalMoneyEarnedLocal)
  totalSnapsTaken : f .totalSnapsTakenLocal = some (.number p.totalSnapsTakenLocal)
  challengesFit : -2 ^ 63 ≤ p.challengesCompletedLocal ∧ p.challengesCompletedLocal < 2 ^ 63
  snapsFit : -2 ^ 63 ≤ p.totalSnapsTakenLocal ∧ p.totalSnapsTakenLocal < 2 ^ 63

/-- One field of a reader. -/
theorem read_eq_some {α β : Type} {k : Key} {as : Value → Option α} {g : α → Option β} {b : β} :
    (f k >>= fun v => as v >>= g) = some b ↔
      ∃ v, f k = some v ∧ ∃ a, as v = some a ∧ g a = some b := by
  simp only [bind, Option.bind_eq_some_iff]

theorem readUser_eq_some {p : DatabilityUser} : readUser f = some p ↔ f.Holds p := by
  constructor
  · intro h
    obtain ⟨_, h1, s1, hs1, h⟩ := read_eq_some.1 h
    obtain ⟨_, h2, z2, hz2, h⟩ := read_eq_some.1 h
    obtain ⟨_, h3, s3, hs3, h⟩ := read_eq_some.1 h
    obtain ⟨_, h4, q4, hq4, h⟩ := read_eq_some.1 h
    obtain ⟨_, h5, s5, hs5, h⟩ := read_eq_some.1 h
    obtain ⟨_, h6, q6, hq6, h⟩ := read_eq_some.1 h
    obtain ⟨_, h7, z7, hz7, h⟩ := read_eq_some.1 h
    obtain rfl : ⟨s1, z2, s3, q4, s5, q6, z7⟩ = p := Option.some.inj h
    rw [asString_eq_some] at hs1 hs3 hs5
    rw [asDouble_eq_some] at hq4 hq6
    rw [asInt_eq_some] at hz2 hz7
    exact ⟨hs1 ▸ h1, hz2.1 ▸ h2, hs3 ▸ h3, hq4 ▸ h4, hs5 ▸ h5, hq6 ▸ h6, hz7.1 ▸ h7, hz2.2, hz7.2⟩
  · intro h
    refine read_eq_some.2 ⟨_, h.fullName, _, rfl, ?_⟩
    refine read_eq_some.2 ⟨_, h.challengesCompleted, _, asInt_eq_some.2 ⟨rfl, h.challengesFit⟩, ?_⟩
    refine read_eq_some.2 ⟨_, h.email, _, rfl, ?_⟩
    refine read_eq_some.2 ⟨_, h.moneyTilNextPayment, _, rfl, ?_⟩
    refine read_eq_some.2 ⟨_, h.phoneNumber, _, rfl, ?_⟩
    refine read_eq_some.2 ⟨_, h.totalMoneyEarned, _, rfl, ?_⟩
    exact read_eq_some.2 ⟨_, h.totalSnapsTaken, _, asInt_eq_some.2 ⟨rfl, h.snapsFit⟩, rfl⟩

/-- A profile can be read exactly from complete fields whose counters fit. -/
theorem readUser_isSome : (readUser f).isSome = true ↔ f.Complete ∧ f.InRange := by
  rw [Option.isSome_iff_exists]
  constructor
  · rintro ⟨p, hp⟩
    have h := readUser_eq_some.1 hp
    constructor
    · intro k hk
      simp only [Key.profile, List.mem_cons, List.not_mem_nil, or_false] at hk
      rcases hk with rfl | rfl | rfl | rfl | rfl | rfl | rfl
      · exact ⟨_, h.fullName, _, rfl⟩
      · exact ⟨_, h.email, _, rfl⟩
      · exact ⟨_, h.challengesCompleted, _, rfl⟩
      · exact ⟨_, h.moneyTilNextPayment, _, rfl⟩
      · exact ⟨_, h.phoneNumber, _, rfl⟩
      · exact ⟨_, h.totalMoneyEarned, _, rfl⟩
      · exact ⟨_, h.totalSnapsTaken, _, rfl⟩
    · rw [InRange, double_of_eq h.challengesCompleted, double_of_eq h.totalSnapsTaken, intCast_inRange,
        intCast_inRange]
      exact ⟨h.challengesFit, h.snapsFit⟩
  · rintro ⟨hf, hrange⟩
    obtain ⟨_, h1, s1, rfl⟩ := hf .fullNameLocal (by simp [Key.profile])
    obtain ⟨_, h2, z2, rfl⟩ := hf .challengesCompletedLocal (by simp [Key.profile])
    obtain ⟨_, h3, s3, rfl⟩ := hf .emailLocal (by simp [Key.profile])
    obtain ⟨_, h4, q4, rfl⟩ := hf .moneyTilNextPaymentLocal (by simp [Key.profile])
    obtain ⟨_, h5, s5, rfl⟩ := hf .phoneNumberLocal (by simp [Key.profile])
    obtain ⟨_, h6, q6, rfl⟩ := hf .totalMoneyEarnedLocal (by simp [Key.profile])
    obtain ⟨_, h7, z7, rfl⟩ := hf .totalSnapsTakenLocal (by simp [Key.profile])
    rw [InRange, double_of_eq h2, double_of_eq h7, intCast_inRange, intCast_inRange] at hrange
    exact ⟨⟨s1, z2, s3, q4, s5, q6, z7⟩,
      readUser_eq_some.2 ⟨h1, h2, h3, h4, h5, h6, h7, hrange.1, hrange.2⟩⟩

/-- After the seven assignments the fields hold the profile. -/
theorem holds_setUser {p : DatabilityUser}
    (hc : -2 ^ 63 ≤ p.challengesCompletedLocal ∧ p.challengesCompletedLocal < 2 ^ 63)
    (hs : -2 ^ 63 ≤ p.totalSnapsTakenLocal ∧ p.totalSnapsTakenLocal < 2 ^ 63) :
    (f.setUser p).Holds p := by
  refine ⟨?_, ?_, ?_, ?_, ?_, ?_, ?_, hc, hs⟩ <;> simp [setUser]

/-- What was read can be stored and read again. -/
theorem readUser_setUser {g : Fields} {p : DatabilityUser} (h : readUser g = some p) :
    readUser (f.setUser p) = some p := by
  have hg := readUser_eq_some.1 h
  exact readUser_eq_some.2 (holds_setUser hg.challengesFit hg.snapsFit)

theorem readUser_newUser (name email phone : String) :
    readUser (f.setUser (newUser name email phone)) = some (newUser name email phone) :=
  readUser_eq_some.2 (holds_setUser (by simp [newUser]) (by simp [newUser]))

theorem Complete.set (hf : f.Complete) {k : Key} {v : Value} (hv : k.Accepts v) :
    (f.set k v).Complete := by
  intro k' hk'
  by_cases hk : k' = k
  · subst hk
    exact ⟨v, by simp, hv⟩
  · simpa [hk] using hf k' hk'

/-- An increment of a complete document keeps it complete. -/
theorem Complete.increment (hf : f.Complete) {k : Key} {q : ℚ} (hq : k.Accepts (.number q)) :
    (f.set k (.number (f.double k + q))).Complete := by
  by_cases hk : k ∈ Key.profile
  · obtain ⟨v, hv, ha⟩ := hf k hk
    cases v with
    | string s => cases k <;> simp_all [Key.Accepts, Key.profile]
    | number q' =>
      rw [double_of_eq hv]
      exact hf.set (ha.add hq)
  · obtain rfl : k = .password := by cases k <;> simp_all [Key.profile]
    exact hf.set trivial

theorem Holds.set_snaps {p : DatabilityUser} (h : f.Holds p) {z : ℤ}
    (hz : -2 ^ 63 ≤ z ∧ z < 2 ^ 63) :
    (f.set .totalSnapsTakenLocal (.number z)).Holds { p with totalSnapsTakenLocal := z } := by
  refine ⟨?_, ?_, ?_, ?_, ?_, ?_, ?_, h.challengesFit, hz⟩ <;>
    simp [h.fullName, h.challengesCompleted, h.email, h.moneyTilNextPayment, h.phoneNumber,
      h.totalMoneyEarned]

theorem Holds.set_challenges {p : DatabilityUser} (h : f.Holds p) {z : ℤ}
    (hz : -2 ^ 63 ≤ z ∧ z < 2 ^ 63) :
    (f.set .challengesCompletedLocal (.number z)).Holds { p with challengesCompletedLocal := z } := by
  refine ⟨?_, ?_, ?_, ?_, ?_, ?_, ?_, hz, h.snapsFit⟩ <;>
    simp [h.fullName, h.email, h.moneyTilNextPayment, h.phoneNumber, h.totalMoneyEarned,
      h.totalSnapsTaken]

theorem Holds.set_money {p : DatabilityUser} (h : f.Holds p) (q : ℚ) :
    (f.set .totalMoneyEarnedLocal (.number q)).Holds { p with totalMoneyEarnedLocal := q } := by
  refine ⟨?_, ?_, ?_, ?_, ?_, ?_, ?_, h.challengesFit, h.snapsFit⟩ <;>
    simp [h.fullName, h.challengesCompleted, h.email, h.moneyTilNextPayment, h.phoneNumber,
      h.totalSnapsTaken]

/-- A local counter that can be raised stays readable. -/
theorem readUser_count {k : Key} (hk : k = .challengesCompletedLocal ∨ k = .totalSnapsTakenLocal)
    (h : (readUser f).isSome = true) (hcount : f.integer k + 1 < 2 ^ 63) :
    (readUser (f.set k (.number (f.integer k + 1 : Int)))).isSome = true := by
  obtain ⟨p, hp⟩ := Option.isSome_iff_exists.1 h
  have hholds := readUser_eq_some.1 hp
  have hchallenges := hholds.challengesFit
  have hsnaps := hholds.snapsFit
  rcases hk with rfl | rfl
  · rw [integer_of_eq hholds.challengesCompleted] at hcount ⊢
    rw [readUser_eq_some.2 (hholds.set_challenges ⟨by omega, hcount⟩)]
    rfl
  · rw [integer_of_eq hholds.totalSnapsTaken] at hcount ⊢
    rw [readUser_eq_some.2 (hholds.set_snaps ⟨by omega, hcount⟩)]
    rfl

/-- The balance is read as any number. -/
theorem readUser_set_money (h : (readUser f).isSome = true) (q : ℚ) :
    (readUser (f.set .totalMoneyEarnedLocal (.number q))).isSome = true := by
  obtain ⟨p, hp⟩ := Option.isSome_iff_exists.1 h
  rw [readUser_eq_some.2 ((readUser_eq_some.1 hp).set_money q)]
  rfl

end Fields

/-! ## Writes that keep a document complete -/

/-- The write leaves values of the right kind. -/
def Write.Typed : Write → Prop
  | .setData _ fields => fields.Complete
  | .increment _ k q => k.Accepts (.number q)
  | .updateData _ k v => k.Accepts v
  | .addDocument _ _ => True

namespace Server

variable {s s' : Server} {doc : String}

theorem HasProfile.apply {w : Write} (hw : w.Typed) (h : s.HasProfile doc) :
    (s.apply w).HasProfile doc := by
  obtain ⟨f, hf, hc⟩ := h
  cases w with
  | setData doc' fields =>
    by_cases hd : doc = doc'
    · subst hd
      exact ⟨fields, by simp [Server.apply], hw⟩
    · exact ⟨f, by simp [Server.apply, hd, hf], hc⟩
  | increment doc' k q =>
    by_cases hd : doc = doc'
    · subst hd
      exact ⟨_, by simp [Server.apply, updateUser, hf], hc.increment hw⟩
    · exact ⟨f, by simp [Server.apply, updateUser, hd, hf], hc⟩
  | updateData doc' k v =>
    by_cases hd : doc = doc'
    · subst hd
      exact ⟨_, by simp [Server.apply, updateUser, hf], hc.set hw⟩
    · exact ⟨f, by simp [Server.apply, updateUser, hd, hf], hc⟩
  | addDocument c e => exact ⟨f, hf, hc⟩

theorem HasProfile.foldl {ws : List Write} (hws : ∀ w ∈ ws, w.Typed) (h : s.HasProfile doc) :
    (ws.foldl Server.apply s).HasProfile doc := by
  induction ws generalizing s with
  | nil => exact h
  | cons w ws ih =>
    exact ih (fun x hx => hws x (List.mem_cons_of_mem _ hx)) (h.apply (hws w List.mem_cons_self))

theorem HasProfile.of_users (h : s.HasProfile doc) (hu : s'.users = s.users) : s'.HasProfile doc := by
  obtain ⟨f, hf, hc⟩ := h
  exact ⟨f, by rw [hu, hf], hc⟩

end Server

theorem userDocument_complete (name email phone password : String) :
    (userDocument name email phone password).Complete := by
  have h : (readUser (Fields.empty.setUser (newUser name email phone))).isSome = true := by
    rw [Fields.readUser_newUser]
    rfl
  exact (Fields.readUser_isSome.1 h).1.set trivial

end Datability
