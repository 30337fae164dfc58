import Datability.Ledger

/-!
# Proofs: fields, documents and writes

The simp set of the two stores: what a field holds after an assignment, a removal or one of the whole
profile assignments, and what a counter of `users/<uid>` is after a write.
-/

namespace Datability

theorem Uid.val_injective : Function.Injective Uid.val := by
  rintro ⟨a, ha⟩ ⟨b, hb⟩ (rfl : a = b)
  rfl

namespace Fields

@[simp] theorem set_self (f : Fields) (k : Key) (v : Value) : f.set k v k = some v := by
  simp [set]

@[simp] theorem set_of_ne (f : Fields) {k k' : Key} (v : Value) (h : k' ≠ k) :
    f.set k v k' = f k' := by
  simp [set, h]

@[simp] theorem double_set_self (f : Fields) (k : Key) (q : ℚ) :
    (f.set k (.number q)).double k = q := by
  simp [double]

@[simp] theorem double_set_of_ne (f : Fields) {k k' : Key} (v : Value) (h : k' ≠ k) :
    (f.set k v).double k' = f.double k' := by
  simp [double, h]

theorem double_of_eq {f : Fields} {k : Key} {q : ℚ} (h : f k = some (.number q)) :
    f.double k = q := by
  simp [double, h]

theorem integer_of_eq {f : Fields} {k : Key} {z : ℤ} (h : f k = some (.number z)) :
    f.integer k = z := by
  rw [integer, double_of_eq h, Rat.num_intCast, Rat.den_intCast]
  exact Int.tdiv_one z

/-- A sign-out leaves nothing but the key that is never set. -/
theorem removeUser_apply (f : Fields) (k : Key) :
    f.removeUser k = if k = .password then f k else none := by
  cases k <;> simp [removeUser, removeObject]

end Fields

namespace Server

variable {s : Server} {u : Uid} {k k' : Key} {q : ℚ}

theorem HasNumber.exists_doc (h : s.HasNumber u k) : ∃ f, s.users u.val = some f := by
  obtain ⟨q, hq⟩ := h
  obtain ⟨f, hf, -⟩ := Option.bind_eq_some_iff.1 hq
  exact ⟨f, hf⟩

/-- Where there is a number, the counter is that number. -/
theorem HasNumber.field_eq (h : s.HasNumber u k) :
    s.field u.val k = some (.number (s.counter u k)) := by
  obtain ⟨q, hq⟩ := h
  obtain ⟨f, hf, hk⟩ := Option.bind_eq_some_iff.1 hq
  rw [hq, counter, hf, Option.map_some, Option.getD_some, Fields.double_of_eq hk]

theorem counter_eq_of_field (h : s.field u.val k = some (.number q)) : s.counter u k = q := by
  have := HasNumber.field_eq ⟨q, h⟩
  rw [h] at this
  simpa using this.symm

/-! ## Writes to the document itself -/

/-- A write to a document that exists changes one field of it. -/
theorem users_increment_self {doc : String} {f : Fields} (h : s.users doc = some f) :
    (s.apply (.increment doc k q)).users doc = some (f.set k (.number (f.double k + q))) := by
  simp [apply, updateUser, h]

theorem users_updateData_self {doc : String} {f : Fields} {v : Value} (h : s.users doc = some f) :
    (s.apply (.updateData doc k v)).users doc = some (f.set k v) := by
  simp [apply, updateUser, h]

/-- An increment moves its own counter and no other. -/
theorem counter_increment (h : ∃ f, s.users u.val = some f) :
    (s.apply (.increment u.val k q)).counter u k' =
      s.counter u k' + if k' = k then q else 0 := by
  obtain ⟨f, hf⟩ := h
  by_cases hk : k' = k
  · subst hk; simp [apply, updateUser, counter, hf]
  · simp [apply, updateUser, counter, hf, hk]

/-- Neither an increment nor the assignment of a number turns a counter into something else. -/
theorem HasNumber.increment (h : s.HasNumber u k') (k : Key) (q : ℚ) :
    (s.apply (.increment u.val k q)).HasNumber u k' := by
  obtain ⟨q', hq'⟩ := h
  obtain ⟨f, hf, hk'⟩ := Option.bind_eq_some_iff.1 hq'
  by_cases hk : k' = k
  · subst hk
    exact ⟨f.double k' + q, by simp [field, apply, updateUser, hf]⟩
  · exact ⟨q', by simp [field, apply, updateUser, hf, hk, hk']⟩

/-- An assignment sets its own counter and no other. -/
theorem counter_updateData (h : ∃ f, s.users u.val = some f) :
    (s.apply (.updateData u.val k (.number q))).counter u k' =
      if k' = k then q else s.counter u k' := by
  obtain ⟨f, hf⟩ := h
  by_cases hk : k' = k
  · subst hk; simp [apply, updateUser, counter, hf]
  · simp [apply, updateUser, counter, hf, hk]

theorem HasNumber.updateData (h : s.HasNumber u k') (k : Key) (q : ℚ) :
    (s.apply (.updateData u.val k (.number q))).HasNumber u k' := by
  obtain ⟨q', hq'⟩ := h
  obtain ⟨f, hf, hk'⟩ := Option.bind_eq_some_iff.1 hq'
  by_cases hk : k' = k
  · subst hk
    exact ⟨q, by simp [field, apply, updateUser, hf]⟩
  · exact ⟨q', by simp [field, apply, updateUser, hf, hk, hk']⟩

/-! ## Fields after a write -/

/-- The users' documents after some writes depend on the users' documents before. -/
theorem users_foldl_apply {s' : Server} (ws : List Write) (h : s'.users = s.users) :
    (ws.foldl apply s').users = (ws.foldl apply s).users := by
  induction ws generalizing s s' with
  | nil => exact h
  | cons x ws ih =>
    refine ih ?_
    cases x <;> simp [apply, updateUser, h]

/-- The server adds to the number that it finds. -/
theorem field_increment_self {doc : String} {q' : ℚ} (h : s.field doc k = some (.number q')) :
    (s.apply (.increment doc k q)).field doc k = some (.number (q' + q)) := by
  obtain ⟨f, hf, hk⟩ := Option.bind_eq_some_iff.1 h
  simp [field, apply, updateUser, hf, Fields.double_of_eq hk]

@[simp] theorem field_increment_of_ne {doc doc' : String} (hk : k' ≠ k) :
    (s.apply (.increment doc k q)).field doc' k' = s.field doc' k' := by
  by_cases hd : doc' = doc
  · subst hd
    cases hf : s.users doc' <;> simp [field, apply, updateUser, hf, hk]
  · simp [field, apply, updateUser, hd]

theorem field_updateData_self {doc : String} {v v' : Value} (h : s.field doc k = some v') :
    (s.apply (.updateData doc k v)).field doc k = some v := by
  obtain ⟨f, hf, hk⟩ := Option.bind_eq_some_iff.1 h
  simp [field, apply, updateUser, hf]

@[simp] theorem field_updateData_of_ne {doc doc' : String} {v : Value} (hk : k' ≠ k) :
    (s.apply (.updateData doc k v)).field doc' k' = s.field doc' k' := by
  by_cases hd : doc' = doc
  · subst hd
    cases hf : s.users doc' <;> simp [field, apply, updateUser, hf, hk]
  · simp [field, apply, updateUser, hd]

@[simp] theorem field_addDocument (doc c : String) (e : Entry) :
    (s.apply (.addDocument c e)).field doc k = s.field doc k := rfl

@[simp] theorem counter_addDocument (c : String) (e : Entry) :
    (s.apply (.addDocument c e)).counter u k = s.counter u k := rfl

theorem HasNumber.addDocument (h : s.HasNumber u k) (c : String) (e : Entry) :
    (s.apply (.addDocument c e)).HasNumber u k := h

@[simp] theorem entries_increment (doc : String) :
    (s.apply (.increment doc k q)).entries = s.entries := rfl

@[simp] theorem entries_updateData (doc : String) (v : Value) :
    (s.apply (.updateData doc k v)).entries = s.entries := rfl

@[simp] theorem entries_addDocument (c : String) (e : Entry) :
    (s.apply (.addDocument c e)).entries = s.entries ++ [(c, e)] := rfl

end Server

/-- A write of a ledger run keeps every counter a number. -/
theorem Issued.Ledger.hasNumber {u : Uid} {x : Issued} (hx : x.Ledger u) {s : Server} {k : Key}
    (h : s.HasNumber u k) : (s.apply x.write).HasNumber u k := by
  cases hx with
  | snap p => exact h.increment _ _
  | credit p r hlo hhi => exact h.increment _ _
  | first p => exact h.increment _ _
  | payout a => exact h.updateData _ _
  | entry p c e he => exact h.addDocument _ _

end Datability
