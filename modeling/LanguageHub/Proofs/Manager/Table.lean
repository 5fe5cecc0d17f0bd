import LanguageHub.Manager.Task
import LanguageHub.Proofs.Path.Roots

/-!
# The table and its slots

A key is looked up by what it names and not by how it is spelled, and `SessionKey.same` is an
equivalence. So **binding and unbinding change one key**: the slot of every other key is
what it was (`Manager.slotOf_bind`, `Manager.slotOf_unbind`).

A slot is seen in two ways, by the session in it (`Manager.sessionIn`) and by the task that may
create one (`Manager.creatorAt`). What comes to the queue of a slot or leaves it does not touch
the session.
-/

namespace LanguageHub

namespace Manager

variable {m : Manager} {key k : SessionKey} {slot t : Nat}

/-! ### Keys -/

theorem slotOf_congr (m : Manager) (h : key.same k = true) : m.slotOf key = m.slotOf k := by
  have hfun : (fun e : SessionKey × Nat => e.1.same key) = fun e => e.1.same k := by
    funext e
    exact SessionKey.same_congr h e.1
  unfold slotOf
  rw [hfun]

/-- A key that has a slot has an entry, under its first spelling. -/
theorem exists_entry_of_slotOf (h : m.slotOf key = some slot) :
    ∃ e ∈ m.table, e.1.same key = true ∧ e.2 = slot := by
  obtain ⟨e, he, rfl⟩ := Option.map_eq_some_iff.mp h
  exact ⟨e, List.mem_of_find?_eq_some he, by simpa using List.find?_some he, rfl⟩

/-- **A key that is bound has the slot, and no other key changes.** -/
theorem slotOf_bind (m : Manager) (key k : SessionKey) (slot : Nat) :
    (m.bind key slot).slotOf k = if key.same k then some slot else m.slotOf k := by
  unfold bind slotOf
  by_cases hany : m.table.any (·.1.same key) = true
  · rw [if_pos hany]
    have hfun : ((fun e : SessionKey × Nat => e.1.same k) ∘
        fun e : SessionKey × Nat => if e.1.same key then (e.1, slot) else e) =
          fun e => e.1.same k := by
      funext e
      by_cases he : e.1.same key = true
      · simp [he]
      · simp [he]
    rw [List.find?_map, hfun, Option.map_map]
    by_cases hk : key.same k = true
    · rw [if_pos hk]
      obtain ⟨e, he, hek⟩ := List.any_eq_true.mp hany
      have hfound : (m.table.find? (·.1.same k)).isSome = true :=
        List.find?_isSome.mpr ⟨e, he, SessionKey.same_trans hek hk⟩
      obtain ⟨e', he'⟩ := Option.isSome_iff_exists.mp hfound
      have hsame : e'.1.same k = true := by simpa using List.find?_some he'
      have hkey : e'.1.same key = true := SessionKey.same_trans hsame (SessionKey.same_symm hk)
      simp [he', hkey]
    · rw [if_neg hk]
      refine Option.map_congr fun e he => ?_
      have hsame : e.1.same k = true := by
        simpa using List.find?_some (Option.mem_def.mp he)
      have hkey : ¬ e.1.same key = true := fun h =>
        hk (SessionKey.same_trans (SessionKey.same_symm h) hsame)
      simp [hkey]
  · rw [if_neg hany, List.find?_append]
    by_cases hk : key.same k = true
    · have hnone : m.table.find? (·.1.same k) = none := by
        rw [List.find?_eq_none]
        intro e he hek
        exact hany (List.any_eq_true.mpr
          ⟨e, he, SessionKey.same_trans hek (SessionKey.same_symm hk)⟩)
      simp [hnone, hk]
    · simp [hk]

/-- What is in the table after a key was bound: what was there, or the key. -/
theorem mem_bind {e : SessionKey × Nat} (he : e ∈ (m.bind key slot).table) :
    e ∈ m.table ∨ (e.2 = slot ∧ e.1.same key = true) := by
  unfold bind at he
  by_cases hany : m.table.any (·.1.same key) = true
  · rw [if_pos hany] at he
    obtain ⟨e', he', rfl⟩ := List.mem_map.mp he
    by_cases hk : e'.1.same key = true
    · simp [hk]
    · simp [hk, he']
  · rw [if_neg hany] at he
    rcases List.mem_append.mp he with he | he
    · exact .inl he
    · obtain rfl := List.mem_singleton.mp he
      exact .inr ⟨rfl, SessionKey.same_refl key⟩

/-- A key is in the table as it was spelled first. -/
theorem key_of_mem_bind {e : SessionKey × Nat} (he : e ∈ (m.bind key slot).table) :
    e.1 = key ∨ ∃ e' ∈ m.table, e'.1 = e.1 := by
  unfold bind at he
  split at he
  · obtain ⟨e', he', rfl⟩ := List.mem_map.mp he
    refine .inr ⟨e', he', ?_⟩
    split <;> rfl
  · rcases List.mem_append.mp he with he | he
    · exact .inr ⟨e, he, rfl⟩
    · obtain rfl := List.mem_singleton.mp he
      exact .inl rfl

/-- **A key that is unbound has no slot, and no other key changes.** -/
theorem slotOf_unbind (m : Manager) (key k : SessionKey) :
    (m.unbind key).slotOf k = if key.same k then none else m.slotOf k := by
  unfold unbind slotOf
  rw [List.find?_filter]
  by_cases hk : key.same k = true
  · rw [if_pos hk]
    have hnone : m.table.find? (fun e => !e.1.same key && e.1.same k) = none := by
      rw [List.find?_eq_none]
      intro e _ he
      have he : e.1.same key = false ∧ e.1.same k = true := by simpa using he
      have hkey : e.1.same key = true := SessionKey.same_trans he.2 (SessionKey.same_symm hk)
      simp [he.1] at hkey
    simp [hnone]
  · rw [if_neg hk]
    congr 2
    funext e
    by_cases he : e.1.same k = true
    · have hkey : e.1.same key = false := by
        rw [Bool.eq_false_iff]
        exact fun h => hk (SessionKey.same_trans (SessionKey.same_symm h) he)
      simp [he, hkey]
    · simp [he]

/-! ### Slots -/

/-- The task that may create the session of a slot. -/
def creatorAt (m : Manager) (slot : Nat) : Option Nat := (m.slots[slot]?).bind (·.queue.head?)

theorem isCreator_iff {n : Nat} : m.isCreator slot n = true ↔ m.creatorAt slot = some n := by
  simp [isCreator, creatorAt]

theorem lt_length_of_sessionIn {i : Nat} (h : m.sessionIn slot = some i) :
    slot < m.slots.length := by
  obtain ⟨s, hs, -⟩ := Option.bind_eq_some_iff.mp h
  exact (List.getElem?_eq_some_iff.mp hs).1

@[simp] theorem bind_slots : (m.bind key slot).slots = m.slots := by
  unfold bind
  split <;> rfl

@[simp] theorem bind_sessions : (m.bind key slot).sessions = m.sessions := by
  unfold bind
  split <;> rfl

@[simp] theorem sessionIn_bind : (m.bind key slot).sessionIn t = m.sessionIn t := by
  simp only [sessionIn, bind_slots]

@[simp] theorem creatorAt_bind : (m.bind key slot).creatorAt t = m.creatorAt t := by
  simp only [creatorAt, bind_slots]

@[simp] theorem enterSlot_table {n : Nat} : (m.enterSlot slot n).table = m.table := by
  unfold enterSlot
  split <;> rfl

@[simp] theorem enterSlot_sessions {n : Nat} : (m.enterSlot slot n).sessions = m.sessions := by
  unfold enterSlot
  split <;> rfl

@[simp] theorem enterSlot_length {n : Nat} :
    (m.enterSlot slot n).slots.length = m.slots.length := by
  unfold enterSlot
  split <;> simp [setSlot]

@[simp] theorem leaveSlot_table : (m.leaveSlot slot).table = m.table := by
  unfold leaveSlot
  split <;> rfl

@[simp] theorem leaveSlot_sessions : (m.leaveSlot slot).sessions = m.sessions := by
  unfold leaveSlot
  split <;> rfl

@[simp] theorem leaveSlot_length : (m.leaveSlot slot).slots.length = m.slots.length := by
  unfold leaveSlot
  split <;> simp [setSlot]

/-- A slot that is filled has the session, and no other slot changes. -/
theorem sessionIn_setSlot (hslot : slot < m.slots.length) (x : Slot) :
    (m.setSlot slot x).sessionIn t = if t = slot then x.session else m.sessionIn t := by
  unfold setSlot sessionIn
  by_cases ht : t = slot
  · subst ht
    simp [hslot]
  · simp [ht, List.getElem?_set_ne (fun h => ht h.symm)]

/-- A new slot has no session. -/
@[simp] theorem sessionIn_newSlot : m.newSlot.1.sessionIn t = m.sessionIn t := by
  unfold newSlot sessionIn
  rcases Nat.lt_trichotomy t m.slots.length with hlt | rfl | hgt
  · simp [List.getElem?_append_left hlt]
  · simp
  · have h₁ : m.slots[t]? = none := List.getElem?_eq_none (Nat.le_of_lt hgt)
    have h₂ : (m.slots ++ [⟨none, []⟩])[t]? = none := by
      rw [List.getElem?_eq_none_iff, List.length_append, List.length_singleton]
      omega
    simp [h₁, h₂]

@[simp] theorem sessionIn_enterSlot {n : Nat} :
    (m.enterSlot slot n).sessionIn t = m.sessionIn t := by
  unfold enterSlot
  split
  · next s hs =>
    rw [sessionIn_setSlot (List.getElem?_eq_some_iff.mp hs).1]
    split
    · next h => simp [h, sessionIn, hs]
    · rfl
  · rfl

@[simp] theorem sessionIn_leaveSlot : (m.leaveSlot slot).sessionIn t = m.sessionIn t := by
  unfold leaveSlot
  split
  · next s hs =>
    rw [sessionIn_setSlot (List.getElem?_eq_some_iff.mp hs).1]
    split
    · next h => simp [h, sessionIn, hs]
    · rfl
  · rfl

/-- Whoever comes to a slot stands behind its creator. -/
theorem creatorAt_enterSlot {n c : Nat} (h : m.creatorAt t = some c) :
    (m.enterSlot slot n).creatorAt t = some c := by
  unfold enterSlot
  split
  · next s hs =>
    by_cases ht : t = slot
    · subst ht
      have hc : s.queue.head? = some c := by simpa [creatorAt, hs] using h
      have hlen := (List.getElem?_eq_some_iff.mp hs).1
      simp [creatorAt, setSlot, hlen, List.head?_append, hc]
    · have hne : slot ≠ t := fun h => ht h.symm
      simpa [creatorAt, setSlot, List.getElem?_set_ne hne] using h
  · exact h

theorem creatorAt_setSlot_of_ne (ht : t ≠ slot) (x : Slot) :
    (m.setSlot slot x).creatorAt t = m.creatorAt t := by
  have hne : slot ≠ t := fun h => ht h.symm
  simp [creatorAt, setSlot, List.getElem?_set_ne hne]

theorem creatorAt_leaveSlot_of_ne (ht : t ≠ slot) :
    (m.leaveSlot slot).creatorAt t = m.creatorAt t := by
  unfold leaveSlot
  split
  · exact creatorAt_setSlot_of_ne ht _
  · rfl

theorem creatorAt_newSlot {c : Nat} (h : m.creatorAt t = some c) :
    m.newSlot.1.creatorAt t = some c := by
  obtain ⟨s, hs, hc⟩ := Option.bind_eq_some_iff.mp h
  have hlt := (List.getElem?_eq_some_iff.mp hs).1
  simp [creatorAt, newSlot, List.getElem?_append_left hlt, hs, hc]

/-! ### A new slot for a key -/

/-- A key that gets a new slot has it from then on. -/
theorem slotOf_bind_newSlot (k : SessionKey) :
    (m.newSlot.1.bind key m.slots.length).slotOf k =
      if key.same k then some m.slots.length else m.slotOf k := by
  rw [slotOf_bind]
  rfl

theorem sessionIn_bind_newSlot :
    (m.newSlot.1.bind key m.slots.length).sessionIn t = m.sessionIn t := by
  rw [sessionIn_bind, sessionIn_newSlot]

theorem length_bind_newSlot :
    (m.newSlot.1.bind key m.slots.length).slots.length = m.slots.length + 1 := by
  simp [newSlot]

end Manager

end LanguageHub
