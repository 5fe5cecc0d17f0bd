import LanguageHub.Text.Case
import LanguageHub.Text.Utf8
import Mathlib.Algebra.Group.Nat.Defs

/-!
# Slashes survive decoding and lower-casing

Roots are compared as whole texts, and paths are compared name by name. The two agree because
a slash separates before and after: reading bytes as a text and mapping a text to lower case both
**work on each side of a slash on its own** (`Text.Utf8.decodeLossy_slash`, `Text.lowercase_slash`),
and neither makes a slash out of anything else.

For bytes this is so because no longer character goes on across a slash. For lower-casing it is
the rule of the final sigma that could look across, and does not: a slash has no case, and
the search for a cased neighbour does not step over it.
-/

namespace LanguageHub.Text

namespace Utf8

/-- A slash does not continue a character. -/
theorem continuation_slash (n v : Nat) (s t : List UInt8) :
    continuation n v (s ++ 0x2F :: t) =
      ((continuation n v s).1, (continuation n v s).2 ++ 0x2F :: t) := by
  induction n generalizing v s with
  | zero => rfl
  | succ n ih =>
    cases s with
    | nil =>
      have hc : isContinuation 0x2F = false := by decide
      simp [continuation, hc]
    | cons b s =>
      simp only [List.cons_append, continuation]
      split
      · exact ih _ _
      · rfl

theorem le_of_second {b lo hi : UInt8} {more : Nat} (h : second b = some (lo, hi, more)) :
    0x80 ≤ lo := by
  unfold second at h
  repeat' split at h
  all_goals first | (cases h; decide) | cases h

theorem step_slash (b : UInt8) (s t : List UInt8) :
    step b (s ++ 0x2F :: t) = ((step b s).1, (step b s).2 ++ 0x2F :: t) := by
  unfold step
  split
  · rfl
  · rcases hb : second b with _ | ⟨lo, hi, more⟩
    · rfl
    · cases s with
      | nil =>
        have hlo : ¬ lo ≤ 0x2F := by
          have h := le_of_second hb
          simp only [UInt8.le_iff_toNat_le] at h ⊢
          have h₁ : (0x80 : UInt8).toNat = 128 := rfl
          have h₂ : (0x2F : UInt8).toNat = 47 := rfl
          omega
        simp [hlo]
      | cons b' s =>
        simp only [List.cons_append]
        split
        · rw [continuation_slash]
        · rfl

theorem decodeLossy_cons (b : UInt8) (s : List UInt8) :
    decodeLossy (b :: s) = (step b s).1.getD (Char.ofNat 0xFFFD) :: decodeLossy (step b s).2 := by
  rw [decodeLossy]

/-- **Bytes are decoded on each side of a slash on its own.** -/
theorem decodeLossy_slash (s t : List UInt8) :
    decodeLossy (s ++ 0x2F :: t) = decodeLossy s ++ '/' :: decodeLossy t := by
  induction hn : s.length using Nat.strongRecOn generalizing s with
  | ind n ih =>
    cases s with
    | nil =>
      have hstep : step 0x2F t = (some '/', t) := rfl
      rw [List.nil_append, decodeLossy_cons, hstep, decodeLossy]
      rfl
    | cons b s =>
      have hlt := step_length b s
      rw [List.cons_append, decodeLossy_cons, decodeLossy_cons, step_slash,
        ih (step b s).2.length (by rw [← hn, List.length_cons]; omega) _ rfl, List.cons_append]

/-- A character that takes several bytes has at least the value of the first two. -/
theorem le_of_continuation {n v w : Nat} {s : List UInt8} (h : (continuation n v s).1 = some w) :
    v * 64 ^ n ≤ w := by
  induction n generalizing v s with
  | zero =>
    cases h
    simp
  | succ n ih =>
    cases s with
    | nil => cases h
    | cons b s =>
      simp only [continuation] at h
      split at h
      · rw [Nat.pow_succ, Nat.mul_comm (64 ^ n), ← Nat.mul_assoc]
        exact Nat.le_trans (Nat.mul_le_mul_right _ (Nat.le_add_right _ _)) (ih h)
      · cases h

/-- The first two bytes of a longer character say that it is none of the first 48. -/
theorem le_of_second_le {b b' lo hi : UInt8} {more : Nat} (h : second b = some (lo, hi, more))
    (hlo : lo ≤ b') (hhi : b' ≤ hi) : 48 ≤ (lead b * 64 + payload b') * 64 ^ more := by
  unfold second at h
  simp only [UInt8.le_iff_toNat_le, beq_iff_eq, Bool.and_eq_true, decide_eq_true_eq,
    ← UInt8.toNat_inj] at h hlo hhi
  simp only [lead, payload, UInt8.lt_iff_toNat_lt]
  repeat' split at h
  all_goals cases h
  all_goals simp only [UInt8.reduceToNat] at *
  all_goals (repeat' split) <;> omega

/-- Only zero is written for what is no character. -/
theorem eq_toNat_of_ofNat_eq {n : Nat} {c : Char} (hc : c ≠ '\x00') (h : Char.ofNat n = c) :
    n = c.toNat := by
  unfold Char.ofNat at h
  by_cases hn : n.isValidChar
  · rw [dif_pos hn] at h
    have hv : (Char.ofNatAux n hn).toNat = c.toNat := congrArg Char.toNat h
    exact hv
  · rw [dif_neg hn] at h
    exact absurd h.symm hc

theorem eq_of_ofNat_eq_slash {n : Nat} (h : Char.ofNat n = '/') : n = 47 :=
  eq_toNat_of_ofNat_eq (by decide) h

theorem continuation_suffix (n v : Nat) (s : List UInt8) : (continuation n v s).2 <:+ s := by
  induction n generalizing v s with
  | zero => exact List.suffix_rfl
  | succ n ih =>
    cases s with
    | nil => exact List.suffix_rfl
    | cons b s =>
      simp only [continuation]
      split
      · exact (ih _ s).trans (List.suffix_cons b s)
      · exact List.suffix_rfl

theorem step_suffix (b : UInt8) (s : List UInt8) : (step b s).2 <:+ s := by
  unfold step
  split
  · exact List.suffix_rfl
  · split
    · next b' s' _ =>
      split
      · exact (continuation_suffix _ _ s').trans (List.suffix_cons b' s')
      · exact List.suffix_rfl
    · exact List.suffix_rfl

/-- A character that takes several bytes is no slash. -/
theorem eq_of_step_eq_slash {b : UInt8} {s : List UInt8} (h : (step b s).1 = some '/') :
    b = 0x2F := by
  unfold step at h
  split at h
  · rw [← UInt8.toNat_inj]
    exact eq_of_ofNat_eq_slash (Option.some.inj h)
  · split at h
    · next lo hi more b' s' hb =>
      split at h
      · next hrange =>
        rw [Bool.and_eq_true, decide_eq_true_eq, decide_eq_true_eq] at hrange
        obtain ⟨w, hw, hc⟩ := Option.map_eq_some_iff.mp h
        have hle := Nat.le_trans (le_of_second_le hb hrange.1 hrange.2) (le_of_continuation hw)
        have hval := eq_of_ofNat_eq_slash hc
        omega
      · cases h
    · cases h

/-- **A slash comes from the byte of a slash**, and from nothing else. -/
theorem slash_mem_of_mem_decodeLossy {s : List UInt8} (h : '/' ∈ decodeLossy s) : 0x2F ∈ s := by
  induction hn : s.length using Nat.strongRecOn generalizing s with
  | ind n ih =>
    cases s with
    | nil => simp [decodeLossy] at h
    | cons b s =>
      rw [decodeLossy_cons, List.mem_cons] at h
      rcases h with h | h
      · rcases hc : (step b s).1 with _ | c
        · rw [hc] at h
          exact absurd h (by decide)
        · rw [hc, Option.getD_some] at h
          rw [← h] at hc
          rw [eq_of_step_eq_slash hc]
          exact List.mem_cons_self
      · have hlt := step_length b s
        have hmem := ih _ (by rw [← hn, List.length_cons]; omega) h rfl
        exact List.mem_cons_of_mem _ ((step_suffix b s).subset hmem)

end Utf8

/-! ### Lower-casing -/

/-- **A barrier** separates a text for lower-casing: it has no case, the search for a cased
neighbour does not step over it, and it is left as it is. -/
structure IsBarrier (d : Char) : Prop where
  uncased : isCased d = false
  kept : isCaseIgnorable d = false
  plain : lowerChar d = [d]
  ne_sigma : d ≠ 'Σ'

theorem isBarrier_slash : IsBarrier '/' := ⟨by decide +kernel, by decide +kernel, rfl, by decide⟩

theorem isBarrier_backslash : IsBarrier '\\' :=
  ⟨by decide +kernel, by decide +kernel, rfl, by decide⟩

theorem meetsCased_barrier {d : Char} (hd : IsBarrier d) (s t : List Char) :
    meetsCased (s ++ d :: t) = meetsCased s := by
  induction s with
  | nil => simp [meetsCased, hd.kept, hd.uncased]
  | cons c s ih =>
    unfold meetsCased at ih ⊢
    rw [List.cons_append]
    by_cases h : isCaseIgnorable c = true
    · rw [List.dropWhile_cons_of_pos h, List.dropWhile_cons_of_pos h]
      exact ih
    · rw [List.dropWhile_cons_of_neg h, List.dropWhile_cons_of_neg h]

/-- What comes before a barrier does not matter behind it. -/
theorem lowercaseFrom_barrier_before {d : Char} (hd : IsBarrier d) (a b s : List Char) :
    lowercaseFrom (a ++ d :: b) s = lowercaseFrom a s := by
  induction s generalizing a with
  | nil => rfl
  | cons c s ih =>
    have hih := ih (c :: a)
    rw [List.cons_append] at hih
    simp only [lowercaseFrom, lowerSigma, meetsCased_barrier hd, hih]

theorem lowercaseFrom_barrier {d : Char} (hd : IsBarrier d) (before s t : List Char) :
    lowercaseFrom before (s ++ d :: t) = lowercaseFrom before s ++ d :: lowercase t := by
  induction s generalizing before with
  | nil =>
    have hbefore := lowercaseFrom_barrier_before hd [] before t
    rw [List.nil_append] at hbefore
    simp [lowercaseFrom, hd.plain, hd.ne_sigma, hbefore, lowercase]
  | cons c s ih => simp [lowercaseFrom, lowerSigma, meetsCased_barrier hd, ih]

/-- **A text is lower-cased on each side of a barrier on its own.** -/
theorem lowercase_barrier {d : Char} (hd : IsBarrier d) (s t : List Char) :
    lowercase (s ++ d :: t) = lowercase s ++ d :: lowercase t :=
  lowercaseFrom_barrier hd [] s t

theorem lowercase_slash (s t : List Char) :
    lowercase (s ++ '/' :: t) = lowercase s ++ '/' :: lowercase t :=
  lowercase_barrier isBarrier_slash s t

theorem ofNat_eq_of_toLower_eq : ∀ n < 0x80,
    ((Char.ofNat n).toLower = '/' → Char.ofNat n = '/') ∧
      ((Char.ofNat n).toLower = '\\' → Char.ofNat n = '\\') := by
  decide

/-- No run of the table leads to a slash or a backslash. -/
theorem le_of_mem_caseRuns : ∀ r ∈ caseRuns, 93 ≤ (r.first : Int) + r.shift := by
  decide +kernel

/-- Only a slash becomes a slash, and only a backslash a backslash. -/
theorem eq_of_mem_lowerChar {c d : Char} (hd : d = '/' ∨ d = '\\') (h : d ∈ lowerChar c) :
    c = d := by
  unfold lowerChar at h
  split at h
  · next hlt =>
    have h := (List.mem_singleton.mp h).symm
    rw [← Char.ofNat_toNat c] at h ⊢
    rcases hd with rfl | rfl
    · exact (ofNat_eq_of_toLower_eq c.toNat hlt).1 h
    · exact (ofNat_eq_of_toLower_eq c.toNat hlt).2 h
  · split at h
    · rcases hd with rfl | rfl <;> simp at h
    · split at h
      · next r hr =>
        have hcovers := List.find?_some hr
        have hmem := List.mem_of_find?_eq_some hr
        have hle := le_of_mem_caseRuns r hmem
        rw [List.mem_singleton] at h
        have hfirst : r.first ≤ c.toNat := by
          simp only [CaseRun.covers, Bool.and_eq_true, decide_eq_true_eq] at hcovers
          exact hcovers.1.1
        have hn : (c.toNat + r.shift).toNat = d.toNat ∧ d.toNat ≤ 92 := by
          rcases hd with rfl | rfl
          · exact ⟨Utf8.eq_toNat_of_ofNat_eq (by decide) h.symm, by decide⟩
          · exact ⟨Utf8.eq_toNat_of_ofNat_eq (by decide) h.symm, by decide⟩
        omega
      · exact (List.mem_singleton.mp h).symm

/-- **Lower-casing makes no slash.** -/
theorem slash_mem_of_mem_lowercase {s : List Char} (h : '/' ∈ lowercase s) : '/' ∈ s := by
  have hfrom : ∀ (before s : List Char), '/' ∈ lowercaseFrom before s → '/' ∈ s := by
    intro before s
    induction s generalizing before with
    | nil => exact id
    | cons c s ih =>
      intro h
      rw [lowercaseFrom, List.mem_append] at h
      rcases h with h | h
      · split at h
        · unfold lowerSigma at h
          split at h <;> simp at h
        · rw [eq_of_mem_lowerChar (.inl rfl) h]
          exact List.mem_cons_self
      · exact List.mem_cons_of_mem _ (ih _ h)
  exact hfrom [] s h

end LanguageHub.Text
