import LanguageHub.Text.Utf8
import Mathlib.Algebra.Group.Nat.Defs
import Mathlib.Tactic.SplitIfs

/-!
# What is encoded is decoded

Every text comes back from its bytes (`Text.Utf8.decode?_encode`). A text is decoded character by
character, so this is a statement about one of them: `Text.Utf8.step` takes the bytes of a
character off the front, **whatever follows them** (`Text.Utf8.step_utf8EncodeChar`).

There is one lemma for each number of bytes. The range of the second byte depends on the first one:
it is what excludes surrogates, and numbers that fit into fewer bytes.
-/

namespace LanguageHub.Text.Utf8

variable {v n : Nat} {s rest : List UInt8}

theorem toNat_ofNat_of_lt (h : n < 256) : (UInt8.ofNat n).toNat = n := by
  rw [UInt8.toNat_ofNat']
  omega

/-- A byte with six bits of a character continues it, and carries them. -/
theorem continuation_ofNat (k v n : Nat) (s : List UInt8) :
    continuation (k + 1) v (UInt8.ofNat (n % 64 + 128) :: s) =
      continuation k (v * 64 + n % 64) s := by
  have h : (UInt8.ofNat (n % 64 + 128)).toNat = n % 64 + 128 := toNat_ofNat_of_lt (by omega)
  have hc : isContinuation (UInt8.ofNat (n % 64 + 128)) = true := by
    simp only [isContinuation, UInt8.le_iff_toNat_le, h, UInt8.reduceToNat, Bool.and_eq_true,
      decide_eq_true_eq]
    omega
  have hp : payload (UInt8.ofNat (n % 64 + 128)) = n % 64 := by
    rw [payload, h]
    omega
  rw [continuation, if_pos hc, hp]

/-- A longer character is taken if its second byte is one that may follow the first one. -/
theorem step_of_second {b lo hi : UInt8} {more : Nat}
    (hb : second b = some (lo, hi, more)) (hle : 0x80 ≤ b.toNat) (hlo : lo.toNat ≤ n % 64 + 128)
    (hhi : n % 64 + 128 ≤ hi.toNat)
    (hc : continuation more (lead b * 64 + n % 64) s = (some v, rest)) :
    step b (UInt8.ofNat (n % 64 + 128) :: s) = (some (Char.ofNat v), rest) := by
  have h : (UInt8.ofNat (n % 64 + 128)).toNat = n % 64 + 128 := toNat_ofNat_of_lt (by omega)
  have hnot : ¬ b < 0x80 := by
    rw [UInt8.lt_iff_toNat_lt, Nat.not_lt]
    exact hle
  have hin : (lo ≤ UInt8.ofNat (n % 64 + 128) && UInt8.ofNat (n % 64 + 128) ≤ hi) = true := by
    simp only [UInt8.le_iff_toNat_le, h, hlo, hhi, decide_true, Bool.and_self]
  have hp : payload (UInt8.ofNat (n % 64 + 128)) = n % 64 := by
    rw [payload, h]
    omega
  unfold step
  simp only [if_neg hnot, hb, hin, hp, hc, if_true, Option.map_some]

/-! ### One character -/

theorem step_one (h : v < 0x80) : step (UInt8.ofNat v) s = (some (Char.ofNat v), s) := by
  have hv : (UInt8.ofNat v).toNat = v := toNat_ofNat_of_lt (by omega)
  have hlt : UInt8.ofNat v < 0x80 := by
    rw [UInt8.lt_iff_toNat_lt, hv]
    exact h
  unfold step
  rw [if_pos hlt, hv]

theorem step_two (h : 0x80 ≤ v) (h' : v < 0x800) :
    step (UInt8.ofNat (v / 64 % 32 + 192)) (UInt8.ofNat (v % 64 + 128) :: s) =
      (some (Char.ofNat v), s) := by
  have hb : (UInt8.ofNat (v / 64 % 32 + 192)).toNat = v / 64 % 32 + 192 :=
    toNat_ofNat_of_lt (by omega)
  have hs : second (UInt8.ofNat (v / 64 % 32 + 192)) = some (0x80, 0xBF, 0) := by
    simp only [second, UInt8.le_iff_toNat_le, hb, UInt8.reduceToNat, Bool.and_eq_true,
      decide_eq_true_eq]
    rw [if_pos (by omega)]
  refine step_of_second hs (by omega) ?_ ?_ ?_
  · simp only [UInt8.reduceToNat]
    omega
  · simp only [UInt8.reduceToNat]
    omega
  · simp only [continuation, lead, hb, UInt8.lt_iff_toNat_lt, UInt8.reduceToNat]
    rw [if_pos (by omega)]
    congr 2
    omega

theorem step_three (h : 0x800 ≤ v) (h' : v < 0x10000) (hnot : v < 0xD800 ∨ 0xDFFF < v) :
    step (UInt8.ofNat (v / 4096 % 16 + 224))
      (UInt8.ofNat (v / 64 % 64 + 128) :: UInt8.ofNat (v % 64 + 128) :: s) =
      (some (Char.ofNat v), s) := by
  have hb : (UInt8.ofNat (v / 4096 % 16 + 224)).toNat = v / 4096 % 16 + 224 :=
    toNat_ofNat_of_lt (by omega)
  -- too small a number and a surrogate are what the second byte rules out
  obtain ⟨lo, hi, hs, hlo, hhi⟩ : ∃ lo hi,
      second (UInt8.ofNat (v / 4096 % 16 + 224)) = some (lo, hi, 1) ∧
        lo.toNat ≤ v / 64 % 64 + 128 ∧ v / 64 % 64 + 128 ≤ hi.toNat := by
    simp only [second, UInt8.le_iff_toNat_le, beq_iff_eq, ← UInt8.toNat_inj, hb,
      UInt8.reduceToNat, Bool.and_eq_true, decide_eq_true_eq]
    split_ifs
    any_goals omega
    all_goals
      refine ⟨_, _, rfl, ?_⟩
      simp only [UInt8.reduceToNat]
      omega
  refine step_of_second hs (by omega) hlo hhi ?_
  simp only [lead, hb, UInt8.lt_iff_toNat_lt, UInt8.reduceToNat]
  rw [if_neg (by omega), if_pos (by omega), continuation_ofNat, continuation]
  congr 2
  omega

theorem step_four (h : 0x10000 ≤ v) (h' : v < 0x110000) :
    step (UInt8.ofNat (v / 262144 % 8 + 240)) (UInt8.ofNat (v / 4096 % 64 + 128) ::
      UInt8.ofNat (v / 64 % 64 + 128) :: UInt8.ofNat (v % 64 + 128) :: s) =
      (some (Char.ofNat v), s) := by
  have hb : (UInt8.ofNat (v / 262144 % 8 + 240)).toNat = v / 262144 % 8 + 240 :=
    toNat_ofNat_of_lt (by omega)
  obtain ⟨lo, hi, hs, hlo, hhi⟩ : ∃ lo hi,
      second (UInt8.ofNat (v / 262144 % 8 + 240)) = some (lo, hi, 2) ∧
        lo.toNat ≤ v / 4096 % 64 + 128 ∧ v / 4096 % 64 + 128 ≤ hi.toNat := by
    simp only [second, UInt8.le_iff_toNat_le, beq_iff_eq, ← UInt8.toNat_inj, hb,
      UInt8.reduceToNat, Bool.and_eq_true, decide_eq_true_eq]
    split_ifs
    any_goals omega
    all_goals
      refine ⟨_, _, rfl, ?_⟩
      simp only [UInt8.reduceToNat]
      omega
  refine step_of_second hs (by omega) hlo hhi ?_
  simp only [lead, hb, UInt8.lt_iff_toNat_lt, UInt8.reduceToNat]
  rw [if_neg (by omega), if_neg (by omega), continuation_ofNat, continuation_ofNat, continuation]
  congr 2
  omega

/-- **The bytes of a character are taken off the front**, and nothing of what follows them. -/
theorem step_utf8EncodeChar (c : Char) (s : List UInt8) :
    ∃ b r, String.utf8EncodeChar c = b :: r ∧ step b (r ++ s) = (some c, s) := by
  obtain ⟨v, hv⟩ : ∃ v, c.val.toNat = v := ⟨_, rfl⟩
  have hvalid : v < 0xD800 ∨ (0xDFFF < v ∧ v < 0x110000) := hv ▸ c.valid
  have hc : c = Char.ofNat v := by rw [← hv, Char.toNat_val, Char.ofNat_toNat]
  unfold String.utf8EncodeChar
  simp only [hv]
  rw [hc]
  split
  · exact ⟨_, _, rfl, step_one (by omega)⟩
  split
  · exact ⟨_, _, rfl, step_two (by omega) (by omega)⟩
  split
  · exact ⟨_, _, rfl, step_three (by omega) (by omega) (by omega)⟩
  · exact ⟨_, _, rfl, step_four (by omega) (by omega)⟩

/-! ### Texts -/

@[simp] theorem encode_nil : encode [] = [] := rfl

@[simp] theorem encode_cons (c : Char) (s : List Char) :
    encode (c :: s) = String.utf8EncodeChar c ++ encode s := List.flatMap_cons

@[simp] theorem encode_append (s t : List Char) : encode (s ++ t) = encode s ++ encode t :=
  List.flatMap_append

theorem decode?_cons_of_step {b : UInt8} {c : Char} (h : step b s = (some c, rest)) :
    decode? (b :: s) = (decode? rest).map (c :: ·) := by
  rw [decode?]
  split
  · next heq =>
    rw [h] at heq
    cases heq
    rfl
  · next heq =>
    rw [h] at heq
    cases heq

/-- **A text is decoded from its bytes.** -/
theorem decode?_encode (s : List Char) : decode? (encode s) = some s := by
  induction s with
  | nil => rw [encode_nil, decode?]
  | cons c s ih =>
    obtain ⟨b, r, heq, hstep⟩ := step_utf8EncodeChar c (encode s)
    rw [encode_cons, heq, List.cons_append, decode?_cons_of_step hstep, ih, Option.map_some]

end LanguageHub.Text.Utf8
