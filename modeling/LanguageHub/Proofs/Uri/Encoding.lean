import LanguageHub.Uri.File
import Mathlib.Data.List.Basic

/-!
# What is percent-encoded is decoded

Every byte string comes back from its encoding (`Uri.Percent.decode_encode`), whatever the set of
bytes that are encoded: the percent sign has to be one of them, and so has every byte that is no
character by itself (`Uri.Percent.Sound`).

Two more facts make an encoded name fit to stand in a path. A character that is encoded, and that
is no part of an encoding, does **not occur** in it (`Uri.Percent.not_mem_encode`), so that a name
cannot be cut in two. And a name has **no hidden dots** (`Uri.Percent.plainDots_encode`): a dot is
never written as `%2E`, and the percent sign of a name that looks like an encoded dot is encoded
itself.
-/

namespace LanguageHub.Uri.Percent

/-- **A set of bytes that an encoding must at least contain**: the percent sign, and what is no
character by itself. -/
structure Sound (isSpecial : UInt8 → Bool) : Prop where
  percent : isSpecial 0x25 = true
  ascii : ∀ b, isSpecial b = false → b.toNat < 0x80

/-- The text of one byte. -/
def encodeByte (isSpecial : UInt8 → Bool) (b : UInt8) : List Char :=
  if isSpecial b then ['%', digit (b.toNat / 16), digit (b.toNat % 16)] else [Char.ofNat b.toNat]

variable {isSpecial : UInt8 → Bool} {b : UInt8} {bytes : List UInt8} {c : Char} {s : List Char}

@[simp] theorem encode_nil : encode isSpecial [] = [] := rfl

@[simp] theorem encode_cons :
    encode isSpecial (b :: bytes) = encodeByte isSpecial b ++ encode isSpecial bytes := rfl

theorem encodeByte_of_special (h : isSpecial b = true) :
    encodeByte isSpecial b = ['%', digit (b.toNat / 16), digit (b.toNat % 16)] := if_pos h

theorem encodeByte_of_plain (h : isSpecial b = false) :
    encodeByte isSpecial b = [Char.ofNat b.toNat] := by
  rw [encodeByte, h, if_neg Bool.false_ne_true]

/-! ### Digits and characters -/

theorem value?_digit : ∀ n < 16, value? (digit n) = some n := by decide

theorem isHexDigit_digit : ∀ n < 16, isHexDigit (digit n) = true := by decide

/-- Only small letters spell a digit in another way. -/
theorem digit_ne_e : ∀ n < 16, digit n ≠ 'e' := by decide

theorem eq_of_digit_eq_E : ∀ n < 16, digit n = 'E' → n = 14 := by decide

theorem eq_of_digit_eq_two : ∀ n < 16, digit n = '2' → n = 2 := by decide

theorem div_lt_sixteen (b : UInt8) : b.toNat / 16 < 16 := by
  have := b.toNat_lt
  omega

theorem mod_lt_sixteen (b : UInt8) : b.toNat % 16 < 16 := Nat.mod_lt _ (by decide)

/-- A byte that stands for itself is the code of its character. -/
theorem toNat_ofNat_byte (b : UInt8) : (Char.ofNat b.toNat).toNat = b.toNat := by
  have hb := b.toNat_lt
  rw [Char.ofNat, dif_pos (.inl (by omega))]
  rfl

theorem eq_of_ofNat_eq (h : Char.ofNat b.toNat = c) : b = UInt8.ofNat c.toNat := by
  rw [← h, toNat_ofNat_byte, UInt8.ofNat_toNat]

/-- A percent sign stands only in front of digits. -/
theorem Sound.ofNat_ne_percent (h : Sound isSpecial) (hb : isSpecial b = false) :
    Char.ofNat b.toNat ≠ '%' := by
  intro heq
  have hspecial := h.percent
  rw [← show b = 0x25 from eq_of_ofNat_eq heq, hb] at hspecial
  cases hspecial

/-! ### Decoding -/

theorem decode_cons_of_ne (h : c ≠ '%') :
    decode (c :: s) = String.utf8EncodeChar c ++ decode s := by
  rw [decode]
  rintro a b t heq
  cases heq
  exact absurd rfl h

/-- **One byte comes back**, whatever follows it. -/
theorem decode_encodeByte (h : Sound isSpecial) (b : UInt8) (s : List Char) :
    decode (encodeByte isSpecial b ++ s) = b :: decode s := by
  cases hb : isSpecial b with
  | true =>
    have hval : UInt8.ofNat (b.toNat / 16 * 16 + b.toNat % 16) = b := by
      rw [Nat.div_add_mod', UInt8.ofNat_toNat]
    rw [encodeByte_of_special hb]
    simp only [List.cons_append, List.nil_append, decode, value?_digit _ (div_lt_sixteen b),
      value?_digit _ (mod_lt_sixteen b), hval]
  | false =>
    -- a character below 0x80 has one byte
    have hbytes : String.utf8EncodeChar (Char.ofNat b.toNat) = [b] := by
      have hlt := h.ascii b hb
      have hval : (Char.ofNat b.toNat).val.toNat = b.toNat := toNat_ofNat_byte b
      unfold String.utf8EncodeChar
      simp only [hval]
      rw [if_pos (by omega), UInt8.ofNat_toNat]
    rw [encodeByte_of_plain hb, List.singleton_append, decode_cons_of_ne (h.ofNat_ne_percent hb),
      hbytes, List.singleton_append]

/-- **What is encoded is decoded.** -/
theorem decode_encode (h : Sound isSpecial) (bytes : List UInt8) :
    decode (encode isSpecial bytes) = bytes := by
  induction bytes with
  | nil => rfl
  | cons b bytes ih => rw [encode_cons, decode_encodeByte h, ih]

/-! ### What does not occur in an encoding -/

/-- **A character that is encoded does not occur**, unless it is one that encodings are made of. -/
theorem not_mem_encode (hspecial : isSpecial (UInt8.ofNat c.toNat) = true) (hpercent : c ≠ '%')
    (hdigit : isHexDigit c = false) : c ∉ encode isSpecial bytes := by
  have hne : ∀ n < 16, c ≠ digit n := by
    rintro n hn rfl
    rw [isHexDigit_digit n hn] at hdigit
    cases hdigit
  induction bytes with
  | nil => exact List.not_mem_nil
  | cons b bytes ih =>
    rw [encode_cons, List.mem_append, not_or]
    refine ⟨fun hmem => ?_, ih⟩
    cases hb : isSpecial b with
    | true =>
      rw [encodeByte_of_special hb] at hmem
      simp only [List.mem_cons, List.not_mem_nil, or_false] at hmem
      rcases hmem with h | h | h
      · exact hpercent h
      · exact hne _ (div_lt_sixteen b) h
      · exact hne _ (mod_lt_sixteen b) h
    | false =>
      rw [encodeByte_of_plain hb, List.mem_singleton] at hmem
      rw [eq_of_ofNat_eq hmem.symm, hspecial] at hb
      cases hb

/-! ### Dots -/

theorem plainDots_cons_of_ne (h : c ≠ '%') : plainDots (c :: s) = c :: plainDots s := by
  rw [plainDots]
  · exact fun t heq => absurd heq h
  · exact fun t heq => absurd heq h

/-- A percent sign that does not begin an encoded dot stays. -/
theorem plainDots_percent {a b : Char} (h : a = '2' → b ≠ 'e' ∧ b ≠ 'E') :
    plainDots ('%' :: a :: b :: s) = '%' :: plainDots (a :: b :: s) := by
  rw [plainDots]
  · rintro t - heq
    cases heq
    exact (h rfl).1 rfl
  · rintro t - heq
    cases heq
    exact (h rfl).2 rfl

theorem ne_percent_of_isHexDigit (h : isHexDigit c = true) : c ≠ '%' := by
  rintro rfl
  exact absurd h (by decide)

/-- **An encoding has no hidden dots**, if dots stand for themselves. -/
theorem plainDots_encode (h : Sound isSpecial) (hdot : isSpecial 0x2E = false)
    (bytes : List UInt8) : plainDots (encode isSpecial bytes) = encode isSpecial bytes := by
  induction bytes with
  | nil => rfl
  | cons b bytes ih =>
    rw [encode_cons]
    cases hb : isSpecial b with
    | true =>
      have hnot : digit (b.toNat / 16) = '2' →
          digit (b.toNat % 16) ≠ 'e' ∧ digit (b.toNat % 16) ≠ 'E' := by
        intro htwo
        refine ⟨digit_ne_e _ (mod_lt_sixteen b), fun hE => ?_⟩
        have hdiv := eq_of_digit_eq_two _ (div_lt_sixteen b) htwo
        have hmod := eq_of_digit_eq_E _ (mod_lt_sixteen b) hE
        have hval : b = 0x2E := by
          rw [← UInt8.toNat_inj]
          exact (by omega : b.toNat = 46)
        rw [hval, hdot] at hb
        cases hb
      rw [encodeByte_of_special hb]
      simp only [List.cons_append, List.nil_append]
      rw [plainDots_percent hnot,
        plainDots_cons_of_ne (ne_percent_of_isHexDigit (isHexDigit_digit _ (div_lt_sixteen b))),
        plainDots_cons_of_ne (ne_percent_of_isHexDigit (isHexDigit_digit _ (mod_lt_sixteen b))), ih]
    | false =>
      rw [encodeByte_of_plain hb, List.singleton_append,
        plainDots_cons_of_ne (h.ofNat_ne_percent hb), ih]

end LanguageHub.Uri.Percent
