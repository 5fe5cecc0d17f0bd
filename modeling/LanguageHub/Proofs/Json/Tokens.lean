import LanguageHub.Json.Parser
import LanguageHub.Json.Printer
import Mathlib.Algebra.Group.Nat.Defs
import Mathlib.Tactic.IntervalCases

/-!
# Integers and strings are read as they were written

The two kinds of tokens that carry data. **A string is read back whatever it holds**
(`Json.readString_write`): what `Json.writeChar` makes of a character, escaped or not, is one
character again for the reader. **An integer of 64 bits is read back**
(`Json.Number.read_write`): its digits fit into the significand, so no digit is dropped and no
rounding takes place.

A string ends at its quote, but an integer goes on as long as there are digits. So what follows an
integer has to end it (`Json.Number.Stops`).
-/

namespace LanguageHub.Json

/-! ### Integers -/

namespace Number

variable {n : Nat} {ds rest : List Char}

/-- An integer that fits into 64 bits, with or without a sign. -/
def Fits (i : Int) : Prop := -(2 ^ 63) ≤ i ∧ i < 2 ^ 64

/-- What does not go on with a number. -/
def Stops (rest : List Char) : Prop :=
  ∀ c tail, rest = c :: tail → isDigit c = false ∧ c ≠ '.' ∧ c ≠ 'e' ∧ c ≠ 'E'

theorem stops_nil : Stops [] := fun _ _ h => by cases h

theorem stops_cons {c : Char} (h : isDigit c = false ∧ c ≠ '.' ∧ c ≠ 'e' ∧ c ≠ 'E') :
    Stops (c :: rest) := by
  intro d tail heq
  cases heq
  exact h

theorem isDigit_of_mem_toDigits {c : Char} (h : c ∈ Nat.toDigits 10 n) : isDigit c = true :=
  Nat.isDigit_of_mem_toDigits (by omega) (by omega) h

/-- A number starts with a digit. -/
theorem exists_toDigits_eq_cons (n : Nat) :
    ∃ c tail, Nat.toDigits 10 n = c :: tail ∧ isDigit c = true := by
  obtain ⟨c, tail, h⟩ := List.exists_cons_of_ne_nil (Nat.toDigits_ne_nil (n := n) (b := 10))
  exact ⟨c, tail, h, isDigit_of_mem_toDigits (n := n) (by rw [h]; exact List.mem_cons_self)⟩

/-- No zero stands in front of the digits of a positive number. -/
theorem head?_toDigits_ne_zero (h : 0 < n) : (Nat.toDigits 10 n).head? ≠ some '0' := by
  induction n using Nat.strongRecOn with
  | ind n ih =>
    rcases Nat.lt_or_ge n 10 with hlt | hge
    · rw [Nat.toDigits_of_lt_base hlt, List.head?_cons, ne_eq, Option.some.injEq,
        Nat.digitChar_eq_zero]
      omega
    · obtain ⟨c, tail, hc, -⟩ := exists_toDigits_eq_cons (n / 10)
      have hne := ih (n / 10) (by omega) (by omega)
      rw [hc] at hne
      rwa [Nat.toDigits_of_base_le (by omega) hge, hc, List.cons_append]

/-- More digits make no number smaller. -/
theorem le_ofDigitChars (ds : List Char) (a : Nat) : a ≤ Nat.ofDigitChars 10 ds a := by
  induction ds generalizing a with
  | nil => rw [Nat.ofDigitChars_nil]
  | cons c ds ih =>
    rw [Nat.ofDigitChars_cons]
    exact Nat.le_trans (by omega) (ih _)

/-- Digits whose value fits into the significand are all taken into it. -/
theorem absorbWhole_eq {a : Nat} (h : Nat.ofDigitChars 10 ds a ≤ greatestSignificand) :
    absorbWhole a ds = (⟨Nat.ofDigitChars 10 ds a, 0⟩, true) := by
  induction ds generalizing a with
  | nil => rfl
  | cons c ds ih =>
    rw [Nat.ofDigitChars_cons, Nat.mul_comm] at h ⊢
    have hle : a * 10 + digitValue c ≤ greatestSignificand :=
      Nat.le_trans (le_ofDigitChars ds _) h
    simp only [absorbWhole]
    rw [if_pos hle]
    exact ih h

theorem takeDigits_append (h : ∀ c ∈ ds, isDigit c = true) (hrest : Stops rest) :
    takeDigits (ds ++ rest) = (ds, rest) := by
  have hstop : rest.takeWhile isDigit = [] ∧ rest.dropWhile isDigit = rest := by
    rcases rest with _ | ⟨c, tail⟩
    · exact ⟨rfl, rfl⟩
    · have hc := (hrest c tail rfl).1
      simp [hc]
  rw [takeDigits, List.takeWhile_append_of_pos h, List.dropWhile_append_of_pos h, hstop.1, hstop.2,
    List.append_nil]

/-- A literal that is a sign and digits, without a zero in front. -/
theorem readLiteral_cons {c : Char} (negative : Bool) (h : ∀ d ∈ c :: ds, isDigit d = true)
    (hzero : c = '0' → ds = []) (hrest : Stops rest) :
    readLiteral ((if negative then ['-'] else []) ++ c :: (ds ++ rest)) =
      some (⟨negative, c :: ds, none, none⟩, rest) := by
  have htake : takeDigits (c :: (ds ++ rest)) = (c :: ds, rest) := takeDigits_append h hrest
  have hminus : c ≠ '-' := by
    rintro rfl
    exact absurd (h '-' List.mem_cons_self) (by decide)
  rcases rest with _ | ⟨d, rest⟩
  · rw [List.append_nil] at htake ⊢
    cases negative <;> simpa [readLiteral, htake, hminus] using hzero
  · have hd := (hrest d rest rfl).2
    cases negative <;> simpa [readLiteral, htake, hminus, hd] using hzero

/-- The literal of an integer. -/
theorem readLiteral_toDigits (negative : Bool) (n : Nat) (hrest : Stops rest) :
    readLiteral ((if negative then ['-'] else []) ++ (Nat.toDigits 10 n ++ rest)) =
      some (⟨negative, Nat.toDigits 10 n, none, none⟩, rest) := by
  obtain ⟨c, tail, hds, -⟩ := exists_toDigits_eq_cons n
  have hzero : c = '0' → tail = [] := by
    rintro rfl
    rcases Nat.eq_zero_or_pos n with rfl | hpos
    · have hcons : ['0'] = '0' :: tail := hds
      exact (List.cons.inj hcons).2.symm
    · exact absurd (by rw [hds]; rfl) (head?_toDigits_ne_zero hpos)
  rw [hds, List.cons_append]
  exact readLiteral_cons negative (fun d hd => isDigit_of_mem_toDigits (hds ▸ hd)) hzero hrest

/-- The value of the literal of an integer. -/
theorem value?_toDigits {i : Int} (h : Fits i) :
    Literal.value? ⟨decide (i < 0), Nat.toDigits 10 i.natAbs, none, none⟩ = some (.int i) := by
  have hvalue := Nat.ofDigitChars_ten_toDigits (n := i.natAbs)
  have habsorb : absorbWhole 0 (Nat.toDigits 10 i.natAbs) = (⟨i.natAbs, 0⟩, true) := by
    rw [absorbWhole_eq, hvalue]
    rw [hvalue, greatestSignificand]
    have := h.1
    have := h.2
    simp only [UInt64.size]
    omega
  obtain ⟨hlo, hhi⟩ := h
  simp only [Literal.value?, habsorb, Bool.not_true, Bool.false_eq_true, if_false,
    Bool.not_eq_true', decide_eq_false_iff_not]
  by_cases hneg : i < 0
  · rw [if_neg (not_not_intro hneg), if_neg (by simp only [UInt64.size]; omega)]
    congr 2
    omega
  · rw [if_pos hneg]
    congr 2
    omega

/-- **An integer of 64 bits is read from its digits.** -/
theorem read_write {i : Int} (h : Fits i) (hrest : Stops rest) :
    read (write (.int i) ++ rest) = some (.int i, rest) := by
  have hliteral := readLiteral_toDigits (decide (i < 0)) i.natAbs hrest
  simp only [decide_eq_true_eq] at hliteral
  simp only [write, read, List.append_assoc, hliteral, Option.bind_eq_bind, Option.bind_some,
    value?_toDigits h]

end Number

/-! ### Strings -/

variable {s rest : List Char}

theorem hexValue?_hexDigit {n : Nat} (h : n < 16) : hexValue? (hexDigit n) = some n := by
  interval_cases n <;> rfl

/-- A control is read from the two digits of its code unit. -/
theorem readUnicode_control {c : Char} (h : c.toNat < 0x20) :
    readUnicode ('0' :: '0' :: hexDigit (c.toNat / 16) :: hexDigit (c.toNat % 16) :: s) =
      some (c, s) := by
  have hhigh : hexValue? (hexDigit (c.toNat / 16)) = some (c.toNat / 16) :=
    hexValue?_hexDigit (by omega)
  have hlow : hexValue? (hexDigit (c.toNat % 16)) = some (c.toNat % 16) :=
    hexValue?_hexDigit (by omega)
  have hzero : hexValue? '0' = some 0 := rfl
  have hunit : ((0 * 16 + 0) * 16 + c.toNat / 16) * 16 + c.toNat % 16 = c.toNat := by omega
  simp only [readUnicode, readHex4, hzero, hhigh, hlow, hunit, Option.bind_eq_bind,
    Option.bind_some]
  rw [if_neg (by omega), if_neg (by omega), Char.ofNat_toNat]

/-- **What is written for a character is one character again.** -/
theorem readChars_writeChar (fuel : Nat) (done : List Char) (c : Char) (s : List Char) :
    readChars (fuel + 1) done (writeChar c ++ s) = readChars fuel (c :: done) s := by
  unfold writeChar
  split_ifs with hquote hback _ _ _ _ _ hcontrol
  -- the escapes that have a letter of their own
  iterate 7 subst_vars; simp [readChars, readEscape]
  · have hu := readUnicode_control (s := s) hcontrol
    simp [readChars, readEscape, hu]
  · simp [readChars, hquote, hback, hcontrol]

/-- The characters of a string, up to its quote. -/
theorem readChars_flatMap (cs : List Char) {fuel : Nat} (done rest : List Char)
    (h : cs.length < fuel) :
    readChars fuel done (cs.flatMap writeChar ++ '"' :: rest) =
      some (done.reverse ++ cs, rest) := by
  induction cs generalizing fuel done with
  | nil =>
    obtain ⟨fuel, rfl⟩ := Nat.exists_eq_add_of_lt h
    simp [readChars]
  | cons c cs ih =>
    obtain ⟨fuel, rfl⟩ := Nat.exists_eq_add_of_lt h
    rw [List.flatMap_cons, List.append_assoc, readChars_writeChar, ih]
    · simp
    · simp at *
      omega

theorem length_le_flatMap_writeChar (cs : List Char) :
    cs.length ≤ (cs.flatMap writeChar).length := by
  induction cs with
  | nil => exact Nat.le_refl 0
  | cons c cs ih =>
    have hpos : 1 ≤ (writeChar c).length := by
      unfold writeChar
      split_ifs <;> simp
    rw [List.flatMap_cons, List.length_append, List.length_cons]
    omega

/-- A written string goes on after its opening quote. -/
theorem writeString_append (t : String) (rest : List Char) :
    writeString t ++ rest = '"' :: (t.toList.flatMap writeChar ++ '"' :: rest) := by
  simp [writeString]

/-- **A string is read from what was written for it**, whatever follows. -/
theorem readString_write (t : String) (rest : List Char) :
    readString (t.toList.flatMap writeChar ++ '"' :: rest) = some (t, rest) := by
  have hfuel : t.toList.length < (t.toList.flatMap writeChar ++ '"' :: rest).length + 1 := by
    have := length_le_flatMap_writeChar t.toList
    rw [List.length_append]
    omega
  simp only [readString, readChars_flatMap t.toList [] rest hfuel, List.reverse_nil,
    List.nil_append, Option.map_some, String.ofList_toList]

end LanguageHub.Json
