import LanguageHub.Frame
import LanguageHub.Proofs.Json.Tokens
import LanguageHub.Proofs.Text.Encoding
import Mathlib.Data.List.Basic

/-!
# The header of a frame

A frame that is written starts with the **length line** (`Frame.lengthLine`) and a blank line. Two
facts about the length line carry what is said about streams of frames: it sets the length
(`Frame.lineEffect_lengthLine`), and there is no line feed in it before its end
(`Frame.lineFeed_not_mem_lengthBytes`), so that no part of it is taken for a line.

It consists of ASCII characters, and its bytes are these characters (`Frame.encode_ascii`).
-/

namespace LanguageHub.Frame

open Json (Number.exists_toDigits_eq_cons)

variable {n : Nat} {s : List Char} {line : List UInt8}

/-! ### Lines -/

theorem takeLine_append (h : 0x0A ∉ line) (rest : List UInt8) :
    takeLine (line ++ 0x0A :: rest) = some (line ++ [0x0A], rest) := by
  induction line with
  | nil => rfl
  | cons b line ih =>
    have hb : b ≠ 0x0A := Ne.symm (List.ne_of_not_mem_cons h)
    rw [List.cons_append, takeLine, if_neg hb, ih (List.not_mem_of_not_mem_cons h)]
    rfl

theorem takeLine_eq_none (h : 0x0A ∉ line) : takeLine line = none := by
  induction line with
  | nil => rfl
  | cons b line ih =>
    have hb : b ≠ 0x0A := Ne.symm (List.ne_of_not_mem_cons h)
    rw [takeLine, if_neg hb, ih (List.not_mem_of_not_mem_cons h)]
    rfl

/-! ### Trimming -/

/-- What neither starts nor ends with a blank is what trimming leaves of it. -/
theorem trim_append (before s after : List Char) (hne : s ≠ [])
    (hbefore : ∀ c ∈ before, Text.isBlank c = true) (hafter : ∀ c ∈ after, Text.isBlank c = true)
    (hhead : ∀ c ∈ s.head?, Text.isBlank c = false)
    (hlast : ∀ c ∈ s.getLast?, Text.isBlank c = false) :
    Text.trim (before ++ (s ++ after)) = s := by
  have hstart : Text.trimStart (before ++ (s ++ after)) = s ++ after := by
    obtain ⟨c, tail, rfl⟩ := List.exists_cons_of_ne_nil hne
    rw [Text.trimStart, List.dropWhile_append_of_pos hbefore, List.cons_append,
      List.dropWhile_cons_of_neg (by simp [hhead c rfl])]
  have hreverse : s.reverse.dropWhile Text.isBlank = s.reverse := by
    obtain ⟨c, tail, heq⟩ := List.exists_cons_of_ne_nil (List.reverse_ne_nil_iff.mpr hne)
    have hc : s.getLast? = some c := by rw [← List.head?_reverse, heq]; rfl
    rw [heq, List.dropWhile_cons_of_neg (by simp [hlast c hc])]
  rw [Text.trim, hstart, Text.trimEnd, List.reverse_append, List.dropWhile_append_of_pos
    (fun c hc => hafter c (List.mem_reverse.mp hc)), hreverse, List.reverse_reverse]

/-! ### Digits -/

theorem isDigit_of_mem_toDigits {c : Char} (h : c ∈ Nat.toDigits 10 n) : c.isDigit = true :=
  Nat.isDigit_of_mem_toDigits (by omega) (by omega) h

theorem toNat_of_isDigit {c : Char} (h : c.isDigit = true) : 48 ≤ c.toNat ∧ c.toNat ≤ 57 := by
  simp only [Char.isDigit, Bool.and_eq_true, decide_eq_true_eq, UInt32.le_iff_toNat_le, ge_iff_le]
    at h
  exact h

theorem isBlank_of_isDigit {c : Char} (h : c.isDigit = true) : Text.isBlank c = false := by
  have := toNat_of_isDigit h
  simp only [Text.isBlank, Bool.or_eq_false_iff, Bool.and_eq_false_iff, decide_eq_false_iff_not,
    beq_eq_false_iff_ne]
  omega

/-- The digits of a length are read as this length. -/
theorem readLength_toDigits (h : n < UInt64.size) : readLength (Nat.toDigits 10 n) = some n := by
  have hdigits : (Nat.toDigits 10 n).all Char.isDigit = true :=
    List.all_eq_true.mpr fun _ hc => isDigit_of_mem_toDigits hc
  have hvalue : (Nat.toDigits 10 n).foldl (fun n c => n * 10 + (c.toNat - 48)) 0 = n := by
    have := Nat.ofDigitChars_ten_toDigits (n := n)
    rw [Nat.ofDigitChars_eq_foldl] at this
    simp only [Nat.mul_comm] at this
    exact this
  obtain ⟨c, tail, hds, hc⟩ := Number.exists_toDigits_eq_cons n
  have hplus : c ≠ '+' := by
    rintro rfl
    exact absurd hc (by decide)
  rw [hds] at hdigits hvalue ⊢
  simp [readLength, hplus, hdigits, hvalue, h]

/-! ### The length line -/

/-- The header line that gives a length, without its line end. -/
def lengthLine (n : Nat) : List Char := lengthName.toList ++ [':', ' '] ++ Nat.toDigits 10 n

/-- The bytes of the length line, up to its line feed. -/
def lengthBytes (n : Nat) : List UInt8 := Text.Utf8.encode (lengthLine n ++ ['\r'])

/-- ASCII characters are bytes. -/
theorem encode_ascii (h : ∀ c ∈ s, c.toNat < 0x80) :
    Text.Utf8.encode s = s.map fun c => UInt8.ofNat c.toNat := by
  induction s with
  | nil => rfl
  | cons c s ih =>
    have hc : c.val.toNat ≤ 0x7f := Nat.le_of_lt_succ (h c List.mem_cons_self)
    have hone : String.utf8EncodeChar c = [UInt8.ofNat c.toNat] := by
      unfold String.utf8EncodeChar
      simp only [hc, if_true]
      rfl
    rw [Text.Utf8.encode_cons, ih fun d hd => h d (List.mem_cons_of_mem _ hd), hone]
    rfl

theorem ascii_of_mem_lengthLine {c : Char} (h : c ∈ lengthLine n ++ ['\r']) :
    c.toNat < 0x80 ∧ c ≠ '\n' := by
  simp only [lengthLine, List.mem_append, List.mem_cons, List.not_mem_nil, or_false] at h
  obtain ((h | rfl | rfl) | h) | rfl := h
  · have hall : lengthName.toList.all (fun c => c.toNat < 0x80 && c != '\n') = true := by decide
    simpa using List.all_eq_true.mp hall c h
  · decide
  · decide
  · have := toNat_of_isDigit (isDigit_of_mem_toDigits h)
    refine ⟨by omega, ?_⟩
    rintro rfl
    exact absurd this (by decide)
  · decide

theorem lineFeed_not_mem_lengthBytes (n : Nat) : 0x0A ∉ lengthBytes n := by
  rw [lengthBytes, encode_ascii fun c hc => (ascii_of_mem_lengthLine hc).1]
  intro h
  obtain ⟨c, hc, heq⟩ := List.mem_map.mp h
  obtain ⟨hlt, hne⟩ := ascii_of_mem_lengthLine hc
  have hbyte := congrArg UInt8.toNat heq
  rw [Text.Utf8.toNat_ofNat_of_lt (by omega)] at hbyte
  exact hne (Char.toNat_inj.mp hbyte)

theorem lengthOf_lengthLine (h : n < UInt64.size) : lengthOf (lengthLine n) = some (.ok n) := by
  have hname : ∀ c ∈ lengthName.toList, (c != ':') = true := List.all_eq_true.mp (by decide)
  have hvalue : Text.trim (' ' :: Nat.toDigits 10 n) = Nat.toDigits 10 n := by
    have := trim_append [' '] (Nat.toDigits 10 n) [] Nat.toDigits_ne_nil
      (List.all_eq_true.mp (by decide)) (by simp)
      (fun c hc => isBlank_of_isDigit (isDigit_of_mem_toDigits (List.mem_of_mem_head? hc)))
      (fun c hc => isBlank_of_isDigit (isDigit_of_mem_toDigits (List.mem_of_getLast? hc)))
    rwa [List.append_nil] at this
  have hsame : Text.eqIgnoreAsciiCase (String.ofList (Text.trim lengthName.toList)) lengthName =
      true := by decide
  simp only [lengthOf, lengthLine, List.append_assoc, List.cons_append, List.nil_append,
    List.dropWhile_append_of_pos hname, List.takeWhile_append_of_pos hname, bne_self_eq_false,
    List.dropWhile_cons_of_neg, List.takeWhile_cons_of_neg, hvalue, readLength_toDigits h,
    Bool.false_eq_true, not_false_eq_true, List.append_nil, hsame, Bool.not_true, if_false]

/-- The line end is not a part of what the length line says. -/
theorem trim_lengthLine (n : Nat) : Text.trim (lengthLine n ++ ['\r', '\n']) = lengthLine n := by
  have hne : lengthName.toList ≠ [] := by decide
  refine trim_append [] (lengthLine n) ['\r', '\n'] (by simp [lengthLine, hne]) (by simp)
    (List.all_eq_true.mp (by decide)) (fun c hc => ?_) fun c hc => ?_
  · rw [lengthLine, List.append_assoc, List.head?_append_of_ne_nil _ hne] at hc
    obtain rfl : 'C' = c := Option.some.inj hc
    decide
  · rw [lengthLine, List.getLast?_append_of_ne_nil _ Nat.toDigits_ne_nil] at hc
    exact isBlank_of_isDigit (isDigit_of_mem_toDigits (List.mem_of_getLast? hc))

/-- **The length line sets the length**, whatever it was before. -/
theorem lineEffect_lengthLine (h : n < UInt64.size) (length : Option Nat) :
    lineEffect length (lengthBytes n ++ [0x0A]) = .length (some n) := by
  have hbytes : lengthBytes n ++ [0x0A] = Text.Utf8.encode (lengthLine n ++ ['\r', '\n']) := by
    simp only [lengthBytes, Text.Utf8.encode_append, List.append_assoc]
    rfl
  have hempty : (lengthLine n).isEmpty = false := by simp [lengthLine]
  simp only [lineEffect, hbytes, Text.Utf8.decode?_encode, trim_lengthLine, hempty,
    lengthOf_lengthLine h, Bool.false_eq_true, if_false]

/-- The line end is a blank line, with its line feed and without it. -/
theorem lineEffect_blank (length : Option Nat) :
    lineEffect length [0x0D, 0x0A] = .blank ∧ lineEffect length [0x0D] = .blank := by
  have hfeed := Text.Utf8.decode?_encode ['\r', '\n']
  have hreturn := Text.Utf8.decode?_encode ['\r']
  constructor
  · rw [lineEffect, show [0x0D, 0x0A] = Text.Utf8.encode ['\r', '\n'] from rfl, hfeed]
    rfl
  · rw [lineEffect, show [0x0D] = Text.Utf8.encode ['\r'] from rfl, hreturn]
    rfl

end LanguageHub.Frame
