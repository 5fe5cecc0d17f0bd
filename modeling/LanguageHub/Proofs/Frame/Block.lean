import LanguageHub.Proofs.Frame.Streams
import Mathlib.Data.List.DropRight
import Mathlib.Data.List.TakeWhile

/-!
# Header blocks

What a header block says is the list of the **values of its length lines** (`Frame.Block.values`),
and nothing else: no other line counts, and of these lines only the trimmed text behind the first
colon. So the outcome of reading a block and what follows it is a function of this list and of what
follows (`Frame.settle`, `Frame.Block.next_eq`). It is read from left to right: a value that is no
number ends it, and a number takes the place of the one before.

A line is trimmed before it is cut at its colon, and both parts are trimmed again. As the colon is
no blank this is no different from cutting the line as it is (`Frame.lengthOf_trim`).
-/

namespace LanguageHub.Frame

/-- The trimmed text behind the first colon of a length line. -/
def lengthValue? (text : List Char) : Option (List Char) :=
  match text.dropWhile (· != ':') with
  | [] => none
  | _ :: value =>
    if Text.eqIgnoreAsciiCase (String.ofList (Text.trim (text.takeWhile (· != ':')))) lengthName then
      some (Text.trim value)
    else none

/-- **A number of 64 bits**, as a value of a length line writes it: digits, and a plus sign in front
of them or not. -/
def Denotes (value : List Char) (n : Nat) : Prop :=
  ∃ digits, (value = digits ∨ value = '+' :: digits) ∧ digits ≠ [] ∧
    (∀ c ∈ digits, c.isDigit = true) ∧ Nat.ofDigitChars 10 digits 0 = n ∧ n < 2 ^ 64

/-- A text that ends in the only line feed of its bytes. -/
structure Line where
  bytes : List UInt8
  text : List Char
  ends : ∃ line, 0x0A ∉ line ∧ bytes = line ++ [0x0A]
  decodes : Text.Utf8.decode? bytes = some text

/-- The value of a length line. -/
def Line.value? (l : Line) : Option (List Char) := lengthValue? l.text

/-- **A header block**: lines with something on them, and a blank one. -/
structure Block where
  lines : List Line
  last : Line
  filled : ∀ line ∈ lines, Text.trim line.text ≠ []
  blank : Text.trim last.text = []

/-- The bytes of a block. -/
def Block.bytes (b : Block) : List UInt8 := b.lines.flatMap Line.bytes ++ b.last.bytes

/-- The values of the length lines of a block, in their order. -/
def Block.values (b : Block) : List (List Char) := b.lines.filterMap Line.value?

/-- What the values of length lines and the bytes behind the block come to, when `length` is known
so far. -/
def settle (ended : Bool) (body : List UInt8) : Option Nat → List (List Char) → Outcome
  | length, [] => readBody ended length body
  | _, v :: vs =>
    match readLength v with
    | some n => settle ended body (some n) vs
    | none => .failed (.badLength (String.ofList v))

variable {ended first : Bool} {length : Option Nat} {n : Nat} {j : Json}
  {text name value v : List Char} {vs ws : List (List Char)} {s body rest : List UInt8}

/-! ### Trimming and cutting -/

theorem isBlank_colon : Text.isBlank ':' = false := by decide

/-- A character that is not dropped stops the dropping. -/
theorem dropWhile_append_cons {α : Type} {p : α → Bool} {c : α} (hc : p c = false) (a t : List α) :
    (a ++ c :: t).dropWhile p = a.dropWhile p ++ c :: t := by
  rw [List.dropWhile_append]
  split
  · next h =>
    rw [List.isEmpty_iff.mp h, List.dropWhile_cons_of_neg (by simp [hc]), List.nil_append]
  · rfl

theorem trimEnd_append_cons {c : Char} (hc : Text.isBlank c = false) (a t : List Char) :
    Text.trimEnd (a ++ c :: t) = a ++ c :: Text.trimEnd t := by
  have hreverse : (a ++ c :: t).reverse = t.reverse ++ c :: a.reverse := by simp
  rw [Text.trimEnd, hreverse, dropWhile_append_cons hc]
  simp [Text.trimEnd]

/-- A line that is trimmed keeps its colon, and the blanks on both sides of it. -/
theorem trim_append_colon (name value : List Char) :
    Text.trim (name ++ ':' :: value) = Text.trimStart name ++ ':' :: Text.trimEnd value := by
  rw [Text.trim, Text.trimStart, dropWhile_append_cons isBlank_colon,
    trimEnd_append_cons isBlank_colon, Text.trimStart]

theorem trim_trimStart (s : List Char) : Text.trim (Text.trimStart s) = Text.trim s := by
  rw [Text.trim, Text.trimStart, Text.trimStart, List.dropWhile_idempotent, Text.trim,
    Text.trimStart]

theorem trimEnd_trimEnd (s : List Char) : Text.trimEnd (Text.trimEnd s) = Text.trimEnd s := by
  rw [Text.trimEnd, Text.trimEnd, List.reverse_reverse, List.dropWhile_idempotent]

/-- It does not matter on which side a text is trimmed first. -/
theorem trimStart_trimEnd (s : List Char) :
    Text.trimStart (Text.trimEnd s) = Text.trimEnd (Text.trimStart s) := by
  induction s with
  | nil => rfl
  | cons c s ih =>
    by_cases hc : Text.isBlank c = true
    · have hcons : Text.trimStart (c :: s) = Text.trimStart s := List.dropWhile_cons_of_pos hc
      rw [hcons, ← ih, Text.trimEnd, List.reverse_cons, List.dropWhile_append]
      split
      · next h =>
        rw [List.dropWhile_cons_of_pos hc, Text.trimEnd, List.isEmpty_iff.mp h]
        rfl
      · rw [List.reverse_append, List.reverse_singleton, List.singleton_append]
        exact List.dropWhile_cons_of_pos hc
    · rw [Bool.not_eq_true] at hc
      have hstart : ∀ t, Text.trimStart (c :: t) = c :: t := fun t =>
        List.dropWhile_cons_of_neg (by simp [hc])
      have hend := trimEnd_append_cons hc [] s
      rw [List.nil_append, List.nil_append] at hend
      rw [hend, hstart, hstart, hend]

theorem trim_trimEnd (s : List Char) : Text.trim (Text.trimEnd s) = Text.trim s := by
  rw [Text.trim, trimStart_trimEnd, trimEnd_trimEnd, Text.trim]

theorem colon_not_mem_trim (h : ':' ∉ text) : ':' ∉ Text.trim text := by
  intro hc
  rw [Text.trim, Text.trimEnd, List.mem_reverse] at hc
  have hstart := List.mem_reverse.mp ((List.dropWhile_suffix _).subset hc)
  exact h ((List.dropWhile_suffix _).subset hstart)

theorem dropWhile_colon_eq_nil (h : ':' ∉ text) : text.dropWhile (· != ':') = [] := by
  rw [List.dropWhile_eq_nil_iff]
  intro c hc
  rw [bne_iff_ne]
  exact fun he => h (he ▸ hc)

/-- A text is cut at its first colon. -/
theorem cut_colon (h : ':' ∉ name) (value : List Char) :
    (name ++ ':' :: value).takeWhile (· != ':') = name ∧
      (name ++ ':' :: value).dropWhile (· != ':') = ':' :: value := by
  have hname : ∀ c ∈ name, (c != ':') = true := fun c hc =>
    bne_iff_ne.mpr fun he => h (he ▸ hc)
  constructor
  · rw [List.takeWhile_append_of_pos hname, List.takeWhile_cons_of_neg (by simp), List.append_nil]
  · rw [List.dropWhile_append_of_pos hname, List.dropWhile_cons_of_neg (by simp)]

theorem exists_cut_colon (h : ':' ∈ text) :
    ∃ name value, ':' ∉ name ∧ text = name ++ ':' :: value := by
  obtain ⟨name, value, heq, hname⟩ := List.eq_append_cons_of_mem h
  exact ⟨name, value, hname, heq⟩

theorem lengthValue?_cut (h : ':' ∉ name) (value : List Char) :
    lengthValue? (name ++ ':' :: value) =
      if Text.eqIgnoreAsciiCase (String.ofList (Text.trim name)) lengthName then
        some (Text.trim value)
      else none := by
  obtain ⟨htake, hdrop⟩ := cut_colon h value
  simp only [lengthValue?, htake, hdrop]

theorem lengthValue?_of_not_mem (h : ':' ∉ text) : lengthValue? text = none := by
  rw [lengthValue?, dropWhile_colon_eq_nil h]

/-- **What a length line is**, and what its value is. -/
theorem lengthValue?_eq_some_iff :
    lengthValue? text = some v ↔
      ∃ name value, ':' ∉ name ∧ text = name ++ ':' :: value ∧
        Text.eqIgnoreAsciiCase (String.ofList (Text.trim name)) lengthName = true ∧
        v = Text.trim value := by
  constructor
  · intro h
    by_cases hc : ':' ∈ text
    · obtain ⟨name, value, hname, rfl⟩ := exists_cut_colon hc
      rw [lengthValue?_cut hname] at h
      split at h
      · next hsame => exact ⟨name, value, hname, rfl, hsame, (Option.some.inj h).symm⟩
      · cases h
    · rw [lengthValue?_of_not_mem hc] at h
      cases h
  · rintro ⟨name, value, hname, rfl, hsame, rfl⟩
    rw [lengthValue?_cut hname, if_pos hsame]

/-- **A line says the same about the length before and after it is trimmed.** -/
theorem lengthOf_trim (text : List Char) :
    lengthOf (Text.trim text) = (lengthValue? text).map fun v =>
      match readLength v with
      | some n => .ok n
      | none => .error (.badLength (String.ofList v)) := by
  by_cases hc : ':' ∈ text
  · obtain ⟨name, value, hname, rfl⟩ := exists_cut_colon hc
    have hstart : ':' ∉ Text.trimStart name := fun h =>
      hname ((List.dropWhile_suffix _).subset h)
    obtain ⟨htake, hdrop⟩ := cut_colon hstart (Text.trimEnd value)
    rw [lengthValue?_cut hname, lengthOf, trim_append_colon, hdrop, htake]
    simp only [trim_trimStart, trim_trimEnd]
    cases Text.eqIgnoreAsciiCase (String.ofList (Text.trim name)) lengthName with
    | false => rfl
    | true =>
      simp only [Bool.not_true, Bool.false_eq_true, if_false, if_true, Option.map_some]
      cases readLength (Text.trim value) <;> rfl
  · rw [lengthOf, dropWhile_colon_eq_nil (colon_not_mem_trim hc), lengthValue?_of_not_mem hc]
    rfl

/-! ### Values -/

theorem foldl_digits (digits : List Char) :
    digits.foldl (fun n c => n * 10 + (c.toNat - 48)) 0 = Nat.ofDigitChars 10 digits 0 := by
  rw [Nat.ofDigitChars_eq_foldl]
  simp only [Nat.mul_comm]
  rfl

/-- **The values that are read are the numbers of 64 bits.** -/
theorem readLength_eq_some_iff : readLength v = some n ↔ Denotes v n := by
  have hdigits : ∀ digits : List Char,
      ((if digits.isEmpty || !digits.all Char.isDigit then none
        else if Nat.ofDigitChars 10 digits 0 < UInt64.size then
          some (Nat.ofDigitChars 10 digits 0) else none) = some n) ↔
        digits ≠ [] ∧ (∀ c ∈ digits, c.isDigit = true) ∧
          Nat.ofDigitChars 10 digits 0 = n ∧ n < 2 ^ 64 := by
    intro digits
    have hsize : UInt64.size = 2 ^ 64 := rfl
    rw [hsize]
    split
    · next h =>
      simp only [reduceCtorEq, false_iff, not_and]
      intro hne hall
      simp [hne, List.all_eq_true.mpr hall] at h
    · next h =>
      rw [Bool.or_eq_true, not_or, Bool.not_eq_true', Bool.not_eq_false, List.all_eq_true,
        List.isEmpty_iff] at h
      constructor
      · intro hn
        split at hn
        · next hlt =>
          obtain rfl := Option.some.inj hn
          exact ⟨h.1, h.2, rfl, hlt⟩
        · cases hn
      · rintro ⟨-, -, rfl, hlt⟩
        exact if_pos hlt
  unfold readLength
  simp only [foldl_digits]
  rw [hdigits]
  constructor
  · rintro ⟨hne, hall, hn⟩
    refine ⟨_, ?_, hne, hall, hn⟩
    split
    · exact .inr rfl
    · exact .inl rfl
  · rintro ⟨digits, rfl | rfl, hne, hall, hn⟩
    · split
      · -- a plus sign is no digit
        exact absurd (hall '+' List.mem_cons_self) (by decide)
      · exact ⟨hne, hall, hn⟩
    · exact ⟨hne, hall, hn⟩

theorem readLength_eq_none_iff : readLength v = none ↔ ¬ ∃ n, Denotes v n := by
  simp only [← readLength_eq_some_iff, ← Option.isSome_iff_exists, Option.not_isSome_iff_eq_none]

/-! ### Lines and blocks -/

namespace Line

theorem takeLine_append (l : Line) (rest : List UInt8) :
    takeLine (l.bytes ++ rest) = some (l.bytes, rest) := by
  obtain ⟨line, hline, heq⟩ := l.ends
  rw [heq, List.append_assoc]
  exact Frame.takeLine_append hline rest

/-- **The effect of a line is read off its text as it is.** -/
theorem lineEffect_eq (l : Line) (h : Text.trim l.text ≠ []) (length : Option Nat) :
    lineEffect length l.bytes =
      match l.value? with
      | none => .length length
      | some v =>
        match readLength v with
        | some n => .length (some n)
        | none => .bad (.badLength (String.ofList v)) := by
  have hempty : (Text.trim l.text).isEmpty = false := by simpa using h
  simp only [lineEffect, l.decodes, hempty, Bool.false_eq_true, if_false, lengthOf_trim, value?]
  cases lengthValue? l.text with
  | none => rfl
  | some v =>
    simp only [Option.map_some]
    cases readLength v <;> rfl

theorem lineEffect_blank (l : Line) (h : Text.trim l.text = []) (length : Option Nat) :
    lineEffect length l.bytes = .blank := by
  simp [lineEffect, l.decodes, h]

end Line

/-- **A blank line that the end of the stream cuts off** is one, too. Nothing follows it. -/
theorem readHeader_blank_cut (hfeed : 0x0A ∉ s) (hne : s ≠ [])
    (hdecode : Text.Utf8.decode? s = some text) (hblank : Text.trim text = []) :
    readHeader true first length s = readBody true length [] := by
  rw [readHeader_of_cut (takeLine_eq_none hfeed) hne]
  simp [lineEffect, hdecode, hblank]

/-- Lines and what is read as their end are read to what their values and the bytes after them come
to. -/
theorem readHeader_lines {lines : List Line} (h : ∀ line ∈ lines, Text.trim line.text ≠ [])
    (hend : ∀ first length, readHeader ended first length s = readBody ended length body) :
    readHeader ended first length (lines.flatMap Line.bytes ++ s) =
      settle ended body length (lines.filterMap Line.value?) := by
  induction lines generalizing first length with
  | nil => exact hend first length
  | cons line lines ih =>
    have ih := fun first length =>
      @ih first length fun l hl => h l (List.mem_cons_of_mem _ hl)
    rw [List.flatMap_cons, List.append_assoc, readHeader_of_line (line.takeLine_append _),
      line.lineEffect_eq (h line List.mem_cons_self)]
    cases hv : line.value? with
    | none =>
      rw [List.filterMap_cons_none hv]
      exact ih false length
    | some v =>
      rw [List.filterMap_cons_some hv, settle]
      dsimp only
      cases readLength v with
      | none => rfl
      | some n => exact ih false (some n)

/-- **Reading a block and what follows it depends on nothing but the values of its length lines**
and what follows. -/
theorem Block.next_eq (b : Block) (ended : Bool) (body : List UInt8) :
    next ended (b.bytes ++ body) = settle ended body none b.values := by
  rw [next, Block.bytes, List.append_assoc, Block.values]
  refine readHeader_lines b.filled fun first length => ?_
  rw [readHeader_of_line (b.last.takeLine_append body), b.last.lineEffect_blank b.blank]

theorem settle_append (h : ∀ w ∈ vs, ∃ m, Denotes w m) (v : List Char) (ws : List (List Char)) :
    settle ended body length (vs ++ v :: ws) = settle ended body length (v :: ws) := by
  induction vs generalizing length with
  | nil => rfl
  | cons w vs ih =>
    obtain ⟨m, hm⟩ := h w List.mem_cons_self
    rw [List.cons_append, settle, readLength_eq_some_iff.mpr hm]
    -- a number is forgotten at the next value
    exact (ih fun x hx => h x (List.mem_cons_of_mem _ hx)).trans rfl

/-- **The first value that is no number is the one that is reported.** -/
theorem settle_eq_badLength (h : ∀ w ∈ vs, ∃ m, Denotes w m) (hv : ¬ ∃ m, Denotes v m)
    (ws : List (List Char)) :
    settle ended body length (vs ++ v :: ws) = .failed (.badLength (String.ofList v)) := by
  rw [settle_append h, settle, readLength_eq_none_iff.mpr hv]

theorem readBody_eq_message_iff :
    readBody ended (some n) body = .message j rest ↔
      n ≤ limit ∧ n ≤ body.length ∧ Json.parse? (body.take n) = some j ∧ rest = body.drop n := by
  rw [readBody]
  split
  · next hlimit =>
    simp only [reduceCtorEq, false_iff, not_and]
    omega
  next hlimit =>
  split
  · next hlength =>
    constructor
    · intro hm
      split at hm <;> cases hm
    · rintro ⟨-, hle, -⟩
      omega
  next hlength =>
  cases Json.parse? (body.take n) with
  | none => simp
  | some j' =>
    rw [Outcome.message.injEq, Option.some.injEq]
    constructor
    · rintro ⟨hj, hr⟩
      exact ⟨Nat.le_of_not_lt hlimit, Nat.le_of_not_lt hlength, hj, hr.symm⟩
    · rintro ⟨-, -, hj, hr⟩
      exact ⟨hj, hr.symm⟩

theorem denotes_of_settle_eq_message (h : settle ended body length vs = .message j rest) :
    ∀ w ∈ vs, ∃ m, Denotes w m := by
  induction vs generalizing length with
  | nil => simp
  | cons v vs ih =>
    rw [settle] at h
    split at h
    · next n hn =>
      rw [List.forall_mem_cons]
      exact ⟨⟨n, readLength_eq_some_iff.mp hn⟩, ih h⟩
    · cases h

/-- When all values are numbers, the last one is the length of the body. -/
theorem settle_concat (h : ∀ w ∈ ws, ∃ m, Denotes w m) (hv : Denotes v n) :
    settle ended body length (ws ++ [v]) = readBody ended (some n) body := by
  rw [settle_append h, settle, readLength_eq_some_iff.mpr hv]
  rfl

/-- **The values that lead to a message**: all are numbers, and the last one is the length of the
body. -/
theorem settle_eq_message_iff :
    settle ended body none vs = .message j rest ↔
      (∀ w ∈ vs, ∃ m, Denotes w m) ∧
      ∃ v n, vs.getLast? = some v ∧ Denotes v n ∧ n ≤ limit ∧ n ≤ body.length ∧
        Json.parse? (body.take n) = some j ∧ rest = body.drop n := by
  constructor
  · intro h
    have hall := denotes_of_settle_eq_message h
    refine ⟨hall, ?_⟩
    rcases List.eq_nil_or_concat' vs with rfl | ⟨ws, v, rfl⟩
    · cases h
    · obtain ⟨n, hn⟩ := hall v (by simp)
      rw [settle_concat (fun w hw => hall w (by simp [hw])) hn] at h
      exact ⟨v, n, List.getLast?_concat, hn, readBody_eq_message_iff.mp h⟩
  · rintro ⟨hall, v, n, hlast, hn, hbody⟩
    obtain ⟨ws, rfl⟩ := List.getLast?_eq_some_iff.mp hlast
    rw [settle_concat (fun w hw => hall w (by simp [hw])) hn]
    exact readBody_eq_message_iff.mpr hbody

/-! ### What a block is read to -/

/-- **What a header block and the bytes behind it are read to.** There is a message exactly when
the block has a length line, the values of all its length lines are numbers, and the last one is the
length of a body that is not too long, is there, and is JSON; what is left is what follows the body.
A value that is no number is reported if all before it are numbers, whatever comes after it. And
blocks with the same values are read to the same, whatever their other lines are. If the stream ends
in the blank line, there is no body, and no message. -/
theorem next_block (b : Block) (ended : Bool) (body : List UInt8) :
    (∀ j rest, next ended (b.bytes ++ body) = .message j rest ↔
      (∀ w ∈ b.values, ∃ m, Denotes w m) ∧
      ∃ v n, b.values.getLast? = some v ∧ Denotes v n ∧ n ≤ limit ∧ n ≤ body.length ∧
        Json.parse? (body.take n) = some j ∧ rest = body.drop n) ∧
    (∀ vs v ws, b.values = vs ++ v :: ws → (∀ w ∈ vs, ∃ m, Denotes w m) →
      (¬ ∃ m, Denotes v m) →
      next ended (b.bytes ++ body) = .failed (.badLength (String.ofList v))) ∧
    (∀ b' : Block, b'.values = b.values →
      next ended (b'.bytes ++ body) = next ended (b.bytes ++ body)) ∧
    ∀ cut text, 0x0A ∉ cut → cut ≠ [] → Text.Utf8.decode? cut = some text → Text.trim text = [] →
      ∀ j rest, next true (b.lines.flatMap Line.bytes ++ cut) ≠ .message j rest := by
  refine ⟨fun j rest => ?_, fun vs v ws heq hvs hv => ?_, fun b' heq => ?_, ?_⟩
  · rw [b.next_eq, settle_eq_message_iff]
  · rw [b.next_eq, heq, settle_eq_badLength hvs hv]
  · rw [b'.next_eq, b.next_eq, heq]
  · intro cut text hfeed hne hdecode hblank j rest h
    have hend := fun first length =>
      @readHeader_blank_cut first length text cut hfeed hne hdecode hblank
    rw [next, readHeader_lines b.filled hend, settle_eq_message_iff] at h
    obtain ⟨-, v, n, -, -, -, -, hparse, -⟩ := h
    rw [List.take_nil, Json.parse?, Text.Utf8.decode?] at hparse
    cases hparse

/-- A line of a text. -/
def Line.ofString (s : String)
    (h : Text.Utf8.encodeString (s ++ "\n") = Text.Utf8.encodeString s ++ [0x0A])
    (h' : 0x0A ∉ Text.Utf8.encodeString s) : Line :=
  ⟨Text.Utf8.encodeString (s ++ "\n"), (s ++ "\n").toList, ⟨_, h', h⟩, Text.Utf8.decode?_encode _⟩

/-- A block with two lengths, of which the second one counts: its name is in another case, and
there are blanks and a plus sign around its value. -/
def twoLengths : Block where
  lines := [.ofString "Content-Length: 5\r" (by decide +kernel) (by decide +kernel),
    .ofString "X-Größe: 7\r" (by decide +kernel) (by decide +kernel),
    .ofString " content-LENGTH\t:  +02 " (by decide +kernel) (by decide +kernel)]
  last := .ofString " \r" (by decide +kernel) (by decide +kernel)
  filled := by decide +kernel
  blank := by decide +kernel

/-- A block with a length that is none before one that is. -/
def badLength : Block where
  lines := [.ofString "Content-Length: 2\r" (by decide +kernel) (by decide +kernel),
    .ofString "Content-Length: -1\r" (by decide +kernel) (by decide +kernel),
    .ofString "Content-Length: 2\r" (by decide +kernel) (by decide +kernel)]
  last := .ofString "\r" (by decide +kernel) (by decide +kernel)
  filled := by decide +kernel
  blank := by decide +kernel

theorem next_block_two :
    next false (twoLengths.bytes ++ Text.Utf8.encodeString "[]Content") =
        .message (.arr []) (Text.Utf8.encodeString "Content") ∧
      next false (badLength.bytes ++ Text.Utf8.encodeString "[]") = .failed (.badLength "-1") := by
  have hfive : Denotes ['5'] 5 := ⟨['5'], .inl rfl, by decide, by simp, by decide, by decide⟩
  have htwo : Denotes "+02".toList 2 :=
    ⟨['0', '2'], .inr (by decide), by decide, by simp, by decide, by decide⟩
  have hplain : Denotes ['2'] 2 := ⟨['2'], .inl rfl, by decide, by simp, by decide, by decide⟩
  have hsend : Sendable (.arr []) :=
    ⟨rfl, by simp [Json.Integral, Json.IntegralItems], by decide, by decide +kernel⟩
  constructor
  · have hvalues : twoLengths.values = [['5'], "+02".toList] := by decide +kernel
    refine ((next_block twoLengths false _).1 _ _).mpr ⟨?_, _, 2, ?_, htwo, ?_, ?_, ?_, ?_⟩
    · rw [hvalues]
      simp only [List.forall_mem_cons]
      exact ⟨⟨5, hfive⟩, ⟨2, htwo⟩, by simp⟩
    · rw [hvalues]
      rfl
    · decide
    · decide +kernel
    · have hbody : (Text.Utf8.encodeString "[]Content").take 2 = bodyOf (.arr []) := by
        decide +kernel
      rw [hbody]
      exact hsend.parse?_bodyOf
    · decide +kernel
  · have hvalues : badLength.values = [['2']] ++ "-1".toList :: [['2']] := by decide +kernel
    refine (next_block badLength false _).2.1 _ _ _ hvalues ?_ ?_
    · simpa using ⟨2, hplain⟩
    · rw [← readLength_eq_none_iff]
      decide

end LanguageHub.Frame
