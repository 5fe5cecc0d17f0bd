import LanguageHub.Manager.Task
import LanguageHub.Proofs.Uri.Files

/-!
# Which files have a URI

A name is written byte by byte, encoded or as it is, and then the whole text is checked against the
grammar of URIs. The two disagree about a few bytes (`Path.isBare`): the writer does not encode
them, and the grammar does not let them stand in a path. A path with such a byte **has no URI**,
although an encoding of the byte would be fine, and every other path but the empty one has one
(`Path.toUri?_isSome_iff`). So a file can be there, and have a name like any other, and yet cannot
be expressed as a URI.

The check of a written text comes down to one of its path: the text is a scheme, an empty authority
and a path that begins with a slash, because no name has a hash sign or a question mark
(`Uri.parts_file`).
-/

namespace LanguageHub

open LanguageHub.Path (IsName ofNames slash)

/-! ### Checking what was encoded -/

namespace Uri

variable {allowed : Char → Bool} {c : Char} {s : List Char}

theorem isEncoded_cons_of_ne (h : c ≠ '%') :
    isEncoded allowed (c :: s) = (allowed c && isEncoded allowed s) := by
  rw [isEncoded]
  rintro a b t rfl
  exact absurd rfl h

namespace Percent

variable {isSpecial : UInt8 → Bool}

/-- A byte passes a check of the text if it is encoded or allowed. -/
theorem isEncoded_encodeByte (h : Sound isSpecial) (b : UInt8) (s : List Char) :
    isEncoded allowed (encodeByte isSpecial b ++ s) =
      ((isSpecial b || allowed (Char.ofNat b.toNat)) && isEncoded allowed s) := by
  cases hb : isSpecial b with
  | true =>
    rw [encodeByte_of_special hb]
    simp only [List.cons_append, List.nil_append, isEncoded, isHexDigit_digit _ (div_lt_sixteen b),
      isHexDigit_digit _ (mod_lt_sixteen b), Bool.true_and, Bool.true_or]
  | false =>
    rw [encodeByte_of_plain hb, List.singleton_append,
      isEncoded_cons_of_ne (h.ofNat_ne_percent hb), Bool.false_or]

/-- **A text passes a check if all its bytes are encoded or allowed.** -/
theorem isEncoded_encode (h : Sound isSpecial) (bytes : List UInt8) (s : List Char) :
    isEncoded allowed (encode isSpecial bytes ++ s) =
      ((bytes.all fun b => isSpecial b || allowed (Char.ofNat b.toNat)) &&
        isEncoded allowed s) := by
  induction bytes with
  | nil => rfl
  | cons b bytes ih =>
    rw [encode_cons, List.append_assoc, isEncoded_encodeByte h, ih, List.all_cons, Bool.and_assoc]

end Percent

/-! ### The parts of a written URI -/

theorem cutAt_of_not_mem (h : c ∉ s) : cutAt (· == c) s = (s, []) := by
  have hstop : ∀ x ∈ s, (!(x == c)) = true := by
    intro x hx
    rw [Bool.not_eq_true', beq_eq_false_iff_ne]
    rintro rfl
    exact h hx
  rw [cutAt, List.takeWhile_eq_self_iff.mpr hstop, List.dropWhile_eq_nil_iff.mpr hstop]

/-- **The parts of the URI of a file**: a scheme, an empty authority and a path. -/
theorem parts_file (hhash : '#' ∉ '/' :: s) (hquery : '?' ∉ '/' :: s) :
    parts ("file://".toList ++ '/' :: s) =
      ⟨some "file".toList, some [], '/' :: s, none, none⟩ := by
  have hnot : ∀ c, c ∉ '/' :: s → c ∉ "file://".toList → c ∉ "file://".toList ++ '/' :: s :=
    fun c hs hfile h => (List.mem_append.mp h).elim hfile hs
  rw [parts, cutAt_of_not_mem (hnot _ hhash (by decide))]
  dsimp only
  rw [cutAt_of_not_mem (hnot _ hquery (by decide))]
  rfl

theorem isReference_file (hhash : '#' ∉ '/' :: s) (hquery : '?' ∉ '/' :: s) :
    (parts ("file://".toList ++ '/' :: s)).isReference = isEncoded isPathChar ('/' :: s) := by
  rw [parts_file hhash hquery]
  have hscheme : isScheme "file".toList = true := by decide
  have hauthority : isAuthority [] = true := by decide
  simp only [Parts.isReference, Option.map_some, Option.map_none, Option.getD_some,
    Option.getD_none, hscheme, hauthority, Bool.true_and, Bool.and_true]

end Uri

/-! ### Paths with a URI -/

namespace Path

variable {names : List (List UInt8)} {p directory : Path} {b : UInt8} {c : Char}

/-- **A byte that no URI can hold** as it is, and that is written as it is. -/
def isBare (b : UInt8) : Bool := !(isEncodedInUri b || Uri.isPathChar (Char.ofNat b.toNat))

/-- These are brackets, the caret and the vertical bar. -/
theorem isBare_iff (b : UInt8) : isBare b = true ↔ Char.ofNat b.toNat ∈ ['[', ']', '^', '|'] := by
  have hall : ∀ n < 256, isBare (UInt8.ofNat n) = true ↔
      Char.ofNat (UInt8.ofNat n).toNat ∈ ['[', ']', '^', '|'] := by decide +kernel
  have hb := hall b.toNat b.toNat_lt
  rwa [UInt8.ofNat_toNat] at hb

theorem exists_uriPath_eq_cons (p : Path) : ∃ s, p.uriPath = '/' :: s := by
  rw [uriPath]
  rcases p.components.drop 1 with _ | ⟨x, rest⟩
  · exact ⟨[], rfl⟩
  · exact ⟨_, rfl⟩

/-- A character that is encoded in names does not occur in the path of a URI. -/
theorem not_mem_uriPath (h : ∀ b ∈ names, IsName b)
    (hspecial : isEncodedInUri (UInt8.ofNat c.toNat) = true) (hpercent : c ≠ '%')
    (hdigit : Uri.isHexDigit c = false) (hslash : c ≠ '/') : c ∉ (ofNames names).uriPath := by
  rw [uriPath_ofNames h, List.mem_flatMap]
  rintro ⟨s, hs, hc⟩
  obtain ⟨b, -, rfl⟩ := exists_of_mem_segmentsOf h hs
  rcases List.mem_cons.mp hc with rfl | hc
  · exact hslash rfl
  · exact not_mem_segmentOf hspecial hpercent hdigit hc

theorem isEncoded_flatMap_segmentOf (names : List (List UInt8)) :
    Uri.isEncoded Uri.isPathChar (names.flatMap fun b => '/' :: segmentOf b) =
      (names.flatMap (slash :: ·)).all (!isBare ·) := by
  induction names with
  | nil => rfl
  | cons b rest ih =>
    have hchar : Uri.isPathChar '/' = true := by decide
    have hslash : (!isBare slash) = true := by decide
    have hbytes : (b.all fun x => isEncodedInUri x || Uri.isPathChar (Char.ofNat x.toNat)) =
        b.all (!isBare ·) := by simp only [isBare, Bool.not_not]
    rw [List.flatMap_cons, List.cons_append, Uri.isEncoded_cons_of_ne (by decide), hchar,
      Bool.true_and, segmentOf, Uri.Percent.isEncoded_encode sound_isEncodedInUri, ih, hbytes,
      List.flatMap_cons, List.all_append, List.all_cons, hslash, Bool.true_and]

/-- **What the grammar says of the path of a URI**: no byte may be bare. -/
theorem isEncoded_uriPath (h : ∀ b ∈ names, IsName b) :
    Uri.isEncoded Uri.isPathChar (ofNames names).uriPath =
      (ofNames names).bytes.all (!isBare ·) := by
  rw [uriPath_ofNames h]
  cases names with
  | nil => decide
  | cons b rest =>
    rw [segmentsOf, List.flatMap_map]
    exact isEncoded_flatMap_segmentOf (b :: rest)

theorem isSome_ofString?_uriPath (h : ∀ b ∈ names, IsName b) :
    (Uri.ofString? (String.ofList ("file://".toList ++ (ofNames names).uriPath))).isSome =
      (ofNames names).bytes.all (!isBare ·) := by
  have hhash := not_mem_uriPath (c := '#') h (by decide) (by decide) (by decide) (by decide)
  have hquery := not_mem_uriPath (c := '?') h (by decide) (by decide) (by decide) (by decide)
  rw [← isEncoded_uriPath h, Uri.ofString?, String.toList_ofList]
  obtain ⟨s, hs⟩ := exists_uriPath_eq_cons (ofNames names)
  rw [hs] at hhash hquery ⊢
  rw [Uri.isReference_file hhash hquery]
  split
  · next hok => rw [hok, Option.isSome_some]
  · next hbad => rw [Bool.eq_false_iff.mpr hbad, Option.isSome_none]

theorem isSome_toUri? (hd : directory.isAbsolute = true) (hp : p.bytes ≠ []) :
    (p.toUri? directory).isSome = (p.absolute directory).bytes.all (!isBare ·) := by
  obtain ⟨names, h, habs⟩ := exists_names_absolute hd hp
  have hne : p.bytes.isEmpty = false := by simpa using hp
  rw [toUri?, hne, if_neg Bool.false_ne_true, habs, isSome_ofString?_uriPath h]

/-- **A file has a URI exactly if no byte of its absolute path is bare.** A call that is to open a
document with such a byte in its path fails at once, and says that the path is invalid; it does so
for no other path. -/
theorem toUri?_isSome_iff (hd : directory.isAbsolute = true) (hp : p.bytes ≠ []) :
    ((p.toUri? directory).isSome = true ↔
      ∀ b ∈ (p.absolute directory).bytes, isBare b = false) ∧
    ∀ (env : ManagerEnvironment) (now id : Nat) (language text : String) (m : Manager),
      env.host.directory = directory →
      (Manager.stepEnsure env now id language text (.begin p) m =
          some (m, .fail (.invalidPath (p.absolute directory)), []) ↔
        ∃ b ∈ (p.absolute directory).bytes, isBare b = true) := by
  have hsome : (p.toUri? directory).isSome = true ↔
      ∀ b ∈ (p.absolute directory).bytes, isBare b = false := by
    rw [isSome_toUri? hd hp, List.all_eq_true]
    simp only [Bool.not_eq_true']
  refine ⟨hsome, fun env now id language text m henv => ?_⟩
  subst henv
  rw [Manager.stepEnsure]
  dsimp only
  rw [toUri?_absolute hd hp]
  cases huri : p.toUri? env.host.directory with
  | none =>
    rw [huri, Option.isSome_none] at hsome
    simpa using hsome
  | some uri =>
    rw [huri, Option.isSome_some] at hsome
    refine ⟨by rintro ⟨⟩, ?_⟩
    rintro ⟨b, hb, hbare⟩
    rw [hsome.mp rfl b hb] at hbare
    cases hbare

/-- A name with a blank, a percent sign and a broken character has a URI. -/
theorem toUri?_isSome_iff_blank :
    let p : Path := ⟨(Path.ofString "a b%").bytes ++ [0xFF]⟩
    (p.toUri? (.ofString "/ws")).isSome = true :=
  (toUri?_isSome_iff (by decide +kernel) (by decide +kernel)).1.mpr (by decide +kernel)

/-- **A file without a URI**: an opening bracket is neither encoded nor allowed. -/
theorem toUri?_bracket :
    let p := Path.ofString "/ws/a[b.rs"
    p.bytes ≠ [] ∧ 0 ∉ p.bytes ∧ (Path.ofString "/").isAbsolute = true ∧
      p.toUri? (.ofString "/") = none := by
  decide +kernel

end Path

end LanguageHub
