import LanguageHub.Proofs.Path.Ways
import LanguageHub.Proofs.Uri.Encoding
import Mathlib.Data.List.TakeWhile

/-!
# The URI of a file names the file

A file has at most one URI as `Path.toUri?` writes it, and this is the spelling of the **names** of
its absolute path (`Path.uriOf`). Reading it gives the file back: `Uri.toPath?_uriOf` follows the
reader through the URI, and at each turn the reason why it goes on as expected is a fact about
encoded names. The path ends where the text does, because no name has a question mark or a hash
sign; its segments are the names, because none has a slash; and no segment is taken for dots.

What the reader adds on its own account is a slash behind a drive letter at the end, and a path
says the same with it (`Uri.components_closeDrive`). So paths come back **component by component**,
and two paths have one URI only if they are one place.
-/

namespace LanguageHub

open LanguageHub.Path (IsName ofNames slash)

variable {names : List (List UInt8)} {p directory : Path} {u : Uri} {b bytes : List UInt8}

/-! ### What is written -/

theorem Path.sound_isEncodedInUri : Uri.Percent.Sound isEncodedInUri where
  percent := by decide
  ascii := by
    intro b h
    simp only [isEncodedInUri, Bool.or_eq_false_iff, decide_eq_false_iff_not,
      UInt8.le_iff_toNat_le] at h
    have hlt := h.1.2
    simp only [UInt8.reduceToNat] at hlt
    omega

/-- The text of a name in a URI. -/
def Path.segmentOf (b : List UInt8) : List Char := Uri.Percent.encode isEncodedInUri b

/-- **The URI of the absolute path of some names.** -/
def Path.uriOf (names : List (List UInt8)) : Uri :=
  ⟨String.ofList ("file://".toList ++ (ofNames names).uriPath)⟩

/-- A character that is encoded in names and is no part of an encoding is in none of them. -/
theorem Path.not_mem_segmentOf {c : Char} (hspecial : isEncodedInUri (UInt8.ofNat c.toNat) = true)
    (hpercent : c ≠ '%') (hdigit : Uri.isHexDigit c = false) : c ∉ segmentOf b :=
  Uri.Percent.not_mem_encode hspecial hpercent hdigit

theorem Path.decode_segmentOf (b : List UInt8) : Uri.Percent.decode (segmentOf b) = b :=
  Uri.Percent.decode_encode sound_isEncodedInUri b

theorem Path.plainDots_segmentOf (b : List UInt8) : Uri.plainDots (segmentOf b) = segmentOf b :=
  Uri.Percent.plainDots_encode sound_isEncodedInUri (by decide) b

/-- The segments of the URI of some names; that of the root has an empty one. -/
def Path.segmentsOf : List (List UInt8) → List (List Char)
  | [] => [[]]
  | b :: names => (b :: names).map segmentOf

theorem Path.exists_of_mem_segmentsOf (h : ∀ b ∈ names, IsName b) {s : List Char}
    (hs : s ∈ segmentsOf names) : ∃ b, (b = [] ∨ IsName b) ∧ s = segmentOf b := by
  cases names with
  | nil => exact ⟨[], .inl rfl, List.mem_singleton.mp hs⟩
  | cons b rest =>
    obtain ⟨b, hb, rfl⟩ := List.mem_map.mp hs
    exact ⟨b, .inr (h b hb), rfl⟩

theorem Path.uriPath_ofNames (h : ∀ b ∈ names, IsName b) :
    (ofNames names).uriPath = (segmentsOf names).flatMap ('/' :: ·) := by
  rw [uriPath, components_ofNames h, List.drop_one, List.tail_cons]
  cases names with
  | nil => rfl
  | cons b rest =>
    change ((b :: rest).map Component.name).flatMap
      (fun c => '/' :: Uri.Percent.encode isEncodedInUri c.bytes) = _
    rw [segmentsOf, List.flatMap_map, List.flatMap_map]
    rfl

/-- The bytes of the segments are those of the path. -/
theorem Path.flatMap_decode_segmentsOf (names : List (List UInt8)) :
    (segmentsOf names).flatMap (fun s => slash :: Uri.Percent.decode s) =
      (ofNames names).bytes := by
  cases names with
  | nil => rfl
  | cons b rest =>
    rw [segmentsOf, List.flatMap_map, ofNames]
    simp only [decode_segmentOf]

/-- **What is written is the URI of the names**, if it is a URI at all. -/
theorem Path.eq_uriOf_of_toUri? (h : ∀ b ∈ names, IsName b)
    (hu : (ofNames names).toUri? directory = some u) : u = uriOf names := by
  have hne : (ofNames names).bytes.isEmpty = false := by
    simpa using bytes_ofNames_ne_nil
  rw [toUri?, hne, if_neg Bool.false_ne_true, absolute_ofNames h, Uri.ofString?] at hu
  split at hu
  · exact (Option.some.inj hu).symm
  · cases hu

/-- **A path has the URI of its absolute form**, whatever directory that is seen from. -/
theorem Path.toUri?_absolute {directory' : Path} (hd : directory.isAbsolute = true)
    (hp : p.bytes ≠ []) : (p.absolute directory).toUri? directory' = p.toUri? directory := by
  obtain ⟨names, h, habs⟩ := exists_names_absolute hd hp
  have hne : (ofNames names).bytes.isEmpty = false := by
    simpa using bytes_ofNames_ne_nil
  have hpne : p.bytes.isEmpty = false := by simpa using hp
  rw [toUri?, toUri?, habs, hne, hpne, absolute_ofNames h]

/-- A path with a URI is a path of names as seen from its directory, and its URI is theirs. -/
theorem Path.exists_eq_uriOf (hd : directory.isAbsolute = true) (hu : p.toUri? directory = some u) :
    p.bytes ≠ [] ∧ ∃ names, (∀ b ∈ names, IsName b) ∧ p.absolute directory = ofNames names ∧
      u = uriOf names := by
  have hp : p.bytes ≠ [] := by
    intro hnil
    rw [toUri?, hnil] at hu
    cases hu
  obtain ⟨names, h, habs⟩ := exists_names_absolute hd hp
  have habsu : (p.absolute directory).toUri? directory = some u :=
    (toUri?_absolute hd hp).trans hu
  rw [habs] at habsu
  exact ⟨hp, names, h, habs, eq_uriOf_of_toUri? h habsu⟩

/-! ### What is read -/

namespace Uri

section Splitting

variable {sep : Char} {s : List Char} {segments : List (List Char)}

theorem splitOn_of_not_mem (h : sep ∉ s) : splitOn sep s = [s] := by
  induction s with
  | nil => rfl
  | cons c s ih =>
    rw [List.mem_cons, not_or] at h
    rw [splitOn, if_neg (Ne.symm h.1), ih h.2]

theorem splitOn_append_sep (h : sep ∉ s) (rest : List Char) :
    splitOn sep (s ++ sep :: rest) = s :: splitOn sep rest := by
  induction s with
  | nil => rw [List.nil_append, splitOn, if_pos rfl]
  | cons c s ih =>
    rw [List.mem_cons, not_or] at h
    rw [List.cons_append, splitOn, if_neg (Ne.symm h.1), ih h.2]

/-- The stretches between separators are what was put between them. -/
theorem splitOn_flatMap (h : ∀ s ∈ segments, sep ∉ s) :
    splitOn sep (segments.flatMap (sep :: ·)) = [] :: segments := by
  have hfrom : ∀ s, sep ∉ s → splitOn sep (s ++ segments.flatMap (sep :: ·)) = s :: segments := by
    induction segments with
    | nil =>
      intro s hs
      rw [List.flatMap_nil, List.append_nil, splitOn_of_not_mem hs]
    | cons t rest ih =>
      intro s hs
      rw [List.flatMap_cons, List.cons_append, splitOn_append_sep hs,
        ih (fun x hx => h x (List.mem_cons_of_mem _ hx)) t (h t List.mem_cons_self)]
  exact hfrom [] List.not_mem_nil

/-- Segments that are no dots are left as they are. -/
theorem resolveSegments_of_plain (done : List (List Char))
    (h : ∀ s ∈ segments, plainDots s ≠ ['.'] ∧ plainDots s ≠ ['.', '.']) :
    resolveSegments done segments = done.reverse ++ segments := by
  induction segments generalizing done with
  | nil => rw [resolveSegments, List.append_nil]
  | cons s rest ih =>
    obtain ⟨hdot, hdots⟩ := h s List.mem_cons_self
    simp only [resolveSegments, if_neg hdot, if_neg hdots]
    rw [ih _ fun x hx => h x (List.mem_cons_of_mem _ hx), List.reverse_cons, List.append_assoc,
      List.singleton_append]

end Splitting

/-- A drive letter at the end gets a slash, and nothing else changes. -/
theorem closeDrive_cases (bytes : List UInt8) :
    closeDrive bytes = bytes ∨ closeDrive bytes = bytes ++ [slash] := by
  unfold closeDrive
  split
  · split
    · exact .inr rfl
    · exact .inl rfl
  · exact .inl rfl

/-- **A slash behind a drive letter says nothing.** -/
theorem components_closeDrive (h : (Path.mk bytes).isAbsolute = true) :
    (Path.mk (closeDrive bytes)).components = (Path.mk bytes).components := by
  rcases closeDrive_cases bytes with heq | heq
  · rw [heq]
  · have habs : (Path.mk (bytes ++ [slash])).isAbsolute = true := by
      cases bytes with
      | nil => rfl
      | cons x rest => exact h
    rw [heq, Path.components_of_absolute habs, Path.components_of_absolute h, Path.segments,
      Path.splitAt_slash, List.filterMap_append]
    exact congrArg _ (List.append_nil _)

theorem hostAlone?_nil : hostAlone? [] = some .missing := by
  simp [hostAlone?, foldHost, Percent.decode, Text.Utf8.decodeLossy, hostPart]

/-- No segment is taken for dots. -/
theorem resolveSegments_segmentsOf (h : ∀ b ∈ names, IsName b) :
    resolveSegments [] ([] :: Path.segmentsOf names) = [] :: Path.segmentsOf names := by
  refine resolveSegments_of_plain [] fun s hs => ?_
  rcases List.mem_cons.mp hs with rfl | hs
  · exact ⟨by decide, by decide⟩
  obtain ⟨b, hb, rfl⟩ := Path.exists_of_mem_segmentsOf h hs
  have hdecode := Path.decode_segmentOf b
  rw [Path.plainDots_segmentOf]
  -- dots decode to dots, and they are no name
  constructor <;> intro he <;> rw [he] at hdecode
  · rcases hb with rfl | hb
    · cases hdecode
    · exact hb.ne_dot (hdecode.symm.trans (by decide))
  · rcases hb with rfl | hb
    · cases hdecode
    · exact hb.ne_dots (hdecode.symm.trans (by decide))

/-- **The reader finds the segments that were written.** -/
theorem filePath?_segmentsOf (h : ∀ b ∈ names, IsName b) :
    filePath? ('/' :: '/' :: (Path.segmentsOf names).flatMap ('/' :: ·)) =
      some (pathOfSegments (Path.segmentsOf names)) := by
  have hsplit : splitOn '/' ((Path.segmentsOf names).flatMap ('/' :: ·)) =
      [] :: Path.segmentsOf names := by
    refine splitOn_flatMap fun s hs => ?_
    obtain ⟨b, -, rfl⟩ := Path.exists_of_mem_segmentsOf h hs
    exact Path.not_mem_segmentOf (by decide) (by decide) (by decide)
  have hcut : cutAt (· == '/') ((Path.segmentsOf names).flatMap ('/' :: ·)) =
      ([], (Path.segmentsOf names).flatMap ('/' :: ·)) := by
    cases names <;> rfl
  have hdrop : ∀ b rest, names = b :: rest →
      ([] :: Path.segmentsOf names).dropWhile List.isEmpty = Path.segmentsOf names := by
    rintro b rest rfl
    have hb : (Path.segmentOf b).isEmpty = false := by
      rw [List.isEmpty_eq_false_iff]
      intro he
      have hdecode := Path.decode_segmentOf b
      rw [he] at hdecode
      exact (h b List.mem_cons_self).ne_nil hdecode.symm
    rw [List.dropWhile_cons_of_pos rfl, Path.segmentsOf, List.map_cons,
      List.dropWhile_cons_of_neg (by simp [hb])]
  unfold filePath?
  simp only [hcut, show isDriveLetter [] = false from rfl, Bool.false_eq_true, if_false, hsplit,
    resolveSegments_segmentsOf h, hostAlone?_nil]
  refine congrArg (fun segments => some (pathOfSegments segments)) ?_
  -- the segment in front of the first slash is dropped; the only one of the root comes back
  cases names with
  | nil => rfl
  | cons b rest =>
    rw [hdrop b rest rfl]
    rfl

/-- **Reading the URI of a path of names gives the path**, but for a slash at its end. -/
theorem toPath?_uriOf (h : ∀ b ∈ names, IsName b) :
    ∃ q, (Path.uriOf names).toPath? = some q ∧ q.components = (ofNames names).components := by
  have htext : (Path.uriOf names).text.toList =
      "file://".toList ++ (Path.segmentsOf names).flatMap ('/' :: ·) := by
    rw [← Path.uriPath_ofNames h]
    exact String.toList_ofList
  -- neither the scheme nor a name ends the path before the end of the text
  have hstop : ∀ c ∈ "file://".toList ++ (Path.segmentsOf names).flatMap ('/' :: ·),
      (!(c == '?' || c == '#')) = true := by
    intro c hc
    rw [List.mem_append, List.mem_flatMap] at hc
    rcases hc with hc | ⟨s, hs, hc⟩
    · have hfile : "file://".toList.all (fun c => !(c == '?' || c == '#')) = true := by decide
      exact List.all_eq_true.mp hfile c hc
    · obtain ⟨b, -, rfl⟩ := Path.exists_of_mem_segmentsOf h hs
      rcases List.mem_cons.mp hc with rfl | hc
      · rfl
      · have hquery : c ≠ '?' := by
          rintro rfl
          exact Path.not_mem_segmentOf (by decide) (by decide) (by decide) hc
        have hhash : c ≠ '#' := by
          rintro rfl
          exact Path.not_mem_segmentOf (by decide) (by decide) (by decide) hc
        simp [hquery, hhash]
  have hscheme : splitScheme ("file://".toList ++ (Path.segmentsOf names).flatMap ('/' :: ·)) =
      (some "file".toList, '/' :: '/' :: (Path.segmentsOf names).flatMap ('/' :: ·)) := rfl
  have hkind : SchemeKind.of "file".toList = .file := by decide +kernel
  refine ⟨pathOfSegments (Path.segmentsOf names), ?_, ?_⟩
  · unfold toPath?
    rw [htext, cutAt, List.takeWhile_eq_self_iff.mpr hstop]
    simp only [hscheme, hkind]
    exact filePath?_segmentsOf h
  · rw [pathOfSegments, show (0x2F : UInt8) = slash from rfl, Path.flatMap_decode_segmentsOf]
    exact components_closeDrive Path.isAbsolute_ofNames

/-- **Reading a URI gives a place**, spelled in whatever way. -/
def Denotes (u : Uri) (place : Path) : Prop :=
  ∃ q, u.toPath? = some q ∧ q.components = place.components

/-- **The URI of a file names the file.** -/
theorem denotes_of_toUri? (hd : directory.isAbsolute = true) (hu : p.toUri? directory = some u) :
    u.Denotes (p.absolute directory) := by
  obtain ⟨-, names, h, habs, rfl⟩ := Path.exists_eq_uriOf hd hu
  rw [habs]
  exact toPath?_uriOf h

end Uri

/-! ### Paths and URIs -/

/-- Absolute paths of names say the same only if they have the same names. -/
theorem Path.eq_of_components_ofNames {names' : List (List UInt8)} (h : ∀ b ∈ names, IsName b)
    (h' : ∀ b ∈ names', IsName b) (heq : (ofNames names).components = (ofNames names').components) :
    names = names' := by
  rw [components_ofNames h, components_ofNames h', List.cons.injEq] at heq
  exact List.map_injective_iff.mpr (fun _ _ he => Component.name.inj he) heq.2

/-- **Paths that have URIs correspond to them.** The URI of a path names the absolute form of the
path, which has the same URI; and two paths have one URI if and only if their absolute forms say
the same. -/
theorem Path.toUri?_corresponds (hd : directory.isAbsolute = true)
    (hu : p.toUri? directory = some u) :
    (∃ q, u.toPath? = some q ∧ q.components = (p.absolute directory).components) ∧
      (p.absolute directory).toUri? directory = some u ∧
      ∀ (p' directory' : Path) (u' : Uri), directory'.isAbsolute = true →
        p'.toUri? directory' = some u' →
        (u = u' ↔ (p.absolute directory).components = (p'.absolute directory').components) := by
  refine ⟨Uri.denotes_of_toUri? hd hu, ?_, fun p' directory' u' hd' hu' => ⟨?_, fun heq => ?_⟩⟩
  · rw [toUri?_absolute hd (exists_eq_uriOf hd hu).1, hu]
  · rintro rfl
    obtain ⟨q, hq, hcomponents⟩ := Uri.denotes_of_toUri? hd hu
    obtain ⟨q', hq', hcomponents'⟩ := Uri.denotes_of_toUri? hd' hu'
    rw [hq] at hq'
    rw [← hcomponents, ← hcomponents', Option.some.inj hq']
  · obtain ⟨-, names, h, habs, rfl⟩ := exists_eq_uriOf hd hu
    obtain ⟨-, names', h', habs', rfl⟩ := exists_eq_uriOf hd' hu'
    rw [habs, habs'] at heq
    rw [eq_of_components_ofNames h h' heq]

/-- A name that looks like encoded dots stays a name, a broken character comes back, and a drive
letter at the end is a name as well. -/
theorem Path.toUri?_corresponds_dots :
    let directory := Path.ofString "/ws/src"
    let p : Path :=
      ⟨(Path.ofString ".././/%2e%2e/a b?").bytes ++ 0xFF :: (Path.ofString "/C:").bytes⟩
    let u : Uri := ⟨"file:///ws/%252e%252e/a%20b%3F%FF/C:"⟩
    p.toUri? directory = some u ∧
      (∃ q, u.toPath? = some q ∧ q.components = [.root, .name (Path.ofString "ws").bytes,
        .name (Path.ofString "%2e%2e").bytes, .name ((Path.ofString "a b?").bytes ++ [0xFF]),
        .name (Path.ofString "C:").bytes]) ∧
      (p.absolute directory).toUri? directory = some u := by
  intro directory p u
  have hu : p.toUri? directory = some u := by decide +kernel
  obtain ⟨⟨q, hq, hcomponents⟩, habs, -⟩ := toUri?_corresponds (by decide +kernel) hu
  refine ⟨hu, ⟨q, hq, hcomponents.trans ?_⟩, habs⟩
  decide +kernel

end LanguageHub
