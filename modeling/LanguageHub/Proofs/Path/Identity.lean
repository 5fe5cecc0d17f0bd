import LanguageHub.Proofs.Path.Keys

/-!
# Identity of roots

When are two roots the same? Containment has one answer: each contains the other. The key of a
session has another: the roots have one folded text when the separators at its end are taken off.

For roots as they are found (`Path.IsNormal`, `Workspace.isNormal_findRoot`) the first answer is
that the **whole folded texts** are equal (`Path.within_within_iff`), as a root is its names, and
both sides tell the folded names. So the two answers differ by nothing but what is taken off, and
at the end of a normal root this is no slash: it is backslashes, which are characters of the last
name. No two roots are confused unless one of them ends in a backslash, and then they may be
(`SessionKey.same_backslash`).
-/

namespace LanguageHub

open LanguageHub.Path

namespace Path

/-- **A normal path**: it is absolute, and there are no dots to resolve. -/
structure IsNormal (p : Path) : Prop where
  isAbsolute : p.isAbsolute = true
  normalize : p.normalize = p

variable {p r r' : Path} {names names' : List (List UInt8)}

theorem IsNormal.exists_names (h : p.IsNormal) :
    ∃ names, (∀ b ∈ names, IsName b) ∧ p = ofNames names := by
  obtain ⟨names, hnames, heq⟩ := exists_names_normalize h.isAbsolute
  exact ⟨names, hnames, h.normalize.symm.trans heq⟩

theorem isNormal_ofNames (h : ∀ b ∈ names, IsName b) : (ofNames names).IsNormal :=
  ⟨isAbsolute_ofNames, normalize_ofNames h⟩

/-! ### Containment in both directions -/

/-- **Paths contain each other exactly when their folded components are equal.** -/
theorem within_within_iff_map :
    (p.within r = true ∧ r.within p = true) ↔
      p.components.map Component.fold = r.components.map Component.fold := by
  simp only [within, startsWithFolded_iff]
  constructor
  · rintro ⟨h, h'⟩
    exact h'.eq_of_length (Nat.le_antisymm h'.length_le h.length_le)
  · intro h
    rw [h]
    exact ⟨List.prefix_refl _, List.prefix_refl _⟩

/-- **Normal paths contain each other exactly when they differ in case only.** -/
theorem within_within_iff (h : r.IsNormal) (h' : r'.IsNormal) :
    (r.within r' = true ∧ r'.within r = true) ↔ r.folded = r'.folded := by
  obtain ⟨names, hnames, rfl⟩ := h.exists_names
  obtain ⟨names', hnames', rfl⟩ := h'.exists_names
  rw [within_within_iff_map, folded_eq_iff hnames hnames', map_fold_components hnames,
    map_fold_components hnames', List.cons.injEq]
  simp only [true_and]

/-- Paths that contain each other have one depth and contain the same paths. -/
theorem depth_and_within_of_within_within (h : r.within r' = true ∧ r'.within r = true) :
    r.depth = r'.depth ∧ ∀ p : Path, p.within r = p.within r' := by
  have hmap := within_within_iff_map.mp h
  refine ⟨?_, fun p => startsWithFolded_congr hmap⟩
  have hlength := congrArg List.length hmap
  rwa [List.length_map, List.length_map] at hlength

/-- A folded text that does not end in a backslash ends in no separator, unless it is a slash. -/
theorem rdropWhile_folded (h : ∀ b ∈ names, IsName b)
    (hend : (ofNames names).endsInBackslash = false) :
    (ofNames names).folded.rdropWhile SessionKey.isSeparator =
      names.flatMap ('/' :: foldName ·) :=
  (SessionKey.foldedRoot_eq _ _).symm.trans (@SessionKey.foldedRoot_ofNames names "" h hend)

end Path

/-! ### Roots and keys -/

/-- **The root of a document is normal.** -/
theorem Workspace.isNormal_findRoot {directory document : Path}
    (hd : directory.isAbsolute = true) (hp : document.bytes ≠ []) (m : RootMarkers)
    (files : FileTree) : (findRoot m files directory document).IsNormal := by
  obtain ⟨names, hnames, habs⟩ := exists_names_absolute hd hp
  have hstart : startOf directory document = startOf directory (ofNames names) := by
    rw [startOf, startOf, habs, absolute_ofNames hnames]
  have hroot : findRoot m files directory document =
      findRoot m files directory (ofNames names) := by
    rw [findRoot, findRoot, markedRoot?, markedRoot?, hstart]
  obtain ⟨n, hn⟩ := exists_findRoot_eq hnames m files directory
  rw [hroot, hn]
  exact isNormal_ofNames fun b hb => hnames b (List.mem_of_mem_take hb)

namespace SessionKey

variable {r r' : Path}

theorem same_iff_rdropWhile (language : String) :
    (SessionKey.mk r language).same ⟨r', language⟩ = true ↔
      r.folded.rdropWhile isSeparator = r'.folded.rdropWhile isSeparator := by
  rw [same_iff, foldedRoot_eq, foldedRoot_eq]
  exact and_iff_left rfl

/-- **When two normal roots have one key, and when they contain each other.** Both are read off
the folded texts: containment takes them as they are, and the key without the separators at their
ends. So the two agree for roots that do not end in a backslash, and roots that contain each other
have one key, one depth and the same paths below them in any case. -/
theorem identity_of_isNormal (h : r.IsNormal) (h' : r'.IsNormal) (language : String) :
    ((r.within r' = true ∧ r'.within r = true) ↔ r.folded = r'.folded) ∧
    ((SessionKey.mk r language).same ⟨r', language⟩ = true ↔
      r.folded.rdropWhile isSeparator = r'.folded.rdropWhile isSeparator) ∧
    (r.endsInBackslash = false → r'.endsInBackslash = false →
      ((SessionKey.mk r language).same ⟨r', language⟩ = true ↔
        r.within r' = true ∧ r'.within r = true)) ∧
    (r.within r' = true ∧ r'.within r = true →
      (SessionKey.mk r language).same ⟨r', language⟩ = true ∧
      (SessionKey.mk r language).depth = (SessionKey.mk r' language).depth ∧
      ∀ p : Path, p.within r = p.within r') := by
  have hwithin := within_within_iff h h'
  have hsame := @same_iff_rdropWhile r r' language
  refine ⟨hwithin, hsame, fun hend hend' => ?_,
    fun hw => ⟨?_, depth_and_within_of_within_within hw⟩⟩
  · obtain ⟨names, hnames, rfl⟩ := h.exists_names
    obtain ⟨names', hnames', rfl⟩ := h'.exists_names
    rw [hsame, hwithin, folded_eq_iff hnames hnames', rdropWhile_folded hnames hend,
      rdropWhile_folded hnames' hend']
    exact flatMap_fold_eq_iff (fun b hb => (hnames b hb).plain) fun b hb => (hnames' b hb).plain
  · rw [hsame, hwithin.mp hw]

/-- Roots that differ in case, with a sigma that is final in one of its spellings. -/
theorem identity_of_isNormal_sigma :
    let r := Path.ofString "/WS/ΟΔΟΣ"
    let r' := Path.ofString "/ws/οδος"
    (SessionKey.mk r "csharp").same ⟨r', "csharp"⟩ = true ∧
      (SessionKey.mk r "csharp").depth = (SessionKey.mk r' "csharp").depth ∧
      ∀ p : Path, p.within r = p.within r' := by
  have hid := @identity_of_isNormal (.ofString "/WS/ΟΔΟΣ") (.ofString "/ws/οδος")
    ⟨by decide +kernel, by decide +kernel⟩ ⟨by decide +kernel, by decide +kernel⟩ "csharp"
  have hw := (hid.2.2.1 (by decide +kernel) (by decide +kernel)).mp (by decide +kernel)
  exact hid.2.2.2 hw

/-- **Roots of one key that are not the same**: the roots of two documents, where no directory is
marked. Neither contains the other, and with one more slash not even their depths are equal. -/
theorem same_backslash :
    let r := Workspace.findRoot ⟨[]⟩ ⟨[]⟩ (.ofString "/") (.ofString "/ws/a.cs")
    let r₁ := Workspace.findRoot ⟨[]⟩ ⟨[]⟩ (.ofString "/") (.ofString "/ws\\/b.cs")
    let r₂ := Workspace.findRoot ⟨[]⟩ ⟨[]⟩ (.ofString "/") (.ofString "/ws/\\/c.cs")
    r = .ofString "/ws" ∧ r₁ = .ofString "/ws\\" ∧ r₂ = .ofString "/ws/\\" ∧
    (SessionKey.mk r "csharp").same ⟨r₁, "csharp"⟩ = true ∧
    r.within r₁ = false ∧ r₁.within r = false ∧
    (SessionKey.mk r "csharp").same ⟨r₂, "csharp"⟩ = true ∧
    (SessionKey.mk r "csharp").depth ≠ (SessionKey.mk r₂ "csharp").depth ∧
    (Path.ofString "/ws/a.cs").within r = true ∧ (Path.ofString "/ws/a.cs").within r₂ = false := by
  decide +kernel

end SessionKey

end LanguageHub
