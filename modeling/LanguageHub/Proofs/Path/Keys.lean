import LanguageHub.Proofs.Path.Roots
import Mathlib.Data.List.DropRight

/-!
# What containment says about the keys of roots

A key is told from the names of its root: it is a function of the **folded text** of the root
(`SessionKey.foldedRoot_eq`), which the folded names make up (`Path.folded_eq_iff`). For separators
are taken off the end of a root before it is lower-cased, and they could as well be taken off after
it (`Text.lowercase_rdropWhile`).

So of all roots of one depth that contain a path, **only one is left for each language**
(`SessionKey.same_of_within`): they have the same folded names, which are those of the path. That
roots of one key have one folded text is wrong, as backslashes at the end of a root are lost
(`Path.endsInBackslash`), but it is not needed here.
-/

namespace LanguageHub

open LanguageHub.Path

/-! ### Separators at the end of a text -/

namespace Text

theorem lowerChar_ne_nil (c : Char) : lowerChar c ≠ [] := by
  unfold lowerChar
  repeat' split
  all_goals exact List.cons_ne_nil _ _

theorem lowercaseFrom_ne_nil {before s : List Char} (h : s ≠ []) : lowercaseFrom before s ≠ [] := by
  cases s with
  | nil => exact absurd rfl h
  | cons c s =>
    rw [lowercaseFrom]
    split
    · exact List.cons_ne_nil _ _
    · simp [lowerChar_ne_nil]

/-- A text in lower case ends in a separator only if the text does. -/
theorem eq_of_getLast?_lowercaseFrom {before t : List Char} {c d : Char}
    (hd : d = '/' ∨ d = '\\') (h : (lowercaseFrom before (t ++ [c])).getLast? = some d) :
    c = d := by
  induction t generalizing before with
  | nil =>
    rw [List.nil_append, lowercaseFrom, lowercaseFrom, List.append_nil] at h
    have hmem := List.mem_of_getLast? h
    split at hmem
    · -- a sigma becomes one of two letters
      unfold lowerSigma at hmem
      rcases hd with rfl | rfl <;> split at hmem <;> simp at hmem
    · exact eq_of_mem_lowerChar hd hmem
  | cons b t ih =>
    rw [List.cons_append, lowercaseFrom,
      List.getLast?_append_of_ne_nil _ (lowercaseFrom_ne_nil (by simp))] at h
    exact ih h

/-- **Separators can be taken off the end of a text before it is lower-cased, or after.** -/
theorem lowercase_rdropWhile (s : List Char) :
    lowercase (s.rdropWhile SessionKey.isSeparator) =
      (lowercase s).rdropWhile SessionKey.isSeparator := by
  have hsep : ∀ c, SessionKey.isSeparator c = true ↔ c = '/' ∨ c = '\\' := by
    simp [SessionKey.isSeparator]
  induction s using List.reverseRecOn with
  | nil => rfl
  | append_singleton t c ih =>
    by_cases hc : SessionKey.isSeparator c = true
    · have hbarrier : IsBarrier c := by
        rcases (hsep c).mp hc with rfl | rfl
        · exact isBarrier_slash
        · exact isBarrier_backslash
      rw [List.rdropWhile_concat_pos _ _ _ hc, ih, lowercase_barrier hbarrier, lowercase_nil,
        List.rdropWhile_concat_pos _ _ _ hc]
    · -- the text does not end in a separator, before or after
      have hlast : ∀ hne : lowercase (t ++ [c]) ≠ [],
          ¬ SessionKey.isSeparator ((lowercase (t ++ [c])).getLast hne) = true := by
        intro hne hd
        have heq := eq_of_getLast?_lowercaseFrom ((hsep _).mp hd)
          (List.getLast?_eq_some_getLast hne)
        exact hc (heq ▸ hd)
      rw [List.rdropWhile_concat_neg _ _ _ hc, List.rdropWhile_eq_self_iff.mpr hlast]

end Text

/-! ### The folded text of a path -/

variable {names names' : List (List UInt8)} {language : String} {p : Path}

namespace Path

/-- The text of a path without regard to case. -/
def folded (p : Path) : List Char := Text.lowercase (Text.Utf8.decodeLossy p.bytes)

theorem folded_ofNames :
    (ofNames names).folded =
      if names = [] then ['/'] else names.flatMap ('/' :: foldName ·) := by
  cases names with
  | nil => decide +kernel
  | cons b rest =>
    have hne := List.cons_ne_nil b rest
    rw [folded, decodeLossy_ofNames hne, lowercase_flatMap, if_neg hne]

theorem foldName_ne_nil {b : List UInt8} (h : IsName b) : foldName b ≠ [] :=
  Text.lowercaseFrom_ne_nil (decodeLossy_ne_nil h.ne_nil)

/-- The text of some names is longer than that of the root of the file system. -/
theorem flatMap_fold_ne_slash (h : ∀ b ∈ names, IsName b) :
    names.flatMap ('/' :: foldName ·) ≠ ['/'] := by
  cases names with
  | nil => simp
  | cons b rest =>
    intro hc
    rw [List.flatMap_cons, List.cons_append, List.cons.injEq, List.append_eq_nil_iff] at hc
    exact foldName_ne_nil (h b List.mem_cons_self) hc.2.1

/-- **The folded text of a path and its folded names tell each other.** -/
theorem folded_eq_iff (h : ∀ b ∈ names, IsName b) (h' : ∀ b ∈ names', IsName b) :
    (ofNames names).folded = (ofNames names').folded ↔
      names.map foldName = names'.map foldName := by
  have hflat := flatMap_fold_eq_iff (fun b hb => (h b hb).plain) fun b hb => (h' b hb).plain
  rw [folded_ofNames, folded_ofNames]
  by_cases hn : names = [] <;> by_cases hn' : names' = []
  · simp only [hn, hn']
  · rw [if_pos hn, if_neg hn', hn, List.map_nil]
    refine iff_of_false (flatMap_fold_ne_slash h').symm fun heq => ?_
    exact hn' (List.map_eq_nil_iff.mp heq.symm)
  · rw [if_neg hn, if_pos hn', hn', List.map_nil, List.map_eq_nil_iff]
    exact iff_of_false (flatMap_fold_ne_slash h) hn
  · rw [if_neg hn, if_neg hn', hflat]

end Path

/-! ### Keys and names -/

/-- **A key keeps of a root its folded text without the separators at the end.** -/
theorem SessionKey.foldedRoot_eq (r : Path) (language : String) :
    (SessionKey.mk r language).foldedRoot = r.folded.rdropWhile SessionKey.isSeparator :=
  Text.lowercase_rdropWhile _

/-- Two beginnings of folded components of one length are alike. -/
theorem Path.map_fold_eq_of_startsWithFolded {cs rs rs' : List Component}
    (h : startsWithFolded cs rs = true) (h' : startsWithFolded cs rs' = true)
    (hlen : rs.length = rs'.length) : rs.map Component.fold = rs'.map Component.fold := by
  rw [startsWithFolded_iff] at h h'
  have hle : (rs.map Component.fold).length ≤ (rs'.map Component.fold).length := by simp [hlen]
  exact (List.prefix_of_prefix_length_le h h' hle).eq_of_length (by simp [hlen])

/-- **Roots of one depth that contain one path have one key** for each language. -/
theorem SessionKey.same_of_within (h : ∀ b ∈ names, IsName b) (h' : ∀ b ∈ names', IsName b)
    (hw : p.within (ofNames names) = true) (hw' : p.within (ofNames names') = true)
    (hdepth : (ofNames names).depth = (ofNames names').depth) :
    (SessionKey.mk (ofNames names) language).same ⟨ofNames names', language⟩ = true := by
  have hmap := map_fold_eq_of_startsWithFolded hw hw' hdepth
  rw [map_fold_components h, map_fold_components h', List.cons.injEq] at hmap
  rw [SessionKey.same_iff, SessionKey.foldedRoot_eq, SessionKey.foldedRoot_eq,
    (folded_eq_iff h h').mpr hmap.2]
  exact ⟨rfl, rfl⟩

end LanguageHub
