import LanguageHub.Proofs.Path.Names
import LanguageHub.Proofs.Text.Slash

/-!
# What the key of a root says about containment

A key compares a root as **one text**, and the owner of a document is found name by name.
This file shows that the first decides the second: roots with one folding contain the same
paths (`Path.within_congr`). A slash separates the folded text as it separates the path,
so the text can be cut into the folded names again (`SessionKey.foldedRoot_ofNames`,
`Path.map_fold_inj`).

There is one exception. A key takes backslashes off the end of a root as well as slashes, and on
a system where a backslash is a character of a name this makes one key of two roots neither of
which contains the other (`Path.endsInBackslash`).
-/

namespace LanguageHub

open Text.Utf8

namespace Path

/-- Whether a path, as it is shown, ends in a backslash. -/
def endsInBackslash (p : Path) : Bool := (decodeLossy p.bytes).getLast? == some '\\'

/-- A name as it is compared. -/
def foldName (b : List UInt8) : List Char := (Component.name b).fold

variable {p : Path} {b : List UInt8} {names names' : List (List UInt8)}

/-! ### Names as they are compared -/

theorem decodeLossy_ne_nil (h : b ≠ []) : decodeLossy b ≠ [] := by
  cases b with
  | nil => exact absurd rfl h
  | cons c b =>
    rw [decodeLossy_cons]
    exact List.cons_ne_nil _ _

/-- The text of a path of names has a slash before each of them. -/
theorem decodeLossy_names (b : List UInt8) (names : List (List UInt8)) :
    decodeLossy (b ++ names.flatMap (slash :: ·)) =
      decodeLossy b ++ names.flatMap ('/' :: decodeLossy ·) := by
  induction names generalizing b with
  | nil => simp
  | cons c names ih =>
    rw [List.flatMap_cons, List.cons_append, slash, decodeLossy_slash, List.flatMap_cons,
      List.cons_append]
    exact congrArg _ (congrArg _ (ih c))

/-- So has the text in lower case. -/
theorem lowercase_names (s : List Char) (names : List (List UInt8)) :
    Text.lowercase (s ++ names.flatMap ('/' :: decodeLossy ·)) =
      Text.lowercase s ++ names.flatMap ('/' :: foldName ·) := by
  induction names generalizing s with
  | nil => simp
  | cons c names ih =>
    rw [List.flatMap_cons, List.cons_append, Text.lowercase_slash, List.flatMap_cons,
      List.cons_append]
    exact congrArg _ (congrArg _ (ih (decodeLossy c)))

/-- A path of names, read as a text. -/
theorem decodeLossy_ofNames (hne : names ≠ []) :
    decodeLossy (ofNames names).bytes = names.flatMap ('/' :: decodeLossy ·) := by
  have hnames := decodeLossy_names [] names
  rw [List.nil_append, show decodeLossy [] = [] by rw [decodeLossy], List.nil_append] at hnames
  cases names with
  | nil => exact absurd rfl hne
  | cons b rest => exact hnames

theorem lowercase_flatMap (names : List (List UInt8)) :
    Text.lowercase (names.flatMap ('/' :: decodeLossy ·)) = names.flatMap ('/' :: foldName ·) := by
  have hlower := lowercase_names [] names
  rwa [List.nil_append, Text.lowercase_nil, List.nil_append] at hlower

theorem slash_not_mem_fold (h : slash ∉ b) : '/' ∉ foldName b := fun hc =>
  h (slash_mem_of_mem_decodeLossy (Text.slash_mem_of_mem_lowercase hc))

/-- **The folded names can be told from the folded text.** -/
theorem map_fold_inj (h : ∀ b ∈ names, slash ∉ b) (h' : ∀ b ∈ names', slash ∉ b)
    (heq : names.flatMap ('/' :: foldName ·) =
      names'.flatMap ('/' :: foldName ·)) :
    names.map foldName = names'.map foldName := by
  -- the first name ends at the next slash
  have hcut : ∀ (b : List UInt8) (names : List (List UInt8)), slash ∉ b →
      (foldName b ++ names.flatMap ('/' :: foldName ·)).takeWhile
        (· != '/') = foldName b := by
    intro b names hb
    rw [List.takeWhile_append_of_pos fun c hc => by
      rw [bne_iff_ne]
      exact fun he => slash_not_mem_fold hb (he ▸ hc)]
    cases names <;> simp
  induction names generalizing names' with
  | nil =>
    cases names' with
    | nil => rfl
    | cons b names' => simp at heq
  | cons b names ih =>
    cases names' with
    | nil => simp at heq
    | cons b' names' =>
      simp only [List.flatMap_cons, List.cons_append, List.cons.injEq, true_and] at heq
      have hb := hcut b names (h b List.mem_cons_self)
      rw [heq, hcut b' names' (h' b' List.mem_cons_self)] at hb
      rw [hb, List.append_cancel_left_eq] at heq
      rw [List.map_cons, List.map_cons, hb,
        ih (fun x hx => h x (List.mem_cons_of_mem _ hx))
          (fun x hx => h' x (List.mem_cons_of_mem _ hx)) heq]

/-- The folded names make up the folded text, and it can be cut into them. -/
theorem flatMap_fold_eq_iff (h : ∀ b ∈ names, slash ∉ b) (h' : ∀ b ∈ names', slash ∉ b) :
    names.flatMap ('/' :: foldName ·) = names'.flatMap ('/' :: foldName ·) ↔
      names.map foldName = names'.map foldName := by
  refine ⟨map_fold_inj h h', fun heq => ?_⟩
  have hflat := congrArg (List.flatMap ('/' :: ·)) heq
  rwa [List.flatMap_map, List.flatMap_map] at hflat

theorem map_fold_components (h : ∀ b ∈ names, IsName b) :
    (ofNames names).components.map Component.fold =
      Component.root.fold :: names.map foldName := by
  rw [components_ofNames h, List.map_cons, List.map_map]
  rfl

/-! ### Containment -/

/-- Containment compares the folded components. -/
theorem startsWithFolded_iff {cs rs : List Component} :
    startsWithFolded cs rs = true ↔ rs.map Component.fold <+: cs.map Component.fold := by
  induction cs generalizing rs with
  | nil => cases rs <;> simp [startsWithFolded]
  | cons c cs ih =>
    cases rs with
    | nil => simp [startsWithFolded]
    | cons r rs =>
      rw [startsWithFolded, Bool.and_eq_true, beq_iff_eq, ih, List.map_cons, List.map_cons,
        List.cons_prefix_cons, eq_comm]

theorem startsWithFolded_congr {cs rs rs' : List Component}
    (h : rs.map Component.fold = rs'.map Component.fold) :
    startsWithFolded cs rs = startsWithFolded cs rs' := by
  rw [Bool.eq_iff_iff, startsWithFolded_iff, startsWithFolded_iff, h]

theorem startsWithFolded_append (cs ds : List Component) :
    startsWithFolded (cs ++ ds) cs = true := by
  rw [startsWithFolded_iff, List.map_append]
  exact List.prefix_append _ _

/-- **A path lies below the beginnings of its names.** -/
theorem within_take (h : ∀ b ∈ names, IsName b) (n : Nat) :
    (ofNames names).within (ofNames (names.take n)) = true := by
  have hsplit : (ofNames names).components =
      (ofNames (names.take n)).components ++ (names.drop n).map .name := by
    rw [components_ofNames h, components_ofNames fun b hb => h b (List.mem_of_mem_take hb),
      List.cons_append, ← List.map_append, List.take_append_drop]
  rw [within, hsplit]
  exact startsWithFolded_append _ _

end Path

/-! ### Keys -/

namespace SessionKey

variable {a b c : SessionKey}

theorem same_iff : a.same b = true ↔ a.foldedRoot = b.foldedRoot ∧ a.language = b.language := by
  simp [same]

@[simp] theorem same_refl (a : SessionKey) : a.same a = true := same_iff.mpr ⟨rfl, rfl⟩

theorem same_symm (h : a.same b = true) : b.same a = true := by
  rw [same_iff] at h ⊢
  exact ⟨h.1.symm, h.2.symm⟩

theorem same_comm (a b : SessionKey) : a.same b = b.same a :=
  Bool.eq_iff_iff.mpr ⟨same_symm, same_symm⟩

theorem same_trans (h : a.same b = true) (h' : b.same c = true) : a.same c = true := by
  rw [same_iff] at h h' ⊢
  exact ⟨h.1.trans h'.1, h.2.trans h'.2⟩

/-- Keys that name one session are alike for every other key. -/
theorem same_congr (h : a.same b = true) (k : SessionKey) : k.same a = k.same b := by
  obtain ⟨hr, hl⟩ := same_iff.mp h
  simp [same, hr, hl]

end SessionKey

/-! ### Folded roots -/

section Roots

open LanguageHub.Path

variable {p : Path} {names names' : List (List UInt8)} {language language' : String}

/-- The text of a path of names ends in a name. -/
theorem Path.getLast?_ne_slash (h : ∀ b ∈ names, IsName b) (hne : names ≠ []) :
    (names.flatMap ('/' :: decodeLossy ·)).getLast? ≠ some '/' := by
  rcases List.eq_nil_or_concat' names with rfl | ⟨rest, l, rfl⟩
  · exact absurd rfl hne
  · have hl := h l (by simp)
    rw [List.flatMap_append, List.flatMap_singleton, List.getLast?_append, List.getLast?_cons]
    intro hc
    rcases List.eq_nil_or_concat' (decodeLossy l) with hn | ⟨t, c, ht⟩
    · exact decodeLossy_ne_nil hl.ne_nil hn
    · rw [ht] at hc
      have hc : c = '/' := by simpa using hc
      exact hl.plain (slash_mem_of_mem_decodeLossy (by simp [ht, hc]))

/-- **The folded root has a slash before each folded name.** -/
theorem SessionKey.foldedRoot_ofNames (h : ∀ b ∈ names, IsName b)
    (hend : (ofNames names).endsInBackslash = false) :
    (SessionKey.mk (ofNames names) language).foldedRoot =
      names.flatMap ('/' :: foldName ·) := by
  cases names with
  | nil =>
    have htext : decodeLossy [slash] = ['/'] := by decide +kernel
    simp [foldedRoot, ofNames, htext, isSeparator]
  | cons b rest =>
    have htext := decodeLossy_ofNames (List.cons_ne_nil b rest)
    -- the text does not end in a separator
    have hkept : ((decodeLossy (ofNames (b :: rest)).bytes).reverse.dropWhile
        SessionKey.isSeparator).reverse = decodeLossy (ofNames (b :: rest)).bytes := by
      rcases List.eq_nil_or_concat' (decodeLossy (ofNames (b :: rest)).bytes) with hn | ⟨t, c, hc⟩
      · rw [hn]
        rfl
      · have hback : c ≠ '\\' := by
          rintro rfl
          simp [endsInBackslash, hc] at hend
        have hslash : c ≠ '/' := by
          rintro rfl
          exact getLast?_ne_slash h (List.cons_ne_nil b rest) (by rw [← htext, hc]; simp)
        simp [hc, SessionKey.isSeparator, hback, hslash]
    rw [SessionKey.foldedRoot, hkept, htext, lowercase_flatMap]

/-- **Roots of one key contain the same paths**, backslashes at their ends aside. -/
theorem Path.within_congr (h : ∀ b ∈ names, IsName b) (h' : ∀ b ∈ names', IsName b)
    (hend : (ofNames names).endsInBackslash = false)
    (hend' : (ofNames names').endsInBackslash = false)
    (hsame : (SessionKey.mk (ofNames names) language).same
      ⟨ofNames names', language'⟩ = true) :
    p.within (ofNames names) = p.within (ofNames names') := by
  obtain ⟨hroot, -⟩ := SessionKey.same_iff.mp hsame
  rw [SessionKey.foldedRoot_ofNames h hend, SessionKey.foldedRoot_ofNames h' hend'] at hroot
  have hmap := map_fold_inj (fun b hb => (h b hb).plain) (fun b hb => (h' b hb).plain) hroot
  refine startsWithFolded_congr ?_
  rw [map_fold_components h, map_fold_components h', hmap]

end Roots

end LanguageHub
