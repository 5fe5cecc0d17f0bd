import LanguageHub.Workspace
import Mathlib.Data.List.Basic

/-!
# Absolute paths as lists of names

An absolute path without dots is nothing but the list of its **names**, and `Path.ofNames`
spells it. In this form the operations on paths are operations on lists: joining appends a
name, the parent drops the last one, the directories above are the beginnings of the list.

Every absolute path becomes such a path when it is normalized
(`Path.exists_names_normalize`), and such a path stays as it is
(`Path.normalize_ofNames`). So it is in this form that documents and roots are compared:
the root of a document has a beginning of the names of the document
(`Workspace.exists_findRoot_eq`).
-/

namespace LanguageHub

namespace Path

/-- **A name**: what can stand between two slashes of a path and is no dots. -/
structure IsName (b : List UInt8) : Prop where
  ne_nil : b ≠ []
  plain : slash ∉ b
  ne_dot : b ≠ [dot]
  ne_dots : b ≠ [dot, dot]

/-- The absolute path of some names. -/
def ofNames : List (List UInt8) → Path
  | [] => ⟨[slash]⟩
  | b :: names => ⟨(b :: names).flatMap (slash :: ·)⟩

variable {p directory : Path} {b : List UInt8} {names : List (List UInt8)}

/-! ### Components -/

theorem splitAt_append (hb : slash ∉ b) (s : List UInt8) :
    splitAt slash (b ++ s) = match splitAt slash s with
      | [] => [b]
      | t :: more => (b ++ t) :: more := by
  induction b with
  | nil =>
    have hne : splitAt slash s ≠ [] := by
      cases s with
      | nil => simp [splitAt]
      | cons c s =>
        simp only [splitAt]
        split
        · simp
        · split <;> simp
    cases hs : splitAt slash s with
    | nil => exact absurd hs hne
    | cons t more => rw [List.nil_append, hs]; rfl
  | cons c b ih =>
    rw [List.mem_cons, not_or] at hb
    have hc : ¬ c = slash := fun h => hb.1 h.symm
    rw [List.cons_append, splitAt, if_neg hc, ih hb.2]
    cases splitAt slash s <;> rfl

/-- The stretches between the slashes are the names. -/
theorem splitAt_flatMap (hb : slash ∉ b) (h : ∀ b ∈ names, slash ∉ b) :
    splitAt slash (b ++ names.flatMap (slash :: ·)) = b :: names := by
  induction names generalizing b with
  | nil => rw [splitAt_append hb]; simp [splitAt]
  | cons c names ih =>
    have hc := ih (h c List.mem_cons_self) fun x hx => h x (List.mem_cons_of_mem _ hx)
    rw [splitAt_append hb, List.flatMap_cons, List.cons_append, splitAt, if_pos rfl, hc]
    simp

theorem not_mem_of_mem_splitAt {s l : List UInt8} (h : s ∈ splitAt slash l) : slash ∉ s := by
  induction l generalizing s with
  | nil =>
    rw [splitAt, List.mem_singleton] at h
    simp [h]
  | cons c l ih =>
    rw [splitAt] at h
    split at h
    · rcases List.mem_cons.mp h with rfl | h
      · exact List.not_mem_nil
      · exact ih h
    · next hc =>
      split at h
      · rw [List.mem_singleton] at h
        rw [h, List.mem_singleton]
        exact fun he => hc he.symm
      · next t more hl =>
        rcases List.mem_cons.mp h with rfl | h
        · rw [List.mem_cons, not_or]
          exact ⟨fun he => hc he.symm, ih (by rw [hl]; exact List.mem_cons_self)⟩
        · exact ih (by rw [hl]; exact List.mem_cons_of_mem _ h)

theorem ofSegment_of_isName (h : IsName b) : Component.ofSegment b = some (.name b) := by
  unfold Component.ofSegment
  split
  · exact absurd rfl h.ne_nil
  · exact absurd rfl h.ne_dot
  · exact absurd rfl h.ne_dots
  · rfl

/-- What a stretch between slashes stands for. -/
theorem ofSegment_cases {s : List UInt8} (hs : slash ∉ s) {c : Component}
    (h : Component.ofSegment s = some c) : c = .parent ∨ ∃ b, IsName b ∧ c = .name b := by
  unfold Component.ofSegment at h
  split at h
  · cases h
  · cases h
  · exact .inl (Option.some.inj h).symm
  · next h₁ h₂ h₃ => exact .inr ⟨s, ⟨h₁, hs, h₂, h₃⟩, (Option.some.inj h).symm⟩

@[simp] theorem isAbsolute_ofNames : (ofNames names).isAbsolute = true := by
  cases names <;> rfl

theorem bytes_ofNames_ne_nil : (ofNames names).bytes ≠ [] := by
  cases names <;> simp [ofNames]

/-- **The components of a path of names** are the root and the names. -/
theorem components_ofNames (h : ∀ b ∈ names, IsName b) :
    (ofNames names).components = .root :: names.map .name := by
  have hfilter : names.filterMap Component.ofSegment = names.map .name := by
    rw [← List.filterMap_eq_map]
    exact List.filterMap_congr fun b hb => ofSegment_of_isName (h b hb)
  have hsplit : (splitAt slash (ofNames names).bytes).filterMap Component.ofSegment =
      names.map .name := by
    cases names with
    | nil => rfl
    | cons b rest =>
      have hseg : splitAt slash ([] ++ (b :: rest).flatMap (slash :: ·)) = [] :: b :: rest :=
        splitAt_flatMap List.not_mem_nil fun x hx => (h x hx).plain
      rw [List.nil_append] at hseg
      rw [ofNames, hseg, List.filterMap_cons_none rfl, hfilter]
  rw [components, isAbsolute_ofNames, if_pos rfl, hsplit]

/-- The components of an absolute path are the root, double dots and names. -/
theorem components_of_isAbsolute (h : p.isAbsolute = true) :
    ∃ cs, p.components = .root :: cs ∧ ∀ c ∈ cs, c = .parent ∨ ∃ b, IsName b ∧ c = .name b := by
  refine ⟨_, by rw [components, if_pos h], fun c hc => ?_⟩
  obtain ⟨s, hs, hc⟩ := List.mem_filterMap.mp hc
  exact ofSegment_cases (not_mem_of_mem_splitAt hs) hc

/-! ### Joining, parents and normal forms -/

theorem join_name (h : ∀ b ∈ names, IsName b) (hb : IsName b) :
    (ofNames names).join ⟨b⟩ = ofNames (names ++ [b]) := by
  have habs : (⟨b⟩ : Path).isAbsolute = false := by
    cases b with
    | nil => rfl
    | cons c b =>
      have hc : c ≠ slash := fun he => hb.plain (by simp [he])
      simp [isAbsolute, hc]
  rw [join, habs, if_neg (by decide)]
  rcases List.eq_nil_or_concat' names with rfl | ⟨rest, l, rfl⟩
  · simp [ofNames]
  · have hl := h l (by simp)
    obtain ⟨x, hx⟩ : ∃ x, l.getLast? = some x := by
      cases hc : l.getLast? with
      | some x => exact ⟨x, rfl⟩
      | none => exact absurd (List.getLast?_eq_none_iff.mp hc) hl.ne_nil
    have hbytes : (ofNames (rest ++ [l])).bytes = (rest ++ [l]).flatMap (slash :: ·) := by
      cases rest <;> rfl
    have hlast : (ofNames (rest ++ [l])).bytes.getLast? = some x := by
      rw [hbytes, List.flatMap_append, List.flatMap_singleton, List.getLast?_append,
        List.getLast?_cons, hx]
      rfl
    have hne : x ≠ slash := fun he => hl.plain (he ▸ List.mem_of_getLast? hx)
    have hcond : ((ofNames (rest ++ [l])).bytes.isEmpty ||
        (ofNames (rest ++ [l])).bytes.getLast? == some slash) = false := by
      simp [hlast, hne, bytes_ofNames_ne_nil]
    rw [hcond, if_neg (by decide), hbytes]
    have hof : ofNames (rest ++ [l] ++ [b]) = ⟨(rest ++ [l] ++ [b]).flatMap (slash :: ·)⟩ := by
      cases rest <;> rfl
    rw [hof]
    simp

/-- The components of a path of names spell it. -/
theorem ofComponents_names (h : ∀ b ∈ names, IsName b) :
    ofComponents (.root :: names.map .name) = ofNames names := by
  have hfold : ∀ (done left : List (List UInt8)), (∀ b ∈ done ++ left, IsName b) →
      (left.map Component.name).foldl (fun p c => p.join ⟨c.bytes⟩) (ofNames done) =
        ofNames (done ++ left) := by
    intro done left
    induction left generalizing done with
    | nil => simp
    | cons b left ih =>
      intro h
      rw [List.map_cons, List.foldl_cons, Component.bytes,
        join_name (fun x hx => h x (by simp [hx])) (h b (by simp)),
        ih (done ++ [b]) (by simpa using h), List.append_assoc, List.singleton_append]
  exact hfold [] names h

/-- **The parent drops the last name.** The root has none. -/
theorem parent?_ofNames (h : ∀ b ∈ names, IsName b) :
    (ofNames names).parent? = if names = [] then none else some (ofNames names.dropLast) := by
  unfold parent?
  rw [components_ofNames h]
  rcases List.eq_nil_or_concat' names with rfl | ⟨rest, l, rfl⟩
  · rfl
  · have hrest : ∀ b ∈ rest, IsName b := fun b hb => h b (by simp [hb])
    have hdrop : (Component.root :: (rest ++ [l]).map .name).dropLast =
        .root :: rest.map .name := by
      rw [List.map_append, ← List.cons_append]
      exact List.dropLast_concat
    have hlast : (Component.root :: (rest ++ [l]).map .name).getLast? = some (.name l) := by
      rw [List.map_append, ← List.cons_append]
      exact List.getLast?_concat
    rw [hlast, hdrop, ofComponents_names hrest]
    simp

theorem pop_ofNames (h : ∀ b ∈ names, IsName b) : (ofNames names).pop = ofNames names.dropLast := by
  rw [pop, parent?_ofNames h]
  split
  · next hn => rw [hn]; rfl
  · rfl

theorem foldl_resolve {cs : List Component} (h : ∀ b ∈ names, IsName b)
    (hcs : ∀ c ∈ cs, c = .parent ∨ ∃ b, IsName b ∧ c = .name b) :
    ∃ left, (∀ b ∈ left, IsName b) ∧ cs.foldl resolve (ofNames names) = ofNames left := by
  induction cs generalizing names with
  | nil => exact ⟨names, h, rfl⟩
  | cons c cs ih =>
    have hcs' := fun c hc => hcs c (List.mem_cons_of_mem _ hc)
    rcases hcs c List.mem_cons_self with rfl | ⟨b, hb, rfl⟩
    · rw [List.foldl_cons, resolve, pop_ofNames h]
      exact ih (fun b hb => h b (List.dropLast_subset _ hb)) hcs'
    · rw [List.foldl_cons]
      have hjoin : resolve (ofNames names) (.name b) = ofNames (names ++ [b]) := join_name h hb
      rw [hjoin]
      refine ih (fun x hx => ?_) hcs'
      rcases List.mem_append.mp hx with hx | hx
      · exact h x hx
      · rw [List.mem_singleton.mp hx]
        exact hb

/-- **An absolute path is a path of names** when it is normalized. -/
theorem exists_names_normalize (h : p.isAbsolute = true) :
    ∃ names, (∀ b ∈ names, IsName b) ∧ p.normalize = ofNames names := by
  obtain ⟨cs, hp, hcs⟩ := components_of_isAbsolute h
  rw [normalize, hp, List.foldl_cons]
  exact @foldl_resolve [] cs (by simp) hcs

/-- **A path of names is normal.** -/
theorem normalize_ofNames (h : ∀ b ∈ names, IsName b) :
    (ofNames names).normalize = ofNames names := by
  have hresolve : ∀ (cs : List Component), (∀ c ∈ cs, ∃ b, c = .name b) → ∀ q : Path,
      cs.foldl resolve q = cs.foldl (fun p c => p.join ⟨c.bytes⟩) q := by
    intro cs
    induction cs with
    | nil => exact fun _ _ => rfl
    | cons c cs ih =>
      intro hcs q
      obtain ⟨b, rfl⟩ := hcs c List.mem_cons_self
      exact ih (fun c hc => hcs c (List.mem_cons_of_mem _ hc)) _
  rw [normalize, components_ofNames h, List.foldl_cons, hresolve _ (by simp)]
  exact ofComponents_names h

/-- **A path that is not empty is a path of names** as seen from an absolute directory. -/
theorem exists_names_absolute (hd : directory.isAbsolute = true) (hp : p.bytes ≠ []) :
    ∃ names, (∀ b ∈ names, IsName b) ∧ p.absolute directory = ofNames names := by
  have hne : p.bytes.isEmpty = false := by simpa using hp
  rw [absolute, hne, if_neg (by decide)]
  apply exists_names_normalize
  unfold join
  split
  · assumption
  · obtain ⟨x, rest, hx⟩ : ∃ x rest, directory.bytes = x :: rest := by
      cases hb : directory.bytes with
      | nil => simp [isAbsolute, hb] at hd
      | cons x rest => exact ⟨x, rest, rfl⟩
    rw [isAbsolute, hx] at hd
    split <;> simpa [isAbsolute, hx] using hd

theorem absolute_ofNames (h : ∀ b ∈ names, IsName b) :
    (ofNames names).absolute directory = ofNames names := by
  have hne : (ofNames names).bytes.isEmpty = false := by
    simpa using @bytes_ofNames_ne_nil names
  rw [absolute, hne, if_neg (by decide), join, isAbsolute_ofNames, if_pos rfl, normalize_ofNames h]

/-- **The directories above a path** have the beginnings of its names. -/
theorem exists_take_of_mem_ancestors (h : ∀ b ∈ names, IsName b) {d : Path}
    (hd : d ∈ (ofNames names).ancestors) : ∃ n, d = ofNames (names.take n) := by
  unfold ancestors at hd
  obtain ⟨n, -, hn⟩ := List.mem_filterMap.mp hd
  rw [components_ofNames h, isAbsolute_ofNames] at hn
  split at hn
  · cases hn
  · next hzero =>
    split at hn
    · exact ⟨names.length, by rw [List.take_length]; exact (Option.some.inj hn).symm⟩
    · obtain ⟨k, rfl⟩ : ∃ k, n = k + 1 := Nat.exists_eq_succ_of_ne_zero fun hc => hzero ⟨hc, rfl⟩
      refine ⟨k, ?_⟩
      rw [List.take_succ_cons, ← List.map_take,
        ofComponents_names fun b hb => h b (List.mem_of_mem_take hb)] at hn
      exact (Option.some.inj hn).symm

end Path

/-! ### The root of a document -/

namespace Workspace

open LanguageHub.Path

variable {names : List (List UInt8)}

theorem startOf_ofNames (h : ∀ b ∈ names, IsName b) (directory : Path) :
    startOf directory (ofNames names) = ofNames names.dropLast := by
  have hpop := pop_ofNames h
  rwa [pop, ← @absolute_ofNames directory names h] at hpop

/-- **The root of a document has a beginning of its names.** -/
theorem exists_findRoot_eq (h : ∀ b ∈ names, IsName b) (m : RootMarkers) (files : FileTree)
    (directory : Path) :
    ∃ n, findRoot m files directory (ofNames names) = ofNames (names.take n) := by
  rw [findRoot, markedRoot?, startOf_ofNames h]
  cases hf : (ofNames names.dropLast).ancestors.find? (m.marks files) with
  | none => exact ⟨names.length - 1, by rw [Option.getD_none, List.dropLast_eq_take]⟩
  | some d =>
    obtain ⟨n, rfl⟩ := exists_take_of_mem_ancestors
      (fun b hb => h b (List.dropLast_subset _ hb)) (List.mem_of_find?_eq_some hf)
    refine ⟨min n (names.length - 1), ?_⟩
    rw [Option.getD_some, List.dropLast_eq_take, List.take_take]

end Workspace

end LanguageHub
