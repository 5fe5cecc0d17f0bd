import LanguageHub.Proofs.Path.Identity

/-!
# Discovery of workspace roots

The search for a root looks at the directories above a document one after the other, nearest first,
and stops at the first one with a marker. Nearest first means **longest first**: the directories
above a path are the beginnings of its parent, in falling order (`Path.pairwise_ancestors`), and
there are no others (`Path.mem_ancestors`). So what the search stops at is the longest marked
directory above the document (`Workspace.rootBy_spec`), and two documents have one root whenever
nothing between the second of them and the root of the first is marked.

All that the search learns about the file system is what each directory lists, or why it cannot be
listed. `Workspace.rootBy` is the search for any such answers, also those that no tree of files
gives, as a directory without permission to read it.
-/

namespace LanguageHub

open LanguageHub.Path

/-- What each directory lists, or why it lists nothing. -/
abbrev Listing := Path → Except FileError (List FileName)

namespace RootMarkers

/-- **A marked directory** can be listed, and one of its entries has a name that matches. -/
def Marks (m : RootMarkers) (list : Listing) (d : Path) : Prop :=
  ∃ found, list d = .ok found ∧ ∃ name ∈ found, ∃ glob ∈ m.globs, glob.isMatch name = true

/-- Whether a directory is marked, as the search finds out. -/
def marksBy (m : RootMarkers) (list : Listing) (d : Path) : Bool :=
  match list d with
  | .ok names => names.any m.isMarker
  | .error _ => false

theorem marksBy_iff {m : RootMarkers} {list : Listing} {d : Path} :
    m.marksBy list d = true ↔ m.Marks list d := by
  unfold marksBy Marks
  cases list d with
  | ok names => simp [isMarker]
  | error e => simp

end RootMarkers

namespace Path

/-- **A directory above a path**: its parent, or one above its parent. The parent of the root is
the root itself. -/
structure Above (d p : Path) : Prop where
  isNormal : d.IsNormal
  isPrefix : d.components <+: p.pop.components

variable {p d : Path} {names : List (List UInt8)}

/-! ### The directories above a path -/

/-- The directories above a path of names, and the path itself, are the beginnings of its names. -/
theorem ancestors_ofNames (h : ∀ b ∈ names, IsName b) :
    (ofNames names).ancestors =
      (List.range (names.length + 1)).reverse.map fun n => ofNames (names.take n) := by
  rw [ancestors, components_ofNames h, isAbsolute_ofNames, List.length_cons, List.length_map,
    List.range_succ_eq_map, List.reverse_cons, List.filterMap_append, ← List.map_reverse,
    List.filterMap_map]
  -- the root is no directory above nothing
  rw [List.filterMap_cons_none (by rw [if_pos ⟨rfl, rfl⟩]), List.filterMap_nil, List.append_nil]
  refine (List.filterMap_congr fun n hn => ?_).trans (congrFun List.filterMap_eq_map _)
  rw [List.mem_reverse, List.mem_range] at hn
  rw [Function.comp_apply, if_neg fun hc => Nat.succ_ne_zero n hc.1]
  split
  · next hlast =>
    rw [Function.comp_apply, List.take_of_length_le (Nat.succ.inj hlast).ge]
  · rw [List.take_succ_cons, ← List.map_take,
      ofComponents_names fun b hb => h b (List.mem_of_mem_take hb)]
    rfl

/-- **They come with the longest first.** -/
theorem pairwise_ancestors (h : ∀ b ∈ names, IsName b) :
    (ofNames names).ancestors.Pairwise fun a b => b.components <+: a.components := by
  rw [ancestors_ofNames h, List.pairwise_map, List.pairwise_reverse]
  refine List.pairwise_lt_range.imp fun {n k} hnk => ?_
  rw [components_ofNames fun b hb => h b (List.mem_of_mem_take hb),
    components_ofNames fun b hb => h b (List.mem_of_mem_take hb), List.cons_prefix_cons]
  exact ⟨rfl, (List.take_prefix_take_left hnk.le).map _⟩

/-- **They are the normal paths that are beginnings of it.** -/
theorem mem_ancestors (h : ∀ b ∈ names, IsName b) :
    d ∈ (ofNames names).ancestors ↔ d.IsNormal ∧ d.components <+: (ofNames names).components := by
  constructor
  · intro hd
    obtain ⟨n, rfl⟩ := exists_take_of_mem_ancestors h hd
    have htake : ∀ b ∈ names.take n, IsName b := fun b hb => h b (List.mem_of_mem_take hb)
    refine ⟨isNormal_ofNames htake, ?_⟩
    rw [components_ofNames htake, components_ofNames h, List.cons_prefix_cons]
    exact ⟨rfl, (List.take_prefix _ _).map _⟩
  · rintro ⟨hd, hprefix⟩
    obtain ⟨names', hnames', rfl⟩ := hd.exists_names
    rw [components_ofNames hnames', components_ofNames h, List.cons_prefix_cons] at hprefix
    have htake : names' = names.take names'.length := by
      have hmap := List.prefix_iff_eq_take.mp hprefix.2
      rw [List.length_map, ← List.map_take] at hmap
      exact (List.map_injective_iff.mpr fun _ _ => Component.name.inj) hmap
    rw [ancestors_ofNames h]
    refine List.mem_map.mpr ⟨names'.length, ?_, congrArg ofNames htake.symm⟩
    have hle := hprefix.2.length_le
    rw [List.length_map, List.length_map] at hle
    rw [List.mem_reverse, List.mem_range]
    exact Nat.lt_succ_of_le hle

/-- The directories above a path are its parent and what is above that. -/
theorem above_iff (hp : p.IsNormal) : d.Above p ↔ d ∈ p.pop.ancestors := by
  obtain ⟨names, hnames, rfl⟩ := hp.exists_names
  have hdrop : ∀ b ∈ names.dropLast, IsName b := fun b hb => hnames b (List.dropLast_subset _ hb)
  constructor
  · rintro ⟨hd, hprefix⟩
    rw [pop_ofNames hnames] at hprefix ⊢
    exact (mem_ancestors hdrop).mpr ⟨hd, hprefix⟩
  · intro hd
    rw [pop_ofNames hnames, mem_ancestors hdrop] at hd
    exact ⟨hd.1, by rw [pop_ofNames hnames]; exact hd.2⟩

theorem prefix_components_pop (h : ∀ b ∈ names, IsName b) :
    (ofNames names).pop.components <+: (ofNames names).components := by
  have hdrop : ∀ b ∈ names.dropLast, IsName b := fun b hb => h b (List.dropLast_subset _ hb)
  rw [pop_ofNames h, components_ofNames hdrop, components_ofNames h, List.cons_prefix_cons]
  exact ⟨rfl, (List.dropLast_prefix _).map _⟩

end Path

namespace Workspace

variable {m : RootMarkers} {list : Listing} {directory document : Path}

/-- **The search for a root**, whatever the directories list. -/
def rootBy (m : RootMarkers) (list : Listing) (directory document : Path) : Path :=
  ((startOf directory document).ancestors.find? (m.marksBy list)).getD
    (startOf directory document)

/-- The root of a document is what the search finds with the listings of the files. -/
theorem findRoot_eq_rootBy (m : RootMarkers) (files : FileTree) :
    findRoot m files = rootBy m files.list := rfl

theorem startOf_eq_pop (directory document : Path) :
    startOf directory document = (document.absolute directory).pop := rfl

/-- **What the search finds**: the longest marked directory above the document, or the parent of the
document where no directory above it is marked. -/
theorem rootBy_spec (m : RootMarkers) (list : Listing) (hd : directory.isAbsolute = true)
    (hp : document.bytes ≠ []) :
    (rootBy m list directory document).Above (document.absolute directory) ∧
      ((m.Marks list (rootBy m list directory document) ∧
          ∀ d : Path, d.Above (document.absolute directory) → m.Marks list d →
            d.components <+: (rootBy m list directory document).components) ∨
        ((∀ d : Path, d.Above (document.absolute directory) → ¬ m.Marks list d) ∧
          rootBy m list directory document = (document.absolute directory).pop)) := by
  obtain ⟨names, hnames, habs⟩ := exists_names_absolute hd hp
  have hdrop : ∀ b ∈ names.dropLast, IsName b := fun b hb => hnames b (List.dropLast_subset _ hb)
  have hnormal : (ofNames names).IsNormal := isNormal_ofNames hnames
  have hpop : (ofNames names).pop = ofNames names.dropLast := pop_ofNames hnames
  rw [rootBy, startOf_eq_pop, habs]
  cases hf : (ofNames names).pop.ancestors.find? (m.marksBy list) with
  | none =>
    rw [List.find?_eq_none] at hf
    rw [Option.getD_none]
    have habove : (ofNames names).pop.Above (ofNames names) :=
      ⟨by rw [hpop]; exact isNormal_ofNames hdrop, List.prefix_refl _⟩
    refine ⟨habove, .inr ⟨fun d hd hmarks => ?_, rfl⟩⟩
    exact hf d ((above_iff hnormal).mp hd) (RootMarkers.marksBy_iff.mpr hmarks)
  | some r =>
    rw [Option.getD_some]
    refine ⟨(above_iff hnormal).mpr (List.mem_of_find?_eq_some hf),
      .inl ⟨RootMarkers.marksBy_iff.mp (List.find?_some hf), fun d hd hmarks => ?_⟩⟩
    -- what comes before the root is not marked, and what comes after it is shorter
    obtain ⟨-, before, after, hsplit, hbefore⟩ := List.find?_eq_some_iff_append.mp hf
    have hpair := pairwise_ancestors hdrop
    have hmem := (above_iff hnormal).mp hd
    rw [← hpop, hsplit] at hpair
    rw [hsplit] at hmem
    rcases List.mem_append.mp hmem with hmem | hmem
    · have hnot := hbefore d hmem
      rw [RootMarkers.marksBy_iff.mpr hmarks] at hnot
      cases hnot
    · rcases List.mem_cons.mp hmem with rfl | hmem
      · exact List.prefix_refl _
      · exact (List.pairwise_cons.mp (List.pairwise_append.mp hpair).2.1).1 d hmem

/-- A document is contained in every directory above it. -/
theorem within_of_above {d : Path} (hd : directory.isAbsolute = true) (hp : document.bytes ≠ [])
    (h : d.Above (document.absolute directory)) :
    (document.absolute directory).within d = true := by
  obtain ⟨names, hnames, habs⟩ := exists_names_absolute hd hp
  rw [habs] at h ⊢
  obtain ⟨rest, hrest⟩ := h.isPrefix.trans (prefix_components_pop hnames)
  rw [within, ← hrest]
  exact startsWithFolded_append _ _

/-- **A marked directory above a document is its root** when no longer one is marked. -/
theorem rootBy_eq_of_above {r : Path} (hd : directory.isAbsolute = true)
    (hp : document.bytes ≠ []) (hr : r.Above (document.absolute directory))
    (hmarks : m.Marks list r)
    (hbetween : ∀ d : Path, d.Above (document.absolute directory) →
      r.components <+: d.components → d ≠ r → ¬ m.Marks list d) :
    rootBy m list directory document = r := by
  obtain ⟨habove, hspec⟩ := rootBy_spec m list hd hp
  rcases hspec with ⟨hfound, hlongest⟩ | ⟨hnone, -⟩
  · by_contra hne
    exact hbetween _ habove (hlongest r hr hmarks) hne hfound
  · exact absurd hmarks (hnone r hr)

/-- **The root of a document** is the longest directory above it that can be listed and has an entry
whose name matches a marker, or the document's own directory where there is none. It contains the
document. And it is the root of every other document below it between which and it no directory is
marked, so that both documents have one session for a language. -/
theorem findRoot_is_longest (m : RootMarkers) (list : Listing) (directory document : Path)
    (hd : directory.isAbsolute = true) (hp : document.bytes ≠ []) :
    (∀ files : FileTree,
      findRoot m files directory document = rootBy m files.list directory document) ∧
    (rootBy m list directory document).Above (document.absolute directory) ∧
    ((m.Marks list (rootBy m list directory document) ∧
        ∀ d : Path, d.Above (document.absolute directory) → m.Marks list d →
          d.components <+: (rootBy m list directory document).components) ∨
      ((∀ d : Path, d.Above (document.absolute directory) → ¬ m.Marks list d) ∧
        rootBy m list directory document = (document.absolute directory).pop)) ∧
    (document.absolute directory).within (rootBy m list directory document) = true ∧
    (m.Marks list (rootBy m list directory document) →
      ∀ directory' document' : Path, directory'.isAbsolute = true → document'.bytes ≠ [] →
        (rootBy m list directory document).Above (document'.absolute directory') →
        (∀ d : Path, d.Above (document'.absolute directory') →
          (rootBy m list directory document).components <+: d.components →
          d ≠ rootBy m list directory document → ¬ m.Marks list d) →
        rootBy m list directory' document' = rootBy m list directory document ∧
        ∀ language : String, (SessionKey.mk (rootBy m list directory' document') language).same
          ⟨rootBy m list directory document, language⟩ = true) := by
  obtain ⟨habove, hspec⟩ := rootBy_spec m list hd hp
  refine ⟨fun files => by rw [findRoot_eq_rootBy], habove, hspec, within_of_above hd hp habove,
    fun hmarks directory' document' hd' hp' hr hbetween => ?_⟩
  have heq := rootBy_eq_of_above hd' hp' hr hmarks hbetween
  exact ⟨heq, fun language => by rw [heq, SessionKey.same_refl]⟩

/-- A solution marks the directory that the path of the first document leads back to. The second
document lies deeper: its own directory cannot be listed, and the one above has no marker. -/
theorem findRoot_is_longest_solution :
    let m : RootMarkers := (RootMarkers.ofPatterns ["*.sln"]).toOption.getD ⟨[]⟩
    let list : Listing := fun d =>
      if d = .ofString "/ws" then .ok [(Path.ofString "App.sln").bytes, (Path.ofString "src").bytes]
      else if d = .ofString "/ws/src" then .ok [(Path.ofString "a.cs").bytes]
      else .error .permissionDenied
    (Path.ofString "/").isAbsolute = true ∧
      rootBy m list (.ofString "/") (.ofString "ws/src/../a.cs") = .ofString "/ws" ∧
      rootBy m list (.ofString "/") (.ofString "/ws/src/deep/b.cs") = .ofString "/ws" := by
  intro m list
  have hfirst : rootBy m list (.ofString "/") (.ofString "ws/src/../a.cs") = .ofString "/ws" := by
    decide +kernel
  have hall := findRoot_is_longest m list (.ofString "/") (.ofString "ws/src/../a.cs")
    (by decide +kernel) (by decide +kernel)
  rw [hfirst] at hall
  refine ⟨by decide +kernel, hfirst, (hall.2.2.2.2 (RootMarkers.marksBy_iff.mp (by decide +kernel))
    (.ofString "/") (.ofString "/ws/src/deep/b.cs") (by decide +kernel) (by decide +kernel)
    ⟨⟨by decide +kernel, by decide +kernel⟩, by decide +kernel⟩ fun d hd hlonger hne => ?_).1⟩
  -- what there is between the two is unmarked
  have hbetween : ∀ d ∈ ((Path.ofString "/ws/src/deep/b.cs").absolute (.ofString "/")).pop.ancestors,
      (Path.ofString "/ws").components <+: d.components → d ≠ .ofString "/ws" →
      m.marksBy list d = false := by
    decide +kernel
  have hmem := (above_iff ⟨by decide +kernel, by decide +kernel⟩).mp hd
  rw [← RootMarkers.marksBy_iff, hbetween d hmem hlonger hne]
  exact Bool.false_ne_true

end Workspace

end LanguageHub
