import LanguageHub.Proofs.Path.Ways

/-!
# Where changes to files are confined

`FileTree.Confined t t' roots ways` says that two trees are the same outside of some places and what
is below them, but for directories that were made on some ways. Writing a file is confined to its
place, removing a directory to its place and what is below, and making directories to the way of the
path: **nothing is made but directories where nothing was**, and what is made includes those
that the path steps out of again.
-/

namespace LanguageHub

/-- The path of an entry in its archive. -/
def ArchiveEntry.path : ArchiveEntry → Path
  | .directory p | .file p _ _ => p

namespace FileTree

variable {t t' t'' : FileTree} {p q : Place} {path : Path} {n : FileNode}
  {roots roots' ways ways' : List Place} {content : List UInt8}

/-- **Changes are confined** to some places and what is below them, but for directories that are
made on some ways. -/
def Confined (t t' : FileTree) (roots ways : List Place) : Prop :=
  ∀ q, (∀ g ∈ roots, ¬ g <+: q) → t'.at? q = t.at? q ∨
    (q ∈ ways ∧ t.at? q = none ∧ t'.at? q = some .directory)

namespace Confined

theorem refl (t : FileTree) (roots ways : List Place) : t.Confined t roots ways :=
  fun _ _ => .inl rfl

theorem mono (h : t.Confined t' roots ways) (hr : roots ⊆ roots') (hw : ways ⊆ ways') :
    t.Confined t' roots' ways' := by
  intro q hq
  exact (h q fun g hg => hq g (hr hg)).imp id (And.imp_left (@hw q))

theorem trans (h : t.Confined t' roots ways) (h' : t'.Confined t'' roots ways) :
    t.Confined t'' roots ways := by
  intro q hq
  rcases h q hq with heq | ⟨hmem, hnone, hdir⟩
  · rw [← heq]
    exact h' q hq
  · rcases h' q hq with heq' | ⟨-, hnone', -⟩
    · exact .inr ⟨hmem, hnone, heq'.trans hdir⟩
    · rw [hdir] at hnone'
      cases hnone'

/-- What is put at a place changes nothing else. -/
theorem put (hp : p ∈ roots) : t.Confined (t.put p n) roots ways := by
  intro q hq
  left
  rcases eq_or_ne q [] with rfl | hne
  · rfl
  · rw [at?_put t p n hne, if_neg]
    rintro rfl
    exact hq q hp (List.prefix_refl q)

theorem prune (hp : p ∈ roots) : t.Confined (t.prune p) roots ways :=
  fun _ hq => .inl (at?_prune t (hq p hp))

/-- **A change that is undone is none**: there was nothing at a place and below it, and there is
nothing now. -/
theorem of_nothing (h : t.Confined t' (p :: roots) ways) (hbefore : ∀ q, p <+: q → t.at? q = none)
    (hafter : ∀ q, p <+: q → t'.at? q = none) : t.Confined t' roots ways := by
  intro q hq
  by_cases hp : p <+: q
  · exact .inl ((hafter q hp).trans (hbefore q hp).symm)
  · refine h q fun g hg => ?_
    rcases List.mem_cons.mp hg with rfl | hg
    · exact hp
    · exact hq g hg

end Confined

/-- Nothing is at a place that was pruned, or below it. -/
theorem at?_prune_of_prefix (t : FileTree) (hp : p ≠ []) (h : p <+: q) :
    (t.prune p).at? q = none := by
  have hq : q ≠ [] := by
    rintro rfl
    exact hp (List.prefix_nil.mp h)
  rw [at?_of_ne_nil _ hq, Option.map_eq_none_iff, List.find?_eq_none]
  intro e he
  obtain ⟨-, hout⟩ := List.mem_filter.mp he
  rw [beq_iff_eq]
  rintro rfl
  rw [List.isPrefixOf_iff_prefix.mpr h] at hout
  cases hout

/-! ### Making directories -/

theorem confined_of_makeDirectory (h : t.makeDirectory path = .ok t') :
    t.Confined t' [] path.passes := by
  unfold makeDirectory at h
  split at h
  · cases h
  · obtain ⟨p, hp, h⟩ := bind_eq_ok.mp h
    split at h
    · cases h
    · next hnone =>
      cases h
      rw [Option.not_isSome_iff_eq_none] at hnone
      intro q _
      rcases eq_or_ne q [] with rfl | hne
      · exact .inl rfl
      · rw [at?_put t p _ hne]
        split
        · next heq =>
          subst heq
          exact .inr ⟨locate_eq_ok hp ▸ path.place_mem_passes, hnone, rfl⟩
        · exact .inl rfl

/-- **Making directories makes them on the way of the path**, where nothing was. -/
theorem confined_of_makeDirectoriesFrom {fuel : Nat} (hp : path.isAbsolute = true)
    (h : t.makeDirectoriesFrom fuel path = .ok t') : t.Confined t' [] path.passes := by
  induction fuel generalizing t t' path with
  | zero =>
    cases h
    exact .refl t _ _
  | succ fuel ih =>
    rw [makeDirectoriesFrom] at h
    split at h
    · cases h
      exact .refl t _ _
    · split at h
      · next hmade =>
        cases h
        exact confined_of_makeDirectory hmade
      · split at h
        · next above habove =>
          obtain ⟨t₁, hmade, h⟩ := bind_eq_ok.mp h
          obtain ⟨habs, c, hc⟩ := Path.exists_components_of_parent? hp habove
          have hfirst := (ih habs hmade).mono (List.Subset.refl []) (Path.passes_subset hc)
          split at h
          · next hmade' =>
            cases h
            exact hfirst.trans (confined_of_makeDirectory hmade')
          · split at h <;> cases h
            exact hfirst
        · cases h
      · split at h <;> cases h
        exact .refl t _ _

theorem confined_of_makeDirectories (hp : path.isAbsolute = true)
    (h : t.makeDirectories path = .ok t') : t.Confined t' [] path.passes :=
  confined_of_makeDirectoriesFrom hp h

theorem isDirectory_iff : t.isDirectory path = true ↔ ∃ q, t.stat path = .ok (q, .directory) := by
  unfold isDirectory
  constructor
  · intro h
    split at h
    · next q hstat => exact ⟨q, hstat⟩
    · cases h
  · rintro ⟨q, hstat⟩
    rw [hstat]

theorem isFile_iff : t.isFile path = true ↔
    ∃ q content executable, t.stat path = .ok (q, .file content executable) := by
  unfold isFile
  constructor
  · intro h
    split at h
    · next q c x hstat => exact ⟨q, c, x, hstat⟩
    · cases h
  · rintro ⟨q, c, x, hstat⟩
    rw [hstat]

/-- A directory whose way avoids what is lost is still there. -/
theorem Keeps.isDirectory {gone : List Place} (keeps : t.Keeps t' gone)
    (h : t.isDirectory path = true) (avoids : ∀ g ∈ gone, path.Avoids g) :
    t'.isDirectory path = true := by
  obtain ⟨q, hstat⟩ := isDirectory_iff.mp h
  obtain ⟨hne, hq, hn, -⟩ := stat_eq_ok_iff.mp hstat
  have hmem : q ∈ path.passes := locate_eq_ok hq ▸ path.place_mem_passes
  obtain ⟨-, hdir⟩ := keeps q (by rw [hn]; rfl) fun g hg => avoids g hg q hmem
  rw [isDirectoryAt, isDirectoryAt, hn, beq_self_eq_true, beq_iff_eq] at hdir
  exact isDirectory_iff.mpr
    ⟨q, stat_eq_ok_iff.mpr ⟨hne, keeps.locate hq avoids, hdir, fun _ => rfl⟩⟩

/-- A file whose way avoids what is lost is still there. -/
theorem Keeps.isFile {gone : List Place} (keeps : t.Keeps t' gone)
    (h : t.isFile path = true) (avoids : ∀ g ∈ gone, path.Avoids g) : t'.isFile path = true := by
  obtain ⟨q, c, x, hstat⟩ := isFile_iff.mp h
  obtain ⟨hne, hq, hn, hasks⟩ := stat_eq_ok_iff.mp hstat
  have hmem : q ∈ path.passes := locate_eq_ok hq ▸ path.place_mem_passes
  obtain ⟨hsome, hdir⟩ := keeps q (by rw [hn]; rfl) fun g hg => avoids g hg q hmem
  obtain ⟨m, hm⟩ := Option.isSome_iff_exists.mp hsome
  rw [isDirectoryAt, isDirectoryAt, hm, hn] at hdir
  cases m with
  | directory => exact absurd hdir (by simp)
  | file c' x' =>
    exact isFile_iff.mpr ⟨q, c', x', stat_eq_ok_iff.mpr ⟨hne, keeps.locate hq avoids, hm,
      fun hslash => absurd (hasks hslash) (by simp)⟩⟩

theorem isDirectory_of_makeDirectory (h : t.makeDirectory path = .ok t') :
    t'.isDirectory path = true := by
  have keeps : t.Keeps t' [] := .of_makeDirectory h
  unfold makeDirectory at h
  split at h
  · cases h
  · next hempty =>
    obtain ⟨p, hp, h⟩ := bind_eq_ok.mp h
    split at h
    · cases h
    · next hnone =>
      cases h
      have hne : p ≠ [] := by
        rintro rfl
        exact hnone rfl
      refine isDirectory_iff.mpr ⟨p, stat_eq_ok_iff.mpr ⟨by simpa using hempty,
        keeps.locate hp (by simp), ?_, fun _ => rfl⟩⟩
      rw [at?_put t p _ hne, if_pos rfl]

/-- **A directory that was made is there.** -/
theorem isDirectory_of_makeDirectories (hp : path.bytes.isEmpty = false)
    (h : t.makeDirectories path = .ok t') : t'.isDirectory path = true := by
  unfold makeDirectories at h
  rw [makeDirectoriesFrom, hp, if_neg Bool.false_ne_true] at h
  split at h
  · next hmade =>
    cases h
    exact isDirectory_of_makeDirectory hmade
  · split at h
    · obtain ⟨t₁, -, h⟩ := bind_eq_ok.mp h
      split at h
      · next hmade =>
        cases h
        exact isDirectory_of_makeDirectory hmade
      · split at h <;> cases h
        assumption
    · cases h
  · split at h <;> cases h
    assumption

/-! ### Files -/

/-- **Writing a file** changes what is at its place. -/
theorem confined_of_write (h : t.write path content = .ok t') :
    t.Confined t' [path.place] [] := by
  unfold write at h
  dsimp only at h
  split at h
  · cases h
  · obtain ⟨p, hp, h⟩ := bind_eq_ok.mp h
    have hmem : p ∈ [path.place] := List.mem_singleton.mpr (locate_eq_ok hp)
    split at h
    · cases h
    · split at h <;> cases h
      exact .put hmem
    · split at h <;> cases h
      exact .put hmem

/-- A file that was written is there. -/
theorem isFile_of_write (h : t.write path content = .ok t') : t'.isFile path = true := by
  have keeps : t.Keeps t' [] := .of_write h
  have there : ∀ {p : Place} {x : Bool}, t.locate path = .ok p → path.bytes.isEmpty = false →
      t.at? p ≠ some .directory → asksForDirectory path = false →
      t' = t.put p (.file content x) → t'.isFile path = true := by
    intro p x hp hempty hat hasks heq
    have hne : p ≠ [] := by
      rintro rfl
      exact hat rfl
    refine isFile_iff.mpr ⟨p, content, x, stat_eq_ok_iff.mpr ⟨hempty, keeps.locate hp (by simp),
      ?_, fun hslash => ?_⟩⟩
    · rw [heq, at?_put t p _ hne, if_pos rfl]
    · rw [hasks] at hslash
      cases hslash
  unfold write at h
  dsimp only at h
  split at h
  · cases h
  · next hempty =>
    have hempty : path.bytes.isEmpty = false := by simpa using hempty
    obtain ⟨p, hp, h⟩ := bind_eq_ok.mp h
    split at h
    · cases h
    · next hfile =>
      split at h <;> cases h
      next hasks => exact there hp hempty (by rw [hfile]; simp) (by simpa using hasks) rfl
    · next hnone =>
      split at h <;> cases h
      next hasks => exact there hp hempty (by rw [hnone]; simp) (by simpa using hasks) rfl

/-- **Marking a program** changes whether it can be run, and nothing else. -/
theorem at?_allowRunning (t : FileTree) (path : Path) (q : Place) :
    (t.allowRunning path).at? q = t.at? q ∨ (q = path.place ∧ ∃ content executable,
      t.at? q = some (.file content executable) ∧
      (t.allowRunning path).at? q = some (.file content true)) := by
  unfold allowRunning
  split
  · next p c x hstat =>
    obtain ⟨-, hp, hfile, -⟩ := stat_eq_ok_iff.mp hstat
    rcases eq_or_ne q [] with rfl | hne
    · exact .inl rfl
    · rw [at?_put t p _ hne]
      split
      · next heq =>
        subst heq
        exact .inr ⟨locate_eq_ok hp, c, x, hfile, rfl⟩
      · exact .inl rfl
  · exact .inl rfl

theorem confined_of_allowRunning : t.Confined (t.allowRunning path) [path.place] [] := by
  intro q hq
  refine (at?_allowRunning t path q).imp id ?_
  rintro ⟨rfl, -⟩
  exact absurd (List.prefix_refl _) (hq _ (List.mem_singleton_self _))

/-- **Removing a directory** leaves nothing at its place and below it. -/
theorem of_removeDirectory (h : t.removeDirectory path = .ok t') :
    t' = t.prune path.place := by
  obtain ⟨⟨p, n⟩, hstat, h⟩ := bind_eq_ok.mp h
  obtain ⟨-, hp, -, -⟩ := stat_eq_ok_iff.mp hstat
  cases n with
  | file => cases h
  | directory =>
    cases h
    rw [locate_eq_ok hp]

theorem exists_removeDirectory (h : t.isDirectory path = true) :
    ∃ t', t.removeDirectory path = .ok t' := by
  obtain ⟨q, hstat⟩ := isDirectory_iff.mp h
  exact ⟨t.prune q, bind_eq_ok.mpr ⟨_, hstat, rfl⟩⟩

/-! ### Unpacking -/

/-- **Unpacking an entry** writes at its place, and makes directories on the way to it. -/
theorem confined_of_unpack {e : ArchiveEntry} (hp : (path.join e.path).isAbsolute = true)
    (h : t.unpack path e = .ok t') :
    t.Confined t' [(path.join e.path).place] (path.join e.path).passes := by
  cases e with
  | directory p =>
    exact (confined_of_makeDirectories hp h).mono (List.nil_subset _) (List.Subset.refl _)
  | file p content executable =>
    obtain ⟨t₁, hmade, h⟩ : ∃ t₁ : FileTree, t.Confined t₁ [] (path.join p).passes ∧ (do
        let t₂ ← t₁.write (path.join p) content
        return if executable then t₂.allowRunning (path.join p) else t₂) = .ok t' := by
      unfold unpack at h
      dsimp only at h
      split at h
      · next above hparent =>
        obtain ⟨t₁, habove, h⟩ := bind_eq_ok.mp h
        obtain ⟨habs, c, hc⟩ := Path.exists_components_of_parent? hp hparent
        exact ⟨t₁, (confined_of_makeDirectories habs habove).mono (List.Subset.refl _)
          (Path.passes_subset hc), h⟩
      · exact ⟨t, .refl _ _ _, h⟩
    obtain ⟨t₂, hwritten, h⟩ := bind_eq_ok.mp h
    have hwrite : t.Confined t₂ [(path.join p).place] (path.join p).passes :=
      (hmade.mono (List.nil_subset _) (List.Subset.refl _)).trans
        ((confined_of_write hwritten).mono (List.Subset.refl _) (List.nil_subset _))
    cases h
    split
    · exact hwrite.trans (confined_of_allowRunning.mono (List.Subset.refl _) (List.nil_subset _))
    · exact hwrite

/-- What a path passes is there if the path leads somewhere. -/
theorem isSome_of_mem_passes (h : t.locate path = .ok p) (hp : (t.at? p).isSome = true)
    (hq : q ∈ path.passes) : (t.at? q).isSome = true := by
  have hfold : ∀ {cs : List Path.Component} {r : Place}, cs.foldlM t.follow r = .ok p →
      q ∈ Path.passesFrom r cs → (t.at? q).isSome = true := by
    intro cs
    induction cs with
    | nil =>
      intro r hr hmem
      cases hr
      rw [List.mem_singleton.mp hmem]
      exact hp
    | cons c cs ih =>
      intro r hr hmem
      rw [List.foldlM_cons] at hr
      obtain ⟨r', hfollow, hr⟩ := bind_eq_ok.mp hr
      obtain ⟨hdir, rfl⟩ := follow_eq_ok hfollow
      rcases List.mem_cons.mp hmem with rfl | hmem
      · rw [isDirectoryAt, beq_iff_eq] at hdir
        rw [hdir]
        rfl
      · exact ih hr hmem
  unfold locate at h
  split at h
  · cases h
  · split at h
    · cases h
    · exact hfold h hq

/-- **An entry whose path goes down is unpacked below the directory.** -/
theorem confined_of_unpack_relative {e : ArchiveEntry} (hp : path.isAbsolute = true)
    (hrelative : e.path.isAbsolute = false) (hdown : .parent ∉ e.path.segments)
    (hthere : t.isDirectory path = true) (h : t.unpack path e = .ok t') :
    t.Confined t' [path.place] [] := by
  have habs : (path.join e.path).isAbsolute = true := by
    rw [Path.isAbsolute_join, hp, Bool.true_or]
  obtain ⟨names, hnames⟩ :=
    Path.exists_names_of_inner (fun c hc => Path.inner_of_mem_segments hc) hdown
  have hcomponents : (path.join e.path).components = path.components ++ names.map .name := by
    rw [Path.components_of_absolute habs, Path.components_of_absolute hp,
      Path.segments_join hrelative, hnames, List.cons_append]
  obtain ⟨p, hstat⟩ := isDirectory_iff.mp hthere
  obtain ⟨-, hlocate, hdir, -⟩ := stat_eq_ok_iff.mp hstat
  intro q hq
  have hbelow : ¬ path.place <+: q := hq _ (List.mem_singleton_self _)
  refine .inl ((confined_of_unpack habs h q ?_).resolve_right ?_)
  · rw [List.forall_mem_singleton, Path.place_append hcomponents, Path.foldl_leads_names]
    exact fun hpre => hbelow ((List.prefix_append _ _).trans hpre)
  · rintro ⟨hmem, hnone, -⟩
    rw [Path.passes, hcomponents] at hmem
    rcases Path.mem_passesFrom_names hmem with hmem | ⟨hpre, -⟩
    · have hsome := isSome_of_mem_passes hlocate (by rw [hdir]; rfl) hmem
      rw [hnone] at hsome
      cases hsome
    · exact hbelow hpre

end FileTree

end LanguageHub
