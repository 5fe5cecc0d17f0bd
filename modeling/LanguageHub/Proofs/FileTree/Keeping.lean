import LanguageHub.Installer.Basic
import Mathlib.Data.List.Infix

/-!
# What changes to files leave alone

A tree has no links, so where an absolute path leads, if it leads anywhere, can be read off the
path (`Path.place`), and so can the places on its way (`Path.passes`). Whether a path leads
somewhere depends on these places alone, and of each of them only on whether something is there
and whether that is a directory.

`FileTree.Keeps t t' gone` says that nothing of this is lost from one tree to the next, except at
some places and below them. Making directories, writing files and unpacking **lose nothing**; what
is removed is lost at one place and below it. A path whose way avoids the places that are lost
still leads somewhere (`FileTree.Keeps.pathExists`).
-/

namespace LanguageHub

namespace Path

/-- Where a step leads from a place. -/
def Component.leads (p : Place) : Component → Place
  | .root => []
  | .current => p
  | .parent => p.dropLast
  | .name n => p ++ [n]

/-- Where an absolute path leads, if it leads anywhere. -/
def place (p : Path) : Place := p.components.foldl (fun q c => c.leads q) []

/-- The places that some steps pass from a place on. -/
def passesFrom (p : Place) : List Component → List Place
  | [] => [p]
  | c :: rest => p :: passesFrom (c.leads p) rest

/-- The places on the way of an absolute path, with both ends. -/
def passes (p : Path) : List Place := passesFrom [] p.components

theorem foldl_leads_mem_passesFrom (p : Place) (cs : List Component) :
    cs.foldl (fun q c => c.leads q) p ∈ passesFrom p cs := by
  induction cs generalizing p with
  | nil => exact List.mem_singleton.mpr rfl
  | cons c cs ih => exact List.mem_cons_of_mem _ (ih _)

theorem place_mem_passes (p : Path) : p.place ∈ p.passes := foldl_leads_mem_passesFrom [] p.components

/-- The way of a path avoids a place and all that is below it. -/
def Avoids (p : Path) (q : Place) : Prop := ∀ r ∈ p.passes, ¬ q <+: r

instance (p : Path) (q : Place) : Decidable (p.Avoids q) :=
  inferInstanceAs (Decidable (∀ r ∈ p.passes, ¬ q <+: r))

end Path

namespace FileTree

variable {t t' t'' : FileTree} {p q : Place} {path : Path} {n : FileNode} {gone : List Place}

theorem bind_eq_ok {α β : Type} {x : Except FileError α} {f : α → Except FileError β} {b : β} :
    x >>= f = .ok b ↔ ∃ a, x = .ok a ∧ f a = .ok b := by
  cases x with
  | error e =>
    constructor
    · intro h
      cases h
    · rintro ⟨_, h, -⟩
      cases h
  | ok a =>
    constructor
    · exact fun h => ⟨a, rfl, h⟩
    · rintro ⟨_, h, h'⟩
      cases h
      exact h'

/-! ### What is kept -/

/-- **Nothing is lost except at some places and below them.** A file may get other content. -/
def Keeps (t t' : FileTree) (gone : List Place) : Prop :=
  ∀ p, (t.at? p).isSome → (∀ q ∈ gone, ¬ q <+: p) →
    (t'.at? p).isSome ∧ t'.isDirectoryAt p = t.isDirectoryAt p

theorem Keeps.refl (t : FileTree) (gone : List Place) : t.Keeps t gone := fun _ hp _ => ⟨hp, rfl⟩

theorem Keeps.trans (h : t.Keeps t' gone) (h' : t'.Keeps t'' gone) : t.Keeps t'' gone := by
  intro p hp hgone
  obtain ⟨hp', hdir⟩ := h p hp hgone
  obtain ⟨hp'', hdir'⟩ := h' p hp' hgone
  exact ⟨hp'', hdir'.trans hdir⟩

theorem at?_of_ne_nil (t : FileTree) (hp : p ≠ []) :
    t.at? p = (t.entries.find? (·.1 == p)).map (·.2) := by
  rw [at?, if_neg (by simpa using hp)]

theorem find?_replace (l : List (Place × FileNode)) (p q : Place) (n : FileNode) :
    (l.map fun e => if e.1 == p then (p, n) else e).find? (·.1 == q) =
      if q = p then (l.find? (·.1 == p)).map fun _ => (p, n) else l.find? (·.1 == q) := by
  induction l with
  | nil => simp
  | cons e l ih =>
    rw [List.map_cons, List.find?_cons, List.find?_cons, List.find?_cons, ih]
    rcases eq_or_ne q p with rfl | hq
    · cases he : e.1 == q <;> simp [he]
    · have hpq : (p == q) = false := by simpa using hq.symm
      by_cases he : e.1 = p
      · simp [he, hpq, hq]
      · simp [he, hq]

theorem at?_put (t : FileTree) (p : Place) (n : FileNode) (hq : q ≠ []) :
    (t.put p n).at? q = if q = p then some n else t.at? q := by
  rw [at?_of_ne_nil _ hq, at?_of_ne_nil _ hq, put]
  split
  · next hsome =>
    rw [find?_replace]
    split
    · next heq =>
      subst heq
      rw [at?_of_ne_nil _ hq, Option.isSome_map] at hsome
      obtain ⟨e, he⟩ := Option.isSome_iff_exists.mp hsome
      rw [he]
      rfl
    · rfl
  · next hnone =>
    rw [List.find?_append, List.find?_singleton]
    split
    · next heq =>
      obtain rfl : p = q := by simpa using heq
      rw [at?_of_ne_nil _ hq, Option.isSome_map, Option.not_isSome_iff_eq_none] at hnone
      simp [hnone]
    · next hne =>
      rw [Option.or_none, if_neg fun heq => hne (by simp [heq])]

/-- What is put at a place loses nothing if a directory stays a directory and a file a file. -/
theorem Keeps.put (hn : ∀ m, t.at? p = some m → (n == .directory) = (m == .directory)) :
    t.Keeps (t.put p n) gone := by
  intro q hq _
  rcases eq_or_ne q [] with rfl | hne
  · exact ⟨rfl, rfl⟩
  rw [isDirectoryAt, isDirectoryAt, at?_put t p n hne]
  split
  · next heq =>
    subst heq
    obtain ⟨m, hm⟩ := Option.isSome_iff_exists.mp hq
    rw [hm]
    exact ⟨rfl, by simpa using hn m hm⟩
  · exact ⟨hq, rfl⟩

theorem at?_prune (t : FileTree) (hq : ¬ p <+: q) : (t.prune p).at? q = t.at? q := by
  rcases eq_or_ne q [] with rfl | hne
  · rfl
  rw [at?_of_ne_nil _ hne, at?_of_ne_nil _ hne, prune, List.find?_filter]
  congr 2
  funext e
  by_cases he : e.1 = q
  · have hout : p.isPrefixOf q = false :=
      Bool.eq_false_iff.mpr fun h => hq (List.isPrefixOf_iff_prefix.mp h)
    simp [he, hout]
  · simp [he]

/-- What is removed is lost at one place and below it. -/
theorem Keeps.prune (hp : p ∈ gone) : t.Keeps (t.prune p) gone := by
  intro q hq hgone
  rw [isDirectoryAt, isDirectoryAt, at?_prune t (hgone p hp)]
  exact ⟨hq, rfl⟩

/-! ### Following a path -/

theorem follow_eq_ok {c : Path.Component} (h : t.follow p c = .ok q) :
    t.isDirectoryAt p = true ∧ q = c.leads p := by
  unfold follow at h
  split at h
  · cases h
  · cases h
  · next hdir =>
    refine ⟨by rw [isDirectoryAt, hdir]; rfl, ?_⟩
    split at h
    · cases h
      rfl
    · cases h
      rfl
    · cases h
      rfl
    · split at h <;> cases h
      rfl

theorem follow_congr (c : Path.Component) (h : t.isDirectoryAt p = true)
    (h' : t'.isDirectoryAt p = true) : t'.follow p c = t.follow p c := by
  rw [isDirectoryAt, beq_iff_eq] at h h'
  unfold follow
  rw [h, h']

theorem foldlM_follow_eq_ok {cs : List Path.Component} (h : cs.foldlM t.follow p = .ok q) :
    q = cs.foldl (fun p c => c.leads p) p := by
  induction cs generalizing p with
  | nil =>
    cases h
    rfl
  | cons c cs ih =>
    rw [List.foldlM_cons] at h
    obtain ⟨r, hc, h⟩ := bind_eq_ok.mp h
    obtain ⟨-, rfl⟩ := follow_eq_ok hc
    exact ih h

/-- **Where a path leads can be read off the path.** -/
theorem locate_eq_ok (h : t.locate path = .ok q) : q = path.place := by
  unfold locate at h
  split at h
  · cases h
  · split at h
    · cases h
    · exact foldlM_follow_eq_ok h

theorem Keeps.foldlM_follow (keeps : t.Keeps t' gone) {cs : List Path.Component}
    (h : cs.foldlM t.follow p = .ok q)
    (avoids : ∀ r ∈ Path.passesFrom p cs, ∀ g ∈ gone, ¬ g <+: r) :
    cs.foldlM t'.follow p = .ok q := by
  induction cs generalizing p with
  | nil => exact h
  | cons c cs ih =>
    rw [List.foldlM_cons] at h
    obtain ⟨r, hc, h⟩ := bind_eq_ok.mp h
    obtain ⟨hdir, rfl⟩ := follow_eq_ok hc
    have hp : (t.at? p).isSome := by
      rw [isDirectoryAt, beq_iff_eq] at hdir
      rw [hdir]
      rfl
    have hdir' := (keeps p hp (avoids p (List.mem_cons_self ..))).2
    rw [hdir] at hdir'
    rw [List.foldlM_cons, follow_congr c hdir hdir', hc]
    exact ih h fun r hr => avoids r (List.mem_cons_of_mem _ hr)

/-- A path whose way avoids what is lost still leads where it led. -/
theorem Keeps.locate (keeps : t.Keeps t' gone) (h : t.locate path = .ok q)
    (avoids : ∀ g ∈ gone, path.Avoids g) : t'.locate path = .ok q := by
  unfold FileTree.locate at h ⊢
  split at h
  · cases h
  · next hnul =>
    split at h
    · cases h
    · next hlong =>
      rw [if_neg hnul, if_neg hlong]
      exact keeps.foldlM_follow h fun r hr g hg => avoids g hg r hr

/-- What a path leads to. -/
theorem stat_eq_ok_iff : t.stat path = .ok (q, n) ↔ path.bytes.isEmpty = false ∧
    t.locate path = .ok q ∧ t.at? q = some n ∧
      (asksForDirectory path = true → n = .directory) := by
  unfold stat
  cases hne : path.bytes.isEmpty with
  | true => simp [throw, throwThe, MonadExceptOf.throw, bind, Except.bind]
  | false =>
    cases hr : t.locate path with
    | error e => simp [bind, Except.bind]
    | ok r =>
      simp only [bind, Except.bind, pure, Except.pure, throw, throwThe, MonadExceptOf.throw]
      rw [if_neg Bool.false_ne_true]
      constructor
      · intro h
        split at h
        · cases h
        · next hfile =>
          split at h <;> cases h
          next hslash => exact ⟨trivial, rfl, hfile, fun h => absurd h hslash⟩
        · next hdir =>
          cases h
          exact ⟨trivial, rfl, hdir, fun _ => rfl⟩
      · rintro ⟨-, hq, hn, hslash⟩
        cases hq
        rw [hn]
        cases n with
        | directory => rfl
        | file content executable => exact if_neg fun h => nomatch hslash h

theorem pathExists_iff : t.pathExists path = true ↔ ∃ q n, t.stat path = .ok (q, n) := by
  rw [pathExists]
  cases t.stat path with
  | error e => simp [Except.isOk, Except.toBool]
  | ok x => exact ⟨fun _ => ⟨x.1, x.2, rfl⟩, fun _ => rfl⟩

/-- **A path whose way avoids what is lost still leads somewhere.** -/
theorem Keeps.pathExists (keeps : t.Keeps t' gone) (h : t.pathExists path = true)
    (avoids : ∀ g ∈ gone, path.Avoids g) : t'.pathExists path = true := by
  obtain ⟨q, n, hstat⟩ := pathExists_iff.mp h
  obtain ⟨hne, hq, hn, hasks⟩ := stat_eq_ok_iff.mp hstat
  have hmem : q ∈ path.passes := locate_eq_ok hq ▸ path.place_mem_passes
  obtain ⟨hsome, hdir⟩ := keeps q (by rw [hn]; rfl) fun g hg => avoids g hg q hmem
  obtain ⟨m, hm⟩ := Option.isSome_iff_exists.mp hsome
  refine pathExists_iff.mpr ⟨q, m, stat_eq_ok_iff.mpr ⟨hne, keeps.locate hq avoids, hm, ?_⟩⟩
  intro hslash
  rw [isDirectoryAt, isDirectoryAt, hm, hn, hasks hslash] at hdir
  simpa using hdir

/-! ### What changes lose -/

theorem Keeps.of_makeDirectory (h : t.makeDirectory path = .ok t') : t.Keeps t' gone := by
  unfold makeDirectory at h
  split at h
  · cases h
  · obtain ⟨p, -, h⟩ := bind_eq_ok.mp h
    split at h
    · cases h
    · next hnone =>
      cases h
      rw [Option.not_isSome_iff_eq_none] at hnone
      exact .put fun m hm => by rw [hnone] at hm; cases hm

theorem Keeps.of_makeDirectoriesFrom {fuel : Nat} (h : t.makeDirectoriesFrom fuel path = .ok t') :
    t.Keeps t' gone := by
  induction fuel generalizing t t' path with
  | zero =>
    cases h
    exact .refl t gone
  | succ fuel ih =>
    rw [makeDirectoriesFrom] at h
    split at h
    · cases h
      exact .refl t gone
    · split at h
      · next hmade =>
        cases h
        exact .of_makeDirectory hmade
      · split at h
        · obtain ⟨t₁, habove, h⟩ := bind_eq_ok.mp h
          split at h
          · next hmade =>
            cases h
            exact (ih habove).trans (.of_makeDirectory hmade)
          · split at h <;> cases h
            exact ih habove
        · cases h
      · split at h <;> cases h
        exact .refl t gone

/-- **Making directories loses nothing.** -/
theorem Keeps.of_makeDirectories (h : t.makeDirectories path = .ok t') : t.Keeps t' gone :=
  .of_makeDirectoriesFrom h

/-- **Writing a file loses nothing.** -/
theorem Keeps.of_write {content : List UInt8} (h : t.write path content = .ok t') :
    t.Keeps t' gone := by
  unfold write at h
  dsimp only at h
  split at h
  · cases h
  · obtain ⟨p, -, h⟩ := bind_eq_ok.mp h
    split at h
    · cases h
    · next hfile =>
      split at h <;> cases h
      exact .put fun m hm => by rw [hfile] at hm; cases hm; rfl
    · next hnone =>
      split at h <;> cases h
      exact .put fun m hm => by rw [hnone] at hm; cases hm

theorem Keeps.allowRunning (t : FileTree) (path : Path) (gone : List Place) :
    t.Keeps (t.allowRunning path) gone := by
  unfold FileTree.allowRunning
  split
  · next hstat =>
    obtain ⟨-, -, hfile, -⟩ := stat_eq_ok_iff.mp hstat
    exact .put fun m hm => by rw [hfile] at hm; cases hm; rfl
  · exact .refl t gone

/-- **Unpacking loses nothing.** -/
theorem Keeps.of_unpack {e : ArchiveEntry} (h : t.unpack path e = .ok t') : t.Keeps t' gone := by
  unfold unpack at h
  cases e with
  | directory p => exact .of_makeDirectories h
  | file p content executable =>
    obtain ⟨t₁, habove, h⟩ : ∃ t₁ : FileTree, t.Keeps t₁ gone ∧ (do
        let t₂ ← t₁.write (path.join p) content
        return if executable then t₂.allowRunning (path.join p) else t₂) = .ok t' := by
      dsimp only at h
      split at h
      · obtain ⟨t₁, habove, h⟩ := bind_eq_ok.mp h
        exact ⟨t₁, .of_makeDirectories habove, h⟩
      · exact ⟨t, .refl t gone, h⟩
    obtain ⟨t₂, hwritten, h⟩ := bind_eq_ok.mp h
    cases h
    refine habove.trans ((Keeps.of_write hwritten).trans ?_)
    split
    · exact .allowRunning t₂ _ gone
    · exact .refl t₂ gone

/-- **What is removed is lost at the place of its path and below it.** -/
theorem Keeps.of_removeDirectory (h : t.removeDirectory path = .ok t') (hgone : path.place ∈ gone) :
    t.Keeps t' gone := by
  obtain ⟨⟨p, n⟩, hstat, h⟩ := bind_eq_ok.mp h
  obtain ⟨-, hp, -, -⟩ := stat_eq_ok_iff.mp hstat
  rw [← locate_eq_ok hp] at hgone
  cases n with
  | file => cases h
  | directory =>
    cases h
    exact .prune hgone

end FileTree

end LanguageHub
