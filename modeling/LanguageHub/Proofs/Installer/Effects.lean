import LanguageHub.Proofs.FileTree.Confinement
import LanguageHub.Proofs.Installer.Stability

/-!
# What an installation leaves

A call that is alone goes through its stages and comes to one end (`Ends`, `Ends.unique`), and what
it leaves is said for all ends at once (`Leaves`): what is reported is there; a failed download
leaves the version directory as it was, and an archive that is of no use leaves none; the temporary
file is gone; and **outside of the version directory, only directories on its way come into being**.

The proof goes from the last stage to the first. `Goes` says of a stage that a call which has come
so far ends well, and the lemma of each stage follows from those of the stages that may come next.
What they hand on is what has become of the files since the beginning: beside the temporary file,
there are the directories on the way of the one for servers while a download goes on
(`Downloads`), and those on the way of the version directory, with what is in it, from then on
(`Unpacks`).

What is assumed: the temporary file is a new one (`Fresh`), archives stay below the directory that
they are unpacked in (`StaysBelow`), and the calls of the operating system do not fail (`Smooth`).
Servers and versions have names of one component (`Named`); the path of the directory for servers
and that of the program may be any. So there are exceptions, and the module ends with a run for
each: making a path with double dots makes the directories that it steps out of again, and a program
outside of the version directory is made runnable where it is.
-/

namespace LanguageHub

namespace Installer

variable {i : Installer} {env : InstallEnvironment} {s s₀ s₁ s' s'' : InstallState}
  {st st' : InstallStage} {j : InstallJob} {n : Nat} {log : List LogEntry} {archive : Path}
  {r r' : Except InstallError Path} {language : String} {files files' : FileTree}

/-! ### The layout of the directory for servers -/

/-- A server whose name and version are names in a directory. -/
structure Named (s : Server) : Prop where
  name : Path.IsName (Path.ofString s.name).bytes
  version : Path.IsName (Path.ofString s.version).bytes

theorem isName_text (p : Platform) : Path.IsName (Path.ofString p.text).bytes := by
  obtain ⟨os, arch⟩ := p
  cases os <;> cases arch <;> exact ⟨by decide, by decide, by decide, by decide⟩

/-- The names that lead from the directory for servers to that of a version. -/
def versionNames (s : Server) (p : Platform) : List (List UInt8) :=
  [(Path.ofString s.name).bytes, (Path.ofString s.version).bytes, (Path.ofString p.text).bytes]

theorem versionDir_eq (i : Installer) {srv : Server} (hs : Named srv) (p : Platform) :
    (i.versionDir srv p).isAbsolute = i.baseDir.isAbsolute ∧
      (i.versionDir srv p).segments = i.baseDir.segments ++ (versionNames srv p).map .name := by
  have hname : (Path.ofString srv.name).isAbsolute = false := Path.isAbsolute_of_isName hs.name
  have hversion : (Path.ofString srv.version).isAbsolute = false :=
    Path.isAbsolute_of_isName hs.version
  have htext : (Path.ofString p.text).isAbsolute = false :=
    Path.isAbsolute_of_isName (isName_text p)
  constructor
  · rw [versionDir, Path.isAbsolute_join, Path.isAbsolute_join, Path.isAbsolute_join, hname,
      hversion, htext, Bool.or_false, Bool.or_false, Bool.or_false]
  · rw [versionDir, Path.segments_join htext, Path.segments_join hversion,
      Path.segments_join hname]
    have hsegments : ∀ {x : String}, Path.IsName (Path.ofString x).bytes →
        (Path.ofString x).segments = [.name (Path.ofString x).bytes] :=
      fun h => Path.segments_of_isName h
    rw [hsegments hs.name, hsegments hs.version, hsegments (isName_text p)]
    simp [versionNames]

/-- **The path of a version directory continues that of the directory for servers** by names. -/
theorem components_target (hd : i.host.directory.isAbsolute = true) {srv : Server}
    (hs : Named srv) (p : Platform) :
    (i.host.locate (i.versionDir srv p)).isAbsolute = true ∧
      (i.host.locate (i.versionDir srv p)).components =
        (i.host.directory.join i.baseDir).components ++ (versionNames srv p).map .name := by
  obtain ⟨habs, hseg⟩ := versionDir_eq i hs p
  have hne : (i.versionDir srv p).bytes.isEmpty = false := by
    rw [Bool.eq_false_iff]
    intro h
    rw [List.isEmpty_iff] at h
    have hnil : (i.versionDir srv p).segments = [] := by
      rw [Path.segments, h]
      rfl
    rw [hnil] at hseg
    simp [versionNames] at hseg
  rw [Host.locate, hne, if_neg Bool.false_ne_true]
  have hjoin : ∀ q, (i.host.directory.join q).isAbsolute = true := fun q => by
    rw [Path.isAbsolute_join, hd, Bool.true_or]
  refine ⟨hjoin _, ?_⟩
  rw [Path.components_of_absolute (hjoin _), Path.components_of_absolute (hjoin _),
    List.cons_append]
  congr 1
  cases hb : i.baseDir.isAbsolute with
  | true =>
    rw [Path.join, habs, hb, if_pos rfl, hseg, Path.join, hb, if_pos rfl]
  | false =>
    rw [Path.segments_join (habs.trans hb), Path.segments_join hb, hseg, List.append_assoc]

/-- **Where a version directory is.** -/
structure Placed (i : Installer) (j : InstallJob) : Prop where
  base : i.baseDir.bytes.isEmpty = true ∨ (i.host.locate i.baseDir).isAbsolute = true
  target : (i.host.locate j.target).isAbsolute = true
  /-- Its way begins with the way of the directory for servers. -/
  ways : (i.host.locate i.baseDir).passes ⊆ (i.host.locate j.target).passes
  /-- It is below that directory, whose way does not come to it unless by double dots. -/
  below : (i.host.locate j.target).Straight → ∀ q ∈ (i.host.locate i.baseDir).passes,
    ¬ (i.host.locate j.target).place <+: q

theorem Placed.bytes (h : Placed i j) : (i.host.locate j.target).bytes.isEmpty = false := by
  rw [Bool.eq_false_iff]
  intro hempty
  have habs := h.target
  rw [Path.isAbsolute, List.isEmpty_iff.mp hempty] at habs
  cases habs

/-- Making the directory for servers makes directories on its way. -/
theorem Placed.confined (h : Placed i j)
    (hmade : files.makeDirectories (i.host.locate i.baseDir) = .ok files') :
    files.Confined files' [] (i.host.locate i.baseDir).passes := by
  rcases h.base with hempty | habs
  · rw [Host.locate, hempty, if_pos rfl] at hmade ⊢
    rw [FileTree.makeDirectories, FileTree.makeDirectoriesFrom, hempty, if_pos rfl] at hmade
    cases hmade
    exact .refl _ _ _
  · exact FileTree.confined_of_makeDirectories habs hmade

theorem Placed.of_job (hd : i.host.directory.isAbsolute = true) (hs : Named j.server)
    (h : j.target = i.versionDir j.server j.platform) : Placed i j := by
  obtain ⟨habs, hcomponents⟩ := components_target (i := i) hd hs j.platform
  rw [← h] at habs hcomponents
  cases hempty : i.baseDir.bytes.isEmpty with
  | true =>
    have hbase : i.host.locate i.baseDir = ⟨[]⟩ := by
      rw [Host.locate, hempty, if_pos rfl]
      rw [← List.isEmpty_iff.mp hempty]
    have hpasses : (⟨[]⟩ : Path).passes = [[]] := rfl
    refine ⟨.inl hempty, habs, ?_, fun _ q hq => ?_⟩
    · rw [hbase, hpasses]
      intro q hq
      rw [List.mem_singleton.mp hq, Path.passes]
      cases (i.host.locate j.target).components <;> exact List.mem_cons_self
    · rw [hbase, hpasses] at hq
      rw [List.mem_singleton.mp hq, List.prefix_nil, Path.place_append hcomponents,
        Path.foldl_leads_names]
      simp [versionNames]
  | false =>
    have hbase : i.host.locate i.baseDir = i.host.directory.join i.baseDir := by
      rw [Host.locate, hempty, if_neg Bool.false_ne_true]
    have hbaseAbs : (i.host.locate i.baseDir).isAbsolute = true := by
      rw [hbase, Path.isAbsolute_join, hd, Bool.true_or]
    rw [← hbase] at hcomponents
    refine ⟨.inr hbaseAbs, habs, Path.passes_subset hcomponents, fun hstraight q hq hpre => ?_⟩
    have hstraight' : (i.host.locate i.baseDir).Straight := by
      intro hmem
      apply hstraight
      rw [hcomponents]
      exact List.mem_append_left _ hmem
    have hlow := Path.prefix_of_mem_passes hbaseAbs hstraight' hq
    have hlength := (hpre.trans hlow).length_le
    rw [Path.place_append hcomponents, Path.foldl_leads_names, List.length_append] at hlength
    have hthree : (versionNames j.server j.platform).length = 3 := rfl
    omega

/-- A directory that was made on the way of a version directory lies above it, unless there are
double dots. -/
theorem Placed.made (h : Placed i j) {q : Place}
    (hmade : q ∈ (i.host.locate j.target).passes ∧ files.at? q = none ∧
      files'.at? q = some .directory) :
    q ∈ (i.host.locate j.target).passes ∧
      ((i.host.locate j.target).Straight → q <+: (i.host.locate j.target).place) ∧
      files.at? q = none ∧ files'.at? q = some .directory :=
  ⟨hmade.1, fun hstraight => Path.prefix_of_mem_passes h.target hstraight hmade.1, hmade.2⟩

/-! ### A call alone -/

/-- **A call alone**: its stages one after the other, and what it returns. -/
inductive Ends (i : Installer) (env : InstallEnvironment) (n : Nat) :
    InstallState → InstallStage → Except InstallError Path → InstallState → Prop
  | returned (s : InstallState) (r : Except InstallError Path) : Ends i env n s (.returned r) r s
  | stage {s s₁ s' : InstallState} {st st₁ : InstallStage} {r : Except InstallError Path}
      {log : List LogEntry} : i.step env n st s = some (s₁, st₁, log) →
      Ends i env n s₁ st₁ r s' → Ends i env n s st r s'

/-- A call comes to one end. -/
theorem Ends.unique (h : Ends i env n s st r s') (h' : Ends i env n s st r' s'') :
    r = r' ∧ s' = s'' := by
  induction h with
  | returned =>
    cases h' with
    | returned => exact ⟨rfl, rfl⟩
    | stage hs => cases hs
  | stage hs _ ih =>
    cases h' with
    | returned => cases hs
    | stage hs' h' =>
      rw [hs] at hs'
      cases hs'
      exact ih h'

/-- The temporary file of a call that begins in a state. -/
def archiveAt (i : Installer) (j : InstallJob) (s : InstallState) : Path :=
  i.host.tempDirectory.join (.ofString (j.archiveName (s.serial + 1)))

/-- **A temporary file is a new one**: nothing is at its place, and its name is no other's. -/
structure Fresh (i : Installer) (j : InstallJob) (s : InstallState) : Prop where
  nothing : ∀ q, (i.archiveAt j s).place <+: q → s.files.at? q = none
  target : (i.host.locate j.target).Avoids (i.archiveAt j s).place
  program : (i.host.locate j.executable).Avoids (i.archiveAt j s).place

/-- **An archive is unpacked below a directory** that is there. -/
def StaysBelow (e : ArchiveEntry) (directory : Path) : Prop :=
  ∀ files files' : FileTree, files.isDirectory directory = true →
    files.unpack directory e = .ok files' → files.Confined files' [directory.place] []

/-- An entry whose path is relative and has no double dots is unpacked below the directory. -/
theorem StaysBelow.of_relative {e : ArchiveEntry} {directory : Path}
    (hd : directory.isAbsolute = true) (hrelative : e.path.isAbsolute = false)
    (hdown : .parent ∉ e.path.segments) : StaysBelow e directory :=
  fun _ _ hthere h => FileTree.confined_of_unpack_relative hd hrelative hdown hthere h

/-- **No call of the operating system fails**: directories can be made and removed, and the way to
the temporary file does not lead through the version directory, once that one is touched. -/
structure Smooth (i : Installer) (j : InstallJob) (s : InstallState)
    (r : Except InstallError Path) : Prop where
  made : ∀ step detail, r = .error (j.stepFailed step detail) →
    step ≠ "creating install directory" ∧ step ≠ "clearing previous install" ∧
      step ≠ "creating version directory"
  found : (∀ url fault, r ≠ .error (.downloadFailed url fault)) →
    (i.archiveAt j s).Avoids (i.host.locate j.target).place

/-- Whether an error says that an archive could not be unpacked, or had no program in it. -/
def isSpoilt : InstallError → Bool
  | .extractionFailed .. | .executableMissing _ => true
  | _ => false

/-- **What an installation leaves.** -/
structure Leaves (i : Installer) (j : InstallJob) (s : InstallState) (r : Except InstallError Path)
    (s' : InstallState) : Prop where
  /-- What is reported is where it is said to be, and it is there. -/
  reported : ∀ p, r = .ok p →
    p = j.executable ∧ s'.files.pathExists (i.host.locate p) = true
  /-- If the program was there, nothing is done. -/
  present : s.files.pathExists (i.host.locate j.executable) = true →
    r = .ok j.executable ∧ s'.files = s.files ∧ s'.requests = s.requests
  /-- Nothing is done either if the archive has no format that is known. -/
  unsupported : ArchiveKind.ofUrl? j.build.downloadUrl = none →
    s'.files = s.files ∧ s'.requests = s.requests
  requests : s'.requests = s.requests ∨ s'.requests = s.requests ++ [j.build.downloadUrl]
  /-- An error is one of the download or of the archive. -/
  failed : ∀ e, r = .error e →
    (∃ fault, e = j.downloadFailed fault) ∨ isSpoilt e = true
  /-- If the download fails, only directories on the way of the one for servers are made, -/
  download : ∀ url fault, r = .error (.downloadFailed url fault) →
    s.files.Confined s'.files [] (i.host.locate i.baseDir).passes
  /-- and the version directory is as it was, unless double dots lead through it. -/
  untouched : (i.host.locate j.target).Straight →
    ∀ url fault, r = .error (.downloadFailed url fault) →
      ∀ q, (i.host.locate j.target).place <+: q → s'.files.at? q = s.files.at? q
  /-- If the archive is of no use, there is no version directory. -/
  removed : (ArchiveKind.ofUrl? j.build.downloadUrl).isSome = true →
    ∀ e, r = .error e → isSpoilt e = true → ∀ q,
      (i.host.locate j.target).place <+: q → s'.files.at? q = none
  /-- The temporary file is gone. -/
  discarded : s'.files.at? (i.archiveAt j s).place = none
  /-- Outside of the version directory, only directories on its way are made, which lie above it
  unless there are double dots; and the program that is reported can be run. -/
  confined : ∀ q, ¬ (i.host.locate j.target).place <+: q →
    s'.files.at? q = s.files.at? q ∨
    (q ∈ (i.host.locate j.target).passes ∧
      ((i.host.locate j.target).Straight → q <+: (i.host.locate j.target).place) ∧
      s.files.at? q = none ∧ s'.files.at? q = some .directory) ∨
    (r = .ok j.executable ∧ q = (i.host.locate j.executable).place ∧
      ∃ content executable, s.files.at? q = some (.file content executable) ∧
        s'.files.at? q = some (.file content true))

/-! ### From the end to the beginning -/

/-- **A call comes to an end**, and leaves what it should. -/
def Goes (i : Installer) (env : InstallEnvironment) (n : Nat) (j : InstallJob)
    (s₀ s : InstallState) (st : InstallStage) : Prop :=
  ∃ r s', Ends i env n s st r s' ∧ (Smooth i j s₀ r → Leaves i j s₀ r s')

theorem Goes.stage (hs : i.step env n st s = some (s₁, st', log)) (h : Goes i env n j s₀ s₁ st') :
    Goes i env n j s₀ s st := by
  obtain ⟨r, s', hends, hleaves⟩ := h
  exact ⟨r, s', .stage hs hends, hleaves⟩

theorem Goes.returned (h : Smooth i j s₀ r → Leaves i j s₀ r s) :
    Goes i env n j s₀ s (.returned r) :=
  ⟨r, s, .returned s r, h⟩

theorem discard_files (h : s.files.isFile archive = true) :
    (discard s j archive r).1.files = s.files.prune archive.place := by
  obtain ⟨q, c, x, hstat⟩ := FileTree.isFile_iff.mp h
  obtain ⟨-, hq, -, -⟩ := FileTree.stat_eq_ok_iff.mp hstat
  unfold discard
  simp only [hstat, FileTree.locate_eq_ok hq, conclude, InstallState.leave, InstallState.setQueue]

theorem Fresh.ne_nil (h : Fresh i j s₀) : (i.archiveAt j s₀).place ≠ [] := by
  intro hnil
  have hroot := h.nothing [] (by rw [hnil])
  cases hroot

/-- **A call installs**: its program was not there, and its archive has a format that is known. -/
structure Begun (i : Installer) (j : InstallJob) (s₀ s : InstallState) : Prop where
  missing : s₀.files.pathExists (i.host.locate j.executable) = false
  supported : (ArchiveKind.ofUrl? j.build.downloadUrl).isSome = true
  requests : s.requests = s₀.requests ∨ s.requests = s₀.requests ++ [j.build.downloadUrl]

theorem Begun.of_requests (h : Begun i j s₀ s) (hrequests : s'.requests = s.requests) :
    Begun i j s₀ s' :=
  ⟨h.missing, h.supported, by rw [hrequests]; exact h.requests⟩

theorem Begun.discard (h : Begun i j s₀ s) : Begun i j s₀ (discard s j archive r).1 :=
  h.of_requests rfl

theorem Begun.not_present (h : Begun i j s₀ s) :
    ¬ s₀.files.pathExists (i.host.locate j.executable) = true := by
  rw [h.missing]
  exact Bool.false_ne_true

theorem Begun.not_unsupported (h : Begun i j s₀ s) :
    ¬ ArchiveKind.ofUrl? j.build.downloadUrl = none := by
  intro hnone
  have hsupported := h.supported
  rw [hnone] at hsupported
  cases hsupported

/-- **The files while a download goes on**: beside the temporary file there are the directories on
the way of the one for servers. -/
structure Downloads (i : Installer) (j : InstallJob) (s₀ s : InstallState) : Prop
    extends Begun i j s₀ s where
  files : s₀.files.Confined s.files [(i.archiveAt j s₀).place] (i.host.locate i.baseDir).passes
  archive : s.files.isFile (i.archiveAt j s₀) = true

/-- A call that does nothing. -/
theorem Leaves.of_nothing (hfresh : Fresh i j s₀) (hfiles : s.files = s₀.files)
    (hrequests : s.requests = s₀.requests)
    (hreported : ∀ p, r = .ok p → p = j.executable ∧
      s₀.files.pathExists (i.host.locate p) = true)
    (hpresent : s₀.files.pathExists (i.host.locate j.executable) = true → r = .ok j.executable)
    (herror : ∀ e, r = .error e →
      ArchiveKind.ofUrl? j.build.downloadUrl = none ∧ isSpoilt e = true) :
    Leaves i j s₀ r s where
  reported := by
    rw [hfiles]
    exact hreported
  present := fun hp => ⟨hpresent hp, hfiles, hrequests⟩
  unsupported := fun _ => ⟨hfiles, hrequests⟩
  requests := .inl hrequests
  failed := fun e he => .inr (herror e he).2
  download := fun _ _ _ => hfiles ▸ .refl _ _ _
  untouched := fun _ _ _ _ _ _ => by rw [hfiles]
  removed := by
    intro hsome e he
    rw [(herror e he).1] at hsome
    cases hsome
  discarded := by
    rw [hfiles]
    exact hfresh.nothing _ (List.prefix_refl _)
  confined := fun _ _ => .inl (by rw [hfiles])

/-- A download that has failed. -/
theorem Leaves.of_download (hplaced : Placed i j) (hfresh : Fresh i j s₀) {fault : DownloadFault}
    (h : Begun i j s₀ s)
    (hfiles : s₀.files.Confined s.files [] (i.host.locate i.baseDir).passes) :
    Leaves i j s₀ (.error (j.downloadFailed fault)) s where
  reported := by rintro _ ⟨⟩
  present := fun hp => absurd hp h.not_present
  unsupported := fun hnone => absurd hnone h.not_unsupported
  requests := h.requests
  failed := by
    rintro _ ⟨⟩
    exact .inl ⟨fault, rfl⟩
  download := fun _ _ _ => hfiles
  untouched := by
    intro hstraight _ _ _ q hq
    refine (hfiles q (by simp)).resolve_right ?_
    rintro ⟨hmem, -, -⟩
    exact hplaced.below hstraight q hmem hq
  removed := by
    rintro _ _ ⟨⟩ hspoilt
    cases hspoilt
  discarded := by
    have hnone := hfresh.nothing _ (List.prefix_refl _)
    rcases hfiles _ (by simp) with heq | ⟨hmem, -, -⟩
    · rw [heq, hnone]
    · exact absurd (List.prefix_refl _) (hfresh.target _ (hplaced.ways hmem))
  confined := by
    intro q _
    refine (hfiles q (by simp)).imp id ?_
    rintro ⟨hmem, hmade⟩
    exact .inl (hplaced.made ⟨hplaced.ways hmem, hmade⟩)

/-- An archive that was of no use. -/
theorem Leaves.of_spoilt (hplaced : Placed i j) (h : Begun i j s₀ s) {e : InstallError}
    (hspoilt : isSpoilt e = true)
    (hfiles : s₀.files.Confined s.files [(i.host.locate j.target).place]
      (i.host.locate j.target).passes)
    (hremoved : ∀ q, (i.host.locate j.target).place <+: q → s.files.at? q = none)
    (hdiscarded : s.files.at? (i.archiveAt j s₀).place = none) : Leaves i j s₀ (.error e) s where
  reported := by rintro _ ⟨⟩
  present := fun hp => absurd hp h.not_present
  unsupported := fun hnone => absurd hnone h.not_unsupported
  requests := h.requests
  failed := by
    rintro _ ⟨⟩
    exact .inr hspoilt
  download := by
    rintro _ _ ⟨⟩
    cases hspoilt
  untouched := by
    rintro _ _ _ ⟨⟩
    cases hspoilt
  removed := fun _ _ _ _ => hremoved
  discarded := hdiscarded
  confined := by
    intro q hq
    refine (hfiles q (by simpa using hq)).imp id ?_
    exact fun hmade => .inl (hplaced.made hmade)

/-- A program that was installed. Its file is the only one that may have changed elsewhere. -/
theorem Leaves.of_installed (hplaced : Placed i j) (hfresh : Fresh i j s₀) (h : Begun i j s₀ s)
    (hconfined : s₀.files.Confined files [(i.archiveAt j s₀).place,
      (i.host.locate j.target).place] (i.host.locate j.target).passes)
    (hmarked : ∀ q, files'.at? q = files.at? q ∨ (q = (i.host.locate j.executable).place ∧
      ∃ content executable, files.at? q = some (.file content executable) ∧
        files'.at? q = some (.file content true)))
    (hend : s.files = files'.prune (i.archiveAt j s₀).place)
    (hthere : s.files.pathExists (i.host.locate j.executable) = true) :
    Leaves i j s₀ (.ok j.executable) s where
  reported := by
    rintro _ ⟨⟩
    exact ⟨rfl, hthere⟩
  present := fun hp => absurd hp h.not_present
  unsupported := fun hnone => absurd hnone h.not_unsupported
  requests := h.requests
  failed := by rintro _ ⟨⟩
  download := by rintro _ _ ⟨⟩
  untouched := by rintro _ _ _ ⟨⟩
  removed := by rintro - _ ⟨⟩
  discarded := by
    rw [hend]
    exact FileTree.at?_prune_of_prefix _ hfresh.ne_nil (List.prefix_refl _)
  confined := by
    intro q hq
    rw [hend]
    by_cases ha : (i.archiveAt j s₀).place <+: q
    · left
      rw [FileTree.at?_prune_of_prefix _ hfresh.ne_nil ha, hfresh.nothing q ha]
    rw [FileTree.at?_prune _ ha]
    have hbefore := hconfined q (by simpa using ⟨ha, hq⟩)
    rcases hmarked q with heq | ⟨hplace, c, x, hfile, hrun⟩
    · rw [heq]
      exact hbefore.imp id fun hmade => .inl (hplaced.made hmade)
    · -- the program is a file that was there before
      rcases hbefore with heq | ⟨-, -, hdir⟩
      · exact .inr (.inr ⟨rfl, hplace, c, x, heq ▸ hfile, hrun⟩)
      · rw [hfile] at hdir
        cases hdir

/-- **A download fails**, and the temporary file is removed. -/
theorem Goes.of_download (hplaced : Placed i j) (hfresh : Fresh i j s₀)
    (h : Downloads i j s₀ s) (fault : DownloadFault)
    (hs : i.step env n st s₁ = some ((discard s j (i.archiveAt j s₀)
      (.error (j.downloadFailed fault))).1, .returned (.error (j.downloadFailed fault)), [])) :
    Goes i env n j s₀ s₁ st := by
  refine .stage hs (.returned fun _ => ?_)
  refine .of_download hplaced hfresh h.toBegun.discard ?_
  have hfiles := discard_files (j := j) (r := .error (j.downloadFailed fault)) h.archive
  rw [hfiles]
  refine (h.files.trans (.prune (by simp))).of_nothing hfresh.nothing fun q hq => ?_
  exact FileTree.at?_prune_of_prefix _ hfresh.ne_nil hq

/-! ### Unpacking -/

/-- **The files once the version directory is touched.** -/
structure Unpacks (i : Installer) (j : InstallJob) (s₀ s : InstallState) : Prop
    extends Begun i j s₀ s where
  files : s₀.files.Confined s.files [(i.archiveAt j s₀).place, (i.host.locate j.target).place]
    (i.host.locate j.target).passes
  archive : (i.archiveAt j s₀).Avoids (i.host.locate j.target).place →
    s.files.isFile (i.archiveAt j s₀) = true

/-- The files change in the version directory or on its way. -/
theorem Unpacks.change (h : Unpacks i j s₀ s)
    (hfiles : s.files.Confined files [(i.archiveAt j s₀).place, (i.host.locate j.target).place]
      (i.host.locate j.target).passes)
    (hkeeps : s.files.Keeps files [(i.host.locate j.target).place]) :
    Unpacks i j s₀ { s with files := files } where
  toBegun := h.toBegun.of_requests rfl
  files := h.files.trans hfiles
  archive := fun havoids => hkeeps.isFile (h.archive havoids) (by simpa using havoids)

/-- The version directory is taken away. -/
theorem Unpacks.removed (h : Unpacks i j s₀ s)
    (hremoved : s.files.removeDirectory (i.host.locate j.target) = .ok files) :
    Unpacks i j s₀ { s with files := files } := by
  have hpruned := FileTree.of_removeDirectory hremoved
  refine h.change ?_ ?_
  · rw [hpruned]
    exact .prune (by simp)
  · rw [hpruned]
    exact .prune (by simp)

/-- **An archive was of no use**: the version directory is removed, and the temporary file. -/
theorem Goes.removing (hplaced : Placed i j) (hfresh : Fresh i j s₀) (h : Unpacks i j s₀ s)
    (hthere : s.files.isDirectory (i.host.locate j.target) = true) {e : InstallError}
    (hspoilt : isSpoilt e = true) :
    Goes i env n j s₀ s (.removing j (i.archiveAt j s₀) e) := by
  obtain ⟨files, hremoved⟩ := FileTree.exists_removeDirectory hthere
  have hstep : i.step env n (.removing j (i.archiveAt j s₀) e) s =
      some ((discard { s with files := files } j (i.archiveAt j s₀) (.error e)).1,
        .returned (.error e), []) := by
    simp only [step, hremoved]
    rfl
  have hpruned := FileTree.of_removeDirectory hremoved
  refine .stage hstep (.returned fun hsmooth => ?_)
  have havoids : (i.archiveAt j s₀).Avoids (i.host.locate j.target).place :=
    hsmooth.found fun url fault he => by cases he; cases hspoilt
  have hchange : Unpacks i j s₀ { s with files := files } := h.removed hremoved
  have hfiles := discard_files (j := j) (r := .error e) (hchange.archive havoids)
  have hV : (i.host.locate j.target).place ≠ [] := by
    intro hnil
    exact havoids _ (Path.place_mem_passes _) (by rw [hnil]; exact List.nil_prefix)
  have hgone : ∀ q, (i.archiveAt j s₀).place <+: q →
      (files.prune (i.archiveAt j s₀).place).at? q = none :=
    fun q hq => FileTree.at?_prune_of_prefix _ hfresh.ne_nil hq
  have hconfined : s₀.files.Confined (files.prune (i.archiveAt j s₀).place)
      [(i.host.locate j.target).place] (i.host.locate j.target).passes :=
    (hchange.files.trans (.prune (by simp))).of_nothing hfresh.nothing hgone
  refine .of_spoilt hplaced hchange.toBegun.discard hspoilt ?_ (fun q hq => ?_) ?_
  · rw [hfiles]
    exact hconfined
  · rw [hfiles]
    by_cases ha : (i.archiveAt j s₀).place <+: q
    · exact hgone q ha
    · rw [FileTree.at?_prune _ ha]
      dsimp only
      rw [hpruned]
      exact FileTree.at?_prune_of_prefix _ hV hq
  · rw [hfiles]
    exact hgone _ (List.prefix_refl _)

/-- **An archive has been unpacked**: its program can be run, and the temporary file is removed. -/
theorem Goes.marking (hplaced : Placed i j) (hfresh : Fresh i j s₀) (h : Unpacks i j s₀ s)
    (hfound : s.files.pathExists (i.host.locate j.executable) = true) :
    Goes i env n j s₀ s (.marking j (i.archiveAt j s₀)) := by
  obtain ⟨files, hmarked, hfiles⟩ : ∃ files, (∀ q, files.at? q = s.files.at? q ∨
      (q = (i.host.locate j.executable).place ∧ ∃ content executable,
        s.files.at? q = some (.file content executable) ∧
        files.at? q = some (.file content true))) ∧
      files = if j.platform.isWindows then s.files
        else s.files.allowRunning (i.host.locate j.executable) := by
    refine ⟨_, fun q => ?_, rfl⟩
    split
    · exact .inl rfl
    · exact FileTree.at?_allowRunning _ _ q
  have hkeeps : ∀ gone, s.files.Keeps files gone := by
    intro gone
    rw [hfiles]
    split
    · exact .refl _ _
    · exact .allowRunning _ _ _
  have hstep : i.step env n (.marking j (i.archiveAt j s₀)) s =
      some ((discard { s with files := files } j (i.archiveAt j s₀) (.ok j.executable)).1,
        .returned (.ok j.executable), [.info "Language server installed"]) := by
    rw [hfiles]
    rfl
  refine .stage hstep (.returned fun hsmooth => ?_)
  have havoids := hsmooth.found fun url fault he => by cases he
  have harchive : files.isFile (i.archiveAt j s₀) = true :=
    (hkeeps []).isFile (h.archive havoids) (by simp)
  have hend := discard_files (s := { s with files := files }) (j := j)
    (r := .ok j.executable) harchive
  refine .of_installed hplaced hfresh (h.toBegun.of_requests rfl) h.files hmarked hend ?_
  rw [hend]
  refine ((hkeeps [(i.archiveAt j s₀).place]).trans (.prune (by simp))).pathExists hfound ?_
  simpa using hfresh.program

/-- **An archive was unpacked to its end.** -/
theorem Goes.verifying (hplaced : Placed i j) (hfresh : Fresh i j s₀) (h : Unpacks i j s₀ s)
    (hthere : s.files.isDirectory (i.host.locate j.target) = true) :
    Goes i env n j s₀ s (.verifying j (i.archiveAt j s₀)) := by
  cases hfound : s.files.pathExists (i.host.locate j.executable) with
  | true =>
    have hstep : i.step env n (.verifying j (i.archiveAt j s₀)) s =
        some (s, .marking j (i.archiveAt j s₀), []) := by
      simp only [step, hfound, if_true]
    exact .stage hstep (.marking hplaced hfresh h hfound)
  | false =>
    have hstep : i.step env n (.verifying j (i.archiveAt j s₀)) s =
        some (s, .removing j (i.archiveAt j s₀) (.executableMissing j.executable), []) := by
      simp only [step, hfound, if_false, Bool.false_eq_true]
    exact .stage hstep (.removing hplaced hfresh h hthere rfl)

/-- **Unpacking**, entry by entry. -/
theorem Goes.extracting (hplaced : Placed i j) (hfresh : Fresh i j s₀) {left : Unpacking}
    (hbelow : ∀ e ∈ left.entries, StaysBelow e (i.host.locate j.target)) (h : Unpacks i j s₀ s)
    (hthere : s.files.isDirectory (i.host.locate j.target) = true) :
    Goes i env n j s₀ s (.extracting j (i.archiveAt j s₀) left) := by
  obtain ⟨entries, fault⟩ := left
  induction entries generalizing s with
  | nil =>
    cases fault with
    | none => exact .stage rfl (.verifying hplaced hfresh h hthere)
    | some fault => exact .stage rfl (.removing hplaced hfresh h hthere rfl)
  | cons e entries ih =>
    cases hunpacked : s.files.unpack (i.host.locate j.target) e with
    | error failure =>
      have hstep : i.step env n (.extracting j (i.archiveAt j s₀) ⟨e :: entries, fault⟩) s =
          some (s, .removing j (i.archiveAt j s₀) (j.stepFailed "extracting archive"
            failure.message), []) := by
        simp only [step, hunpacked]
      exact .stage hstep (.removing hplaced hfresh h hthere rfl)
    | ok files =>
      have hstep : i.step env n (.extracting j (i.archiveAt j s₀) ⟨e :: entries, fault⟩) s =
          some ({ s with files := files }, .extracting j (i.archiveAt j s₀) ⟨entries, fault⟩,
            []) := by
        simp only [step, hunpacked]
      have hconfined := hbelow e List.mem_cons_self _ _ hthere hunpacked
      have hkeeps : s.files.Keeps files [] := .of_unpack hunpacked
      refine .stage hstep (ih ?_ ?_ ?_)
      · exact h.change (hconfined.mono (by simp) (by simp)) (.of_unpack hunpacked)
      · exact hkeeps.isDirectory hthere (by simp)
      · exact fun x hx => hbelow x (List.mem_cons_of_mem _ hx)

/-- **What holds from the beginning of a call**: its places are apart, and what it may unpack
stays below the version directory. -/
structure Ready (i : Installer) (env : InstallEnvironment) (j : InstallJob)
    (s : InstallState) : Prop where
  placed : Placed i j
  fresh : Fresh i j s
  below : ∀ kind bytes, ∀ e ∈ (env.unpack kind bytes).entries,
    StaysBelow e (i.host.locate j.target)

/-- **The version directory is made**, and the archive is opened. -/
theorem Goes.opening (hready : Ready i env j s₀) (h : Unpacks i j s₀ s) :
    Goes i env n j s₀ s (.opening j (i.archiveAt j s₀)) := by
  cases hmade : s.files.makeDirectories (i.host.locate j.target) with
  | error e =>
    refine .stage (by simp only [step, hmade]; rfl) (.returned fun hsmooth => ?_)
    exact absurd rfl (hsmooth.made _ _ rfl).2.2
  | ok files =>
    have hconfined := FileTree.confined_of_makeDirectories hready.placed.target hmade
    have hchange : Unpacks i j s₀ { s with files := files } :=
      h.change (hconfined.mono (by simp) (List.Subset.refl _)) (.of_makeDirectories hmade)
    have hthere := FileTree.isDirectory_of_makeDirectories hready.placed.bytes hmade
    obtain ⟨kind, hkind⟩ := Option.isSome_iff_exists.mp h.supported
    cases hread : files.read (i.archiveAt j s₀) with
    | error e =>
      have hstep : i.step env n (.opening j (i.archiveAt j s₀)) s =
          some ({ s with files := files }, .removing j (i.archiveAt j s₀)
            (j.stepFailed "opening downloaded archive" e.message), []) := by
        simp only [step, hmade, hread]
      exact .stage hstep (.removing hready.placed hready.fresh hchange hthere rfl)
    | ok bytes =>
      have hstep : i.step env n (.opening j (i.archiveAt j s₀)) s =
          some ({ s with files := files }, .extracting j (i.archiveAt j s₀)
            (env.unpack kind bytes), []) := by
        simp only [step, hmade, hread, hkind]
      exact .stage hstep (.extracting hready.placed hready.fresh (hready.below kind bytes)
        hchange hthere)

/-- **An incomplete installation is cleared away.** -/
theorem Goes.clearing (hready : Ready i env j s₀) (h : Downloads i j s₀ s) :
    Goes i env n j s₀ s (.clearing j (i.archiveAt j s₀)) := by
  have hbegun : Unpacks i j s₀ s :=
    ⟨h.toBegun, h.files.mono (by simp) hready.placed.ways, fun _ => h.archive⟩
  cases hthere : s.files.pathExists (i.host.locate j.target) with
  | false =>
    have hstep : i.step env n (.clearing j (i.archiveAt j s₀)) s =
        some (s, .opening j (i.archiveAt j s₀), []) := by
      simp only [step, hthere, if_false, Bool.false_eq_true]
    exact .stage hstep (.opening hready hbegun)
  | true =>
    cases hremoved : s.files.removeDirectory (i.host.locate j.target) with
    | error e =>
      refine .stage (by simp only [step, hthere, hremoved, if_true]; rfl)
        (.returned fun hsmooth => ?_)
      exact absurd rfl (hsmooth.made _ _ rfl).2.1
    | ok files =>
      have hstep : i.step env n (.clearing j (i.archiveAt j s₀)) s =
          some ({ s with files := files }, .opening j (i.archiveAt j s₀),
            [.debug "Clearing incomplete install"]) := by
        simp only [step, hthere, hremoved, if_true]
      exact .stage hstep (.opening hready (hbegun.removed hremoved))

/-! ### Downloading -/

/-- **An answer is received.** -/
theorem Goes.receiving (hready : Ready i env j s₀) (h : Downloads i j s₀ s) (reply : HttpReply) :
    Goes i env n j s₀ s (.receiving j (i.archiveAt j s₀) reply) := by
  have hplaced := hready.placed
  have hfresh := hready.fresh
  cases reply with
  | unreachable detail => exact .of_download hplaced hfresh h (.transport detail) rfl
  | answer status phrase body fault =>
    by_cases hstatus : status < 200 ∨ 300 ≤ status
    · refine .of_download hplaced hfresh h (.status status phrase) ?_
      simp only [step, receive, if_pos hstatus]
      rfl
    · cases hwritten : s.files.write (i.archiveAt j s₀) body with
      | error e =>
        refine .of_download hplaced hfresh h (.step "opening temporary file" e.message) ?_
        simp only [step, receive, if_neg hstatus, hwritten]
        rfl
      | ok files =>
        have hconfined := (FileTree.confined_of_write hwritten).mono (List.Subset.refl _)
          (List.nil_subset (i.host.locate i.baseDir).passes)
        have hchange : Downloads i j s₀ { s with files := files } :=
          ⟨h.toBegun.of_requests rfl, h.files.trans hconfined, FileTree.isFile_of_write hwritten⟩
        cases fault with
        | some detail =>
          refine .of_download hplaced hfresh hchange (.step "response stream error" detail) ?_
          simp only [step, receive, if_neg hstatus, hwritten]
          rfl
        | none =>
          have hstep : i.step env n (.receiving j (i.archiveAt j s₀)
              (.answer status phrase body none)) s = some ({ s with files := files },
                .clearing j (i.archiveAt j s₀), [.debug "Download complete"]) := by
            simp only [step, receive, if_neg hstatus, hwritten]
          exact .stage hstep (.clearing hready hchange)

/-- **The directory for servers is made, and the temporary file**; then the request is sent. -/
theorem Goes.preparing (hready : Ready i env j s₀)
    (hmissing : s₀.files.pathExists (i.host.locate j.executable) = false)
    (hsupported : (ArchiveKind.ofUrl? j.build.downloadUrl).isSome = true)
    (hfiles : s.files = s₀.files) (hrequests : s.requests = s₀.requests)
    (hserial : s.serial = s₀.serial) : Goes i env n j s₀ s (.preparing j) := by
  have harchive : i.host.tempDirectory.join (.ofString (j.archiveName (s.serial + 1))) =
      i.archiveAt j s₀ := by rw [archiveAt, hserial]
  cases hmade : s.files.makeDirectories (i.host.locate i.baseDir) with
  | error e =>
    refine .stage (by simp only [step, prepare, hmade]; rfl) (.returned fun hsmooth => ?_)
    exact absurd rfl (hsmooth.made _ _ rfl).1
  | ok files =>
    have hbase : s₀.files.Confined files [] (i.host.locate i.baseDir).passes :=
      hready.placed.confined (hfiles ▸ hmade)
    cases hwritten : files.write (i.archiveAt j s₀) [] with
    | error e =>
      refine .stage (by simp only [step, prepare, hmade, harchive, hwritten]; rfl)
        (.returned fun _ => ?_)
      exact .of_download hready.placed hready.fresh ⟨hmissing, hsupported, .inl hrequests⟩ hbase
    | ok files' =>
      have hwrite := (FileTree.confined_of_write hwritten).mono (List.Subset.refl _)
        (List.nil_subset (i.host.locate i.baseDir).passes)
      have hdownloads : Downloads i j s₀ { s with
          files := files', serial := s.serial + 1
          requests := s.requests ++ [j.build.downloadUrl] } :=
        ⟨⟨hmissing, hsupported, .inr (by rw [hrequests])⟩,
          (hbase.mono (List.nil_subset _) (List.Subset.refl _)).trans hwrite,
          FileTree.isFile_of_write hwritten⟩
      have hstep : i.step env n (.preparing j) s =
          some ({ s with files := files', serial := s.serial + 1 },
            .requesting j (i.archiveAt j s₀), []) := by
        simp only [step, prepare, hmade, harchive, hwritten]
      exact .stage hstep (.stage rfl (.receiving hready hdownloads _))

/-! ### Looking for the program -/

/-- **A call has the lock** of its version directory and looks again. -/
theorem Goes.lookingAgain (hready : Ready i env j s₀)
    (hmissing : s₀.files.pathExists (i.host.locate j.executable) = false)
    (hfiles : s.files = s₀.files) (hrequests : s.requests = s₀.requests)
    (hserial : s.serial = s₀.serial) : Goes i env n j s₀ s (.lookingAgain j) := by
  cases hkind : ArchiveKind.ofUrl? j.build.downloadUrl with
  | none =>
    refine .stage (by simp only [step, hfiles, hmissing, hkind, if_false, Bool.false_eq_true]; rfl)
      (.returned fun _ => ?_)
    refine .of_nothing hready.fresh hfiles hrequests (by rintro _ ⟨⟩) (fun hp => ?_) ?_
    · rw [hmissing] at hp
      cases hp
    · rintro _ ⟨⟩
      exact ⟨hkind, rfl⟩
  | some kind =>
    have hstep : i.step env n (.lookingAgain j) s =
        some (s, .preparing j, [.info "Downloading language server"]) := by
      simp only [step, hfiles, hmissing, hkind, if_false, Bool.false_eq_true]
    exact .stage hstep (.preparing hready hmissing (by rw [hkind]; rfl) hfiles hrequests hserial)

/-- **A call looks for its program**, and waits for no other call. -/
theorem Goes.looking (hready : Ready i env j s₀) (hidle : s₀.queueOf j.lock = []) :
    Goes i env n j s₀ s₀ (.looking j) := by
  cases hfound : s₀.files.pathExists (i.host.locate j.executable) with
  | true =>
    have hstep : i.step env n (.looking j) s₀ =
        some (s₀, .returned (.ok j.executable), [.debug "Language server already installed"]) := by
      simp only [step, hfound, if_true]
    refine .stage hstep (.returned fun _ => ?_)
    refine .of_nothing hready.fresh rfl rfl ?_ (fun _ => rfl) (by rintro _ ⟨⟩)
    rintro _ ⟨⟩
    exact ⟨rfl, hfound⟩
  | false =>
    have hqueue : (s₀.enter j.lock n).queueOf j.lock = [n] := by
      rw [InstallState.enter, hidle, InstallState.queueOf_setQueue, if_pos rfl, List.nil_append]
    have henter : i.step env n (.looking j) s₀ = some (s₀.enter j.lock n, .queued j, []) := by
      simp only [step, hfound, if_false, Bool.false_eq_true]
    have hturn : i.step env n (.queued j) (s₀.enter j.lock n) =
        some (s₀.enter j.lock n, .lookingAgain j, []) := by
      simp only [step, hqueue, List.head?_cons, beq_self_eq_true, if_true]
    exact .stage henter (.stage hturn (.lookingAgain hready hfound rfl rfl rfl))

theorem job_eq (h : i.job language = .ok j) :
    j.target = i.versionDir j.server j.platform ∧ j.server ∈ i.catalog.servers := by
  unfold job at h
  split at h
  · cases h
  · next srv hsrv =>
    split at h
    · cases h
    · split at h <;> cases h
      exact ⟨rfl, List.mem_of_find?_eq_some hsrv⟩

/-- **What an installation leaves.** -/
theorem install_leaves (hd : i.host.directory.isAbsolute = true)
    (hnamed : ∀ srv ∈ i.catalog.servers, Named srv) (env : InstallEnvironment) (n : Nat)
    (s : InstallState) (language : String)
    (halone : ∀ j, i.job language = .ok j → s.queueOf j.lock = [])
    (hfresh : ∀ j, i.job language = .ok j → Fresh i j s)
    (hbelow : ∀ j, i.job language = .ok j → ∀ kind bytes,
      ∀ e ∈ (env.unpack kind bytes).entries, StaysBelow e (i.host.locate j.target)) :
    (∃ r s', Ends i env n s (.begin language) r s') ∧
    ∀ r s', Ends i env n s (.begin language) r s' →
      (∀ e, i.job language = .error e → r = .error e ∧ s' = s) ∧
      (∀ j, i.job language = .ok j → Smooth i j s r →
        i.location language = .ok j.executable ∧ Leaves i j s r s') := by
  cases hjob : i.job language with
  | error e =>
    have hstep : i.step env n (.begin language) s = some (s, .returned (.error e), []) := by
      simp only [step, hjob]
    have hends : Ends i env n s (.begin language) (.error e) s := .stage hstep (.returned s _)
    refine ⟨⟨_, _, hends⟩, fun r s' h => ⟨?_, by rintro _ ⟨⟩⟩⟩
    rintro _ ⟨⟩
    obtain ⟨rfl, rfl⟩ := hends.unique h
    exact ⟨rfl, rfl⟩
  | ok j =>
    obtain ⟨htarget, hmem⟩ := job_eq hjob
    have hready : Ready i env j s :=
      ⟨.of_job hd (hnamed _ hmem) htarget, hfresh j hjob, hbelow j hjob⟩
    have hstep : i.step env n (.begin language) s = some (s, .looking j, []) := by
      simp only [step, hjob]
    obtain ⟨r, s', hends, hleaves⟩ := Goes.stage hstep (.looking hready (halone j hjob))
    refine ⟨⟨r, s', hends⟩, fun r' s'' h => ⟨by rintro _ ⟨⟩, ?_⟩⟩
    rintro _ ⟨⟩ hsmooth
    obtain ⟨rfl, rfl⟩ := hends.unique h
    refine ⟨?_, hleaves hsmooth⟩
    rw [location, hjob]
    rfl

/-! ### Calls that are made -/

/-- What a call alone comes to in some stages. -/
def play (i : Installer) (env : InstallEnvironment) (n : Nat) :
    Nat → InstallStage → InstallState → Option (Except InstallError Path × InstallState)
  | 0, _, _ => none
  | _ + 1, .returned r, s => some (r, s)
  | k + 1, st, s => (i.step env n st s).bind fun x => play i env n k x.2.1 x.1

theorem Ends.of_play {k : Nat} (h : i.play env n k st s = some (r, s')) :
    Ends i env n s st r s' := by
  induction k generalizing st s with
  | zero => cases h
  | succ k ih =>
    unfold play at h
    split at h
    · cases h
    · cases h
      exact .returned _ _
    · next hk _ =>
      cases hk
      obtain ⟨⟨s₁, st₁, log⟩, hstep, h⟩ := Option.bind_eq_some_iff.mp h
      exact .stage hstep (ih h)

theorem exists_ends_of_play {k : Nat} {q : Place} {node : FileNode}
    (h : (i.play env n k st s).any (fun x => x.1 = r ∧ x.2.files.at? q = some node) = true) :
    ∃ s', Ends i env n s st r s' ∧ s'.files.at? q = some node := by
  obtain ⟨⟨r', s'⟩, hs, h⟩ := (Option.any_eq_true _ _).mp h
  obtain ⟨rfl, hat⟩ := of_decide_eq_true h
  exact ⟨s', .of_play hs, hat⟩

/-- A temporary file is new if taking it away would change nothing. -/
theorem Fresh.of_prune (hne : (i.archiveAt j s).place ≠ [])
    (hprune : s.files.prune (i.archiveAt j s).place = s.files)
    (htarget : (i.host.locate j.target).Avoids (i.archiveAt j s).place)
    (hprogram : (i.host.locate j.executable).Avoids (i.archiveAt j s).place) : Fresh i j s where
  nothing := by
    intro q hq
    rw [← hprune]
    exact FileTree.at?_prune_of_prefix _ hne hq
  target := htarget
  program := hprogram

/-- The job of the one server of the shop. -/
def shopJob : InstallJob where
  server := ⟨"analyzer", "1", ["rust"], true, "", [(⟨.linux, .x64⟩, ⟨"f.zip", "s"⟩)]⟩
  platform := ⟨.linux, .x64⟩
  build := ⟨"f.zip", "s"⟩
  target := .ofString "/analyzer/1/linux-x64"
  executable := .ofString "/analyzer/1/linux-x64/s"

theorem Named.analyzer {srv : Server} (hname : srv.name = "analyzer")
    (hversion : srv.version = "1") : Named srv := by
  refine ⟨?_, ?_⟩
  · rw [hname]
    exact ⟨by decide, by decide, by decide, by decide⟩
  · rw [hversion]
    exact ⟨by decide, by decide, by decide, by decide⟩

/-- The files with an incomplete installation, of one file that is no program. -/
def stale : FileTree :=
  let names := versionNames shopJob.server shopJob.platform
  ⟨[(names.take 1, .directory), (names.take 2, .directory), (names, .directory),
    (names ++ [[0x78]], .file [] false)]⟩

/-- An incomplete installation makes way for the program. -/
theorem install_leaves_stale : ∃ s', Ends shop (packed "s") 0 (.start stale) (.begin "rust")
    (.ok shopJob.executable) s' ∧ shop.location "rust" = .ok shopJob.executable ∧
      Leaves shop shopJob (.start stale) (.ok shopJob.executable) s' := by
  have hjob : shop.job "rust" = .ok shopJob := rfl
  have hjobs : ∀ j, shop.job "rust" = .ok j → j = shopJob := fun j hj =>
    Except.ok.inj (hj.symm.trans hjob)
  have hnamed : ∀ srv ∈ shop.catalog.servers, Named srv := by
    intro srv hsrv
    rw [List.mem_singleton.mp hsrv]
    exact .analyzer rfl rfl
  have hfresh : Fresh shop shopJob (.start stale) :=
    .of_prune (by decide +kernel) (by decide +kernel) (by decide +kernel) (by decide +kernel)
  have hbelow : ∀ kind bytes, ∀ e ∈ ((packed "s").unpack kind bytes).entries,
      StaysBelow e (shop.host.locate shopJob.target) := by
    intro kind bytes e he
    rw [List.mem_singleton.mp he]
    exact .of_relative rfl rfl (by decide)
  have hplay : (shop.play (packed "s") 0 20 (.begin "rust") (.start stale)).any (fun x =>
      reports shopJob.executable (.returned x.1)) = true := by decide +kernel
  obtain ⟨⟨r, s'⟩, hs, hreports⟩ := (Option.any_eq_true _ _).mp hplay
  obtain ⟨rfl⟩ := eq_of_reports hreports
  have hends := Ends.of_play hs
  have hsmooth : Smooth shop shopJob (.start stale) (.ok shopJob.executable) :=
    ⟨by rintro _ _ ⟨⟩, fun _ => by decide +kernel⟩
  have hleaves := install_leaves (i := shop) rfl hnamed (packed "s") 0 (.start stale) "rust"
    (fun _ _ => rfl) (fun j hj => hjobs j hj ▸ hfresh) (fun j hj => hjobs j hj ▸ hbelow)
  exact ⟨s', hends, (hleaves.2 _ _ hends).2 shopJob hjob hsmooth⟩

/-! ### What is changed elsewhere -/

/-- An installer for one server, at a directory and with a program in the version directory. -/
def outpost (base program : String) : Installer := { shop with
  catalog := ⟨[⟨"analyzer", "1", ["rust"], true, "",
    [(⟨.linux, .x64⟩, ⟨"f.zip", program⟩)]⟩]⟩
  baseDir := .ofString base }

/-- Nothing can be downloaded. -/
def offline : InstallEnvironment where
  fetch _ := .unreachable ""
  unpack _ _ := ⟨[], none⟩

/-- The files with a program that nobody may run yet, beside where a version belongs. -/
def neighbour : FileTree :=
  let names := versionNames shopJob.server shopJob.platform
  ⟨[(names.take 1, .directory), (names.take 2, .directory),
    (names.take 2 ++ [[0x73]], .file [] false)]⟩

/-- **Installing may change what is neither in the version directory nor above it.** A failed
download leaves a directory that the path of the directory for servers only steps through, or the
version directory itself; and a program whose path leads out of the version directory is made
runnable where it is. -/
theorem exists_changed_elsewhere :
    (∀ base program, ∀ srv ∈ (outpost base program).catalog.servers, Named srv) ∧
    (∃ s', Ends (outpost "/b/x/.." "s") offline 0 (.start ⟨[]⟩) (.begin "rust")
      (.error (.downloadFailed "f.zip" (.transport ""))) s' ∧
      s'.files.at? (Path.ofString "/b/x").place = some .directory) ∧
    (∃ s', Ends (outpost "/analyzer/1/linux-x64/../../.." "s") offline 0 (.start ⟨[]⟩)
      (.begin "rust") (.error (.downloadFailed "f.zip" (.transport ""))) s' ∧
      s'.files.at? (Path.ofString "/analyzer/1/linux-x64").place = some .directory) ∧
    (neighbour.at? (Path.ofString "/analyzer/1/s").place = some (.file [] false) ∧
    ∃ s', Ends (outpost "/" "../s") (packed "x") 0 (.start neighbour) (.begin "rust")
      (.ok (.ofString "/analyzer/1/linux-x64/../s")) s' ∧
      s'.files.at? (Path.ofString "/analyzer/1/s").place = some (.file [] true)) := by
  refine ⟨fun base program srv hsrv => ?_, ?_, ?_, ?_, ?_⟩
  · rw [List.mem_singleton.mp hsrv]
    exact .analyzer rfl rfl
  · exact exists_ends_of_play (k := 20) (by decide +kernel)
  · exact exists_ends_of_play (k := 20) (by decide +kernel)
  · decide +kernel
  · exact exists_ends_of_play (k := 20) (by decide +kernel)

end Installer

end LanguageHub
