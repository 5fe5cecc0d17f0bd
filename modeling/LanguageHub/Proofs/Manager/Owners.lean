import LanguageHub.Proofs.Manager.Documents
import LanguageHub.Proofs.Manager.Registry

/-!
# The search for the owner of a document

A routed action looks for the session that owns its document: it takes the sessions of the
table whose root contains the path, asks each of them whether the document is open, and
chooses. Sessions that have it open are **preferred to all others**
(`Manager.exists_choose_isOpen`), so the search ends well as soon as one of the sessions
that it asks has the document open and keeps it.

Which sessions it asks is decided by their keys in the table. The root of a document
contains the document, and so does every root that the key does not tell from it,
backslashes at their ends aside (`Manager.within_of_same`). This needs that all keys of a
manager have roots that are paths of names (`Manager.Named`).

`Manager.Searches` is the invariant of a search in which one session is known to have the
document open.
-/

namespace LanguageHub

open LanguageHub.Path

/-- A path of names. -/
def Path.IsNamed (p : Path) : Prop := ∃ names, (∀ b ∈ names, IsName b) ∧ p = ofNames names

/-- **Roots that their keys tell apart** if they differ: they are spelled alike, or no
backslash is lost at the end of either. -/
def SessionKey.Alike (a b : SessionKey) : Prop :=
  a.root = b.root ∨ (a.root.endsInBackslash = false ∧ b.root.endsInBackslash = false)

/-- The key for which a task assures a session. -/
def Task.key? : Task → Option SessionKey
  | .ensure _ _ (.rooted _ key) | .ensure _ _ (.replacing _ key _ _ _)
  | .ensure _ _ (.entering _ key _) | .ensure _ _ (.queued _ key _)
  | .ensure _ _ (.installing _ key _ _ _) | .ensure _ _ (.launching _ key _ _ _)
  | .ensure _ _ (.handshaking _ key _ _ _) | .ensure _ _ (.failing key _ _) => some key
  | _ => none

theorem Task.key?_of_isFresh {t : Task} (h : t.isFresh = true) : t.key? = none := by
  unfold isFresh at h
  split at h <;> trivial

/-- Whether a routed action still looks for the owner of its document, and has asked for it. -/
def RoutedStage.seeks : RoutedStage → Bool
  | .asking .. | .choosing .. => true
  | _ => false

namespace Manager

variable {env : ManagerEnvironment} {sc sc' : Scene} {e : Event} {m m' : Manager}
  {κ : Nat → SessionKey} {key : SessionKey} {slot n i now : Nat} {t t' : Task} {uri : Uri}
  {action : RoutedAction} {stage : RoutedStage}

/-! ### The preferred candidate -/

/-- A candidate is preferred for an open document, then for its depth, then for its language. -/
theorem Candidate.before_iff (a b : Candidate) : a.before b = true ↔
    (a.isOpen = true ∧ b.isOpen = false) ∨ (a.isOpen = b.isOpen ∧
      (b.depth < a.depth ∨ (a.depth = b.depth ∧ a.language ≤ b.language))) := by
  unfold before
  by_cases ho : a.isOpen = b.isOpen
  · by_cases hd : a.depth = b.depth
    · simp [ho, hd]
    · simp [ho, hd]
  · have hb : b.isOpen = !a.isOpen := by
      rw [Bool.eq_not]
      exact fun h => ho h.symm
    simp [hb]

theorem Candidate.before_total (a b : Candidate) : (a.before b || b.before a) = true := by
  rw [Bool.or_eq_true, before_iff, before_iff]
  by_cases ho : a.isOpen = b.isOpen
  · rcases Nat.lt_trichotomy a.depth b.depth with hd | hd | hd
    · exact .inr (.inr ⟨ho.symm, .inl hd⟩)
    · rcases String.le_total a.language b.language with hl | hl
      · exact .inl (.inr ⟨ho, .inr ⟨hd, hl⟩⟩)
      · exact .inr (.inr ⟨ho.symm, .inr ⟨hd.symm, hl⟩⟩)
    · exact .inl (.inr ⟨ho, .inl hd⟩)
  · rw [← ne_eq, ← Bool.eq_not] at ho
    rcases Bool.eq_false_or_eq_true b.isOpen with hb | hb
    · exact .inr (.inl ⟨hb, by rw [ho, hb]; rfl⟩)
    · exact .inl (.inl ⟨by rw [ho, hb]; rfl, hb⟩)

theorem Candidate.before_trans (a b c : Candidate) (h : a.before b = true)
    (h' : b.before c = true) : a.before c = true := by
  rw [before_iff] at h h' ⊢
  rcases h with ⟨ha, hb⟩ | ⟨ho, hd⟩
  · rcases h' with ⟨hb', -⟩ | ⟨ho', -⟩
    · rw [hb] at hb'
      cases hb'
    · exact .inl ⟨ha, ho' ▸ hb⟩
  · rcases h' with ⟨hb', hc⟩ | ⟨ho', hd'⟩
    · exact .inl ⟨ho ▸ hb', hc⟩
    · refine .inr ⟨ho.trans ho', ?_⟩
      rcases hd with hlt | ⟨heq, hl⟩ <;> rcases hd' with hlt' | ⟨heq', hl'⟩
      · exact .inl (by omega)
      · exact .inl (by omega)
      · exact .inl (by omega)
      · exact .inr ⟨by omega, String.le_trans hl hl'⟩

/-- **A candidate that has the document open is chosen** if there is one. -/
theorem exists_choose_isOpen {known : List Candidate} {c : Candidate} (hc : c ∈ known)
    (hopen : c.isOpen = true) :
    ∃ d ∈ known, d.isOpen = true ∧ choose known = some d.session := by
  have hsorted := List.pairwise_mergeSort Candidate.before_trans Candidate.before_total known
  have hmem : c ∈ known.mergeSort Candidate.before := List.mem_mergeSort.mpr hc
  unfold choose
  rcases hl : known.mergeSort Candidate.before with _ | ⟨d, rest⟩
  · rw [hl] at hmem
    exact absurd hmem List.not_mem_nil
  · have hd : d ∈ known.mergeSort Candidate.before := by
      rw [hl]
      exact List.mem_cons_self
    refine ⟨d, List.mem_mergeSort.mp hd, ?_, rfl⟩
    rw [hl] at hmem hsorted
    rcases List.mem_cons.mp hmem with rfl | hrest
    · exact hopen
    · -- what comes first is preferred to the one that has it open, so it has it open as well
      have hbefore := List.rel_of_pairwise_cons hsorted hrest
      rcases (Candidate.before_iff d c).mp hbefore with ⟨hd, -⟩ | ⟨ho, -⟩
      · exact hd
      · rw [ho, hopen]

/-! ### Keys and their roots -/

/-- A key stays with its task, and comes with the root that was found for the document. -/
theorem EnsureStep.key? {language text : String} {stage : EnsureStage}
    (h : EnsureStep env now n language text m stage m' t) (hk : t.key? = some key) :
    (Task.ensure language text stage).key? = some key ∨
      ∃ (path : Path) (uri : Uri),
        (path.absolute env.host.directory).toUri? env.host.directory = some uri ∧
        key = ⟨Workspace.findRoot env.markers m.install.files env.host.directory
          (path.absolute env.host.directory), language⟩ := by
  cases h with
  | root path uri huri =>
    cases hk
    exact .inr ⟨path, uri, huri, rfl⟩
  | nameless | meet | served | fill | abandon | leave | openDocument | done => cases hk
  | _ => exact .inl hk

/-- A key comes into the table by a task that has it. -/
theorem EnsureStep.key_of_mem {language text : String} {stage : EnsureStage}
    (h : EnsureStep env now n language text m stage m' t) {x : SessionKey × Nat}
    (hx : x ∈ m'.table) :
    (∃ x' ∈ m.table, x'.1 = x.1) ∨ (Task.ensure language text stage).key? = some x.1 := by
  cases h with
  | fresh | replace =>
    rcases key_of_mem_bind hx with hx | hx
    · exact .inr (by rw [hx]; rfl)
    · exact .inl hx
  | dispose _ _ _ _ hs | greet _ _ _ _ hs | openDocument _ hs =>
    rw [hs.stirs.table] at hx
    exact .inl ⟨x, hx, rfl⟩
  | queue =>
    rw [enterSlot_table] at hx
    exact .inl ⟨x, hx, rfl⟩
  | leave =>
    rw [leaveSlot_table] at hx
    exact .inl ⟨x, hx, rfl⟩
  | abandon =>
    obtain ⟨hx, -⟩ := List.mem_filter.mp hx
    rw [leaveSlot_table] at hx
    exact .inl ⟨x, hx, rfl⟩
  | _ => exact .inl ⟨x, hx, rfl⟩

/-- **All keys have roots that are paths of names.** -/
structure Named (sc : Scene) : Prop where
  table : ∀ x ∈ sc.manager.table, x.1.root.IsNamed
  tasks : ∀ (n : Nat) (t : Task) (key : SessionKey), sc.tasks[n]? = some t →
    t.key? = some key → key.root.IsNamed

theorem named_start (files : FileTree) (now : Nat) : Named (.start files now) where
  table := fun _ hx => absurd hx List.not_mem_nil
  tasks := fun _ _ _ hn => by cases hn

/-- A document that has a URI has a path of names, and its root is a beginning of it. -/
theorem exists_names_of_toUri? {path : Path} (hd : env.host.directory.isAbsolute = true)
    (huri : (path.absolute env.host.directory).toUri? env.host.directory = some uri)
    (files : FileTree) : ∃ names k, (∀ b ∈ names, IsName b) ∧
      path.absolute env.host.directory = ofNames names ∧
      Workspace.findRoot env.markers files env.host.directory
        (path.absolute env.host.directory) = ofNames (names.take k) := by
  -- the empty path has no URI
  have hne : path.bytes ≠ [] := by
    intro hnil
    have habs : (path.absolute env.host.directory).bytes = [] := by
      have hpath : path = ⟨[]⟩ := by
        obtain ⟨bytes⟩ := path
        exact congrArg _ hnil
      rw [hpath]
      rfl
    rw [Path.toUri?, habs] at huri
    cases huri
  obtain ⟨names, hnames, heq⟩ := exists_names_absolute hd hne
  obtain ⟨k, hk⟩ := Workspace.exists_findRoot_eq hnames env.markers files env.host.directory
  exact ⟨names, k, hnames, heq, by rw [heq, hk]⟩

theorem Named.step (h : Named sc) (hd : env.host.directory.isAbsolute = true)
    (hs : Step env sc e sc') : Named sc' := by
  rcases e with ⟨n, t, t'⟩ | _
  · obtain ⟨m', hn, ht, rfl⟩ := hs.of_advanced
    by_cases hensure : ∃ language text stage, t = .ensure language text stage
    · obtain ⟨language, text, stage, rfl⟩ := hensure
      have he := ht.ensureStep
      refine ⟨fun x hx => ?_, fun k y key hk hkey => ?_⟩
      -- a key in the table was there before, or its task has it
      · rcases he.key_of_mem hx with ⟨x', hx', heq⟩ | hkey
        · rw [← heq]
          exact h.table x' hx'
        · exact h.tasks n _ _ hn hkey
      · rcases getElem?_set_cases hk with ⟨-, rfl⟩ | ⟨-, hk⟩
        · rcases he.key? hkey with hkey | ⟨path, uri, huri, rfl⟩
          · exact h.tasks n _ _ hn hkey
          · obtain ⟨names, r, hnames, -, hroot⟩ :=
              exists_names_of_toUri? hd huri sc.manager.install.files
            exact ⟨_, fun b hb => hnames b (List.mem_of_mem_take hb), hroot⟩
        · exact h.tasks k y key hk hkey
    · have hensure : ∀ language text stage, t ≠ .ensure language text stage :=
        fun l x s hc => hensure ⟨l, x, s, hc⟩
      have hnone : t'.key? = none := by
        rcases ht with _ | hr
        · exact absurd rfl (hensure _ _ _)
        · cases hr <;> rfl
        all_goals rfl
      refine ⟨fun x hx => ?_, fun k y key hk hkey => ?_⟩
      · rcases ht.stirs_or_drains hensure with hm | ⟨-, rfl⟩
        · exact h.table x (hm.table ▸ hx)
        · exact absurd hx List.not_mem_nil
      · rcases getElem?_set_cases hk with ⟨-, rfl⟩ | ⟨-, hk⟩
        · rw [hnone] at hkey
          cases hkey
        · exact h.tasks k y key hk hkey
  · obtain ⟨hm, -, -, htasks⟩ := hs.of_silent
    refine ⟨fun x hx => h.table x (hm.table ▸ hx), fun k y key hk hkey => ?_⟩
    rcases htasks with heq | ⟨z, hz, heq⟩
    · exact h.tasks k y key (heq ▸ hk) hkey
    · rw [heq] at hk
      rcases getElem?_concat_cases hk with rfl | hk
      · rw [Task.key?_of_isFresh hz] at hkey
        cases hkey
      · exact h.tasks k y key hk hkey

theorem Run.named {R : Scene → Event → Scene → Prop} {files : FileTree}
    (hd : env.host.directory.isAbsolute = true)
    (hR : ∀ {sc e sc'}, R sc e sc' → Step env sc e sc')
    (r : Run R (.start files now) sc) : Named sc :=
  r.invariant (fun h hs => h.step hd (hR hs)) (named_start files now)

/-- **The root of a document contains it**, and so does a root that the key does not tell
from it. -/
theorem within_of_same {names : List (List UInt8)} (h : ∀ b ∈ names, IsName b) {k : Nat}
    {a : SessionKey} (hroot : key.root = ofNames (names.take k)) (ha : a.root.IsNamed)
    (hsame : a.same key = true) (halike : a.Alike key) :
    (ofNames names).within a.root = true := by
  have hkey := within_take h k
  rcases halike with heq | ⟨hb, hb'⟩
  · rw [heq, hroot]
    exact hkey
  · obtain ⟨names', hnames', heq⟩ := ha
    obtain ⟨root, language⟩ := a
    obtain ⟨root', language'⟩ := key
    dsimp only at hroot heq hb hb'
    subst hroot heq
    rw [← within_congr (fun b hb => h b (List.mem_of_mem_take hb)) hnames' hb' hb
      (SessionKey.same_symm hsame)]
    exact hkey

/-- The session that the key of a document leads to is one of those whose root contains
the document. -/
theorem Named.mem_owners (h : Named sc) {names : List (List UInt8)}
    (hnames : ∀ b ∈ names, IsName b) {k : Nat} (hroot : key.root = ofNames (names.take k))
    (hslot : sc.manager.slotOf key = some slot) (hi : sc.manager.sessionIn slot = some i)
    (halike : ∀ x ∈ sc.manager.table, x.1.same key = true → x.1.Alike key) :
    i ∈ sc.manager.owners (ofNames names) := by
  obtain ⟨x, hx, hsame, rfl⟩ := exists_entry_of_slotOf hslot
  have hwithin := within_of_same hnames hroot (h.table x hx) hsame (halike x hx hsame)
  exact List.mem_filterMap.mpr ⟨x, hx, by rw [if_pos hwithin, hi]⟩

/-- Every owner is a session. -/
theorem Tidy.exists_of_mem_owners (h : Tidy κ sc) {path : Path}
    (hi : i ∈ sc.manager.owners path) : ∃ s, sc.manager.sessions[i]? = some s := by
  obtain ⟨x, -, hx⟩ := List.mem_filterMap.mp hi
  split at hx
  · obtain ⟨s, hs, -⟩ := h.filled x.2 i hx
    exact ⟨s, hs⟩
  · cases hx

/-! ### A search that cannot fail -/

/-- **A session is asked whether it has a document open**; the session `i` is known to have. -/
inductive Asks (m : Manager) (uri : Uri) (i j : Nat) : Operation → Prop
  | under {st : DocumentStage} : (∀ frame after, st ≠ .sending frame after) →
      Asks m uri i j (.document (.query uri) st)
  | told (b : Bool) : (b = true → m.HasOpen j uri) → (j = i → b = true) →
      Asks m uri i j (.returned (.ok (.flag b)))

/-- **A search in which a session that has the document open is found**: `i` is one of
those that are asked now or later, or it has been asked and counts as one that has the
document open. -/
inductive Searches (m : Manager) (uri : Uri) (i : Nat) : RoutedStage → Prop
  | asking {path : Path} {known : List Candidate} {j : Nat} {op : Operation} {rest : List Nat} :
      (∀ c ∈ known, c.isOpen = true → m.HasOpen c.session uri) →
      (∀ k ∈ j :: rest, ∃ s, m.sessions[k]? = some s) →
      (i ∈ j :: rest ∨ ∃ c ∈ known, c.isOpen = true) → Asks m uri i j op →
      Searches m uri i (.asking path uri known j op rest)
  | choosing {path : Path} {known : List Candidate} :
      (∀ c ∈ known, c.isOpen = true → m.HasOpen c.session uri) →
      (∃ c ∈ known, c.isOpen = true) → Searches m uri i (.choosing path uri known)

theorem Evolves.exists_session (he : Evolves m m') (h : ∃ s, m.sessions[i]? = some s) :
    ∃ s, m'.sessions[i]? = some s := by
  obtain ⟨s, hs⟩ := h
  obtain ⟨s', hs', -⟩ := he i s hs
  exact ⟨s', hs'⟩

theorem Searches.seeks (h : Searches m uri i stage) : stage.seeks = true := by
  rcases h with - | - <;> rfl

/-- A search closes nothing. -/
theorem Searches.closes (h : Searches m uri i stage) (n : Nat) (t : Task) {u : Uri} :
    (Event.advanced n (.routed action stage) t).closes u = false := by
  rcases h with ⟨-, -, -, hop⟩ | -
  · rcases hop with - | - <;> rfl
  · rfl

theorem Asks.mono {j : Nat} {op : Operation} (h : Asks m uri i j op)
    (hopen : ∀ k, m.HasOpen k uri → m'.HasOpen k uri) : Asks m' uri i j op := by
  rcases h with hst | ⟨b, hb, hi⟩
  · exact .under hst
  · exact .told b (fun h => hopen j (hb h)) hi

theorem Searches.mono (h : Searches m uri i stage)
    (hopen : ∀ k, m.HasOpen k uri → m'.HasOpen k uri) (he : Evolves m m') :
    Searches m' uri i stage := by
  rcases h with ⟨hknown, hex, hi, hop⟩ | ⟨hknown, hi⟩
  · exact .asking (fun c hc h => hopen _ (hknown c hc h))
      (fun k hk => he.exists_session (hex k hk)) hi (hop.mono hopen)
  · exact .choosing (fun c hc h => hopen _ (hknown c hc h)) hi

/-- The search goes on with the sessions that are left. -/
theorem searches_askNext {path : Path} {known : List Candidate} {rest : List Nat}
    (hknown : ∀ c ∈ known, c.isOpen = true → m.HasOpen c.session uri)
    (hex : ∀ k ∈ rest, ∃ s, m.sessions[k]? = some s)
    (hi : i ∈ rest ∨ ∃ c ∈ known, c.isOpen = true) :
    Searches m uri i (askNext path uri known rest) := by
  rcases rest with _ | ⟨j, rest⟩
  · exact .choosing hknown (hi.resolve_left List.not_mem_nil)
  · exact .asking hknown hex hi (.under fun _ _ h => by cases h)

/-- **A session that is asked answers by what is in its map.** -/
theorem SessionStep.asked {j : Nat} {st : DocumentStage} {op' : Operation}
    (h : SessionStep env now n m j (.document (.query uri) st) m' op')
    (hst : ∀ frame after, st ≠ .sending frame after) :
    (∃ st', op' = .document (.query uri) st' ∧ ∀ frame after, st' ≠ .sending frame after) ∨
      ∃ b, op' = .returned (.ok (.flag b)) ∧ (b = true ↔ m.HasOpen j uri) ∧
        (b = true ↔ m'.HasOpen j uri) := by
  obtain @⟨s, s', op', hj, ho⟩ := h
  obtain ⟨hlt, -⟩ := List.getElem?_eq_some_iff.mp hj
  have hj' : (m.setSession j s').sessions[j]? = some s' := List.getElem?_set_self hlt
  rcases ho with _ | _ | hd
  rcases hd with _ | _ | hl | ⟨frame, after⟩ | ⟨frame, after⟩
  · exact .inl ⟨_, rfl, fun _ _ h => by cases h⟩
  · exact .inl ⟨_, rfl, fun _ _ h => by cases h⟩
  · rcases hl with ⟨u, hu⟩ | ⟨hne, -⟩ | ⟨_, _, _, -, ht, -⟩ | ⟨_, _, _, -, ht, -⟩ |
      ⟨_, _, -, ha, -⟩ | ⟨_, ha, -⟩
    · cases hu
      refine .inr ⟨_, rfl, ?_, ?_⟩
      · rw [HasOpen, sessionAt_eq hj]
      · rw [HasOpen, sessionAt_eq hj']
        exact Iff.rfl
    · exact absurd rfl (hne uri)
    · cases ht
    · cases ht
    · cases ha
    · cases ha
  · exact absurd rfl (hst frame after)
  · exact absurd rfl (hst frame after)

theorem Asks.step {j : Nat} {op op' : Operation} (h : Asks m uri i j op)
    (hopen : m.HasOpen i uri) (hs : SessionStep env now n m j op m' op') :
    Asks m' uri i j op' := by
  rcases h with hst | ⟨b, hb, hi⟩
  · rcases hs.asked hst with ⟨st', rfl, hst'⟩ | ⟨b, rfl, hb, hb'⟩
    · exact .under hst'
    · refine .told b hb'.mp ?_
      rintro rfl
      exact hb.mpr hopen
  · cases hs.result?_eq_none

/-- **A stage of the search keeps to it, or it ends with a session that has the document open.** -/
theorem Searches.step (h : Searches m uri i stage) (hopen : m.HasOpen i uri)
    (hs : RoutedStep env now n action m stage m' t)
    (hkeep : ∀ k, m.HasOpen k uri → m'.HasOpen k uri) (he : Evolves m m') :
    (∃ stage', t = .routed action stage' ∧ Searches m' uri i stage') ∨
      ∃ j, t = .routed action (.running j (RoutedAction.operation uri action)) ∧
        m'.HasOpen j uri := by
  rcases h with @⟨_, known, j, op, rest, hknown, hex, hi, hop⟩ | ⟨hknown, c, hc, hco⟩
  · cases hs with
    | ask _ _ _ _ _ hs =>
      refine .inl ⟨_, rfl, ?_⟩
      exact .asking (fun c hc h => hkeep _ (hknown c hc h))
        (fun k hk => he.exists_session (hex k hk)) hi (hop.step hopen hs)
    | told _ _ _ _ _ r =>
      refine .inl ⟨_, rfl, ?_⟩
      rcases hop with _ | ⟨b, hb, hbi⟩
      have hcand : (m.candidate j (foundOpen (.ok (.flag b)))).isOpen = b := rfl
      refine searches_askNext (fun c hc hco => ?_)
        (fun k hk => hex k (List.mem_cons_of_mem _ hk)) ?_
      -- the candidates so far, and the session that has just answered
      · rcases List.mem_append.mp hc with hc | hc
        · exact hknown c hc hco
        · obtain rfl := List.mem_singleton.mp hc
          exact hb hco
      · rcases hi with hi | ⟨c, hc, hco⟩
        · rcases List.mem_cons.mp hi with rfl | hi
          · exact .inr ⟨_, List.mem_append_right _ (List.mem_singleton_self _), hbi rfl⟩
          · exact .inl hi
        · exact .inr ⟨c, List.mem_append_left _ hc, hco⟩
  · obtain ⟨d, hd, hdo, hchoose⟩ := exists_choose_isOpen hc hco
    cases hs with
    | choose _ _ _ j hj =>
      rw [hchoose] at hj
      cases hj
      exact .inr ⟨_, rfl, hknown d hd hdo⟩
    | ownerless _ _ _ hnone =>
      rw [hchoose] at hnone
      cases hnone

/-! ### What a caller sees of it -/

/-- **A search that cannot fail**, as task `n`: it goes on, or another operation is before
it at the documents of a session that it asks; and it ends with a session that has the
document open. -/
structure Seeks (env : ManagerEnvironment) (sc : Scene) (n : Nat) (action : RoutedAction)
    (uri : Uri) (stage : RoutedStage) : Prop where
  goes : (∃ t sc', Step env sc (.advanced n (.routed action stage) t) sc') ∨
    ∃ j k, (Task.routed action stage).handles? = some (j, .document (.query uri) .queued) ∧
      k ≠ n ∧ (sc.manager.sessionAt j).documentQueue.head? = some k
  finds : ∀ t sc', Step env sc (.advanced n (.routed action stage) t) sc' →
    (∃ stage', t = .routed action stage' ∧ stage'.seeks = true) ∨
      ∃ j, t = .routed action (.running j (RoutedAction.operation uri action)) ∧
        sc'.manager.HasOpen j uri

/-- **A document is routable**: whoever asks now for the session that owns it does not fail,
and finds one that has the document open, if nobody closes the document meanwhile. -/
def Routable (env : ManagerEnvironment) (sc : Scene) (path : Path) (uri : Uri) : Prop :=
  ∀ (n : Nat) (action : RoutedAction) (t : Task) (sc' : Scene),
    Step env sc (.advanced n (.routed action (.begin path)) t) sc' →
      (∃ stage, t = .routed action stage ∧ stage.seeks = true) ∧
        ∀ (sc'' : Scene) (stage : RoutedStage), Run (Unclosed env uri) sc' sc'' →
          sc''.tasks[n]? = some (.routed action stage) → stage.seeks = true →
          Seeks env sc'' n action uri stage

/-- A task goes on if it has a stage. -/
theorem exists_step (branch : Nat) (hn : sc.tasks[n]? = some t)
    (h : (sc.manager.step env sc.now n branch t).isSome = true) :
    ∃ t' sc', Step env sc (.advanced n t t') sc' := by
  obtain ⟨⟨m', t', log⟩, h⟩ := Option.isSome_iff_exists.mp h
  exact ⟨t', _, .advance n branch t hn h⟩

/-- A question whether a document is open goes on, or it waits for its turn at the documents. -/
theorem Asks.goes {j : Nat} {op : Operation} {path : Path} {known : List Candidate}
    {rest : List Nat} (h : Asks sc.manager uri i j op) (ho : Ordered sc)
    (hj : ∃ s, sc.manager.sessions[j]? = some s)
    (hn : sc.tasks[n]? = some (.routed action (.asking path uri known j op rest))) :
    (sc.manager.step env sc.now n 0
      (.routed action (.asking path uri known j op rest))).isSome = true ∨
    ∃ k, op = .document (.query uri) .queued ∧ k ≠ n ∧
      (sc.manager.sessionAt j).documentQueue.head? = some k := by
  obtain ⟨s, hs⟩ := hj
  rcases h with @⟨st, hst⟩ | ⟨b, -, -⟩
  · -- a stage of the question is a stage of the task
    have lift : (s.stepDocument n (.query uri) st).isSome = true →
        (sc.manager.step env sc.now n 0 (.routed action
          (.asking path uri known j (.document (.query uri) st) rest))).isSome = true := by
      intro h
      obtain ⟨⟨s', op', log⟩, h⟩ := Option.isSome_iff_exists.mp h
      simp [Manager.step, stepRouted, stepSession, hs, Session.stepOperation, h]
    rcases st with _ | _ | _ | ⟨frame, after⟩
    · exact .inl (lift rfl)
    · have hplace := (ho.order j).placed n
      have hops : sc.documentOps j n = some (.query uri, .queued) := by
        simp [Scene.documentOps, hn, Task.document?, Task.handles?, Operation.document?]
      rw [hops, sessionAt_eq hs] at hplace
      rw [sessionAt_eq hs]
      have hmem : n ∈ s.documentQueue := by
        rcases hplace with _ | _ | hmem
        exact hmem
      obtain ⟨k, others, hq⟩ : ∃ k others, s.documentQueue = k :: others :=
        List.exists_cons_of_ne_nil (List.ne_nil_of_mem hmem)
      rcases eq_or_ne k n with rfl | hne
      · exact .inl (lift (by simp [Session.stepDocument, hq]))
      · exact .inr ⟨k, rfl, hne, by rw [hq]; rfl⟩
    · exact .inl (lift rfl)
    · exact absurd rfl (hst frame after)
  · exact .inl rfl

/-- **A search in which a session that has the document open is found cannot fail.** -/
theorem Searches.cannotFail (h : Searches sc.manager uri i stage)
    (hopen : sc.manager.HasOpen i uri) (ho : Ordered sc)
    (hn : sc.tasks[n]? = some (.routed action stage)) : Seeks env sc n action uri stage where
  goes := by
    rcases h with ⟨-, hex, -, hop⟩ | ⟨-, c, hc, hco⟩
    · rcases hop.goes ho (hex _ List.mem_cons_self) hn with hgo | ⟨k, rfl, hne, hk⟩
      · exact .inl (exists_step 0 hn hgo)
      · exact .inr ⟨_, k, rfl, hne, hk⟩
    · obtain ⟨d, -, -, hchoose⟩ := exists_choose_isOpen hc hco
      refine .inl (exists_step 0 hn ?_)
      simp [Manager.step, stepRouted, hchoose]
  finds := by
    intro t sc' hs
    have hunclosed : Unclosed env uri sc _ sc' := ⟨hs, h.closes n t⟩
    have hkeep : ∀ k, sc.manager.HasOpen k uri → sc'.manager.HasOpen k uri := fun k hk =>
      hk.step ho hunclosed
    obtain ⟨m', -, ht, rfl⟩ := hs.of_advanced
    have he := ht.evolves
    rcases h.step hopen ht.routedStep hkeep he with ⟨stage', rfl, h'⟩ | hfound
    · exact .inl ⟨stage', rfl, h'.seeks⟩
    · exact .inr hfound

/-- **Where a search is**, if it is one that cannot fail: it goes on, or it is over. -/
inductive Sought (m : Manager) (uri : Uri) (i : Nat) (action : RoutedAction) : Task → Prop
  | search {stage : RoutedStage} : Searches m uri i stage →
      Sought m uri i action (.routed action stage)
  | running (j : Nat) (op : Operation) : Sought m uri i action (.routed action (.running j op))
  | returned (r : Except LspError Answer) : Sought m uri i action (.returned r)

theorem Sought.step (h : Sought sc.manager uri i action t) (hn : sc.tasks[n]? = some t)
    (hopen : sc.manager.HasOpen i uri) (ho : Ordered sc) (hs : Unclosed env uri sc e sc') :
    ∃ t', sc'.tasks[n]? = some t' ∧ Sought sc'.manager uri i action t' := by
  have hkeep : ∀ k, sc.manager.HasOpen k uri → sc'.manager.HasOpen k uri := fun k hk =>
    hk.step ho hs
  have he := hs.1.evolves
  have hmono : Sought sc'.manager uri i action t := by
    rcases h with hsearch | ⟨j, op⟩ | r
    · exact .search (hsearch.mono hkeep he)
    · exact .running j op
    · exact .returned r
  obtain ⟨t', hn', rfl | ⟨-, ht⟩⟩ := hs.1.task hn
  · exact ⟨_, hn', hmono⟩
  · refine ⟨t', hn', ?_⟩
    rcases h with hsearch | ⟨j, op⟩ | r
    · rcases hsearch.step hopen ht.routedStep hkeep he with ⟨stage', rfl, h'⟩ | ⟨j, rfl, -⟩
      · exact .search h'
      · exact .running j _
    · generalize sc'.manager = m' at ht ⊢
      rcases ht.routedStep with _ | _ | _ | _ | _ | _ | _ | _
      · exact .running j _
      · exact .returned _
    · cases ht

/-- **A document is routable** if it is open in a session whose root in the table contains it. -/
theorem routable_of_owner {path : Path} (ho : Ordered sc) (h : Tidy κ sc)
    (huri : (path.absolute env.host.directory).toUri? env.host.directory = some uri)
    (hopen : sc.manager.HasOpen i uri)
    (hi : i ∈ sc.manager.owners (path.absolute env.host.directory)) :
    Routable env sc path uri := by
  intro n action t sc' hs
  have hunclosed : Unclosed env uri sc _ sc' := ⟨hs, rfl⟩
  have hopen' : sc'.manager.HasOpen i uri := hopen.step ho hunclosed
  have ho' : Ordered sc' := ho.step hs
  obtain ⟨m', hn, ht, rfl⟩ := hs.of_advanced
  rcases ht.routedStep with ⟨_, hnone⟩ | ⟨_, u, hu⟩
  · rw [huri] at hnone
    cases hnone
  · rw [huri] at hu
    obtain rfl := Option.some.inj hu
    have hsearch : Searches sc.manager uri i (askNext (path.absolute env.host.directory) uri []
        (sc.manager.owners (path.absolute env.host.directory))) :=
      searches_askNext (fun _ hc => absurd hc List.not_mem_nil)
        (fun k hk => h.exists_of_mem_owners hk) (.inl hi)
    refine ⟨⟨_, rfl, hsearch.seeks⟩, fun sc'' stage r hlast hseeks => ?_⟩
    -- the document stays open, so what the search knows of it stays true
    have hall : Ordered sc'' ∧ sc''.manager.HasOpen i uri ∧
        ∃ t, sc''.tasks[n]? = some t ∧ Sought sc''.manager uri i action t := by
      refine r.invariant (I := fun sc => Ordered sc ∧ sc.manager.HasOpen i uri ∧
        ∃ t, sc.tasks[n]? = some t ∧ Sought sc.manager uri i action t) ?_
        ⟨ho', hopen', _, getElem?_set_of_getElem? hn _, .search hsearch⟩
      rintro sc e sc' ⟨ho, hopen, t, hn, ht⟩ hs
      exact ⟨ho.step hs.1, hopen.step ho hs, ht.step hn hopen ho hs⟩
    obtain ⟨ho'', hopen'', t, hn'', ht⟩ := hall
    rw [hlast] at hn''
    obtain rfl := Option.some.inj hn''
    rcases ht with hsearch | _ | _
    · exact hsearch.cannotFail hopen'' ho'' hlast
    · cases hseeks

end Manager

end LanguageHub
