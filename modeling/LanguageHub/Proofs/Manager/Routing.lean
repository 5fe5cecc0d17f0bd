import LanguageHub.Proofs.Manager.Owners

/-!
# A document that was ensured is routable

An assurance of a session ends well when it has opened its document. What its caller
expects from then on is that the table leads from the key of the document to **the session
that has it open**, and that whoever looks for the owner of the document finds such a
session (`Manager.Assured`).

On the way from its key to its session an assurance keeps both of its goals, the URI of
the document and the key (`Manager.Pursues`). The session is one of the key because it
comes from a slot of the key, and a slot never loses its session
(`Manager.Tidy.sessionIn_step`). The document is open in it because the map that comes
with the frame of the opening has the document, and it stays so (`Manager.HasOpen.step`).

That the table leads to the session as well is not for the assurance to say, and it fails
as soon as a slot is abandoned (`Manager.ensured_routable`,
`Manager.exists_opened_unlisted`): the next creator at the slot opens its document in a
session that nobody finds. It does not help either that the table leads to the session if it
does so by another root that the key confuses with the one of the document
(`Manager.exists_unroutable`).
-/

namespace LanguageHub

open LanguageHub.Path

/-- What an assurance is after: the document and the key. -/
def EnsureStage.goal? : EnsureStage → Option (Uri × SessionKey)
  | .rooted uri key | .replacing uri key _ _ _ | .entering uri key _ | .queued uri key _
  | .installing uri key _ _ _ | .launching uri key _ _ _
  | .handshaking uri key _ _ _ => some (uri, key)
  | _ => none

/-- The session in which an assurance has opened its document, when its opening has ended well. -/
def Task.opened? : Task → Option Nat
  | .ensure _ _ (.opening i (.returned (.ok _))) => some i
  | _ => none

/-- Whether a task assures a session, or has ended. -/
def Task.assures : Task → Bool
  | .ensure .. | .returned _ => true
  | _ => false

theorem SessionState.ready_or_isTerminal {st : SessionState} (h : 2 ≤ st.rank) :
    st = .ready ∨ st.isTerminal = true := by
  rw [isTerminal_iff]
  rcases Nat.lt_or_ge 2 st.rank with hlt | hle
  · exact .inr hlt
  · have heq : st.rank = 2 := by omega
    cases st <;> first | exact .inl rfl | cases heq

namespace Manager

variable {env : ManagerEnvironment} {sc sc' : Scene} {e : Event} {m m' : Manager}
  {κ : Nat → SessionKey} {key : SessionKey} {slot n i now : Nat} {t t' : Task} {uri : Uri}
  {path : Path} {language text : String} {op op' : Operation}

/-! ### Slots keep their sessions -/

/-- **A slot keeps its session.** -/
theorem Tidy.sessionIn_step (h : Tidy κ sc) (hs : Step env sc e sc')
    (hi : sc.manager.sessionIn slot = some i) : sc'.manager.sessionIn slot = some i := by
  rcases e with ⟨n, t, t'⟩ | _
  · obtain ⟨m', hn, ht, rfl⟩ := hs.of_advanced
    by_cases hensure : ∃ language text stage, t = .ensure language text stage
    · obtain ⟨language, text, stage, rfl⟩ := hensure
      rw [← hi]
      cases ht.ensureStep with
      | dispose _ _ _ _ ho | greet _ _ _ _ ho | openDocument _ ho => exact ho.stirs.sessionIn slot
      | fresh | replace =>
        rw [Scene.after]
        exact sessionIn_bind_newSlot
      | queue => exact sessionIn_enterSlot
      | abandon => exact sessionIn_leaveSlot
      | leave => exact sessionIn_leaveSlot
      | fill uri key slot' j =>
        -- only an empty slot is filled
        obtain ⟨ha, hh, -⟩ := h.seated n _ hn
        have hne : slot ≠ slot' := by
          rintro rfl
          rw [hh.empty] at hi
          cases hi
        exact (sessionIn_setSlot ha.bound _).trans (if_neg hne)
      | _ => rfl
    · rcases ht.stirs_or_drains fun l x s hc => hensure ⟨l, x, s, hc⟩ with hm | ⟨-, rfl⟩
      · exact (hm.sessionIn slot).trans hi
      · exact hi
  · exact (hs.of_silent.1.sessionIn slot).trans hi

/-! ### The way of an assurance -/

/-- **What an assurance comes to** that is after a document and a key: it keeps to both,
until it opens the document in a session of the key, or fails. -/
inductive Pursues (m : Manager) (uri : Uri) (key : SessionKey) : Task → Prop
  | pursuing {language text : String} {stage : EnsureStage} : stage.goal? = some (uri, key) →
      Pursues m uri key (.ensure language text stage)
  | failing (language text : String) (key' : SessionKey) (slot : Nat) (e : LspError) :
      Pursues m uri key (.ensure language text (.failing key' slot e))
  | opening (language text : String) {slot i : Nat} {s : Session} {op : Operation} :
      m.sessionIn slot = some i → m.sessions[i]? = some s → s.key.same key = true →
      ((∃ l x st, op = .document (.openText uri l x) st) ∨ ∃ r, op = .returned r) →
      Pursues m uri key (.ensure language text (.opening i op))
  | returned (r : Except LspError Answer) : Pursues m uri key (.returned r)

theorem Pursues.mono (h : Pursues m uri key t)
    (hin : ∀ slot i, m.sessionIn slot = some i → m'.sessionIn slot = some i)
    (he : Evolves m m') : Pursues m' uri key t := by
  rcases h with hgoal | ⟨l, x, k, slot, e⟩ | ⟨l, x, hi, hs, hk, hop⟩ | r
  · exact .pursuing hgoal
  · exact .failing l x k slot e
  · obtain ⟨s', hs', hl⟩ := he _ _ hs
    exact .opening l x (hin _ _ hi) hs' (by rw [hl.key]; exact hk) hop
  · exact .returned r

/-- An opening of a document remains one until it has ended. -/
theorem SessionStep.openText {l x : String} {st : DocumentStage}
    (hs : SessionStep env now n m i (.document (.openText uri l x) st) m' op') :
    (∃ l x st, op' = .document (.openText uri l x) st) ∨ ∃ r, op' = .returned r := by
  obtain ⟨-, ho⟩ := hs
  rcases ho with _ | _ | hd
  rcases hd with _ | _ | hl | _ | _
  · exact .inl ⟨l, x, _, rfl⟩
  · exact .inl ⟨l, x, _, rfl⟩
  · rcases hl with _ | _ | _ | _ | _ | _
    · exact .inr ⟨_, rfl⟩
    · exact .inr ⟨_, rfl⟩
    · exact .inl ⟨l, x, _, rfl⟩
    · exact .inl ⟨l, x, _, rfl⟩
    · exact .inl ⟨l, x, _, rfl⟩
    · exact .inr ⟨_, rfl⟩
  · exact .inr ⟨_, rfl⟩
  · exact .inr ⟨_, rfl⟩

/-- The session in a slot of a key is one of the key. -/
theorem Tidy.exists_of_at (h : Tidy κ sc) {o : List Nat} (ha : At κ sc.manager o key slot)
    (hi : sc.manager.sessionIn slot = some i) :
    ∃ s, sc.manager.sessions[i]? = some s ∧ s.key.same key = true := by
  obtain ⟨s, hs, hk, -⟩ := h.filled slot i hi
  exact ⟨s, hs, SessionKey.same_trans hk (SessionKey.same_symm ha.same)⟩

/-- **An assurance keeps to its goals.** -/
theorem Pursues.ensure {stage : EnsureStage}
    (h : Pursues sc.manager uri key (.ensure language text stage))
    (htidy : Tidy κ sc) (hn : sc.tasks[n]? = some (.ensure language text stage))
    (hs : EnsureStep env sc.now n language text sc.manager stage m' t')
    (hin : ∀ slot i, sc.manager.sessionIn slot = some i → m'.sessionIn slot = some i)
    (he : Evolves sc.manager m') : Pursues m' uri key t' := by
  have hseat := htidy.seated n _ hn
  cases h with
  | pursuing hgoal =>
    cases hs with
    | nameless | root | abandon | leave | openDocument | done => cases hgoal
    | unknown | uninstalled | malformed | unlaunched | ungreeted => exact .failing _ _ _ _ _
    | meet u k slot session hi | served u k slot session hi =>
      cases hgoal
      obtain ⟨s, hs, hk⟩ := htidy.exists_of_at hseat hi
      exact .opening _ _ hi hs hk (.inl ⟨_, _, _, rfl⟩)
    | fill u k slot session o =>
      cases hgoal
      obtain ⟨ha, -, s, hs, rfl, -⟩ := hseat
      exact .opening _ _ ((sessionIn_setSlot ha.bound _).trans (if_pos rfl)) hs
        (SessionKey.same_refl _) (.inl ⟨_, _, _, rfl⟩)
    | _ => exact .pursuing hgoal
  | failing => cases hs <;> exact .returned _
  | opening _ _ hi hs' hk hop =>
    cases hs with
    | openDocument _ ho =>
      obtain ⟨s', hs'', hl⟩ := he _ _ hs'
      refine .opening _ _ (hin _ _ hi) hs'' (by rw [hl.key]; exact hk) ?_
      rcases hop with ⟨l, x, st, rfl⟩ | ⟨r, rfl⟩
      · exact ho.openText
      · exact absurd ho.result?_eq_none (by simp [Operation.result?])
    | done => exact .returned _

theorem Pursues.step (h : Pursues sc.manager uri key t) (htidy : Tidy κ sc)
    (hn : sc.tasks[n]? = some t) (hs : Step env sc e sc') :
    ∃ t', sc'.tasks[n]? = some t' ∧ Pursues sc'.manager uri key t' := by
  have hin : ∀ slot i, sc.manager.sessionIn slot = some i → sc'.manager.sessionIn slot = some i :=
    fun _ _ => htidy.sessionIn_step hs
  have hmono := h.mono hin hs.evolves
  obtain ⟨t', hn', rfl | ⟨-, ht⟩⟩ := hs.task hn
  · exact ⟨_, hn', hmono⟩
  · refine ⟨t', hn', ?_⟩
    rcases t with ⟨l, y, stage⟩ | _ | _ | _ | _ | _ | _
    · exact h.ensure htidy hn ht.ensureStep hin hs.evolves
    all_goals cases h
    cases ht

theorem Run.pursues (r : Run (Step env) sc sc') (htidy : ∃ κ, Tidy κ sc)
    (hn : sc.tasks[n]? = some t) (h : Pursues sc.manager uri key t) :
    ∃ t', sc'.tasks[n]? = some t' ∧ Pursues sc'.manager uri key t' := by
  have hall : (∃ κ, Tidy κ sc') ∧ ∃ t', sc'.tasks[n]? = some t' ∧
      Pursues sc'.manager uri key t' := by
    refine r.invariant (I := fun sc => (∃ κ, Tidy κ sc) ∧
      ∃ t, sc.tasks[n]? = some t ∧ Pursues sc.manager uri key t) ?_ ⟨htidy, t, hn, h⟩
    rintro sc e sc' ⟨⟨κ, htidy⟩, t, hn, h⟩ hs
    exact ⟨htidy.step hs, h.step htidy hn hs⟩
  exact hall.2

/-- A task that has ended stays so. -/
theorem Run.returned (r : Run (Step env) sc sc') {a : Except LspError Answer}
    (hn : sc.tasks[n]? = some (.returned a)) : sc'.tasks[n]? = some (.returned a) := by
  refine r.invariant (I := fun sc => sc.tasks[n]? = some (.returned a)) ?_ hn
  rintro sc e sc' hn hs
  obtain ⟨t', hn', rfl | ⟨-, ht⟩⟩ := hs.task hn
  · exact hn'
  · cases ht

/-- **A call that is still an assurance is after the document and the key** that were
found when it began. -/
theorem exists_pursues {files : FileTree} {sc₀ sc₁ sc₂ : Scene} {language' text' : String}
    {stage : EnsureStage} (before : Run (Step env) (.start files now) sc₀)
    (begins : Step env sc₀ (.advanced n (.ensure language text (.begin path)) t) sc₁)
    (meanwhile : Run (Step env) sc₁ sc₂)
    (hn₂ : sc₂.tasks[n]? = some (.ensure language' text' stage)) :
    ∃ uri key, (path.absolute env.host.directory).toUri? env.host.directory = some uri ∧
      key = ⟨Workspace.findRoot env.markers sc₀.manager.install.files env.host.directory
        (path.absolute env.host.directory), language⟩ ∧
      Pursues sc₂.manager uri key (.ensure language' text' stage) := by
  have htidy : ∃ κ, Tidy κ sc₁ := Run.tidy (fun hs => hs) (before.tail ⟨_, begins⟩)
  obtain ⟨m₁, hn₀, ht, rfl⟩ := begins.of_advanced
  have hn₁ := getElem?_set_of_getElem? hn₀ t
  rcases ht.ensureStep with _ | ⟨_, uri, huri⟩
  · have hend := meanwhile.returned hn₁
    rw [hn₂] at hend
    cases hend
  · refine ⟨uri, _, huri, rfl, ?_⟩
    obtain ⟨t', hn', h⟩ := meanwhile.pursues htidy hn₁ (.pursuing rfl)
    rw [hn₂] at hn'
    obtain rfl := Option.some.inj hn'
    exact h

/-- What has opened its document was opening it. -/
theorem TaskStep.of_opened? {id : Nat} (h : TaskStep env now id m t m' t')
    (hopened : t'.opened? = some i) : ∃ (language text : String) (op : Operation) (o : Outcome),
      t = .ensure language text (.opening i op) ∧
      SessionStep env now id m i op m' (.returned (.ok o)) := by
  unfold Task.opened? at hopened
  split at hopened
  · obtain rfl := Option.some.inj hopened
    cases h with
    | ensure he =>
      cases he with
      | openDocument _ hs => exact ⟨_, _, _, _, rfl, hs⟩
    | routed hr =>
      rename_i stage _ _ _
      cases stage <;> cases hr
  · cases hopened

/-- **An opening that ends well leaves the document open.** -/
theorem Ordered.hasOpen_of_opened {l x : String} {st : DocumentStage} {o : Outcome}
    (h : Ordered sc) (hn : sc.tasks[n]? = some (.ensure language text
      (.opening i (.document (.openText uri l x) st))))
    (hs : SessionStep env now n sc.manager i (.document (.openText uri l x) st) m'
      (.returned (.ok o))) : m'.HasOpen i uri := by
  have hops : sc.documentOps i n = some (.openText uri l x, st) := by
    simp [Scene.documentOps, hn, Task.document?, Task.handles?, Operation.document?]
  obtain @⟨s, s', _, hi, ho⟩ := hs
  obtain ⟨hlt, -⟩ := List.getElem?_eq_some_iff.mp hi
  have hi' : (sc.manager.setSession i s').sessions[i]? = some s' := List.getElem?_set_self hlt
  rw [HasOpen, sessionAt_eq hi']
  rcases ho with _ | _ | hd
  rcases hd with _ | _ | hl | ⟨frame, after⟩ | _
  · rcases hl with ⟨_, ha⟩ | _ | _ | _ | _ | ⟨_, ha, -⟩
    · cases ha
    · cases ha
  · -- the map that came with the frame has the document
    have hp := (h.order i).prepared hops
    rw [sessionAt_eq hi] at hp
    change (after.version? uri.text).isSome = true
    rcases hp with ⟨u, _, _, hu, -⟩ | ⟨u, _, _, hu, -⟩
    · cases hu
      rw [Documents.version?_set, if_pos rfl]
      rfl
    · cases hu
      rw [Documents.version?_set, if_pos rfl]
      rfl

/-! ### What an assurance leaves behind -/

/-- **What an assurance for a path leaves behind** when it has ended well, with its
document `uri`, its key and its session `i`. -/
structure Assured (env : ManagerEnvironment) (sc : Scene) (path : Path) (uri : Uri)
    (key : SessionKey) (i : Nat) : Prop where
  /-- The session is one of the key, its handshake is over, and **the table leads to it**,
  unless its slot was abandoned, a shutdown has drained it, or it has ended. -/
  shown : ∃ slot s, sc.manager.sessionIn slot = some i ∧ sc.manager.sessions[i]? = some s ∧
    s.key.same key = true ∧ (s.state = .ready ∨ s.state.isTerminal = true) ∧
    (sc.manager.slotOf key = some slot ∨ slot ∈ sc.abandoned ∨ i ∈ sc.drained ∨
      s.state.isTerminal = true)
  isOpen : sc.manager.HasOpen i uri
  /-- The document **can be found** while nobody closes it and the table leads to the
  session, from a root that the key does not confuse with its own. -/
  routable : ∀ sc' slot, Run (Unclosed env uri) sc sc' → sc'.manager.slotOf key = some slot →
    sc'.manager.sessionIn slot = some i →
    (∀ x ∈ sc'.manager.table, x.1.same key = true → x.1.Alike key) →
    Routable env sc' path uri

/-- **An assurance that ends well leaves its document open and routable.** However tasks,
servers and sessions take their turns: from the moment at which a call for a path looks up
its root and URI to the moment at which its opening ends well, and the call with it. -/
theorem ensured_routable {files : FileTree} {sc₀ sc₁ sc₂ sc₃ : Scene} {t₁ t₂ t₃ : Task}
    (hd : env.host.directory.isAbsolute = true)
    (before : Run (Step env) (.start files now) sc₀)
    (begins : Step env sc₀ (.advanced n (.ensure language text (.begin path)) t₁) sc₁)
    (meanwhile : Run (Step env) sc₁ sc₂)
    (ends : Step env sc₂ (.advanced n t₂ t₃) sc₃) (hopened : t₃.opened? = some i) :
    ∃ uri key, (path.absolute env.host.directory).toUri? env.host.directory = some uri ∧
      key = ⟨Workspace.findRoot env.markers sc₀.manager.install.files env.host.directory
        (path.absolute env.host.directory), language⟩ ∧
      Assured env sc₃ path uri key i := by
  -- the moment before the opening ends, and the moment after
  have run₂ : Run (Step env) (.start files now) sc₂ := (before.tail ⟨_, begins⟩).trans meanwhile
  have run₃ : Run (Step env) (.start files now) sc₃ := run₂.tail ⟨_, ends⟩
  obtain ⟨κ₂, htidy₂⟩ := run₂.tidy fun hs => hs
  obtain ⟨κ, htidy⟩ := run₃.tidy fun hs => hs
  have hkeeps : ∀ {slot j}, sc₂.manager.sessionIn slot = some j →
      sc₃.manager.sessionIn slot = some j := htidy₂.sessionIn_step ends
  obtain ⟨m₃, hn₂, hend, rfl⟩ := ends.of_advanced
  obtain ⟨language', text', op, o, rfl, hstep⟩ := hend.of_opened? hopened
  obtain ⟨uri, key, huri, hkey, hpursues⟩ := exists_pursues before begins meanwhile hn₂
  refine ⟨uri, key, huri, hkey, ?_⟩
  cases hpursues with
  | pursuing hgoal => cases hgoal
  | opening _ _ hin hs hk hop =>
    obtain ⟨l, x, st, rfl⟩ : ∃ l x st, op = .document (.openText uri l x) st := by
      rcases hop with hop | ⟨r, rfl⟩
      · exact hop
      · exact absurd hstep.result?_eq_none (by simp [Operation.result?])
    have hopen := (run₂.ordered fun hs => hs).hasOpen_of_opened hn₂ hstep
    obtain ⟨s, hs₃, hk₃, hrank, hshown⟩ := htidy.filled _ i (hkeeps hin)
    obtain ⟨s', hs', hl⟩ := hend.evolves i _ hs
    -- the session in the slot is the one that the assurance has got
    obtain rfl : s' = s := Option.some.inj (hs'.symm.trans hs₃)
    have hkey₃ : s'.key.same key = true := by
      rw [hl.key]
      exact hk
    refine ⟨⟨_, s', hkeeps hin, hs₃, hkey₃, SessionState.ready_or_isTerminal hrank, ?_⟩, hopen, ?_⟩
    · rw [slotOf_congr _ (SessionKey.same_trans (SessionKey.same_symm hkey₃) hk₃)]
      rcases hshown with ht | hdrained | hab | hc
      · exact .inr (.inr (.inr ht))
      · exact .inr (.inr (.inl hdrained))
      · exact .inr (.inl hab)
      · exact .inl hc
    -- whoever asks later finds the session among the owners of the document
    · intro sc' slot r hslot hin' halike
      have run' : Run (Step env) (.start files now) sc' := run₃.trans (r.mono fun hs => hs.1)
      obtain ⟨κ', htidy'⟩ := run'.tidy fun hs => hs
      have hopen' : Ordered sc' ∧ sc'.manager.HasOpen i uri := by
        refine r.invariant (I := fun sc => Ordered sc ∧ sc.manager.HasOpen i uri) ?_
          ⟨run₃.ordered fun hs => hs, hopen⟩
        rintro sc e sc' ⟨ho, h⟩ hs
        exact ⟨ho.step hs.1, h.step ho hs⟩
      obtain ⟨names, k, hnames, hpath, hroot⟩ :=
        exists_names_of_toUri? hd huri sc₀.manager.install.files
      refine routable_of_owner hopen'.1 htidy' huri hopen'.2 ?_
      rw [hpath]
      exact (run'.named hd fun hs => hs).mem_owners hnames (by rw [hkey, hroot]) hslot hin' halike

/-- The output of a server that answers the first request. -/
def greeting : List UInt8 :=
  [67, 111, 110, 116, 101, 110, 116, 45, 76, 101, 110, 103, 116, 104, 58, 32, 49, 57, 13, 10, 13,
    10, 123, 34, 105, 100, 34, 58, 49, 44, 34, 114, 101, 115, 117, 108, 116, 34, 58, 48, 125]

/-- A server is installed at the root. -/
def shelf : FileTree := ⟨[([[0x73]], .file [] true)]⟩

/-- An environment with that server; its first launches may fail. -/
def staffed (failures : Nat) : ManagerEnvironment where
  host := { (default : Host) with directory := ⟨[0x2F]⟩ }
  installer := ⟨⟨[⟨"analyzer", "1", ["rust"], true, "", [(⟨.linux, .x64⟩, ⟨"", "/s"⟩)]⟩]⟩,
    ⟨[0x2F]⟩, some ⟨.linux, .x64⟩, { (default : Host) with directory := ⟨[0x2F]⟩ }⟩
  web := ⟨fun _ => .unreachable "", fun _ _ => ⟨[], none⟩⟩
  markers := ⟨[]⟩
  timeouts := .standard
  launch := fun k _ => if k < failures then .error "" else .ok none

/-- **A document is routable** after the only call for it. -/
theorem ensured_routable_alone : ∃ sc uri, Run (Step (staffed 0)) (.start shelf 0) sc ∧
    sc.manager.HasOpen 0 uri ∧ sc.manager.listed = [0] ∧
    Routable (staffed 0) sc ⟨[0x2F, 0x61]⟩ uri := by
  obtain ⟨sc₀, hsc₀⟩ : ∃ sc₀ : Scene, sc₀ = { Scene.start shelf 0 with tasks := [visitor] } :=
    ⟨_, rfl⟩
  have called : Run (Step (staffed 0)) (.start shelf 0) sc₀ := by
    rw [hsc₀]
    exact .tail .refl ⟨_, .call visitor rfl⟩
  have hplay : (sc₀.manager.step (staffed 0) sc₀.now 0 0 visitor).any (fun x =>
      ((sc₀.after 0 visitor x.1 x.2.1).play (staffed 0) (fun _ _ _ => true)
        (List.replicate 11 (.advance 0 0) ++ [.output 0 greeting, .background 0 .reader] ++
          List.replicate 8 (.advance 0 0))).any fun sc =>
        (sc.tasks[0]?).any fun t => (sc.manager.step (staffed 0) sc.now 0 0 t).any fun y =>
          y.2.1.opened? == some 0 && (sc.after 0 t y.1 y.2.1).abandoned == [] &&
            (sc.after 0 t y.1 y.2.1).drained == [] && y.1.stateOf 0 == .ready &&
            y.1.listed == [0] && y.1.table == [(⟨⟨[0x2F]⟩, "rust"⟩, 0)]) = true := by
    rw [hsc₀]
    decide +kernel
  obtain ⟨⟨m₁, t₁, log₁⟩, hbegin, hplay⟩ := (Option.any_eq_true _ _).mp hplay
  obtain ⟨sc, hsc, hplay⟩ := (Option.any_eq_true _ _).mp hplay
  obtain ⟨t, hn, hplay⟩ := (Option.any_eq_true _ _).mp hplay
  obtain ⟨⟨m, t', log⟩, hend, hcheck⟩ := (Option.any_eq_true _ _).mp hplay
  simp only [Bool.and_eq_true, beq_iff_eq] at hcheck
  obtain ⟨⟨⟨⟨⟨hopened, hab⟩, hdrained⟩, hready⟩, hlisted⟩, htable⟩ := hcheck
  have begins : Step (staffed 0) sc₀ (.advanced 0 visitor t₁) _ :=
    .advance 0 0 visitor (by rw [hsc₀]; rfl) hbegin
  have meanwhile : Run (Step (staffed 0)) _ sc := .of_play (fun hs _ => hs) hsc
  have ends : Step (staffed 0) sc (.advanced 0 t t') _ := .advance 0 0 t hn hend
  obtain ⟨uri, key, -, hkey, h⟩ := ensured_routable rfl called begins meanwhile ends hopened
  obtain ⟨slot, s, hin, hs, -, -, hslot⟩ := h.shown
  have hslot : m.slotOf key = some slot := by
    rcases hslot with hslot | hslot | hslot | hslot
    · exact hslot
    · rw [hab] at hslot
      cases hslot
    · rw [hdrained] at hslot
      cases hslot
    · have hstate : m.stateOf 0 = s.state := by
        rw [stateOf, show m.sessions[0]? = some s from hs]
        rfl
      rw [← hstate, hready] at hslot
      cases hslot
  have hroot : key.root = ⟨[0x2F]⟩ := by
    rw [hkey, hsc₀]
    decide +kernel
  refine ⟨_, uri, ((called.tail ⟨_, begins⟩).trans meanwhile).tail ⟨_, ends⟩, h.isOpen, hlisted,
    h.routable _ slot .refl hslot hin fun x hx _ => .inl ?_⟩
  have hx : x ∈ m.table := hx
  rw [htable, List.mem_singleton] at hx
  rw [hx, hroot]

/-- **A document is opened in a session that is not in the table**, when a creation fails while
another call waits at its slot. -/
theorem exists_opened_unlisted : ¬ ∀ (env : ManagerEnvironment) (files : FileTree) (now : Nat)
    (sc sc' : Scene) (n i : Nat) (t t' : Task), env.host.directory.isAbsolute = true →
      Run (fun sc e sc' => Step env sc e sc' ∧ sc'.tasks.all (·.assures) = true)
        (.start files now) sc →
      Step env sc (.advanced n t t') sc' → t'.opened? = some i → i ∈ sc'.manager.listed := by
  have hplay : ((Scene.start shelf 0).play (staffed 1) (fun _ _ sc => sc.tasks.all (·.assures))
      ([.call visitor, .call visitor] ++
        -- the first creates, and the second waits
        List.replicate 4 (.advance 0 0) ++ List.replicate 3 (.advance 1 0) ++
        -- the first fails, and takes the slot out of the table
        List.replicate 5 (.advance 0 0) ++
        -- the second creates at the slot, and opens its document
        List.replicate 9 (.advance 1 0) ++ [.output 0 greeting, .background 0 .reader] ++
        List.replicate 8 (.advance 1 0))).any (fun sc =>
      (sc.tasks[1]?).any fun t => (sc.manager.step (staffed 1) sc.now 1 0 t).any fun y =>
        y.2.1.opened? == some 0 && y.1.listed == []) = true := by
    decide +kernel
  obtain ⟨sc, hsc, hplay⟩ := (Option.any_eq_true _ _).mp hplay
  obtain ⟨t, hn, hplay⟩ := (Option.any_eq_true _ _).mp hplay
  obtain ⟨⟨m, t', log⟩, hend, hcheck⟩ := (Option.any_eq_true _ _).mp hplay
  simp only [Bool.and_eq_true, beq_iff_eq] at hcheck
  obtain ⟨hopened, hlisted⟩ := hcheck
  intro h
  have hmem : 0 ∈ m.listed := h (staffed 1) shelf 0 sc _ 1 0 t t' rfl
    (.of_play (fun hs hall => ⟨hs, hall⟩) hsc) (.advance 1 0 t hn hend) hopened
  rw [hlisted] at hmem
  cases hmem

/-- **A document that is open in the session of its key cannot be found** when its root
differs from the root in the table by a backslash at the end. -/
theorem exists_unroutable : ∃ (env : ManagerEnvironment) (files : FileTree) (sc : Scene)
    (path : Path) (uri : Uri) (key : SessionKey), env.host.directory.isAbsolute = true ∧
      Run (Step env) (.start files 0) sc ∧
      (path.absolute env.host.directory).toUri? env.host.directory = some uri ∧
      key = ⟨Workspace.findRoot env.markers sc.manager.install.files env.host.directory
        (path.absolute env.host.directory), "rust"⟩ ∧
      sc.manager.HasOpen 0 uri ∧ sc.manager.slotOf key = some 0 ∧
      sc.manager.sessionIn 0 = some 0 ∧ ¬ Routable env sc path uri := by
  -- the documents `/w/a` and `/w\/a`
  obtain ⟨path, hpath⟩ : ∃ p : Path, p = ⟨[0x2F, 0x77, 0x5C, 0x2F, 0x61]⟩ := ⟨_, rfl⟩
  obtain ⟨d, hd⟩ : ∃ d : Path, d = ⟨[0x2F]⟩ := ⟨_, rfl⟩
  have hplay : ((Scene.start shelf 0).play (staffed 0) (fun _ _ _ => true)
      ([.call (.ensure "rust" "" (.begin ⟨[0x2F, 0x77, 0x2F, 0x61]⟩)),
          .call (.ensure "rust" "" (.begin path))] ++
        List.replicate 12 (.advance 0 0) ++ [.output 0 greeting, .background 0 .reader] ++
        List.replicate 9 (.advance 0 0) ++ List.replicate 7 (.advance 1 0))).any (fun sc =>
      ((path.absolute d).toUri? d).any fun uri =>
        sc.manager.slotOf ⟨Workspace.findRoot ⟨[]⟩ sc.manager.install.files d (path.absolute d),
            "rust"⟩ == some 0 &&
          sc.manager.sessionIn 0 == some 0 && sc.manager.owners (path.absolute d) == [] &&
          ((sc.manager.sessionAt 0).documents.version? uri.text).isSome) = true := by
    rw [hpath, hd]
    decide +kernel
  obtain ⟨sc, hsc, hplay⟩ := (Option.any_eq_true _ _).mp hplay
  obtain ⟨uri, huri, hcheck⟩ := (Option.any_eq_true _ _).mp hplay
  simp only [Bool.and_eq_true, beq_iff_eq] at hcheck
  obtain ⟨⟨⟨hslot, hin⟩, howners⟩, hopen⟩ := hcheck
  have run : Run (Step (staffed 0)) (.start shelf 0) sc := .of_play (fun hs _ => hs) hsc
  have hdir : (staffed 0).host.directory = d := hd.symm
  have called : Run (Step (staffed 0)) (.start shelf 0)
      { sc with tasks := sc.tasks ++ [.routed .close (.begin path)] } :=
    run.tail ⟨_, .call _ rfl⟩
  refine ⟨staffed 0, shelf, _, path, uri, _, rfl, called, by rw [hdir]; exact huri, rfl, hopen,
    by rw [hdir]; exact hslot, hin, fun h => ?_⟩
  -- no session is asked, and so none is found
  have hn : (sc.tasks ++ [.routed .close (.begin path)])[sc.tasks.length]? = some _ :=
    List.getElem?_concat_length
  have hbegin : sc.manager.step (staffed 0) sc.now sc.tasks.length 0
      (.routed .close (.begin path)) =
      some (sc.manager, .routed .close (.choosing (path.absolute d) uri []), []) := by
    simp [Manager.step, stepRouted, hdir, huri, howners, askNext]
  have hfail : sc.manager.step (staffed 0) sc.now sc.tasks.length 0
      (.routed .close (.choosing (path.absolute d) uri [])) =
      some (sc.manager, .fail (.sessionNotFound (path.absolute d)), []) := by
    simp [Manager.step, stepRouted, choose]
  obtain ⟨-, hseeks⟩ := h _ _ _ _ (.advance _ 0 _ hn hbegin)
  have hn' := getElem?_set_of_getElem? hn (.routed .close (.choosing (path.absolute d) uri []))
  rcases (hseeks _ _ .refl hn' rfl).finds _ _ (.advance _ 0 _ hn' hfail) with
    ⟨_, ht, -⟩ | ⟨_, ht, -⟩
  · cases ht
  · cases ht

end Manager

end LanguageHub
