import LanguageHub.Proofs.Manager.Accounting
import LanguageHub.Proofs.Manager.Operations
import LanguageHub.Proofs.Session.Conversation

/-!
# A session is replaced once

A session has one slot, and the slot of a session that was replaced never comes back into the table
(`Manager.Retired`). So nobody replaces the session again, and as it is for whoever replaces a
session to dispose of it, nobody else does (`Manager.Disposals`): the disposal runs its course, and
the call goes on when the session is disposed of.
-/

namespace LanguageHub

/-- Whether a disposal has begun and its session is not disposed of yet. -/
def DisposeStage.isParting : DisposeStage → Bool
  | .begin | .closing | .clearing => false
  | _ => true

/-- **A disposal goes on until its session is disposed of**, unless another one has begun. -/
theorem Session.OperationStep.isParting {h : Host} {now n : Nat} {s s' : Session}
    {stage : DisposeStage} {op : Operation}
    (hs : OperationStep h now n s (.dispose stage) s' op)
    (hst : stage.isParting = true ∨ (stage = .begin ∧ s.disposing = false)) :
    (∃ stage', op = .dispose stage' ∧ stage'.isParting = true) ∨ s'.state = .disposed := by
  cases hs with
  | dispose hs =>
    cases hs with
    | again hd =>
      rcases hst with hst | ⟨-, hst⟩
      · cases hst
      · rw [hd] at hst
        cases hst
    | ending => exact .inr (SessionState.next_dispose _)
    | close | closed | clear =>
      rcases hst with hst | ⟨hst, -⟩
      · cases hst
      · cases hst
    | _ => exact .inl ⟨_, rfl, rfl⟩

namespace Manager

variable {env : ManagerEnvironment} {sc sc' : Scene} {e : Event} {es es' : List Event}
  {m m' : Manager} {κ : Nat → SessionKey} {key k : SessionKey} {slot n i j old now : Nat}
  {t t' : Task} {st st' : Standing} {f : Nat → Standing} {entry : Option Entry}

/-! ### Replacements -/

/-- The numbers of sessions in slots and in handshakes are those of sessions. -/
structure Bounded (m : Manager) (f : Nat → Standing) : Prop where
  filled : ∀ {s i}, m.sessionIn s = some i → i < m.sessions.length
  greeted : ∀ {n k s i}, f n = .greeting k s i → i < m.sessions.length

theorem Tidy.bounded (h : Tidy κ sc) : Bounded sc.manager sc.standing where
  filled := by
    intro s i hi
    obtain ⟨x, hx, -⟩ := h.filled s i hi
    exact (List.getElem?_eq_some_iff.mp hx).1
  greeted := by
    intro n k s i hst
    rcases hn : sc.tasks[n]? with _ | t
    · rw [Scene.standing, hn] at hst
      cases hst
    · rw [standing_eq hn] at hst
      have hseat := h.seated n t hn
      rcases t with ⟨l, x, stage⟩ | _ | _ | _ | _ | _ | _
      · cases stage with
        | handshaking =>
          cases hst
          obtain ⟨-, -, y, hy, -⟩ := hseat
          exact (List.getElem?_eq_some_iff.mp hy).1
        | _ => cases hst
      all_goals cases hst

theorem slotsOf_mono : slotsOf k es ⊆ slotsOf k (es ++ es') := by
  intro s hs
  obtain ⟨n, hn⟩ := mem_slotsOf.mp hs
  exact mem_slotsOf.mpr ⟨n, mem_booked_append hn⟩

/-- A key keeps its slot, or it has a new one. -/
theorem Books.slotOf (h : Books n m st entry m' st') (hs : m'.slotOf k = some slot) :
    m.slotOf k = some slot ∨ slot = m.slots.length := by
  have new : ∀ {key}, NewSlot m key m' → m.slotOf k = some slot ∨ slot = m.slots.length := by
    intro key hm
    rw [hm.slotOf] at hs
    split at hs
    · exact .inr (Option.some.inj hs).symm
    · exact .inl hs
  cases h with
  | rest _ hm | leave hm | share _ _ _ hm | create _ _ _ _ hm | launch _ _ hm
  | receive _ _ _ _ hm => exact .inl (hm.slotOf k ▸ hs)
  | fresh _ _ hm | replace _ _ _ _ _ hm => exact new hm
  | fill _ _ _ hof => exact .inl (hof k ▸ hs)

/-- **A session has one slot**, and none as long as it is greeted, which one call does. -/
structure Housed (m : Manager) (f : Nat → Standing) : Prop where
  inj : ∀ {s s' i}, m.sessionIn s = some i → m.sessionIn s' = some i → s = s'
  apart : ∀ {n k s i}, f n = .greeting k s i → ∀ s', m.sessionIn s' ≠ some i
  alone : ∀ {n n' k k' s s' i}, f n = .greeting k s i → f n' = .greeting k' s' i → n = n'

theorem Housed.keep (h : Housed m f) (hin : ∀ s, m'.sessionIn s = m.sessionIn s)
    (hst : ∀ k s i, st = .greeting k s i → f n = .greeting k s i) :
    Housed m' (Function.update f n st) := by
  have hf : ∀ {j k s i}, Function.update f n st j = .greeting k s i → f j = .greeting k s i := by
    intro j k s i hj
    rcases eq_or_ne j n with rfl | hne
    · rw [Function.update_self] at hj
      exact hst k s i hj
    · rwa [Function.update_of_ne hne] at hj
  refine ⟨fun hs hs' => ?_, fun hj s' => ?_, fun hj hj' => h.alone (hf hj) (hf hj')⟩
  · rw [hin] at hs hs'
    exact h.inj hs hs'
  · rw [hin]
    exact h.apart (hf hj) s'

theorem Housed.step (h : Housed m f) (hn : Bounded m f) (hb : Books n m (f n) entry m' st) :
    Housed m' (Function.update f n st) := by
  generalize hst : f n = st₀ at hb
  cases hb with
  | rest _ hm => exact h.keep hm.sessionIn fun k s i hs => hst.trans hs
  | leave hm => exact h.keep hm.sessionIn (by simp)
  | share _ _ _ hm => exact h.keep hm.sessionIn (by simp)
  | fresh _ _ hm => exact h.keep hm.sessionIn (by simp)
  | replace _ _ _ _ _ hm => exact h.keep hm.sessionIn (by simp)
  | create _ _ _ _ hm => exact h.keep hm.sessionIn (by simp)
  | receive _ _ _ _ hm => exact h.keep hm.sessionIn (by simp)
  | launch key slot hm =>
    -- the session is a new one
    have hf : ∀ {j k s i}, Function.update f n (.greeting key slot m.sessions.length) j =
        .greeting k s i → (j = n ∧ i = m.sessions.length) ∨ (j ≠ n ∧ f j = .greeting k s i) := by
      intro j k s i hj
      rcases eq_or_ne j n with rfl | hne
      · rw [Function.update_self] at hj
        cases hj
        exact .inl ⟨rfl, rfl⟩
      · exact .inr ⟨hne, by rwa [Function.update_of_ne hne] at hj⟩
    refine ⟨fun hs hs' => ?_, fun hj s' hs' => ?_, fun hj hj' => ?_⟩
    · rw [hm.sessionIn] at hs hs'
      exact h.inj hs hs'
    · rw [hm.sessionIn] at hs'
      rcases hf hj with ⟨-, rfl⟩ | ⟨-, hj⟩
      · exact absurd (hn.filled hs') (Nat.lt_irrefl _)
      · exact h.apart hj s' hs'
    · rcases hf hj with ⟨rfl, rfl⟩ | ⟨-, hj⟩
      · rcases hf hj' with ⟨rfl, -⟩ | ⟨-, hj'⟩
        · rfl
        · exact absurd (hn.greeted hj') (Nat.lt_irrefl _)
      · rcases hf hj' with ⟨-, rfl⟩ | ⟨-, hj'⟩
        · exact absurd (hn.greeted hj) (Nat.lt_irrefl _)
        · exact h.alone hj hj'
  | fill key slot i _ hin =>
    have hf : ∀ {j k s i'}, Function.update f n .past j = .greeting k s i' →
        j ≠ n ∧ f j = .greeting k s i' := by
      intro j k s i' hj
      rcases eq_or_ne j n with rfl | hne
      · rw [Function.update_self] at hj
        cases hj
      · exact ⟨hne, by rwa [Function.update_of_ne hne] at hj⟩
    refine ⟨fun {s s' i'} hs hs' => ?_, fun {j k s i'} hj s' hs' => ?_,
      fun hj hj' => h.alone (hf hj).2 (hf hj').2⟩
    · rw [hin] at hs hs'
      split at hs
      · next heq =>
        cases hs
        split at hs'
        · next heq' => rw [heq, heq']
        · exact absurd hs' (h.apart hst s')
      · split at hs'
        · cases hs'
          exact absurd hs (h.apart hst s)
        · exact h.inj hs hs'
    · obtain ⟨hne, hj⟩ := hf hj
      rw [hin] at hs'
      split at hs'
      · cases hs'
        exact hne (h.alone hj hst)
      · exact h.apart hj s' hs'

/-- **A session that was replaced has left the table**, and it was replaced once. -/
structure Retired (es : List Event) (m : Manager) : Prop where
  left : ∀ {k n old}, (n, old) ∈ booked Entry.replacement? k es →
    ∃ slot, m.sessionIn slot = some old ∧ slot ∈ slotsOf k es ∧ m.slotOf k ≠ some slot
  once : ∀ {k k' n n' old}, (n, old) ∈ booked Entry.replacement? k es →
    (n', old) ∈ booked Entry.replacement? k' es → n = n'
  nodup : ∀ k, ((booked Entry.replacement? k es).map (·.2)).Nodup

/-- What was replaced stays so. -/
theorem Retired.left_step (h : Retired es m) (hl : Looked es m f) (hx : Exclusive m f)
    (hb : Books n m (f n) entry m' st) (hold : (j, old) ∈ booked Entry.replacement? k es) :
    ∃ slot, m'.sessionIn slot = some old ∧ slot ∈ slotsOf k (es ++ [e]) ∧
      m'.slotOf k ≠ some slot := by
  obtain ⟨slot, hin, hslot, hgone⟩ := h.left hold
  refine ⟨slot, hb.keeps (fun s hs => (hx n s hs).empty) hin, slotsOf_mono hslot, fun hs => ?_⟩
  rcases hb.slotOf hs with hs | rfl
  · exact hgone hs
  · obtain ⟨c, hc⟩ := mem_slotsOf.mp hslot
    exact absurd (hl.bound hc) (Nat.lt_irrefl _)

/-- **A session in the slot of its key was not replaced.** -/
theorem Retired.notMem (h : Retired es m) (hh : Housed m f) (hl : Looked es m f)
    (hslot : m.slotOf key = some slot) (hin : m.sessionIn slot = some old) :
    (j, old) ∉ booked Entry.replacement? k es := by
  intro hj
  obtain ⟨s, hs, hlooked, hgone⟩ := h.left hj
  obtain rfl := hh.inj hs hin
  obtain ⟨c, hc⟩ := mem_slotsOf.mp hlooked
  obtain ⟨c', hc'⟩ := hl.current hslot
  exact hgone ((slotOf_congr m (hl.agree hc hc')).trans hslot)

theorem Retired.step (h : Retired es m) (hh : Housed m f) (hl : Looked es m f)
    (hx : Exclusive m f) (he : e.booking? = entry.map (n, ·))
    (hb : Books n m (f n) entry m' st) : Retired (es ++ [e]) m' := by
  by_cases hr : ∀ x, entry = some x → x.replacement? = none
  · have hsame : ∀ k, booked Entry.replacement? k (es ++ [e]) =
        booked Entry.replacement? k es := fun k => booked_concat_of_none he hr
    refine ⟨fun hold => h.left_step hl hx hb (hsame _ ▸ hold),
      fun ho ho' => h.once (hsame _ ▸ ho) (hsame _ ▸ ho'), fun k => ?_⟩
    rw [hsame]
    exact h.nodup k
  · have hleft : ∀ {k j old}, (j, old) ∈ booked Entry.replacement? k es → _ := fun hold =>
      h.left_step (e := e) hl hx hb hold
    generalize f n = st₀ at hb
    cases hb with
    | replace key slot old hslot hin hm =>
      have hnew : ∀ {k j}, (j, old) ∉ booked Entry.replacement? k es :=
        h.notMem hh hl hslot hin
      refine ⟨fun {k j o} hold => ?_, fun {k k' j j' o} ho ho' => ?_, fun k => ?_⟩
      · rcases (mem_booked_concat_of_some he rfl).mp hold with hold | ⟨hold, hk⟩
        · exact hleft hold
        · cases hold
          obtain ⟨c, hc⟩ := hl.current (slotOf_congr m hk ▸ hslot)
          refine ⟨slot, (hm.sessionIn slot).trans hin,
            slotsOf_mono (mem_slotsOf.mpr ⟨c, hc⟩), ?_⟩
          rw [hm.slotOf, if_pos hk]
          intro heq
          exact absurd (hl.bound hc) (Nat.not_lt.mpr (Nat.le_of_eq (Option.some.inj heq)))
      · rcases (mem_booked_concat_of_some he rfl).mp ho with ho | ⟨ho, -⟩
        · rcases (mem_booked_concat_of_some he rfl).mp ho' with ho' | ⟨ho', -⟩
          · exact h.once ho ho'
          · cases ho'
            exact absurd ho hnew
        · cases ho
          rcases (mem_booked_concat_of_some he rfl).mp ho' with ho' | ⟨ho', -⟩
          · exact absurd ho' hnew
          · cases ho'
            rfl
      · rw [booked_concat he rfl]
        split
        · rw [List.map_append, List.map_singleton, List.nodup_append]
          refine ⟨h.nodup k, List.nodup_singleton _, ?_⟩
          rintro o ho _ ho' rfl
          obtain rfl := List.mem_singleton.mp ho'
          obtain ⟨⟨j, o⟩, hj, rfl⟩ := List.mem_map.mp ho
          exact hnew hj
        · exact h.nodup k
    | _ => exact absurd (by simp [Entry.replacement?]) hr

/-! ### Disposals -/

/-- **A call disposes of a session**: one of its stages was a stage of a disposal of it. -/
def Disposes (es : List Event) (n i : Nat) : Prop :=
  ∃ t t' stage, Event.advanced n t t' ∈ es ∧ (i, Operation.dispose stage) ∈ t.operations

/-- A session is disposed of. -/
def Over (m : Manager) (i : Nat) : Prop := ∃ s, m.sessions[i]? = some s ∧ s.state = .disposed

/-- A call replaces a session, and has come to a stage of the disposal. -/
def Replaces (sc : Scene) (n i : Nat) (stage : DisposeStage) : Prop :=
  ∃ language text uri key slot, sc.tasks[n]? =
    some (.ensure language text (.replacing uri key slot i (.dispose stage)))

theorem Disposes.concat (h : Disposes es n i) : Disposes (es ++ [e]) n i := by
  obtain ⟨t, t', stage, he, hmem⟩ := h
  exact ⟨t, t', stage, List.mem_append_left _ he, hmem⟩

theorem disposes_concat (h : Disposes (es ++ [e]) n i) : Disposes es n i ∨
    ∃ t t' stage, e = .advanced n t t' ∧ (i, Operation.dispose stage) ∈ t.operations := by
  obtain ⟨t, t', stage, he, hmem⟩ := h
  rcases List.mem_append.mp he with he | he
  · exact .inl ⟨t, t', stage, he, hmem⟩
  · exact .inr ⟨t, t', stage, (List.mem_singleton.mp he).symm, hmem⟩

theorem Over.evolves (h : Over m i) (he : Evolves m m') : Over m' i := by
  obtain ⟨s, hi, hs⟩ := h
  obtain ⟨s', hi', hl⟩ := he i s hi
  have hrank := hl.state
  rw [hs] at hrank
  exact ⟨s', hi', SessionState.eq_disposed_of_rank_le hrank⟩

/-- **Where a disposal comes from**: it was there before, or a session is replaced, or all of them
are disposed of. -/
theorem TaskStep.of_dispose {stage : DisposeStage} (h : TaskStep env now n m t m' t')
    (hmem : (i, Operation.dispose stage) ∈ t'.operations) (ht : t.serves = true) :
    (∃ stage₀, (i, Operation.dispose stage₀) ∈ t.operations) ∨
      ∃ key slot, (Event.advanced n t t').booking? = some (n, .replacement key slot i) := by
  -- no operation becomes a disposal
  have went : ∀ {j op op'} {l : List (Nat × Operation)} {p : Nat}, l[p]? = some (j, op) →
      SessionStep env now n m j op m' op' → (i, Operation.dispose stage) ∈ l.set p (j, op') →
      ∃ stage₀, (i, Operation.dispose stage₀) ∈ l := by
    intro j op op' l p hp hs hmem
    rcases List.mem_or_eq_of_mem_set hmem with hmem | heq
    · exact ⟨stage, hmem⟩
    · cases heq
      obtain ⟨-, ho⟩ := hs
      obtain ⟨stage₀, rfl⟩ := ho.exists_dispose
      exact ⟨stage₀, List.mem_of_getElem? hp⟩
  have nothing : t'.Spares → t'.disposes = false → False := fun hs hd => hs hd i stage hmem
  cases h with
  | ensure he =>
    cases he with
    | replace uri key slot old =>
      cases List.mem_singleton.mp hmem
      exact .inr ⟨_, _, rfl⟩
    | dispose _ _ _ _ hs | greet _ _ _ _ hs | openDocument _ hs =>
      exact .inl (went (p := 0) rfl hs hmem)
    | launch | meet | served | fill => cases List.mem_singleton.mp hmem
    | _ => exact absurd hmem List.not_mem_nil
  | routed hr =>
    cases hr with
    | ask _ _ _ _ _ hs | run _ hs => exact .inl (went (p := 0) rfl hs hmem)
    | begin | told => exact (nothing spares_askNext rfl).elim
    | choose =>
      have heq := List.mem_singleton.mp hmem
      unfold RoutedAction.operation at heq
      split at heq <;> cases heq
    | _ => exact absurd hmem List.not_mem_nil
  | search =>
    obtain ⟨j, -, heq⟩ := List.mem_map.mp hmem
    cases heq
  | searchBranch _ _ branch _ hb hs => exact .inl (went hb hs hmem)
  | direct _ hs => exact .inl (went (p := 0) rfl hs hmem)
  | drain | drainBranch => cases ht
  | _ => exact absurd hmem List.not_mem_nil

/-- **A call that replaces a session begins to dispose of it.** -/
theorem Step.of_replacement {x : Entry} (hs : Step env sc e sc') (he : e.booking? = some (n, x))
    (hx : x.replacement? = some (key, i)) : Replaces sc' n i .begin ∧
      sc'.manager.sessions = sc.manager.sessions ∧
      ∃ slot, sc.manager.slotOf key = some slot ∧ sc.manager.sessionIn slot = some i := by
  rcases e with ⟨j, t, t'⟩ | _
  · obtain ⟨m', hn, ht, rfl⟩ := hs.of_advanced
    cases ht with
    | ensure hensure =>
      cases hensure with
      | replace uri k slot old hslot hin =>
        cases he
        cases hx
        exact ⟨⟨_, _, _, _, _, getElem?_set_of_getElem? hn _⟩, by simp [Scene.after, newSlot],
          slot, hslot, hin⟩
      | fresh | share | meet | served | create | launch | fill =>
        cases he
        cases hx
      | _ => cases he
    | _ => cases he
  · cases he

/-- **The disposals of a run.** Who disposes of a session replaces it. Who replaces a session begins
to dispose of it, for nobody else does, and does so until the session is disposed of. -/
structure Disposals (es : List Event) (sc : Scene) : Prop where
  held : ∀ {n t i stage}, sc.tasks[n]? = some t → (i, Operation.dispose stage) ∈ t.operations →
    ∃ k, (n, i) ∈ booked Entry.replacement? k es
  replaced : ∀ {n i}, Disposes es n i → ∃ k, (n, i) ∈ booked Entry.replacement? k es
  begun : ∀ {i}, Disposing sc.manager i → ∃ n, Disposes es n i
  pending : ∀ {k n i}, (n, i) ∈ booked Entry.replacement? k es →
    (Replaces sc n i .begin ∧ ¬ Disposing sc.manager i) ∨
      (Disposes es n i ∧
        ((∃ stage, Replaces sc n i stage ∧ stage.isParting = true) ∨ Over sc.manager i))

theorem Disposals.held_step (h : Disposals es sc) (hs : Serving env sc e sc') {t : Task}
    {stage : DisposeStage} (hn : sc'.tasks[n]? = some t)
    (hmem : (i, Operation.dispose stage) ∈ t.operations) :
    ∃ k, (n, i) ∈ booked Entry.replacement? k (es ++ [e]) := by
  have old : ∀ {t stage}, sc.tasks[n]? = some t → (i, Operation.dispose stage) ∈ t.operations →
      ∃ k, (n, i) ∈ booked Entry.replacement? k (es ++ [e]) := by
    intro t stage hn hmem
    obtain ⟨k, hk⟩ := h.held hn hmem
    exact ⟨k, mem_booked_append hk⟩
  obtain ⟨hs, hserves, -⟩ := hs
  rcases e with ⟨j, u, u'⟩ | _
  · obtain ⟨m', hj, hu, rfl⟩ := hs.of_advanced
    rcases eq_or_ne n j with rfl | hne
    · have hn' : (sc.after n u m' u').tasks[n]? = some u' := getElem?_set_of_getElem? hj u'
      rw [hn] at hn'
      cases hn'
      rcases hu.of_dispose hmem (hserves u (List.mem_of_getElem? hj)) with ⟨_, hmem⟩ | ⟨k, s, he⟩
      · exact old hj hmem
      · exact ⟨k, mem_booked_concat.mpr (.inr ⟨_, k, he, rfl, SessionKey.same_refl k⟩)⟩
    · rw [Scene.after, List.getElem?_set_ne hne.symm] at hn
      exact old hn hmem
  · obtain ⟨-, -, -, heq | ⟨u, hu, heq⟩⟩ := hs.of_silent
    · exact old (heq ▸ hn) hmem
    · rw [heq, List.getElem?_append] at hn
      split at hn
      · exact old hn hmem
      · obtain rfl := List.mem_singleton.mp (List.mem_of_getElem? hn)
        rw [Task.operations_of_isFresh hu] at hmem
        exact absurd hmem List.not_mem_nil

/-- A call that replaces a session has one operation, which is at one stage. -/
theorem Replaces.eq_of_mem {stage stage' : DisposeStage} (h : Replaces sc n i stage)
    (hn : sc.tasks[n]? = some t) (hmem : (j, Operation.dispose stage') ∈ t.operations) :
    stage' = stage := by
  obtain ⟨_, _, _, _, _, hn'⟩ := h
  rw [hn] at hn'
  cases hn'
  cases List.mem_singleton.mp hmem
  rfl

/-- What a step of a call that replaces a session comes to. -/
theorem Replaces.step {stage : DisposeStage} (h : Replaces sc n i stage) (es : List Event)
    (hs : Step env sc e sc')
    (hst : stage.isParting = true ∨ (stage = .begin ∧ ¬ Disposing sc.manager i)) :
    Replaces sc' n i stage ∨ (Disposes (es ++ [e]) n i ∧
      ((∃ stage', Replaces sc' n i stage' ∧ stage'.isParting = true) ∨ Over sc'.manager i)) := by
  obtain ⟨language, text, uri, key, slot, hn⟩ := h
  obtain ⟨t', hn', rfl | ⟨rfl, ht⟩⟩ := hs.task hn
  · exact .inl ⟨_, _, _, _, _, hn'⟩
  · refine .inr ⟨⟨_, _, stage, List.mem_append_right _ (List.mem_singleton_self _),
      List.mem_singleton_self _⟩, ?_⟩
    generalize sc'.manager = m' at ht ⊢
    cases ht with
    | ensure he =>
      cases he with
      | dispose _ _ _ _ hop =>
        cases hop with
        | @mk s s' op' hi ho =>
        have hst' : stage.isParting = true ∨ (stage = .begin ∧ s.disposing = false) :=
          hst.imp id fun ⟨hb, hd⟩ => ⟨hb, Bool.eq_false_iff.mpr fun hd' => hd ⟨s, hi, hd'⟩⟩
        rcases ho.isParting hst' with ⟨stage', rfl, hp⟩ | hover
        · exact .inl ⟨stage', ⟨_, _, _, _, _, hn'⟩, hp⟩
        · obtain ⟨hlt, -⟩ := List.getElem?_eq_some_iff.mp hi
          exact .inr ⟨s', List.getElem?_set_self hlt, hover⟩

/-- Nobody but the one who replaces a session disposes of it. -/
theorem Disposals.pending_step (h : Disposals es sc) (hr : Retired es sc.manager)
    (hr' : Retired (es ++ [e]) sc'.manager) (hh : Housed sc.manager sc.standing)
    (hl : Looked es sc.manager sc.standing) (hs : Serving env sc e sc')
    (hk : (n, i) ∈ booked Entry.replacement? k (es ++ [e])) :
    (Replaces sc' n i .begin ∧ ¬ Disposing sc'.manager i) ∨ (Disposes (es ++ [e]) n i ∧
      ((∃ stage, Replaces sc' n i stage ∧ stage.isParting = true) ∨ Over sc'.manager i)) := by
  rcases mem_booked_concat.mp hk with hold | ⟨x, k', he, hx, -⟩
  · rcases h.pending hold with ⟨hb, hd⟩ | ⟨hd, ⟨stage, hb, hp⟩ | hover⟩
    · rcases hb.step es hs.1 (.inr ⟨rfl, hd⟩) with hb' | hb'
      · refine .inl ⟨hb', fun hd' => ?_⟩
        rcases hs.1.disposing hd' with hd' | ⟨stage, hst, t', ht', hmem⟩
        · exact hd hd'
        -- whoever has begun to dispose of it replaces it, too
        · obtain ⟨j, hj⟩ := List.getElem?_of_mem ht'
          obtain ⟨k'', hk''⟩ := h.held_step hs hj hmem
          obtain rfl := hr'.once hk hk''
          exact hst (hb'.eq_of_mem hj hmem)
      · exact .inr hb'
    · rcases hb.step es hs.1 (.inl hp) with hb' | hb'
      · exact .inr ⟨hd.concat, .inl ⟨stage, hb', hp⟩⟩
      · exact .inr hb'
    · exact .inr ⟨hd.concat, .inr (hover.evolves hs.1.evolves)⟩
  · obtain ⟨hb, hsame, slot, hslot, hin⟩ := hs.1.of_replacement he hx
    refine .inl ⟨hb, fun ⟨s, hi, hd⟩ => ?_⟩
    obtain ⟨j, hj⟩ := h.begun ⟨s, hsame ▸ hi, hd⟩
    obtain ⟨k'', hk''⟩ := h.replaced hj
    exact hr.notMem hh hl hslot hin hk''

theorem Disposals.step (h : Disposals es sc) (hr : Retired es sc.manager)
    (hr' : Retired (es ++ [e]) sc'.manager) (hh : Housed sc.manager sc.standing)
    (hl : Looked es sc.manager sc.standing) (hs : Serving env sc e sc') :
    Disposals (es ++ [e]) sc' where
  held := h.held_step hs
  replaced := by
    intro n i hd
    rcases disposes_concat hd with hd | ⟨t, t', stage, rfl, hmem⟩
    · obtain ⟨k, hk⟩ := h.replaced hd
      exact ⟨k, mem_booked_append hk⟩
    · obtain ⟨-, hn, -, -⟩ := hs.1.of_advanced
      obtain ⟨k, hk⟩ := h.held hn hmem
      exact ⟨k, mem_booked_append hk⟩
  begun := by
    intro i hd
    rcases hs.1.disposing hd with hd | ⟨stage, hst, t', ht', hmem⟩
    · obtain ⟨n, hn⟩ := h.begun hd
      exact ⟨n, hn.concat⟩
    · obtain ⟨n, hn⟩ := List.getElem?_of_mem ht'
      obtain ⟨k, hk⟩ := h.held_step hs hn hmem
      rcases h.pending_step hr hr' hh hl hs hk with ⟨hb, -⟩ | ⟨hd, -⟩
      · exact absurd (hb.eq_of_mem hn hmem) hst
      · exact ⟨n, hd⟩
  pending := h.pending_step hr hr' hh hl hs

end Manager

end LanguageHub
