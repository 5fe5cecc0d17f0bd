import LanguageHub.Proofs.Manager.Registry

/-!
# One live session for each key

What a manager promises of a key is that **only one thing is alive** for it: a creation
that is under way, or a session that has not ended (`Manager.Live`). A session that a
shutdown has taken out of the table does not count, and neither does one that still shakes
hands, as it is a part of its creation.

The promise is kept up to abandoned slots (`Manager.live_unique`): whatever is alive sits
at a slot of its own, and all of these slots but one have been abandoned. For
`Manager.Tidy` has every slot in the table that was not abandoned, and the table has one
slot for each key.

It is broken as soon as a slot is abandoned (`Manager.exists_two_creations`). A creation
that fails takes its slot out of the table although others wait at it: the next of them
creates a session at a slot that nobody can find any more, and whoever comes later creates
another one.
-/

namespace LanguageHub

/-- The key for which a task creates a session. -/
def Task.creates? : Task → Option SessionKey
  | .ensure _ _ (.installing _ key _ _ _) | .ensure _ _ (.launching _ key _ _ _)
  | .ensure _ _ (.handshaking _ key _ _ _) => some key
  | _ => none

namespace Manager

variable {env : ManagerEnvironment} {sc : Scene} {κ : Nat → SessionKey} {key k : SessionKey}
  {n i now : Nat} {t : Task}

/-- **What is alive for a key**: a creation, by the number of its task, or a session, by its own. -/
inductive Live (sc : Scene) (key : SessionKey) : Nat ⊕ Nat → Prop
  | creation {n : Nat} {t : Task} {k : SessionKey} : sc.tasks[n]? = some t →
      t.creates? = some k → k.same key = true → Live sc key (.inl n)
  | session {i : Nat} {s : Session} : sc.manager.sessions[i]? = some s →
      s.key.same key = true → s.state.isTerminal = false → i ∉ sc.drained →
      (∀ t ∈ sc.tasks, t.greets? ≠ some i) → Live sc key (.inr i)

/-- Where it sits. -/
inductive Sits (sc : Scene) (slot : Nat) : Nat ⊕ Nat → Prop
  | creation {n : Nat} {t : Task} : sc.tasks[n]? = some t → slot ∈ t.slotRefs →
      Sits sc slot (.inl n)
  | session {i : Nat} : sc.manager.sessionIn slot = some i → Sits sc slot (.inr i)

theorem Live.of_map (h : (sc.tasks.map (·.creates?))[n]? = some (some key)) :
    Live sc key (.inl n) := by
  rw [List.getElem?_map] at h
  obtain ⟨t, hn, hk⟩ := Option.map_eq_some_iff.mp h
  exact .creation hn hk (SessionKey.same_refl _)

/-- A creator has its slot in the table, unless the slot was abandoned. -/
theorem Tidy.creation (h : Tidy κ sc) (hn : sc.tasks[n]? = some t) (hk : t.creates? = some k) :
    ∃ slot ∈ t.slotRefs, Holds sc.manager n slot ∧
      (slot ∈ sc.abandoned ∨ sc.manager.slotOf k = some slot) := by
  have hplace : ∀ slot ∈ t.slotRefs, At κ sc.manager sc.abandoned k slot →
      Holds sc.manager n slot → ∃ slot ∈ t.slotRefs, Holds sc.manager n slot ∧
        (slot ∈ sc.abandoned ∨ sc.manager.slotOf k = some slot) := by
    intro slot hslot ha hh
    refine ⟨slot, hslot, hh, ?_⟩
    by_cases hab : slot ∈ sc.abandoned
    · exact .inl hab
    · exact .inr ((slotOf_congr _ ha.same).trans (ha.current hh.empty hab))
  have hseat := h.seated n t hn
  rcases t with ⟨l, x, stage⟩ | _ | _ | _ | _ | _ | _
  · cases stage with
    | installing | launching =>
      cases hk
      exact hplace _ (List.mem_singleton_self _) hseat.1 hseat.2
    | handshaking =>
      cases hk
      exact hplace _ (List.mem_singleton_self _) hseat.1 hseat.2.1
    | _ => cases hk
  all_goals cases hk

/-- A session that is alive has its slot in the table, unless the slot was abandoned. -/
theorem Tidy.session (h : Tidy κ sc) {s : Session} (hi : sc.manager.sessions[i]? = some s)
    (hend : s.state.isTerminal = false) (hd : i ∉ sc.drained)
    (hg : ∀ t ∈ sc.tasks, t.greets? ≠ some i) :
    ∃ slot, sc.manager.sessionIn slot = some i ∧
      (slot ∈ sc.abandoned ∨ sc.manager.slotOf s.key = some slot) := by
  rcases h.housed i s hi with ht | ⟨slot, hslot⟩ | ⟨n, t, hn, ht⟩
  · rw [hend] at ht
    cases ht
  · obtain ⟨x, hx, hk, -, hx'⟩ := h.filled slot i hslot
    rw [hi] at hx
    cases hx
    rcases hx' with ht | hdr | hab | hc
    · rw [hend] at ht
      cases ht
    · exact absurd hdr hd
    · exact ⟨slot, hslot, .inl hab⟩
    · exact ⟨slot, hslot, .inr ((slotOf_congr _ hk).trans hc)⟩
  · exact absurd ht (hg t (List.mem_of_getElem? hn))

/-- **At most one session is alive for a key**, abandoned slots aside. However tasks,
servers and sessions take their turns, and whichever creations fail: if two things are
alive for a key at one moment, creations under way or sessions that have not ended and
that no shutdown has taken out of the table, then they sit at different slots, and one of
the slots was abandoned, taken out of the table without a session while somebody still
used it. -/
theorem live_unique {files : FileTree} (run : Run (Step env) (.start files now) sc)
    {p q : Nat ⊕ Nat} (hp : Live sc key p) (hq : Live sc key q) :
    p = q ∨ ∃ slot slot', slot ≠ slot' ∧ Sits sc slot p ∧ Sits sc slot' q ∧
      (slot ∈ sc.abandoned ∨ slot' ∈ sc.abandoned) := by
  obtain ⟨κ, h⟩ := run.tidy fun hs => hs
  -- both have a slot, and it is the one of the key unless it was abandoned
  have hslot : ∀ r, Live sc key r → ∃ slot, Sits sc slot r ∧
      (slot ∈ sc.abandoned ∨ sc.manager.slotOf key = some slot) ∧
      ((∃ n, r = .inl n ∧ Holds sc.manager n slot) ∨
        ∃ i, r = .inr i ∧ sc.manager.sessionIn slot = some i) := by
    rintro r (⟨hn, hk, hsame⟩ | ⟨hi, hsame, hend, hd, hg⟩)
    · obtain ⟨slot, hs, hh, hc⟩ := h.creation hn hk
      rw [slotOf_congr _ hsame] at hc
      exact ⟨slot, .creation hn hs, hc, .inl ⟨_, rfl, hh⟩⟩
    · obtain ⟨slot, hin, hc⟩ := h.session hi hend hd hg
      rw [slotOf_congr _ hsame] at hc
      exact ⟨slot, .session hin, hc, .inr ⟨_, rfl, hin⟩⟩
  obtain ⟨s, hsp, hs, hp⟩ := hslot p hp
  obtain ⟨s', hsq, hs', hq⟩ := hslot q hq
  by_cases heq : s = s'
  · -- a slot has one creator or one session
    subst heq
    left
    rcases hp with ⟨n, rfl, hn⟩ | ⟨i, rfl, hi⟩ <;> rcases hq with ⟨m, rfl, hm⟩ | ⟨j, rfl, hj⟩
    · rw [hn.unique hm]
    · rw [hn.empty] at hj
      cases hj
    · rw [hm.empty] at hi
      cases hi
    · rw [hi] at hj
      cases hj
      rfl
  · refine .inr ⟨s, s', heq, hsp, hsq, ?_⟩
    rcases hs with hab | hc
    · exact .inl hab
    · rcases hs' with hab | hc'
      · exact .inr hab
      · rw [hc] at hc'
        exact absurd (Option.some.inj hc') heq

/-- An environment with a server for one language, which no platform has a build of. -/
def barren : ManagerEnvironment where
  host := { (default : Host) with directory := ⟨[0x2F]⟩ }
  installer := ⟨⟨[⟨"analyzer", "1", ["rust"], true, "", []⟩]⟩, ⟨[]⟩, none, default⟩
  web := ⟨fun _ => .unreachable "", fun _ _ => ⟨[], none⟩⟩
  markers := ⟨[]⟩
  timeouts := .standard
  launch := fun _ _ => .error ""

/-- One of two callers creates a session while the other one waits, and nothing else is alive. -/
theorem live_unique_waiting : ∃ sc key, Run (Step barren) (.start .empty 0) sc ∧
    sc.tasks.length = 2 ∧ Live sc key (.inl 0) ∧ ∀ p, Live sc key p → p = .inl 0 := by
  have hplay : ((Scene.start .empty 0).play barren (fun _ _ _ => true)
      [.call visitor, .call visitor, .advance 0 0, .advance 0 0, .advance 0 0, .advance 0 0,
        .advance 1 0, .advance 1 0, .advance 1 0]).any
      (fun sc => sc.abandoned == [] &&
        sc.tasks.map (·.creates?) == [some ⟨⟨[0x2F]⟩, "rust"⟩, none]) = true := by
    decide +kernel
  obtain ⟨sc, hsc, hcheck⟩ := (Option.any_eq_true _ _).mp hplay
  obtain ⟨hab, hmap⟩ : sc.abandoned = [] ∧
      sc.tasks.map (·.creates?) = [some ⟨⟨[0x2F]⟩, "rust"⟩, none] := by
    simpa only [Bool.and_eq_true, beq_iff_eq] using hcheck
  have run : Run (Step barren) (.start .empty 0) sc := .of_play (fun hs _ => hs) hsc
  have hlive : Live sc ⟨⟨[0x2F]⟩, "rust"⟩ (.inl 0) := .of_map (by rw [hmap]; rfl)
  refine ⟨sc, _, run, by simpa using congrArg List.length hmap, hlive, fun p hp => ?_⟩
  rcases live_unique run hp hlive with heq | ⟨s, s', -, -, -, hs | hs⟩
  · exact heq
  all_goals
    rw [hab] at hs
    cases hs

/-- **Two sessions for one key are created at once**, when the first of three callers fails while
the second one waits, and the third one comes after that. -/
theorem exists_two_creations : ¬ ∀ (env : ManagerEnvironment) (files : FileTree) (now : Nat)
    (sc : Scene), Run (Step env) (.start files now) sc →
      ∀ (key : SessionKey) (p q : Nat ⊕ Nat), Live sc key p → Live sc key q → p = q := by
  have hplay : ((Scene.start .empty 0).play barren (fun _ _ _ => true)
      [.call visitor, .call visitor, .call visitor,
        -- the first creates, and the second waits
        .advance 0 0, .advance 0 0, .advance 0 0, .advance 0 0,
        .advance 1 0, .advance 1 0, .advance 1 0,
        -- the first fails, and takes the slot out of the table
        .advance 0 0, .advance 0 0, .advance 0 0,
        -- the third finds no slot and creates at a new one, and the second creates at the old one
        .advance 2 0, .advance 2 0, .advance 2 0, .advance 2 0, .advance 1 0]).any
      (fun sc => sc.tasks.map (·.creates?) ==
        [none, some ⟨⟨[0x2F]⟩, "rust"⟩, some ⟨⟨[0x2F]⟩, "rust"⟩]) = true := by
    decide +kernel
  obtain ⟨sc, hsc, hcheck⟩ := (Option.any_eq_true _ _).mp hplay
  have run : Run (Step barren) (.start .empty 0) sc := .of_play (fun hs _ => hs) hsc
  have hmap := beq_iff_eq.mp hcheck
  intro h
  have heq := h barren .empty 0 sc run _ (.inl 1) (.inl 2) (.of_map (by rw [hmap]; rfl))
    (.of_map (by rw [hmap]; rfl))
  cases heq

end Manager

end LanguageHub
