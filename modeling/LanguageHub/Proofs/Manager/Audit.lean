import LanguageHub.Proofs.Manager.Retirement

/-!
# The accounts of a key

As long as no creation fails and nobody shuts the manager down, a key has one slot for its first
call and one for each replacement (`Manager.Counted`), a slot has one creation (`Manager.Built`) and
a creation one launch (`Manager.Launched`). So **the creations of a key are one and the
replacements** (`Manager.accounts_balance`): never more, and as many when no call for the key is on
its way.

Between two replacements the slot of a key stays the same, and so do the sessions that its callers
receive (`Manager.Accounts.shared`).
-/

namespace LanguageHub

namespace Manager

variable {env : ManagerEnvironment} {R : Scene → Event → Scene → Prop} {sc sc' sc'' : Scene}
  {e : Event} {es es' es'' : List Event} {m m' : Manager} {key : SessionKey}
  {slot n i now : Nat} {st st' : Standing} {entry : Option Entry}

/-! ### All that is known of the ledger -/

/-- **What the ledger of a run and its last scene have to do with each other.** -/
structure Audited (es : List Event) (sc : Scene) : Prop where
  tidy : ∃ κ, Tidy κ sc
  looked : Looked es sc.manager sc.standing
  counted : Counted es
  built : Built es sc.manager sc.standing
  launched : Launched es sc.standing
  delivered : Delivered es sc.manager sc.standing
  housed : Housed sc.manager sc.standing
  retired : Retired es sc.manager
  disposals : Disposals es sc

theorem audited_start (files : FileTree) (now : Nat) : Audited [] (.start files now) where
  tidy := ⟨fun _ => default, tidy_start files now _⟩
  looked := by
    constructor <;> simp [booked, Scene.start, Manager.start, Scene.standing, slotOf,
      Standing.place?]
  counted := by simp [Counted, slotsOf, booked]
  built := by
    constructor <;> simp [booked, Scene.start, Manager.start, Scene.standing, sessionIn,
      Standing.CreatesAt]
  launched := by constructor <;> simp [booked, Scene.start, Scene.standing]
  delivered := by constructor <;> simp [booked]
  housed := by
    constructor <;> simp [Scene.start, Manager.start, Scene.standing, sessionIn]
  retired := by constructor <;> simp [booked]
  disposals := by
    constructor <;> simp [booked, Scene.start, Manager.start, Disposes, Disposing]

theorem Audited.step (h : Audited es sc) (hs : Serving env sc e sc') :
    Audited (es ++ [e]) sc' := by
  obtain ⟨κ, htidy⟩ := h.tidy
  obtain ⟨n, entry, st, he, hb, hst⟩ := hs.books htidy
  have hx : Exclusive sc.manager sc.standing := htidy.exclusive
  have retired : Retired (es ++ [e]) sc'.manager := h.retired.step h.housed h.looked hx he hb
  exact {
    tidy := htidy.step hs.1
    looked := hst ▸ h.looked.step he hb
    counted := h.counted.step h.looked he hb
    built := hst ▸ h.built.step h.looked hx he hb
    launched := hst ▸ h.launched.step h.built h.looked hx he hb
    delivered := hst ▸ h.delivered.step h.looked hx he hb
    housed := hst ▸ h.housed.step htidy.bounded hb
    retired := retired
    disposals := h.disposals.step h.retired retired h.housed h.looked hs }

theorem Trace.audited {files : FileTree} (h : Trace (Serving env) (.start files now) es sc) :
    Audited es sc :=
  h.invariant Audited.step (audited_start files now)

/-! ### Between two replacements -/

/-- The part of a run before some of its last events, and the part with these. -/
theorem Trace.split (h : Trace R sc (es ++ es') sc'') :
    ∃ sc', Trace R sc es sc' ∧ Trace R sc' es' sc'' := by
  induction es' using List.reverseRecOn generalizing sc'' with
  | nil => exact ⟨sc'', by simpa using h, .nil⟩
  | append_singleton es' e ih =>
    rw [← List.append_assoc] at h
    generalize hl : es ++ es' ++ [e] = l at h
    cases h with
    | nil => exact absurd hl (by simp)
    | concat h hs =>
      obtain ⟨rfl, heq⟩ := List.append_inj' hl rfl
      cases heq
      obtain ⟨sc₁, h₁, h₂⟩ := ih h
      exact ⟨sc₁, h₁, h₂.concat hs⟩

/-- A key has the slot that was looked up for it, -/
theorem Books.slotOf_of_lookup (h : Books n m st entry m' st') {x : Entry}
    (hx : entry = some x) {k : SessionKey} (hl : x.lookup? = some (k, slot)) :
    m'.slotOf k = some slot := by
  cases h with
  | share k s hslot hm =>
    cases hx
    cases hl
    rw [hm.slotOf, hslot]
  | fresh k _ hm | replace k _ _ _ _ hm =>
    cases hx
    cases hl
    rw [hm.slotOf, if_pos (SessionKey.same_refl _)]
  | rest | leave => cases hx
  | create | launch | receive | fill =>
    cases hx
    cases hl

/-- and keeps it until its session is replaced. -/
theorem Books.slotOf_keeps (h : Books n m st entry m' st') (hs : m.slotOf key = some slot)
    (hr : ∀ x k i, entry = some x → x.replacement? = some (k, i) → k.same key = false) :
    m'.slotOf key = some slot := by
  cases h with
  | rest _ hm | leave hm | share _ _ _ hm | create _ _ _ _ hm | launch _ _ hm
  | receive _ _ _ _ hm => rw [hm.slotOf, hs]
  | fresh k hnone hm =>
    rw [hm.slotOf, if_neg, hs]
    intro hk
    rw [slotOf_congr m hk, hs] at hnone
    cases hnone
  | replace k _ _ _ _ hm =>
    rw [hm.slotOf, if_neg, hs]
    rw [hr _ k _ rfl rfl]
    exact Bool.false_ne_true
  | fill _ _ _ hof => rw [hof, hs]

/-- **Between two replacements all calls for a key look up one slot.** -/
theorem Trace.slotOf_of_lookup (htidy : ∃ κ, Tidy κ sc) (h : Trace (Serving env) sc es sc')
    (hr : booked Entry.replacement? key es.tail = []) :
    ∀ x ∈ booked Entry.lookup? key es, sc'.manager.slotOf key = some x.2 := by
  have hall : (∃ κ, Tidy κ sc') ∧ (booked Entry.replacement? key es.tail = [] →
      ∀ x ∈ booked Entry.lookup? key es, sc'.manager.slotOf key = some x.2) := by
    refine h.invariant (I := fun es sc' => (∃ κ, Tidy κ sc') ∧
      (booked Entry.replacement? key es.tail = [] →
        ∀ x ∈ booked Entry.lookup? key es, sc'.manager.slotOf key = some x.2)) ?_
      ⟨htidy, fun _ x hx => absurd hx List.not_mem_nil⟩
    rintro es sc e sc' ⟨⟨κ, htidy⟩, ih⟩ hs
    refine ⟨htidy.step hs.1, fun hr x hx => ?_⟩
    obtain ⟨n, entry, st, he, hb, -⟩ := hs.books htidy
    rcases mem_booked_concat.mp hx with hx | ⟨y, k, hy, hl, hk⟩
    · -- the list of the events so far is not empty, and no event after its first one replaces
      have hne : es ≠ [] := by
        rintro rfl
        exact absurd hx List.not_mem_nil
      rw [List.tail_append_of_ne_nil hne, booked_append, List.append_eq_nil_iff] at hr
      refine hb.slotOf_keeps (ih hr.1 x hx) fun y k i hy hw => ?_
      rw [Bool.eq_false_iff]
      intro hk
      have hmem : (n, i) ∈ booked Entry.replacement? key ([] ++ [e]) :=
        mem_booked_concat.mpr (.inr ⟨y, k, by rw [he, hy]; rfl, hw, hk⟩)
      rw [List.nil_append, hr.2] at hmem
      exact absurd hmem List.not_mem_nil
    · rw [he] at hy
      obtain ⟨y', rfl, heq⟩ := Option.map_eq_some_iff.mp hy
      cases heq
      rw [← slotOf_congr _ hk]
      exact hb.slotOf_of_lookup rfl hl
  exact hall.2 hr

/-! ### The accounts -/

/-- **The accounts of a key**, at any moment of a run. -/
structure Accounts (es : List Event) (sc : Scene) (key : SessionKey) : Prop where
  /-- Never is more created than one session and one for each replacement, -/
  atMost : (booked Entry.creation? key es).length ≤
    if booked Entry.lookup? key es = [] then 0 else 1 + (booked Entry.replacement? key es).length
  /-- and nothing less when no call for the key is on its way. -/
  created : Idle sc.standing key → (booked Entry.creation? key es).length =
    if booked Entry.lookup? key es = [] then 0 else 1 + (booked Entry.replacement? key es).length
  launched_le : (booked Entry.launch? key es).length ≤ (booked Entry.creation? key es).length
  launched : Idle sc.standing key →
    (booked Entry.launch? key es).length = (booked Entry.creation? key es).length
  /-- A session is replaced once, -/
  replaced : ((booked Entry.replacement? key es).map (·.2)).Nodup
  /-- and nobody disposes of it but the one who replaces it, -/
  sole : ∀ {n old}, (n, old) ∈ booked Entry.replacement? key es →
    ∀ {n'}, Disposes es n' old → n' = n
  /-- who goes on when it is disposed of. -/
  disposed : ∀ {n old}, (n, old) ∈ booked Entry.replacement? key es →
    (∃ stage, Replaces sc n old stage) ∨ (Disposes es n old ∧ Over sc.manager old)
  /-- Whoever has looked up a slot is on its way to the session, or has received one, -/
  served : ∀ {n slot}, (n, slot) ∈ booked Entry.lookup? key es →
    (∃ k, (sc.standing n).place? = some (k, slot)) ∨ ∃ i, (n, i) ∈ booked Entry.delivery? key es
  /-- which is the same for all that have looked up a slot between two replacements. -/
  shared : ∀ {es₁ es₂ es₃ : List Event} {n n' slot slot' i i' : Nat}, es = es₁ ++ es₂ ++ es₃ →
    booked Entry.replacement? key es₂.tail = [] →
    (n, slot) ∈ booked Entry.lookup? key es₂ → (n', slot') ∈ booked Entry.lookup? key es₂ →
    (n, i) ∈ booked Entry.delivery? key es → (n', i') ∈ booked Entry.delivery? key es → i = i'

/-- **Who has looked up one slot receives one session.** -/
theorem Audited.eq_of_slot (h : Audited es sc) {n' i' : Nat}
    (hn : (n, slot) ∈ booked Entry.lookup? key es) (hn' : (n', slot) ∈ booked Entry.lookup? key es)
    (hi : (n, i) ∈ booked Entry.delivery? key es)
    (hi' : (n', i') ∈ booked Entry.delivery? key es) : i = i' := by
  obtain ⟨s, hs, hin⟩ := h.delivered.held hi
  obtain ⟨s', hs', hin'⟩ := h.delivered.held hi'
  obtain rfl := h.looked.unique hn hs
  obtain rfl := h.looked.unique hn' hs'
  exact Option.some.inj (hin.symm.trans hin')

/-- Who replaces a session looks up a slot. -/
theorem booked_replacement_eq_nil (h : booked Entry.lookup? key es = []) :
    booked Entry.replacement? key es = [] := by
  simp only [booked, List.filterMap_eq_nil_iff, Option.bind_eq_none_iff] at h ⊢
  rintro e he ⟨n, x⟩ hx ⟨k, i⟩ hw
  cases x with
  | replacement k' slot old =>
    cases hw
    have hnone := h e he _ hx (k, slot) rfl
    split at hnone
    · cases hnone
    · next hk => exact if_neg hk
  | _ => cases hw

/-- **One creation, and one for each replacement.** While no creation fails and nobody shuts the
manager down, the accounts of every key balance, whatever the calls and their order. -/
theorem accounts_balance {files : FileTree}
    (h : Trace (Serving env) (.start files now) es sc) (key : SessionKey) :
    Accounts es sc key := by
  have ha := h.audited
  have hcard : (slotsOf key es).card = if booked Entry.lookup? key es = [] then 0 else
      1 + (booked Entry.replacement? key es).length := by
    rw [ha.counted key]
    split
    · next hnil => rw [booked_replacement_eq_nil hnil, List.length_nil]
    · rfl
  refine {
    atMost := hcard ▸ ha.built.length_le
    created := fun hidle => hcard ▸ ha.built.length_eq ha.looked hidle
    launched_le := ha.launched.length_le
    launched := fun hidle => ha.launched.length_eq ha.built ha.looked hidle
    replaced := ha.retired.nodup key
    sole := fun hold n' hd => ?_
    disposed := fun hold => ?_
    served := ha.delivered.served
    shared := ?_ }
  · obtain ⟨k, hk⟩ := ha.disposals.replaced hd
    exact ha.retired.once hk hold
  · rcases ha.disposals.pending hold with ⟨hb, -⟩ | ⟨hd, ⟨stage, hb, -⟩ | hover⟩
    · exact .inl ⟨_, hb⟩
    · exact .inl ⟨stage, hb⟩
    · exact .inr ⟨hd, hover⟩
  · intro es₁ es₂ es₃ n n' slot slot' i i' heq hr hn hn' hi hi'
    rw [heq] at h
    obtain ⟨sc₂, h₂, -⟩ := h.split
    obtain ⟨sc₁, h₁, h₂⟩ := h₂.split
    have hslot := h₂.slotOf_of_lookup h₁.audited.tidy hr
    obtain rfl : slot = slot' := Option.some.inj ((hslot _ hn).symm.trans (hslot _ hn'))
    have late : ∀ {x}, x ∈ booked Entry.lookup? key es₂ → x ∈ booked Entry.lookup? key es := by
      intro x hx
      rw [heq, booked_append, booked_append]
      exact List.mem_append_left _ (List.mem_append_right _ hx)
    exact ha.eq_of_slot (late hn) (late hn') hi hi'

/-! ### A session that is replaced -/

/-- The events of choices one after the other, and the scene that they lead to, if no creation
fails and nobody shuts the manager down. -/
def Scene.record (env : ManagerEnvironment) : List Move → Scene → Option (List Event × Scene)
  | [], sc => some ([], sc)
  | mv :: rest, sc => (mv.play env sc).bind fun x =>
    if sc.tasks.all Task.serves && x.2.tasks.all Task.serves then
      (x.2.record env rest).map fun y => (x.1 :: y.1, y.2)
    else none

theorem Trace.cons (hs : R sc e sc') (h : Trace R sc' es sc'') : Trace R sc (e :: es) sc'' := by
  induction h with
  | nil => exact Trace.nil.concat hs
  | concat _ hs' ih => exact ih.concat hs'

theorem Trace.of_record {moves : List Move} (h : sc.record env moves = some (es, sc')) :
    Trace (Serving env) sc es sc' := by
  induction moves generalizing sc es with
  | nil =>
    cases h
    exact .nil
  | cons mv rest ih =>
    obtain ⟨⟨e, sc₁⟩, hmv, h⟩ := Option.bind_eq_some_iff.mp h
    simp only at h
    split at h
    · next hok =>
      rw [Bool.and_eq_true, List.all_eq_true, List.all_eq_true] at hok
      obtain ⟨⟨es', sc₂⟩, hrest, heq⟩ := Option.map_eq_some_iff.mp h
      cases heq
      exact .cons ⟨Step.of_play hmv, hok.1, hok.2⟩ (ih hrest)
    · cases h

/-- Nobody is on its way to a session. -/
theorem idle_of_all (h : sc.tasks.all (·.standing.place?.isNone) = true) :
    Idle sc.standing key := by
  intro n k slot hp
  rcases hn : sc.tasks[n]? with _ | t
  · rw [Scene.standing, hn] at hp
    cases hp
  · have hnone := List.all_eq_true.mp h t (List.mem_of_getElem? hn)
    rw [standing_eq hn] at hp
    rw [hp] at hnone
    cases hnone

/-- The output of a server that makes no frame. -/
def gibberish : List UInt8 := [13, 10, 13, 10]

/-- A session is assured and degrades, and two callers come: the second creates a session in its
place while the first disposes of it. -/
def succession : List Move :=
  [.call visitor] ++ List.replicate 12 (.advance 0 0) ++
    [.output 0 greeting, .background 0 .reader] ++ List.replicate 5 (.advance 0 0) ++
    [.output 0 gibberish, .background 0 .reader, .call visitor, .call visitor] ++
    List.replicate 2 (.advance 1 0) ++ List.replicate 12 (.advance 2 0) ++
    [.output 1 greeting, .background 1 .reader] ++ List.replicate 5 (.advance 2 0) ++
    List.replicate 6 (.advance 1 0)

/-- **A replaced session costs one creation more**, and both callers receive the new session. -/
theorem accounts_balance_succession : ∃ es sc,
    Trace (Serving (staffed 0)) (.start shelf 0) es sc ∧
    Accounts es sc ⟨⟨[0x2F]⟩, "rust"⟩ ∧
    booked Entry.replacement? ⟨⟨[0x2F]⟩, "rust"⟩ es = [(1, 0)] ∧
    (booked Entry.creation? ⟨⟨[0x2F]⟩, "rust"⟩ es).length = 2 ∧
    (booked Entry.launch? ⟨⟨[0x2F]⟩, "rust"⟩ es).length = 2 ∧
    booked Entry.delivery? ⟨⟨[0x2F]⟩, "rust"⟩ es = [(0, 0), (2, 1), (1, 1)] := by
  have hplay : (Scene.record (staffed 0) succession (.start shelf 0)).any (fun x =>
      x.2.tasks.all (·.standing.place?.isNone) &&
        booked Entry.lookup? ⟨⟨[0x2F]⟩, "rust"⟩ x.1 == [(0, 0), (1, 1), (2, 1)] &&
        booked Entry.replacement? ⟨⟨[0x2F]⟩, "rust"⟩ x.1 == [(1, 0)] &&
        booked Entry.delivery? ⟨⟨[0x2F]⟩, "rust"⟩ x.1 == [(0, 0), (2, 1), (1, 1)]) = true := by
    decide +kernel
  obtain ⟨⟨es, sc⟩, hsc, hplay⟩ := (Option.any_eq_true _ _).mp hplay
  simp only [Bool.and_eq_true, beq_iff_eq] at hplay
  obtain ⟨⟨⟨hidle, hlookups⟩, hreplaced⟩, hdelivered⟩ := hplay
  have trace : Trace (Serving (staffed 0)) (.start shelf 0) es sc := .of_record hsc
  have accounts := accounts_balance trace ⟨⟨[0x2F]⟩, "rust"⟩
  have created := accounts.created (idle_of_all hidle)
  rw [hlookups, hreplaced, if_neg (List.cons_ne_nil _ _)] at created
  exact ⟨es, sc, trace, accounts, hreplaced, created,
    (accounts.launched (idle_of_all hidle)).trans created, hdelivered⟩

end Manager

end LanguageHub
