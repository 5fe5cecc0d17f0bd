import LanguageHub.Proofs.Manager.Ledger

/-!
# Every slot is used once

Who creates the session of a slot is the first at it, and the slot is empty (`Manager.Exclusive`).
So a creation begins only at a slot at which none has begun (`Manager.Built.notMem`), and as the
session stays in its slot, none begins there again: **a slot has one creation**, or somebody waits
at it (`Manager.Built`). In the same way a creation has one launch, or has not come to it
(`Manager.Launched`), and a call receives the session of its slot, or is on its way to it
(`Manager.Delivered`).

That a list of the ledger names no slot twice is what turns these into numbers.
-/

namespace LanguageHub

namespace Manager

variable {env : ManagerEnvironment} {sc sc' : Scene} {e : Event} {es es' : List Event}
  {m m' : Manager} {κ : Nat → SessionKey} {key k : SessionKey} {slot n i j now : Nat}
  {t t' : Task} {st st' : Standing} {f : Nat → Standing} {entry : Option Entry}

/-! ### Creations -/

/-- **Every slot has one creation**: a session is created only at a slot that is empty and at which
nobody creates one. A slot at which no session was created is still waited for. -/
structure Built (es : List Event) (m : Manager) (f : Nat → Standing) : Prop where
  looked : ∀ {k n slot}, (n, slot) ∈ booked Entry.creation? k es →
    (n, slot) ∈ booked Entry.lookup? k es
  nodup : ∀ k, ((booked Entry.creation? k es).map (·.2)).Nodup
  begun : ∀ {k n slot}, (n, slot) ∈ booked Entry.creation? k es →
    (∃ i, m.sessionIn slot = some i) ∨ ∃ j, (f j).CreatesAt slot
  creates : ∀ {k n slot}, (f n).CreatesAt slot → (f n).place? = some (k, slot) →
    (n, slot) ∈ booked Entry.creation? k es
  filled : ∀ {slot i}, m.sessionIn slot = some i →
    ∃ k n, (n, slot) ∈ booked Entry.creation? k es
  pending : ∀ {k n slot}, (n, slot) ∈ booked Entry.lookup? k es →
    (∃ j, (j, slot) ∈ booked Entry.creation? k es) ∨ ∃ j k', f j = .waiting k' slot

/-- Who creates the session of a slot is the first at it, and the slot is empty. -/
def Exclusive (m : Manager) (f : Nat → Standing) : Prop :=
  ∀ n slot, (f n).CreatesAt slot → Holds m n slot

theorem Tidy.exclusive (h : Tidy κ sc) : Exclusive sc.manager sc.standing := by
  intro n slot hc
  rcases hn : sc.tasks[n]? with _ | t
  · rw [Scene.standing, hn] at hc
    exact hc.elim
  · rw [standing_eq hn] at hc
    have hseat := h.seated n t hn
    rcases t with ⟨l, x, stage⟩ | _ | _ | _ | _ | _ | _
    · cases stage with
      | installing | launching =>
        cases hc
        exact hseat.2
      | handshaking =>
        cases hc
        exact hseat.2.1
      | _ => exact hc.elim
    all_goals exact hc.elim

theorem Standing.place?_of_createsAt (h : st.CreatesAt slot) : ∃ k, st.place? = some (k, slot) := by
  cases st with
  | building k s | greeting k s =>
    cases h
    exact ⟨k, rfl⟩
  | _ => exact h.elim

/-- **What a step has to do with creating sessions**, if no creation begins: sessions stay in their
slots, and whoever leaves a slot at which it creates or waits leaves a session there. -/
structure Tending (m : Manager) (st : Standing) (m' : Manager) (st' : Standing) : Prop where
  keeps : ∀ {s i}, m.sessionIn s = some i → m'.sessionIn s = some i
  fills : ∀ {s i}, m'.sessionIn s = some i → (∃ i', m.sessionIn s = some i') ∨ st.CreatesAt s
  creates : ∀ {s}, st'.CreatesAt s → st.CreatesAt s ∧ st'.place? = st.place?
  built : ∀ {s}, st.CreatesAt s → st'.CreatesAt s ∨ ∃ i, m'.sessionIn s = some i
  waits : ∀ {k s}, st = .waiting k s → st' = .waiting k s ∨ ∃ i, m.sessionIn s = some i

theorem Books.tending (h : Books n m st entry m' st')
    (hnone : ∀ x, entry = some x → x.creation? = none)
    (hempty : ∀ s, st.CreatesAt s → m.sessionIn s = none) : Tending m st m' st' := by
  have same : (∀ s, m'.sessionIn s = m.sessionIn s) →
      (∀ {s}, st'.CreatesAt s → st.CreatesAt s ∧ st'.place? = st.place?) →
      (∀ {s}, st.CreatesAt s → st'.CreatesAt s) →
      (∀ {k s}, st = .waiting k s → st' = .waiting k s ∨ ∃ i, m.sessionIn s = some i) →
      Tending m st m' st' := fun hin hc hb hw =>
    ⟨fun hs => (hin _).trans hs, fun hs => .inl ⟨_, hin _ ▸ hs⟩, hc, fun hs => .inl (hb hs), hw⟩
  cases h with
  | rest _ hm => exact same hm.sessionIn (fun h => ⟨h, rfl⟩) id .inl
  | leave hm => exact same hm.sessionIn (fun h => h.elim) (fun h => h.elim) (fun h => by cases h)
  | share _ _ _ hm =>
    exact same hm.sessionIn (fun h => h.elim) (fun h => h.elim) (fun h => by cases h)
  | fresh _ _ hm =>
    exact same hm.sessionIn (fun h => h.elim) (fun h => h.elim) (fun h => by cases h)
  | replace _ _ _ _ _ hm =>
    exact same hm.sessionIn (fun h => h.elim) (fun h => h.elim) (fun h => by cases h)
  | create => cases hnone _ rfl
  | launch key slot hm => exact same hm.sessionIn (fun h => ⟨h, rfl⟩) id (fun h => by cases h)
  | receive key slot i hi hm =>
    refine same hm.sessionIn (fun h => h.elim) (fun h => h.elim) (fun h => ?_)
    cases h
    exact .inr ⟨i, hi⟩
  | fill key slot i _ hin =>
    refine ⟨fun {s j} hs => ?_, fun {s j} hs => ?_, fun h => h.elim, fun {s} hs => ?_,
      fun h => by cases h⟩
    · rw [hin, if_neg, hs]
      rintro rfl
      rw [hempty s rfl] at hs
      cases hs
    · rw [hin] at hs
      split at hs
      · next heq => exact .inr heq.symm
      · exact .inl ⟨j, hs⟩
    · cases hs
      exact .inr ⟨i, by rw [hin, if_pos rfl]⟩

/-- No creation begins. -/
theorem Built.keep (h : Built es m f) (hl : Looked es m f) (he : e.booking? = entry.map (n, ·))
    (hnone : ∀ x, entry = some x → x.creation? = none) (ht : Tending m (f n) m' st)
    (hlook : ∀ {k y}, y ∈ booked Entry.lookup? k (es ++ [e]) →
      y ∈ booked Entry.lookup? k es ∨ ∃ k', st = .waiting k' y.2) :
    Built (es ++ [e]) m' (Function.update f n st) := by
  have hsame : ∀ k, booked Entry.creation? k (es ++ [e]) = booked Entry.creation? k es :=
    fun k => booked_concat_of_none he hnone
  constructor
  · intro k j s hj
    exact mem_booked_append (h.looked (hsame k ▸ hj))
  · intro k
    rw [hsame]
    exact h.nodup k
  · intro k j s hj
    rcases h.begun (hsame k ▸ hj) with ⟨i, hi⟩ | ⟨c, hc⟩
    · exact .inl ⟨i, ht.keeps hi⟩
    · rcases eq_or_ne c n with rfl | hne
      · rcases ht.built hc with hc | hi
        · exact .inr ⟨c, by rwa [Function.update_self]⟩
        · exact .inl hi
      · exact .inr ⟨c, by rwa [Function.update_of_ne hne]⟩
  · intro k j s hc hp
    rw [hsame]
    rcases eq_or_ne j n with rfl | hne
    · rw [Function.update_self] at hc hp
      obtain ⟨hc', hplace⟩ := ht.creates hc
      exact h.creates hc' (hplace ▸ hp)
    · rw [Function.update_of_ne hne] at hc hp
      exact h.creates hc hp
  · intro s i hi
    simp only [hsame]
    rcases ht.fills hi with ⟨i', hi'⟩ | hc
    · exact h.filled hi'
    · obtain ⟨k, hp⟩ := Standing.place?_of_createsAt hc
      exact ⟨k, n, h.creates hc hp⟩
  · intro k j s hj
    rw [hsame]
    rcases hlook hj with hj | ⟨k', hst⟩
    · rcases h.pending hj with hc | ⟨c, k', hc⟩
      · exact .inl hc
      · rcases eq_or_ne c n with rfl | hne
        · rcases ht.waits hc with hst | ⟨i, hi⟩
          · exact .inr ⟨c, k', by rw [Function.update_self, hst]⟩
          · -- it has received the session that was created there
            obtain ⟨k'', c', hc'⟩ := h.filled hi
            have hk := hl.agree (h.looked hc') hj
            exact .inl ⟨c', booked_congr hk ▸ hc'⟩
        · exact .inr ⟨c, k', by rw [Function.update_of_ne hne, hc]⟩
    · exact .inr ⟨n, k', by rw [Function.update_self, hst]⟩

/-- At an empty slot whose first caller only waits, no session was created: whoever has begun to
create it would be the first. -/
theorem Built.notMem (h : Built es m f) (hx : Exclusive m f) (hst : f n = .waiting key slot)
    (hempty : m.sessionIn slot = none) (hfirst : m.creatorAt slot = some n) :
    (j, slot) ∉ booked Entry.creation? k es := by
  intro hj
  rcases h.begun hj with ⟨i, hi⟩ | ⟨c, hc⟩
  · rw [hempty] at hi
    cases hi
  · have hcn := (hx c slot hc).first
    rw [hfirst] at hcn
    obtain rfl := Option.some.inj hcn
    rw [hst] at hc
    exact hc.elim

/-- **A creation begins**, at a slot at which there was none. -/
theorem Built.begin (h : Built es m f) (hl : Looked es m f) (hx : Exclusive m f)
    (he : e.booking? = (some (Entry.creation key slot)).map (n, ·)) (hst : f n = .waiting key slot)
    (hempty : m.sessionIn slot = none) (hfirst : m.creatorAt slot = some n)
    (hm : SameSlots m m') : Built (es ++ [e]) m' (Function.update f n (.building key slot)) := by
  have hlook : ∀ k, booked Entry.lookup? k (es ++ [e]) = booked Entry.lookup? k es := fun k =>
    booked_concat_of_none he (by simp [Entry.lookup?])
  have hmem : ∀ k (y : Nat × Nat), y ∈ booked Entry.creation? k (es ++ [e]) ↔
      y ∈ booked Entry.creation? k es ∨ (y = (n, slot) ∧ key.same k = true) :=
    fun k y => mem_booked_concat_of_some he rfl
  have hseat : (n, slot) ∈ booked Entry.lookup? key es := hl.seated (by rw [hst]; rfl)
  constructor
  · intro k j s hj
    rw [hlook]
    rcases (hmem _ _).mp hj with hj | ⟨hj, hk⟩
    · exact h.looked hj
    · cases hj
      exact booked_congr hk ▸ hseat
  · intro k
    rw [booked_concat he rfl]
    split
    · rw [List.map_append, List.map_singleton, List.nodup_append]
      refine ⟨h.nodup k, List.nodup_singleton _, ?_⟩
      rintro s hs _ hs' rfl
      obtain rfl := List.mem_singleton.mp hs'
      obtain ⟨⟨j, s⟩, hj, rfl⟩ := List.mem_map.mp hs
      exact h.notMem hx hst hempty hfirst hj
    · exact h.nodup k
  · intro k j s hj
    rw [hm.sessionIn]
    rcases (hmem _ _).mp hj with hj | ⟨hj, -⟩
    · rcases h.begun hj with hi | ⟨c, hc⟩
      · exact .inl hi
      · have hne : c ≠ n := by
          rintro rfl
          rw [hst] at hc
          exact hc.elim
        exact .inr ⟨c, by rwa [Function.update_of_ne hne]⟩
    · cases hj
      exact .inr ⟨n, by rw [Function.update_self]; exact rfl⟩
  · intro k j s hc hp
    rcases eq_or_ne j n with rfl | hne
    · rw [Function.update_self] at hc hp
      cases hp
      exact (hmem _ _).mpr (.inr ⟨rfl, SessionKey.same_refl _⟩)
    · rw [Function.update_of_ne hne] at hc hp
      exact (hmem _ _).mpr (.inl (h.creates hc hp))
  · intro s i hi
    obtain ⟨k, j, hj⟩ := h.filled ((hm.sessionIn s).symm.trans hi)
    exact ⟨k, j, (hmem _ _).mpr (.inl hj)⟩
  · intro k j s hj
    rw [hlook] at hj
    rcases h.pending hj with ⟨c, hc⟩ | ⟨c, k', hc⟩
    · exact .inl ⟨c, (hmem _ _).mpr (.inl hc)⟩
    · rcases eq_or_ne c n with rfl | hne
      · rw [hst] at hc
        cases hc
        exact .inl ⟨c, (hmem _ _).mpr (.inr ⟨rfl, hl.agree hseat hj⟩)⟩
      · exact .inr ⟨c, k', by rw [Function.update_of_ne hne, hc]⟩

theorem Built.step (h : Built es m f) (hl : Looked es m f) (hx : Exclusive m f)
    (he : e.booking? = entry.map (n, ·)) (hb : Books n m (f n) entry m' st) :
    Built (es ++ [e]) m' (Function.update f n st) := by
  by_cases hc : ∀ x, entry = some x → x.creation? = none
  · refine h.keep hl he hc (hb.tending hc fun s hs => (hx n s hs).empty) fun {k y} hy => ?_
    -- who has looked up a slot waits for it
    obtain ⟨j, s⟩ := y
    rcases mem_booked_concat.mp hy with hy | ⟨x, k', hx, hw, -⟩
    · exact .inl hy
    · rw [he] at hx
      obtain ⟨x', rfl, hx'⟩ := Option.map_eq_some_iff.mp hx
      obtain ⟨-, rfl⟩ := Prod.mk.inj hx'
      generalize f n = st₀ at hb
      cases hb with
      | share | fresh | replace =>
        cases hw
        exact .inr ⟨_, rfl⟩
      | _ => cases hw
  · generalize hst : f n = st₀ at hb
    cases hb with
    | create key slot hempty hfirst hm => exact h.begin hl hx he hst hempty hfirst hm
    | rest | leave | share | fresh | replace | launch | receive | fill =>
      exact absurd (by simp [Entry.creation?]) hc

/-! ### Launches -/

/-- **Every creation launches one server.** -/
structure Launched (es : List Event) (f : Nat → Standing) : Prop where
  created : ∀ {k y}, y ∈ booked Entry.launch? k es → y ∈ booked Entry.creation? k es
  nodup : ∀ k, ((booked Entry.launch? k es).map (·.2)).Nodup
  pending : ∀ {k n slot}, (n, slot) ∈ booked Entry.creation? k es →
    (n, slot) ∈ booked Entry.launch? k es ∨ ∃ k', f n = .building k' slot
  fresh : ∀ {n k slot}, f n = .building k slot →
    ∀ k' j, (j, slot) ∉ booked Entry.launch? k' es

/-- Nobody comes to build or has launched a server. -/
theorem Launched.keep (h : Launched es f) (he : e.booking? = entry.map (n, ·))
    (hnone : ∀ x, entry = some x → x.creation? = none ∧ x.launch? = none)
    (hbuilding : ∀ k s, st = .building k s ↔ f n = .building k s) :
    Launched (es ++ [e]) (Function.update f n st) := by
  have hc : ∀ k, booked Entry.creation? k (es ++ [e]) = booked Entry.creation? k es := fun k =>
    booked_concat_of_none he fun x hx => (hnone x hx).1
  have hn : ∀ k, booked Entry.launch? k (es ++ [e]) = booked Entry.launch? k es := fun k =>
    booked_concat_of_none he fun x hx => (hnone x hx).2
  have hf : ∀ j k s, Function.update f n st j = .building k s ↔ f j = .building k s := by
    intro j k s
    rcases eq_or_ne j n with rfl | hne
    · rw [Function.update_self, hbuilding]
    · rw [Function.update_of_ne hne]
  refine ⟨fun {k y} hy => ?_, fun k => ?_, fun {k j s} hj => ?_, fun {j k s} hj k' j' => ?_⟩
  · rw [hc]
    exact h.created (hn k ▸ hy)
  · rw [hn]
    exact h.nodup k
  · rw [hn]
    simp only [hf]
    exact h.pending (hc k ▸ hj)
  · rw [hn]
    exact h.fresh ((hf j k s).mp hj) k' j'

theorem Launched.step (h : Launched es f) (hbuilt : Built es m f) (hl : Looked es m f)
    (hx : Exclusive m f) (he : e.booking? = entry.map (n, ·)) (hb : Books n m (f n) entry m' st) :
    Launched (es ++ [e]) (Function.update f n st) := by
  generalize hst : f n = st₀ at hb
  cases hb with
  | rest => exact h.keep he (by simp) (by simp [hst])
  | leave => exact h.keep he (by simp) (by simp [hst])
  | share | fresh | replace | receive | fill =>
    exact h.keep he (by simp [Entry.creation?, Entry.launch?]) (by simp [hst])
  | create key slot hempty hfirst =>
    have hn : ∀ k, booked Entry.launch? k (es ++ [e]) = booked Entry.launch? k es := fun k =>
      booked_concat_of_none he (by simp [Entry.launch?])
    refine ⟨fun {k y} hy => mem_booked_append (h.created (hn k ▸ hy)), fun k => ?_,
      fun {k j s} hj => ?_, fun {j k s} hj k' j' => ?_⟩
    · rw [hn]
      exact h.nodup k
    · rw [hn]
      rcases (mem_booked_concat_of_some he rfl).mp hj with hj | ⟨hj, -⟩
      · refine (h.pending hj).imp id fun ⟨k', hk'⟩ => ⟨k', ?_⟩
        rw [Function.update_of_ne, hk']
        rintro rfl
        rw [hst] at hk'
        cases hk'
      · cases hj
        exact .inr ⟨key, by rw [Function.update_self]⟩
    · rw [hn]
      rcases eq_or_ne j n with rfl | hne
      · rw [Function.update_self] at hj
        cases hj
        exact fun hc => hbuilt.notMem hx hst hempty hfirst (h.created hc)
      · rw [Function.update_of_ne hne] at hj
        exact h.fresh hj k' j'
  | launch key slot =>
    have hc : ∀ k, booked Entry.creation? k (es ++ [e]) = booked Entry.creation? k es := fun k =>
      booked_concat_of_none he (by simp [Entry.creation?])
    have hcreates : (f n).CreatesAt slot := by rw [hst]; exact rfl
    have hseat : (f n).place? = some (key, slot) := by rw [hst]; rfl
    refine ⟨fun {k y} hy => ?_, fun k => ?_, fun {k j s} hj => ?_, fun {j k s} hj k' j' hj' => ?_⟩
    · rw [hc]
      rcases (mem_booked_concat_of_some he rfl).mp hy with hy | ⟨rfl, hk⟩
      · exact h.created hy
      · exact booked_congr hk ▸ hbuilt.creates hcreates hseat
    · rw [booked_concat he rfl]
      split
      · rw [List.map_append, List.map_singleton, List.nodup_append]
        refine ⟨h.nodup k, List.nodup_singleton _, ?_⟩
        rintro s hs _ hs' rfl
        obtain rfl := List.mem_singleton.mp hs'
        obtain ⟨⟨j, s⟩, hj, rfl⟩ := List.mem_map.mp hs
        exact h.fresh hst k j hj
      · exact h.nodup k
    · rw [hc] at hj
      rw [mem_booked_concat_of_some he rfl]
      rcases h.pending hj with hj' | ⟨k', hk'⟩
      · exact .inl (.inl hj')
      · rcases eq_or_ne j n with rfl | hne
        · rw [hst] at hk'
          cases hk'
          exact .inl (.inr ⟨rfl, hl.agree (hl.seated hseat) (hbuilt.looked hj)⟩)
        · exact .inr ⟨k', by rw [Function.update_of_ne hne, hk']⟩
    · rcases eq_or_ne j n with rfl | hne
      · rw [Function.update_self] at hj
        cases hj
      · rw [Function.update_of_ne hne] at hj
        rcases (mem_booked_concat_of_some he rfl).mp hj' with hj' | ⟨hj', -⟩
        · exact h.fresh hj k' j' hj'
        · -- two would create a session at one slot
          cases hj'
          have hother : (f j).CreatesAt slot := by rw [hj]; exact rfl
          exact hne ((hx j slot hother).unique (hx n slot hcreates))

/-! ### How many creations and launches there are -/

/-- No call for a key is between the look-up of its slot and its session. -/
def Idle (f : Nat → Standing) (key : SessionKey) : Prop :=
  ∀ {n k slot}, (f n).place? = some (k, slot) → k.same key = false

/-- **Creations are as many as slots**, when no call for the key is on its way. -/
theorem Built.length_eq (h : Built es m f) (hl : Looked es m f) (hidle : Idle f key) :
    (booked Entry.creation? key es).length = (slotsOf key es).card := by
  rw [← List.length_map (f := (·.2)), ← List.toFinset_card_of_nodup (h.nodup key)]
  congr 1
  ext slot
  simp only [List.mem_toFinset, List.mem_map, mem_slotsOf]
  constructor
  · rintro ⟨⟨n, s⟩, hc, rfl⟩
    exact ⟨n, h.looked hc⟩
  · rintro ⟨n, hn⟩
    rcases h.pending hn with ⟨j, hj⟩ | ⟨j, k, hj⟩
    · exact ⟨(j, slot), hj, rfl⟩
    · -- somebody waits at the slot, so the slot is of another key
      have hp : (f j).place? = some (k, slot) := by rw [hj]; rfl
      have hk := hl.agree (hl.seated hp) hn
      rw [hidle hp] at hk
      cases hk

/-- There are never more creations than slots. -/
theorem Built.length_le (h : Built es m f) :
    (booked Entry.creation? key es).length ≤ (slotsOf key es).card := by
  rw [← List.length_map (f := (·.2)), ← List.toFinset_card_of_nodup (h.nodup key)]
  refine Finset.card_le_card fun slot hs => ?_
  obtain ⟨⟨n, s⟩, hc, rfl⟩ := List.mem_map.mp (List.mem_toFinset.mp hs)
  exact mem_slotsOf.mpr ⟨n, h.looked hc⟩

/-- There are never more launches than creations, -/
theorem Launched.length_le (h : Launched es f) :
    (booked Entry.launch? key es).length ≤ (booked Entry.creation? key es).length := by
  refine (List.subperm_of_subset ?_ fun y hy => h.created hy).length_le
  exact List.Nodup.of_map _ (h.nodup key)

/-- and as many when no call for the key is on its way. -/
theorem Launched.length_eq (h : Launched es f) (hbuilt : Built es m f) (hl : Looked es m f)
    (hidle : Idle f key) :
    (booked Entry.launch? key es).length = (booked Entry.creation? key es).length := by
  refine Nat.le_antisymm h.length_le (List.subperm_of_subset ?_ fun ⟨n, slot⟩ hc => ?_).length_le
  · exact List.Nodup.of_map _ (hbuilt.nodup key)
  · refine (h.pending hc).resolve_right ?_
    rintro ⟨k, hk⟩
    have hp : (f n).place? = some (k, slot) := by rw [hk]; rfl
    have hsame := hl.agree (hl.seated hp) (hbuilt.looked hc)
    rw [hidle hp] at hsame
    cases hsame

/-! ### Sessions that were received -/

/-- **A call receives the session of its slot**, or is still on its way to it. -/
structure Delivered (es : List Event) (m : Manager) (f : Nat → Standing) : Prop where
  held : ∀ {k n i}, (n, i) ∈ booked Entry.delivery? k es →
    ∃ slot, (n, slot) ∈ booked Entry.lookup? k es ∧ m.sessionIn slot = some i
  served : ∀ {k n slot}, (n, slot) ∈ booked Entry.lookup? k es →
    (∃ k', (f n).place? = some (k', slot)) ∨ ∃ i, (n, i) ∈ booked Entry.delivery? k es

/-- Sessions stay in their slots. -/
theorem Books.keeps (h : Books n m st entry m' st')
    (hempty : ∀ s, st.CreatesAt s → m.sessionIn s = none) (hi : m.sessionIn slot = some i) :
    m'.sessionIn slot = some i := by
  by_cases hc : ∀ x, entry = some x → x.creation? = none
  · exact (h.tending hc hempty).keeps hi
  · cases h with
    | create _ _ _ _ hm => rwa [hm.sessionIn]
    | _ => exact absurd (by simp [Entry.creation?]) hc

/-- **A call receives a session**, which is the one in its slot. -/
theorem Delivered.receive (h : Delivered es m f) (hl : Looked es m f)
    (he : e.booking? = (some (Entry.delivery key i)).map (n, ·))
    (hp : (f n).place? = some (key, slot)) (hi : m'.sessionIn slot = some i)
    (hkeeps : ∀ {s j}, m.sessionIn s = some j → m'.sessionIn s = some j) :
    Delivered (es ++ [e]) m' (Function.update f n .past) := by
  have hlook : ∀ k, booked Entry.lookup? k (es ++ [e]) = booked Entry.lookup? k es := fun k =>
    booked_concat_of_none he (by simp [Entry.lookup?])
  have hseat := hl.seated hp
  constructor
  · intro k j i' hj
    rw [hlook]
    rcases (mem_booked_concat_of_some he rfl).mp hj with hj | ⟨hj, hk⟩
    · obtain ⟨s, hs, hin⟩ := h.held hj
      exact ⟨s, hs, hkeeps hin⟩
    · cases hj
      exact ⟨slot, booked_congr hk ▸ hseat, hi⟩
  · intro k j s hj
    rw [hlook] at hj
    rcases eq_or_ne j n with rfl | hne
    · refine .inr ⟨i, (mem_booked_concat_of_some he rfl).mpr (.inr ⟨rfl, ?_⟩)⟩
      obtain rfl := hl.unique hseat hj
      exact hl.agree hseat hj
    · rw [Function.update_of_ne hne]
      exact (h.served hj).imp id (Exists.imp fun _ => mem_booked_append)

/-- No call receives a session. -/
theorem Delivered.keep (h : Delivered es m f) (hl : Looked es m f)
    (he : e.booking? = entry.map (n, ·)) (hnone : ∀ x, entry = some x → x.delivery? = none)
    (hkeeps : ∀ {s j}, m.sessionIn s = some j → m'.sessionIn s = some j)
    (hst : f n = .before ∨ st.place? = (f n).place?)
    (hlook : ∀ {k j s}, (j, s) ∈ booked Entry.lookup? k (es ++ [e]) →
      (j, s) ∈ booked Entry.lookup? k es ∨ (j = n ∧ ∃ k', st.place? = some (k', s))) :
    Delivered (es ++ [e]) m' (Function.update f n st) := by
  have hsame : ∀ k, booked Entry.delivery? k (es ++ [e]) = booked Entry.delivery? k es :=
    fun k => booked_concat_of_none he hnone
  constructor
  · intro k j i hj
    obtain ⟨s, hs, hin⟩ := h.held (hsame k ▸ hj)
    exact ⟨s, mem_booked_append hs, hkeeps hin⟩
  · intro k j s hj
    rw [hsame]
    rcases hlook hj with hj | ⟨rfl, hp⟩
    · rcases eq_or_ne j n with rfl | hne
      · rw [Function.update_self]
        rcases hst with hbefore | hplace
        · exact absurd hbefore (hl.once hj)
        · rw [hplace]
          exact h.served hj
      · rw [Function.update_of_ne hne]
        exact h.served hj
    · exact .inl (by rwa [Function.update_self])

theorem Delivered.step (h : Delivered es m f) (hl : Looked es m f) (hx : Exclusive m f)
    (he : e.booking? = entry.map (n, ·)) (hb : Books n m (f n) entry m' st) :
    Delivered (es ++ [e]) m' (Function.update f n st) := by
  have hkeeps : ∀ {s j}, m.sessionIn s = some j → m'.sessionIn s = some j := fun hi =>
    hb.keeps (fun s hs => (hx n s hs).empty) hi
  -- what is looked up is the slot of the call
  have look : (∀ x k s, entry = some x → x.lookup? = some (k, s) → st.place? = some (k, s)) →
      ∀ {k j s}, (j, s) ∈ booked Entry.lookup? k (es ++ [e]) →
        (j, s) ∈ booked Entry.lookup? k es ∨ (j = n ∧ ∃ k', st.place? = some (k', s)) := by
    intro hplace k j s hj
    refine (mem_booked_concat.mp hj).imp id ?_
    rintro ⟨x, k', hx, hw, -⟩
    rw [he] at hx
    obtain ⟨x', rfl, hx'⟩ := Option.map_eq_some_iff.mp hx
    cases hx'
    exact ⟨rfl, k', hplace _ _ _ rfl hw⟩
  generalize hst : f n = st₀ at hb
  cases hb with
  | rest => exact h.keep hl he (by simp) hkeeps (.inr (by rw [hst])) (look (by simp))
  | leave => exact h.keep hl he (by simp) hkeeps (.inl hst) (look (by simp))
  | share | fresh | replace =>
    refine h.keep hl he (by simp [Entry.delivery?]) hkeeps (.inl hst) (look ?_)
    rintro _ k s ⟨⟩ ⟨⟩
    rfl
  | create | launch =>
    refine h.keep hl he (by simp [Entry.delivery?]) hkeeps (.inr (by rw [hst]; rfl)) (look ?_)
    rintro _ k s ⟨⟩ ⟨⟩
  | receive key slot i hi => exact h.receive hl he (by rw [hst]; rfl) (hkeeps hi) hkeeps
  | fill key slot i _ hin =>
    exact h.receive hl he (by rw [hst]; rfl) (by rw [hin, if_pos rfl]) hkeeps

end Manager

end LanguageHub
