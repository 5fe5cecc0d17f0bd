import LanguageHub.Proofs.FileTree.Keeping
import LanguageHub.Proofs.Path.Names

/-!
# The ways of paths

What a path says beside whether it starts at the root is the list of its **segments**, and joining
paths appends these lists (`Path.segments_join`). So the parent of an absolute path says the same
but for the last component (`Path.exists_components_of_parent?`), and the way of a path begins with
the way of every path that it continues (`Path.passes_subset`).

A path without double dots goes straight down: it passes the places above its end, and nothing else
(`Path.prefix_of_mem_passes`). With double dots it also passes what it steps out of again.
-/

namespace LanguageHub

namespace Path

variable {p q : Path} {b : List UInt8} {cs ds : List Component} {r : Place}

/-! ### Segments -/

/-- What the stretches between the slashes of a path say. -/
def segments (p : Path) : List Component := (splitAt slash p.bytes).filterMap Component.ofSegment

theorem splitAt_slash (s t : List UInt8) :
    splitAt slash (s ++ slash :: t) = splitAt slash s ++ splitAt slash t := by
  induction s with
  | nil => simp [splitAt]
  | cons c s ih =>
    rw [List.cons_append, splitAt, splitAt, ih]
    split
    · rfl
    · cases hs : splitAt slash s with
      | nil =>
        -- splitting leaves at least one stretch
        cases s with
        | nil => cases hs
        | cons d s =>
          rw [splitAt] at hs
          split at hs
          · cases hs
          · split at hs <;> cases hs
      | cons x more => rfl

theorem components_of_absolute (h : p.isAbsolute = true) : p.components = .root :: p.segments := by
  rw [components, if_pos h]
  rfl

/-- **Joining paths appends their segments**, unless the second one is absolute. -/
theorem segments_join (hq : q.isAbsolute = false) :
    (p.join q).segments = p.segments ++ q.segments := by
  rw [join, hq, if_neg Bool.false_ne_true]
  unfold segments
  split
  · next h =>
    rw [Bool.or_eq_true, List.isEmpty_iff, beq_iff_eq] at h
    rcases h with h | h
    · rw [h]
      rfl
    · -- the slash at the end of the first path is the one between the two
      obtain ⟨s, hs⟩ := List.getLast?_eq_some_iff.mp h
      rw [hs, List.append_assoc, List.singleton_append, splitAt_slash, splitAt_slash,
        List.filterMap_append, List.filterMap_append]
      simp [splitAt, Component.ofSegment]
  · rw [splitAt_slash, List.filterMap_append]

theorem isAbsolute_join (p q : Path) :
    (p.join q).isAbsolute = (p.isAbsolute || q.isAbsolute) := by
  rw [join]
  cases hq : q.isAbsolute with
  | true => rw [if_pos rfl, hq, Bool.or_true]
  | false =>
    rw [if_neg Bool.false_ne_true, Bool.or_false]
    rcases hp : p.bytes with _ | ⟨c, s⟩
    · rw [List.isEmpty_nil, Bool.true_or, if_pos rfl, List.nil_append]
      rw [show p.isAbsolute = false by rw [isAbsolute, hp]; rfl]
      exact hq
    · split <;> simp [isAbsolute, hp]

theorem isAbsolute_of_isName (hb : IsName b) : isAbsolute ⟨b⟩ = false := by
  cases b with
  | nil => rfl
  | cons c b =>
    have hc : c ≠ slash := fun he => hb.plain (by simp [he])
    simp [isAbsolute, hc]

theorem segments_of_isName (hb : IsName b) : segments ⟨b⟩ = [.name b] := by
  have hsplit : splitAt slash (b ++ [].flatMap (slash :: ·)) = [b] :=
    splitAt_flatMap hb.plain (by simp)
  rw [List.flatMap_nil, List.append_nil] at hsplit
  rw [segments, hsplit, List.filterMap_cons_some (ofSegment_of_isName hb)]
  rfl

/-! ### Parents -/

/-- A component that can stand between slashes. -/
def Component.Inner (c : Component) : Prop := c = .parent ∨ ∃ b, IsName b ∧ c = .name b

theorem inner_of_mem_segments {c : Component} (h : c ∈ p.segments) : c.Inner := by
  obtain ⟨s, hs, hc⟩ := List.mem_filterMap.mp h
  exact ofSegment_cases (not_mem_of_mem_splitAt hs) hc

theorem Component.Inner.isAbsolute {c : Component} (h : c.Inner) :
    Path.isAbsolute ⟨c.bytes⟩ = false := by
  rcases h with rfl | ⟨b, hb, rfl⟩
  · rfl
  · exact isAbsolute_of_isName hb

theorem Component.Inner.segments {c : Component} (h : c.Inner) :
    Path.segments ⟨c.bytes⟩ = [c] := by
  rcases h with rfl | ⟨b, hb, rfl⟩
  · rfl
  · exact segments_of_isName hb

theorem foldl_join (hp : p.isAbsolute = true) (h : ∀ c ∈ cs, c.Inner) :
    (cs.foldl (fun p c => p.join ⟨c.bytes⟩) p).isAbsolute = true ∧
      (cs.foldl (fun p c => p.join ⟨c.bytes⟩) p).segments = p.segments ++ cs := by
  induction cs generalizing p with
  | nil => exact ⟨hp, (List.append_nil _).symm⟩
  | cons c cs ih =>
    have hc : c.Inner := h c List.mem_cons_self
    obtain ⟨habs, hseg⟩ := ih (p := p.join ⟨c.bytes⟩) (by rw [isAbsolute_join, hp, Bool.true_or])
      fun c hc => h c (List.mem_cons_of_mem _ hc)
    refine ⟨habs, ?_⟩
    rw [List.foldl_cons, hseg, segments_join hc.isAbsolute, hc.segments, List.append_assoc,
      List.singleton_append]

/-- The components of an absolute path spell one that says the same. -/
theorem ofComponents_root (h : ∀ c ∈ cs, c.Inner) :
    (ofComponents (.root :: cs)).isAbsolute = true ∧
      (ofComponents (.root :: cs)).components = .root :: cs := by
  have hroot : (⟨[slash]⟩ : Path).isAbsolute = true := rfl
  obtain ⟨habs, hseg⟩ := foldl_join hroot h
  exact ⟨habs, (components_of_absolute habs).trans (congrArg _ hseg)⟩

/-- **The parent of an absolute path says the same but for the last component.** -/
theorem exists_components_of_parent? (hp : p.isAbsolute = true) (h : p.parent? = some q) :
    q.isAbsolute = true ∧ ∃ c, p.components = q.components ++ [c] := by
  unfold parent? at h
  rw [components_of_absolute hp] at h ⊢
  have hinner : ∀ c ∈ p.segments, c.Inner := fun c hc => inner_of_mem_segments hc
  rcases List.eq_nil_or_concat' p.segments with hnil | ⟨cs, c, hcs⟩
  · rw [hnil] at h
    cases h
  · rw [hcs, ← List.cons_append, List.getLast?_concat, List.dropLast_concat] at h
    have hc : c.Inner := hinner c (by rw [hcs]; simp)
    have hq : ofComponents (.root :: cs) = q := by
      rcases hc with rfl | ⟨b, -, rfl⟩ <;> exact Option.some.inj h
    obtain ⟨habs, hcomponents⟩ :=
      ofComponents_root fun x hx => hinner x (by rw [hcs]; exact List.mem_append_left _ hx)
    rw [← hq]
    exact ⟨habs, c, by rw [hcomponents, hcs, List.cons_append]⟩

/-! ### Ways -/

theorem passesFrom_subset : passesFrom r cs ⊆ passesFrom r (cs ++ ds) := by
  induction cs generalizing r with
  | nil =>
    cases ds <;> simp [passesFrom]
  | cons c cs ih =>
    rw [List.cons_append, passesFrom, passesFrom]
    exact List.cons_subset_cons _ ih

/-- **The way of a path begins with the ways of the paths that it continues.** -/
theorem passes_subset (h : q.components = p.components ++ cs) : p.passes ⊆ q.passes := by
  rw [passes, passes, h]
  exact passesFrom_subset

theorem place_append (h : q.components = p.components ++ cs) :
    q.place = cs.foldl (fun r c => c.leads r) p.place := by
  rw [place, h, List.foldl_append]
  rfl

theorem foldl_leads_names (r : Place) (names : List (List UInt8)) :
    (names.map Component.name).foldl (fun r c => c.leads r) r = r ++ names := by
  induction names generalizing r with
  | nil => simp
  | cons b names ih =>
    rw [List.map_cons, List.foldl_cons, Component.leads, ih, List.append_assoc,
      List.singleton_append]

/-- What a path passes that continues another one by names lies on the way of that one, or below
its end and above the end of the longer path. -/
theorem mem_passesFrom_names {names : List (List UInt8)} {x : Place}
    (h : x ∈ passesFrom r (cs ++ names.map .name)) : x ∈ passesFrom r cs ∨
      (cs.foldl (fun r c => c.leads r) r <+: x ∧
        x <+: cs.foldl (fun r c => c.leads r) r ++ names) := by
  induction cs generalizing r with
  | nil =>
    right
    rw [List.nil_append] at h
    rw [List.foldl_nil]
    induction names generalizing r with
    | nil =>
      rw [List.map_nil, passesFrom, List.mem_singleton] at h
      rw [h, List.append_nil]
      exact ⟨List.prefix_refl _, List.prefix_refl _⟩
    | cons b names ih =>
      rw [List.map_cons, passesFrom, List.mem_cons] at h
      rcases h with rfl | h
      · exact ⟨List.prefix_refl _, List.prefix_append _ _⟩
      · obtain ⟨hlow, hhigh⟩ := ih h
        rw [Component.leads] at hlow hhigh
        rw [List.append_assoc, List.singleton_append] at hhigh
        exact ⟨(List.prefix_append _ _).trans hlow, hhigh⟩
  | cons c cs ih =>
    rw [List.cons_append, passesFrom, List.mem_cons] at h
    rw [passesFrom, List.foldl_cons]
    rcases h with rfl | h
    · exact .inl List.mem_cons_self
    · exact (ih h).imp (List.mem_cons_of_mem _) id

/-- **A path without double dots** goes straight down. -/
def Straight (p : Path) : Prop := .parent ∉ p.components

theorem exists_names_of_inner (h : ∀ c ∈ cs, c.Inner) (hparent : .parent ∉ cs) :
    ∃ names : List (List UInt8), cs = names.map .name := by
  induction cs with
  | nil => exact ⟨[], rfl⟩
  | cons c cs ih =>
    rw [List.mem_cons, not_or] at hparent
    obtain ⟨names, rfl⟩ := ih (fun c hc => h c (List.mem_cons_of_mem _ hc)) hparent.2
    rcases h c List.mem_cons_self with rfl | ⟨b, -, rfl⟩
    · exact absurd rfl hparent.1
    · exact ⟨b :: names, rfl⟩

/-- A straight path passes only what is above its end. -/
theorem prefix_of_mem_passes (hp : p.isAbsolute = true) (h : p.Straight) (hr : r ∈ p.passes) :
    r <+: p.place := by
  rw [Straight, components_of_absolute hp, List.mem_cons, not_or] at h
  obtain ⟨names, hnames⟩ := exists_names_of_inner (fun c hc => inner_of_mem_segments hc) h.2
  have hc : p.components = [.root] ++ names.map .name := by
    rw [components_of_absolute hp, hnames]
    rfl
  rw [passes, hc] at hr
  rw [place, hc, List.foldl_append, foldl_leads_names]
  rcases mem_passesFrom_names hr with hr | ⟨-, hr⟩
  · simp only [passesFrom, Component.leads, List.mem_cons, List.not_mem_nil, or_false,
      or_self] at hr
    rw [hr]
    exact List.nil_prefix
  · exact hr

end Path

end LanguageHub
