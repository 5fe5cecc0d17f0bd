import LanguageHub.Proofs.Path.Ways

/-!
# Normalization as a stack machine

`Path.normalize` works on **paths**: it parses one into components, pushes and pops on a path that
it builds, and what it has built is parsed again by whoever looks at it. Here it is shown to work on
a **list of names** (`Path.normalize_eq_spell`): `Path.climb` adds a name or takes back the last one,
and `Path.spell` writes the names that are left.

Two facts carry this. What is spelled says its names again (`Path.components_spell`), since a name is
no dot, no double dot and has no slash; and joining or popping a spelled path is adding or dropping
a name (`Path.join_spell`, `Path.pop_spell`). With them, that normalizing twice is normalizing once
and that it may be done before joining are facts about folds over a list.
-/

namespace LanguageHub

namespace Path

variable {p q : Path} {b : List UInt8} {names : List (List UInt8)} {cs : List Component}
  {absolute : Bool}

/-! ### Spelling -/

/-- The relative path of some names. -/
def ofNamesBelow : List (List UInt8) → Path
  | [] => ⟨[]⟩
  | b :: names => ⟨b ++ names.flatMap (slash :: ·)⟩

/-- The path of some names, from the root or from wherever one stands. -/
def spell (absolute : Bool) (names : List (List UInt8)) : Path :=
  if absolute then ofNames names else ofNamesBelow names

/-- What an absolute path says before its names. -/
def start (absolute : Bool) : List Component := if absolute then [.root] else []

/-- What a component does to the names that have been read so far. -/
def climb (names : List (List UInt8)) : Component → List (List UInt8)
  | .name b => names ++ [b]
  | .parent => names.dropLast
  | _ => names

@[simp] theorem spell_true (names : List (List UInt8)) : spell true names = ofNames names := rfl

@[simp] theorem spell_false (names : List (List UInt8)) : spell false names = ofNamesBelow names :=
  rfl

theorem isAbsolute_ofNamesBelow (h : ∀ b ∈ names, IsName b) :
    (ofNamesBelow names).isAbsolute = false := by
  cases names with
  | nil => rfl
  | cons b names =>
    have hb := h b List.mem_cons_self
    have hne := isAbsolute_of_isName hb
    rcases b with _ | ⟨c, b⟩
    · exact absurd rfl hb.ne_nil
    · exact hne

theorem filterMap_ofSegment (h : ∀ b ∈ names, IsName b) :
    names.filterMap Component.ofSegment = names.map .name := by
  rw [← List.filterMap_eq_map]
  exact List.filterMap_congr fun b hb => ofSegment_of_isName (h b hb)

/-- **A relative path of names says its names.** -/
theorem components_ofNamesBelow (h : ∀ b ∈ names, IsName b) :
    (ofNamesBelow names).components = names.map .name := by
  rw [components, isAbsolute_ofNamesBelow h, if_neg Bool.false_ne_true]
  cases names with
  | nil => rfl
  | cons b names =>
    have hsplit : splitAt slash (ofNamesBelow (b :: names)).bytes = b :: names :=
      splitAt_flatMap (h b List.mem_cons_self).plain
        fun c hc => (h c (List.mem_cons_of_mem _ hc)).plain
    -- a name is no dot, so nothing stands in front of it
    have hdot : ((b :: names).head? == some [dot]) = false := by
      simp [(h b List.mem_cons_self).ne_dot]
    rw [hsplit, hdot, if_neg Bool.false_ne_true, filterMap_ofSegment h]

theorem getLast?_ofNamesBelow_ne_slash (h : ∀ b ∈ names, IsName b) :
    (ofNamesBelow names).bytes.getLast? ≠ some slash := by
  rcases List.eq_nil_or_concat' names with rfl | ⟨rest, l, rfl⟩
  · simp [ofNamesBelow]
  · have hl := h l (by simp)
    -- the path ends with its last name
    obtain ⟨s, hs⟩ : ∃ s, (ofNamesBelow (rest ++ [l])).bytes = s ++ l := by
      cases rest with
      | nil => exact ⟨[], by simp [ofNamesBelow]⟩
      | cons b rest =>
        exact ⟨b ++ rest.flatMap (slash :: ·) ++ [slash], by simp [ofNamesBelow]⟩
    rcases List.eq_nil_or_concat' l with rfl | ⟨t, c, rfl⟩
    · exact absurd rfl hl.ne_nil
    · rw [hs, ← List.append_assoc, List.getLast?_concat]
      rintro ⟨⟩
      exact hl.plain (by simp)

theorem join_ofNamesBelow (h : ∀ b ∈ names, IsName b) (hb : IsName b) :
    (ofNamesBelow names).join ⟨b⟩ = ofNamesBelow (names ++ [b]) := by
  rw [join, isAbsolute_of_isName hb, if_neg Bool.false_ne_true]
  cases names with
  | nil => simp [ofNamesBelow]
  | cons c names =>
    have hne : (ofNamesBelow (c :: names)).bytes.isEmpty = false := by
      simp [ofNamesBelow, (h c List.mem_cons_self).ne_nil]
    have hlast : ((ofNamesBelow (c :: names)).bytes.getLast? == some slash) = false := by
      simpa using getLast?_ofNamesBelow_ne_slash h
    rw [hne, hlast, Bool.or_self, if_neg Bool.false_ne_true]
    simp [ofNamesBelow]

@[simp] theorem isAbsolute_spell (h : ∀ b ∈ names, IsName b) :
    (spell absolute names).isAbsolute = absolute := by
  cases absolute with
  | true => exact isAbsolute_ofNames
  | false => exact isAbsolute_ofNamesBelow h

/-- **What is spelled says its names again.** -/
theorem components_spell (h : ∀ b ∈ names, IsName b) :
    (spell absolute names).components = start absolute ++ names.map .name := by
  cases absolute with
  | true => exact components_ofNames h
  | false => exact components_ofNamesBelow h

/-- **Joining a name adds it.** -/
theorem join_spell (h : ∀ b ∈ names, IsName b) (hb : IsName b) :
    (spell absolute names).join ⟨b⟩ = spell absolute (names ++ [b]) := by
  cases absolute with
  | true => exact join_name h hb
  | false => exact join_ofNamesBelow h hb

theorem ofComponents_ofNamesBelow (h : ∀ b ∈ names, IsName b) :
    ofComponents (names.map .name) = ofNamesBelow names := by
  induction names using List.reverseRecOn with
  | nil => rfl
  | append_singleton names b ih =>
    have hnames : ∀ b ∈ names, IsName b := fun c hc => h c (by simp [hc])
    rw [List.map_append, ofComponents, List.foldl_append, ← ofComponents, ih hnames]
    exact join_ofNamesBelow hnames (h b (by simp))

theorem pop_ofNamesBelow (h : ∀ b ∈ names, IsName b) :
    (ofNamesBelow names).pop = ofNamesBelow names.dropLast := by
  rw [pop, parent?, components_ofNamesBelow h]
  rcases List.eq_nil_or_concat' names with rfl | ⟨rest, l, rfl⟩
  · rfl
  · have hrest : ∀ b ∈ rest, IsName b := fun b hb => h b (by simp [hb])
    rw [List.map_append, List.map_singleton, List.getLast?_concat, List.dropLast_concat,
      List.dropLast_concat]
    exact ofComponents_ofNamesBelow hrest

/-- **Popping drops the last name**, if there is one. -/
theorem pop_spell (h : ∀ b ∈ names, IsName b) :
    (spell absolute names).pop = spell absolute names.dropLast := by
  cases absolute with
  | true => exact pop_ofNames h
  | false => exact pop_ofNamesBelow h

/-! ### Climbing -/

/-- Names lead where they say. -/
theorem foldl_climb_names (names left : List (List UInt8)) :
    (left.map Component.name).foldl climb names = names ++ left := by
  induction left generalizing names with
  | nil => simp
  | cons b left ih =>
    rw [List.map_cons, List.foldl_cons, climb, ih, List.append_assoc, List.singleton_append]

theorem isName_foldl_climb (hcs : ∀ c ∈ cs, c.Inner) (h : ∀ b ∈ names, IsName b) :
    ∀ b ∈ cs.foldl climb names, IsName b := by
  induction cs generalizing names with
  | nil => exact h
  | cons c cs ih =>
    refine ih (fun c hc => hcs c (List.mem_cons_of_mem _ hc)) fun b hb => ?_
    rcases hcs c List.mem_cons_self with rfl | ⟨d, hd, rfl⟩
    · exact h b (List.dropLast_subset _ hb)
    · rcases List.mem_append.mp hb with hb | hb
      · exact h b hb
      · rw [List.mem_singleton.mp hb]
        exact hd

/-- **Resolving components of a path is climbing in its names.** -/
theorem foldl_resolve_spell (hcs : ∀ c ∈ cs, c.Inner) (h : ∀ b ∈ names, IsName b) :
    cs.foldl resolve (spell absolute names) = spell absolute (cs.foldl climb names) := by
  induction cs generalizing names with
  | nil => rfl
  | cons c cs ih =>
    have hone : ∀ x ∈ [c], x.Inner := fun x hx => List.mem_singleton.mp hx ▸ hcs c List.mem_cons_self
    have hstep : resolve (spell absolute names) c = spell absolute (climb names c) := by
      rcases hcs c List.mem_cons_self with rfl | ⟨b, hb, rfl⟩
      · exact pop_spell h
      · exact join_spell h hb
    rw [List.foldl_cons, List.foldl_cons, hstep]
    exact ih (fun c hc => hcs c (List.mem_cons_of_mem _ hc)) (isName_foldl_climb hone h)

/-- **The stack of the machine** holds the names that climbing has left, above the root. -/
theorem foldl_settleStep (hcs : ∀ c ∈ cs, c.Inner) :
    cs.foldl settleStep (start absolute ++ names.map Component.name).reverse =
      (start absolute ++ (cs.foldl climb names).map Component.name).reverse := by
  induction cs generalizing names with
  | nil => rfl
  | cons c cs ih =>
    have hstep : settleStep (start absolute ++ names.map Component.name).reverse c =
        (start absolute ++ (climb names c).map Component.name).reverse := by
      rcases hcs c List.mem_cons_self with rfl | ⟨b, -, rfl⟩
      · rcases List.eq_nil_or_concat' names with rfl | ⟨rest, l, rfl⟩
        -- with no name left, the root stays
        · cases absolute <;> rfl
        · simp [climb, settleStep]
      · simp [climb, settleStep]
    rw [List.foldl_cons, hstep]
    exact ih fun c hc => hcs c (List.mem_cons_of_mem _ hc)

/-! ### Normal forms -/

/-- The names that a path ends up with. -/
def settledNames (p : Path) : List (List UInt8) := p.segments.foldl climb []

theorem isName_settledNames (p : Path) : ∀ b ∈ p.settledNames, IsName b :=
  isName_foldl_climb (fun _ => inner_of_mem_segments) (by simp)

/-- What a path says before its segments only says where it starts. -/
theorem exists_lead (p : Path) : ∃ lead, p.components = lead ++ p.segments ∧
    lead.foldl resolve ⟨[]⟩ = spell p.isAbsolute [] ∧
    lead.foldl settleStep [] = (start p.isAbsolute).reverse := by
  unfold components
  cases p.isAbsolute with
  | true => exact ⟨[.root], rfl, rfl, rfl⟩
  | false =>
    rw [if_neg Bool.false_ne_true]
    split
    · exact ⟨[.current], rfl, rfl, rfl⟩
    · exact ⟨[], rfl, rfl, rfl⟩

/-- **A normal path is spelled** from the names that its original ends up with. -/
theorem normalize_eq_spell (p : Path) : p.normalize = spell p.isAbsolute p.settledNames := by
  obtain ⟨lead, hp, hlead, -⟩ := p.exists_lead
  rw [normalize, hp, List.foldl_append, hlead]
  exact foldl_resolve_spell (fun _ => inner_of_mem_segments) (by simp)

/-- **The stack machine leaves the same names.** -/
theorem settle_components (p : Path) :
    settle p.components = start p.isAbsolute ++ p.settledNames.map .name := by
  obtain ⟨lead, hp, -, hlead⟩ := p.exists_lead
  have hfold := @foldl_settleStep [] p.segments p.isAbsolute fun _ => inner_of_mem_segments
  rw [List.map_nil, List.append_nil] at hfold
  rw [settle, hp, List.foldl_append, hlead, hfold, List.reverse_reverse]
  rfl

theorem components_normalize (p : Path) :
    p.normalize.components = start p.isAbsolute ++ p.settledNames.map .name := by
  rw [normalize_eq_spell, components_spell p.isName_settledNames]

@[simp] theorem isAbsolute_normalize (p : Path) : p.normalize.isAbsolute = p.isAbsolute := by
  rw [normalize_eq_spell, isAbsolute_spell p.isName_settledNames]

/-- The segments of a spelled path are its names. -/
theorem segments_spell (h : ∀ b ∈ names, IsName b) :
    (spell absolute names).segments = names.map .name := by
  induction names using List.reverseRecOn with
  | nil => cases absolute <;> rfl
  | append_singleton names b ih =>
    have hnames : ∀ b ∈ names, IsName b := fun c hc => h c (by simp [hc])
    have hb : IsName b := h b (by simp)
    rw [← join_spell hnames hb, segments_join (isAbsolute_of_isName hb), ih hnames,
      segments_of_isName hb, List.map_append, List.map_singleton]

/-- **Normalizing a path that is continued climbs on** from where the path ends up. -/
theorem settledNames_join (hq : q.isAbsolute = false) :
    (p.join q).settledNames = q.segments.foldl climb p.settledNames := by
  rw [settledNames, segments_join hq, List.foldl_append, settledNames]

theorem settledNames_normalize (p : Path) : p.normalize.settledNames = p.settledNames := by
  rw [settledNames, normalize_eq_spell, segments_spell p.isName_settledNames, foldl_climb_names,
    List.nil_append]

/-- **Normalization is a stack machine.** It leaves the components that pushing names and popping
at double dots leaves, so no dots are left and the root stays. Doing it twice is doing it once, and
it does not matter whether it is done before a relative path is joined. -/
theorem normalize_settles (p : Path) :
    p.normalize.components = settle p.components ∧
      (∀ c ∈ p.normalize.components, c ≠ .current ∧ c ≠ .parent) ∧
      p.normalize.isAbsolute = p.isAbsolute ∧
      p.normalize.normalize = p.normalize ∧
      ∀ q : Path, q.isAbsolute = false →
        (p.join q).normalize = (p.normalize.join q).normalize := by
  refine ⟨by rw [components_normalize, settle_components], fun c hc => ?_, isAbsolute_normalize p,
    ?_, fun q hq => ?_⟩
  · rw [components_normalize, List.mem_append] at hc
    rcases hc with hc | hc
    · unfold start at hc
      split at hc
      · rw [List.mem_singleton.mp hc]
        exact ⟨nofun, nofun⟩
      · cases hc
    · obtain ⟨b, -, rfl⟩ := List.mem_map.mp hc
      exact ⟨nofun, nofun⟩
  · rw [normalize_eq_spell p.normalize, settledNames_normalize, isAbsolute_normalize,
      ← normalize_eq_spell]
  · rw [normalize_eq_spell (p.join q), normalize_eq_spell (p.normalize.join q), isAbsolute_join,
      isAbsolute_join, isAbsolute_normalize, settledNames_join hq, settledNames_join hq,
      settledNames_normalize]

/-- A path that is taken back to where it started, and a double dot with nothing left to take. -/
theorem normalize_beyond_start :
    (ofString "../../x").isAbsolute = false ∧
      ((ofString "a/../..//b").normalize.join (ofString "../../x")).normalize = ofString "x" :=
  ⟨by decide +kernel, ((normalize_settles (ofString "a/../..//b")).2.2.2.2 (ofString "../../x")
    (by decide +kernel)).symm.trans (by decide +kernel)⟩

end Path

end LanguageHub
