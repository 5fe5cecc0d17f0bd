import LanguageHub.Lsp.Symbol
import Mathlib.Data.List.Forall2

/-!
# Symbols one by one

The answer to a query for symbols is decoded as a **whole**: it is a list of symbols with a location
only if every element is one, and otherwise a list of symbols whose location may be a URI alone. The
symbols of the second kind are cut out of elements of the first kind too, and the one thing that is
lost then is whether a symbol is deprecated (`SymbolInformation.exists_workspaceSymbol`): symbols of
the second kind do not have that member.

So an answer can be read one element after the other (`SymbolResponse.symbolsOf?_elements`), but for
that member, which no symbol keeps as soon as one element is not a symbol with a location.
-/

namespace LanguageHub.Lsp

/-- The symbol without a word on whether it is deprecated. -/
def SymbolInformation.withoutDeprecated (s : SymbolInformation) : SymbolInformation :=
  { s with deprecated := none }

/-- The symbols that an answer gives, if it can be decoded. -/
def SymbolResponse.symbolsOf? (j : Json) : Option (List SymbolInformation) :=
  (SymbolResponse.ofNullable? j).map SymbolResponse.flatten

variable {j : Json} {items : List Json} {s : SymbolInformation} {w : WorkspaceSymbol}

/-! ### One element -/

/-- **An element with a location can be read as a symbol of either kind**, and the second kind
only loses whether it is deprecated. -/
theorem SymbolInformation.exists_workspaceSymbol (hj : j.obj?.isSome = true)
    (h : SymbolInformation.of? j = some s) :
    ∃ w, WorkspaceSymbol.of? j = some w ∧ w.flatten? = some s.withoutDeprecated := by
  cases j with
  | obj members =>
    simp only [SymbolInformation.of?, Json.Record.of?, Option.bind_eq_bind, Option.bind_some,
      Option.bind_eq_some_iff, Option.some.injEq, Json.Record.required] at h
    obtain ⟨name, ⟨jn, hn, hname⟩, kind, ⟨jk, hk, hkind⟩, tags, htags, dep, -, location,
      ⟨jl, hl, hlocation⟩, container, hcontainer, rfl⟩ := h
    have hplace : WorkspaceSymbol.placeOf? jl = some (.inl location) := by
      rw [WorkspaceSymbol.placeOf?, hlocation]
    -- data may be anything
    obtain ⟨data, hdata⟩ : ∃ data,
        Json.Record.optional ⟨fun k => (Json.obj members).get? k, false⟩ "data" some =
          some data := by
      unfold Json.Record.optional
      split
      · exact ⟨none, rfl⟩
      · exact ⟨none, rfl⟩
      · exact ⟨_, rfl⟩
    refine ⟨⟨name, kind, tags, container, .inl location, data⟩, ?_, rfl⟩
    simp only [WorkspaceSymbol.of?, Json.Record.of?, Option.bind_eq_bind, Option.bind_some,
      Option.bind_eq_some_iff, Option.some.injEq, Json.Record.required]
    exact ⟨name, ⟨jn, hn, hname⟩, kind, ⟨jk, hk, hkind⟩, tags, htags, container, hcontainer,
      .inl location, ⟨jl, hl, hplace⟩, data, hdata, rfl⟩
  | _ => cases hj

/-- A symbol of the second kind has no word on whether it is deprecated. -/
theorem WorkspaceSymbol.withoutDeprecated_of_flatten? (h : w.flatten? = some s) :
    s.withoutDeprecated = s := by
  unfold WorkspaceSymbol.flatten? at h
  split at h
  · obtain rfl := Option.some.inj h
    rfl
  · cases h

namespace SymbolResponse

/-- **A list is read as a whole.** -/
theorem symbolsOf?_arr (items : List Json) : symbolsOf? (.arr items) =
    match items.mapM SymbolInformation.of? with
    | some symbols => some symbols
    | none => (items.mapM WorkspaceSymbol.of?).map (·.filterMap WorkspaceSymbol.flatten?) := by
  have hof : ofNullable? (.arr items) = (of? (.arr items)).map some := rfl
  have hlist {α : Type} (read : Json → Option α) :
      Json.list? read (.arr items) = items.mapM read := rfl
  rw [symbolsOf?, hof, of?, hlist, hlist]
  cases items.mapM SymbolInformation.of? with
  | some symbols => rfl
  | none => cases items.mapM WorkspaceSymbol.of? <;> rfl

/-- An answer with one element gives the symbol with a location that it is, or what the symbol of
the second kind has. -/
theorem symbolsOf?_one (j : Json) : symbolsOf? (.arr [j]) =
    match SymbolInformation.of? j with
    | some s => some [s]
    | none => (WorkspaceSymbol.of? j).map (·.flatten?.toList) := by
  rw [symbolsOf?_arr, List.mapM_cons, List.mapM_cons, List.mapM_nil, List.mapM_nil]
  cases SymbolInformation.of? j with
  | some s => rfl
  | none =>
    cases WorkspaceSymbol.of? j with
    | none => rfl
    | some w => cases hw : w.flatten? <;> simp [hw]

/-- What one element gives, as against what it gives in a list of the second kind. -/
theorem exists_workspaceSymbol_of_one {part : List SymbolInformation}
    (hj : j.obj?.isSome = true) (h : symbolsOf? (.arr [j]) = some part) :
    ∃ w, WorkspaceSymbol.of? j = some w ∧
      w.flatten?.toList = part.map SymbolInformation.withoutDeprecated := by
  rw [symbolsOf?_one] at h
  split at h
  · next s hs =>
    obtain ⟨w, hw, hflat⟩ := SymbolInformation.exists_workspaceSymbol hj hs
    exact ⟨w, hw, by rw [hflat, ← Option.some.inj h]; rfl⟩
  · obtain ⟨w, hw, rfl⟩ := Option.map_eq_some_iff.mp h
    refine ⟨w, hw, ?_⟩
    cases hflat : w.flatten? with
    | none => rfl
    | some s => simp [WorkspaceSymbol.withoutDeprecated_of_flatten? hflat]

/-! ### Lists -/

variable {parts : List (List SymbolInformation)}

/-- **A list of the first kind** gives what its elements give. -/
theorem mapM_information
    (h : List.Forall₂ (fun j part => symbolsOf? (.arr [j]) = some part) items parts)
    (hall : ∀ j ∈ items, (SymbolInformation.of? j).isSome = true) :
    items.mapM SymbolInformation.of? = some parts.flatten := by
  induction h with
  | nil => rfl
  | @cons j part items parts hone _ ih =>
    obtain ⟨s, hs⟩ := Option.isSome_iff_exists.mp (hall j List.mem_cons_self)
    rw [symbolsOf?_one, hs] at hone
    rw [List.mapM_cons, hs, ih fun j hj => hall j (List.mem_cons_of_mem _ hj),
      ← Option.some.inj hone]
    rfl

/-- **A list of the second kind** gives that too, without a word on what is deprecated. -/
theorem mapM_workspaceSymbol (hobj : ∀ j ∈ items, j.obj?.isSome = true)
    (h : List.Forall₂ (fun j part => symbolsOf? (.arr [j]) = some part) items parts) :
    ∃ ws, items.mapM WorkspaceSymbol.of? = some ws ∧
      ws.filterMap WorkspaceSymbol.flatten? =
        parts.flatten.map SymbolInformation.withoutDeprecated := by
  induction h with
  | nil => exact ⟨[], rfl, rfl⟩
  | @cons j part items parts hone _ ih =>
    obtain ⟨w, hw, hflat⟩ := exists_workspaceSymbol_of_one (hobj j List.mem_cons_self) hone
    obtain ⟨ws, hws, hflats⟩ := ih fun j hj => hobj j (List.mem_cons_of_mem _ hj)
    refine ⟨w :: ws, by rw [List.mapM_cons, hw, hws]; rfl, ?_⟩
    rw [List.flatten_cons, List.map_append, ← hflat, ← hflats]
    cases hflat : w.flatten? <;> simp [hflat]

theorem mapM_information_eq_none {j : Json} (hj : j ∈ items)
    (h : SymbolInformation.of? j = none) : items.mapM SymbolInformation.of? = none := by
  induction items with
  | nil => cases hj
  | cons i items ih =>
    rw [List.mapM_cons]
    rcases List.mem_cons.mp hj with rfl | hj
    · rw [h]
      rfl
    · rw [ih hj]
      cases SymbolInformation.of? i <;> rfl

/-- **Symbols are read one by one.** A list of objects each of which can be decoded alone can be
decoded, and it gives in order what its elements give alone, if all of them are symbols with a
location; otherwise it gives that without a word on what is deprecated. A symbol that has a URI
alone gives nothing. -/
theorem symbolsOf?_elements (items : List Json) (parts : List (List SymbolInformation))
    (hobj : ∀ j ∈ items, j.obj?.isSome = true)
    (h : List.Forall₂ (fun j part => symbolsOf? (.arr [j]) = some part) items parts) :
    symbolsOf? (.arr items) = some (
      if ∀ j ∈ items, (SymbolInformation.of? j).isSome = true then parts.flatten
      else parts.flatten.map SymbolInformation.withoutDeprecated) ∧
    ∀ j ∈ items, ∀ w u, WorkspaceSymbol.of? j = some w → w.location = .inr u →
      symbolsOf? (.arr [j]) = some [] := by
  refine ⟨?_, fun j hj w u hw hu => ?_⟩
  · rw [symbolsOf?_arr]
    by_cases hall : ∀ j ∈ items, (SymbolInformation.of? j).isSome = true
    · rw [if_pos hall, mapM_information h hall]
    · rw [if_neg hall]
      obtain ⟨j, hj, hnone⟩ : ∃ j ∈ items, SymbolInformation.of? j = none := by
        simpa using hall
      obtain ⟨ws, hws, hflats⟩ := mapM_workspaceSymbol hobj h
      rw [mapM_information_eq_none hj hnone, hws]
      exact congrArg some hflats
  · have hnone : SymbolInformation.of? j = none := by
      by_contra hsome
      obtain ⟨s, hs⟩ := Option.ne_none_iff_exists'.mp hsome
      obtain ⟨w', hw', hflat⟩ := SymbolInformation.exists_workspaceSymbol (hobj j hj) hs
      obtain rfl := Option.some.inj (hw.symm.trans hw')
      rw [WorkspaceSymbol.flatten?, hu] at hflat
      cases hflat
    rw [symbolsOf?_one, hnone, hw]
    simp [WorkspaceSymbol.flatten?, hu]

/-- A deprecated symbol with a location. -/
def oldWidget : SymbolInformation :=
  ⟨"Widget", 5, none, some true, ⟨⟨"file:///ws/W.cs"⟩, ⟨⟨1, 2⟩, ⟨1, 5⟩⟩⟩, none⟩

/-- An answer with that symbol and one that has a URI alone. -/
def mixedAnswer : List Json := [
  oldWidget.toJson,
  .obj [("kind", .ofInt 5), ("location", .obj [("uri", .str "file:///ws/L.cs")]),
    ("name", .str "Lazy")]]

/-- The symbol with a URI alone gives nothing, and costs the other one its word. -/
theorem symbolsOf?_mixed : (∀ j ∈ mixedAnswer, j.obj?.isSome = true) ∧
    symbolsOf? (.arr mixedAnswer) = some [oldWidget.withoutDeprecated] :=
  ⟨by decide +kernel, (symbolsOf?_elements mixedAnswer [[oldWidget], []] (by decide +kernel)
    (.cons (by decide +kernel) (.cons (by decide +kernel) .nil))).1.trans (by decide +kernel)⟩

/-- **A list does not always give what its elements give alone**: alone the first symbol of this one
is deprecated. -/
theorem symbolsOf?_mixed_ne : (∀ j ∈ mixedAnswer, j.obj?.isSome = true) ∧
    List.Forall₂ (fun j part => symbolsOf? (.arr [j]) = some part) mixedAnswer
      [[oldWidget], []] ∧
    symbolsOf? (.arr mixedAnswer) ≠ some [[oldWidget], []].flatten :=
  ⟨by decide +kernel, .cons (by decide +kernel) (.cons (by decide +kernel) .nil),
    by decide +kernel⟩

end SymbolResponse

end LanguageHub.Lsp
