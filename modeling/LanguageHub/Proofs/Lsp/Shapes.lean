import LanguageHub.Lsp.Query
import LanguageHub.Proofs.Lsp.Symbols

/-!
# What a shape keeps is read alike

An answer is read twice: first its shape is checked and what the shape does not know is dropped
(`Shape.conform`), and what is kept is then read as a value of its own type. Here it is shown for
answers to a query for symbols that the first reading **does not get in the way** of the second one
(`Query.readResult_workspaceSymbols`): the shape refuses what the type refuses, and of everything
else it keeps enough.

A shape and a reader of a type agree in this sense (`Shape.Reads`) if they agree on every field of a
record (`Shape.Reads.required`, `Shape.Reads.optional`) and every item of a list. The one place where
they differ is a list of symbols of the second kind: without the members that it does not know it may
read as a list of the first kind. Its symbols are the same.
-/

namespace LanguageHub.Lsp

namespace Shape

variable {α : Type} {s : Shape} {read : Json → Option α} {r : Json.Record} {j v : Json} {k k' : String}

/-- **A shape and a reader agree**: they refuse the same values, and what the shape keeps of another
one reads like it. Null is kept of null only. -/
def Reads (s : Shape) (read : Json → Option α) : Prop :=
  ∀ j, (s.conform j = none ∧ read j = none) ∨
    ∃ v a, s.conform j = some v ∧ read j = some a ∧ read v = some a ∧ (v = .null → j = .null)

/-! ### Simple values -/

theorem reads_any : Reads .any some := fun j => .inr ⟨j, j, by rw [conform], rfl, rfl, id⟩

theorem reads_str : Reads .str Json.str? := by
  intro j
  cases j with
  | str t => exact .inr ⟨.str t, t, by rw [conform]; rfl, rfl, rfl, nofun⟩
  | _ => exact .inl ⟨by rw [conform]; rfl, rfl⟩

theorem reads_bool : Reads .bool Json.bool? := by
  intro j
  cases j with
  | bool b => exact .inr ⟨.bool b, b, by rw [conform]; rfl, rfl, rfl, nofun⟩
  | _ => exact .inl ⟨by rw [conform]; rfl, rfl⟩

theorem reads_uri : Reads .uri uriOf? := by
  intro j
  cases j with
  | str t =>
    cases hu : Uri.ofString? t with
    | none => exact .inl ⟨by simp [conform, Json.str?, isUri, hu], hu⟩
    | some u =>
      exact .inr ⟨.str t, u, by simp [conform, Json.str?, isUri, hu], hu, hu, nofun⟩
  | _ => exact .inl ⟨by rw [conform]; rfl, rfl⟩

/-- An integer that is read from a value is read from itself. -/
theorem intIn?_ofInt {lo hi n : Int} (h : j.intIn? lo hi = some n) :
    (Json.ofInt n).intIn? lo hi = some n := by
  unfold Json.intIn? at h
  split at h
  · split at h
    · next hn =>
      obtain rfl := Option.some.inj h
      exact if_pos hn
    · cases h
  · cases h

theorem reads_int : Reads .int Json.i32? := by
  intro j
  cases hj : j.i32? with
  | none => exact .inl ⟨by rw [conform, hj]; rfl, rfl⟩
  | some n => exact .inr ⟨.ofInt n, n, by rw [conform, hj]; rfl, rfl, intIn?_ofInt hj, nofun⟩

theorem reads_nat : Reads .nat Json.u32? := by
  intro j
  cases hj : j.u32? with
  | none => exact .inl ⟨by rw [conform, hj]; rfl, rfl⟩
  | some n =>
    refine .inr ⟨.ofNat n, n, by rw [conform, hj]; rfl, rfl, ?_, nofun⟩
    obtain ⟨i, hi, rfl⟩ := Option.map_eq_some_iff.mp hj
    have hpos : 0 ≤ i := by
      unfold Json.intIn? at hi
      split at hi
      · split at hi
        · next h =>
          rw [← Option.some.inj hi]
          exact h.1
        · cases hi
      · cases hi
    have hself : Json.ofNat i.toNat = .ofInt i := by
      rw [Json.ofNat, Json.ofInt, Int.toNat_of_nonneg hpos]
    rw [hself, Json.u32?, intIn?_ofInt hi]
    rfl

/-! ### Lists -/

theorem reads_mapM (h : Reads s read) (items : List Json) :
    (items.mapM s.conform = none ∧ items.mapM read = none) ∨
      ∃ vs as, items.mapM s.conform = some vs ∧ items.mapM read = some as ∧
        vs.mapM read = some as := by
  induction items with
  | nil => exact .inr ⟨[], [], rfl, rfl, rfl⟩
  | cons j items ih =>
    rw [List.mapM_cons, List.mapM_cons]
    rcases h j with ⟨hj, hj'⟩ | ⟨v, a, hj, hj', hv, -⟩
    · exact .inl ⟨by rw [hj]; rfl, by rw [hj']; rfl⟩
    · rw [hj, hj']
      rcases ih with ⟨hi, hi'⟩ | ⟨vs, as, hi, hi', hvs⟩
      · exact .inl ⟨by rw [hi]; rfl, by rw [hi']; rfl⟩
      · exact .inr ⟨v :: vs, a :: as, by rw [hi]; rfl, by rw [hi']; rfl,
          by rw [List.mapM_cons, hv, hvs]; rfl⟩

theorem Reads.list (h : Reads s read) : Reads (.list s) (Json.list? read) := by
  intro j
  rw [conform]
  cases j with
  | arr items =>
    rcases reads_mapM h items with ⟨hi, hi'⟩ | ⟨vs, as, hi, hi', hvs⟩
    · exact .inl ⟨by simp [Json.list?, Json.arr?, hi], hi'⟩
    · exact .inr ⟨.arr vs, as, by simp [Json.list?, Json.arr?, hi], hi', hvs, nofun⟩
  | _ => exact .inl ⟨rfl, rfl⟩

/-! ### Fields -/

section Fields

variable {members : List (Option (String × Json))} {fields : List (String × Presence × Shape)}

/-- The record that members of an object are. -/
def written (members : List (Option (String × Json))) : Json.Record :=
  ⟨fun k => (objectOf members).get? k, false⟩

theorem of?_objectOf (names : List String) (members : List (Option (String × Json))) :
    Json.Record.of? names (objectOf members) = some (written members) := rfl

theorem field_append (before members : List (Option (String × Json))) (k : String) :
    (written (before ++ members)).field k =
      ((written before).field k).or ((written members).field k) := by
  simp only [written, objectOf, Json.get?, List.filterMap_append, List.find?_append]
  cases (before.filterMap id).find? (·.1 == k) <;> rfl

theorem field_cons_some (k : String) (v : Json) (members : List (Option (String × Json)))
    (k' : String) : (written (some (k, v) :: members)).field k' =
      if k = k' then some v else (written members).field k' := by
  have hcons : (some (k, v) :: members).filterMap id = (k, v) :: members.filterMap id := rfl
  simp only [written, objectOf, Json.get?, hcons]
  by_cases hk : k = k'
  · rw [List.find?_cons_of_pos (by simpa using hk), if_pos hk]
    rfl
  · rw [List.find?_cons_of_neg (by simpa using hk), if_neg hk]

theorem field_cons_map (k : String) (o : Option Json) (members : List (Option (String × Json)))
    (k' : String) : (written (o.map (k, ·) :: members)).field k' =
      if k = k' then o.or ((written members).field k') else (written members).field k' := by
  cases o with
  | none =>
    have hcons : (written (none :: members)).field k' = (written members).field k' := rfl
    rw [Option.map_none, hcons, Option.none_or, ite_self]
  | some v => exact field_cons_some k v members k'

/-- **A field that must be there.** -/
theorem Reads.required (h : Reads s read) (r : Json.Record) (k : String) :
    (r.required k s.conform = none ∧ r.required k read = none) ∨
      ∃ v a, r.required k s.conform = some v ∧ r.required k read = some a ∧ read v = some a := by
  unfold Json.Record.required
  cases r.field k with
  | none => exact .inl ⟨rfl, rfl⟩
  | some j => exact (h j).imp_right fun ⟨v, a, hv, ha, hva, _⟩ => ⟨v, a, hv, ha, hva⟩

theorem required_of_field (hk : r.field k = some v) (read : Json → Option α) :
    r.required k read = read v := by
  rw [Json.Record.required, hk]
  rfl

theorem optional_of_ne_null (hk : r.field k = some j) (hj : j ≠ .null) (read : Json → Option α) :
    r.optional k read = (read j).map some := by
  unfold Json.Record.optional
  rw [hk]
  cases j <;> first | rfl | exact absurd rfl hj

/-- **A field that may be missing or null**: it reads from whatever object has it as it is kept. -/
theorem Reads.optional (h : Reads s read) (r : Json.Record) (k : String) :
    (r.optional k s.conform = none ∧ r.optional k read = none) ∨
      ∃ o a, r.optional k s.conform = some o ∧ r.optional k read = some a ∧
        ∀ members, (written members).field k = o → (written members).optional k read = some a := by
  have hmissing : ∀ members, (written members).field k = none →
      (written members).optional k read = some none := by
    intro members hk
    rw [Json.Record.optional, hk]
    rfl
  cases hk : r.field k with
  | none =>
    unfold Json.Record.optional
    rw [hk]
    cases r.positional with
    | true => exact .inl ⟨rfl, rfl⟩
    | false => exact .inr ⟨none, none, rfl, rfl, hmissing⟩
  | some j =>
    by_cases hnull : j = .null
    · refine .inr ⟨none, none, ?_, ?_, hmissing⟩ <;> rw [Json.Record.optional, hk, hnull]
    · rw [optional_of_ne_null hk hnull, optional_of_ne_null hk hnull]
      rcases h j with ⟨hj, hj'⟩ | ⟨v, a, hj, hj', hv, hv'⟩
      · exact .inl ⟨by rw [hj]; rfl, by rw [hj']; rfl⟩
      · refine .inr ⟨some v, some a, by rw [hj]; rfl, by rw [hj']; rfl, fun members hv₁ => ?_⟩
        rw [optional_of_ne_null hv₁ fun hc => hnull (hv' hc), hv]
        rfl

/-- **The fields of a shape and the fields of a type agree.** What is kept of the fields may stand
behind members of other names. -/
def Builds (fields : List (String × Presence × Shape)) (build : Json.Record → Option α) : Prop :=
  ∀ r : Json.Record, (conformFields fields r = none ∧ build r = none) ∨
    ∃ members a, conformFields fields r = some members ∧ build r = some a ∧
      (∀ k ∉ fieldNames fields, (written members).field k = none) ∧
      ∀ before, (∀ k ∈ fieldNames fields, (written before).field k = none) →
        build (written (before ++ members)) = some a

theorem builds_nil (a : α) : Builds [] fun _ => some a :=
  fun _ => .inr ⟨[], a, by rw [conformFields], rfl, fun _ _ => rfl, fun _ _ => rfl⟩

variable {β : Type} {readField : Json → Option β}

/-- What stands before the other fields is what stood before this one, and this one. -/
theorem field_snoc {before : List (Option (String × Json))} (o : Option Json) {p : Presence}
    (hk : k ∉ fieldNames fields)
    (hbefore : ∀ k' ∈ fieldNames ((k, p, s) :: fields), (written before).field k' = none) :
    ∀ k' ∈ fieldNames fields, (written (before ++ [o.map (k, ·)])).field k' = none := by
  intro k' hk'
  have hne : k ≠ k' := fun he => hk (he ▸ hk')
  rw [field_append, hbefore k' (by rw [fieldNames]; exact List.mem_cons_of_mem _ hk'),
    field_cons_map, if_neg hne]
  rfl

/-- A field as it is written, with other fields behind it and members of other names before it. -/
theorem field_written {before : List (Option (String × Json))} (o : Option Json) {p : Presence}
    (hbefore : ∀ k' ∈ fieldNames ((k, p, s) :: fields), (written before).field k' = none)
    (hmembers : (written members).field k = none) :
    (written (before ++ o.map (k, ·) :: members)).field k = o := by
  rw [field_append, hbefore k (by rw [fieldNames]; exact List.mem_cons_self), field_cons_map,
    if_pos rfl, hmembers, Option.or_none, Option.none_or]

theorem Builds.required {build : β → Json.Record → Option α} (h : Reads s readField)
    (hk : k ∉ fieldNames fields) (hbuild : ∀ b, Builds fields (build b)) :
    Builds ((k, .required, s) :: fields)
      fun r => (r.required k readField).bind fun b => build b r := by
  intro r
  beta_reduce
  rcases h.required r k with ⟨hnone, hnone'⟩ | ⟨v, b, hv, hb, hread⟩
  · exact .inl ⟨by rw [conformFields, hnone]; rfl, by rw [hnone']; rfl⟩
  rcases hbuild b r with ⟨hnone, hnone'⟩ | ⟨members, a, hmembers, ha, hfresh, hall⟩
  · exact .inl ⟨by rw [conformFields, hv, hnone]; rfl, by rw [hb]; exact hnone'⟩
  refine .inr ⟨(some v).map (k, ·) :: members, a, by rw [conformFields, hv, hmembers]; rfl,
    by rw [hb]; exact ha, fun k' hk' => ?_, fun before hbefore => ?_⟩
  · rw [fieldNames, List.mem_cons, not_or] at hk'
    rw [field_cons_map, if_neg fun he => hk'.1 he.symm, hfresh k' hk'.2]
  · rw [required_of_field (field_written _ hbefore (hfresh k hk)), hread, Option.bind_some]
    have hrest := hall _ (field_snoc (some v) hk hbefore)
    rwa [List.append_assoc, List.singleton_append] at hrest

theorem Builds.optional {build : Option β → Json.Record → Option α} (h : Reads s readField)
    (hk : k ∉ fieldNames fields) (hbuild : ∀ b, Builds fields (build b)) :
    Builds ((k, .optional, s) :: fields)
      fun r => (r.optional k readField).bind fun b => build b r := by
  intro r
  beta_reduce
  rcases h.optional r k with ⟨hnone, hnone'⟩ | ⟨o, b, ho, hb, hread⟩
  · exact .inl ⟨by rw [conformFields, hnone]; rfl, by rw [hnone']; rfl⟩
  rcases hbuild b r with ⟨hnone, hnone'⟩ | ⟨members, a, hmembers, ha, hfresh, hall⟩
  · exact .inl ⟨by rw [conformFields, ho, hnone]; rfl, by rw [hb]; exact hnone'⟩
  refine .inr ⟨o.map (k, ·) :: members, a, by rw [conformFields, ho, hmembers]; rfl,
    by rw [hb]; exact ha, fun k' hk' => ?_, fun before hbefore => ?_⟩
  · rw [fieldNames, List.mem_cons, not_or] at hk'
    rw [field_cons_map, if_neg fun he => hk'.1 he.symm, hfresh k' hk'.2]
  · rw [hread _ (field_written _ hbefore (hfresh k hk)), Option.bind_some]
    have hrest := hall _ (field_snoc o hk hbefore)
    rwa [List.append_assoc, List.singleton_append] at hrest

/-- **A shape of records and a type of records agree if their fields do.** -/
theorem Builds.record {build : Json.Record → Option α} (h : Builds fields build) :
    Reads (.record fields) fun j => (Json.Record.of? (fieldNames fields) j).bind build := by
  intro j
  beta_reduce
  rw [conform]
  cases Json.Record.of? (fieldNames fields) j with
  | none => exact .inl ⟨rfl, rfl⟩
  | some r =>
    rcases h r with ⟨hnone, hnone'⟩ | ⟨members, a, hmembers, ha, -, hall⟩
    · exact .inl ⟨by simp [hnone], hnone'⟩
    · refine .inr ⟨objectOf members, a, by simp [hmembers], ha, ?_, nofun⟩
      rw [of?_objectOf]
      exact hall [] fun _ _ => rfl

/-- **What a shape of records keeps** is an object without members of other names. -/
theorem Builds.get?_eq_none {build : Json.Record → Option α} (h : Builds fields build)
    (hj : (Shape.record fields).conform j = some v) :
    v.obj?.isSome = true ∧ ∀ k ∉ fieldNames fields, v.get? k = none := by
  rw [conform] at hj
  split at hj
  · next r _ =>
    obtain ⟨members, hmembers, rfl⟩ := Option.map_eq_some_iff.mp hj
    rcases h r with ⟨hnone, -⟩ | ⟨members', a, hmembers', -, hfresh, -⟩
    · rw [hmembers] at hnone
      cases hnone
    · obtain rfl := Option.some.inj (hmembers.symm.trans hmembers')
      exact ⟨rfl, hfresh⟩
  · cases hj

end Fields

/-! ### Symbols -/

theorem reads_position : Reads position Position.of? :=
  Builds.record (.required reads_nat (by decide) fun line =>
    .required reads_nat (by decide) fun character => builds_nil (Position.mk line character))

theorem reads_range : Reads range Range.of? :=
  Builds.record (.required reads_position (by decide) fun start =>
    .required reads_position (by decide) fun stop => builds_nil (Range.mk start stop))

theorem reads_location : Reads location Location.of? :=
  Builds.record (.required reads_uri (by decide) fun uri =>
    .required reads_range (by decide) fun range => builds_nil (Location.mk uri range))

theorem reads_symbolInformation : Reads symbolInformation SymbolInformation.of? :=
  Builds.record (.required reads_str (by decide) fun name =>
    .required reads_int (by decide) fun kind =>
    .optional reads_int.list (by decide) fun tags =>
    .optional reads_bool (by decide) fun deprecated =>
    .required reads_location (by decide) fun location =>
    .optional reads_str (by decide) fun container =>
    builds_nil (SymbolInformation.mk name kind tags deprecated location container))

/-- A place that is a URI alone. -/
def uriAlone? (j : Json) : Option (Location ⊕ Uri) :=
  (Json.Record.of? ["uri"] j).bind fun r => (r.required "uri" uriOf?).bind fun u => some (Sum.inr u)

theorem builds_uriAlone : Builds [req "uri" .uri]
    fun r => (r.required "uri" uriOf?).bind fun u => some (Sum.inr u : Location ⊕ Uri) :=
  .required reads_uri (by decide) fun uri => builds_nil (Sum.inr uri)

/-- An object without a range is no location. -/
theorem location_of?_eq_none (hobj : v.obj?.isSome = true) (h : v.get? "range" = none) :
    Location.of? v = none := by
  cases v with
  | obj members =>
    simp [Location.of?, Json.Record.of?, Json.Record.required, h]
  | _ => cases hobj

theorem reads_place :
    Reads (.union [location, .record [req "uri" .uri]]) WorkspaceSymbol.placeOf? := by
  have hplace : ∀ j, WorkspaceSymbol.placeOf? j = ((Location.of? j).map .inl).or (uriAlone? j) := by
    intro j
    rw [WorkspaceSymbol.placeOf?]
    cases Location.of? j <;> rfl
  intro j
  rw [conform, conformAny, conformAny, conformAny, hplace]
  rcases reads_location j with ⟨hj, hj'⟩ | ⟨v, l, hj, hj', hv, hnull⟩
  · rw [hj, hj', Option.map_none, Option.none_or]
    rcases builds_uriAlone.record j with ⟨hu, hu'⟩ | ⟨v, u, hu, hu', hv, hnull⟩
    · exact .inl ⟨by rw [hu], hu'⟩
    · refine .inr ⟨v, u, by rw [hu], hu', ?_, hnull⟩
      -- what is kept of a URI alone does not turn into a location
      obtain ⟨hobj, hother⟩ := builds_uriAlone.get?_eq_none hu
      rw [hplace, location_of?_eq_none hobj (hother "range" (by decide))]
      exact hv
  · refine .inr ⟨v, .inl l, by rw [hj], by rw [hj']; rfl, ?_, hnull⟩
    rw [hplace, hv]
    rfl

theorem builds_workspaceSymbol : Builds [req "name" .str, req "kind" .int,
    opt "tags" (.list .int), opt "containerName" .str,
    req "location" (.union [location, .record [req "uri" .uri]]), opt "data" .any]
    fun r => (r.required "name" Json.str?).bind fun name =>
      (r.required "kind" Json.i32?).bind fun kind =>
      (r.optional "tags" (Json.list? Json.i32?)).bind fun tags =>
      (r.optional "containerName" Json.str?).bind fun container =>
      (r.required "location" WorkspaceSymbol.placeOf?).bind fun place =>
      (r.optional "data" some).bind fun data =>
      some (WorkspaceSymbol.mk name kind tags container place data) :=
  .required reads_str (by decide) fun name =>
    .required reads_int (by decide) fun kind =>
    .optional reads_int.list (by decide) fun tags =>
    .optional reads_str (by decide) fun container =>
    .required reads_place (by decide) fun place =>
    .optional reads_any (by decide) fun data =>
    builds_nil (WorkspaceSymbol.mk name kind tags container place data)

theorem reads_workspaceSymbol : Reads workspaceSymbol WorkspaceSymbol.of? :=
  builds_workspaceSymbol.record

/-! ### Answers to a query for symbols -/

/-- A symbol that is read from what the shape of the second kind keeps is not marked as deprecated:
the shape does not know that member. -/
theorem withoutDeprecated_of_conform {i : SymbolInformation}
    (hj : workspaceSymbol.conform j = some v) (hv : SymbolInformation.of? v = some i) :
    v.obj?.isSome = true ∧ i.withoutDeprecated = i := by
  obtain ⟨hobj, hother⟩ := builds_workspaceSymbol.get?_eq_none hj
  refine ⟨hobj, ?_⟩
  have hmember := hother "deprecated" (by decide)
  cases v with
  | obj members =>
    simp only [SymbolInformation.of?, Json.Record.of?, Option.bind_eq_bind, Option.bind_some,
      Option.bind_eq_some_iff, Option.some.injEq] at hv
    obtain ⟨name, -, kind, -, tags, -, dep, hdep, location, -, container, -, rfl⟩ := hv
    have hnone : Json.Record.optional ⟨fun k => (Json.obj members).get? k, false⟩ "deprecated"
        Json.bool? = some none := by
      unfold Json.Record.optional
      simp only [hmember]
      rfl
    obtain rfl := Option.some.inj (hnone.symm.trans hdep)
    rfl
  | _ => cases hobj

/-- **Symbols of the second kind that read as symbols of the first kind** are the same symbols. -/
theorem filterMap_flatten?_of_conform {items vs : List Json} {symbols : List SymbolInformation}
    {ws : List WorkspaceSymbol} (hitems : items.mapM workspaceSymbol.conform = some vs)
    (hsymbols : vs.mapM SymbolInformation.of? = some symbols)
    (hws : vs.mapM WorkspaceSymbol.of? = some ws) :
    ws.filterMap WorkspaceSymbol.flatten? = symbols := by
  induction items generalizing vs symbols ws with
  | nil =>
    obtain rfl := Option.some.inj hitems
    obtain rfl := Option.some.inj hsymbols
    obtain rfl := Option.some.inj hws
    rfl
  | cons j items ih =>
    simp only [List.mapM_cons, Option.bind_eq_bind, Option.bind_eq_some_iff, Option.pure_def,
      Option.some.injEq] at hitems
    obtain ⟨v, hv, vs, hvs, rfl⟩ := hitems
    simp only [List.mapM_cons, Option.bind_eq_bind, Option.bind_eq_some_iff, Option.pure_def,
      Option.some.injEq] at hsymbols hws
    obtain ⟨i, hi, symbols, hsymbols, rfl⟩ := hsymbols
    obtain ⟨w, hw, ws, hws, rfl⟩ := hws
    obtain ⟨hobj, hi'⟩ := withoutDeprecated_of_conform hv hi
    obtain ⟨w', hw', hflat⟩ := SymbolInformation.exists_workspaceSymbol hobj hi
    obtain rfl := Option.some.inj (hw.symm.trans hw')
    rw [hi'] at hflat
    rw [List.filterMap_cons_some hflat, ih hvs hsymbols hws]

end Shape

theorem SymbolResponse.flatten_of?_arr (items : List Json) :
    flatten (of? (.arr items)) = (symbolsOf? (.arr items)).getD [] := by
  have hof : ofNullable? (.arr items) = (of? (.arr items)).map some := rfl
  rw [symbolsOf?, hof]
  cases of? (.arr items) <;> rfl

/-- **The shape of an answer does not get in the way**: reading what it keeps gives the symbols of
the answer, and it refuses the answers that give none. -/
theorem Query.readResult_workspaceSymbols (query : String) (j : Json) :
    ((Query.workspaceSymbols query).readResult j).map
      (fun v => SymbolResponse.flatten (SymbolResponse.of? v)) = SymbolResponse.symbolsOf? j := by
  cases j with
  | null => rfl
  | arr items =>
    have hread : (Query.workspaceSymbols query).readResult (.arr items) =
        ((items.mapM Shape.symbolInformation.conform).map .arr).or
          ((items.mapM Shape.workspaceSymbol.conform).map .arr) := by
      have hlist (s : Shape) : (Shape.list s).conform (.arr items) =
          (items.mapM s.conform).map .arr := by
        rw [Shape.conform]
        rfl
      rw [readResult, resultShape, Shape.conformOrNull, Shape.workspaceSymbolResult,
        Shape.conform, Shape.conformAny, Shape.conformAny, Shape.conformAny, hlist, hlist]
      · cases items.mapM Shape.symbolInformation.conform <;>
          cases items.mapM Shape.workspaceSymbol.conform <;> rfl
      · nofun
    rw [hread, SymbolResponse.symbolsOf?_arr]
    rcases Shape.reads_mapM Shape.reads_symbolInformation items with
      ⟨hi, hi'⟩ | ⟨vs, symbols, hi, hi', hvs⟩
    · rw [hi, hi', Option.map_none, Option.none_or]
      rcases Shape.reads_mapM Shape.reads_workspaceSymbol items with
        ⟨hw, hw'⟩ | ⟨vs, ws, hw, hw', hvs⟩
      · rw [hw, hw']
        rfl
      · rw [hw, hw', Option.map_some, Option.map_some, Option.map_some,
          SymbolResponse.flatten_of?_arr, SymbolResponse.symbolsOf?_arr, hvs]
        -- what is kept may read as symbols of the first kind
        cases hsymbols : vs.mapM SymbolInformation.of? with
        | none => rfl
        | some symbols => rw [Shape.filterMap_flatten?_of_conform hw hsymbols hvs]; rfl
    · rw [hi, hi', Option.map_some, Option.some_or, Option.map_some,
        SymbolResponse.flatten_of?_arr, SymbolResponse.symbolsOf?_arr, hvs]
      rfl
  | _ => rfl

end LanguageHub.Lsp
