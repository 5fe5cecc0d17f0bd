import LanguageHub.Proofs.Json.Tokens
import LanguageHub.Proofs.Text.Encoding

/-!
# Values are read as they were written

The main statement is `Json.parse?_encode_write`: the bytes of a value denote this value, with the
members of its objects in the order of their names. It is proved for values that a text can carry
unchanged: their numbers are **integral** (`Json.Integral`), as a double may be written with fewer
digits than the reader takes into account, and they are nested no deeper than the reader goes
(`Json.depth`).

The reader recurses on the depth that is left, so the proof is an induction on it
(`Json.readValue_write`). Of the items of an array it needs to know only that each of them is read
back, whatever follows it (`Json.readItems_write`), and likewise for the members of an object.
-/

namespace LanguageHub.Json

/-! ### What a text carries unchanged -/

mutual

/-- How deep arrays and objects are nested. -/
def depth : Json → Nat
  | .arr items => depthItems items + 1
  | .obj members => depthMembers members + 1
  | _ => 0

/-- `depth` on the items of an array: the greatest one. -/
def depthItems : List Json → Nat
  | [] => 0
  | j :: rest => max (depth j) (depthItems rest)

/-- `depth` on the values of the members of an object. -/
def depthMembers : List (String × Json) → Nat
  | [] => 0
  | (_, j) :: rest => max (depth j) (depthMembers rest)

end

mutual

/-- A value whose numbers are integers of 64 bits, with or without a sign. -/
def Integral : Json → Prop
  | .num (.int n) => Number.Fits n
  | .num (.float _) => False
  | .arr items => IntegralItems items
  | .obj members => IntegralMembers members
  | _ => True

/-- `Integral` on the items of an array. -/
def IntegralItems : List Json → Prop
  | [] => True
  | j :: rest => Integral j ∧ IntegralItems rest

/-- `Integral` on the values of the members of an object. -/
def IntegralMembers : List (String × Json) → Prop
  | [] => True
  | (_, j) :: rest => Integral j ∧ IntegralMembers rest

end

variable {j : Json} {items : List Json} {members : List (String × Json)} {rest : List Char}
  {item : List Char → Option (Json × List Char)} {k : String} {n fuel : Nat}

theorem depth_le_depthItems (h : j ∈ items) : depth j ≤ depthItems items := by
  induction h with
  | head => exact Nat.le_max_left _ _
  | tail _ _ ih => exact Nat.le_trans ih (Nat.le_max_right _ _)

theorem depth_le_depthMembers (h : (k, j) ∈ members) : depth j ≤ depthMembers members := by
  induction members with
  | nil => cases h
  | cons m members ih =>
    rcases List.mem_cons.mp h with rfl | h
    · exact Nat.le_max_left _ _
    · exact Nat.le_trans (ih h) (Nat.le_max_right _ _)

theorem IntegralItems.of_mem (hi : IntegralItems items) (h : j ∈ items) : Integral j := by
  induction h with
  | head => exact hi.1
  | tail _ _ ih => exact ih hi.2

theorem IntegralMembers.of_mem (hi : IntegralMembers members) (h : (k, j) ∈ members) :
    Integral j := by
  induction members with
  | nil => cases h
  | cons m members ih =>
    rcases List.mem_cons.mp h with rfl | h
    · exact hi.1
    · exact ih hi.2 h

/-! ### Where the text of a value starts and what follows it -/

/-- A text that starts with something other than a blank and the end of an array. -/
def Opens (s : List Char) : Prop := ∃ c tail, s = c :: tail ∧ isSpace c = false ∧ c ≠ ']'

theorem skipSpace_cons {c : Char} (h : isSpace c = false) (s : List Char) :
    skipSpace (c :: s) = c :: s := by
  rw [skipSpace, List.dropWhile_cons, h, if_neg Bool.false_ne_true]

/-- A number starts with its sign or with a digit. -/
theorem Number.write_int_eq_cons (n : Int) :
    ∃ c tail, Number.write (.int n) = c :: tail ∧ (c = '-' ∨ Number.isDigit c = true) := by
  obtain ⟨c, tail, h, hc⟩ := Number.exists_toDigits_eq_cons n.natAbs
  by_cases hneg : n < 0
  · exact ⟨'-', _, by rw [Number.write, if_pos hneg]; rfl, .inl rfl⟩
  · exact ⟨c, tail, by rw [Number.write, if_neg hneg, List.nil_append, h], .inr hc⟩

/-- A number does not start with a character that is neither a sign nor a digit. -/
theorem Number.ne_of_starts {c d : Char} (hc : c = '-' ∨ Number.isDigit c = true)
    (hd : d ≠ '-' ∧ Number.isDigit d = false) : c ≠ d := by
  rintro rfl
  rcases hc with h | h
  · exact hd.1 h
  · exact absurd (h.symm.trans hd.2) (by decide)

theorem opens_write (h : Integral j) : Opens (write j) := by
  cases j with
  | null => exact ⟨_, _, rfl, by decide, by decide⟩
  | bool b => cases b <;> exact ⟨_, _, rfl, by decide, by decide⟩
  | num n =>
    cases n with
    | float bits => exact h.elim
    | int n =>
      obtain ⟨c, tail, heq, hc⟩ := Number.write_int_eq_cons n
      have hne (d : Char) (hd : d ≠ '-' ∧ Number.isDigit d = false) : c ≠ d :=
        Number.ne_of_starts hc hd
      refine ⟨c, tail, heq, ?_, hne _ (by decide)⟩
      simp only [isSpace, Bool.or_eq_false_iff, beq_eq_false_iff_ne]
      exact ⟨⟨⟨hne _ (by decide), hne _ (by decide)⟩, hne _ (by decide)⟩, hne _ (by decide)⟩
  | str s => exact ⟨_, _, rfl, by decide, by decide⟩
  | arr items => cases items <;> exact ⟨_, _, rfl, by decide, by decide⟩
  | obj members => cases members <;> exact ⟨_, _, rfl, by decide, by decide⟩

theorem writeItems_cons_append (j : Json) (items : List Json) (rest : List Char) :
    writeItems (j :: items) ++ rest = ',' :: (write j ++ (writeItems items ++ rest)) := by
  simp [writeItems]

theorem writeMembers_cons_append (k : String) (j : Json) (members : List (String × Json))
    (rest : List Char) : writeMembers ((k, j) :: members) ++ rest =
      ',' :: (writeString k ++ ':' :: (write j ++ (writeMembers members ++ rest))) := by
  simp [writeMembers]

theorem stops_writeItems (items : List Json) (rest : List Char) :
    Number.Stops (writeItems items ++ rest) := by
  cases items <;> exact Number.stops_cons (by decide)

theorem stops_writeMembers (members : List (String × Json)) (rest : List Char) :
    Number.Stops (writeMembers members ++ rest) := by
  cases members <;> exact Number.stops_cons (by decide)

/-! ### The items of an array, the members of an object -/

theorem length_le_writeItems (items : List Json) : items.length ≤ (writeItems items).length := by
  induction items with
  | nil => exact Nat.zero_le _
  | cons j items ih =>
    simp only [writeItems, List.length_append, List.length_cons]
    omega

theorem length_le_writeMembers (members : List (String × Json)) :
    members.length ≤ (writeMembers members).length := by
  induction members with
  | nil => exact Nat.zero_le _
  | cons m members ih =>
    simp only [writeMembers, List.length_append, List.length_cons]
    omega

/-- The items of an array are read if each of them is, whatever follows it. -/
theorem readItems_write
    (h : ∀ j ∈ items, ∀ s, Number.Stops s → item (write j ++ s) = some (canonical j, s))
    (hfuel : items.length < fuel) (done : List Json) (rest : List Char) :
    readItems item fuel done (writeItems items ++ rest) =
      some (done.reverse ++ canonicalItems items, rest) := by
  induction items generalizing fuel done with
  | nil =>
    cases fuel with
    | zero => exact absurd hfuel (Nat.not_lt_zero _)
    | succ fuel => rw [canonicalItems, List.append_nil]; rfl
  | cons j items ih =>
    cases fuel with
    | zero => exact absurd hfuel (Nat.not_lt_zero _)
    | succ fuel =>
      have hj := h j List.mem_cons_self _ (stops_writeItems items rest)
      have hitems := ih (fun j hj => h j (List.mem_cons_of_mem _ hj))
        (Nat.lt_of_succ_lt_succ hfuel) (canonical j :: done)
      rw [writeItems_cons_append, readItems, skipSpace_cons (by decide)]
      simp only [hj, hitems, canonicalItems, List.reverse_cons, List.append_assoc,
        List.singleton_append]

/-- The name of a member is read with its colon. -/
theorem readName_write (k : String) (s : List Char) :
    readName (writeString k ++ ':' :: s) = some (k, s) := by
  rw [writeString_append, readName, skipSpace_cons (by decide)]
  simp only [readString_write, Option.bind_eq_bind, Option.bind_some,
    skipSpace_cons (c := ':') rfl]

/-- The members of an object are read if the value of each of them is, whatever follows it. -/
theorem readMembers_write
    (h : ∀ k j, (k, j) ∈ members → ∀ s, Number.Stops s →
      item (write j ++ s) = some (canonical j, s))
    (hfuel : members.length < fuel) (done : List (String × Json)) (rest : List Char) :
    readMembers item fuel done (writeMembers members ++ rest) =
      some (done.reverse ++ canonicalMembers members, rest) := by
  induction members generalizing fuel done with
  | nil =>
    cases fuel with
    | zero => exact absurd hfuel (Nat.not_lt_zero _)
    | succ fuel => rw [canonicalMembers, List.append_nil]; rfl
  | cons m members ih =>
    obtain ⟨k, j⟩ := m
    cases fuel with
    | zero => exact absurd hfuel (Nat.not_lt_zero _)
    | succ fuel =>
      have hj := h k j List.mem_cons_self _ (stops_writeMembers members rest)
      have hmembers := ih (fun k j hj => h k j (List.mem_cons_of_mem _ hj))
        (Nat.lt_of_succ_lt_succ hfuel) ((k, canonical j) :: done)
      have hname := readName_write k (write j ++ (writeMembers members ++ rest))
      rw [writeMembers_cons_append, readMembers, skipSpace_cons (by decide)]
      simp only [hname, hj, hmembers, canonicalMembers, List.reverse_cons, List.append_assoc,
        List.singleton_append]

/-! ### Values -/

theorem readValue_number {c : Char} (depth : Nat) (s : List Char)
    (hc : c = '-' ∨ Number.isDigit c = true) :
    readValue depth (c :: s) = (Number.read (c :: s)).map fun (n, rest) => (.num n, rest) := by
  have hne (d : Char) (hd : d ≠ '-' ∧ Number.isDigit d = false) : c ≠ d :=
    Number.ne_of_starts hc hd
  have hspace : isSpace c = false := by
    simp only [isSpace, Bool.or_eq_false_iff, beq_eq_false_iff_ne]
    exact ⟨⟨⟨hne _ (by decide), hne _ (by decide)⟩, hne _ (by decide)⟩, hne _ (by decide)⟩
  rw [readValue, skipSpace_cons hspace]
  split
  case h_7 => rfl
  all_goals
    next heq => exact absurd (List.cons.inj heq).1 (hne _ (by decide))

/-- A value without items and members is read at every depth. -/
theorem readValue_write_scalar (depth : Nat) (hi : Integral j) (hd : Json.depth j = 0)
    (hrest : Number.Stops rest) : readValue depth (write j ++ rest) = some (canonical j, rest) := by
  cases j with
  | null => cases depth <;> rfl
  | bool b => cases depth <;> cases b <;> rfl
  | num n =>
    cases n with
    | float bits => exact hi.elim
    | int n =>
      obtain ⟨c, tail, heq, hc⟩ := Number.write_int_eq_cons n
      have hread := Number.read_write hi hrest
      rw [heq, List.cons_append] at hread
      rw [write, heq, List.cons_append, readValue_number depth _ hc, hread]
      rfl
  | str s =>
    rw [write, writeString_append, readValue, skipSpace_cons (by decide)]
    simp only [readString_write, Option.map_some]
    rfl
  | arr items => exact absurd hd (Nat.succ_ne_zero _)
  | obj members => exact absurd hd (Nat.succ_ne_zero _)

/-- The first item of an array decides where the array goes on. -/
theorem readValue_array {s : List Char} (depth : Nat) (h : Opens s) :
    readValue (depth + 1) ('[' :: s) =
      (readValue depth s).bind fun (j, s) =>
        (readItems (readValue depth) (s.length + 1) [j] s).map fun (items, rest) =>
          (.arr items, rest) := by
  obtain ⟨c, tail, rfl, hspace, hend⟩ := h
  rw [readValue, skipSpace_cons (by decide)]
  simp only [skipSpace_cons hspace]
  split
  · next heq => exact absurd (List.cons.inj heq).1 hend
  · cases readValue depth (c :: tail) <;> rfl

/-- The first member of an object decides where the object goes on. -/
theorem readValue_object (depth : Nat) (k : String) (s : List Char) :
    readValue (depth + 1) ('\x7b' :: (writeString k ++ ':' :: s)) =
      (readValue depth s).bind fun (j, s) =>
        (readMembers (readValue depth) (s.length + 1) [(k, j)] s).map fun (members, rest) =>
          (object members, rest) := by
  have hname := readName_write k s
  rw [readValue, skipSpace_cons (by decide)]
  rw [writeString_append] at hname ⊢
  simp only [skipSpace_cons (c := '"') rfl]
  split
  · next heq => exact absurd (List.cons.inj heq).1 (by decide)
  · simp only [hname]
    cases readValue depth s <;> rfl

/-- **A value is read from what was written for it**, if what follows does not go on with it. -/
theorem readValue_write (depth : Nat) (hi : Integral j) (hd : Json.depth j ≤ depth)
    (hrest : Number.Stops rest) : readValue depth (write j ++ rest) = some (canonical j, rest) := by
  induction depth generalizing j rest with
  | zero => exact readValue_write_scalar 0 hi (Nat.le_zero.mp hd) hrest
  | succ depth ih =>
    cases j with
    | arr items =>
      -- every item is nested less deep, so the induction hypothesis reads it
      have hitem : ∀ j ∈ items, ∀ s, Number.Stops s →
          readValue depth (write j ++ s) = some (canonical j, s) := fun j hj s hs =>
        ih (IntegralItems.of_mem hi hj)
          (Nat.le_trans (depth_le_depthItems hj) (Nat.le_of_succ_le_succ hd)) hs
      rcases items with _ | ⟨j, items⟩
      · rfl
      have hopens : Opens (write j ++ (writeItems items ++ rest)) := by
        obtain ⟨c, tail, heq, hc⟩ := opens_write (IntegralItems.of_mem hi List.mem_cons_self)
        exact ⟨c, _, by rw [heq, List.cons_append], hc⟩
      have hfuel : items.length < (writeItems items ++ rest).length + 1 := by
        have := length_le_writeItems items
        rw [List.length_append]
        omega
      have hitems := readItems_write (fun j hj => hitem j (List.mem_cons_of_mem _ hj)) hfuel
        [canonical j] rest
      rw [write, List.cons_append, List.cons_append, List.append_assoc,
        readValue_array depth hopens, hitem j List.mem_cons_self _ (stops_writeItems items rest)]
      simp only [Option.bind_some, hitems, Option.map_some]
      rfl
    | obj members =>
      have hitem : ∀ k j, (k, j) ∈ members → ∀ s, Number.Stops s →
          readValue depth (write j ++ s) = some (canonical j, s) := fun k j hj s hs =>
        ih (IntegralMembers.of_mem hi hj)
          (Nat.le_trans (depth_le_depthMembers hj) (Nat.le_of_succ_le_succ hd)) hs
      rcases members with _ | ⟨⟨k, j⟩, members⟩
      · rfl
      have hfuel : members.length < (writeMembers members ++ rest).length + 1 := by
        have := length_le_writeMembers members
        rw [List.length_append]
        omega
      have htext : write (.obj ((k, j) :: members)) ++ rest =
          '\x7b' :: (writeString k ++ ':' :: (write j ++ (writeMembers members ++ rest))) := by
        simp [write]
      have hmembers := readMembers_write (fun k j hj => hitem k j (List.mem_cons_of_mem _ hj))
        hfuel [(k, canonical j)] rest
      rw [htext, readValue_object, hitem k j List.mem_cons_self _ (stops_writeMembers members rest)]
      simp only [Option.bind_some, hmembers, Option.map_some]
      rfl
    | _ => exact readValue_write_scalar (depth + 1) hi rfl hrest

/-- **The bytes of a value denote this value**, with the members of its objects in order. -/
theorem parse?_encode_write (hi : Integral j) (hd : depth j ≤ greatestDepth) :
    parse? (Text.Utf8.encode (write j)) = some (canonical j) := by
  have hread := readValue_write greatestDepth hi hd Number.stops_nil
  rw [List.append_nil] at hread
  rw [parse?, Text.Utf8.decode?_encode, Option.bind_eq_bind, Option.bind_some, read?, hread]
  rfl

end LanguageHub.Json
