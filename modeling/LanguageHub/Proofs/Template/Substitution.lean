import LanguageHub.Template.Arguments
import Mathlib.Data.List.Find
import Mathlib.Data.List.Infix

/-!
# Substitution of placeholders

`Template.substitute` fills in a whole table of placeholders in **one pass** from left to right;
what it has filled in it does not read again. `Template.replace` is the case of a table with one
entry (`Template.replace_eq`).

Everything here rests on one property of placeholders: each is a text in braces without a brace
in it. So no occurrence of a placeholder straddles the end of another one, and a placeholder
**cuts a text**: substitution works on each side of it on its own (`Template.substitute_cut`), and
its occurrences are counted on each side (`Template.occurrences_cut`). What holds of a text without
a placeholder and is kept by such cuts holds of every text (`Template.cut_induction`).
-/

namespace LanguageHub.Template

/-- **A placeholder**: a text in braces, with no brace in it. -/
def IsPlaceholder (p : List Char) : Prop :=
  ∃ body, '{' ∉ body ∧ '}' ∉ body ∧ p = '{' :: (body ++ ['}'])

/-- `substitute` of a text of which `skip` characters belong to the placeholder that was filled in
last. -/
def substituteFrom (table : List (List Char × List Char)) : Nat → List Char → List Char
  | _, [] => []
  | skip + 1, _ :: s => substituteFrom table skip s
  | 0, c :: s =>
    match table.find? (·.1.isPrefixOf (c :: s)) with
    | some e => e.2 ++ substituteFrom table (e.1.length - 1) s
    | none => c :: substituteFrom table 0 s

/-- **A text with the placeholders of a table filled in**, in one pass from left to right. -/
def substitute (table : List (List Char × List Char)) (text : List Char) : List Char :=
  substituteFrom table 0 text

/-- What a table puts in the place of a placeholder. -/
def value (table : List (List Char × List Char)) (p : List Char) : List Char :=
  match table.find? (·.1 == p) with
  | some e => e.2
  | none => p

/-- The number of places of a text at which a pattern stands. -/
def occurrences (p : List Char) : List Char → Nat
  | [] => 0
  | c :: s => (if p.isPrefixOf (c :: s) then 1 else 0) + occurrences p s

variable {p q a b s t v x : List Char} {d : Char} {table : List (List Char × List Char)}

/-! ### Placeholders at the beginning of a text -/

namespace IsPlaceholder

theorem ne_nil (hp : IsPlaceholder p) : p ≠ [] := by
  obtain ⟨body, -, -, rfl⟩ := hp
  exact List.cons_ne_nil _ _

theorem opening_not_mem_tail (hp : IsPlaceholder p) : '{' ∉ p.tail := by
  obtain ⟨body, hopen, -, rfl⟩ := hp
  simp [hopen]

theorem exists_eq_cons (hp : IsPlaceholder p) : ∃ x, p = '{' :: x ∧ '{' ∉ x := by
  obtain ⟨body, hopen, -, rfl⟩ := hp
  exact ⟨_, rfl, by simp [hopen]⟩

theorem eq_of_prefix (hp : IsPlaceholder p) (hq : IsPlaceholder q) (h : p <+: q) : p = q := by
  obtain ⟨body, -, -, rfl⟩ := hp
  obtain ⟨body', -, hclose, rfl⟩ := hq
  rcases List.prefix_concat_iff.mp ((List.cons_prefix_cons.mp h).2) with h | h
  · rw [h]
  · -- the first closing brace would be in the body of the longer one
    exact absurd (h.subset (by simp)) hclose

/-- **A text starts with one placeholder at most.** -/
theorem eq_of_prefix_of_prefix (hp : IsPlaceholder p) (hq : IsPlaceholder q) (h : p <+: s)
    (h' : q <+: s) : p = q := by
  rcases List.prefix_or_prefix_of_prefix h h' with h | h
  · exact hp.eq_of_prefix hq h
  · exact (hq.eq_of_prefix hp h).symm

theorem isPrefixOf_append (hp : IsPlaceholder p) (hq : IsPlaceholder q) (t : List Char) :
    p.isPrefixOf (q ++ t) = (p == q) := by
  rw [Bool.eq_iff_iff, List.isPrefixOf_iff_prefix, beq_iff_eq]
  constructor
  · exact fun h => hp.eq_of_prefix_of_prefix hq h (List.prefix_append q t)
  · rintro rfl
    exact List.prefix_append p t

end IsPlaceholder

/-- A pattern that stands at the beginning of a text ends before a character which is in it at no
place but the first. -/
theorem isPrefixOf_append_cons (hd : d ∉ p.tail) (hx : x ≠ []) (t : List Char) :
    p.isPrefixOf (x ++ d :: t) = p.isPrefixOf x := by
  rw [Bool.eq_iff_iff, List.isPrefixOf_iff_prefix, List.isPrefixOf_iff_prefix]
  refine ⟨fun h => ?_, fun h => h.trans (List.prefix_append x _)⟩
  rcases Nat.lt_or_ge x.length p.length with hlt | hle
  · have hxd : x ++ [d] <+: x ++ d :: t := by simp
    obtain ⟨r, rfl⟩ := List.prefix_of_prefix_length_le hxd h (by simpa using Nat.succ_le_of_lt hlt)
    obtain ⟨c, x, rfl⟩ := List.exists_cons_of_ne_nil hx
    exact absurd (by simp) hd
  · exact List.prefix_of_prefix_length_le h (List.prefix_append x _) hle

/-- A pattern that starts with a brace does not stand at another character. -/
theorem IsPlaceholder.isPrefixOf_cons_of_ne (hp : IsPlaceholder p) (hd : d ≠ '{') :
    p.isPrefixOf (d :: t) = false := by
  obtain ⟨x, rfl, -⟩ := hp.exists_eq_cons
  simp [List.isPrefixOf, Ne.symm hd]

/-! ### Substitution -/

/-- **Replacing a pattern is substitution by a table of one entry.** -/
theorem replace_eq (p v s : List Char) : replace p v s = substitute [(p, v)] s := by
  have hfrom : ∀ n, replaceFrom p v n s = substituteFrom [(p, v)] n s := by
    induction s with
    | nil => exact fun n => by cases n <;> rfl
    | cons c s ih =>
      rintro (_ | n)
      · rw [replaceFrom, substituteFrom, List.find?_singleton]
        split <;> simp only [ih]
      · exact ih n
  exact hfrom 0

/-- A text is cut before a character that no placeholder goes on with. -/
theorem substituteFrom_append_cons (hd : ∀ e ∈ table, d ∉ e.1.tail) {n : Nat}
    (hn : n ≤ a.length) (t : List Char) :
    substituteFrom table n (a ++ d :: t) =
      substituteFrom table n a ++ substitute table (d :: t) := by
  induction a generalizing n with
  | nil =>
    obtain rfl : n = 0 := Nat.le_zero.mp hn
    rfl
  | cons c a ih =>
    cases n with
    | succ n => exact ih (Nat.le_of_succ_le_succ hn)
    | zero =>
      have hfind : table.find? (·.1.isPrefixOf (c :: (a ++ d :: t))) =
          table.find? (·.1.isPrefixOf (c :: a)) :=
        List.find?_congr fun e he =>
          isPrefixOf_append_cons (x := c :: a) (hd e he) (List.cons_ne_nil c a) t
      rw [List.cons_append, substituteFrom, substituteFrom, hfind]
      split
      · next e he =>
        have hpre : e.1 <+: c :: a := by simpa using List.find?_some he
        rw [ih (by simpa using Nat.sub_le_of_le_add hpre.length_le), List.append_assoc]
      · rw [ih (Nat.zero_le _), List.cons_append]

theorem substituteFrom_length (x t : List Char) :
    substituteFrom table x.length (x ++ t) = substitute table t := by
  induction x with
  | nil => rfl
  | cons c x ih => exact ih

section Placeholders

variable (htable : ∀ e ∈ table, IsPlaceholder e.1)
include htable

theorem substitute_append_of_not_mem (hx : '{' ∉ x) (t : List Char) :
    substitute table (x ++ t) = x ++ substitute table t := by
  induction x with
  | nil => rfl
  | cons c x ih =>
    rw [List.mem_cons, not_or] at hx
    have hfind : table.find? (·.1.isPrefixOf (c :: (x ++ t))) = none := by
      rw [List.find?_eq_none]
      exact fun e he => by simp [(htable e he).isPrefixOf_cons_of_ne (Ne.symm hx.1)]
    rw [List.cons_append, substitute, substituteFrom, hfind, List.cons_append]
    exact congrArg _ (ih hx.2)

theorem substitute_placeholder (hq : IsPlaceholder q) (t : List Char) :
    substitute table (q ++ t) = value table q ++ substitute table t := by
  obtain ⟨x, rfl, hx⟩ := hq.exists_eq_cons
  have hfind : table.find? (·.1.isPrefixOf ('{' :: (x ++ t))) = table.find? (·.1 == '{' :: x) :=
    List.find?_congr fun e he => (htable e he).isPrefixOf_append hq t
  rw [List.cons_append, substitute, substituteFrom, hfind, value]
  split
  · next e he =>
    have hkey : e.1 = '{' :: x := by simpa using List.find?_some he
    rw [hkey, List.length_cons, Nat.add_sub_cancel, substituteFrom_length]
  · exact congrArg _ (substitute_append_of_not_mem htable hx t)

/-- **A placeholder cuts a text**, whether or not the table has it. -/
theorem substitute_cut (hq : IsPlaceholder q) (a b : List Char) :
    substitute table (a ++ q ++ b) = substitute table a ++ value table q ++ substitute table b := by
  obtain ⟨x, hx, -⟩ := hq.exists_eq_cons
  have hcut : substitute table (a ++ (q ++ b)) =
      substitute table a ++ substitute table (q ++ b) := by
    rw [hx]
    exact substituteFrom_append_cons (fun e he => (htable e he).opening_not_mem_tail)
      (Nat.zero_le _) _
  rw [List.append_assoc, hcut, substitute_placeholder htable hq, List.append_assoc]

end Placeholders

/-- Entries whose placeholders are not in a text do not matter for it. -/
theorem substitute_append_table {more : List (List Char × List Char)}
    (h : ∀ e ∈ more, ¬ e.1 <:+: s) : substitute (table ++ more) s = substitute table s := by
  have hfrom : ∀ n, substituteFrom (table ++ more) n s = substituteFrom table n s := by
    induction s with
    | nil => exact fun n => by cases n <;> rfl
    | cons c s ih =>
      have ih := ih fun e he hi => h e he (hi.trans (List.suffix_cons c s).isInfix)
      rintro (_ | n)
      · have hmore : more.find? (·.1.isPrefixOf (c :: s)) = none := by
          rw [List.find?_eq_none]
          exact fun e he hpre => h e he (List.isPrefixOf_iff_prefix.mp hpre).isInfix
        rw [substituteFrom, substituteFrom, List.find?_append, hmore, Option.or_none]
        split <;> simp only [ih]
      · exact ih n
  exact hfrom 0

@[simp] theorem substitute_nil_table (s : List Char) : substitute [] s = s := by
  induction s with
  | nil => rfl
  | cons c s ih => exact congrArg _ ih

/-- A text without placeholders of the table stays as it is. -/
theorem substitute_eq_self (h : ∀ e ∈ table, ¬ e.1 <:+: s) : substitute table s = s :=
  (@substitute_append_table s [] table h).trans (substitute_nil_table s)

/-! ### Occurrences -/

theorem occurrences_append_cons (hd : d ∉ p.tail) (a t : List Char) :
    occurrences p (a ++ d :: t) = occurrences p a + occurrences p (d :: t) := by
  induction a with
  | nil => simp [occurrences]
  | cons c a ih =>
    have hpre := isPrefixOf_append_cons (x := c :: a) hd (List.cons_ne_nil c a) t
    rw [List.cons_append] at hpre ⊢
    rw [occurrences, hpre, ih, ← Nat.add_assoc]
    rfl

theorem occurrences_append_of_not_mem (hp : IsPlaceholder p) (hx : '{' ∉ x) (t : List Char) :
    occurrences p (x ++ t) = occurrences p t := by
  induction x with
  | nil => rfl
  | cons c x ih =>
    rw [List.mem_cons, not_or] at hx
    rw [List.cons_append, occurrences, hp.isPrefixOf_cons_of_ne (Ne.symm hx.1), ih hx.2]
    simp

/-- **The occurrences are counted on each side of a placeholder.** -/
theorem occurrences_cut (hp : IsPlaceholder p) (hq : IsPlaceholder q) (a b : List Char) :
    occurrences p (a ++ q ++ b) =
      occurrences p a + (if p = q then 1 else 0) + occurrences p b := by
  obtain ⟨x, rfl, hx⟩ := hq.exists_eq_cons
  have hpre := hp.isPrefixOf_append hq b
  rw [List.cons_append] at hpre
  rw [List.append_assoc, List.cons_append, occurrences_append_cons hp.opening_not_mem_tail,
    occurrences, hpre, occurrences_append_of_not_mem hp hx]
  simp only [beq_iff_eq, Nat.add_assoc]

theorem occurrences_eq_zero_iff (hp : p ≠ []) : occurrences p s = 0 ↔ ¬ p <:+: s := by
  induction s with
  | nil => simp [occurrences, hp]
  | cons c s ih =>
    rw [occurrences, Nat.add_eq_zero_iff, ih, List.infix_cons_iff, not_or,
      ← List.isPrefixOf_iff_prefix]
    simp

/-- **Induction on the places where a text is cut by a placeholder.** -/
theorem cut_induction {motive : List Char → Prop} (hp : p ≠ [])
    (plain : ∀ s, occurrences p s = 0 → motive s)
    (cut : ∀ a b, motive a → motive b → motive (a ++ p ++ b)) (s : List Char) : motive s := by
  induction hn : s.length using Nat.strongRecOn generalizing s with
  | ind n ih =>
    by_cases hs : occurrences p s = 0
    · exact plain s hs
    · rw [occurrences_eq_zero_iff hp, not_not] at hs
      obtain ⟨a, b, rfl⟩ := hs
      have hpos := List.length_pos_iff.mpr hp
      simp only [List.length_append] at hn
      exact cut a b (ih a.length (by omega) a rfl) (ih b.length (by omega) b rfl)

/-- **Each occurrence that is filled in takes one opening brace with it.** -/
theorem count_substitute (hp : IsPlaceholder p) (hv : '{' ∉ v) (s : List Char) :
    (substitute [(p, v)] s).count '{' + occurrences p s = s.count '{' := by
  have htable : ∀ e ∈ [(p, v)], IsPlaceholder e.1 := by simpa using hp
  induction s using cut_induction hp.ne_nil with
  | plain s hs =>
    rw [hs, substitute_eq_self (by simpa using (occurrences_eq_zero_iff hp.ne_nil).mp hs)]
    rfl
  | cut a b iha ihb =>
    obtain ⟨x, hx, hopen⟩ := hp.exists_eq_cons
    have hcount : p.count '{' = 1 := by rw [hx, List.count_cons_self, List.count_eq_zero.mpr hopen]
    have hvalue : value [(p, v)] p = v := by simp [value]
    rw [substitute_cut htable hp, occurrences_cut hp hp, hvalue, if_pos rfl]
    simp only [List.count_append, hcount, List.count_eq_zero.mpr hv]
    omega

end LanguageHub.Template
