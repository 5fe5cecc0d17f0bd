import LanguageHub.Proofs.Template.Substitution
import LanguageHub.Proofs.Text.Slash

/-!
# The arguments of a server

Each word of a template becomes one argument, whatever is filled in. But a word is filled in by
**two passes**: the second one, for the process id, reads what the first one has put there for the
root of the workspace. So the two placeholders are not filled in at once, and the argument is what
one pass makes of the word exactly when filling in the root **makes no new placeholder** for the
process id (`Template.fill_eq_iff`).

An absolute root starts with a slash, which no placeholder has, so nothing before the root can go on
in it. Such a root is safe in every word exactly when no end of it starts with the placeholder or
goes on to it (`Template.Inert`, `Template.forall_fill_eq_iff`).
-/

namespace LanguageHub.Template

open LanguageHub

theorem isPlaceholder_root : IsPlaceholder rootPlaceholder :=
  ⟨"WorkspaceRoot".toList, by decide, by decide, by decide⟩

theorem isPlaceholder_pid : IsPlaceholder pidPlaceholder :=
  ⟨"HostProcessId".toList, by decide, by decide, by decide⟩

/-- **What the placeholders of a template stand for.** -/
def placeholders (root pid : List Char) : List (List Char × List Char) :=
  [(rootPlaceholder, root), (pidPlaceholder, pid)]

/-- **A root that neither has the placeholder of the process id in it nor ends with a beginning of
it.** -/
def Inert (root : List Char) : Prop :=
  ∀ s, s <:+ root → s ≠ [] → ¬ pidPlaceholder <+: s ∧ ¬ s <+: pidPlaceholder

instance (root : List Char) : Decidable (Inert root) :=
  decidable_of_iff
    (∀ s ∈ root.tails, s ≠ [] → ¬ pidPlaceholder <+: s ∧ ¬ s <+: pidPlaceholder)
    (by simp only [List.mem_tails, Inert])

variable {root pid w : List Char}

/-! ### One pass and two -/

section Passes

theorem isPlaceholder_of_mem_root : ∀ e ∈ [(rootPlaceholder, root)], IsPlaceholder e.1 := by
  simpa using isPlaceholder_root

theorem isPlaceholder_of_mem_pid : ∀ e ∈ [(pidPlaceholder, pid)], IsPlaceholder e.1 := by
  simpa using isPlaceholder_pid

theorem isPlaceholder_of_mem : ∀ e ∈ placeholders root pid, IsPlaceholder e.1 := by
  simp [placeholders, isPlaceholder_root, isPlaceholder_pid]

theorem root_ne_pid : rootPlaceholder ≠ pidPlaceholder := by decide

@[simp] theorem value_placeholders_pid : value (placeholders root pid) pidPlaceholder = pid := by
  rfl

@[simp] theorem value_root_pid :
    value [(rootPlaceholder, root)] pidPlaceholder = pidPlaceholder := by
  rfl

@[simp] theorem value_root_root : value [(rootPlaceholder, root)] rootPlaceholder = root := by
  rfl

@[simp] theorem value_pid_pid : value [(pidPlaceholder, pid)] pidPlaceholder = pid := by
  rfl

theorem fill_eq (root pid w : List Char) :
    fill root pid w =
      substitute [(pidPlaceholder, pid)] (substitute [(rootPlaceholder, root)] w) := by
  rw [fill, replace_eq, replace_eq]

/-- A word is cut by the placeholder of the process id, in each pass. -/
theorem substitute_root_cut (a b : List Char) :
    substitute [(rootPlaceholder, root)] (a ++ pidPlaceholder ++ b) =
      substitute [(rootPlaceholder, root)] a ++ pidPlaceholder ++
        substitute [(rootPlaceholder, root)] b := by
  rw [substitute_cut isPlaceholder_of_mem_root isPlaceholder_pid, value_root_pid]

theorem fill_cut (a b : List Char) :
    fill root pid (a ++ pidPlaceholder ++ b) = fill root pid a ++ pid ++ fill root pid b := by
  simp only [fill_eq]
  rw [substitute_root_cut, substitute_cut isPlaceholder_of_mem_pid isPlaceholder_pid, value_pid_pid]

theorem substitute_placeholders_cut (a b : List Char) :
    substitute (placeholders root pid) (a ++ pidPlaceholder ++ b) =
      substitute (placeholders root pid) a ++ pid ++ substitute (placeholders root pid) b := by
  rw [substitute_cut isPlaceholder_of_mem isPlaceholder_pid, value_placeholders_pid]

/-- In a word without a placeholder for the process id only the root is filled in. -/
theorem substitute_placeholders_of_occurrences (h : occurrences pidPlaceholder w = 0) :
    substitute (placeholders root pid) w = substitute [(rootPlaceholder, root)] w := by
  have hmore : ∀ e ∈ [(pidPlaceholder, pid)], ¬ e.1 <:+: w := by
    simpa using (occurrences_eq_zero_iff isPlaceholder_pid.ne_nil).mp h
  exact @substitute_append_table w [(rootPlaceholder, root)] _ hmore

/-- Filling in the root loses no placeholder of the process id. -/
theorem occurrences_le_substitute_root (root w : List Char) :
    occurrences pidPlaceholder w ≤
      occurrences pidPlaceholder (substitute [(rootPlaceholder, root)] w) := by
  induction w using cut_induction isPlaceholder_pid.ne_nil with
  | plain w hw => exact hw ▸ Nat.zero_le _
  | cut a b iha ihb =>
    rw [substitute_root_cut, occurrences_cut isPlaceholder_pid isPlaceholder_pid,
      occurrences_cut isPlaceholder_pid isPlaceholder_pid]
    omega

/-- One pass takes away the opening braces of the placeholders that the word has. -/
theorem count_substitute_placeholders (hpid : '{' ∉ pid) (root w : List Char) :
    (substitute (placeholders root pid) w).count '{' + occurrences pidPlaceholder w =
      (substitute [(rootPlaceholder, root)] w).count '{' := by
  induction w using cut_induction isPlaceholder_pid.ne_nil with
  | plain w hw => rw [hw, substitute_placeholders_of_occurrences hw, Nat.add_zero]
  | cut a b iha ihb =>
    have hcount : pidPlaceholder.count '{' = 1 := by decide
    rw [substitute_placeholders_cut, substitute_root_cut,
      occurrences_cut isPlaceholder_pid isPlaceholder_pid, if_pos rfl]
    simp only [List.count_append, hcount, List.count_eq_zero.mpr hpid]
    omega

/-- **Two passes do what one does exactly when the first makes no new placeholder** for the
second. -/
theorem fill_eq_iff (hpid : '{' ∉ pid) (root w : List Char) :
    fill root pid w = substitute (placeholders root pid) w ↔
      occurrences pidPlaceholder (substitute [(rootPlaceholder, root)] w) =
        occurrences pidPlaceholder w := by
  constructor
  · -- both have lost as many braces
    intro heq
    have htwo := count_substitute isPlaceholder_pid hpid (substitute [(rootPlaceholder, root)] w)
    have hone := count_substitute_placeholders hpid root w
    rw [← fill_eq, heq] at htwo
    omega
  · intro hocc
    induction w using cut_induction isPlaceholder_pid.ne_nil with
    | plain w hw =>
      rw [hw, occurrences_eq_zero_iff isPlaceholder_pid.ne_nil] at hocc
      rw [fill_eq, substitute_placeholders_of_occurrences hw,
        substitute_eq_self (by simpa using hocc)]
    | cut a b iha ihb =>
      rw [substitute_root_cut, occurrences_cut isPlaceholder_pid isPlaceholder_pid,
        occurrences_cut isPlaceholder_pid isPlaceholder_pid] at hocc
      have ha := occurrences_le_substitute_root root a
      have hb := occurrences_le_substitute_root root b
      rw [fill_cut, substitute_placeholders_cut, iha (by omega), ihb (by omega)]

end Passes

/-! ### Roots that are safe in every word -/

/-- Behind an inert root the placeholders are those of the rest. -/
theorem Inert.occurrences_append (h : Inert root) (t : List Char) :
    occurrences pidPlaceholder (root ++ t) = occurrences pidPlaceholder t := by
  induction root with
  | nil => rfl
  | cons c root ih =>
    have hpre : pidPlaceholder.isPrefixOf (c :: (root ++ t)) = false := by
      rw [Bool.eq_false_iff, Ne, List.isPrefixOf_iff_prefix]
      intro hpre
      have hself : c :: root <+: c :: (root ++ t) := List.prefix_append _ _
      obtain ⟨hlong, hshort⟩ := h (c :: root) List.suffix_rfl (List.cons_ne_nil _ _)
      exact (List.prefix_or_prefix_of_prefix hpre hself).elim hlong hshort
    have hrest : Inert root := fun s hs hne => h s (hs.trans (List.suffix_cons c root)) hne
    rw [List.cons_append, occurrences, hpre, ih hrest]
    simp

/-- An inert root that starts with a slash makes no placeholder in any word. -/
theorem Inert.occurrences_substitute (h : Inert root) (hslash : root.head? = some '/')
    (w : List Char) :
    occurrences pidPlaceholder (substitute [(rootPlaceholder, root)] w) =
      occurrences pidPlaceholder w := by
  induction w using cut_induction isPlaceholder_root.ne_nil with
  | plain w hw =>
    have hnone := (occurrences_eq_zero_iff isPlaceholder_root.ne_nil).mp hw
    rw [substitute_eq_self (by simpa using hnone)]
  | cut a b iha ihb =>
    obtain ⟨r, hr⟩ := List.head?_eq_some_iff.mp hslash
    have hcut := occurrences_append_cons (p := pidPlaceholder) (d := '/') (by decide)
      (substitute [(rootPlaceholder, root)] a) (r ++ substitute [(rootPlaceholder, root)] b)
    rw [← List.cons_append, ← hr, h.occurrences_append, iha, ihb] at hcut
    rw [substitute_cut isPlaceholder_of_mem_root isPlaceholder_root, value_root_root,
      List.append_assoc, hcut, occurrences_cut isPlaceholder_pid isPlaceholder_root,
      if_neg root_ne_pid.symm, Nat.add_zero]

/-- A root that is not inert makes a new placeholder in some word. -/
theorem exists_occurrences_ne (h : ¬ Inert root) :
    ∃ w, occurrences pidPlaceholder (substitute [(rootPlaceholder, root)] w) ≠
      occurrences pidPlaceholder w := by
  -- the word is the placeholder of the root and what is missing after it
  have hword : ∀ r, ¬ pidPlaceholder <:+: r → ¬ rootPlaceholder <:+: r →
      pidPlaceholder <:+: root ++ r →
      occurrences pidPlaceholder (substitute [(rootPlaceholder, root)] (rootPlaceholder ++ r)) ≠
        occurrences pidPlaceholder (rootPlaceholder ++ r) := by
    intro r hpid hroot hin hocc
    have hplain : occurrences pidPlaceholder (rootPlaceholder ++ r) = 0 := by
      have hcut := occurrences_cut isPlaceholder_pid isPlaceholder_root [] r
      rwa [if_neg root_ne_pid.symm,
        (occurrences_eq_zero_iff isPlaceholder_pid.ne_nil).mpr hpid] at hcut
    rw [hplain, substitute_placeholder isPlaceholder_of_mem_root isPlaceholder_root,
      value_root_root, substitute_eq_self (by simpa using hroot),
      occurrences_eq_zero_iff isPlaceholder_pid.ne_nil] at hocc
    exact hocc hin
  obtain ⟨s, hs, hne, hbad⟩ : ∃ s, s <:+ root ∧ s ≠ [] ∧
      (pidPlaceholder <+: s ∨ s <+: pidPlaceholder) := by
    simp only [Inert, not_forall, not_and_or, not_not] at h
    obtain ⟨s, hs, hne, hbad⟩ := h
    exact ⟨s, hs, hne, hbad⟩
  rcases hbad with hlong | ⟨r, hr⟩
  · refine ⟨_, hword [] ?_ ?_ ?_⟩
    · exact fun h => isPlaceholder_pid.ne_nil (List.infix_nil.mp h)
    · exact fun h => isPlaceholder_root.ne_nil (List.infix_nil.mp h)
    · rw [List.append_nil]
      exact hlong.isInfix.trans hs.isInfix
  · refine ⟨_, hword r ?_ ?_ ?_⟩
    · intro hin
      have hlen := hin.length_le
      have hpos := List.length_pos_iff.mpr hne
      rw [← hr, List.length_append] at hlen
      omega
    · intro hin
      have hwhole : rootPlaceholder <:+: pidPlaceholder :=
        hin.trans (hr ▸ List.suffix_append s r).isInfix
      exact absurd hwhole (by decide)
    · obtain ⟨u, hu⟩ := hs
      exact ⟨u, [], by rw [← hu, List.append_nil, List.append_assoc, hr]⟩

/-- **An absolute root is filled in at once with the process id, in every word, exactly when it is
inert.** -/
theorem forall_fill_eq_iff (hslash : root.head? = some '/') (hpid : '{' ∉ pid) :
    (∀ w, fill root pid w = substitute (placeholders root pid) w) ↔ Inert root := by
  simp only [fill_eq_iff hpid]
  constructor
  · intro h
    by_contra hinert
    obtain ⟨w, hw⟩ := exists_occurrences_ne hinert
    exact hw (h w)
  · exact fun h w => h.occurrences_substitute hslash w

/-! ### The arguments -/

theorem opening_not_mem_toString (n : Nat) : '{' ∉ (toString n).toList := by
  intro h
  rw [Nat.toString_eq_repr, Nat.toList_repr] at h
  have hdigit := Nat.isDigit_of_mem_toDigits (by omega) (by omega) h
  exact absurd hdigit (by decide)

theorem head?_display {root : Path} (h : root.isAbsolute = true) :
    root.display.toList.head? = some '/' := by
  obtain ⟨rest, hrest⟩ := List.head?_eq_some_iff.mp (by simpa [Path.isAbsolute] using h)
  have hnil : Text.Utf8.decodeLossy [] = [] := by rw [Text.Utf8.decodeLossy]
  have hdecode := Text.Utf8.decodeLossy_slash [] rest
  rw [hnil, List.nil_append, List.nil_append] at hdecode
  rw [Path.display, Text.Utf8.decodeStringLossy, String.toList_ofList, hrest, Path.slash, hdecode,
    List.head?_cons]

/-- **A template gives one argument for each of its words**, whatever is filled in. The argument is
the word with the root filled in by one pass and the process id by the next, and this is the word
with both filled in at once exactly when the root makes no new placeholder. An inert absolute root
makes none. -/
theorem arguments_words {template : String} {words : List (List Char)}
    (h : split template.toList = some words) (root : Path) (pid : Nat) :
    let text := root.display.toList
    let digits := (toString pid).toList
    ∃ args : List (List Char), arguments template root pid = .ok (args.map String.ofList) ∧
      args.length = words.length ∧
      ∀ (i : Nat) (w a : List Char), words[i]? = some w → args[i]? = some a →
        a = substitute [(pidPlaceholder, digits)] (substitute [(rootPlaceholder, text)] w) ∧
        (a = substitute (placeholders text digits) w ↔
          occurrences pidPlaceholder (substitute [(rootPlaceholder, text)] w) =
            occurrences pidPlaceholder w) ∧
        (root.isAbsolute = true → Inert text → a = substitute (placeholders text digits) w) := by
  intro text digits
  have hdigits : '{' ∉ digits := opening_not_mem_toString pid
  refine ⟨words.map (fill text digits), ?_, List.length_map .., ?_⟩
  · rw [arguments, h, List.map_map]
    rfl
  · intro i w a hw ha
    obtain rfl : fill text digits w = a := by simpa [hw] using ha
    refine ⟨fill_eq _ _ _, fill_eq_iff hdigits text w, fun habs hinert => ?_⟩
    exact (forall_fill_eq_iff (head?_display habs) hdigits).mpr hinert w

/-- A root with a blank and a brace, in quotes and behind other characters. -/
theorem arguments_words_blank :
    let template := "-s \"\x7bWorkspaceRoot\x7d\" --pid=\x7bHostProcessId\x7d"
    let root := Path.ofString "/home/dev/\x7bMy Solution"
    let words := ["-s".toList, "\x7bWorkspaceRoot\x7d".toList,
      "--pid=\x7bHostProcessId\x7d".toList]
    ∃ args : List (List Char),
      arguments template root 4242 = .ok (args.map String.ofList) ∧ args.length = 3 ∧
      ∀ (i : Nat) (w a : List Char), words[i]? = some w → args[i]? = some a →
        a = substitute (placeholders root.display.toList "4242".toList) w := by
  intro template root words
  have hsplit : split template.toList = some words := by decide +kernel
  obtain ⟨args, heq, hlen, hwords⟩ := arguments_words hsplit root 4242
  exact ⟨args, heq, hlen, fun i w a hw ha =>
    (hwords i w a hw ha).2.2 (by decide +kernel) (by decide +kernel)⟩

/-- **A root that is not filled in as it is**: the placeholder in its name is taken for one of the
template. -/
theorem arguments_rescanned :
    let root := Path.ofString "/ws/\x7bHostProcessId\x7d"
    arguments "-s \x7bWorkspaceRoot\x7d" root 4242 = .ok ["-s", "/ws/4242"] ∧
    substitute (placeholders root.display.toList "4242".toList) "\x7bWorkspaceRoot\x7d".toList =
      "/ws/\x7bHostProcessId\x7d".toList := by
  decide +kernel

end LanguageHub.Template
