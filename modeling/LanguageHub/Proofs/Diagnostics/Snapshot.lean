import LanguageHub.Diagnostics
import Mathlib

/-!
# A snapshot shows what was published last

Whatever is published to a hub, in whatever order, only the **last list** of each document counts
(`Hub.latest`). The store has exactly the documents whose last list is not empty, each of them
once (`DiagnosticsStore.Holds`); a publication preserves this (`DiagnosticsStore.Holds.update`),
and so does a sequence of them.

In which order a store lists its documents is of no account. `Snapshot.before` puts any two
documents with different URIs in one order, so that sorting leaves **one snapshot** of all stores
that hold the same (`DiagnosticsStore.Holds.ofStore_congr`).
-/

namespace LanguageHub

open Lsp (Diagnostic Publication)

/-- The list that was published last for a document; empty if there is none. -/
def Hub.latest (ps : List Publication) (uri : Uri) : List Diagnostic :=
  ((ps.reverse.find? (·.uri == uri)).map (·.diagnostics)).getD []

theorem Hub.latest_concat (ps : List Publication) (p : Publication) :
    Hub.latest (ps ++ [p]) = Function.update (Hub.latest ps) p.uri p.diagnostics := by
  funext uri
  rw [latest, List.reverse_concat, List.find?_cons]
  by_cases h : p.uri = uri
  · rw [h, beq_self_eq_true, Function.update_self]
    rfl
  · rw [beq_eq_false_iff_ne.mpr h, Function.update_of_ne (Ne.symm h)]
    rfl

/-! ### The store -/

/-- **What a store holds**: the documents with a list that is not empty, and each of them once. -/
structure DiagnosticsStore.Holds (s : DiagnosticsStore) (latest : Uri → List Diagnostic) :
    Prop where
  nodup : (s.documents.map (·.1)).Nodup
  mem_iff : ∀ d, d ∈ s.documents ↔ latest d.1 = d.2 ∧ d.2 ≠ []

namespace DiagnosticsStore

variable {s s' : DiagnosticsStore} {latest : Uri → List Diagnostic}

theorem holds_empty : empty.Holds fun _ => [] where
  nodup := List.nodup_nil
  mem_iff := by
    intro d
    constructor
    · exact fun h => absurd h List.not_mem_nil
    · exact fun h => absurd h.1.symm h.2

/-- **A publication replaces the list of one document.** -/
theorem Holds.update (h : s.Holds latest) (p : Publication) :
    (s.update p).Holds (Function.update latest p.uri p.diagnostics) := by
  have hothers : ∀ d, d ∈ s.documents.filter (·.1 != p.uri) ↔
      (latest d.1 = d.2 ∧ d.2 ≠ []) ∧ d.1 ≠ p.uri := by
    intro d
    rw [List.mem_filter, h.mem_iff, bne_iff_ne]
  have hnodup : ((s.documents.filter (·.1 != p.uri)).map (·.1)).Nodup :=
    h.nodup.sublist (List.filter_sublist.map _)
  -- the other documents keep their lists, and the one that is published has the new one
  have hmem : ∀ d, Function.update latest p.uri p.diagnostics d.1 = d.2 ∧ d.2 ≠ [] ↔
      d ∈ s.documents.filter (·.1 != p.uri) ∨
        (d = (p.uri, p.diagnostics) ∧ p.diagnostics ≠ []) := by
    rintro ⟨uri, ds⟩
    rw [hothers]
    by_cases huri : uri = p.uri
    · subst huri
      rw [Function.update_self]
      constructor
      · rintro ⟨rfl, hne⟩
        exact .inr ⟨rfl, hne⟩
      · rintro (⟨-, hne⟩ | ⟨heq, hne⟩)
        · exact absurd rfl hne
        · cases heq
          exact ⟨rfl, hne⟩
    · rw [Function.update_of_ne huri]
      constructor
      · exact fun hd => .inl ⟨hd, huri⟩
      · rintro (⟨hd, -⟩ | ⟨heq, -⟩)
        · exact hd
        · cases heq
          exact absurd rfl huri
  by_cases hempty : p.diagnostics = []
  · have hdocuments : (s.update p).documents = s.documents.filter (·.1 != p.uri) := by
      rw [DiagnosticsStore.update, hempty]
      rfl
    refine ⟨hdocuments ▸ hnodup, fun d => ?_⟩
    rw [hmem, hdocuments]
    exact ⟨.inl, fun h => h.resolve_right fun h => h.2 hempty⟩
  · have hdocuments : (s.update p).documents =
        s.documents.filter (·.1 != p.uri) ++ [(p.uri, p.diagnostics)] := by
      have hne : p.diagnostics.isEmpty = false := by simpa using hempty
      rw [DiagnosticsStore.update, hne]
      rfl
    refine ⟨?_, fun d => ?_⟩
    · rw [hdocuments, List.map_append, List.nodup_append]
      refine ⟨hnodup, List.nodup_singleton _, fun u hu v hv => ?_⟩
      obtain ⟨d, hd, rfl⟩ := List.mem_map.mp hu
      rw [List.map_singleton, List.mem_singleton] at hv
      rw [hv]
      exact ((hothers d).mp hd).2
    · rw [hmem, hdocuments, List.mem_append, List.mem_singleton]
      exact or_congr Iff.rfl (and_iff_left hempty).symm

theorem Holds.get (h : s.Holds latest) (uri : Uri) : s.get uri = latest uri := by
  unfold DiagnosticsStore.get
  cases hfind : s.documents.find? (·.1 == uri) with
  | none =>
    -- a document that is not there has an empty list
    by_contra hne
    have hd := (h.mem_iff (uri, latest uri)).mpr ⟨rfl, fun hnil => hne hnil.symm⟩
    have hnot := List.find?_eq_none.mp hfind _ hd
    exact hnot (beq_self_eq_true uri)
  | some d =>
    obtain rfl : d.1 = uri := by simpa using List.find?_some hfind
    exact ((h.mem_iff d).mp (List.mem_of_find?_eq_some hfind)).1.symm

/-- Stores that hold the same list the same documents. -/
theorem Holds.perm (h : s.Holds latest) (h' : s'.Holds latest) :
    s.documents.Perm s'.documents := by
  refine (List.perm_ext_iff_of_nodup h.nodup.of_map h'.nodup.of_map).mpr fun d => ?_
  rw [h.mem_iff, h'.mem_iff]

end DiagnosticsStore

/-- **A hub holds what was published last.** -/
theorem Hub.holds_publish (ps : List Publication) (subscribers : List Subscriber) :
    (ps.foldl Hub.publish ⟨.empty, subscribers⟩).store.Holds (Hub.latest ps) := by
  induction ps using List.reverseRecOn with
  | nil => exact DiagnosticsStore.holds_empty
  | append_singleton ps p ih =>
    rw [List.foldl_concat, Hub.latest_concat]
    exact ih.update p

/-! ### The snapshot -/

namespace Snapshot

/-- A document comes first if it has an error and the other one has none, and by its URI if they
are alike. -/
theorem before_iff (a b : Uri × List Diagnostic) : before a b = true ↔
    (a.2.any Diagnostic.isError = true ∧ b.2.any Diagnostic.isError = false) ∨
      (a.2.any Diagnostic.isError = b.2.any Diagnostic.isError ∧ a.1.text ≤ b.1.text) := by
  unfold before
  dsimp only
  cases a.2.any Diagnostic.isError <;> cases b.2.any Diagnostic.isError <;> simp

theorem before_total (a b : Uri × List Diagnostic) : (before a b || before b a) = true := by
  rw [Bool.or_eq_true, before_iff, before_iff]
  cases a.2.any Diagnostic.isError <;> cases b.2.any Diagnostic.isError <;>
    simp [String.le_total]

theorem before_trans (a b c : Uri × List Diagnostic) (h : before a b = true)
    (h' : before b c = true) : before a c = true := by
  rw [before_iff] at h h' ⊢
  rcases h with ⟨ha, hb⟩ | ⟨hab, htext⟩ <;> rcases h' with ⟨hb', hc⟩ | ⟨hbc, htext'⟩
  · exact .inl ⟨ha, hc⟩
  · exact .inl ⟨ha, hbc ▸ hb⟩
  · exact .inl ⟨hab.trans hb', hc⟩
  · exact .inr ⟨hab.trans hbc, String.le_trans htext htext'⟩

/-- Documents that come before each other have one URI. -/
theorem uri_eq_of_before {a b : Uri × List Diagnostic} (h : before a b = true)
    (h' : before b a = true) : a.1 = b.1 := by
  rw [before_iff] at h h'
  generalize a.2.any Diagnostic.isError = x at h h'
  generalize b.2.any Diagnostic.isError = y at h h'
  obtain ⟨⟨text⟩, _⟩ := a
  obtain ⟨⟨text'⟩, _⟩ := b
  rcases h with ⟨rfl, rfl⟩ | ⟨rfl, hle⟩
  · rcases h' with ⟨h, -⟩ | ⟨h, -⟩ <;> cases h
  · rcases h' with ⟨rfl, h⟩ | ⟨-, hle'⟩
    · cases h
    · exact congrArg Uri.mk (String.le_antisymm hle hle')

/-- **What a snapshot shows** of the lists of all documents: those that are not empty, once each
and in order, and how many diagnostics they have. -/
structure Shows (v : Snapshot) (latest : Uri → List Diagnostic) : Prop where
  nodup : (v.documents.map (·.1)).Nodup
  mem_iff : ∀ d, d ∈ v.documents ↔ latest d.1 = d.2 ∧ d.2 ≠ []
  /-- Documents with an error come first, and the URIs increase among equals. -/
  sorted : v.documents.Pairwise fun a b =>
    (b.2.any Diagnostic.isError = true → a.2.any Diagnostic.isError = true) ∧
      (a.2.any Diagnostic.isError = b.2.any Diagnostic.isError → a.1.text < b.1.text)
  count : ∀ severity, v.count severity =
    (v.documents.map fun d => d.2.countP (·.severity == some severity)).sum
  total : v.total = (v.documents.map fun d => d.2.length).sum

end Snapshot

namespace DiagnosticsStore

open Snapshot (before before_iff before_total before_trans uri_eq_of_before)

variable {s s' : DiagnosticsStore} {latest : Uri → List Diagnostic}

/-- **The snapshot of a store shows what it holds.** -/
theorem Holds.shows (h : s.Holds latest) : (Snapshot.ofStore s).Shows latest := by
  have hperm : (s.documents.mergeSort before).Perm s.documents := List.mergeSort_perm _ _
  have hnodup : ((s.documents.mergeSort before).map (·.1)).Nodup :=
    (hperm.map _).nodup_iff.mpr h.nodup
  have hsorted := List.pairwise_mergeSort before_trans before_total s.documents
  have hne : (s.documents.mergeSort before).Pairwise fun a b => a.1 ≠ b.1 :=
    List.pairwise_map.mp hnodup
  refine ⟨hnodup, fun d => hperm.mem_iff.trans (h.mem_iff d), ?_, fun severity => ?_, ?_⟩
  · refine (hsorted.and hne).imp fun {a b} hab => ?_
    obtain ⟨hbefore, hne⟩ := hab
    constructor
    · intro hb
      rcases (before_iff a b).mp hbefore with ⟨ha, -⟩ | ⟨heq, -⟩
      · exact ha
      · exact heq.trans hb
    -- of two documents that are alike, the second one is not before the first
    · intro heq
      refine String.not_le.mp fun hle => hne (uri_eq_of_before hbefore ?_)
      exact (before_iff b a).mpr (.inr ⟨heq.symm, hle⟩)
  · rw [Snapshot.count, Snapshot.diagnostics, ← List.countP_eq_length_filter, List.countP_flatMap]
    rfl
  · rw [Snapshot.total, Snapshot.diagnostics, List.length_flatMap]

/-- **Stores that hold the same have one snapshot**, in whatever order they list their documents. -/
theorem Holds.ofStore_congr (h : s.Holds latest) (h' : s'.Holds latest) :
    Snapshot.ofStore s = Snapshot.ofStore s' := by
  have hperm : (s.documents.mergeSort before).Perm (s'.documents.mergeSort before) :=
    (List.mergeSort_perm _ _).trans ((h.perm h').trans (List.mergeSort_perm _ _).symm)
  refine congrArg Snapshot.mk (hperm.eq_of_pairwise (fun a b ha hb hab hba => ?_)
    (List.pairwise_mergeSort before_trans before_total _)
    (List.pairwise_mergeSort before_trans before_total _))
  have huri := uri_eq_of_before hab hba
  have ha := (h.mem_iff a).mp (List.mem_mergeSort.mp ha)
  have hb := (h'.mem_iff b).mp (List.mem_mergeSort.mp hb)
  exact Prod.ext huri (ha.1.symm.trans (huri ▸ hb.1))

theorem Holds.of_perm (h : s.Holds latest) (hperm : s'.documents.Perm s.documents) :
    s'.Holds latest where
  nodup := (hperm.map _).nodup_iff.mpr h.nodup
  mem_iff := fun d => hperm.mem_iff.trans (h.mem_iff d)

end DiagnosticsStore

/-- **A snapshot shows what was published last**, whoever listens: after any publications the
documents of the snapshot are those whose last list is not empty, and each look-up finds the last
list. Publications with the same last lists lead to one snapshot, and this snapshot does not depend
on the order in which the store lists its documents. -/
theorem Hub.snapshot_latest (ps : List Publication) (subscribers : List Subscriber) :
    (ps.foldl Hub.publish ⟨.empty, subscribers⟩).snapshot.Shows (Hub.latest ps) ∧
      (∀ uri, (ps.foldl Hub.publish ⟨.empty, subscribers⟩).store.get uri = Hub.latest ps uri) ∧
      ∀ (qs : List Publication) (subscribers' : List Subscriber) (s : DiagnosticsStore),
        (∀ uri, Hub.latest qs uri = Hub.latest ps uri) →
        s.documents.Perm (qs.foldl Hub.publish ⟨.empty, subscribers'⟩).store.documents →
        Snapshot.ofStore s = (ps.foldl Hub.publish ⟨.empty, subscribers⟩).snapshot := by
  have h := Hub.holds_publish ps subscribers
  refine ⟨h.shows, h.get, fun qs subscribers' s heq hperm => ?_⟩
  have hqs := Hub.holds_publish qs subscribers'
  rw [funext heq] at hqs
  exact (hqs.of_perm hperm).ofStore_congr h

/-- A publication of some severities. -/
def notice (uri : String) (severities : List (Option Int)) : Publication :=
  ⟨⟨uri⟩, none, severities.map fun severity => ⟨default, severity, "", []⟩⟩

/-- A document that was cleared leaves no trace, and an error is shown before a warning. -/
theorem Hub.snapshot_latest_cleared :
    let ps := [notice "a" [some 2, none], notice "c" [some 1], notice "b" [some 1], notice "c" []]
    let qs := [notice "b" [some 1], notice "a" [some 2, none]]
    (∀ uri, Hub.latest qs uri = Hub.latest ps uri) ∧
      (qs.foldl Hub.publish .empty).snapshot = (ps.foldl Hub.publish .empty).snapshot ∧
      (ps.foldl Hub.publish .empty).snapshot.documents.map (·.1.text) = ["b", "a"] := by
  intro ps qs
  have hlatest : ∀ uri, Hub.latest qs uri = Hub.latest ps uri := by
    intro uri
    rcases eq_or_ne uri ⟨"a"⟩ with rfl | ha
    · rfl
    rcases eq_or_ne uri ⟨"b"⟩ with rfl | hb
    · rfl
    rcases eq_or_ne uri ⟨"c"⟩ with rfl | hc
    · rfl
    simp [ps, qs, Hub.latest, notice, ha.symm, hb.symm, hc.symm]
  refine ⟨hlatest, (Hub.snapshot_latest ps []).2.2 qs [] _ hlatest (.refl _), ?_⟩
  cbv

end LanguageHub
