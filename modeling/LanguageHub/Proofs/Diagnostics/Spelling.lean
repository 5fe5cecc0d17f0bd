import LanguageHub.Proofs.Diagnostics.Snapshot
import LanguageHub.Proofs.Uri.Files
import LanguageHub.Rehearsal.Desk

/-!
# Diagnostics are found under the spelling of their URI

A hub tells documents apart by the **text** of their URIs. A command that looks for the diagnostics
of a file looks under the one spelling that `Path.toUri?` gives it, and there it finds what was
published last in that spelling (`Hub.finds_file`): in the store, in the context of a question for
code actions, and as the event that ends its waiting. What is found is always about the file,
because its URI names it.

A server that spells the URI in another way is not heard, even if the URI names the same file
(`Hub.exists_overlooked`).
-/

namespace LanguageHub

open Lsp (Diagnostic Publication)

variable {f directory : Path} {t : Uri} {p : Publication} {before after ps : List Publication}

/-! ### The last list in a spelling -/

theorem Hub.latest_of_last (hafter : ∀ q ∈ after, q.uri ≠ p.uri) :
    Hub.latest (before ++ p :: after) p.uri = p.diagnostics := by
  have hnone : after.reverse.find? (·.uri == p.uri) = none := by
    refine List.find?_eq_none.mpr fun q hq => ?_
    simpa using hafter q (List.mem_reverse.mp hq)
  rw [latest, List.reverse_append, List.reverse_cons, List.append_assoc, List.find?_append, hnone,
    Option.none_or, List.singleton_append, List.find?_cons, beq_self_eq_true]
  rfl

/-- A document with diagnostics has one entry. -/
theorem Snapshot.Shows.filter_documents {v : Snapshot} {latest : Uri → List Diagnostic}
    (h : v.Shows latest) {uri : Uri} (hne : latest uri ≠ []) :
    v.documents.filter (·.1 == uri) = [(uri, latest uri)] := by
  have hmem : (uri, latest uri) ∈ v.documents.filter (·.1 == uri) :=
    List.mem_filter.mpr ⟨(h.mem_iff (uri, latest uri)).mpr ⟨rfl, hne⟩, beq_self_eq_true uri⟩
  have hall : ∀ d ∈ v.documents.filter (·.1 == uri), d = (uri, latest uri) := by
    rintro ⟨u, ds⟩ hfound
    obtain ⟨hd, heq⟩ := List.mem_filter.mp hfound
    obtain rfl : u = uri := by simpa using heq
    exact Prod.ext rfl ((h.mem_iff _).mp hd).1.symm
  have hnodup : (v.documents.filter (·.1 == uri)).Nodup := (List.Nodup.of_map _ h.nodup).filter _
  have hrep := List.eq_replicate_of_mem hall
  rw [hrep, List.nodup_replicate] at hnodup
  have hlength : (v.documents.filter (·.1 == uri)).length = 1 :=
    Nat.le_antisymm hnodup (List.length_pos_of_mem hmem)
  rw [hrep, hlength]
  rfl

/-- **A snapshot yields the diagnostics of a document on some lines.** -/
theorem Snapshot.Shows.onLinesOf {v : Snapshot} {latest : Uri → List Diagnostic}
    (h : v.Shows latest) (uri : Uri) (r : Lsp.Range) :
    v.onLinesOf uri r = (latest uri).filter (·.onLinesOf r) := by
  rw [Snapshot.onLinesOf]
  by_cases hempty : latest uri = []
  · -- a document without diagnostics is not shown
    have hnone : v.documents.filter (·.1 == uri) = [] := by
      refine List.filter_eq_nil_iff.mpr fun d hd heq => ?_
      obtain ⟨hlatest, hne⟩ := (h.mem_iff d).mp hd
      rw [beq_iff_eq] at heq
      rw [heq, hempty] at hlatest
      exact hne hlatest.symm
    rw [hnone, hempty]
    rfl
  · rw [h.filter_documents hempty, List.flatMap_singleton]

/-! ### What waits for a subscriber -/

/-- **A subscriber keeps the last events**, and knows how many it has lost. -/
theorem Subscriber.foldl_push (ps : List Publication) :
    ps.foldl Subscriber.push ⟨0, []⟩ =
      ⟨ps.length - Hub.capacity, ps.drop (ps.length - Hub.capacity)⟩ := by
  induction ps using List.reverseRecOn with
  | nil => rfl
  | append_singleton ps p ih =>
    rw [List.foldl_concat, ih, Subscriber.push, List.length_append, List.length_singleton]
    simp only [List.length_drop]
    have hpos : 0 < Hub.capacity := by decide
    by_cases hroom : ps.length < Hub.capacity
    · rw [if_pos (by omega), show ps.length - Hub.capacity = 0 by omega,
        show ps.length + 1 - Hub.capacity = 0 by omega]
      rfl
    · rw [if_neg (by omega), List.drop_drop, List.drop_append_of_le_length (by omega),
        show ps.length - Hub.capacity + 1 = ps.length + 1 - Hub.capacity by omega]

theorem Hub.subscribers_foldl_publish (ps : List Publication) (h : Hub) :
    (ps.foldl Hub.publish h).subscribers =
      h.subscribers.map fun s => ps.foldl Subscriber.push s := by
  induction ps generalizing h with
  | nil => simp
  | cons p ps ih => rw [List.foldl_cons, ih, Hub.publish, List.map_map]; rfl

/-- **A command that waits hears the last events in the spelling it waits for**, and no others. -/
theorem Hub.hasPublication_iff {h : Hub} {listeners : List Subscriber} {st : Rehearsal.Stage}
    (hsub : h.subscribers = ⟨0, []⟩ :: listeners)
    (hst : st.manager.hub = ps.foldl Hub.publish h) :
    st.hasPublication t = true ↔ ∃ q ∈ ps.drop (ps.length - Hub.capacity), q.uri = t := by
  rw [Rehearsal.Stage.hasPublication, hst, subscribers_foldl_publish, hsub, List.map_cons,
    List.head?_cons, Subscriber.foldl_push, Option.any_some, List.any_eq_true]
  simp only [beq_iff_eq]

/-! ### The diagnostics of a file -/

/-- **What is found under a URI**: in the store, in the context of a question for code actions, and
by the command that shows the diagnostics of a file. -/
structure Hub.Finds (h : Hub) (uri : Uri) (ds : List Diagnostic) : Prop where
  get : h.store.get uri = ds
  context : ∀ (m : Manager) (r : Lsp.Range), m.hub = h →
    DocumentRequest.query? m uri (.codeActions r) =
      some (.codeActions uri r (Lsp.codeActionContext (ds.filter (·.onLinesOf r))))
  answer : ∀ {σ : Type} (desk : Desk σ) (host : Host) (file : Path) (seconds : Nat) (s : σ),
    file.toUri? host.directory = some uri →
    (desk.manager (desk.awaitPublication uri (seconds * 1000) s)).hub = h →
    (CommandLine.askAbout desk host file (.diagnostics seconds) s).1 = .ok (.object
      [("uri", .str uri.text), ("diagnostics", .arr (ds.map Diagnostic.toJson))])

/-- What was published last for a URI is found under it. -/
theorem Hub.finds_latest (ps : List Publication) (subscribers : List Subscriber) (uri : Uri) :
    (ps.foldl Hub.publish ⟨.empty, subscribers⟩).Finds uri (Hub.latest ps uri) := by
  have hholds := Hub.holds_publish ps subscribers
  have hget := hholds.get uri
  refine ⟨hget, fun m r hm => ?_, fun {σ} desk host file seconds s hfile hhub => ?_⟩
  · rw [DocumentRequest.query?, hm, Hub.snapshot, hholds.shows.onLinesOf]
  · rw [CommandLine.askAbout, hfile]
    simp only [hhub, hget]

/-- **The diagnostics of a file are found in the spelling of its URI.** After any publications, what
is found for a file is the list of the last one that is about the file and has the URI that the file
is written with; later publications about the file in another spelling do not count. A command that
waits is ended by those publications about the file that have this URI and still wait for it. -/
theorem Hub.finds_file (hd : directory.isAbsolute = true) (hu : f.toUri? directory = some t)
    (before after : List Publication) (p : Publication) (hp : p.uri = t)
    (hlast : ∀ q ∈ after, q.uri.Denotes (f.absolute directory) → q.uri ≠ t)
    (listeners : List Subscriber) :
    let ps := before ++ p :: after
    let h := ps.foldl Hub.publish ⟨.empty, ⟨0, []⟩ :: listeners⟩
    p.uri.Denotes (f.absolute directory) ∧ h.Finds t p.diagnostics ∧
      ∀ st : Rehearsal.Stage, st.manager.hub = h →
        (st.hasPublication t = true ↔ ∃ q ∈ ps.drop (ps.length - Hub.capacity),
          q.uri.Denotes (f.absolute directory) ∧ q.uri = t) := by
  intro ps h
  have hnames := Uri.denotes_of_toUri? hd hu
  have hlatest : Hub.latest ps t = p.diagnostics := by
    rw [← hp]
    refine Hub.latest_of_last fun q hq heq => ?_
    exact hlast q hq (by rw [heq, hp]; exact hnames) (heq.trans hp)
  refine ⟨hp ▸ hnames, hlatest ▸ Hub.finds_latest ps _ t, fun st hst => ?_⟩
  rw [Hub.hasPublication_iff rfl hst]
  refine exists_congr fun q => and_congr_right fun _ => ⟨fun heq => ⟨heq ▸ hnames, heq⟩, And.right⟩

/-- Of three publications about one file the last one in the spelling of the file is found, and the
one after it, in which the server has encoded the plus signs, is not. -/
theorem Hub.finds_file_spelled :
    let directory := Path.ofString "/ws"
    let f := Path.ofString "c++/A.cs"
    let t : Uri := ⟨"file:///ws/c++/A.cs"⟩
    let before := [notice "file:///ws/c++/A.cs" [some 1], notice "file:///ws/B.cs" [some 1]]
    let p := notice "file:///ws/c++/A.cs" [some 2]
    let after := [notice "file:///ws/c%2B%2B/A.cs" [some 3, some 4]]
    directory.isAbsolute = true ∧ f.toUri? directory = some t ∧ p.uri = t ∧
      (∀ q ∈ after, q.uri.Denotes (f.absolute directory) → q.uri ≠ t) ∧
      ((before ++ p :: after).foldl Hub.publish ⟨.empty, [⟨0, []⟩]⟩).Finds t p.diagnostics := by
  intro directory f t before p after
  have hd : directory.isAbsolute = true := by decide +kernel
  have hu : f.toUri? directory = some t := by decide +kernel
  have hlast : ∀ q ∈ after, q.uri.Denotes (f.absolute directory) → q.uri ≠ t := by
    intro q hq _
    rw [List.mem_singleton.mp hq]
    decide
  exact ⟨hd, hu, rfl, hlast, (finds_file hd hu before after p rfl hlast []).2.1⟩

/-- **A publication in another spelling is overlooked**: its URI names the file, for which nothing is
found. -/
theorem Hub.exists_overlooked : ∃ (f directory : Path) (t : Uri) (p : Publication),
    directory.isAbsolute = true ∧ f.toUri? directory = some t ∧
      p.uri.Denotes (f.absolute directory) ∧ (Hub.empty.publish p).store.get t ≠ p.diagnostics := by
  refine ⟨Path.ofString "c++/A.cs", Path.ofString "/ws", ⟨"file:///ws/c++/A.cs"⟩,
    notice "file:///ws/c%2B%2B/A.cs" [some 1], by decide +kernel, by decide +kernel,
    ⟨Path.ofString "/ws/c++/A.cs", ?_, by decide +kernel⟩, ?_⟩
  · decide +kernel
  · intro heq
    have hlength := congrArg List.length heq
    revert hlength
    decide +kernel

end LanguageHub
