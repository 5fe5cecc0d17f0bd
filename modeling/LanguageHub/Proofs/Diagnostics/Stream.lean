import LanguageHub.Proofs.Diagnostics.Spelling

/-!
# What a subscriber hears is what the store does

A hub tells its history twice: in its store, and in the queue of each subscriber. Both can be read
off the actions alone. The store after them is that of the publications among them; and what waits
for a subscriber are the publications that it has not taken (`Hub.waiting`), or the last
`Hub.capacity` of them (`Hub.subscriber_run`). A subscriber takes one event at a time, or it asks
again and again until nothing is left (`Hub.drain_eq`).

So a subscriber whose queue never runs over hears **every publication since it came**, once and in
order, whatever the others do. If it carries the snapshot that it began with on by what it hears, it
has the snapshot of the hub (`Hub.stream_follows_store`). `Snapshot.carryOn` does that without a
store: it takes the document of the event out of the list, and puts it back where it belongs unless
its list is empty. The order of a snapshot is one of its documents alone, and so that place is the
one where sorting would have put it (`DiagnosticsStore.Holds.carryOn`).
-/

namespace LanguageHub

open Lsp (Diagnostic Publication)

/-! ### Carrying a snapshot on -/

namespace Snapshot

/-- **A snapshot after one more event**: the list of a document is replaced, and an empty list
removes the document. -/
def carryOn (v : Snapshot) (p : Publication) : Snapshot :=
  let others := v.documents.filter (·.1 != p.uri)
  ⟨if p.diagnostics.isEmpty then others
    else others.orderedInsert (fun a b => before a b = true) (p.uri, p.diagnostics)⟩

instance : Std.Total fun a b : Uri × List Diagnostic => before a b = true where
  total a b := Bool.or_eq_true_iff.mp (before_total a b)

instance : IsTrans (Uri × List Diagnostic) fun a b => before a b = true where
  trans := before_trans

theorem sorted_carryOn {v : Snapshot} (h : v.documents.Pairwise fun a b => before a b = true)
    (p : Publication) : (v.carryOn p).documents.Pairwise fun a b => before a b = true := by
  have hothers := h.sublist (List.filter_sublist (p := (·.1 != p.uri)))
  unfold carryOn
  dsimp only
  split
  · exact hothers
  · exact hothers.orderedInsert _ _

/-- A snapshot and a store with the same documents have the same documents after an event. -/
theorem perm_carryOn {v : Snapshot} {s : DiagnosticsStore} (h : v.documents.Perm s.documents)
    (p : Publication) : (v.carryOn p).documents.Perm (s.update p).documents := by
  have hothers := h.filter (·.1 != p.uri)
  unfold carryOn DiagnosticsStore.update
  dsimp only
  split
  · exact hothers
  · exact (List.perm_orderedInsert _ _ _).trans
      ((hothers.cons _).trans (List.perm_append_singleton _ _).symm)

end Snapshot

namespace DiagnosticsStore

open Snapshot (before before_total before_trans)

variable {s : DiagnosticsStore} {latest : Uri → List Diagnostic}

/-- Documents of a store in their order are its snapshot. -/
theorem Holds.eq_ofStore (h : s.Holds latest) {v : Snapshot} (hperm : v.documents.Perm s.documents)
    (hsorted : v.documents.Pairwise fun a b => before a b = true) : v = Snapshot.ofStore s := by
  have hv : (⟨v.documents⟩ : DiagnosticsStore).Holds latest := h.of_perm hperm
  rw [← hv.ofStore_congr h, Snapshot.ofStore, List.mergeSort_of_pairwise hsorted]

/-- **An event carries the snapshot of a store on to that of the store after it.** -/
theorem Holds.carryOn (h : s.Holds latest) (p : Publication) :
    (Snapshot.ofStore s).carryOn p = Snapshot.ofStore (s.update p) :=
  (h.update p).eq_ofStore (Snapshot.perm_carryOn (List.mergeSort_perm _ _) p)
    (Snapshot.sorted_carryOn (List.pairwise_mergeSort before_trans before_total _) p)

theorem Holds.foldl_carryOn (h : s.Holds latest) (ps : List Publication) :
    ps.foldl Snapshot.carryOn (Snapshot.ofStore s) =
      Snapshot.ofStore (ps.foldl DiagnosticsStore.update s) := by
  induction ps generalizing s latest with
  | nil => rfl
  | cons p ps ih => rw [List.foldl_cons, h.carryOn p, ih (h.update p), List.foldl_cons]

theorem Holds.foldl_update (h : s.Holds latest) (ps : List Publication) :
    ∃ latest', (ps.foldl DiagnosticsStore.update s).Holds latest' := by
  induction ps generalizing s latest with
  | nil => exact ⟨latest, h⟩
  | cons p ps ih => exact ih (h.update p)

end DiagnosticsStore

/-! ### Receiving -/

namespace Hub

variable {h : Hub} {k : Nat} {s : Subscriber}

theorem receive_of_next? {taken left : Subscriber} (hk : h.subscribers[k]? = some s)
    (hs : s.next? = some (taken, left)) :
    h.receive k = (some taken, ⟨h.store, h.subscribers.set k left⟩) := by
  simp only [receive, hk, Option.bind_eq_bind, Option.bind_some, hs]

theorem receive_of_next?_eq_none (hs : h.subscribers[k]? >>= Subscriber.next? = none) :
    h.receive k = (none, h) := by
  simp only [receive, hs]

/-- A subscriber that has lost nothing receives its events one by one. -/
theorem receiveAll_of_not_lost {events : List Publication} {fuel : Nat}
    (hk : h.subscribers[k]? = some ⟨0, events⟩) (hf : events.length ≤ fuel) :
    receiveAll k fuel h = (⟨0, events⟩, ⟨h.store, h.subscribers.set k ⟨0, []⟩⟩) := by
  induction events generalizing h fuel with
  | nil =>
    obtain ⟨hlt, hget⟩ := List.getElem?_eq_some_iff.mp hk
    have hsame : h.subscribers.set k ⟨0, []⟩ = h.subscribers := by
      rw [← hget, List.set_getElem_self]
    rw [hsame]
    cases fuel with
    | zero => rfl
    | succ fuel =>
      simp only [receiveAll, receive, hk, Option.bind_eq_bind, Option.bind_some, Subscriber.next?,
        if_true]
  | cons p rest ih =>
    obtain ⟨hlt, -⟩ := List.getElem?_eq_some_iff.mp hk
    cases fuel with
    | zero => cases hf
    | succ fuel =>
      have hrest := @ih ⟨h.store, h.subscribers.set k ⟨0, rest⟩⟩ fuel
        (List.getElem?_set_self hlt) (Nat.le_of_succ_le_succ hf)
      rw [receiveAll, receive_of_next? hk rfl]
      simp only [hrest, List.set_set, Nat.zero_add, List.singleton_append]

/-- **Who asks until nothing is left takes the whole queue.** -/
theorem drain_eq (hk : h.subscribers[k]? = some s) :
    h.drain k = (some s, ⟨h.store, h.subscribers.set k ⟨0, []⟩⟩) := by
  obtain ⟨lost, events⟩ := s
  rw [drain, hk]
  by_cases hl : lost = 0
  · subst hl
    simp only [receiveAll_of_not_lost hk (Nat.le_succ _)]
  · obtain ⟨hlt, -⟩ := List.getElem?_eq_some_iff.mp hk
    have hnext : (Subscriber.mk lost events).next? = some (⟨lost, []⟩, ⟨0, events⟩) := if_neg hl
    have hrest := receiveAll_of_not_lost
      (h := ⟨h.store, h.subscribers.set k ⟨0, events⟩⟩) (List.getElem?_set_self hlt)
      (Nat.le_refl events.length)
    simp only [receiveAll, receive_of_next? hk hnext, hrest, List.set_set, Nat.add_zero,
      List.nil_append]

end Hub

/-! ### Actions -/

namespace Hub

/-- What is done with a hub. -/
inductive Action where
  | publish (p : Publication)
  | subscribe
  /-- A subscriber asks for the next event. -/
  | receive (subscriber : Nat)
  | drain (subscriber : Nat)

/-- The hub after an action. -/
def act (h : Hub) : Action → Hub
  | .publish p => h.publish p
  | .subscribe => h.subscribe
  | .receive k => (h.receive k).2
  | .drain k => (h.drain k).2

/-- The hub after some actions. -/
def run (h : Hub) (as : List Action) : Hub := as.foldl act h

/-- What a subscriber takes in an action. -/
def answer (h : Hub) (k : Nat) : Action → List Subscriber
  | .receive k' => if k' = k then (h.receive k).1.toList else []
  | .drain k' => if k' = k then (h.drain k).1.toList else []
  | _ => []

/-- **What a subscriber takes** in some actions, one answer after the other. -/
def heard (k : Nat) : Hub → List Action → List Subscriber
  | _, [] => []
  | h, a :: as => h.answer k a ++ heard k (h.act a) as

/-- What an action publishes. -/
def Action.publication? : Action → Option Publication
  | .publish p => some p
  | _ => none

/-- The publications among some actions. -/
def published (as : List Action) : List Publication := as.filterMap (·.publication?)

/-- The publications that a subscriber has not taken, after an action. Who asks for the next event
takes the oldest one, or it learns how many it has lost. -/
def wait (k : Nat) (ps : List Publication) : Action → List Publication
  | .publish p => ps ++ [p]
  | .subscribe => ps
  | .receive k' => if k' = k then ps.drop (max 1 (ps.length - capacity)) else ps
  | .drain k' => if k' = k then [] else ps

/-- **The publications that a subscriber has not taken** since it came. -/
def waiting (k : Nat) (as : List Action) : List Publication := as.foldl (wait k) []

variable {h : Hub} {k : Nat} {as : List Action} {a : Action}

theorem run_concat (h : Hub) (as : List Action) (a : Action) :
    h.run (as ++ [a]) = (h.run as).act a := List.foldl_concat ..

theorem waiting_concat (k : Nat) (as : List Action) (a : Action) :
    waiting k (as ++ [a]) = wait k (waiting k as) a := List.foldl_concat ..

theorem published_concat (as : List Action) (a : Action) :
    published (as ++ [a]) = published as ++ a.publication?.toList := by
  rw [published, List.filterMap_append]
  cases a <;> rfl

theorem heard_concat (k : Nat) (h : Hub) (as : List Action) (a : Action) :
    heard k h (as ++ [a]) = heard k h as ++ (h.run as).answer k a := by
  induction as generalizing h with
  | nil => simp [heard, run]
  | cons b as ih =>
    rw [List.cons_append, heard, ih, heard, List.append_assoc]
    rfl

/-! ### One action -/

/-- What a subscriber takes from its queue in an action. -/
def portion (k : Nat) (s : Subscriber) : Action → List Subscriber
  | .receive k' => if k' = k then (s.next?.map (·.1)).toList else []
  | .drain k' => if k' = k then [s] else []
  | _ => []

/-- The queue of a subscriber after an action. -/
def queue (k : Nat) (s : Subscriber) : Action → Subscriber
  | .publish p => s.push p
  | .subscribe => s
  | .receive k' => if k' = k then (s.next?.map (·.2)).getD s else s
  | .drain k' => if k' = k then ⟨0, []⟩ else s

theorem answer_eq {s : Subscriber} (hk : h.subscribers[k]? = some s) (a : Action) :
    h.answer k a = portion k s a := by
  cases a with
  | receive k' =>
    simp only [answer, portion]
    split
    · cases hs : s.next? with
      | none => rw [receive_of_next?_eq_none (by rw [hk]; exact hs)]; rfl
      | some x => rw [receive_of_next? hk hs]; rfl
    · rfl
  | drain k' =>
    simp only [answer, portion, drain_eq hk, Option.toList_some]
  | _ => rfl

/-- Asking leaves the store, and the queues of all other subscribers. -/
theorem receive_frame (h : Hub) (k' : Nat) : (h.receive k').2.store = h.store ∧
    ∀ k, k ≠ k' → (h.receive k').2.subscribers[k]? = h.subscribers[k]? := by
  unfold receive
  split
  · exact ⟨rfl, fun k hne => List.getElem?_set_ne (Ne.symm hne)⟩
  · exact ⟨rfl, fun _ _ => rfl⟩

theorem drain_frame (h : Hub) (k' : Nat) : (h.drain k').2.store = h.store ∧
    ∀ k, k ≠ k' → (h.drain k').2.subscribers[k]? = h.subscribers[k]? := by
  cases hk : h.subscribers[k']? with
  | none => simp [drain, hk]
  | some s =>
    rw [drain_eq hk]
    exact ⟨rfl, fun k hne => List.getElem?_set_ne (Ne.symm hne)⟩

/-- **The store after some actions** is that of the publications among them. -/
theorem store_run (h : Hub) (as : List Action) :
    (h.run as).store = (published as).foldl DiagnosticsStore.update h.store := by
  induction as generalizing h with
  | nil => rfl
  | cons a as ih =>
    have hstep : (h.run (a :: as)).store = ((h.act a).run as).store := rfl
    rw [hstep, ih]
    cases a with
    | publish p => rfl
    | subscribe => rfl
    | receive k =>
      have hstore : (h.act (.receive k)).store = h.store := (receive_frame h k).1
      rw [hstore]
      rfl
    | drain k =>
      have hstore : (h.act (.drain k)).store = h.store := (drain_frame h k).1
      rw [hstore]
      rfl

/-- The queue of one subscriber after an action. -/
theorem subscriber_act {s : Subscriber} (hk : h.subscribers[k]? = some s) (a : Action) :
    (h.act a).subscribers[k]? = some (queue k s a) := by
  obtain ⟨hlt, -⟩ := List.getElem?_eq_some_iff.mp hk
  cases a with
  | publish p => rw [act, publish, List.getElem?_map, hk, Option.map_some, queue]
  | subscribe => rw [act, subscribe, List.getElem?_append_left hlt, hk, queue]
  | receive k' =>
    rw [act, queue]
    split
    · next heq =>
      subst heq
      cases hs : s.next? with
      | none => rw [receive_of_next?_eq_none (by rw [hk]; exact hs), hk]; rfl
      | some x => rw [receive_of_next? hk hs]; exact List.getElem?_set_self hlt
    · next hne => rw [(receive_frame h k').2 k (Ne.symm hne), hk]
  | drain k' =>
    rw [act, queue]
    split
    · next heq =>
      subst heq
      rw [drain_eq hk]
      exact List.getElem?_set_self hlt
    · next hne => rw [(drain_frame h k').2 k (Ne.symm hne), hk]

/-- A queue that never ran over holds all events. -/
theorem foldl_push_of_le {ps : List Publication} (hroom : ps.length ≤ capacity) :
    ps.foldl Subscriber.push ⟨0, []⟩ = ⟨0, ps⟩ := by
  rw [Subscriber.foldl_push, Nat.sub_eq_zero_of_le hroom, List.drop_zero]

/-- The queue of a subscriber follows what it has not taken. -/
theorem queue_foldl_push (k : Nat) (ps : List Publication) (a : Action) :
    queue k (ps.foldl Subscriber.push ⟨0, []⟩) a =
      (wait k ps a).foldl Subscriber.push ⟨0, []⟩ := by
  cases a with
  | publish p => rw [queue, wait, List.foldl_concat]
  | subscribe => rfl
  | receive k' =>
    rw [queue, wait]
    split
    · by_cases hroom : ps.length ≤ capacity
      · -- nothing is lost, and the oldest event goes
        have hone : max 1 (ps.length - capacity) = 1 := by omega
        have hrest : (ps.drop 1).length ≤ capacity := (List.drop_sublist 1 ps).length_le.trans hroom
        rw [hone, foldl_push_of_le hroom, foldl_push_of_le hrest]
        cases ps <;> rfl
      · -- the loss is told, and the queue stays as it is
        have hlost : max 1 (ps.length - capacity) = ps.length - capacity := by omega
        have hfull : (ps.drop (ps.length - capacity)).length ≤ capacity := by
          rw [List.length_drop]
          omega
        have hne : ps.length - capacity ≠ 0 := by omega
        have hnext : (Subscriber.mk (ps.length - capacity) (ps.drop (ps.length - capacity))).next? =
            some (⟨ps.length - capacity, []⟩, ⟨0, ps.drop (ps.length - capacity)⟩) := by
          simp only [Subscriber.next?, hne, if_false]
        rw [hlost, foldl_push_of_le hfull, Subscriber.foldl_push, hnext, Option.map_some,
          Option.getD_some]
    · rfl
  | drain k' =>
    rw [queue, wait]
    split <;> rfl

/-- **What waits for a subscriber** in its queue, after any actions since it came: the last of the
publications that it has not taken. -/
theorem subscriber_run (hk : h.subscribers[k]? = some ⟨0, []⟩) (as : List Action) :
    (h.run as).subscribers[k]? = some ⟨(waiting k as).length - capacity,
      (waiting k as).drop ((waiting k as).length - capacity)⟩ := by
  rw [← Subscriber.foldl_push]
  induction as using List.reverseRecOn with
  | nil => exact hk
  | append_singleton as a ih =>
    rw [run_concat, subscriber_act ih, waiting_concat, queue_foldl_push]

/-- What a subscriber takes in an action, and what it has not taken after it, is what it had not
taken before, and what the action publishes. -/
theorem portion_append_wait (k : Nat) {ps : List Publication} (hroom : ps.length ≤ capacity)
    (a : Action) : (∀ s ∈ portion k ⟨0, ps⟩ a, s.lost = 0) ∧
      (portion k ⟨0, ps⟩ a).flatMap (·.events) ++ wait k ps a = ps ++ a.publication?.toList := by
  cases a with
  | publish p => exact ⟨fun s hs => absurd hs List.not_mem_nil, rfl⟩
  | subscribe => exact ⟨fun s hs => absurd hs List.not_mem_nil, (List.append_nil _).symm⟩
  | receive k' =>
    have hone : max 1 (ps.length - capacity) = 1 := by omega
    rw [portion, wait, hone]
    split
    · cases ps with
      | nil => exact ⟨fun s hs => absurd hs List.not_mem_nil, rfl⟩
      | cons p rest =>
        refine ⟨fun s hs => ?_, (List.append_nil _).symm⟩
        rw [List.mem_singleton.mp hs]
    · exact ⟨fun s hs => absurd hs List.not_mem_nil, (List.append_nil _).symm⟩
  | drain k' =>
    rw [portion, wait]
    split
    · refine ⟨fun s hs => by rw [List.mem_singleton.mp hs], ?_⟩
      rw [List.flatMap_singleton]
      rfl
    · exact ⟨fun s hs => absurd hs List.not_mem_nil, (List.append_nil _).symm⟩

/-- A subscriber whose queue never ran over has heard all that is not waiting for it. -/
theorem heard_append_waiting (hk : h.subscribers[k]? = some ⟨0, []⟩)
    (hroom : ∀ as', as' <+: as → (waiting k as').length ≤ capacity) :
    (∀ s ∈ heard k h as, s.lost = 0) ∧
      (heard k h as).flatMap (·.events) ++ waiting k as = published as := by
  induction as using List.reverseRecOn with
  | nil => exact ⟨fun s hs => absurd hs List.not_mem_nil, rfl⟩
  | append_singleton as a ih =>
    obtain ⟨hlost, hheard⟩ := ih fun as' has => hroom as' (has.trans (List.prefix_append _ _))
    have hqueue := subscriber_run hk as
    have hfits := hroom as (List.prefix_append _ _)
    rw [Nat.sub_eq_zero_of_le hfits, List.drop_zero] at hqueue
    obtain ⟨hnone, hportion⟩ := portion_append_wait k hfits a
    rw [heard_concat, waiting_concat, published_concat, answer_eq hqueue]
    refine ⟨List.forall_mem_append.mpr ⟨hlost, hnone⟩, ?_⟩
    rw [List.flatMap_append, List.append_assoc, hportion, ← List.append_assoc, hheard]

/-- **What a subscriber hears is what the store does.** Whatever was done with a hub before,
somebody who subscribes, and who never has more than `capacity` publications to take, loses none in
any further actions: what it takes, and what waits for it in the end, are the publications since it
came, once each and in their order. They carry the snapshot that it came to on to the one that the
hub has in the end. -/
theorem stream_follows_store (earlier later : List Action) :
    let h := empty.run earlier
    let k := h.subscribers.length
    let h' := h.subscribe.run later
    (∀ as, as <+: later → (waiting k as).length ≤ capacity) →
      (∀ s ∈ heard k h.subscribe later, s.lost = 0) ∧
      (heard k h.subscribe later).flatMap (·.events) ++ waiting k later = published later ∧
      h'.subscribers[k]? = some ⟨0, waiting k later⟩ ∧
      ((heard k h.subscribe later).flatMap (·.events) ++ waiting k later).foldl
        Snapshot.carryOn h.snapshot = h'.snapshot := by
  intro h k h' hroom
  have hk : h.subscribe.subscribers[k]? = some ⟨0, []⟩ := List.getElem?_concat_length
  obtain ⟨hlost, hheard⟩ := heard_append_waiting hk hroom
  have hqueue := subscriber_run hk later
  rw [Nat.sub_eq_zero_of_le (hroom later (List.prefix_refl _)), List.drop_zero] at hqueue
  obtain ⟨latest, hholds⟩ : ∃ latest, h.store.Holds latest := by
    rw [store_run]
    exact DiagnosticsStore.holds_empty.foldl_update _
  have hstore : h'.store = (published later).foldl DiagnosticsStore.update h.store := store_run _ _
  refine ⟨hlost, hheard, hqueue, ?_⟩
  rw [hheard, snapshot, hholds.foldl_carryOn, snapshot, hstore]

theorem length_waiting_le (k : Nat) (as : List Action) :
    (waiting k as).length ≤ (published as).length := by
  induction as using List.reverseRecOn with
  | nil => exact Nat.le_refl _
  | append_singleton as a ih =>
    rw [waiting_concat, published_concat, List.length_append]
    cases a with
    | publish p => simpa [wait, Action.publication?] using ih
    | subscribe => exact ih
    | receive k' =>
      dsimp only [wait]
      split
      · exact (List.drop_sublist _ _).length_le.trans ih
      · exact ih
    | drain k' =>
      dsimp only [wait]
      split
      · exact Nat.zero_le _
      · exact ih

/-- A subscriber lets exactly `capacity` events wait, takes the first one, and then all others. It
loses none of them, and hears in the last one that a document is cleared which it knows from its
first snapshot. -/
theorem stream_follows_store_full :
    let events := List.replicate 255 (notice "b" [some 2]) ++ [notice "a" []]
    let h := empty.run [.publish (notice "a" [some 1]), .subscribe]
    let later := events.map .publish ++ [.receive 1] ++ [.drain 1]
    events.length = capacity ∧ (∀ s ∈ heard 1 h.subscribe later, s.lost = 0) ∧
      (heard 1 h.subscribe later).flatMap (·.events) = events ∧
      events.foldl Snapshot.carryOn h.snapshot = (h.subscribe.run later).snapshot := by
  intro events h later
  have hlength : events.length = capacity := by
    rw [List.length_append, List.length_replicate]
    rfl
  have hpublished : published later = events := by
    rw [published_concat, published_concat, published, List.filterMap_map]
    simp [Function.comp_def, Action.publication?]
  have hwaiting : waiting 1 later = [] := by
    rw [waiting_concat]
    rfl
  have hroom : ∀ as, as <+: later → (waiting 1 as).length ≤ capacity := by
    intro as has
    have hle : (published as).length ≤ (published later).length := (has.filterMap _).length_le
    rw [hpublished, hlength] at hle
    exact (length_waiting_le 1 as).trans hle
  obtain ⟨hlost, hheard, -, hsnapshot⟩ :
      (∀ s ∈ heard 1 h.subscribe later, s.lost = 0) ∧
        (heard 1 h.subscribe later).flatMap (·.events) ++ waiting 1 later = published later ∧ _ ∧
        ((heard 1 h.subscribe later).flatMap (·.events) ++ waiting 1 later).foldl
          Snapshot.carryOn h.snapshot = (h.subscribe.run later).snapshot :=
    stream_follows_store _ later hroom
  rw [hheard, hpublished] at hsnapshot
  rw [hwaiting, List.append_nil, hpublished] at hheard
  exact ⟨hlength, hlost, hheard, hsnapshot⟩

end Hub

end LanguageHub
