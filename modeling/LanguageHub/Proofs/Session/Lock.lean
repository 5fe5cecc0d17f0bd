import LanguageHub.Proofs.Session.Run

/-!
# The map of documents belongs to one operation at a time

The operations on the documents of a session stand in a queue, and the first of them holds
the map. `Session.InOrder` is the invariant of that queue, for *any* assignment of
operations to numbers, so that it serves a session alone and a session among others alike:

* every operation that has come to the queue stands in it, exactly once;
* an operation that works on the map is the first in the queue, so there is only one
  (`Session.InOrder.holder_unique`);
* a frame for the outbox, and the map that comes with it, fit the map **as it is now**
  (`Session.Prepared`), because nobody has touched the map since the frame was made.

The callers of a session keep the order throughout every run (`Session.Run.inOrder`).
-/

namespace LanguageHub

namespace Documents

variable (d : Documents) (uri q : String) (v : Int)

/-- **A document that is set has the version, and no other document changes.** -/
theorem version?_set : (d.set uri v).version? q = if q = uri then some v else d.version? q := by
  unfold set version?
  split
  · next hany =>
    have hkey : ((fun e : String × Int => e.1 == q) ∘
        fun e => if e.1 == uri then (uri, v) else e) = fun e => e.1 == q := by
      funext e
      by_cases he : e.1 = uri
      · simp [he]
      · simp [he]
    rw [List.find?_map, hkey, Option.map_map]
    by_cases hq : q = uri
    · subst hq
      obtain ⟨e, he⟩ := Option.isSome_iff_exists.mp
        ((List.find?_isSome).trans (List.any_eq_true.symm) |>.mpr hany)
      have hk := List.find?_some he
      have hk : e.1 = q := by simpa using hk
      simp [he, hk]
    · rw [if_neg hq]
      refine Option.map_congr fun e he => ?_
      have hk := List.find?_some (Option.mem_def.mp he)
      have hk : e.1 = q := by simpa using hk
      simp [hk, hq]
  · next hany =>
    rw [List.find?_append]
    by_cases hq : q = uri
    · subst hq
      have hnone : List.find? (fun e : String × Int => e.1 == q) d = none := by
        rw [List.find?_eq_none]
        intro e he hk
        exact hany (List.any_eq_true.mpr ⟨e, he, hk⟩)
      simp [hnone]
    · have hne : ¬ uri = q := fun h => hq h.symm
      simp [hq, hne]

/-- **A document that is erased is gone, and no other document changes.** -/
theorem version?_erase : (d.erase uri).version? q = if q = uri then none else d.version? q := by
  unfold erase version?
  rw [List.find?_filter]
  by_cases hq : q = uri
  · subst hq
    simp
  · rw [if_neg hq]
    congr 2
    funext e
    by_cases he : e.1 = q
    · simp [he, hq]
    · simp [he]

end Documents

/-- The action and the stage of an operation on documents. -/
def Operation.document? : Operation → Option (DocumentAction × DocumentStage)
  | .document a st => some (a, st)
  | _ => none

/-- Whether an operation at this stage holds the map. -/
def DocumentStage.holds : DocumentStage → Bool
  | .locked | .sending .. => true
  | _ => false

namespace Session

variable {s s' : Session} {id n : Nat} {a : DocumentAction} {st : DocumentStage} {op : Operation}

/-- **A frame and a map that fit** the map `d` and the action they were made for. A
closing has taken its document out of the map already. -/
inductive Prepared (d : Documents) : DocumentAction → Json → Documents → Prop
  | openNew {a : DocumentAction} (uri : Uri) (language text : String) :
      a.text? = some (uri, text) → d.version? uri.text = none →
      Prepared d a (Lsp.didOpen uri language text) (d.set uri.text 1)
  | change {a : DocumentAction} (uri : Uri) (text : String) (version : Int) :
      a.text? = some (uri, text) → d.version? uri.text = some version →
      Prepared d a (Lsp.didChange uri (version + 1) text) (d.set uri.text (version + 1))
  | close (uri : Uri) : d.version? uri.text = none →
      Prepared d (.close uri) (Lsp.didClose uri) d

/-- The operations on documents by the numbers of their callers. -/
abbrev DocumentOps := Nat → Option (DocumentAction × DocumentStage)

/-- **The place of a caller**, as far as its operation has come. -/
inductive Placed (s : Session) (n : Nat) : Option (DocumentAction × DocumentStage) → Prop
  | idle : n ∉ s.documentQueue → Placed s n none
  | fresh {a : DocumentAction} : n ∉ s.documentQueue → Placed s n (some (a, .begin))
  | queued {a : DocumentAction} : n ∈ s.documentQueue → Placed s n (some (a, .queued))
  | locked {a : DocumentAction} : s.documentQueue.head? = some n →
      Placed s n (some (a, .locked))
  | sending {a : DocumentAction} {frame : Json} {after : Documents} :
      s.documentQueue.head? = some n → Prepared s.documents a frame after →
      Placed s n (some (a, .sending frame after))

theorem Placed.head? (h : Placed s n (some (a, st))) (hst : st.holds = true) :
    s.documentQueue.head? = some n := by
  cases h with
  | locked hh | sending hh => exact hh
  | _ => cases hst

/-- **The map belongs to one operation at a time.** -/
structure InOrder (s : Session) (ops : DocumentOps) : Prop where
  nodup : s.documentQueue.Nodup
  placed : ∀ n, Placed s n (ops n)

namespace InOrder

variable {ops : DocumentOps}

/-- **Only one operation works on the map.** -/
theorem holder_unique (h : InOrder s ops) {m n : Nat} {a b : DocumentAction}
    {st st' : DocumentStage} (hm : ops m = some (a, st)) (hst : st.holds = true)
    (hn : ops n = some (b, st')) (hst' : st'.holds = true) : m = n := by
  have h₁ := (hm ▸ h.placed m).head? hst
  have h₂ := (hn ▸ h.placed n).head? hst'
  exact Option.some.inj (h₁.symm.trans h₂)

theorem prepared (h : InOrder s ops) {frame : Json} {after : Documents}
    (hn : ops n = some (a, .sending frame after)) : Prepared s.documents a frame after := by
  have hp := h.placed n
  rw [hn] at hp
  cases hp with
  | sending _ hp => exact hp

/-- Steps that leave the map and its queue alone keep the order. -/
theorem congr (h : InOrder s ops) (hd : s'.documents = s.documents)
    (hq : s'.documentQueue = s.documentQueue) : InOrder s' ops := by
  refine ⟨hq ▸ h.nodup, fun n => ?_⟩
  have hp := h.placed n
  generalize ops n = o at hp ⊢
  cases hp with
  | idle hn => exact .idle (hq ▸ hn)
  | fresh hn => exact .fresh (hq ▸ hn)
  | queued hn => exact .queued (hq ▸ hn)
  | locked hn => exact .locked (hq ▸ hn)
  | sending hn hp => exact .sending (hq ▸ hn) (hd ▸ hp)

/-- One caller moves to another place, and the queue and the places of the others stay. -/
theorem update (h : InOrder s ops) {o : Option (DocumentAction × DocumentStage)}
    (ho : Placed s n o) : InOrder s (Function.update ops n o) :=
  ⟨h.nodup, (Function.forall_update_iff ops fun m o => Placed s m o).mpr
    ⟨ho, fun m _ => h.placed m⟩⟩

/-- A new operation is not in the queue yet. -/
theorem start (h : InOrder s ops) (hn : ops n = none) (a : DocumentAction) :
    InOrder s (Function.update ops n (some (a, .begin))) := by
  have hp := h.placed n
  rw [hn] at hp
  cases hp with
  | idle hp => exact h.update (.fresh hp)

/-- An operation comes to the end of the queue. -/
theorem enter (h : InOrder s ops) (hn : ops n = some (a, .begin)) :
    InOrder { s with documentQueue := s.documentQueue ++ [n] }
      (Function.update ops n (some (a, .queued))) := by
  have hp := h.placed n
  rw [hn] at hp
  cases hp with
  | fresh hnot =>
    refine ⟨?_, (Function.forall_update_iff ops fun m o => Placed _ m o).mpr ⟨?_, ?_⟩⟩
    · refine List.nodup_append.mpr ⟨h.nodup, by simp, ?_⟩
      intro m hm k hk hmk
      rw [List.mem_singleton.mp hk] at hmk
      exact hnot (hmk ▸ hm)
    · exact .queued (by simp)
    · intro m hne
      have hp := h.placed m
      generalize ops m = o at hp ⊢
      cases hp with
      | idle hm => exact .idle (by simp [hm, hne])
      | fresh hm => exact .fresh (by simp [hm, hne])
      | queued hm => exact .queued (by simp [hm])
      | locked hm => exact .locked (by simp [List.head?_append, hm])
      | sending hm hp => exact .sending (by simp [List.head?_append, hm]) hp

/-- An operation that gives the map back leaves the queue, and the next one may come. Whatever has
become of the map, no other operation has a frame that could be stale now. -/
theorem unlock (h : InOrder s ops) (hn : ops n = some (a, st)) (hst : st.holds = true)
    (hq : s'.documentQueue = s.documentQueue.drop 1) :
    InOrder s' (Function.update ops n none) := by
  have hhead := (hn ▸ h.placed n).head? hst
  obtain ⟨rest, hrest⟩ : ∃ rest, s.documentQueue = n :: rest := by
    cases hc : s.documentQueue with
    | nil => simp [hc] at hhead
    | cons x rest =>
      have hx : x = n := by simpa [hc] using hhead
      exact ⟨rest, by rw [hx]⟩
  have hq' : s'.documentQueue = rest := by rw [hq, hrest, List.drop_one, List.tail_cons]
  have hnd := h.nodup
  rw [hrest, List.nodup_cons] at hnd
  refine ⟨hq' ▸ hnd.2, (Function.forall_update_iff ops fun m o => Placed _ m o).mpr ⟨?_, ?_⟩⟩
  · exact .idle (hq' ▸ hnd.1)
  · intro m hne
    have hp := h.placed m
    generalize ops m = o at hp ⊢
    cases hp with
    | idle hm => exact .idle fun hc => hm (by simp [hrest, ← hq', hc])
    | fresh hm => exact .fresh fun hc => hm (by simp [hrest, ← hq', hc])
    | queued hm =>
      rw [hrest, List.mem_cons] at hm
      exact .queued (hq' ▸ hm.resolve_left hne)
    | locked hm | sending hm =>
      exact absurd (Option.some.inj (hm.symm.trans hhead)) hne

/-- The holder may change the map while it keeps it. -/
theorem rewrite (h : InOrder s ops) (hn : ops n = some (a, st)) (hst : st.holds = true)
    {d : Documents} {o : Option (DocumentAction × DocumentStage)}
    (ho : Placed { s with documents := d } n o) :
    InOrder { s with documents := d } (Function.update ops n o) := by
  have hhead := (hn ▸ h.placed n).head? hst
  refine ⟨h.nodup, (Function.forall_update_iff ops fun m o => Placed _ m o).mpr ⟨ho, ?_⟩⟩
  intro m hne
  have hp := h.placed m
  generalize ops m = o at hp ⊢
  cases hp with
  | idle hm => exact .idle hm
  | fresh hm => exact .fresh hm
  | queued hm => exact .queued hm
  | locked hm | sending hm => exact absurd (Option.some.inj (hm.symm.trans hhead)) hne

/-- **A stage of an operation on documents keeps the order.** -/
theorem step (h : InOrder s ops) (hn : ops n = some (a, st)) (hs : DocumentStep n a s st s' op) :
    InOrder s' (Function.update ops n op.document?) := by
  cases hs with
  | begin => exact h.enter hn
  | lock hhead => exact h.update (.locked hhead)
  | locked hl =>
    have hhead := (hn ▸ h.placed n).head? rfl
    cases hl with
    | ask uri => exact h.unlock hn rfl rfl
    | ended => exact h.unlock hn rfl rfl
    | absent uri => exact h.unlock hn rfl rfl
    | openNew uri language text ht ha hv =>
      exact h.update (.sending hhead (.openNew uri language text ha hv))
    | change uri text version ht ha hv =>
      exact h.update (.sending hhead (.change uri text version ha hv))
    | close uri version ht ha hv =>
      subst ha
      have hv' : (s.documents.erase uri.text).version? uri.text = none := by
        simp [Documents.version?_erase]
      exact h.rewrite hn rfl (.sending hhead (.close uri hv'))
  | send frame after => exact h.unlock hn rfl rfl
  | unsent => exact h.unlock hn rfl rfl

end InOrder

/-! ### Steps that leave the documents alone -/

theorem CallStep.documents {now : Nat} {c : Call} {cs cs' : CallStage}
    (h : CallStep now c s cs s' cs') :
    s'.documents = s.documents ∧ s'.documentQueue = s.documentQueue := by
  cases h <;> exact ⟨rfl, rfl⟩

theorem OperationStep.documents {h : Host} {now id : Nat} {op op' : Operation}
    (hs : OperationStep h now id s op s' op') (hd : op.document? = none) :
    s'.documents = s.documents ∧ s'.documentQueue = s.documentQueue ∧ op'.document? = none := by
  cases hs with
  | document => cases hd
  | handshake hs =>
    cases hs with
    | call hc => exact ⟨hc.documents.1, hc.documents.2, rfl⟩
    | _ => exact ⟨rfl, rfl, rfl⟩
  | query hs =>
    cases hs with
    | call hc | begin _ hc => exact ⟨hc.documents.1, hc.documents.2, rfl⟩
    | _ => exact ⟨rfl, rfl, rfl⟩
  | dispose hs =>
    cases hs with
    | call hc => exact ⟨hc.documents.1, hc.documents.2, rfl⟩
    | _ => exact ⟨rfl, rfl, rfl⟩

theorem Turn.documents {e : Event} (h : Turn s e s') :
    s'.documents = s.documents ∧ s'.documentQueue = s.documentQueue := by
  cases h with
  | read frame rest =>
    rw [dispatch_session_eq]
    exact ⟨rfl, rfl⟩
  | _ => exact ⟨rfl, rfl⟩

/-! ### Runs -/

theorem inOrder_launched (key : SessionKey) (server : String) (timeouts : Timeouts)
    (killFault : Option String) :
    InOrder (launched key server timeouts killFault) (shown (·.document?) []) :=
  ⟨List.nodup_nil, fun n => .idle (by simp [launched])⟩

variable {h : Host} {sc sc' : Scene} {e : Event} {es : List Event}

/-- Whoever comes stands in no queue yet. -/
theorem InOrder.call (ho : InOrder sc.session (shown (·.document?) sc.callers)) {op : Operation}
    (hop : op.isFresh = true) : InOrder sc.session (shown (·.document?) (sc.callers ++ [op])) := by
  have hidle : shown (·.document?) sc.callers sc.callers.length = none := shown_length
  rw [shown_concat]
  cases op with
  | document a st =>
    cases st with
    | begin => exact ho.start hidle a
    | _ => cases hop
  | _ =>
    have hnone := Function.update_eq_self sc.callers.length (shown (·.document?) sc.callers)
    rw [hidle] at hnone
    exact (congrArg (InOrder sc.session) hnone).mpr ho

/-- A stage of an operation keeps the order. -/
theorem InOrder.advance {n : Nat} {op op' : Operation} {s' : Session}
    (ho : InOrder sc.session (shown (·.document?) sc.callers)) (hn : sc.callers[n]? = some op)
    (hs : OperationStep h sc.now n sc.session op s' op') :
    InOrder s' (shown (·.document?) (sc.callers.set n op')) := by
  rw [shown_set (List.getElem?_eq_some_iff.mp hn).1]
  have hshown := shown_of_getElem? (f := (·.document?)) hn
  cases hd : op.document? with
  | none =>
    obtain ⟨hdoc, hqueue, hd'⟩ := hs.documents hd
    rw [hd', ← hd, ← hshown, Function.update_eq_self]
    exact ho.congr hdoc hqueue
  | some x =>
    cases hs with
    | document hs => exact ho.step hshown hs
    | _ => cases hd

theorem InOrder.ofStep (ho : InOrder sc.session (shown (·.document?) sc.callers))
    (hs : Step h sc e sc') : InOrder sc'.session (shown (·.document?) sc'.callers) := by
  cases hs with
  | call op hop => exact ho.call hop
  | advance n op hn hop => exact ho.advance hn (.of_stepOperation hop)
  | background p hb =>
    have hdoc := (Turn.of_stepPart hb).documents
    exact ho.congr hdoc.1 hdoc.2
  | serve | elapse | release => exact ho.congr rfl rfl

/-- **The map belongs to one operation at a time throughout every run.** -/
theorem Run.inOrder (r : Run h sc es sc')
    (ho : InOrder sc.session (shown (·.document?) sc.callers)) :
    InOrder sc'.session (shown (·.document?) sc'.callers) :=
  r.invariant InOrder.ofStep ho

end Session

end LanguageHub
