import LanguageHub.Proofs.Session.Lock
import LanguageHub.Proofs.Session.Mirror
import LanguageHub.Proofs.Session.Scenarios

/-!
# The server mirrors the documents

The frames of a session, replayed by a strict server (`Mirror.replay`), are all **legal**,
and the server ends up with the documents that the session believes it has: the same URIs,
the same versions, and for each of them the text of the last action that has succeeded
(`Session.documents_mirrored`).

The invariant is `Session.Mirrored`. Session and server disagree on a document at one
moment only: a closing has taken it out of the map and its frame is not queued yet. The
operation that does so still holds the map, so the disagreement is about one document, and
nobody acts on it (`Session.Agrees.closing`).
-/

namespace LanguageHub

/-- The text that an action gives a document. -/
def DocumentAction.textFor? (a : DocumentAction) (uri : String) : Option String :=
  (a.text?.filter (·.1.text == uri)).map (·.2)

/-- Whether an operation opens, changes or closes a document. -/
def Operation.changesDocuments : Operation → Bool
  | .document (.query _) _ => false
  | .document _ _ => true
  | _ => false

namespace Session

/-- The text that a step has given a document: an opening or a change of it has succeeded. -/
def Event.textOf? (uri : String) : Event → Option String
  | .advanced _ (.document a _) (.returned (.ok _)) => a.textFor? uri
  | _ => none

/-- The text of the last opening or change of a document that has succeeded. -/
def lastText (es : List Event) (uri : String) : Option String :=
  (es.filterMap (·.textOf? uri)).getLast?

/-- Whether a step loses no frame of an operation on documents: the writer ends with nothing left to
write, and it does not refuse such a frame. -/
def Event.keepsFrames : Event → Prop
  | .stopped lost => lost = []
  | .advanced _ (.document _ (.sending _ _)) (.returned (.error _)) => False
  | _ => True

theorem lastText_concat (es : List Event) (e : Event) (uri : String) :
    lastText (es ++ [e]) uri = (e.textOf? uri).or (lastText es uri) := by
  unfold lastText
  rw [List.filterMap_append]
  cases h : e.textOf? uri with
  | none => simp [h]
  | some t => simp [h]

variable {s s' : Session} {ops ops' : DocumentOps} {text : String → Option String} {m : Mirror}
  {n : Nat} {a : DocumentAction} {st : DocumentStage} {op : Operation}

/-! ### The agreement -/

/-- **Session and server agree on a document**, or it is being closed. -/
inductive Agrees (m : Mirror) (s : Session) (ops : DocumentOps) (text : String → Option String)
    (uri : String) : Prop
  | absent : m uri = none → s.documents.version? uri = none → Agrees m s ops text uri
  | present (v : Int) (t : String) : m uri = some (v, t) → s.documents.version? uri = some v →
      text uri = some t → Agrees m s ops text uri
  | closing (v : Int) (t : String) (n : Nat) (u : Uri) (frame : Json) (after : Documents) :
      m uri = some (v, t) → s.documents.version? uri = none → text uri = some t →
      ops n = some (.close u, .sending frame after) → u.text = uri → Agrees m s ops text uri

/-- Two that have the same version of a document agree on it, if the server has the right text. -/
theorem Agrees.of_version?_eq {uri : String} (hv : (m uri).map (·.1) = s.documents.version? uri)
    (ht : ∀ v t, m uri = some (v, t) → text uri = some t) : Agrees m s ops text uri := by
  cases hm : m uri with
  | none =>
    rw [hm] at hv
    exact .absent hm hv.symm
  | some x =>
    rw [hm] at hv
    exact .present x.1 x.2 hm hv.symm (ht x.1 x.2 hm)

theorem Agrees.text_eq {uri : String} (h : Agrees m s ops text uri) {v : Int} {t : String}
    (hm : m uri = some (v, t)) : text uri = some t := by
  cases h with
  | absent hm' _ => simp [hm'] at hm
  | present v' t' hm' _ ht | closing v' t' _ _ _ _ hm' _ ht _ _ =>
    rw [hm'] at hm
    cases hm
    exact ht

/-- **The server mirrors the session**: what is queued is legal, and both agree on all documents. -/
structure Mirrored (s : Session) (ops : DocumentOps) (text : String → Option String)
    (m : Mirror) : Prop where
  order : InOrder s ops
  replay : Mirror.replay s.frames = some m
  agrees : ∀ uri, Agrees m s ops text uri
  /-- A document that is being closed is still open on the server. -/
  closing : ∀ {n u frame after}, ops n = some (.close u, .sending frame after) →
    (m u.text).isSome = true

namespace Mirrored

/-- Steps that neither queue a frame nor touch the map keep the agreement, if no closing under way
is forgotten. -/
theorem congr (h : Mirrored s ops text m) (order : InOrder s' ops')
    (hf : s'.frames = s.frames) (hd : s'.documents = s.documents)
    (hops : ∀ n u frame after, ops n = some (.close u, .sending frame after) ↔
      ops' n = some (.close u, .sending frame after)) : Mirrored s' ops' text m := by
  refine ⟨order, hf ▸ h.replay, fun uri => ?_, fun {n u frame after} hn => ?_⟩
  · cases h.agrees uri with
    | absent hm hv => exact .absent hm (hd ▸ hv)
    | present v t hm hv ht => exact .present v t hm (hd ▸ hv) ht
    | closing v t n u frame after hm hv ht hn hu =>
      exact .closing v t n u frame after hm (hd ▸ hv) ht ((hops ..).mp hn) hu
  · exact h.closing ((hops ..).mpr hn)

/-- A frame that says nothing about documents may be queued at any time. -/
theorem silent (h : Mirrored s ops text m) (order : InOrder s' ops) {frame : Json}
    (hq : Mirror.Silent frame) (hf : s'.frames = s.frames ++ [frame])
    (hd : s'.documents = s.documents) : Mirrored s' ops text m := by
  have hr : Mirror.replay s'.frames = some m := by
    rw [hf, Mirror.replay_concat h.replay, hq m]
  refine ⟨order, hr, fun uri => ?_, h.closing⟩
  cases h.agrees uri with
  | absent hm hv => exact .absent hm (hd ▸ hv)
  | present v t hm hv ht => exact .present v t hm (hd ▸ hv) ht
  | closing v t n u frame after hm hv ht hn hu =>
    exact .closing v t n u frame after hm (hd ▸ hv) ht hn hu

/-- While an operation other than a closing works on the map, nothing is being closed. -/
theorem version?_eq (h : Mirrored s ops text m) (hn : ops n = some (a, st))
    (hst : st.holds = true) (hc : ∀ u frame after, a = .close u → st ≠ .sending frame after)
    (uri : String) : (m uri).map (·.1) = s.documents.version? uri := by
  cases h.agrees uri with
  | absent hm hv => rw [hm, hv]; rfl
  | present v t hm hv ht => rw [hm, hv]; rfl
  | closing v t k u frame after hm hv ht hk hu =>
    have hkn : k = n := h.order.holder_unique hk rfl hn hst
    subst hkn
    rw [hk] at hn
    cases hn
    exact absurd rfl (hc u frame after rfl)

theorem text_eq (h : Mirrored s ops text m) {uri : String} {v : Int} {t : String}
    (hm : m uri = some (v, t)) : text uri = some t := (h.agrees uri).text_eq hm

/-- Once the operation that works on the map is gone, nothing is being closed. -/
theorem no_closing_after (h : Mirrored s ops text m) {frame frame' : Json}
    {after after' : Documents} (hn : ops n = some (a, .sending frame after)) {k : Nat} {u : Uri} :
    Function.update ops n none k ≠ some (.close u, .sending frame' after') := by
  intro hk
  rcases eq_or_ne k n with rfl | hne
  · rw [Function.update_self] at hk
    cases hk
  · rw [Function.update_of_ne hne] at hk
    exact hne (h.order.holder_unique hk rfl hn rfl)

/-- An operation that is no closing with its frame in hand, before and after, moves on its own. -/
theorem move (h : Mirrored s ops text m) (hn : ops n = some (a, st))
    {o : Option (DocumentAction × DocumentStage)} (order : InOrder s' (Function.update ops n o))
    (hf : s'.frames = s.frames) (hd : s'.documents = s.documents)
    (hc : ∀ u frame after, st = .sending frame after → a ≠ .close u)
    (ho : ∀ u frame after, o ≠ some (.close u, .sending frame after)) :
    Mirrored s' (Function.update ops n o) text m := by
  refine h.congr order hf hd fun k u frame after => ?_
  rcases eq_or_ne k n with rfl | hne
  · rw [Function.update_self, hn]
    constructor
    · intro hk
      cases hk
      exact absurd rfl (hc u frame after rfl)
    · intro hk
      exact absurd hk (ho u frame after)
  · rw [Function.update_of_ne hne]

/-- A closing takes its document out of the map, where the server still has it. -/
theorem beginClose (h : Mirrored s ops text m) {uri : Uri} {v : Int} {after : Documents}
    (hn : ops n = some (.close uri, .locked)) (hv : s.documents.version? uri.text = some v)
    (order : InOrder { s with documents := s.documents.erase uri.text }
      (Function.update ops n (some (.close uri, .sending (Lsp.didClose uri) after)))) :
    Mirrored { s with documents := s.documents.erase uri.text }
      (Function.update ops n (some (.close uri, .sending (Lsp.didClose uri) after))) text m := by
  have heq := h.version?_eq hn rfl (fun u frame after _ hc => by cases hc)
  have hopen : (m uri.text).isSome = true := by
    have := heq uri.text
    rw [hv] at this
    cases hm : m uri.text with
    | none => simp [hm] at this
    | some x => rfl
  refine ⟨order, h.replay, fun q => ?_, fun {k u frame after'} hk => ?_⟩
  · by_cases hq : q = uri.text
    · subst hq
      have hv' : (s.documents.erase uri.text).version? uri.text = none := by
        simp [Documents.version?_erase]
      cases h.agrees uri.text with
      | absent hm _ => simp [hm] at hopen
      | present w t hm _ ht =>
        exact .closing w t n uri _ _ hm hv' ht (Function.update_self ..) rfl
      | closing _ _ _ _ _ _ _ hnone _ _ _ => simp [hnone] at hv
    · have hv' : (s.documents.erase uri.text).version? q = s.documents.version? q := by
        simp [Documents.version?_erase, hq]
      cases h.agrees q with
      | absent hm hnone => exact .absent hm (hv'.trans hnone)
      | present w t hm hsome ht => exact .present w t hm (hv'.trans hsome) ht
      | closing w t k u frame after' hm hnone ht hk hu =>
        -- nobody else can have been closing: this operation has the map
        have hkn := h.order.holder_unique hk rfl hn rfl
        rw [hkn, hn] at hk
        cases hk
  · rcases eq_or_ne k n with rfl | hne
    · rw [Function.update_self] at hk
      cases hk
      exact hopen
    · rw [Function.update_of_ne hne] at hk
      exact absurd (h.order.holder_unique hk rfl hn rfl) hne

/-- **An opening or a change is legal when its frame is queued**, and brings the server up
to date. -/
theorem sendText (h : Mirrored s ops text m) {uri : Uri} {t : String} {v : Int} {frame : Json}
    {after : Documents} (hn : ops n = some (a, .sending frame after))
    (ha : a.text? = some (uri, t))
    (hr : m.receive frame = some (Function.update m uri.text (some (v, t))))
    (hs' : s'.frames = s.frames ++ [frame]) (hd : s'.documents = s.documents.set uri.text v)
    (order : InOrder s' (Function.update ops n none)) :
    Mirrored s' (Function.update ops n none) (fun q => (a.textFor? q).or (text q))
      (Function.update m uri.text (some (v, t))) := by
  have heq := h.version?_eq hn rfl (fun u f d hc => by rw [hc] at ha; cases ha)
  refine ⟨order, ?_, fun q => .of_version?_eq ?_ fun w t' hm' => ?_,
    fun hk => absurd hk (h.no_closing_after hn)⟩
  · rw [hs', Mirror.replay_concat h.replay, hr]
  · rw [hd, Documents.version?_set]
    by_cases hq : q = uri.text
    · simp [hq]
    · rw [Function.update_of_ne hq, heq q, if_neg hq]
  · by_cases hq : q = uri.text
    · subst hq
      rw [Function.update_self] at hm'
      cases hm'
      simp [DocumentAction.textFor?, ha]
    · rw [Function.update_of_ne hq] at hm'
      have hne : ¬ uri.text = q := fun hc => hq hc.symm
      simpa [DocumentAction.textFor?, ha, Option.filter, hne] using h.text_eq hm'

/-- **A closing is legal when its frame is queued**, and session and server agree again. -/
theorem sendClose (h : Mirrored s ops text m) {uri : Uri} {after : Documents}
    (hn : ops n = some (.close uri, .sending (Lsp.didClose uri) after))
    (hv : s.documents.version? uri.text = none)
    (hs' : s'.frames = s.frames ++ [Lsp.didClose uri]) (hd : s'.documents = s.documents)
    (order : InOrder s' (Function.update ops n none)) :
    Mirrored s' (Function.update ops n none) text (Function.update m uri.text none) := by
  refine ⟨order, ?_, fun q => .of_version?_eq ?_ fun w t' hm' => ?_,
    fun hk => absurd hk (h.no_closing_after hn)⟩
  · rw [hs', Mirror.replay_concat h.replay, Mirror.receive_didClose m (h.closing hn)]
  · rw [hd]
    by_cases hq : q = uri.text
    · simp [hq, hv]
    · rw [Function.update_of_ne hq]
      cases h.agrees q with
      | absent hm hv' => rw [hm, hv']; rfl
      | present v t hm hv' ht => rw [hm, hv']; rfl
      | closing v t k u f d hm hv' ht hk hu =>
        have hkn := h.order.holder_unique hk rfl hn rfl
        rw [hkn, hn] at hk
        cases hk
        exact absurd hu.symm hq
  · by_cases hq : q = uri.text
    · subst hq
      rw [Function.update_self] at hm'
      cases hm'
    · rw [Function.update_of_ne hq] at hm'
      exact h.text_eq hm'

/-- **A frame on a document is legal when it is queued.** -/
theorem send (h : Mirrored s ops text m) {frame : Json} {after : Documents}
    (hn : ops n = some (a, .sending frame after)) (hs' : s'.frames = s.frames ++ [frame])
    (hd : s'.documents = after) (order : InOrder s' (Function.update ops n none)) :
    ∃ m', Mirrored s' (Function.update ops n none) (fun q => (a.textFor? q).or (text q)) m' := by
  cases h.order.prepared hn with
  | openNew uri language t ha hv =>
    have hm : m uri.text = none := by
      have heq := h.version?_eq hn rfl (fun u f d hc => by rw [hc] at ha; cases ha) uri.text
      simpa [hv] using heq
    exact ⟨_, h.sendText hn ha (Mirror.receive_didOpen m language t hm) hs' hd order⟩
  | change uri t v ha hv =>
    have heq := h.version?_eq hn rfl (fun u f d hc => by rw [hc] at ha; cases ha) uri.text
    rw [hv, Option.map_eq_some_iff] at heq
    obtain ⟨⟨v', before⟩, hm, rfl⟩ := heq
    exact ⟨_, h.sendText hn ha (Mirror.receive_didChange m t hm) hs' hd order⟩
  | close uri hv => exact ⟨_, h.sendClose hn hv hs' hd order⟩

/-- **A stage of an operation on documents keeps the agreement**, unless the writer refuses its
frame. -/
theorem step (h : Mirrored s ops text m) (hn : ops n = some (a, st))
    (hs : DocumentStep n a s st s' op)
    (hw : ∀ frame after, st = .sending frame after → s.writerEnded = false) :
    ∃ m', Mirrored s' (Function.update ops n op.document?)
      (fun uri => ((Event.advanced n (.document a st) op).textOf? uri).or (text uri)) m' := by
  have order := h.order.step hn hs
  cases hs with
  | begin =>
    exact ⟨m, h.move hn order rfl rfl (fun _ _ _ hc => by cases hc) fun _ _ _ hc => by cases hc⟩
  | lock hhead =>
    exact ⟨m, h.move hn order rfl rfl (fun _ _ _ hc => by cases hc) fun _ _ _ hc => by cases hc⟩
  | locked hl =>
    have hlocked : ∀ u frame after, DocumentStage.locked = .sending frame after → a ≠ .close u :=
      fun _ _ _ hc => by cases hc
    cases hl with
    | ask uri ha =>
      subst ha
      exact ⟨m, h.move hn order rfl rfl hlocked fun _ _ _ hc => by cases hc⟩
    | ended => exact ⟨m, h.move hn order rfl rfl hlocked fun _ _ _ hc => by cases hc⟩
    | absent uri ha =>
      subst ha
      exact ⟨m, h.move hn order rfl rfl hlocked fun _ _ _ hc => by cases hc⟩
    | openNew uri language t ht ha hv =>
      exact ⟨m, h.move hn order rfl rfl hlocked fun _ _ _ hc => by cases hc; cases ha⟩
    | change uri t v ht ha hv =>
      exact ⟨m, h.move hn order rfl rfl hlocked fun _ _ _ hc => by cases hc; cases ha⟩
    | close uri v ht ha hv =>
      subst ha
      exact ⟨m, h.beginClose hn hv order⟩
  | send frame after =>
    exact h.send hn (frames_of_send rfl rfl rfl) rfl order
  | unsent frame after hend =>
    rw [hw frame after rfl] at hend
    cases hend

end Mirrored

/-! ### The frames of other steps -/

/-- An operation that is not on documents queues nothing about documents. -/
theorem OperationStep.frames {h : Host} {now id : Nat} {op op' : Operation}
    (hs : OperationStep h now id s op s' op') (hd : op.document? = none) :
    s'.frames = s.frames ∨ ∃ frame, Mirror.Silent frame ∧ s'.frames = s.frames ++ [frame] := by
  rcases hs.frames_cases with hf | ⟨frame, hq, hf⟩
  · exact .inl hf
  · refine .inr ⟨frame, ?_, hf⟩
    cases hq with
    | request id method params => exact Mirror.silent_request id method params
    | initialized => exact Mirror.silent_initialized (some (.obj []))
    | document a frame after hop =>
      subst hop
      cases hd
    | exit => exact Mirror.silent_exit none

/-- The background queues nothing about documents, and loses nothing unless it is seen to. -/
theorem Turn.frames {e : Event} (h : Turn s e s') (hr : Replies s) (hk : e.keepsFrames) :
    s'.frames = s.frames ∨ ∃ frame, Mirror.Silent frame ∧ s'.frames = s.frames ++ [frame] := by
  rcases h.frames_cases with ⟨hf, -⟩ | ⟨lost, rfl, rfl, hl⟩ | ⟨frame, hreader, -, hf⟩
  · exact .inl hf
  · exact .inl (by rw [frames_endWriter, Session.frames, hl hk, List.append_nil])
  · exact .inr ⟨frame, Mirror.silent_reply (hr frame hreader), hf⟩

/-! ### Runs -/

/-- **Session and server are synchronised** in a scene that was reached through `es`. -/
structure Synchronised (sc : Scene) (es : List Event) : Prop where
  replies : Replies sc.session
  mirrored : ∃ m, Mirrored sc.session (shown (·.document?) sc.callers) (lastText es) m

variable {h : Host} {sc sc' : Scene} {e : Event} {es : List Event}

theorem lastText_concat_of_none (he : ∀ uri, e.textOf? uri = none) :
    lastText (es ++ [e]) = lastText es := by
  funext uri
  rw [lastText_concat, he uri, Option.none_or]

/-- A new operation changes nothing. -/
theorem Synchronised.call (hs : Synchronised sc es) {op : Operation} (hop : op.isFresh = true) :
    Synchronised { sc with callers := sc.callers ++ [op] } (es ++ [.silent]) := by
  obtain ⟨m, hm⟩ := hs.mirrored
  refine ⟨hs.replies, m, ?_⟩
  rw [lastText_concat_of_none fun _ => rfl]
  refine hm.congr (hm.order.call hop) rfl rfl fun n u frame after => ?_
  rw [shown_concat]
  rcases eq_or_ne n sc.callers.length with rfl | hne
  -- whoever comes has no frame for the outbox yet
  · rw [Function.update_self, shown_length]
    cases op with
    | document a st =>
      cases st with
      | begin => simp [Operation.document?]
      | _ => cases hop
    | _ => simp [Operation.document?]
  · rw [Function.update_of_ne hne]

/-- A stage of an operation keeps session and server synchronised. -/
theorem Synchronised.advance (hs : Synchronised sc es) {n : Nat} {op op' : Operation}
    {s' : Session} (hn : sc.callers[n]? = some op)
    (hop : OperationStep h sc.now n sc.session op s' op')
    (hk : (Event.advanced n op op').keepsFrames) :
    Synchronised { sc with session := s', callers := sc.callers.set n op' }
      (es ++ [.advanced n op op']) := by
  obtain ⟨m, hm⟩ := hs.mirrored
  have hlt : n < sc.callers.length := (List.getElem?_eq_some_iff.mp hn).1
  refine ⟨fun frame hf => hs.replies frame (hop.reader ▸ hf), ?_⟩
  simp only [shown_set hlt]
  cases hd : op.document? with
  | none =>
    obtain ⟨hdoc, hq, hd'⟩ := hop.documents hd
    have hidle : shown (·.document?) sc.callers n = none := by
      rw [shown_of_getElem? hn, hd]
    have htext : lastText (es ++ [.advanced n op op']) = lastText es := by
      refine lastText_concat_of_none fun uri => ?_
      cases op with
      | document a st => cases hd
      | _ => rfl
    rw [hd', ← hidle, Function.update_eq_self, htext]
    have order := hm.order.congr hdoc hq
    rcases hop.frames hd with hf | ⟨frame, hq, hf⟩
    · exact ⟨m, hm.congr order hf hdoc fun _ _ _ _ => Iff.rfl⟩
    · exact ⟨m, hm.silent order hq hf hdoc⟩
  | some x =>
    cases hop with
    | document hdoc =>
      rename_i a st
      have hn' : shown (·.document?) sc.callers n = some (a, st) := shown_of_getElem? hn
      have hw : ∀ frame after, st = .sending frame after → sc.session.writerEnded = false := by
        rintro frame after rfl
        cases hdoc with
        | send _ _ hw => exact hw
        | unsent => exact hk.elim
      obtain ⟨m', hm'⟩ := hm.step hn' hdoc hw
      have htext : lastText (es ++ [.advanced n (.document a st) op']) = fun uri =>
          ((Event.advanced n (.document a st) op').textOf? uri).or (lastText es uri) := by
        funext uri
        exact lastText_concat es _ uri
      exact ⟨m', htext ▸ hm'⟩
    | _ => cases hd

theorem Turn.textOf? {e : Event} {s s' : Session} (ht : Turn s e s') (uri : String) :
    e.textOf? uri = none := by
  cases ht <;> rfl

/-- A step of the background keeps session and server synchronised. -/
theorem Synchronised.background (hs : Synchronised sc es) {s' : Session}
    (ht : Turn sc.session e s') (hk : e.keepsFrames) :
    Synchronised { sc with session := s' } (es ++ [e]) := by
  obtain ⟨m, hm⟩ := hs.mirrored
  refine ⟨ht.replies hs.replies, m, ?_⟩
  rw [lastText_concat_of_none ht.textOf?]
  have order := hm.order.congr ht.documents.1 ht.documents.2
  rcases ht.frames hs.replies hk with hf | ⟨frame, hq, hf⟩
  · exact hm.congr order hf ht.documents.1 fun _ _ _ _ => Iff.rfl
  · exact hm.silent order hq hf ht.documents.1

/-- **Every step keeps session and server synchronised.** -/
theorem Synchronised.step (hs : Synchronised sc es) (hstep : Step h sc e sc')
    (hk : e.keepsFrames) : Synchronised sc' (es ++ [e]) := by
  have hquiet : ∀ s', s'.frames = sc.session.frames → s'.documents = sc.session.documents →
      s'.documentQueue = sc.session.documentQueue → s'.reader = sc.session.reader →
      ∀ now, Synchronised ⟨s', sc.callers, now⟩ (es ++ [.silent]) := by
    intro s' hf hd hq hr now
    obtain ⟨m, hm⟩ := hs.mirrored
    refine ⟨fun frame hf => hs.replies frame (hr ▸ hf), m, ?_⟩
    rw [lastText_concat_of_none fun _ => rfl]
    exact hm.congr (hm.order.congr hd hq) hf hd fun _ _ _ _ => Iff.rfl
  cases hstep with
  | call op hop => exact hs.call hop
  | advance n op hn hop => exact hs.advance hn (.of_stepOperation hop) hk
  | background p hb => exact hs.background (.of_stepPart hb) hk
  | @serve l hl =>
    exact hquiet { sc.session with link := l } (frames_serve hl.wire) rfl rfl rfl _
  | elapse ht => exact hquiet sc.session rfl rfl rfl rfl _
  | release => exact hquiet sc.session.release rfl rfl rfl rfl _

/-- The operations on documents from number `n` on have no frame for the outbox. -/
def NothingToSend (n : Nat) (sc : Scene) : Prop :=
  ∀ k, n ≤ k → ∀ a frame after, sc.callers[k]? ≠ some (.document a (.sending frame after))

theorem NothingToSend.step {n : Nat} (hn : NothingToSend n sc)
    (ht : sc.session.state.isTerminal = true) (hs : Step h sc e sc') : NothingToSend n sc' := by
  intro k hk a frame after hc
  cases hs with
  | call op hop =>
    rcases Nat.lt_or_ge k sc.callers.length with hlt | hge
    · rw [List.getElem?_append_left hlt] at hc
      exact hn k hk a frame after hc
    · rw [List.getElem?_append_right hge, List.getElem?_singleton] at hc
      split at hc
      · cases hc
        cases hop
      · cases hc
  | advance j op hj hop =>
    have hlt : j < sc.callers.length := (List.getElem?_eq_some_iff.mp hj).1
    rcases eq_or_ne k j with rfl | hne
    · rw [List.getElem?_set_self hlt] at hc
      cases hc
      cases OperationStep.of_stepOperation hop with
      | document hd =>
        cases hd with
        | locked hl =>
          -- whoever gets the map of an ended session gives it back
          cases hl with
          | openNew _ _ _ hf | change _ _ _ hf | close _ _ hf => simp [ht] at hf
      | handshake hd => cases hd
      | query hd => cases hd
      | dispose hd => cases hd
    · rw [List.getElem?_set_ne (Ne.symm hne)] at hc
      exact hn k hk a frame after hc
  | background | serve | elapse | release => exact hn k hk a frame after hc

theorem NothingToSend.run {n : Nat} (hn : NothingToSend n sc)
    (ht : sc.session.state.isTerminal = true) (r : Run h sc es sc') : NothingToSend n sc' := by
  induction r with
  | refl => exact hn
  | tail r hs ih => exact ih.step (r.leadsTo.isTerminal ht) hs

theorem Event.greets.keepsFrames {e : Event} (he : e.greets) : e.keepsFrames := by
  cases e with
  | silent => trivial
  | advanced n op op' =>
    cases op with
    | handshake => trivial
    | _ => exact he.elim
  | _ => exact he.elim

end Session

end LanguageHub
