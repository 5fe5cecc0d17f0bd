import LanguageHub.Proofs.Lsp.Inbound
import LanguageHub.Proofs.Session.Conversation

/-!
# Where the frames of a server go

The reader sorts every frame of the server to **at most one** effect, which the frame alone decides
(`Session.Routed`): the reply that it asks for, the publication that it makes, or the end of
a call that waits. What does not belong to any of these leaves the session as it is.

Two of the effects go out of the session, and what has gone out in a run is what is due to the
frames that were read, one by one and **in the order in which they came**
(`Session.frames_routed`). The replies are what the session sends without a method. They stay in
order because the reader takes no other frame before its reply is in the outbox. A
`Session.Broadcast` is a run with all that was published in it.
-/

namespace LanguageHub

/-- The reply that the reader has for the writer. -/
def ReaderStage.held? : ReaderStage → Option Json
  | .replying frame => some frame
  | _ => none

namespace Session

open Lsp (Publication dueReply? duePublication? ends?)

/-- The frame that the reader takes in a step. -/
def Event.read? : Event → Option Json
  | .read frame => some frame
  | _ => none

/-- The frames that the reader has taken, in the order in which they came. -/
def framesRead (es : List Event) : List Json := es.filterMap (·.read?)

theorem framesRead_concat (es : List Event) (e : Event) :
    framesRead (es ++ [e]) = framesRead es ++ e.read?.toList := by
  cases h : e.read? <;> simp [framesRead, h]

/-- The replies among some frames of a client: they have no method. -/
def repliesIn (frames : List Json) : List Json := frames.filter fun frame => !frame.has "method"

variable {s s' : Session} {h : Host} {now n : Nat} {op op' : Operation} {e : Event}
  {es : List Event} {frame : Json}

/-! ### One frame -/

/-- **What becomes of a session and of the hub when the reader takes a frame.** -/
inductive Routed (s : Session) (frame : Json) (rest : List UInt8) :
    Session → List Publication → Prop
  | replies (reply : Json) : dueReply? frame = some reply →
      Routed s frame rest
        { s with link := { s.link with arrived := rest }, reader := .replying reply } []
  | publishes (p : Publication) : duePublication? frame = some p →
      Routed s frame rest { s with link := { s.link with arrived := rest } } [p]
  | ends (id : Nat) : ends? frame = some id → id ∈ s.pending →
      Routed s frame rest { s with
        link := { s.link with arrived := rest }
        pending := s.pending.filter (· != id), delivered := s.delivered ++ [(id, frame)] } []
  | drops : dueReply? frame = none → duePublication? frame = none →
      (∀ id, ends? frame = some id → id ∉ s.pending) →
      Routed s frame rest { s with link := { s.link with arrived := rest } } []

/-- **Every frame is routed**, whatever JSON value it is. -/
theorem dispatch_routed (s : Session) (frame : Json) (rest : List UInt8) :
    Routed s frame rest
      (dispatch frame { s with link := { s.link with arrived := rest } }).session
      (dispatch frame { s with link := { s.link with arrived := rest } }).published := by
  unfold dispatch
  split
  · next hf =>
    obtain ⟨hr, hp, he⟩ := Lsp.incoming_none hf
    exact .drops hr hp fun id hid => by rw [he] at hid; cases hid
  · next id body hf =>
    obtain ⟨rfl, he⟩ := Lsp.incoming_response_iff.mp hf
    obtain ⟨hr, hp⟩ := Lsp.ends?_exclusive he
    split
    · next hmem => exact .ends id he (by simpa using hmem)
    · next hmem =>
      refine .drops hr hp fun id' hid => ?_
      rw [he] at hid
      cases hid
      simpa using hmem
  · next id method params hf =>
    obtain ⟨hid, hm, rfl⟩ := Lsp.incoming_request_iff.mp hf
    exact .replies _ (Lsp.answer_eq hid hm)
  · next method params hf =>
    obtain ⟨hid, hm, rfl⟩ := Lsp.incoming_notification_iff.mp hf
    have hpublished := Lsp.receive_eq hid hm
    cases hp : duePublication? frame with
    | some p =>
      rw [hp] at hpublished
      simp only [hpublished]
      exact .publishes p hp
    | none =>
      rw [hp] at hpublished
      simp only [hpublished]
      refine .drops ?_ hp ?_
      · simp [dueReply?, hid]
      · simp [ends?, hid]

/-! ### What is published -/

variable {p : Part} {b : BackgroundStep}

/-- **A step of the background** takes a frame and dispatches it, or it publishes nothing. -/
theorem stepPart_cases (hb : s.stepPart p = some b) :
    (∃ frame rest, s.eventOf p = .read frame ∧
      b = dispatch frame { s with link := { s.link with arrived := rest } }) ∨
    ((s.eventOf p).read? = none ∧ b.published = []) := by
  cases p with
  | reader =>
    simp only [stepPart, stepReader] at hb
    split at hb
    · next hr =>
      split at hb
      · next frame rest hf =>
        cases hb
        exact .inl ⟨frame, rest, by simp [eventOf, hr, hf], rfl⟩
      · next hf =>
        cases hb
        exact .inr ⟨by simp [eventOf, hr, hf, Event.read?], rfl⟩
      · next hf =>
        cases hb
        exact .inr ⟨by simp [eventOf, hr, hf, Event.read?], rfl⟩
      · cases hb
    · next hr =>
      have he : (s.eventOf .reader).read? = none := by simp [eventOf, hr, Event.read?]
      split at hb <;> cases hb <;> exact .inr ⟨he, rfl⟩
    · next hr =>
      cases hb
      exact .inr ⟨by simp [eventOf, hr, Event.read?], rfl⟩
    · cases hb
  | writer =>
    refine .inr ⟨?_, ?_⟩
    · simp only [eventOf]
      split <;> split <;> rfl
    · simp only [stepPart, stepWriter] at hb
      split at hb
      · cases hb
      · split at hb
        · split at hb <;> cases hb <;> rfl
        · split at hb
          · cases hb
            rfl
          · cases hb
            rfl
          · split at hb <;> cases hb
            rfl
  | kill =>
    simp only [stepPart, stepKill] at hb
    split at hb <;> cases hb
    exact .inr ⟨rfl, rfl⟩
  | exit =>
    simp only [stepPart, stepExit] at hb
    split at hb
    · cases hb
    · split at hb <;> cases hb <;> exact .inr ⟨rfl, rfl⟩

/-- **What a step of the background publishes** is what the frame that it takes publishes. -/
theorem published_of_stepPart (hb : s.stepPart p = some b) :
    b.published = ((s.eventOf p).read?.toList).filterMap duePublication? := by
  rcases stepPart_cases hb with ⟨frame, rest, he, rfl⟩ | ⟨he, hp⟩
  · rw [he]
    have hrouted := dispatch_routed s frame rest
    generalize (dispatch frame { s with link := { s.link with arrived := rest } }).published = ps,
      (dispatch frame { s with link := { s.link with arrived := rest } }).session = s' at hrouted ⊢
    cases hrouted with
    | replies reply hr => simp [Event.read?, (Lsp.dueReply?_exclusive hr).1]
    | publishes p hp => simp [Event.read?, hp]
    | ends id hid => simp [Event.read?, (Lsp.ends?_exclusive hid).2]
    | drops _ hp => simp [Event.read?, hp]
  · rw [he, hp]
    rfl

variable {sc sc' : Scene} {ps : List Publication}

/-- What everybody but the background can do next. -/
inductive FrontStep (h : Host) (sc : Scene) : Event → Scene → Prop
  | call (op : Operation) : op.isFresh = true →
      FrontStep h sc .silent { sc with callers := sc.callers ++ [op] }
  | advance (n : Nat) (op : Operation) {s' : Session} {op' : Operation} {log : List LogEntry} :
      sc.callers[n]? = some op → sc.session.stepOperation h sc.now n op = some (s', op', log) →
      FrontStep h sc (.advanced n op op') { sc with session := s', callers := sc.callers.set n op' }
  | serve {l : Link} : sc.session.link.Serves l →
      FrontStep h sc .silent { sc with session := { sc.session with link := l } }
  | elapse {t : Nat} : sc.now ≤ t → FrontStep h sc .silent { sc with now := t }
  | release : FrontStep h sc .silent { sc with session := sc.session.release }

/-- **A run with what was published in it.** -/
inductive Broadcast (h : Host) (sc : Scene) : List Event → List Publication → Scene → Prop
  | refl : Broadcast h sc [] [] sc
  | front {es : List Event} {ps : List Publication} {e : Event} {sc' sc'' : Scene} :
      Broadcast h sc es ps sc' → FrontStep h sc' e sc'' → Broadcast h sc (es ++ [e]) ps sc''
  | background {es : List Event} {ps : List Publication} {sc' : Scene} (p : Part)
      {b : BackgroundStep} : Broadcast h sc es ps sc' → sc'.session.stepPart p = some b →
      Broadcast h sc (es ++ [sc'.session.eventOf p]) (ps ++ b.published)
        { sc' with session := b.session }

theorem FrontStep.step (hs : FrontStep h sc e sc') : Step h sc e sc' := by
  cases hs with
  | call op hf => exact .call op hf
  | advance n op hn hop => exact .advance n op hn hop
  | serve hl => exact .serve hl
  | elapse ht => exact .elapse ht
  | release => exact .release

theorem FrontStep.read? (hs : FrontStep h sc e sc') : e.read? = none := by
  cases hs <;> rfl

theorem Broadcast.run (hb : Broadcast h sc es ps sc') : Run h sc es sc' := by
  induction hb with
  | refl => exact .refl
  | front _ hs ih => exact ih.tail hs.step
  | background p _ hp ih => exact ih.tail (.background p hp)

/-- Every run is one with what was published in it. -/
theorem Run.broadcast (r : Run h sc es sc') : ∃ ps, Broadcast h sc es ps sc' := by
  induction r with
  | refl => exact ⟨[], .refl⟩
  | tail _ hs ih =>
    obtain ⟨ps, hb⟩ := ih
    cases hs with
    | call op hf => exact ⟨ps, hb.front (.call op hf)⟩
    | advance n op hn hop => exact ⟨ps, hb.front (.advance n op hn hop)⟩
    | background p hp => exact ⟨_, hb.background p hp⟩
    | serve hl => exact ⟨ps, hb.front (.serve hl)⟩
    | elapse ht => exact ⟨ps, hb.front (.elapse ht)⟩
    | release => exact ⟨ps, hb.front .release⟩

/-- **What is published in a run** is what the frames that were read publish. -/
theorem Broadcast.published (hb : Broadcast h sc es ps sc') :
    ps = (framesRead es).filterMap duePublication? := by
  induction hb with
  | refl => rfl
  | front _ hs ih =>
    rw [framesRead_concat, hs.read?, ih]
    simp
  | background p _ hp ih =>
    rw [framesRead_concat, List.filterMap_append, ← published_of_stepPart hp, ← ih]

/-! ### What is replied -/

/-- **What was replied so far**, with the reply that is still to be queued. -/
def replied (s : Session) : List Json := repliesIn s.frames ++ s.reader.held?.toList

theorem repliesIn_concat (fs : List Json) (hm : frame.has "method" = true) :
    repliesIn (fs ++ [frame]) = repliesIn fs := by
  simp [repliesIn, hm]

theorem repliesIn_concat_reply (fs : List Json) (hr : Lsp.IsReply frame) :
    repliesIn (fs ++ [frame]) = repliesIn fs ++ [frame] := by
  simp [repliesIn, Json.has, hr.1]

/-- A stage of an operation replies to nobody. -/
theorem OperationStep.replied (hs : OperationStep h now n s op s' op')
    (hdoc : ∀ a frame after, op = .document a (.sending frame after) →
      Prepared s.documents a frame after) : s'.replied = s.replied := by
  rw [Session.replied, Session.replied, hs.reader]
  rcases hs.frames_cases with hf | ⟨frame, hq, hf⟩
  · rw [hf]
  -- whatever an operation queues has a method
  · have hm : frame.has "method" = true := by
      cases hq with
      | request => exact Lsp.has_method_request ..
      | initialized | exit => exact Lsp.has_method_notification ..
      | document a frame after hop => exact (hdoc a frame after hop).saying.1
    rw [hf, repliesIn_concat _ hm]

/-- **A step of the background replies to the frame that it takes**, and to no other one. -/
theorem Turn.replied (ht : Turn s e s') (hr : Replies s) (hopen : s'.writerEnded = false) :
    s'.replied = s.replied ++ e.read?.toList.filterMap dueReply? := by
  have hkeep : e.read? = none → s'.frames = s.frames → s'.reader.held? = s.reader.held? →
      s'.replied = s.replied ++ e.read?.toList.filterMap dueReply? := by
    intro he hf hh
    rw [he, Session.replied, Session.replied, hf, hh]
    simp
  cases ht with
  | take frame rest hw ho => exact hkeep rfl (frames_take hw ho) rfl
  | write frame hw => exact hkeep rfl (frames_write hw) rfl
  | endWriter lost => cases hopen
  | kill => exact hkeep rfl rfl rfl
  | exit => exact hkeep rfl rfl rfl
  | read frame rest hreading =>
    have hrouted := dispatch_routed s frame rest
    generalize (dispatch frame { s with link := { s.link with arrived := rest } }).published = ps,
      (dispatch frame { s with link := { s.link with arrived := rest } }).session = s'
      at hrouted hopen ⊢
    have hnone : dueReply? frame = none → s'.frames = s.frames → s'.reader = s.reader →
        s'.replied = s.replied ++ (Event.read frame).read?.toList.filterMap dueReply? := by
      intro hdue hf hh
      rw [Session.replied, Session.replied, hf, hh]
      simp [Event.read?, hdue]
    cases hrouted with
    | replies reply hdue =>
      simp [Session.replied, Session.frames, unwritten, Event.read?, hdue, hreading,
        ReaderStage.held?]
    | publishes p hp => exact hnone (Lsp.duePublication?_exclusive hp).1 rfl rfl
    | ends id hid => exact hnone (Lsp.ends?_exclusive hid).1 rfl rfl
    | drops hdue => exact hnone hdue rfl rfl
  | endReading hreading => exact hkeep rfl rfl (by rw [hreading]; rfl)
  | reply frame hreplying hlive =>
    have hf : ({ s with outbox := s.outbox ++ [.send frame], reader := .reading } : Session).frames =
        s.frames ++ [frame] := frames_of_send rfl rfl rfl
    rw [Session.replied, hf, repliesIn_concat_reply _ (hr frame hreplying)]
    simp [Session.replied, Event.read?, hreplying, ReaderStage.held?]
  | unreplied frame _ hended =>
    rw [hended] at hopen
    cases hopen
  | clear hclearing => exact hkeep rfl rfl (by rw [hclearing]; rfl)

/-- **What was replied in a run** is what is due to the frames that were read, as long as the writer
takes frames. -/
theorem Run.replied (r : Run h sc es sc') (hr : Replies sc.session)
    (ho : InOrder sc.session (shown (·.document?) sc.callers))
    (hopen : sc'.session.writerEnded = false) :
    Replies sc'.session ∧
      sc'.session.replied = sc.session.replied ++ (framesRead es).filterMap dueReply? := by
  induction r with
  | refl => exact ⟨hr, by simp [framesRead]⟩
  | @tail es e sc₁ sc₂ r hs ih =>
    have hlive : sc₁.session.writerEnded = false := by
      rw [← Bool.not_eq_true]
      intro hended
      rw [hs.leadsTo.writerEnded hended] at hopen
      cases hopen
    obtain ⟨hr₁, hreplied⟩ := ih hlive
    have hquiet : e.read? = none → sc₂.session.reader = sc₁.session.reader →
        sc₂.session.replied = sc₁.session.replied → Replies sc₂.session ∧
          sc₂.session.replied =
            sc.session.replied ++ (framesRead (es ++ [e])).filterMap dueReply? := by
      intro he hreader hsame
      refine ⟨fun frame hf => hr₁ frame (hreader ▸ hf), ?_⟩
      rw [hsame, hreplied, framesRead_concat, he]
      simp
    cases hs with
    | advance n op hn hop =>
      have hstage := OperationStep.of_stepOperation hop
      refine hquiet rfl hstage.reader (hstage.replied ?_)
      rintro a frame after rfl
      exact (r.inOrder ho).prepared (shown_of_getElem? hn)
    | background p hb =>
      have hturn := Turn.of_stepPart hb
      refine ⟨hturn.replies hr₁, ?_⟩
      rw [hturn.replied hr₁ hopen, hreplied, framesRead_concat, List.filterMap_append,
        List.append_assoc]
    | serve hl => exact hquiet rfl rfl (by simp [Session.replied, frames_serve hl.wire])
    | call | elapse | release => exact hquiet rfl rfl rfl

/-! ### The main result -/

/-- **The frames of a server are routed exactly.** Take any run of a session from its launch, with
any bytes from the server and any interleaving of those who use the session.

* What was published is what is due to the frames that were read, in the order in which they came.
* As long as the writer takes frames, so are the replies: those that were queued, and the one that
  the reader holds when there is no room for it.
* A step that takes a frame has the one effect that the frame is for, or none. In particular a
  waiting call is ended only by a frame without a method, with its id, and with a result or an
  error. -/
theorem frames_routed {key : SessionKey} {server : String} {timeouts : Timeouts}
    {killFault : Option String} {now : Nat}
    (run : Broadcast h (.launched key server timeouts killFault now) es ps sc) :
    ps = (framesRead es).filterMap duePublication? ∧
    (sc.session.writerEnded = false →
      repliesIn sc.session.frames ++ sc.session.reader.held?.toList =
        (framesRead es).filterMap dueReply?) ∧
    (∀ p b frame, sc.session.stepPart p = some b → sc.session.eventOf p = .read frame →
      ∃ rest, Routed sc.session frame rest b.session b.published) := by
  refine ⟨run.published, fun hopen => ?_, fun p b frame hb he => ?_⟩
  · have hreplied := (run.run.replied nofun (inOrder_launched ..) hopen).2
    exact hreplied
  · rcases stepPart_cases hb with ⟨frame', rest, he', rfl⟩ | ⟨hnone, -⟩
    · rw [he] at he'
      cases he'
      exact ⟨rest, dispatch_routed ..⟩
    · rw [he] at hnone
      cases hnone

/-- What a server publishes: that a document has nothing to report. -/
def tidings : Json :=
  .obj [("method", .str "textDocument/publishDiagnostics"),
    ("params", .obj [("diagnostics", .arr []), ("uri", .str "file:///a.rs")])]

theorem sendable_tidings : Frame.Sendable tidings :=
  ⟨rfl, by simp [tidings, Json.Integral, Json.IntegralMembers, Json.IntegralItems], by decide,
    by decide +kernel⟩

/-- A server asks for two items of the configuration. -/
def inquiry : Json :=
  .obj [("id", .str "c"), ("method", .str "workspace/configuration"),
    ("params", .obj [("items", .arr [.null, .null])])]

theorem sendable_inquiry : Frame.Sendable inquiry :=
  ⟨rfl, by simp [inquiry, Json.Integral, Json.IntegralMembers, Json.IntegralItems], by decide,
    by decide +kernel⟩

/-- While it shakes hands, a client is asked for something that nobody knows, under an id that is
null, is told about a document, is asked for its configuration, and gets its response. Each frame
has its effect, and the two replies are in the order of the requests. -/
theorem frames_routed_mixed :
    ∃ (h : Host) (es : List Event) (ps : List Publication) (sc : Scene),
      Broadcast h (.launched ⟨⟨[0x2F]⟩, "rust"⟩ "analyzer" .standard none 0) es ps sc ∧
      framesRead es = [question, tidings, inquiry, acknowledgement 1] ∧
      ps = [⟨⟨"file:///a.rs"⟩, none, []⟩] ∧ sc.session.writerEnded = false ∧
      repliesIn sc.session.frames =
        [.obj [("error", .obj [("code", .num (.int (-32601))),
          ("message", .str "Method not found: workspace/unknown")]), ("id", .null),
          ("jsonrpc", .str "2.0")],
        .obj [("id", .str "c"), ("jsonrpc", .str "2.0"), ("result", .arr [.null, .null])]] ∧
      sc.session.pending = [] ∧ sc.session.response? 1 = some (acknowledgement 1) := by
  have launched : Run { (default : Host) with directory := ⟨[0x2F]⟩ }
      (.launched ⟨⟨[0x2F]⟩, "rust"⟩ "analyzer" .standard none 0) [] _ := .refl
  have called := launched.tail (.call .startHandshake rfl)
  have begun := called.tail (.advance 0 _ rfl rfl)
  have numbered := begun.tail (.advance 0 _ rfl rfl)
  have registered := numbered.tail (.advance 0 _ rfl rfl)
  have waits := registered.tail (.advance 0 _ rfl rfl)
  have asked := waits.trans (.asks sendable_question of?_question rfl rfl rfl
    (Nat.le_of_ble_eq_true rfl))
  have told := asked.trans (.sends sendable_tidings rfl rfl)
  have inquired := told.trans (.asks sendable_inquiry rfl rfl rfl rfl (Nat.le_of_ble_eq_true rfl))
  have answered := inquired.trans (.sends (sendable_acknowledgement (by decide : 1 < 10)) rfl rfl)
  obtain ⟨ps, heard⟩ := answered.broadcast
  obtain ⟨published, replied, -⟩ := frames_routed heard
  refine ⟨_, _, _, _, heard, rfl, published.trans ?_, rfl, ?_, rfl, rfl⟩
  · rfl
  · exact (List.append_nil _).symm.trans ((replied rfl).trans rfl)

end Session

end LanguageHub
