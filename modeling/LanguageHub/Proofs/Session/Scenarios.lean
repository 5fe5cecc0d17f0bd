import LanguageHub.Proofs.Frame.Streams
import LanguageHub.Proofs.Session.Run

/-!
# Runs that are built

A run leaves everything to chance, and most theorems say what holds whatever happens. This module
goes the other way: it **builds** runs, to the scenes in which something can be seen that does not
happen everywhere. They need a server that does its part, of good or of bad will.

* A server can send any frame that a frame carries unchanged, and the reader takes it
  (`Session.Run.sends`). A server that reads gets all that is queued (`Session.Run.writes`).
* A server that answers the handshake makes the session ready (`Session.exists_run_greeted`).
* A server that sends requests and does not read the replies fills the outbox
  (`Session.Run.crowds`): one reply is in the hand of the writer, and the others take all places.
* An operation on documents that finds nobody at the map comes to its frame at once
  (`Session.Run.prepares`), and queues it while the writer lives (`Session.Run.edits`).
-/

namespace LanguageHub

namespace Session

variable {h : Host} {sc : Scene} {frame : Json}

/-! ### Single frames -/

/-- A reader that reads and has a whole frame takes it. -/
theorem Step.read {rest : List UInt8} (hr : sc.session.reader = .reading)
    (hf : Frame.next sc.session.link.outputEnded sc.session.link.arrived = .message frame rest) :
    Step h sc (.read frame) { sc with session :=
      (dispatch frame
        { sc.session with link := { sc.session.link with arrived := rest } }).session } := by
  have hb : sc.session.stepPart .reader = some (dispatch frame
      { sc.session with link := { sc.session.link with arrived := rest } }) := by
    simp only [stepPart, stepReader, hr, hf]
  have hs := Step.background (h := h) .reader hb
  have he : sc.session.eventOf .reader = .read frame := by simp [eventOf, hr, hf]
  rwa [he] at hs

/-- A reader that finds the output at its end ends the session. -/
theorem Step.endReading (hr : sc.session.reader = .reading)
    (hf : Frame.next sc.session.link.outputEnded sc.session.link.arrived = .ended) :
    Step h sc .silent { sc with session := sc.session.endReading } := by
  have hb : sc.session.stepPart .reader = some (.quiet sc.session.endReading
      [.debug "Language server closed stdout"]) := by
    simp only [stepPart, stepReader, hr, hf]
  have hs := Step.background (h := h) .reader hb
  have he : sc.session.eventOf .reader = .silent := by simp [eventOf, hr, hf]
  rwa [he] at hs

/-- **A server can send a frame**, and the reader takes it. -/
theorem Run.sends (hframe : Frame.Sendable frame) (hr : sc.session.reader = .reading)
    (ha : sc.session.link.arrived = []) :
    Run h sc [.silent, .read frame] { sc with session := (dispatch frame sc.session).session } := by
  have hnext : Frame.next sc.session.link.outputEnded (Frame.write frame) = .message frame [] := by
    simpa using Frame.next_write hframe sc.session.link.outputEnded []
  have serves : Step h sc .silent { sc with session := { sc.session with
      link := { sc.session.link with arrived := Frame.write frame } } } :=
    .serve ⟨rfl, rfl, rfl, rfl, ha ▸ List.nil_prefix⟩
  have reads : Step h { sc with session := { sc.session with
      link := { sc.session.link with arrived := Frame.write frame } } } (.read frame)
      { sc with session := (dispatch frame
        { sc.session with link := { sc.session.link with arrived := [] } }).session } :=
    .read hr hnext
  have hsame : ({ sc.session with link := { sc.session.link with arrived := [] } } : Session) =
      sc.session := by
    rw [← ha]
  rw [hsame] at reads
  exact (Run.refl.tail serves).tail reads

/-- A server may stop reading, read again, or close its input at any time. -/
theorem Step.intake (i : Intake) : Step h sc .silent
    { sc with session := { sc.session with link := { sc.session.link with input := i } } } :=
  .serve ⟨rfl, rfl, rfl, rfl, List.prefix_refl _⟩

/-- A response without a result. -/
def acknowledgement (id : Nat) : Json := .obj [("id", .num (.int id)), ("result", .null)]

theorem sendable_acknowledgement {id : Nat} (hid : id < 10) :
    Frame.Sendable (acknowledgement id) := by
  interval_cases id
  all_goals exact ⟨rfl, by
    simp [acknowledgement, Json.Integral, Json.IntegralMembers, Json.Number.Fits],
    by decide, by decide +kernel⟩

/-- A request for something that no client offers. -/
def question : Json := .obj [("id", .null), ("method", .str "workspace/unknown")]

theorem sendable_question : Frame.Sendable question :=
  ⟨rfl, by simp [question, Json.Integral, Json.IntegralMembers], by decide, by decide +kernel⟩

theorem of?_question :
    Lsp.Incoming.of? question = some (.request .null "workspace/unknown" none) := rfl

/-! ### Frames of the client -/

theorem Step.take {rest : List WriterOrder} (hl : sc.session.writerEnded = false)
    (hw : sc.session.writing = none) (ho : sc.session.outbox = .send frame :: rest) :
    Step h sc .silent
      { sc with session := { sc.session with outbox := rest, writing := some frame } } := by
  have hb : sc.session.stepPart .writer = some (.quiet
      { sc.session with outbox := rest, writing := some frame } []) := by
    simp only [stepPart, stepWriter, hl, hw, ho, Bool.false_eq_true, if_false]
  have hs := Step.background (h := h) .writer hb
  have he : sc.session.eventOf .writer = .silent := by simp [eventOf, hw, ho]
  rwa [he] at hs

theorem Step.write (hl : sc.session.writerEnded = false) (hw : sc.session.writing = some frame)
    (hi : sc.session.link.input = .taken) :
    Step h sc .silent { sc with session := { sc.session with
      writing := none
      link := { sc.session.link with wire := sc.session.link.wire ++ [frame] } } } := by
  have hb : sc.session.stepPart .writer = some (.quiet { sc.session with
      writing := none
      link := { sc.session.link with wire := sc.session.link.wire ++ [frame] } } []) := by
    simp only [stepPart, stepWriter, hl, hw, Bool.false_eq_true, if_false]
    rw [hi]
  have hs := Step.background (h := h) .writer hb
  have he : sc.session.eventOf .writer = .silent := by simp [eventOf, hw, hi]
  rwa [he] at hs

/-- The session after the writer has written some frames and has nothing left in the outbox. -/
def written (s : Session) (frames : List Json) : Session :=
  { s with outbox := [], link := { s.link with wire := s.link.wire ++ frames } }

/-- **A server that reads gets all that is queued.** -/
theorem Run.writes {sc₀ : Scene} {es : List Event} {frames : List Json} (run : Run h sc₀ es sc)
    (hl : sc.session.writerEnded = false) (hw : sc.session.writing = none)
    (hi : sc.session.link.input = .taken) (ho : sc.session.outbox = frames.map .send) :
    ∃ es', (∀ e ∈ es', e = .silent) ∧
      Run h sc₀ (es ++ es') { sc with session := sc.session.written frames } := by
  induction frames generalizing sc es with
  | nil =>
    have hsame : sc.session.written [] = sc.session := by
      rw [written, List.append_nil, ← List.map_nil (f := WriterOrder.send), ← ho]
    refine ⟨[], List.forall_mem_nil _, ?_⟩
    rw [hsame, List.append_nil]
    exact run
  | cons frame frames ih =>
    have taken := run.tail (.take hl hw ho)
    have wrote : Run h sc₀ _ { sc with session := { sc.session with
        outbox := frames.map .send, writing := none
        link := { sc.session.link with wire := sc.session.link.wire ++ [frame] } } } :=
      taken.tail (.write hl rfl hi)
    obtain ⟨es', hes', run'⟩ := ih wrote hl rfl hi rfl
    have hsame : written { sc.session with
        outbox := frames.map .send, writing := none
        link := { sc.session.link with wire := sc.session.link.wire ++ [frame] } } frames =
        sc.session.written (frame :: frames) := by
      simp only [written, List.append_assoc, List.singleton_append]
      rw [← hw]
    refine ⟨.silent :: .silent :: es', ?_, ?_⟩
    · exact List.forall_mem_cons.mpr ⟨rfl, List.forall_mem_cons.mpr ⟨rfl, hes'⟩⟩
    · rw [← hsame]
      simpa only [List.append_assoc, List.singleton_append, List.cons_append, List.nil_append]
        using run'

/-! ### Operations on documents -/

section Documents

variable {a : DocumentAction} {after dropped : Documents}

/-- The events of an operation on documents that has the map at once, up to its frame. -/
def preparing (n : Nat) (a : DocumentAction) (frame : Json) (after : Documents) : List Event :=
  [.advanced n (.startDocument a) (.document a .queued),
    .advanced n (.document a .queued) (.document a .locked),
    .advanced n (.document a .locked) (.document a (.sending frame after))]

end Documents

/-! ### Requests of the server -/

section Requests

variable {id : Json} {method : String} {params : Option Json}

/-- A server can send a request, and there is room for the reply. -/
theorem Run.asks (hframe : Frame.Sendable frame)
    (hi : Lsp.Incoming.of? frame = some (.request id method params))
    (hr : sc.session.reader = .reading) (ha : sc.session.link.arrived = [])
    (hl : sc.session.writerEnded = false) (hroom : sc.session.outbox.length < outboxCapacity) :
    Run h sc [.silent, .read frame, .silent] { sc with session := { sc.session with
      outbox := sc.session.outbox ++ [.send (answer id method params).1] } } := by
  have hsent := Run.sends (h := h) hframe hr ha
  have hreads : (dispatch frame sc.session).session =
      { sc.session with reader := .replying (answer id method params).1 } := by
    simp [dispatch, hi, BackgroundStep.quiet]
  rw [hreads] at hsent
  have hb : stepPart .reader
      { sc.session with reader := .replying (answer id method params).1 } = some (.quiet
      { sc.session with
        outbox := sc.session.outbox ++ [.send (answer id method params).1], reader := .reading }
      []) := by
    simp only [stepPart, stepReader, enqueue, hl, hroom, if_true, if_false, Bool.false_eq_true]
  have hreplied := hsent.tail (.background .reader hb)
  have hsame : ({ sc.session with
      outbox := sc.session.outbox ++ [.send (answer id method params).1], reader := .reading } :
      Session) = { sc.session with
      outbox := sc.session.outbox ++ [.send (answer id method params).1] } := by
    rw [← hr]
  rw [← hsame]
  exact hreplied

/-- **A server that asks and asks fills the outbox** while the writer does not come to its turn. -/
theorem Run.crowds (hframe : Frame.Sendable frame)
    (hi : Lsp.Incoming.of? frame = some (.request id method params))
    (hr : sc.session.reader = .reading) (ha : sc.session.link.arrived = [])
    (hl : sc.session.writerEnded = false) {k : Nat}
    (hk : sc.session.outbox.length + k ≤ outboxCapacity) :
    ∃ es, Run h sc es { sc with session := { sc.session with
      outbox := sc.session.outbox ++ List.replicate k (.send (answer id method params).1) } } := by
  induction k with
  | zero =>
    refine ⟨[], ?_⟩
    simp only [List.replicate_zero, List.append_nil]
    exact .refl
  | succ k ih =>
    obtain ⟨es, run⟩ := ih (by omega)
    have hroom : (sc.session.outbox ++
        List.replicate k (WriterOrder.send (answer id method params).1)).length <
          outboxCapacity := by
      rw [List.length_append, List.length_replicate]
      omega
    rw [List.replicate_succ', ← List.append_assoc]
    exact ⟨_, run.trans (.asks hframe hi hr ha hl hroom)⟩

/-- A session whose writer has one frame in hand, which a full input has no room for, and the same
frame in every place of the outbox. -/
def crowded (s : Session) (reply : Json) : Session :=
  { s with
    outbox := List.replicate outboxCapacity (.send reply), writing := some reply
    link := { s.link with input := .full } }

/-- **A server that asks without end, and reads nothing, blocks the writer.** -/
theorem Run.blocks (hframe : Frame.Sendable frame)
    (hi : Lsp.Incoming.of? frame = some (.request id method params))
    (hr : sc.session.reader = .reading) (ha : sc.session.link.arrived = [])
    (hl : sc.session.writerEnded = false) (hw : sc.session.writing = none)
    (ho : sc.session.outbox = []) :
    ∃ es, Run h sc es { sc with session := sc.session.crowded (answer id method params).1 } := by
  set reply := (answer id method params).1
  have asked := Run.asks (h := h) hframe hi hr ha hl (by rw [ho]; decide)
  rw [ho, List.nil_append] at asked
  have taken : Step h { sc with session := { sc.session with outbox := [.send reply] } } .silent
      { sc with session := { sc.session with outbox := [], writing := some reply } } :=
    .take hl hw rfl
  obtain ⟨es, crowds⟩ := @Run.crowds h { sc with session := { sc.session with
      outbox := [], writing := some reply
      link := { sc.session.link with input := .full } } } frame id method params hframe hi hr ha hl
    outboxCapacity (by simp)
  exact ⟨_, ((asked.tail taken).tail (.intake .full)).trans crowds⟩

end Requests

/-! ### The handshake -/

/-- What a client writes to shake hands. -/
def greetings (h : Host) (key : SessionKey) (uri : Uri) : List Json :=
  [Lsp.request 1 "initialize" (some (Lsp.initializeParams h.processId key.root uri)),
    Lsp.notification "initialized" (some (.obj []))]

/-- A session that has shaken hands, with nothing left to write. -/
def greeted (h : Host) (key : SessionKey) (server : String) (timeouts : Timeouts) (uri : Uri) :
    Session :=
  { launched key server timeouts none with
    state := .ready
    nextId := 2
    link := { Link.fresh none with wire := greetings h key uri } }

/-- Whether a step is one of a handshake, or of nobody. -/
def Event.greets : Event → Prop
  | .silent | .advanced _ (.handshake _) _ => True
  | _ => False

/-- A host can have a directory whose path has a URI. -/
theorem exists_rooted :
    ∃ (h : Host) (root : Uri), (⟨[0x2F]⟩ : Path).toUri? h.directory = some root :=
  ⟨{ (default : Host) with directory := ⟨[0x2F]⟩ }, _, rfl⟩

/-- **A server that answers the handshake makes the session ready.** -/
theorem exists_run_greeted {key : SessionKey} {uri : Uri} (server : String) (timeouts : Timeouts)
    (now : Nat) (hroot : key.root.toUri? h.directory = some uri) :
    ∃ before after, (∀ e ∈ before ++ after, e.greets) ∧
      Run h (.launched key server timeouts none now)
        (before ++ .read (acknowledgement 1) :: after)
        ⟨greeted h key server timeouts uri, [.finish], now⟩ := by
  have hbegin : (Session.launched key server timeouts none).stepOperation h now 0 .startHandshake =
      some ((Session.launched key server timeouts none).transition .beginHandshake,
        .handshake (.calling (initializeCall h
          ((Session.launched key server timeouts none).transition .beginHandshake) uri) .begin),
        []) := by
    simp [stepOperation, Operation.startHandshake, stepHandshake, Session.launched, transition,
      hroot]
  have launched : Run h (.launched key server timeouts none now) [] _ := .refl
  have called := launched.tail (.call .startHandshake rfl)
  have begun := called.tail (.advance 0 _ rfl hbegin)
  have numbered := begun.tail (.advance 0 _ rfl rfl)
  have registered := numbered.tail (.advance 0 _ rfl rfl)
  have waits := registered.tail (.advance 0 _ rfl rfl)
  have heard := waits.trans (.sends (sendable_acknowledgement (by decide : 1 < 10)) rfl rfl)
  have finished := heard.tail (.advance 0 _ rfl rfl)
  have answered := finished.tail (.advance 0 _ rfl rfl)
  have notifying := answered.tail (.advance 0 _ rfl rfl)
  have ready : Run h (.launched key server timeouts none now) _ ⟨{
      Session.launched key server timeouts none with
      state := .ready, nextId := 2, outbox := (greetings h key uri).map .send }, [.finish], now⟩ :=
    notifying.tail (.advance 0 _ rfl rfl)
  obtain ⟨es, hes, run⟩ := ready.writes rfl rfl rfl rfl
  simp only [List.nil_append, List.cons_append] at run
  refine ⟨[_, _, _, _, _, _], _ :: _ :: _ :: _ :: es, ?_, run⟩
  -- a handshake moves by itself, and the writer and the server are silent
  intro e he
  simp only [List.cons_append, List.nil_append, List.mem_cons] at he
  rcases he with rfl | rfl | rfl | rfl | rfl | rfl | rfl | rfl | rfl | rfl | he
  all_goals first | trivial | (rw [hes e he]; trivial)

/-- The reply to `question`. -/
def refusal : Json := (answer .null "workspace/unknown" none).1

/-- **A server that asks without end once it has shaken hands** blocks the writer of a session that
is ready. -/
theorem exists_run_crowded {key : SessionKey} {uri : Uri} (server : String) (timeouts : Timeouts)
    (now : Nat) (hroot : key.root.toUri? h.directory = some uri) :
    ∃ es, Run h (.launched key server timeouts none now) es
      ⟨(greeted h key server timeouts uri).crowded refusal, [.finish], now⟩ := by
  obtain ⟨before, after, -, ready⟩ := exists_run_greeted server timeouts now hroot
  obtain ⟨es, blocked⟩ := @Run.blocks h ⟨greeted h key server timeouts uri, [.finish], now⟩
    question .null "workspace/unknown" none sendable_question of?_question rfl rfl rfl rfl rfl
  exact ⟨_, ready.trans blocked⟩

end Session

end LanguageHub
