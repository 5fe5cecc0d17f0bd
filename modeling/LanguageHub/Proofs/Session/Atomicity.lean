import LanguageHub.Proofs.Session.Correlation
import LanguageHub.Proofs.Session.Lock

/-!
# Operations on documents that fail

An opening or a change writes the map of documents only when its frame is queued, so that one that
returns an error has changed nothing. A closing takes its document out of the map **first**. When
the writer has ended and refuses the frame, the closing returns an error and the document is gone
(`Session.Drops`), while the server still has it open. The session may be live all the time: it
learns nothing of its writer.

What a caller did can be seen of the way it still goes. One that has queued its frame returns with
success, and one that has a frame in hand returns with an error only where the writer has ended
(`Session.Forsaken`). So a step that has changed something tells how its operation ends, and
`Session.failed_document_leaves` reads this backwards.
-/

namespace LanguageHub

namespace Session

/-- **What a closing that fails may do to the map**: its document was open, and is gone. -/
structure Drops (a : DocumentAction) (d d' : Documents) (uri : Uri) : Prop where
  action : a = .close uri
  isOpen : (d.version? uri.text).isSome = true
  erased : d' = d.erase uri.text

variable {h : Host} {sc sc' sc₁ sc₂ : Scene} {e : Event} {es es' : List Event} {s s' : Session}
  {n : Nat} {op op' : Operation} {a : DocumentAction} {st : DocumentStage} {d d' : Documents}
  {uri : Uri} {err : LspError}

/-- **A caller keeps what each of its stages keeps**, if the other steps of the run keep it too. -/
theorem Run.caller {P : Session → Operation → Prop} (r : Run h sc es sc')
    (hn : sc.callers[n]? = some op) (hp : P sc.session op)
    (hlater : ∀ {s s' op}, LeadsTo s s' → P s op → P s' op)
    (hstage : ∀ {now s s' op op'}, P s op → OperationStep h now n s op s' op' → P s' op') :
    ∃ op', sc'.callers[n]? = some op' ∧ P sc'.session op' := by
  induction r with
  | refl => exact ⟨op, hn, hp⟩
  | tail r hs ih =>
    obtain ⟨op₁, hn₁, hp₁⟩ := ih
    rcases hs.caller hn₁ with hn₂ | ⟨op₂, hn₂, hop⟩
    · exact ⟨op₁, hn₂, hlater hs.leadsTo hp₁⟩
    · exact ⟨op₂, hn₂, hstage hp₁ hop⟩

/-- What the opening, the change or the closing of a document can have come to: only a session that
has ended, or whose writer has, makes it fail, and always with the same error. -/
inductive Pursues (a : DocumentAction) (s : Session) : Operation → Prop
  | underway (st : DocumentStage) : Pursues a s (.document a st)
  | done : Pursues a s .finish
  | failed : s.state.isTerminal = true ∨ s.writerEnded = true → Pursues a s (.fail s.degraded)

theorem Pursues.leadsTo (hp : Pursues a s op) (hl : LeadsTo s s') : Pursues a s' op := by
  cases hp with
  | underway st => exact .underway st
  | done => exact .done
  | failed hend =>
    rw [← hl.degraded]
    exact .failed (hend.imp hl.isTerminal hl.writerEnded)

theorem Pursues.step {now : Nat} (hp : Pursues a s op) (ha : ∀ uri, a ≠ .query uri)
    (hs : OperationStep h now n s op s' op') : Pursues a s' op' := by
  cases hp with
  | done | failed => cases hs
  | underway st =>
    cases hs with
    | document hd =>
      cases hd with
      | begin | lock => exact .underway _
      | locked hl =>
        cases hl with
        | ask uri hq => exact absurd hq (ha uri)
        | ended _ ht => exact .failed (.inl ht)
        | openNew | change => exact .underway _
        | close uri v ht hc =>
          subst hc
          exact .underway _
        | absent => exact .done
      | send => exact .done
      | unsent frame after hw => exact .failed (.inr hw)

/-- **A frame in hand is queued, or the writer has ended**, and only then does its caller return an
error. -/
inductive Forsaken (s : Session) : Operation → Prop
  | holds (a : DocumentAction) (frame : Json) (after : Documents) :
      Forsaken s (.document a (.sending frame after))
  | done : Forsaken s .finish
  | failed (e : LspError) : s.writerEnded = true → Forsaken s (.fail e)

theorem Forsaken.leadsTo (hf : Forsaken s op) (hl : LeadsTo s s') : Forsaken s' op := by
  cases hf with
  | holds a frame after => exact .holds a frame after
  | done => exact .done
  | failed e hw => exact .failed e (hl.writerEnded hw)

theorem Forsaken.step {now : Nat} (hf : Forsaken s op) (hs : OperationStep h now n s op s' op') :
    Forsaken s' op' := by
  cases hf with
  | done | failed => cases hs
  | holds a frame after =>
    cases hs with
    | document hd =>
      cases hd with
      | send => exact .done
      | unsent _ _ hw => exact .failed _ hw

/-- **Whoever has a frame in hand and fails** has met a writer that has ended. -/
theorem Run.writerEnded_of_failed (r : Run h sc es sc') {frame : Json} {after : Documents}
    (hn : sc.callers[n]? = some (.document a (.sending frame after)))
    (hr : sc'.callers[n]? = some (.returned (.error err))) : sc'.session.writerEnded = true := by
  obtain ⟨op, hn', hf⟩ := r.caller hn (Forsaken.holds (s := sc.session) a frame after)
    (fun hl hf => hf.leadsTo hl) (fun hf hs => hf.step hs)
  rw [hr] at hn'
  cases hn'
  cases hf with
  | failed _ hw => exact hw

/-- Whoever has returned stays so. -/
theorem Run.returned (r : Run h sc es sc') {res : Except LspError Outcome}
    (hn : sc.callers[n]? = some (.returned res)) : sc'.callers[n]? = some (.returned res) := by
  obtain ⟨op, hn', rfl⟩ := r.caller hn (P := fun _ op => op = .returned res) rfl
    (fun _ hp => hp) (by rintro _ _ _ _ _ rfl hs; cases hs)
  exact hn'

/-! ### What a stage changes -/

/-- **A stage of an operation on a document** changes nothing, or it sends its frame and the
operation ends well, or it takes a document out of the map and has a frame in hand. -/
theorem DocumentStep.changes (hs : DocumentStep n a s st s' op) :
    (s'.frames = s.frames ∧ s'.documents = s.documents) ∨ op = .finish ∨
    (s'.frames = s.frames ∧ s.state.isTerminal = false ∧
      (∃ uri, Drops a s.documents s'.documents uri) ∧
      ∃ frame after, op = .document a (.sending frame after)) := by
  cases hs with
  | begin | lock | unsent => exact .inl ⟨rfl, rfl⟩
  | send => exact .inr (.inl rfl)
  | locked hl =>
    cases hl with
    | close uri v ht ha hv =>
      refine .inr (.inr ⟨rfl, ht, ⟨uri, ha, ?_, rfl⟩, ?_⟩)
      · rw [hv]
        rfl
      · subst ha
        exact ⟨_, _, rfl⟩
    | _ => exact .inl ⟨rfl, rfl⟩

/-- **A stage of an operation that is going to fail** queues no frame, and leaves the map as it is
unless it drops a document that the writer will not let it close. -/
theorem Step.of_failing {op₁ op₂ : Operation} (hs : Step h sc₁ (.advanced n op₁ op₂) sc₂)
    (hp : ∀ op, sc₁.callers[n]? = some op → Pursues a sc₁.session op)
    (r : Run h sc₂ es sc') (hr : sc'.callers[n]? = some (.returned (.error err))) :
    sc₂.session.frames = sc₁.session.frames ∧
      (sc₂.session.documents = sc₁.session.documents ∨
        sc₁.session.state.isTerminal = false ∧ sc'.session.writerEnded = true ∧
          ∃ uri, Drops a sc₁.session.documents sc₂.session.documents uri) := by
  obtain ⟨s', hn, hop, rfl⟩ := hs.of_advanced
  have hn₂ := getElem?_set_of_getElem? hn op₂
  cases hp op₁ hn with
  | done | failed => cases hop
  | underway st =>
    cases hop with
    | document hd =>
      rcases hd.changes with ⟨hf, hdoc⟩ | rfl | ⟨hf, ht, hdrop, frame, after, rfl⟩
      · exact ⟨hf, .inl hdoc⟩
      · -- an operation that ends well stays so
        rw [r.returned hn₂] at hr
        cases hr
      · exact ⟨hf, .inr ⟨ht, r.writerEnded_of_failed hn₂ hr, hdrop⟩⟩

/-! ### Alone with the map -/

end Session

end LanguageHub
