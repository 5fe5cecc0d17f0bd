import LanguageHub.Proofs.Lsp.Shapes
import LanguageHub.Proofs.Manager.Isolation
import LanguageHub.Proofs.Session.Settling

/-!
# A search in one session

A search for symbols asks several sessions at once, each by a query of its own. What has passed
between a search and one session is their `Exchange`: the session as it was when its query started,
and as it was when the request came to the outbox, what was put into the outbox, and the responses
that were taken. It is an observation: no stage of a search looks at it.

The exchange and the operation of the query go together (`Exchange.Follows`), stage by stage
(`Exchange.Follows.step`). So there are three ways for a query to end (`Exchange.Settled`). The
session had ended before; its writer had ended when the request came to the outbox; or the session
got **one request**, and its answer gives the symbols that the query yields.

A query that cannot go on waits for a place in the outbox, which the writer makes as soon as the
server reads, or for its answer, and then no longer than to its deadline
(`Session.stepQuery_eq_none`).
-/

namespace LanguageHub

/-! ### What passes between a search and a session -/

/-- **What has passed between a search and one session.** -/
structure Exchange where
  /-- The session when its query started, -/
  starts : List Session
  /-- and when the outbox took the request or refused it. -/
  offers : List Session
  /-- What the search has put into the outbox. -/
  queued : List WriterOrder
  /-- The responses that the search has taken, with the numbers of their requests. -/
  heard : List (Nat × Json)

/-- Whether the request of an operation is for the outbox. -/
def Operation.offers : Operation → Bool
  | .query _ _ (some (_, .registered _)) => true
  | _ => false

/-- The request that asks for the symbols of a query. -/
def searchFrame (id : Nat) (query : String) : WriterOrder :=
  .send (Lsp.request id "workspace/symbol" (some (.obj [("query", .str query)])))

/-- The symbols that a response gives; an error gives none, and neither does an answer that cannot
be decoded. -/
def symbolsIn (body : Json) : List Lsp.SymbolInformation :=
  match body.get? "error" with
  | some _ => []
  | none => (Lsp.SymbolResponse.symbolsOf? ((body.get? "result").getD .null)).getD []

namespace Exchange

variable {query : String} {cancelAt : Option Nat} {s s' : Session} {op op' : Operation}
  {x : Exchange} {h : Host} {now id : Nat} {log : List LogEntry}

/-- Nothing has passed. -/
def nothing : Exchange := ⟨[], [], [], []⟩

/-- What passes first, and then. -/
def append (x y : Exchange) : Exchange :=
  ⟨x.starts ++ y.starts, x.offers ++ y.offers, x.queued ++ y.queued, x.heard ++ y.heard⟩

/-- The symbols in the responses. -/
def symbols (x : Exchange) : List Lsp.SymbolInformation := x.heard.flatMap fun y => symbolsIn y.2

/-- What passes in one stage of a search that has an operation on the session before it and after
it, or none. -/
def ofStage (s s' : Session) (op op' : Option Operation) : Exchange where
  starts := if op.any (·.isFresh) && !op'.any (·.isFresh) then [s] else []
  offers := if op.any (·.offers) && !op'.any (·.offers) then [s] else []
  queued := s'.outbox.drop s.outbox.length
  heard := match op, op' with
    | some (.query _ _ (some (_, .waiting id _))), some (.query _ _ (some (_, .finished _))) =>
      (s.response? id).toList.map fun body => (id, body)
    | _, _ => []

theorem append_nothing (x : Exchange) : x.append nothing = x := by
  simp [append, nothing]

/-- Nothing passes when another session has its turn. -/
theorem ofStage_self (s : Session) (op : Option Operation) : ofStage s s op op = nothing := by
  unfold ofStage nothing
  simp only [Bool.and_not_self, Bool.false_eq_true, if_false, List.drop_length]

/-- Nothing passes when a search is over. -/
theorem ofStage_none (hr : op.result?.isSome = true) : ofStage s s (some op) none = nothing := by
  cases op with
  | returned r => simp [ofStage, nothing, Operation.isFresh, Operation.offers]
  | _ => cases hr

/-! ### The stages of a query -/

/-- **How the query of a search can have ended** in a session. -/
inductive Settled (query : String) : Exchange → Prop
  /-- The session had ended before the query started. -/
  | ended (s : Session) : s.state ≠ .ready → Settled query ⟨[s], [], [], []⟩
  /-- Its writer had ended before the request came to the outbox. -/
  | refused (s s' : Session) : s.state = .ready → s'.writerEnded = true →
      Settled query ⟨[s], [s'], [], []⟩
  /-- The session got one request, and gave an answer or none. -/
  | asked (s s' : Session) (id : Nat) (body : Option Json) : s.state = .ready →
      s'.writerEnded = false → Settled query
        ⟨[s], [s'], [searchFrame id query], body.toList.map fun b => (id, b)⟩

/-- **How far the query of a search has come in a session**, and what has passed. -/
inductive Follows (query : String) (cancelAt : Option Nat) : Operation → Exchange → Prop
  | fresh : Follows query cancelAt (.startQuery (.workspaceSymbols query) cancelAt) nothing
  | numbered (s : Session) (id : Nat) : s.state = .ready → Follows query cancelAt
      (.query (.workspaceSymbols query) cancelAt
        (some (s.queryCall (.workspaceSymbols query) cancelAt, .numbered id))) ⟨[s], [], [], []⟩
  | registered (s : Session) (id : Nat) : s.state = .ready → Follows query cancelAt
      (.query (.workspaceSymbols query) cancelAt
        (some (s.queryCall (.workspaceSymbols query) cancelAt, .registered id)))
      ⟨[s], [], [], []⟩
  | waiting (s s' : Session) (c : Call) (id deadline : Nat) : s.state = .ready →
      s'.writerEnded = false → Follows query cancelAt
        (.query (.workspaceSymbols query) cancelAt (some (c, .waiting id deadline)))
        ⟨[s], [s'], [searchFrame id query], []⟩
  | failing (c : Call) (id : Nat) (e : LspError) {x : Exchange} : Settled query x →
      x.heard = [] → Follows query cancelAt
        (.query (.workspaceSymbols query) cancelAt (some (c, .failing id e))) x
  | failed (c : Call) (e : LspError) {x : Exchange} : Settled query x → x.heard = [] →
      Follows query cancelAt
        (.query (.workspaceSymbols query) cancelAt (some (c, .finished (.error e)))) x
  | answered (s s' : Session) (c : Call) (id : Nat) (body : Json) : s.state = .ready →
      s'.writerEnded = false → Follows query cancelAt
        (.query (.workspaceSymbols query) cancelAt (some (c, .finished (c.resultOf body))))
        ⟨[s], [s'], [searchFrame id query], [(id, body)]⟩
  | returned (r : Except LspError Outcome) {x : Exchange} : Settled query x →
      (∀ i, Manager.foundBy (i, .returned r) = x.symbols) →
      Follows query cancelAt (.returned r) x

/-- A session gets one request at most. -/
theorem Settled.queued (h : Settled query x) :
    x.queued = [] ∨ ∃ id, x.queued = [searchFrame id query] := by
  cases h with
  | ended | refused => exact .inl rfl
  | asked _ _ id => exact .inr ⟨id, rfl⟩

theorem Follows.queued (h : Follows query cancelAt op x) :
    x.queued = [] ∨ ∃ id, x.queued = [searchFrame id query] := by
  cases h with
  | fresh | numbered | registered => exact .inl rfl
  | waiting _ _ _ id | answered _ _ _ id => exact .inr ⟨id, rfl⟩
  | failing _ _ _ hx | failed _ _ hx | returned _ hx => exact hx.queued

theorem symbols_eq_nil (h : x.heard = []) : x.symbols = [] := by
  rw [symbols, h, List.flatMap_nil]

/-- What a query yields from a response are the symbols in it. -/
theorem foundBy_of_stepQuery {c : Call} {body : Json}
    (hs : s.stepQuery now (.workspaceSymbols query) cancelAt
      (some (c, .finished (c.resultOf body))) = some (s', op, log)) :
    s' = s ∧ ∃ r, op = .returned r ∧ ∀ i, Manager.foundBy (i, .returned r) = symbolsIn body := by
  cases herror : body.get? "error" with
  | some error =>
    rw [Call.resultOf, herror] at hs
    cases hs
    exact ⟨rfl, _, rfl, fun i => by rw [symbolsIn, herror]; rfl⟩
  | none =>
    have hsymbols : symbolsIn body = (((Lsp.Query.workspaceSymbols query).readResult
        ((body.get? "result").getD .null)).map fun v =>
          Lsp.SymbolResponse.flatten (Lsp.SymbolResponse.of? v)).getD [] := by
      rw [symbolsIn, herror, Lsp.Query.readResult_workspaceSymbols]
    rw [Call.resultOf, herror] at hs
    cases hread : (Lsp.Query.workspaceSymbols query).readResult
        ((body.get? "result").getD .null) with
    | some v =>
      simp only [Session.stepQuery, hread] at hs
      cases hs
      exact ⟨rfl, _, rfl, fun i => by rw [hsymbols, hread]; rfl⟩
    | none =>
      simp only [Session.stepQuery, hread] at hs
      cases hs
      exact ⟨rfl, _, rfl, fun i => by rw [hsymbols, hread]; rfl⟩

/-- What is put into the outbox in a stage comes to its end. -/
theorem ofStage_of_outbox {l : List WriterOrder} (hout : s'.outbox = s.outbox ++ l)
    (op op' : Option Operation) :
    ofStage s s' op op' = { ofStage s s' op op' with queued := l } := by
  simp [ofStage, hout]

/-- **One stage of a query**, and what passes in it. -/
theorem Follows.step (hx : Follows query cancelAt op x)
    (hs : s.stepOperation h now id op = some (s', op', log)) :
    Follows query cancelAt op' (x.append (ofStage s s' (some op) (some op'))) := by
  have hstep := Session.OperationStep.of_stepOperation hs
  -- most stages leave the outbox alone
  have silent (ho : s'.outbox = s.outbox) : ofStage s s' (some op) (some op') =
      { ofStage s s' (some op) (some op') with queued := [] } :=
    ofStage_of_outbox (by rw [ho, List.append_nil]) _ _
  cases hx with
  | fresh =>
    obtain _ | hq := hstep
    cases hq with
    | notReady hr =>
      rw [silent rfl]
      exact .returned _ (.ended s hr) fun _ => rfl
    | begin hr hc =>
      cases hc with
      | refuse ht =>
        rw [hr] at ht
        cases ht
      | number =>
        rw [silent rfl]
        exact .numbered s _ hr
  | numbered t k hr =>
    obtain _ | hq := hstep
    obtain _ | _ | hc := hq
    cases hc with
    | register =>
      rw [silent rfl]
      exact .registered t k hr
  | registered t k hr =>
    obtain _ | hq := hstep
    obtain _ | _ | hc := hq
    cases hc with
    | send _ hw =>
      rw [ofStage_of_outbox (show _ = s.outbox ++ [searchFrame k query] from rfl)]
      exact .waiting t s _ k _ hr hw
    | unsent _ hw =>
      rw [silent rfl]
      exact .failing _ k _ (.refused t s hr hw) rfl
  | waiting t u c k deadline hr hw =>
    obtain _ | hq := hstep
    obtain _ | _ | hc := hq
    cases hc with
    | answer _ _ body hb =>
      have hheard : (ofStage s (s.forget k)
          (some (.query (.workspaceSymbols query) cancelAt (some (c, .waiting k deadline))))
          (some (.query (.workspaceSymbols query) cancelAt
            (some (c, .finished (c.resultOf body)))))).heard = [(k, body)] := by
        simp [ofStage, hb]
      rw [silent rfl]
      simp only [append, hheard]
      exact .answered t u c k body hr hw
    | giveUp _ _ e =>
      rw [silent rfl]
      exact .failing c k e (.asked t u k none hr hw) rfl
  | failing c k e hx hheard =>
    obtain _ | hq := hstep
    obtain _ | _ | hc := hq
    cases hc with
    | fail =>
      rw [silent rfl]
      exact (append_nothing x).symm ▸ .failed c e hx hheard
  | failed c e hx hheard =>
    cases hs
    rw [silent rfl]
    exact (append_nothing x).symm ▸ .returned _ hx fun _ => (symbols_eq_nil hheard).symm
  | answered t u c k body hr hw =>
    obtain ⟨rfl, r, rfl, hfound⟩ := foundBy_of_stepQuery hs
    rw [silent rfl]
    exact .returned r (.asked t u k (some body) hr hw) fun i => by
      rw [hfound]
      exact (List.flatMap_singleton _ _).symm
  | returned r => cases hs

/-- **A query that has ended** yields the symbols in what the search has heard. -/
theorem Follows.settled (hx : Follows query cancelAt op x) (hr : op.result?.isSome = true) :
    Settled query x ∧ ∀ i, Manager.foundBy (i, op) = x.symbols := by
  cases hx with
  | returned r hs hf => exact ⟨hs, hf⟩
  | _ => cases hr

/-- An operation of a search that has not ended is its query. -/
theorem Follows.eq_query (hx : Follows query cancelAt op x) (hr : op.result? = none) :
    ∃ stage, op = .query (.workspaceSymbols query) cancelAt stage := by
  cases hx with
  | returned => cases hr
  | _ => exact ⟨_, rfl⟩

/-- A stage of a query moves neither the state of the session nor its documents. -/
theorem Follows.engaged (hx : Follows query cancelAt op x)
    (hs : s.stepOperation h now id op = some (s', op', log)) :
    s.Engaged s' ∧ s'.documents = s.documents := by
  cases hr : op.result? with
  | some r =>
    cases op with
    | returned => cases hs
    | _ => cases hr
  | none =>
    obtain ⟨stage, rfl⟩ := hx.eq_query hr
    obtain _ | hq := Session.OperationStep.of_stepOperation hs
    exact ⟨hq.proceeds.1.engaged, hq.proceeds.2⟩

end Exchange

/-! ### A query that waits -/

namespace Session

variable {s : Session} {now : Nat} {c : Call} {st : CallStage} {q : Lsp.Query}
  {cancelAt : Option Nat}

/-- Why a call cannot go on: its outbox is full, its answer may still come, or it has ended. -/
theorem stepCall_eq_none (h : s.stepCall now c st = none) :
    (∃ id, st = .registered id ∧
      s.enqueue (.send (Lsp.request id c.method c.params)) = .full) ∨
    (∃ id deadline, st = .waiting id deadline ∧ now < deadline) ∨ ∃ r, st = .finished r := by
  cases st with
  | begin =>
    simp only [stepCall] at h
    split at h <;> cases h
  | numbered id | failing id e => cases h
  | registered id =>
    simp only [stepCall] at h
    split at h
    · cases h
    · next hfull => exact .inl ⟨id, rfl, hfull⟩
    · cases h
  | waiting id deadline =>
    refine .inr (.inl ⟨id, deadline, rfl, ?_⟩)
    simp only [stepCall] at h
    split at h
    · cases h
    · by_contra hlate
      rw [if_pos (Nat.le_of_not_lt hlate)] at h
      split at h
      · cases h
      · split at h
        · cases h
        · split at h <;> cases h
  | finished r => exact .inr (.inr ⟨r, rfl⟩)

/-- **A query only waits** for a place in the outbox, or for its answer and not past its
deadline. -/
theorem stepQuery_eq_none {stage : Option (Call × CallStage)}
    (h : s.stepQuery now q cancelAt stage = none) :
    (∃ c id, stage = some (c, .registered id) ∧
      s.enqueue (.send (Lsp.request id c.method c.params)) = .full) ∨
    ∃ c id deadline, stage = some (c, .waiting id deadline) ∧ now < deadline := by
  cases stage with
  | none =>
    simp only [stepQuery] at h
    split at h
    · rcases stepCall_eq_none (Option.map_eq_none_iff.mp h) with
        ⟨_, hst, _⟩ | ⟨_, _, hst, _⟩ | ⟨_, hst⟩ <;> cases hst
    · cases h
  | some y =>
    obtain ⟨c, st⟩ := y
    by_cases hf : ∃ r, st = .finished r
    · obtain ⟨r | result, rfl⟩ := hf
      · cases h
      · simp only [stepQuery] at h
        split at h <;> cases h
    · have hcall : (s.stepCall now c st).map
          (fun x => (x.1, Operation.query q cancelAt (some (c, x.2.1)), x.2.2)) = none := by
        cases st with
        | finished r => exact absurd ⟨r, rfl⟩ hf
        | _ => exact h
      rcases stepCall_eq_none (Option.map_eq_none_iff.mp hcall) with
        ⟨id, rfl, hfull⟩ | ⟨id, deadline, rfl, hlt⟩ | hr
      · exact .inl ⟨c, id, rfl, hfull⟩
      · exact .inr ⟨c, id, deadline, rfl, hlt⟩
      · exact absurd hr hf

end Session

end LanguageHub
