import LanguageHub.Proofs.Lsp.Frames

/-!
# What a frame of a server is for

A frame of a server may be any JSON value. What it is for can be read off its members: it asks for a
reply (`Lsp.dueReply?`), it publishes diagnostics (`Lsp.duePublication?`), it ends the call of an
id (`Lsp.ends?`), or it is for nothing. The three **exclude** each other (`Lsp.dueReply?_exclusive`,
`Lsp.duePublication?_exclusive`), as one wants a method and an id, one a method without an id, and
one an id without a method.

These functions do not look at how the client sorts a frame. That it sorts frames accordingly is
what the lemmas on `Lsp.Incoming.of?` say.
-/

namespace LanguageHub.Lsp

/-- The method of a frame, if that is a string. -/
def methodOf? (frame : Json) : Option String := frame.get? "method" >>= Json.str?

/-- How many settings a frame asks for. -/
def itemCount (frame : Json) : Nat :=
  match frame.get? "params" >>= (·.get? "items") with
  | some (.arr items) => items.length
  | _ => 0

/-- The methods that are answered with null. -/
def nullMethods : List String :=
  ["client/registerCapability", "client/unregisterCapability", "window/workDoneProgress/create"]

/-- **The reply that a frame asks for**, if it has a method and an id of any kind. -/
def dueReply? (frame : Json) : Option Json :=
  match frame.get? "id", methodOf? frame with
  | some id, some method => some <|
    if method ∈ nullMethods then
      .obj [("id", id), ("jsonrpc", .str "2.0"), ("result", .null)]
    else if method = "workspace/configuration" then
      .obj [("id", id), ("jsonrpc", .str "2.0"),
        ("result", .arr (List.replicate (itemCount frame) .null))]
    else
      .obj [("error", .obj [("code", .num (.int (-32601))),
        ("message", .str ("Method not found: " ++ method))]), ("id", id), ("jsonrpc", .str "2.0")]
  | _, _ => none

/-- **The publication that a frame makes**, if it has no id. -/
def duePublication? (frame : Json) : Option Publication :=
  if frame.has "id" = false ∧ methodOf? frame = some "textDocument/publishDiagnostics" then
    frame.get? "params" >>= Publication.of?
  else none

/-- **The call that a frame ends**, if it has no method, and a result or an error. -/
def ends? (frame : Json) : Option Nat :=
  if methodOf? frame = none ∧ (frame.has "result" = true ∨ frame.has "error" = true) then
    frame.get? "id" >>= Json.u64?
  else none

variable {frame id : Json} {n : Nat} {p : Publication} {method : String} {params : Option Json}

/-! ### One frame, one effect -/

/-- Who asks for a reply neither publishes nor ends a call. -/
theorem dueReply?_exclusive {reply : Json} (h : dueReply? frame = some reply) :
    duePublication? frame = none ∧ ends? frame = none := by
  unfold dueReply? at h
  split at h
  · next hid hm => simp [duePublication?, ends?, Json.has, hid, hm]
  · cases h

/-- Who publishes ends no call. -/
theorem duePublication?_exclusive (h : duePublication? frame = some p) :
    dueReply? frame = none ∧ ends? frame = none := by
  unfold duePublication? at h
  split at h
  · next hm =>
    obtain ⟨hid, hm⟩ := hm
    have hid : frame.get? "id" = none := by simpa [Json.has] using hid
    simp [dueReply?, ends?, hid, hm]
  · cases h

/-! ### How the client sorts a frame -/

theorem reply_eq (id result : Json) : reply id result =
    .obj [("id", id), ("jsonrpc", .str "2.0"), ("result", result)] := by
  have hid : ("id" : String) < "jsonrpc" := by decide
  have hresult : ¬("result" : String) < "id" ∧ ¬("result" : String) < "jsonrpc" := by decide
  simp only [reply, jsonrpc, Json.object, List.foldl_cons, List.foldl_nil, Json.insertMember, hid,
    hresult, if_true, if_false, String.reduceEq]

theorem replyError_eq (id : Json) (code : Int) (message : String) : replyError id code message =
    .obj [("error", .obj [("code", .num (.int code)), ("message", .str message)]),
      ("id", id), ("jsonrpc", .str "2.0")] := by
  have hid : ("id" : String) < "jsonrpc" ∧ ("error" : String) < "id" := by decide
  have hmessage : ¬("message" : String) < "code" := by decide
  simp only [replyError, jsonrpc, Json.object, List.foldl_cons, List.foldl_nil, Json.insertMember,
    Json.ofInt, hid, hmessage, if_true, if_false, String.reduceEq]

/-- What ends a call neither asks for a reply nor publishes. -/
theorem ends?_exclusive (h : ends? frame = some n) :
    dueReply? frame = none ∧ duePublication? frame = none := by
  constructor
  · rw [Option.eq_none_iff_forall_ne_some]
    intro reply hr
    rw [(dueReply?_exclusive hr).2] at h
    cases h
  · rw [Option.eq_none_iff_forall_ne_some]
    intro p hp
    rw [(duePublication?_exclusive hp).2] at h
    cases h

/-- The client answers a request with the reply that it asks for. -/
theorem answer_eq (hid : frame.get? "id" = some id) (hm : methodOf? frame = some method) :
    dueReply? frame = some (Session.answer id method (frame.get? "params")).1 := by
  have hitems : ∀ items : Option (List Json), (items.getD []).map (fun _ => Json.null) =
      List.replicate (items.getD []).length .null := fun items => List.map_const' ..
  have hcount : itemCount frame =
      (((frame.get? "params" >>= (·.get? "items")) >>= Json.arr?).getD []).length := by
    unfold itemCount
    split
    · next items hi => simp [hi, Json.arr?]
    · next hi =>
      cases hj : frame.get? "params" >>= (·.get? "items") with
      | none => rfl
      | some j => cases j <;> first | rfl | exact absurd hj (hi _)
  simp only [dueReply?, hid, hm, Session.answer, hcount, hitems, nullMethods, List.mem_cons,
    List.not_mem_nil, or_false, apply_ite Prod.fst, reply_eq, replyError_eq, methodNotFound]

/-- A frame is sorted as a request if it has an id and a method. -/
theorem incoming_request_iff : Incoming.of? frame = some (.request id method params) ↔
    frame.get? "id" = some id ∧ methodOf? frame = some method ∧ frame.get? "params" = params := by
  unfold Incoming.of? methodOf?
  split
  · next hid hm => split <;> simp [hm]
  · next hid hm => simp [hid, hm]
  · next hid hm => simp [hid]
  · next hid hm => simp [hid]

/-- A frame is sorted as a notification if it has a method and no id. -/
theorem incoming_notification_iff : Incoming.of? frame = some (.notification method params) ↔
    frame.get? "id" = none ∧ methodOf? frame = some method ∧ frame.get? "params" = params := by
  unfold Incoming.of? methodOf?
  split
  · next hid hm => split <;> simp [hid]
  · next hid hm => simp [hid]
  · next hid hm => simp [hid, hm]
  · next hid hm => simp [hm]

/-- A frame is sorted as a response if it ends a call. -/
theorem incoming_response_iff {body : Json} :
    Incoming.of? frame = some (.response n body) ↔ body = frame ∧ ends? frame = some n := by
  unfold Incoming.of? ends? methodOf?
  split
  · next id hid hm =>
    by_cases hr : frame.has "result" = true ∨ frame.has "error" = true
    · cases hu : id.u64? with
      | none => simp [hm, hr, hid, hu]
      | some k =>
        simp only [hr, hm, hid, hu, Bool.or_eq_true, if_true, Option.map_some, true_and,
          Option.bind_eq_bind, Option.bind_some, Option.some.injEq, Incoming.response.injEq]
        exact ⟨fun ⟨hn, hb⟩ => ⟨hb.symm, hn⟩, fun ⟨hb, hn⟩ => ⟨hn, hb.symm⟩⟩
    · simp [hr]
  · next hid hm => simp [hm]
  · next hid hm => simp [hm]
  · next hid hm => simp [hid]

/-- What is sorted as nothing is for nothing. -/
theorem incoming_none (h : Incoming.of? frame = none) :
    dueReply? frame = none ∧ duePublication? frame = none ∧ ends? frame = none := by
  have hm : methodOf? frame = none := by
    rw [Option.eq_none_iff_forall_ne_some]
    intro method hm
    cases hid : frame.get? "id" with
    | none =>
      rw [incoming_notification_iff.mpr ⟨hid, hm, rfl⟩] at h
      cases h
    | some id =>
      rw [incoming_request_iff.mpr ⟨hid, hm, rfl⟩] at h
      cases h
  refine ⟨by simp [dueReply?, hm], by simp [duePublication?, hm], ?_⟩
  rw [Option.eq_none_iff_forall_ne_some]
  intro n hn
  rw [incoming_response_iff.mpr ⟨rfl, hn⟩] at h
  cases h

/-- The client publishes what a notification publishes. -/
theorem receive_eq (hid : frame.get? "id" = none) (hm : methodOf? frame = some method) :
    (Session.receive method (frame.get? "params")).1 = (duePublication? frame).toList := by
  unfold Session.receive duePublication?
  split
  · next hmethod =>
    subst hmethod
    rw [if_pos ⟨by simp [Json.has, hid], hm⟩]
    cases hp : frame.get? "params" with
    | none => rfl
    | some j => cases ho : Publication.of? j <;> simp [ho]
  · next hmethod =>
    have hnot : ¬(frame.has "id" = false ∧
        methodOf? frame = some "textDocument/publishDiagnostics") := by
      simp [hm, hmethod]
    rw [if_neg hnot]
    split
    · dsimp only
      split
      · split
        · rfl
        · split <;> rfl
      · rfl
    · rfl

end LanguageHub.Lsp
