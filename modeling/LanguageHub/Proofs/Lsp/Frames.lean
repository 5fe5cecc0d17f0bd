import LanguageHub.Session.Background

/-!
# Reading frames back

What a receiver finds in the frames that this library builds. The members of a built
object are put in order, and a look-up in it finds **the last member of a name** that went
into it (`Json.get?_object`). So a request is sorted as a request whatever its method and
its parameters are, a notification as a notification, and a reply to the server is neither
of the two.
-/

namespace LanguageHub

namespace Json

theorem find?_insertMember (k q : String) (v : Json) (members : List (String × Json)) :
    (insertMember k v members).find? (·.1 == q) =
      if k = q then some (k, v) else members.find? (·.1 == q) := by
  induction members with
  | nil =>
    by_cases hq : k = q
    · simp [insertMember, hq]
    · simp [insertMember, hq]
  | cons m rest ih =>
    obtain ⟨k', v'⟩ := m
    simp only [insertMember]
    split
    · by_cases hq : k = q
      · simp [hq]
      · simp [hq]
    · split
      · next hk =>
        subst hk
        by_cases hq : k = q
        · simp [hq]
        · simp [hq]
      · next hk =>
        by_cases hq : k' = q
        · subst hq
          simp [hk]
        · simp [hq, ih]

/-- **A built object has the last member of a name.** -/
theorem get?_object (members : List (String × Json)) (q : String) :
    (object members).get? q = (members.reverse.find? (·.1 == q)).map (·.2) := by
  have hfold : ∀ ms : List (String × Json),
      (ms.reverse.foldl (fun acc m => insertMember m.1 m.2 acc) []).find? (·.1 == q) =
        ms.find? (·.1 == q) := by
    intro ms
    induction ms with
    | nil => rfl
    | cons m rest ih =>
      rw [List.reverse_cons, List.foldl_append]
      simp only [List.foldl_cons, List.foldl_nil, find?_insertMember, ih]
      obtain ⟨k, v⟩ := m
      by_cases hq : k = q
      · simp [hq]
      · simp [hq]
  have h := hfold members.reverse
  rw [List.reverse_reverse] at h
  simp only [object, get?, h]

@[simp]
theorem get?_obj_nil (q : String) : (obj []).get? q = none := rfl

@[simp]
theorem get?_obj_cons (k q : String) (v : Json) (rest : List (String × Json)) :
    (obj ((k, v) :: rest)).get? q = if k = q then some v else (obj rest).get? q := by
  by_cases hq : k = q
  · simp [get?, hq]
  · simp [get?, hq]

end Json

namespace Lsp

variable (id : Nat) (method : String) (params : Option Json)

theorem get?_notification (q : String) : (notification method params).get? q =
    if q = "params" then params else if q = "method" then some (.str method)
      else if q = "jsonrpc" then some (.str "2.0") else none := by
  unfold notification
  rw [Json.get?_object]
  cases params with
  | none =>
    by_cases hp : q = "params"
    · simp [jsonrpc, hp]
    · by_cases hm : q = "method"
      · simp [jsonrpc, hm]
      · by_cases hj : q = "jsonrpc"
        · simp [jsonrpc, hj]
        · simp [jsonrpc, hp, hm, hj, Ne.symm hm, Ne.symm hj]
  | some p =>
    by_cases hp : q = "params"
    · simp [jsonrpc, hp]
    · by_cases hm : q = "method"
      · simp [jsonrpc, hm]
      · by_cases hj : q = "jsonrpc"
        · simp [jsonrpc, hj]
        · simp [jsonrpc, hp, hm, hj, Ne.symm hp, Ne.symm hm, Ne.symm hj]

/-- A notification is sorted as what it is. -/
theorem incoming_notification :
    Incoming.of? (notification method params) = some (.notification method params) := by
  simp [Incoming.of?, get?_notification, Json.str?]

theorem get?_request_id : (request id method params).get? "id" = some (.ofNat id) := by
  unfold request
  rw [Json.get?_object]
  cases params <;> simp [jsonrpc]

theorem get?_request_method : (request id method params).get? "method" = some (.str method) := by
  unfold request
  rw [Json.get?_object]
  cases params <;> simp [jsonrpc]

theorem get?_request_params : (request id method params).get? "params" = params := by
  unfold request
  rw [Json.get?_object]
  cases params <;> simp [jsonrpc]

/-- A request is sorted as what it is, whatever its method. -/
theorem incoming_request :
    Incoming.of? (request id method params) = some (.request (.ofNat id) method params) := by
  simp [Incoming.of?, get?_request_id, get?_request_method, get?_request_params, Json.str?]

/-- A frame without a method, such as a reply to a request of the server. -/
def IsReply (frame : Json) : Prop :=
  frame.get? "method" = none ∧ (frame.get? "id").isSome = true

/-- The reply of a client has no method, whatever the request was. -/
theorem isReply_answer (id : Json) : IsReply (Session.answer id method params).1 := by
  have hr : ∀ result, IsReply (reply id result) := fun result => by
    simp [IsReply, reply, Json.get?_object, jsonrpc]
  have he : ∀ code message, IsReply (replyError id code message) := fun code message => by
    simp [IsReply, replyError, Json.get?_object, jsonrpc]
  unfold Session.answer
  split
  · exact hr _
  · split
    · exact hr _
    · exact he _ _

/-- A reply is no request and no notification. -/
theorem IsReply.incoming {frame : Json} (h : IsReply frame) :
    Incoming.of? frame = none ∨ ∃ n body, Incoming.of? frame = some (.response n body) := by
  obtain ⟨hm, hi⟩ := h
  obtain ⟨id, hid⟩ := Option.isSome_iff_exists.mp hi
  simp only [Incoming.of?, hid, hm, Option.bind_eq_bind, Option.bind_none]
  split
  · cases hu : id.u64? with
    | none => exact .inl rfl
    | some n => exact .inr ⟨n, frame, rfl⟩
  · exact .inl rfl

end Lsp

end LanguageHub
