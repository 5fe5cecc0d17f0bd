import LanguageHub.Proofs.Session.Run
import Mathlib.Data.List.Nodup
import Mathlib.Logic.Function.Basic

/-!
# Ids of calls

Every operation makes at most one call, and `Operation.call?` is the call with the stage
it has reached. `Session.CallView` reduces a stage of any operation to what it does to
calls: it is a stage of the call, it starts the call, it has nothing to do with calls, or
it clears the table.

`Session.Numbered` is the invariant of ids. Each id is given once, so two calls never
share one; an id enters the table after it was given and its request is queued after that,
so **the ids of the requests that were queued are distinct**
(`Session.Numbered.requests_nodup`).
-/

namespace LanguageHub

/-- The call of an operation, with its stage. -/
def Operation.call? : Operation → Option (Call × CallStage)
  | .handshake (.calling c st) => some (c, st)
  | .query _ _ stage => stage
  | .dispose (.calling c st) => some (c, st)
  | _ => none

namespace CallStage

/-- The id of a call, as long as it needs it. -/
def id? : CallStage → Option Nat
  | .numbered id | .registered id | .waiting id _ | .failing id _ => some id
  | _ => none

/-- What a call has come to: it has failed, if only its id is still to be taken out of the table,
or it has finished. -/
def verdict? : CallStage → Option (Except LspError Json)
  | .failing _ e => some (.error e)
  | .finished r => some r
  | _ => none

end CallStage

namespace Lsp

/-- The id of a request. -/
def requestId? (frame : Json) : Option Json :=
  match Incoming.of? frame with
  | some (.request id _ _) => some id
  | _ => none

/-- The ids of the requests among some frames. -/
def requestIds (frames : List Json) : List Json := frames.filterMap requestId?

@[simp]
theorem requestIds_append (fs gs : List Json) :
    requestIds (fs ++ gs) = requestIds fs ++ requestIds gs := List.filterMap_append

theorem requestIds_request (id : Nat) (method : String) (params : Option Json) :
    requestIds [request id method params] = [.ofNat id] := by
  simp [requestIds, requestId?, incoming_request]

theorem requestIds_notification (method : String) (params : Option Json) :
    requestIds [notification method params] = [] := by
  simp [requestIds, requestId?, incoming_notification]

theorem requestIds_reply {frame : Json} (h : IsReply frame) : requestIds [frame] = [] := by
  rcases h.incoming with hf | ⟨n, body, hf⟩ <;> simp [requestIds, requestId?, hf]

end Lsp

namespace Session

variable {s s' : Session} {now n id : Nat} {c : Call} {st st' : CallStage} {op op' : Operation}

/-! ### What a stage does to calls -/

/-- Nothing has happened to the calls of a session, and no request was queued. -/
structure Untouched (s s' : Session) : Prop where
  nextId : s'.nextId = s.nextId
  pending : s'.pending = s.pending
  delivered : s'.delivered = s.delivered
  requests : Lsp.requestIds s'.frames = Lsp.requestIds s.frames

theorem Untouched.refl (s : Session) : Untouched s s := ⟨rfl, rfl, rfl, rfl⟩

/-- The verdict of a call stands. -/
theorem CallStep.verdict? {r : Except LspError Json} (h : CallStep now c s st s' st')
    (hr : st.verdict? = some r) : st'.verdict? = some r := by
  cases h with
  | fail => exact hr
  | _ => cases hr

/-- **What a stage of an operation does to calls.** -/
inductive CallView (now : Nat) (s : Session) (op : Operation) (s' : Session) (op' : Operation) :
    Prop
  | stage (c : Call) (st st' : CallStage) : op.call? = some (c, st) → op'.call? = some (c, st') →
      op'.isFresh = false → CallStep now c s st s' st' → CallView now s op s' op'
  /-- A query starts its call at once. -/
  | start (c : Call) (st' : CallStage) : op.isFresh = true → op.call? = none →
      op'.call? = some (c, st') → op'.isFresh = false → CallStep now c s .begin s' st' →
      CallView now s op s' op'
  | begin (c : Call) : op.isFresh = true → op.call? = none → op'.call? = some (c, .begin) →
      op'.isFresh = false → Untouched s s' → CallView now s op s' op'
  | apart : op ≠ .dispose .clearing → op'.call? = none → op'.isFresh = false →
      (∀ c st, op.call? = some (c, st) → st.verdict?.isSome = true) →
      Untouched s s' → CallView now s op s' op'
  | clear : op = .dispose .clearing → op' = .finish → s' = { s with pending := [] } →
      CallView now s op s' op'

/-- What an operation on documents has for the outbox is a notification. -/
def Notifies (op : Operation) : Prop :=
  ∀ a frame after, op = .document a (.sending frame after) →
    ∃ method params, frame = Lsp.notification method params

theorem Untouched.of_notification (method : String) (params : Option Json)
    (hn : s'.nextId = s.nextId) (hp : s'.pending = s.pending) (hd : s'.delivered = s.delivered)
    (hf : s'.frames = s.frames ++ [Lsp.notification method params]) : Untouched s s' := by
  refine ⟨hn, hp, hd, ?_⟩
  rw [hf, Lsp.requestIds_append, Lsp.requestIds_notification, List.append_nil]

/-- An operation that has no call does nothing to the calls. -/
theorem CallView.silent (hop : op ≠ .dispose .clearing) (hc : op.call? = none)
    (hc' : op'.call? = none) (hf : op'.isFresh = false) (hu : Untouched s s') :
    CallView now s op s' op' := by
  refine .apart hop hc' hf (fun c st hcall => ?_) hu
  rw [hc] at hcall
  exact absurd hcall (Option.some_ne_none (c, st)).symm

theorem CallView.of_handshakeStep {h : Host} {stage : HandshakeStage}
    (hs : HandshakeStep h now s stage s' op') : CallView now s (.handshake stage) s' op' := by
  cases hs with
  | begin uri => exact .begin _ rfl rfl rfl rfl ⟨rfl, rfl, rfl, rfl⟩
  | rootless => exact .silent (by simp) rfl rfl rfl ⟨rfl, rfl, rfl, rfl⟩
  | call hc => exact .stage _ _ _ rfl rfl rfl hc
  | answered c result => exact .apart (by simp) rfl rfl (fun _ _ hc => by cases hc; rfl) (.refl s)
  | unanswered c e => exact .apart (by simp) rfl rfl (fun _ _ hc => by cases hc; rfl) (.refl s)
  | ended => exact .silent (by simp) rfl rfl rfl (.refl s)
  | notify => exact .silent (by simp) rfl rfl rfl (.refl s)
  | complete =>
    refine .silent (by simp) rfl rfl rfl ?_
    exact .of_notification "initialized" (some (.obj [])) rfl rfl rfl (frames_of_send rfl rfl rfl)
  | unsent => exact .silent (by simp) rfl rfl rfl (.refl s)
  | fail e => exact .silent (by simp) rfl rfl rfl ⟨rfl, rfl, rfl, rfl⟩

theorem CallView.of_queryStep {q : Lsp.Query} {cancelAt : Option Nat}
    {stage : Option (Call × CallStage)} (hs : QueryStep now q cancelAt s stage s' op') :
    CallView now s (.query q cancelAt stage) s' op' := by
  cases hs with
  | notReady => exact .silent (by simp) rfl rfl rfl (.refl s)
  | begin _ hc => exact .start _ _ rfl rfl rfl rfl hc
  | call hc => exact .stage _ _ _ rfl rfl rfl hc
  | answered c r r' => exact .apart (by simp) rfl rfl (fun _ _ hc => by cases hc; rfl) (.refl s)

theorem CallView.of_documentStep {a : DocumentAction} {stage : DocumentStage}
    (hn : Notifies (.document a stage)) (hs : DocumentStep n a s stage s' op') :
    CallView now s (.document a stage) s' op' := by
  cases hs with
  | begin => exact .silent (by simp) rfl rfl rfl ⟨rfl, rfl, rfl, rfl⟩
  | lock => exact .silent (by simp) rfl rfl rfl (.refl s)
  | locked hl =>
    cases hl <;> exact .silent (by simp) rfl rfl rfl ⟨rfl, rfl, rfl, rfl⟩
  | send frame after =>
    obtain ⟨method, params, rfl⟩ := hn a frame after rfl
    refine .silent (by simp) rfl rfl rfl ?_
    exact .of_notification method params rfl rfl rfl (frames_of_send rfl rfl rfl)
  | unsent => exact .silent (by simp) rfl rfl rfl ⟨rfl, rfl, rfl, rfl⟩

theorem CallView.of_disposeStep {stage : DisposeStage} (hs : DisposeStep now s stage s' op') :
    CallView now s (.dispose stage) s' op' := by
  cases hs with
  | graceful => exact .begin _ rfl rfl rfl rfl ⟨rfl, rfl, rfl, rfl⟩
  | call hc => exact .stage _ _ _ rfl rfl rfl hc
  | answered c result => exact .apart (by simp) rfl rfl (fun _ _ hc => by cases hc; rfl) (.refl s)
  | unanswered c e => exact .apart (by simp) rfl rfl (fun _ _ hc => by cases hc; rfl) (.refl s)
  | exit =>
    refine .silent (by simp) rfl rfl rfl ?_
    exact .of_notification "exit" none rfl rfl rfl (frames_of_send rfl rfl rfl)
  | close =>
    exact .silent (by simp) rfl rfl rfl
      ⟨rfl, rfl, rfl, congrArg Lsp.requestIds (frames_of_shutdown rfl rfl rfl)⟩
  | clear => exact .clear rfl rfl rfl
  | _ => exact .silent (by simp) rfl rfl rfl ⟨rfl, rfl, rfl, rfl⟩

/-- **Every stage of an operation is one of these to the calls.** -/
theorem CallView.of_operationStep {h : Host} (hn : Notifies op)
    (hs : OperationStep h now n s op s' op') : CallView now s op s' op' := by
  cases hs with
  | handshake hs => exact .of_handshakeStep hs
  | query hs => exact .of_queryStep hs
  | document hs => exact .of_documentStep hn hs
  | dispose hs => exact .of_disposeStep hs

/-- A call that has no verdict yet can only take a stage of its own. -/
theorem CallView.callStep (hv : CallView now s op s' op') (ho : op.call? = some (c, st))
    (hst : st.verdict? = none) :
    ∃ st', op'.call? = some (c, st') ∧ op'.isFresh = false ∧ CallStep now c s st s' st' := by
  cases hv with
  | stage d st₁ st' hd hd' hf hs =>
    obtain ⟨rfl, rfl⟩ := Prod.mk.inj (Option.some.inj (ho.symm.trans hd))
    exact ⟨st', hd', hf, hs⟩
  | start d st' _ hd | begin d _ hd => simp [ho] at hd
  | apart _ _ _ hverdict => simpa [hst] using hverdict c st ho
  | clear hd =>
    rw [hd] at ho
    cases ho

theorem notifies_of_isFresh (h : op.isFresh = true) : Notifies op := by
  rintro a frame after rfl
  cases h

/-- What a stage prepares for the outbox, outside of calls, is a notification. -/
theorem OperationStep.notifies {h : Host} (hs : OperationStep h now n s op s' op') :
    Notifies op' := by
  rintro a frame after rfl
  cases hs with
  | document hs =>
    cases hs with
    | locked hl =>
      cases hl with
      | openNew | change | close => exact ⟨_, _, rfl⟩
  | handshake hs => cases hs
  | query hs => cases hs
  | dispose hs => cases hs

/-! ### The invariant of ids -/

/-- The calls of the callers, by their numbers. -/
abbrev CallOps := Nat → Option (Call × CallStage)

/-- **Ids are given once**, and used in order: given, put into the table, sent. -/
structure Numbered (s : Session) (calls : CallOps) : Prop where
  below : ∀ {n c st id}, calls n = some (c, st) → st.id? = some id → id < s.nextId
  unique : ∀ {m n c d st st' id}, calls m = some (c, st) → calls n = some (d, st') →
    st.id? = some id → st'.id? = some id → m = n
  pending_lt : ∀ id ∈ s.pending, id < s.nextId
  delivered_lt : ∀ x ∈ s.delivered, x.1 < s.nextId
  unregistered : ∀ {n c id}, calls n = some (c, .numbered id) →
    id ∉ s.pending ∧ ∀ x ∈ s.delivered, x.1 ≠ id
  unsent : ∀ {n c st id}, calls n = some (c, st) → st = .numbered id ∨ st = .registered id →
    Json.ofNat id ∉ Lsp.requestIds s.frames
  requests_lt : ∀ j ∈ Lsp.requestIds s.frames, ∃ id < s.nextId, j = .ofNat id
  requests_nodup : (Lsp.requestIds s.frames).Nodup

/-- How the calls may change while no id is given: a call keeps its id or needs it no longer, and
none goes back. -/
def Settles (calls calls' : CallOps) : Prop :=
  ∀ n c st' id, calls' n = some (c, st') → st'.id? = some id →
    ∃ st, calls n = some (c, st) ∧ st.id? = some id ∧
      (st' = .numbered id → st = .numbered id) ∧
      (st' = .registered id → st = .numbered id ∨ st = .registered id)

theorem Settles.refl (calls : CallOps) : Settles calls calls :=
  fun _ _ st' _ hn hid => ⟨st', hn, hid, fun h => h, .inr⟩

theorem Settles.update {calls : CallOps} {o : Option (Call × CallStage)}
    (ho : ∀ c st' id, o = some (c, st') → st'.id? = some id → ∃ st, calls n = some (c, st) ∧
      st.id? = some id ∧ (st' = .numbered id → st = .numbered id) ∧
      (st' = .registered id → st = .numbered id ∨ st = .registered id)) :
    Settles calls (Function.update calls n o) := by
  intro k c st' id hk hid
  rcases eq_or_ne k n with rfl | hne
  · rw [Function.update_self] at hk
    exact ho c st' id hk hid
  · rw [Function.update_of_ne hne] at hk
    exact Settles.refl calls k c st' id hk hid

/-- A caller whose operation shows no call with an id. -/
theorem Settles.update_of_id?_none {calls : CallOps} {o : Option (Call × CallStage)}
    (ho : ∀ c st', o = some (c, st') → st'.id? = none) :
    Settles calls (Function.update calls n o) :=
  Settles.update fun c st' id h hid => by simp [ho c st' h] at hid

namespace Numbered

variable {calls calls' : CallOps}

/-- **Steps that give no id and queue no request keep the invariant.** Responses may come, and ids
and requests may be dropped. -/
theorem settle (h : Numbered s calls) (hc : Settles calls calls') (hn : s.nextId ≤ s'.nextId)
    (hp : ∀ id ∈ s'.pending, id ∈ s.pending)
    (hd : ∀ x ∈ s'.delivered, x ∈ s.delivered ∨ x.1 ∈ s.pending)
    (hr : (Lsp.requestIds s'.frames).Sublist (Lsp.requestIds s.frames)) :
    Numbered s' calls' where
  below hk hid := by
    obtain ⟨st, hk', hid', -⟩ := hc _ _ _ _ hk hid
    exact Nat.lt_of_lt_of_le (h.below hk' hid') hn
  unique hm hk hid hid' := by
    obtain ⟨st, hm', hid₁, -⟩ := hc _ _ _ _ hm hid
    obtain ⟨st', hk', hid₂, -⟩ := hc _ _ _ _ hk hid'
    exact h.unique hm' hk' hid₁ hid₂
  pending_lt id hid := Nat.lt_of_lt_of_le (h.pending_lt id (hp id hid)) hn
  delivered_lt x hx := by
    refine Nat.lt_of_lt_of_le ?_ hn
    rcases hd x hx with hx | hx
    · exact h.delivered_lt x hx
    · exact h.pending_lt _ hx
  unregistered {k c id} hk := by
    obtain ⟨st, hk', -, hst, -⟩ := hc _ _ _ _ hk rfl
    rw [hst rfl] at hk'
    obtain ⟨hnp, hnd⟩ := h.unregistered hk'
    refine ⟨fun hid => hnp (hp id hid), fun x hx => ?_⟩
    rcases hd x hx with hx | hx
    · exact hnd x hx
    · exact fun he => hnp (he ▸ hx)
  unsent {k c st id} hk hst hmem := by
    have hid : st.id? = some id := by rcases hst with rfl | rfl <;> rfl
    obtain ⟨st₀, hk', -, h₁, h₂⟩ := hc _ _ _ _ hk hid
    refine h.unsent hk' ?_ (hr.subset hmem)
    rcases hst with hst | hst
    · exact .inl (h₁ hst)
    · exact h₂ hst
  requests_lt j hj := by
    obtain ⟨id, hid, rfl⟩ := h.requests_lt j (hr.subset hj)
    exact ⟨id, Nat.lt_of_lt_of_le hid hn, rfl⟩
  requests_nodup := h.requests_nodup.sublist hr

theorem untouched (h : Numbered s calls) (hc : Settles calls calls') (hu : Untouched s s') :
    Numbered s' calls' :=
  h.settle hc (Nat.le_of_eq hu.nextId.symm) (fun _ hid => hu.pending ▸ hid)
    (fun _ hx => .inl (hu.delivered ▸ hx)) (hu.requests ▸ List.Sublist.refl _)

/-- The next id is given to a call. -/
theorem give (h : Numbered s calls) (n : Nat) (c : Call) :
    Numbered { s with nextId := s.nextId + 1 }
      (Function.update calls n (some (c, .numbered s.nextId))) := by
  -- an id that is in use is not the next one
  have hused : ∀ {k d st id}, calls k = some (d, st) → st.id? = some id → id ≠ s.nextId :=
    fun hk hid => Nat.ne_of_lt (h.below hk hid)
  refine ⟨?_, ?_, ?_, ?_, ?_, ?_, ?_, h.requests_nodup⟩
  · intro k d st id hk hid
    rcases eq_or_ne k n with rfl | hne
    · rw [Function.update_self] at hk
      cases hk
      cases hid
      exact Nat.lt_succ_self _
    · rw [Function.update_of_ne hne] at hk
      exact Nat.lt_succ_of_lt (h.below hk hid)
  · intro j k d d' st st' id hj hk hid hid'
    rcases eq_or_ne j n with rfl | hjn
    · rcases eq_or_ne k j with rfl | hkj
      · rfl
      · rw [Function.update_self] at hj
        rw [Function.update_of_ne hkj] at hk
        cases hj
        cases hid
        exact absurd rfl (hused hk hid')
    · rw [Function.update_of_ne hjn] at hj
      rcases eq_or_ne k n with rfl | hkn
      · rw [Function.update_self] at hk
        cases hk
        cases hid'
        exact absurd rfl (hused hj hid)
      · rw [Function.update_of_ne hkn] at hk
        exact h.unique hj hk hid hid'
  · exact fun id hid => Nat.lt_succ_of_lt (h.pending_lt id hid)
  · exact fun x hx => Nat.lt_succ_of_lt (h.delivered_lt x hx)
  · intro k d id hk
    rcases eq_or_ne k n with rfl | hne
    · rw [Function.update_self] at hk
      cases hk
      exact ⟨fun hid => Nat.lt_irrefl _ (h.pending_lt _ hid),
        fun x hx => Nat.ne_of_lt (h.delivered_lt x hx)⟩
    · rw [Function.update_of_ne hne] at hk
      exact h.unregistered hk
  · intro k d st id hk hst hmem
    rcases eq_or_ne k n with rfl | hne
    · rw [Function.update_self] at hk
      obtain ⟨id', hlt, hid'⟩ := h.requests_lt _ hmem
      cases hk
      have hid : s.nextId = id := by rcases hst with hst | hst <;> cases hst; rfl
      have heq : id = id' := by
        injection hid' with hn
        injection hn with hi
        exact Int.ofNat.inj hi
      omega
    · rw [Function.update_of_ne hne] at hk
      exact h.unsent hk hst hmem
  · intro j hj
    obtain ⟨id, hid, rfl⟩ := h.requests_lt j hj
    exact ⟨id, Nat.lt_succ_of_lt hid, rfl⟩

/-- A call puts its id into the table. -/
theorem register (h : Numbered s calls) {id : Nat} (hn : calls n = some (c, .numbered id)) :
    Numbered { s with pending := s.pending ++ [id] }
      (Function.update calls n (some (c, .registered id))) := by
  have hc : Settles calls (Function.update calls n (some (c, .registered id))) := by
    refine Settles.update fun d st' i ho hid => ?_
    cases ho
    cases hid
    exact ⟨_, hn, rfl, (fun hc => by cases hc), fun _ => .inl rfl⟩
  have h' := h.untouched hc (.refl s)
  refine ⟨h'.below, h'.unique, fun i hi => ?_, h'.delivered_lt, fun {k d i} hk => ?_, h'.unsent,
    h'.requests_lt, h'.requests_nodup⟩
  · rcases List.mem_append.mp hi with hi | hi
    · exact h.pending_lt i hi
    · rw [List.mem_singleton.mp hi]
      exact h.below hn rfl
  · obtain ⟨hnp, hnd⟩ := h'.unregistered hk
    refine ⟨fun hi => ?_, hnd⟩
    rcases List.mem_append.mp hi with hi | hi
    · exact hnp hi
    · -- the new id is the one of this call, and this call is no longer without an entry
      rw [List.mem_singleton.mp hi] at hk
      have hkn := h'.unique hk (Function.update_self ..) rfl rfl
      rw [hkn, Function.update_self] at hk
      cases hk

/-- A call queues its request. -/
theorem send (h : Numbered s calls) {id deadline : Nat}
    (hn : calls n = some (c, .registered id)) :
    Numbered { s with outbox := s.outbox ++ [.send (Lsp.request id c.method c.params)] }
      (Function.update calls n (some (c, .waiting id deadline))) := by
  have hc : Settles calls (Function.update calls n (some (c, .waiting id deadline))) := by
    refine Settles.update fun d st' i ho hid => ?_
    cases ho
    cases hid
    exact ⟨_, hn, rfl, (fun hc => by cases hc), fun hc => by cases hc⟩
  have h' := h.untouched hc (.refl s)
  have hreq : Lsp.requestIds (Session.frames
      { s with outbox := s.outbox ++ [.send (Lsp.request id c.method c.params)] }) =
      Lsp.requestIds s.frames ++ [.ofNat id] := by
    rw [← Lsp.requestIds_request id c.method c.params, ← Lsp.requestIds_append]
    exact congrArg Lsp.requestIds (frames_of_send rfl rfl rfl)
  refine ⟨h'.below, h'.unique, h'.pending_lt, h'.delivered_lt, h'.unregistered, ?_, ?_, ?_⟩
  · intro k d st i hk hst hmem
    rw [hreq] at hmem
    rcases List.mem_append.mp hmem with hmem | hmem
    · exact h'.unsent hk hst hmem
    · have hi : i = id := by
        injection List.mem_singleton.mp hmem with hn
        injection hn with hi
        exact Int.ofNat.inj hi
      have hid : st.id? = some id := by rcases hst with rfl | rfl <;> rw [hi] <;> rfl
      have hkn := h'.unique hk (Function.update_self ..) hid rfl
      rw [hkn, Function.update_self] at hk
      cases hk
      rcases hst with hst | hst <;> cases hst
  · intro j hj
    rw [hreq] at hj
    rcases List.mem_append.mp hj with hj | hj
    · exact h.requests_lt j hj
    · exact ⟨id, h.below hn rfl, List.mem_singleton.mp hj⟩
  · rw [hreq]
    refine List.nodup_append.mpr ⟨h.requests_nodup, by simp, ?_⟩
    rintro j hj k hk rfl
    rw [List.mem_singleton.mp hk] at hj
    exact h.unsent hn (.inr rfl) hj

/-- **A stage of a call keeps the invariant.** A query starts its call within its first stage. -/
theorem callStep (h : Numbered s calls) (hs : CallStep now c s st s' st')
    (hn : calls n = some (c, st) ∨ st = .begin) :
    Numbered s' (Function.update calls n (some (c, st'))) := by
  have hgone : ∀ {st''}, CallStage.id? st'' = none →
      Settles calls (Function.update calls n (some (c, st''))) := fun hid =>
    Settles.update_of_id?_none fun d st₁ ho => by cases ho; exact hid
  have hforget : ∀ id, ∀ {st''}, CallStage.id? st'' = none →
      Numbered (s.forget id) (Function.update calls n (some (c, st''))) := fun id st'' hid =>
    h.settle (hgone hid) (Nat.le_refl _) (fun i hi => List.mem_of_mem_filter hi)
      (fun x hx => .inl (List.mem_of_mem_filter hx)) (List.Sublist.refl _)
  have hfail : ∀ {id e}, calls n = some (c, st) → st.id? = some id →
      Settles calls (Function.update calls n (some (c, .failing id e))) := fun hn hid =>
    Settles.update fun d st₁ i ho hi => by
      cases ho
      cases hi
      exact ⟨_, hn, hid, (fun hc => by cases hc), fun hc => by cases hc⟩
  cases hs with
  | refuse => exact h.untouched (hgone rfl) (.refl s)
  | number => exact h.give n c
  | register id => exact h.register (hn.resolve_right (by simp))
  | send id => exact h.send (hn.resolve_right (by simp))
  | unsent id => exact h.untouched (hfail (hn.resolve_right (by simp)) rfl) (.refl s)
  | giveUp id deadline e => exact h.untouched (hfail (hn.resolve_right (by simp)) rfl) (.refl s)
  | answer id deadline body => exact hforget id rfl
  | fail id e => exact hforget id rfl

/-- **A stage of any operation keeps the invariant.** -/
theorem view (h : Numbered s calls) (hn : calls n = op.call?) (hv : CallView now s op s' op') :
    Numbered s' (Function.update calls n op'.call?) := by
  cases hv with
  | stage c st st' ho ho' _ hs => exact ho' ▸ h.callStep hs (.inl (hn.trans ho))
  | start c st' _ _ ho' _ hs => exact ho' ▸ h.callStep hs (.inr rfl)
  | begin c _ _ ho' _ hu =>
    refine h.untouched (Settles.update_of_id?_none fun d st₁ ho => ?_) hu
    rw [ho'] at ho
    cases ho
    rfl
  | apart _ ho' _ _ hu =>
    refine h.untouched (Settles.update_of_id?_none fun d st₁ ho => ?_) hu
    rw [ho'] at ho
    cases ho
  | clear _ ho' hs =>
    subst ho' hs
    refine h.settle (Settles.update_of_id?_none fun d st₁ ho => by cases ho) (Nat.le_refl _)
      (fun i hi => ?_) (fun x hx => .inl hx) (List.Sublist.refl _)
    cases hi

/-- The background gives no id and queues no request. -/
theorem turn (h : Numbered s calls) {e : Event} (ht : Turn s e s') (hr : Replies s) :
    Numbered s' calls := by
  have hquiet : s'.nextId = s.nextId → s'.pending = s.pending → s'.delivered = s.delivered →
      (Lsp.requestIds s'.frames).Sublist (Lsp.requestIds s.frames) → Numbered s' calls :=
    fun hn hp hd hf => h.settle (.refl _) (Nat.le_of_eq hn.symm) (fun i hi => hp ▸ hi)
      (fun x hx => .inl (hd ▸ hx)) hf
  cases ht with
  | take frame rest hw ho =>
    refine hquiet rfl rfl rfl ?_
    rw [frames_take hw ho]
  | write frame hw =>
    refine hquiet rfl rfl rfl ?_
    rw [frames_write hw]
  | endWriter =>
    refine hquiet rfl rfl rfl ?_
    rw [frames_endWriter, frames, Lsp.requestIds_append]
    exact List.sublist_append_left _ _
  | read frame rest =>
    rcases dispatch_session_cases frame { s with link := { s.link with arrived := rest } } with
      ⟨id, body, -, hid, hs⟩ | ⟨_, _, _, -, hs⟩ | ⟨-, hs⟩ <;> rw [hs]
    · refine h.settle (.refl _) (Nat.le_refl _) (fun i hi => List.mem_of_mem_filter hi)
        (fun x hx => ?_) (List.Sublist.refl _)
      rcases List.mem_append.mp hx with hx | hx
      · exact .inl hx
      · rw [List.mem_singleton.mp hx]
        exact .inr hid
    · exact h.settle (.refl _) (Nat.le_refl _) (fun _ hi => hi) (fun _ hx => .inl hx)
        (List.Sublist.refl _)
    · exact h.settle (.refl _) (Nat.le_refl _) (fun _ hi => hi) (fun _ hx => .inl hx)
        (List.Sublist.refl _)
  | reply frame hf =>
    have hf' : ({ s with outbox := s.outbox ++ [.send frame], reader := .reading } :
        Session).frames = s.frames ++ [frame] := frames_of_send rfl rfl rfl
    refine hquiet rfl rfl rfl ?_
    rw [hf', Lsp.requestIds_append, Lsp.requestIds_reply (hr frame hf), List.append_nil]
  | clear =>
    refine h.settle (.refl _) (Nat.le_refl _) (fun i hi => ?_) (fun x hx => .inl hx)
      (List.Sublist.refl _)
    cases hi
  | _ => exact hquiet rfl rfl rfl (List.Sublist.refl _)

end Numbered

/-! ### Runs -/

/-- **What holds of calls in every scene of a run**: ids are in order, the reader only
replies, and the table of calls is cleared only when the session has ended. -/
structure Orderly (sc : Scene) : Prop where
  numbered : Numbered sc.session (shown (·.call?) sc.callers)
  replies : Replies sc.session
  notifies : ∀ op ∈ sc.callers, Notifies op
  clearing : sc.session.reader = .clearing → sc.session.state.isTerminal = true
  disposing : ∀ op ∈ sc.callers, op = .dispose .closing ∨ op = .dispose .clearing →
    sc.session.state.isTerminal = true

theorem orderly_launched (key : SessionKey) (server : String) (timeouts : Timeouts)
    (killFault : Option String) (now : Nat) :
    Orderly (.launched key server timeouts killFault now) := by
  have hnone : ∀ {n} {x : Call × CallStage}, shown (·.call?) [] n ≠ some x := by simp [shown]
  refine ⟨⟨?_, ?_, ?_, ?_, ?_, ?_, ?_, ?_⟩, ?_, ?_, ?_, ?_⟩
  · exact fun hn => absurd hn hnone
  · exact fun hn => absurd hn hnone
  · intro id hid
    cases hid
  · intro x hx
    cases hx
  · exact fun hn => absurd hn hnone
  · exact fun hn => absurd hn hnone
  · intro j hj
    cases hj
  · exact List.nodup_nil
  · intro frame hf
    cases hf
  · intro op hop
    cases hop
  · intro hf
    cases hf
  · intro op hop
    cases hop

/-- A disposal is about to close or to clear only once the session is disposed. -/
theorem OperationStep.isTerminal {h : Host} (hs : OperationStep h now n s op s' op')
    (ht : op = .dispose .closing ∨ op = .dispose .clearing → s.state.isTerminal = true)
    (ho : op' = .dispose .closing ∨ op' = .dispose .clearing) : s'.state.isTerminal = true := by
  have hle := hs.leadsTo
  cases hs with
  | dispose hs =>
    cases hs with
    | ending => exact s.state.isTerminal_next_dispose
    | close => exact hle.isTerminal (ht (.inl rfl))
    | closed => exact hle.isTerminal (ht (.inl rfl))
    | _ => rcases ho with ho | ho <;> cases ho
  | handshake hs => cases hs <;> rcases ho with ho | ho <;> cases ho
  | query hs => cases hs <;> rcases ho with ho | ho <;> cases ho
  | document hs =>
    cases hs with
    | locked hl => cases hl <;> rcases ho with ho | ho <;> cases ho
    | _ => rcases ho with ho | ho <;> cases ho

/-- The reader is about to clear only once the session has ended. -/
theorem Turn.isTerminal_of_clearing {e : Event} (ht : Turn s e s')
    (hc : s.reader = .clearing → s.state.isTerminal = true) (hr : s'.reader = .clearing) :
    s'.state.isTerminal = true := by
  have hle := ht.leadsTo
  cases ht with
  | read frame rest hreading =>
    rcases dispatch_session_cases frame { s with link := { s.link with arrived := rest } } with
      ⟨_, _, -, -, h⟩ | ⟨_, _, _, -, h⟩ | ⟨-, h⟩ <;> rw [h] at hr
    · rw [hreading] at hr
      cases hr
    · cases hr
    · rw [hreading] at hr
      cases hr
  | endReading => exact s.state.isTerminal_next_processExited
  | reply | unreplied | clear => cases hr
  | _ => exact hle.isTerminal (hc hr)

/-- Whoever comes has no call yet. -/
theorem shown_call?_concat (hf : op.isFresh = true) (callers : List Operation) :
    shown (·.call?) (callers ++ [op]) = shown (·.call?) callers := by
  have hnone : op.call? = none := by
    cases op with
    | handshake st => cases st <;> first | rfl | cases hf
    | query q cancelAt st => cases st <;> first | rfl | cases hf
    | dispose st => cases st <;> first | rfl | cases hf
    | _ => rfl
  rw [shown_concat, hnone, Function.update_eq_self_iff, shown_length]

/-- **Every step keeps the calls in order.** -/
theorem Orderly.step {h : Host} {sc sc' : Scene} {e : Event} (ho : Orderly sc)
    (hs : Step h sc e sc') : Orderly sc' := by
  cases hs with
  | call op hop =>
    refine ⟨?_, ho.replies, ?_, ho.clearing, ?_⟩
    · rw [shown_call?_concat hop]
      exact ho.numbered
    · intro op' hop'
      rcases List.mem_append.mp hop' with hop' | hop'
      · exact ho.notifies op' hop'
      · rw [List.mem_singleton.mp hop']
        exact notifies_of_isFresh hop
    · intro op' hop' hd
      rcases List.mem_append.mp hop' with hop' | hop'
      · exact ho.disposing op' hop' hd
      · rw [List.mem_singleton.mp hop'] at hd
        rcases hd with rfl | rfl <;> cases hop
  | @advance n op s' op' log hn hop =>
    have hlt : n < sc.callers.length := (List.getElem?_eq_some_iff.mp hn).1
    have hmem : op ∈ sc.callers := List.mem_of_getElem? hn
    have hs := OperationStep.of_stepOperation hop
    refine ⟨?_, fun frame hf => ho.replies frame (hs.reader ▸ hf), ?_, ?_, ?_⟩
    · simp only [shown_set hlt]
      exact ho.numbered.view (shown_of_getElem? hn) (.of_operationStep (ho.notifies op hmem) hs)
    · intro op'' hop''
      rcases List.mem_or_eq_of_mem_set hop'' with hop'' | rfl
      · exact ho.notifies op'' hop''
      · exact hs.notifies
    · intro hr
      exact hs.leadsTo.isTerminal (ho.clearing (hs.reader ▸ hr))
    · intro op'' hop'' hd
      rcases List.mem_or_eq_of_mem_set hop'' with hop'' | rfl
      · exact hs.leadsTo.isTerminal (ho.disposing op'' hop'' hd)
      · exact hs.isTerminal (ho.disposing op hmem) hd
  | background p hb =>
    have ht := Turn.of_stepPart hb
    exact ⟨ho.numbered.turn ht ho.replies, ht.replies ho.replies, ho.notifies,
      ht.isTerminal_of_clearing ho.clearing,
      fun op hop hd => ht.leadsTo.isTerminal (ho.disposing op hop hd)⟩
  | serve hl =>
    exact ⟨ho.numbered.untouched (.refl _) ⟨rfl, rfl, rfl, by rw [frames_serve hl.wire]⟩,
      ho.replies, ho.notifies, ho.clearing, ho.disposing⟩
  | elapse => exact ⟨ho.numbered, ho.replies, ho.notifies, ho.clearing, ho.disposing⟩
  | release =>
    exact ⟨ho.numbered.untouched (.refl _) ⟨rfl, rfl, rfl, rfl⟩, ho.replies, ho.notifies,
      ho.clearing, ho.disposing⟩

theorem Run.orderly {h : Host} {sc sc' : Scene} {es : List Event} (r : Run h sc es sc')
    (ho : Orderly sc) : Orderly sc' := r.invariant Orderly.step ho

end Session

end LanguageHub
