import LanguageHub.Proofs.Session.Calls
import LanguageHub.Proofs.Session.Scenarios
import LanguageHub.Proofs.Session.Settling

/-!
# The table of waiting calls

The table holds ids and nothing else, and five hands reach into it: a call puts its id in and takes
it out again, the reader takes out the id of a response, and the end of the reader and a disposal
empty the table. A call may even put its id in **after** the table was emptied for good, and no
response will ever find it there.

`Session.Tabled` is what survives all of this. Every id in the table is in it once and **belongs to
a call** that has not returned, and as long as the session lives, a call that counts on a response
is in the table or has its response. What carries it is that only the call that has an id can put
it in, and that this call can leave only through `Session.forget`
(`Session.OperationStep.callStep_of_id?`).

An id that no call has is never given again (`Session.Spent`), so that an id which has left the
table with its call is gone for good. And in a session that has ended no call waits in vain: each of
them can go on, or the writer can make room for it (`Session.exists_clientStep_of_call`).
-/

namespace LanguageHub

/-- The id under which a call counts on a response. -/
def CallStage.expects? : CallStage → Option Nat
  | .registered id | .waiting id _ => some id
  | _ => none

namespace CallStage

variable {st : CallStage} {id : Nat}

theorem id?_of_expects? (h : st.expects? = some id) : st.id? = some id := by
  cases st <;> cases h <;> rfl

end CallStage

namespace Session

variable {s s' : Session} {h : Host} {now n id : Nat} {c : Call} {st st' : CallStage}
  {op op' : Operation} {calls calls' : CallOps}

/-! ### What a stage does to ids -/

/-- **An operation whose call needs its id takes a stage of the call**, and no other one. -/
theorem OperationStep.callStep_of_id? (hs : OperationStep h now n s op s' op')
    (ho : op.call? = some (c, st)) (hid : st.id? = some id) :
    ∃ st', op'.call? = some (c, st') ∧ CallStep now c s st s' st' := by
  cases hs with
  | handshake hs =>
    cases hs with
    | call hc =>
      cases ho
      exact ⟨_, rfl, hc⟩
    | answered | unanswered =>
      cases ho
      cases hid
    | _ => cases ho
  | query hs =>
    cases hs with
    | call hc =>
      cases ho
      exact ⟨_, rfl, hc⟩
    | answered =>
      cases ho
      cases hid
    | _ => cases ho
  | document hs => cases ho
  | dispose hs =>
    cases hs with
    | call hc =>
      cases ho
      exact ⟨_, rfl, hc⟩
    | answered | unanswered =>
      cases ho
      cases hid
    | _ => cases ho

/-- A call without an id is given the next one, or it gets none. -/
theorem CallStep.of_id?_none (hs : CallStep now c s st s' st') (hst : st.id? = none) :
    s'.pending = s.pending ∧ s'.delivered = s.delivered ∧ st'.expects? = none ∧
      ∀ id, st'.id? = some id → id = s.nextId := by
  cases hs with
  | refuse => exact ⟨rfl, rfl, rfl, nofun⟩
  | number =>
    refine ⟨rfl, rfl, rfl, ?_⟩
    rintro _ ⟨⟩
    rfl
  | _ => cases hst

/-- A call keeps the id that it has. -/
theorem CallStep.id?_eq (hs : CallStep now c s st s' st') (hst : st.id? = some id) :
    st'.id? = some id ∨ st'.id? = none := by
  cases hs with
  | register | send | unsent | giveUp => exact .inl hst
  | refuse | number => cases hst
  | answer | fail => exact .inr rfl

/-- **What an operation does whose call has no id**: it leaves the table as it is or empties it, and
an id that its call has then is the next one. -/
theorem CallView.of_id?_none (hv : CallView now s op s' op')
    (hop : ∀ c st, op.call? = some (c, st) → st.id? = none) :
    (s'.pending = s.pending ∨ op = .dispose .clearing ∧ s'.pending = []) ∧
      s'.delivered = s.delivered ∧ ∀ c st, op'.call? = some (c, st) →
        st.expects? = none ∧ ∀ id, st.id? = some id → id = s.nextId := by
  cases hv with
  | stage c st st' ho ho' _ hs =>
    obtain ⟨hp, hd, hexpects, hid⟩ := hs.of_id?_none (hop c st ho)
    refine ⟨.inl hp, hd, fun d st₁ ho => ?_⟩
    cases ho'.symm.trans ho
    exact ⟨hexpects, hid⟩
  | start c st' _ _ ho' _ hs =>
    obtain ⟨hp, hd, hexpects, hid⟩ := hs.of_id?_none rfl
    refine ⟨.inl hp, hd, fun d st₁ hd => ?_⟩
    cases ho'.symm.trans hd
    exact ⟨hexpects, hid⟩
  | begin c _ _ ho' _ hu =>
    refine ⟨.inl hu.pending, hu.delivered, fun d st₁ hd => ?_⟩
    cases ho'.symm.trans hd
    exact ⟨rfl, nofun⟩
  | apart _ ho' _ _ hu =>
    refine ⟨.inl hu.pending, hu.delivered, fun d st₁ hd => ?_⟩
    cases ho'.symm.trans hd
  | clear hc hf hs =>
    subst hf hs
    exact ⟨.inr ⟨hc, rfl⟩, rfl, nofun⟩

/-! ### The invariant -/

/-- **The table of waiting calls**: each id is in it once and belongs to a call, and as long as the
session lives, whoever counts on a response is in it or has the response. -/
structure Tabled (s : Session) (calls : CallOps) : Prop where
  nodup : s.pending.Nodup
  owned : ∀ id ∈ s.pending, ∃ n c st, calls n = some (c, st) ∧ st.id? = some id
  listed : s.state.isTerminal = false → ∀ n c st id, calls n = some (c, st) →
    st.expects? = some id → id ∈ s.pending ∨ ∃ body, (id, body) ∈ s.delivered

namespace Tabled

/-- Nothing of the table is lost or gained, and no call loses the id that it has there. -/
theorem keep (ht : Tabled s calls) (hp : s'.pending = s.pending) (hd : s'.delivered = s.delivered)
    (hlive : s'.state.isTerminal = false → s.state.isTerminal = false)
    (hown : ∀ n c st id, calls n = some (c, st) → st.id? = some id →
      ∃ c' st', calls' n = some (c', st') ∧ st'.id? = some id)
    (hlisted : ∀ n c st id, calls' n = some (c, st) → st.expects? = some id →
      ∃ c' st', calls n = some (c', st') ∧ st'.expects? = some id) : Tabled s' calls' where
  nodup := hp ▸ ht.nodup
  owned := by
    intro id hid
    rw [hp] at hid
    obtain ⟨n, c, st, hn, hst⟩ := ht.owned id hid
    exact ⟨n, hown n c st id hn hst⟩
  listed := by
    intro hl n c st id hn hst
    obtain ⟨c', st', hn', hst'⟩ := hlisted n c st id hn hst
    rw [hp, hd]
    exact ht.listed (hlive hl) n c' st' id hn' hst'

/-- The table is emptied in a session that has ended. -/
theorem clear (hp : s'.pending = []) (ht : s'.state.isTerminal = true) : Tabled s' calls where
  nodup := hp ▸ List.nodup_nil
  owned := by
    intro id hid
    rw [hp] at hid
    cases hid
  listed := by
    intro hl
    rw [ht] at hl
    cases hl

/-- A call puts its id in. -/
theorem register (ht : Tabled s calls) (hnum : Numbered s calls)
    (hn : calls n = some (c, .numbered id)) :
    Tabled { s with pending := s.pending ++ [id] }
      (Function.update calls n (some (c, .registered id))) := by
  obtain ⟨hnew, -⟩ := hnum.unregistered hn
  refine ⟨?_, fun i hi => ?_, fun hl m d st i hm hst => ?_⟩
  · refine List.nodup_append.mpr ⟨ht.nodup, List.nodup_singleton id, ?_⟩
    rintro i hi j hj rfl
    rw [List.mem_singleton.mp hj] at hi
    exact hnew hi
  · rcases List.mem_append.mp hi with hi | hi
    · obtain ⟨m, d, st, hm, hst⟩ := ht.owned i hi
      refine ⟨m, d, st, ?_, hst⟩
      rwa [Function.update_of_ne]
      -- the id of this call is not in the table yet
      rintro rfl
      cases hn.symm.trans hm
      cases hst
      exact hnew hi
    · rw [List.mem_singleton.mp hi]
      exact ⟨n, c, .registered id, Function.update_self .., rfl⟩
  · rcases eq_or_ne m n with rfl | hne
    · rw [Function.update_self] at hm
      cases hm
      cases hst
      exact .inl (List.mem_append_right _ (List.mem_singleton.mpr rfl))
    · rw [Function.update_of_ne hne] at hm
      rcases ht.listed hl m d st i hm hst with hi | hi
      · exact .inl (List.mem_append_left _ hi)
      · exact .inr hi

/-- **A call leaves**, and takes its id along. -/
theorem forget (ht : Tabled s calls) (hnum : Numbered s calls) (hn : calls n = some (c, st))
    (hid : st.id? = some id) (hst' : st'.id? = none) :
    Tabled (s.forget id) (Function.update calls n (some (c, st'))) := by
  refine ⟨ht.nodup.filter _, fun i hi => ?_, fun hl m d st₁ i hm hst => ?_⟩
  · obtain ⟨hi, hne⟩ := List.mem_filter.mp hi
    obtain ⟨m, d, st₁, hm, hst⟩ := ht.owned i hi
    refine ⟨m, d, st₁, ?_, hst⟩
    rwa [Function.update_of_ne]
    rintro rfl
    cases hn.symm.trans hm
    cases hid.symm.trans hst
    simp at hne
  · rcases eq_or_ne m n with rfl | hmn
    · rw [Function.update_self] at hm
      cases hm
      rw [CallStage.id?_of_expects? hst] at hst'
      cases hst'
    · rw [Function.update_of_ne hmn] at hm
      -- another call has another id
      have hne : i ≠ id := by
        rintro rfl
        exact hmn (hnum.unique hm hn (CallStage.id?_of_expects? hst) hid)
      rcases ht.listed hl m d st₁ i hm hst with hi | ⟨body, hi⟩
      · exact .inl (List.mem_filter.mpr ⟨hi, by simpa using hne⟩)
      · exact .inr ⟨body, List.mem_filter.mpr ⟨hi, by simpa using hne⟩⟩

/-- **A stage of a call that has an id keeps the table.** -/
theorem callStep (ht : Tabled s calls) (hnum : Numbered s calls) (hn : calls n = some (c, st))
    (hid : st.id? = some id) (hs : CallStep now c s st s' st') :
    Tabled s' (Function.update calls n (some (c, st'))) := by
  have hgoes : ∀ {st₁ : CallStage}, st₁.id? = some id →
      (st₁.expects? = some id → st.expects? = some id) → ∀ {s₁ : Session},
      s₁.pending = s.pending → s₁.delivered = s.delivered → s₁.state = s.state →
      Tabled s₁ (Function.update calls n (some (c, st₁))) := by
    intro st₁ hid₁ hexp s₁ hp hd hstate
    refine ht.keep hp hd (fun hl => hstate ▸ hl) (fun m d st₂ i hm hst => ?_)
      fun m d st₂ i hm hst => ?_
    · rcases eq_or_ne m n with rfl | hne
      · cases hn.symm.trans hm
        cases hid.symm.trans hst
        exact ⟨c, st₁, Function.update_self .., hid₁⟩
      · exact ⟨d, st₂, (Function.update_of_ne hne ..).trans hm, hst⟩
    · rcases eq_or_ne m n with rfl | hne
      · rw [Function.update_self] at hm
        cases hm
        cases hid₁.symm.trans (CallStage.id?_of_expects? hst)
        exact ⟨c, st, hn, hexp hst⟩
      · rw [Function.update_of_ne hne] at hm
        exact ⟨d, st₂, hm, hst⟩
  cases hs with
  | refuse | number => cases hid
  | register =>
    cases hid
    exact ht.register hnum hn
  | send =>
    cases hid
    exact hgoes rfl (fun _ => rfl) rfl rfl rfl
  | unsent | giveUp =>
    cases hid
    exact hgoes rfl (fun hexp => by cases hexp) rfl rfl rfl
  | answer | fail =>
    cases hid
    exact ht.forget hnum hn rfl rfl

/-- **A stage of any operation keeps the table.** -/
theorem view (ht : Tabled s calls) (hnum : Numbered s calls) (hn : calls n = op.call?)
    (hs : OperationStep h now n s op s' op') (hv : CallView now s op s' op')
    (hended : op = .dispose .clearing → s.state.isTerminal = true) :
    Tabled s' (Function.update calls n op'.call?) := by
  by_cases hop : ∀ c st, op.call? = some (c, st) → st.id? = none
  · obtain ⟨hp | ⟨hclear, hp⟩, hd, hnone⟩ := hv.of_id?_none hop
    · refine ht.keep hp hd (fun hl => ?_) (fun m d st i hm hst => ?_) fun m d st i hm hst => ?_
      · exact Bool.eq_false_iff.mpr fun hterm => by rw [hs.leadsTo.isTerminal hterm] at hl; cases hl
      · refine ⟨d, st, ?_, hst⟩
        rwa [Function.update_of_ne]
        rintro rfl
        rw [hop d st (hn.symm.trans hm)] at hst
        cases hst
      · rcases eq_or_ne m n with rfl | hne
        · rw [Function.update_self] at hm
          rw [(hnone d st hm).1] at hst
          cases hst
        · rw [Function.update_of_ne hne] at hm
          exact ⟨d, st, hm, hst⟩
    · exact .clear hp (hs.leadsTo.isTerminal (hended hclear))
  · push Not at hop
    obtain ⟨c, st, ho, hst⟩ := hop
    obtain ⟨id, hid⟩ := Option.ne_none_iff_exists'.mp hst
    obtain ⟨st', ho', hcall⟩ := hs.callStep_of_id? ho hid
    rw [ho']
    exact ht.callStep hnum (hn.trans ho) hid hcall

/-- **The background keeps the table.** -/
theorem turn (ht : Tabled s calls) {e : Event} (hs : Turn s e s')
    (hclearing : s.reader = .clearing → s.state.isTerminal = true) : Tabled s' calls := by
  have hsame : s'.pending = s.pending → s'.delivered = s.delivered → Tabled s' calls := by
    intro hp hd
    refine ht.keep hp hd (fun hl => ?_) (fun _ c st _ hm hst => ⟨c, st, hm, hst⟩)
      fun _ c st _ hm hst => ⟨c, st, hm, hst⟩
    exact Bool.eq_false_iff.mpr fun hterm => by rw [hs.leadsTo.isTerminal hterm] at hl; cases hl
  cases hs with
  | read frame rest =>
    rcases dispatch_session_cases frame { s with link := { s.link with arrived := rest } } with
      ⟨id, body, -, -, heq⟩ | ⟨_, _, _, -, heq⟩ | ⟨-, heq⟩ <;> rw [heq] at hsame ⊢
    -- the id of a response leaves the table, and the response is there
    · refine ⟨ht.nodup.filter _, fun i hi => ht.owned i (List.mem_of_mem_filter hi),
        fun hl n c st i hn hst => ?_⟩
      rcases ht.listed hl n c st i hn hst with hi | ⟨b, hi⟩
      · rcases eq_or_ne i id with rfl | hne
        · exact .inr ⟨body, List.mem_append_right _ (List.mem_singleton.mpr rfl)⟩
        · exact .inl (List.mem_filter.mpr ⟨hi, by simpa using hne⟩)
      · exact .inr ⟨b, List.mem_append_left _ hi⟩
    · exact hsame rfl rfl
    · exact hsame rfl rfl
  | clear hr => exact .clear rfl (hclearing hr)
  | _ => exact hsame rfl rfl

end Tabled

/-! ### Runs -/

variable {sc sc' : Scene} {es : List Event} {e : Event}

theorem tabled_launched (key : SessionKey) (server : String) (timeouts : Timeouts)
    (killFault : Option String) :
    Tabled (.launched key server timeouts killFault) (shown (·.call?) []) where
  nodup := List.nodup_nil
  owned := by
    intro id hid
    cases hid
  listed := by
    intro _ n c st id hn
    simp [shown] at hn

/-- **Every step keeps the table.** -/
theorem Tabled.step (ht : Tabled sc.session (shown (·.call?) sc.callers)) (ho : Orderly sc)
    (hs : Step h sc e sc') : Tabled sc'.session (shown (·.call?) sc'.callers) := by
  cases hs with
  | call op hop => rwa [shown_call?_concat hop]
  | @advance n op s' op' log hn hop =>
    have hmem : op ∈ sc.callers := List.mem_of_getElem? hn
    have hstep := OperationStep.of_stepOperation hop
    rw [shown_set (List.getElem?_eq_some_iff.mp hn).1]
    exact ht.view ho.numbered (shown_of_getElem? hn) hstep
      (.of_operationStep (ho.notifies op hmem) hstep) fun hc => ho.disposing op hmem (.inr hc)
  | background p hb => exact ht.turn (Turn.of_stepPart hb) ho.clearing
  | serve | elapse | release => exact ⟨ht.nodup, ht.owned, ht.listed⟩

theorem Run.tabled {key : SessionKey} {server : String} {timeouts : Timeouts}
    {killFault : Option String} (r : Run h (.launched key server timeouts killFault now) es sc) :
    Tabled sc.session (shown (·.call?) sc.callers) := by
  have hinv := r.invariant
    (I := fun sc => Orderly sc ∧ Tabled sc.session (shown (·.call?) sc.callers))
    (fun hi hs => ⟨hi.1.step hs, hi.2.step hi.1 hs⟩) ⟨orderly_launched .., tabled_launched ..⟩
  exact hinv.2

/-- **An id that is used up**: it was given, and no call has it any longer. -/
def Spent (id : Nat) (sc : Scene) : Prop :=
  id < sc.session.nextId ∧
    ∀ n c st, shown (·.call?) sc.callers n = some (c, st) → st.id? ≠ some id

/-- **No id is given twice.** -/
theorem Spent.step (hspent : Spent id sc) (ho : Orderly sc) (hs : Step h sc e sc') :
    Spent id sc' := by
  refine ⟨Nat.lt_of_lt_of_le hspent.1 hs.leadsTo.nextId, fun m c st hm hid => ?_⟩
  cases hs with
  | call op hop =>
    rw [shown_call?_concat hop] at hm
    exact hspent.2 m c st hm hid
  | @advance n op s' op' log hn hop =>
    have hstep := OperationStep.of_stepOperation hop
    have hv := CallView.of_operationStep (ho.notifies op (List.mem_of_getElem? hn)) hstep
    rw [shown_set (List.getElem?_eq_some_iff.mp hn).1] at hm
    rcases eq_or_ne m n with rfl | hne
    · rw [Function.update_self] at hm
      by_cases hop' : ∀ c st, op.call? = some (c, st) → st.id? = none
      · have hnew := ((hv.of_id?_none hop').2.2 c st hm).2 id hid
        exact Nat.lt_irrefl _ (hnew ▸ hspent.1)
      · push Not at hop'
        obtain ⟨d, st₀, hd, hst₀⟩ := hop'
        obtain ⟨i, hi⟩ := Option.ne_none_iff_exists'.mp hst₀
        obtain ⟨st', hd', hcall⟩ := hstep.callStep_of_id? hd hi
        cases hm.symm.trans hd'
        have heq : i = id := by
          rcases hcall.id?_eq hi with h' | h' <;> rw [hid] at h' <;> cases h'
          rfl
        exact hspent.2 m c st₀ ((shown_of_getElem? hn).trans hd) (heq ▸ hi)
    · rw [Function.update_of_ne hne] at hm
      exact hspent.2 m c st hm hid
  | background | serve | elapse | release => exact hspent.2 m c st hm hid

theorem Run.spent (r : Run h sc es sc') (hspent : Spent id sc) (ho : Orderly sc) :
    Spent id sc' := by
  induction r with
  | refl => exact hspent
  | tail r hs ih => exact ih.step (r.orderly ho) hs

/-- The id of a call that returns is used up. -/
theorem Spent.of_finished {r : Except LspError Json} (ho : Orderly sc)
    (hs : Step h sc (.advanced n op op') sc') (hop : op.call? = some (c, st))
    (hid : st.id? = some id) (hop' : op'.call? = some (c, .finished r)) : Spent id sc' := by
  have hle := hs.leadsTo.nextId
  obtain ⟨s', hn, -, rfl⟩ := hs.of_advanced
  have hshown := (shown_of_getElem? hn).trans hop
  refine ⟨Nat.lt_of_lt_of_le (ho.numbered.below hshown hid) hle, fun m d st' hm hst' => ?_⟩
  rw [shown_set (List.getElem?_eq_some_iff.mp hn).1] at hm
  rcases eq_or_ne m n with rfl | hne
  · rw [Function.update_self, hop'] at hm
    cases hm
    cases hst'
  · rw [Function.update_of_ne hne] at hm
    exact hne (ho.numbered.unique hm hshown hst' hid)

/-! ### Sessions that have ended -/

/-- A call in a session that has ended has returned, or it can go on, or the writer can, or the
writer is stuck. -/
theorem exists_stepCall (ht : s.state.isTerminal = true) (now : Nat) (c : Call) (st : CallStage) :
    (∃ r, st = .finished r) ∨ (∃ x, s.stepCall now c st = some x) ∨
      (∃ b, s.stepWriter = some b) ∨ Stuck s := by
  cases st with
  | begin => exact .inr (.inl ⟨_, by rw [stepCall, if_pos ht]⟩)
  | numbered id => exact .inr (.inl ⟨_, rfl⟩)
  | registered id =>
    cases hq : s.enqueue (.send (Lsp.request id c.method c.params)) with
    | queued s' => exact .inr (.inl ⟨_, by simp only [stepCall, hq]; rfl⟩)
    | refused => exact .inr (.inl ⟨_, by simp only [stepCall, hq]; rfl⟩)
    | full => exact .inr (.inr (stepWriter_or_stuck_of_full hq))
  | waiting id deadline =>
    refine .inr (.inl (Option.isSome_iff_exists.mp ?_))
    rw [stepCall]
    split
    · rfl
    · split_ifs <;> rfl
  | failing id e => exact .inr (.inl ⟨_, rfl⟩)
  | finished r => exact .inl ⟨r, rfl⟩

/-- An operation can go on if its call has returned. -/
theorem exists_stepOperation_of_finished {r : Except LspError Json}
    (hop : op.call? = some (c, .finished r)) (h : Host) (now n : Nat) (s : Session) :
    ∃ x, s.stepOperation h now n op = some x := by
  cases op with
  | handshake stage =>
    cases stage <;> cases hop
    cases r <;> exact ⟨_, rfl⟩
  | query q cancelAt stage =>
    cases hop
    cases r with
    | ok result =>
      cases hr : q.readResult result with
      | some j => exact ⟨_, by simp only [stepOperation, stepQuery, hr]; rfl⟩
      | none => exact ⟨_, by simp only [stepOperation, stepQuery, hr]; rfl⟩
    | error e => exact ⟨_, rfl⟩
  | document a stage => cases hop
  | dispose stage =>
    cases stage <;> cases hop
    cases r <;> exact ⟨_, rfl⟩
  | returned r => cases hop

/-- An operation can go on if its call can. -/
theorem exists_stepOperation_of_call {x : Session × CallStage × List LogEntry}
    (hop : op.call? = some (c, st)) (hx : s.stepCall now c st = some x) (h : Host) (n : Nat) :
    ∃ y, s.stepOperation h now n op = some y := by
  have hnot : ∀ r, st ≠ .finished r := by
    rintro r rfl
    cases hx
  cases op with
  | handshake stage =>
    cases stage <;> cases hop
    have hs : s.stepHandshake h now (.calling c st) = (s.stepCall now c st).map fun y =>
        (y.1, .handshake (.calling c y.2.1), y.2.2) := by
      cases st with
      | finished r => exact absurd rfl (hnot r)
      | _ => rfl
    exact ⟨_, hs.trans (congrArg _ hx)⟩
  | query q cancelAt stage =>
    cases hop
    have hs : s.stepQuery now q cancelAt (some (c, st)) = (s.stepCall now c st).map fun y =>
        (y.1, .query q cancelAt (some (c, y.2.1)), y.2.2) := by
      cases st with
      | finished r => exact absurd rfl (hnot r)
      | _ => rfl
    exact ⟨_, hs.trans (congrArg _ hx)⟩
  | document a stage => cases hop
  | dispose stage =>
    cases stage <;> cases hop
    have hs : s.stepDispose now (.calling c st) = (s.stepCall now c st).map fun y =>
        (y.1, .dispose (.calling c y.2.1), y.2.2) := by
      cases st with
      | finished r => exact absurd rfl (hnot r)
      | _ => rfl
    exact ⟨_, hs.trans (congrArg _ hx)⟩
  | returned r => cases hop

/-- **In a session that has ended no call waits in vain** if the server reads: it can go on, or the
writer can, or the input of the server has room again. -/
theorem exists_clientStep_of_call (ht : sc.session.state.isTerminal = true)
    (hn : sc.callers[n]? = some op) (hop : op.call? = some (c, st)) :
    ∃ sc', ClientStep h sc sc' := by
  rcases exists_stepCall ht sc.now c st with ⟨r, rfl⟩ | ⟨x, hx⟩ | ⟨b, hb⟩ | hstuck
  · obtain ⟨x, hx⟩ := exists_stepOperation_of_finished hop h sc.now n sc.session
    exact ⟨_, .alone (.advance n op hn hx)⟩
  · obtain ⟨y, hy⟩ := exists_stepOperation_of_call hop hx h n
    exact ⟨_, .alone (.advance n op hn hy)⟩
  · exact ⟨_, .alone (.write hb)⟩
  · exact ⟨_, .relieve hstuck.full⟩

/-- Where no call is left, the table is empty. -/
theorem Tabled.pending_eq_nil (ht : Tabled s calls) (hnone : ∀ n, calls n = none) :
    s.pending = [] := by
  refine List.eq_nil_iff_forall_not_mem.mpr fun id hid => ?_
  obtain ⟨n, c, st, hn, -⟩ := ht.owned id hid
  rw [hnone n] at hn
  cases hn

/-! ### The main result -/

/-- **The table holds exactly the waiting calls.** Take any run of a session from its launch.

* Each id in the table is in it once, and exactly one call has the id: the call has begun and has
  not returned.
* As long as the session lives, a call that counts on a response is in the table, or its response
  has come.
* When a call with an id returns, its id is not in the table, and it is not in the table at any
  later moment.
* Once the session has ended, the client comes to rest if the server only reads what is written, so
  that the writer is not blocked forever; and when it has, no call is left and the table is
  empty. -/
theorem pending_exact {key : SessionKey} {server : String} {timeouts : Timeouts}
    {killFault : Option String} (run : Run h (.launched key server timeouts killFault now) es sc) :
    (sc.session.pending.Nodup ∧ ∀ id ∈ sc.session.pending,
      ∃! n, ∃ c st, shown (·.call?) sc.callers n = some (c, st) ∧ st.id? = some id) ∧
    (sc.session.state.isTerminal = false → ∀ n c st id,
      shown (·.call?) sc.callers n = some (c, st) → st.expects? = some id →
      id ∈ sc.session.pending ∨ ∃ body, (id, body) ∈ sc.session.delivered) ∧
    (∀ n op op' sc₁ c st id r, Step h sc (.advanced n op op') sc₁ → op.call? = some (c, st) →
      st.id? = some id → op'.call? = some (c, .finished r) →
      ∀ es' sc₂, Run h sc₁ es' sc₂ → id ∉ sc₂.session.pending) ∧
    (sc.session.state.isTerminal = true → ∀ k sc', ClientRun h sc k sc' → k ≤ sc.work ∧
      ((∀ sc'', ¬ ClientStep h sc' sc'') →
        (∀ op ∈ sc'.callers, op.call? = none) ∧ sc'.session.pending = [])) := by
  have ho := run.orderly (orderly_launched ..)
  have ht := run.tabled
  refine ⟨⟨ht.nodup, fun id hid => ?_⟩, ht.listed, ?_, fun hterm k sc' client => ⟨?_, ?_⟩⟩
  · obtain ⟨n, c, st, hn, hst⟩ := ht.owned id hid
    refine ⟨n, ⟨c, st, hn, hst⟩, ?_⟩
    rintro m ⟨d, st', hm, hst'⟩
    exact ho.numbered.unique hm hn hst' hst
  · intro n op op' sc₁ c st id r hs hop hid hop' es' sc₂ later hmem
    have hspent := later.spent (.of_finished ho hs hop hid hop') (ho.step hs)
    obtain ⟨m, d, st', hm, hst'⟩ := ((run.tail hs).trans later).tabled.owned id hmem
    exact hspent.2 m d st' hm hst'
  · have hle := client.add_work_le
    omega
  · intro hrest
    obtain ⟨es', later⟩ := client.run
    have hterm' := later.leadsTo.isTerminal hterm
    have hnone : ∀ op ∈ sc'.callers, op.call? = none := by
      intro op hop
      obtain ⟨n, hn⟩ := List.getElem?_of_mem hop
      by_contra hcall
      obtain ⟨⟨c, st⟩, hcall⟩ := Option.ne_none_iff_exists'.mp hcall
      obtain ⟨sc'', hs⟩ := exists_clientStep_of_call (h := h) hterm' hn hcall
      exact hrest sc'' hs
    refine ⟨hnone, (run.trans later).tabled.pending_eq_nil fun n => ?_⟩
    rw [shown, Option.bind_eq_none_iff]
    exact fun op hn => hnone op (List.mem_of_getElem? hn)

/-- A call that puts its id in when the reader has emptied the table for the last time owns the id
all the same, and takes it out again. -/
theorem pending_exact_late :
    ∃ (h : Host) (es : List Event) (sc : Scene),
      Run h (.launched ⟨⟨[0x2F]⟩, "rust"⟩ "analyzer" .standard none 0) es sc ∧
      sc.session.state = .degraded ∧ sc.session.reader = .ended ∧ sc.session.pending = [1] ∧
      (∃! n, ∃ c st, shown (·.call?) sc.callers n = some (c, st) ∧ st.id? = some 1) ∧
      ∀ k sc', ClientRun h sc k sc' → k ≤ sc.work ∧ ((∀ sc'', ¬ ClientStep h sc' sc'') →
        (∀ op ∈ sc'.callers, op.call? = none) ∧ sc'.session.pending = []) := by
  have serves : Link.Serves (.fresh none) ⟨[], .taken, false, [], true, none, false, none⟩ :=
    ⟨rfl, rfl, rfl, rfl, List.nil_prefix⟩
  have launched : Run { (default : Host) with directory := ⟨[0x2F]⟩ }
      (.launched ⟨⟨[0x2F]⟩, "rust"⟩ "analyzer" .standard none 0) [] _ := .refl
  have called := launched.tail (.call .startHandshake rfl)
  have begun := called.tail (.advance 0 _ rfl rfl)
  have numbered := begun.tail (.advance 0 _ rfl rfl)
  have hcut : Frame.next true [] = .ended := by with_unfolding_all rfl
  have ended := ((numbered.tail (.serve serves)).tail (.endReading rfl hcut)).tail
    (.background .reader rfl)
  have registered := ended.tail (.advance 0 _ rfl rfl)
  have hexact := pending_exact registered
  exact ⟨_, _, _, registered, rfl, rfl, rfl, hexact.1.2 1 (List.mem_singleton.mpr rfl),
    hexact.2.2.2 rfl⟩

end Session

end LanguageHub
