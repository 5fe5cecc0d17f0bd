import LanguageHub.Proofs.Entries
import LanguageHub.Proofs.Session.Turns
import Mathlib.Logic.Function.Basic

/-!
# Runs of a session

A `Session.Scene` is a session with everybody who works on it, and a `Session.Step` is what happens
next: a caller begins an operation, one operation goes on by one stage, one part of the
background takes its step, the server does something at its end of the connection, time
passes, or the last holder gives the session up. Nothing decides between them, so that a
`Session.Run` is **any interleaving** of any number of operations with a server that may do
anything at any time.

Callers are known by their numbers, in the order in which they begin. No number is given
twice, and an operation that has ended stays in its place.
-/

namespace LanguageHub

/-- What a server can do to the connection: anything at its own end, and nothing to what was
written to it. -/
structure Link.Serves (l l' : Link) : Prop where
  wire : l'.wire = l.wire
  inputClosed : l'.inputClosed = l.inputClosed
  killed : l'.killed = l.killed
  killFault : l'.killFault = l.killFault
  arrived : l.arrived <+: l'.arrived

/-- Whether an operation has not begun. -/
def Operation.isFresh : Operation → Bool
  | .handshake .begin | .query _ _ none | .document _ .begin | .dispose .begin => true
  | _ => false

namespace Session

/-- A session and those who work on it. -/
structure Scene where
  session : Session
  /-- The operations of the callers, by their numbers. -/
  callers : List Operation
  now : Nat

/-- A session that has just been launched. -/
def Scene.launched (key : SessionKey) (server : String) (timeouts : Timeouts)
    (killFault : Option String) (now : Nat) : Scene :=
  ⟨.launched key server timeouts killFault, [], now⟩

/-- **What can happen next.** -/
inductive Step (h : Host) (sc : Scene) : Event → Scene → Prop
  | call (op : Operation) : op.isFresh = true →
      Step h sc .silent { sc with callers := sc.callers ++ [op] }
  | advance (n : Nat) (op : Operation) {s' : Session} {op' : Operation} {log : List LogEntry} :
      sc.callers[n]? = some op → sc.session.stepOperation h sc.now n op = some (s', op', log) →
      Step h sc (.advanced n op op') { sc with session := s', callers := sc.callers.set n op' }
  | background (p : Part) {b : BackgroundStep} : sc.session.stepPart p = some b →
      Step h sc (sc.session.eventOf p) { sc with session := b.session }
  | serve {l : Link} : sc.session.link.Serves l →
      Step h sc .silent { sc with session := { sc.session with link := l } }
  | elapse {t : Nat} : sc.now ≤ t → Step h sc .silent { sc with now := t }
  | release : Step h sc .silent { sc with session := sc.session.release }

/-- **A run**, known by its events. -/
inductive Run (h : Host) (sc : Scene) : List Event → Scene → Prop
  | refl : Run h sc [] sc
  | tail {es : List Event} {e : Event} {sc' sc'' : Scene} :
      Run h sc es sc' → Step h sc' e sc'' → Run h sc (es ++ [e]) sc''

variable {h : Host} {sc sc' sc'' : Scene} {e : Event} {es es' : List Event}

/-! ### The callers -/

section Callers

variable {α : Type} (f : Operation → Option α)

/-- What is to be seen of the operations of the callers, by their numbers. -/
def shown (callers : List Operation) (n : Nat) : Option α := (callers[n]?).bind f

variable {f} {callers : List Operation} {n : Nat} {op : Operation}

theorem shown_of_getElem? (hn : callers[n]? = some op) : shown f callers n = f op := by
  simp [shown, hn]

theorem shown_length : shown f callers callers.length = none := by
  simp [shown]

theorem exists_of_shown {x : α} (hx : shown f callers n = some x) :
    ∃ op, callers[n]? = some op ∧ f op = some x := Option.bind_eq_some_iff.mp hx

theorem shown_set (hn : n < callers.length) :
    shown f (callers.set n op) = Function.update (shown f callers) n (f op) := by
  funext k
  rcases eq_or_ne k n with rfl | hne
  · simp [shown, hn]
  · simp [shown, hne, hne.symm]

theorem shown_concat :
    shown f (callers ++ [op]) = Function.update (shown f callers) callers.length (f op) := by
  funext k
  rcases eq_or_ne k callers.length with rfl | hne
  · simp [shown]
  · rw [Function.update_of_ne hne]
    unfold shown
    rcases Nat.lt_or_ge k callers.length with hlt | hge
    · rw [List.getElem?_append_left hlt]
    · have h₁ : (callers ++ [op])[k]? = none := by
        rw [List.getElem?_eq_none_iff, List.length_append, List.length_singleton]
        omega
      have h₂ : callers[k]? = none := List.getElem?_eq_none hge
      rw [h₁, h₂]

end Callers

/-! ### Steps and runs -/

/-- What is seen as a stage of an operation is one. -/
theorem Step.of_advanced {n : Nat} {op op' : Operation} (hs : Step h sc (.advanced n op op') sc') :
    ∃ s', sc.callers[n]? = some op ∧ OperationStep h sc.now n sc.session op s' op' ∧
      sc' = { sc with session := s', callers := sc.callers.set n op' } := by
  generalize he : Event.advanced n op op' = e at hs
  cases hs with
  | advance k op₁ hk hop =>
    cases he
    exact ⟨_, hk, .of_stepOperation hop, rfl⟩
  | background p hb => exact absurd he.symm ((Turn.of_stepPart hb).ne_advanced n op op')
  | _ => cases he

/-- **A caller after a step**: it has not moved, or its operation has gone on by one stage. -/
theorem Step.caller {n : Nat} {op : Operation} (hs : Step h sc e sc')
    (hn : sc.callers[n]? = some op) :
    sc'.callers[n]? = some op ∨ ∃ op', sc'.callers[n]? = some op' ∧
      OperationStep h sc.now n sc.session op sc'.session op' := by
  have hlt : n < sc.callers.length := (List.getElem?_eq_some_iff.mp hn).1
  cases hs with
  | call op' => exact .inl (by rwa [List.getElem?_append_left hlt])
  | advance k op₁ hk hop =>
    rcases eq_or_ne k n with rfl | hne
    · rw [hn] at hk
      cases hk
      exact .inr ⟨_, List.getElem?_set_self hlt, .of_stepOperation hop⟩
    · exact .inl (by rwa [List.getElem?_set_ne hne])
  | background | serve | elapse | release => exact .inl hn

theorem Step.leadsTo (hs : Step h sc e sc') : LeadsTo sc.session sc'.session := by
  cases hs with
  | advance n op _ hop => exact (OperationStep.of_stepOperation hop).leadsTo
  | background p hb => exact (Turn.of_stepPart hb).leadsTo
  | serve | release => exact ⟨rfl, rfl, rfl, Nat.le_refl _, Nat.le_refl _, id, id⟩
  | call | elapse => exact .refl _

theorem Run.leadsTo (r : Run h sc es sc') : LeadsTo sc.session sc'.session := by
  induction r with
  | refl => exact .refl _
  | tail _ hs ih => exact ih.trans hs.leadsTo

theorem Step.now_le (hs : Step h sc e sc') : sc.now ≤ sc'.now := by
  cases hs with
  | elapse ht => exact ht
  | _ => exact Nat.le_refl _

theorem Run.now_le (r : Run h sc es sc') : sc.now ≤ sc'.now := by
  induction r with
  | refl => exact Nat.le_refl _
  | tail _ hs ih => exact Nat.le_trans ih hs.now_le

theorem Run.trans (r : Run h sc es sc') (r' : Run h sc' es' sc'') : Run h sc (es ++ es') sc'' := by
  induction r' with
  | refl => simpa using r
  | tail _ hs ih => simpa [List.append_assoc] using ih.tail hs

theorem Run.head (hs : Step h sc e sc') (r : Run h sc' es sc'') : Run h sc (e :: es) sc'' :=
  (Run.refl.tail hs).trans r

/-- **What holds at first and survives every step holds throughout a run.** -/
theorem Run.invariant {I : Scene → Prop} (hstep : ∀ {sc e sc'}, I sc → Step h sc e sc' → I sc')
    (h₀ : I sc) (r : Run h sc es sc') : I sc' := by
  induction r with
  | refl => exact h₀
  | tail _ hs ih => exact hstep ih hs

end Session

end LanguageHub
