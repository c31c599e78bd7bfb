/-
Runs of a deterministic system that takes one input at a time.

A system is a function `step` from a state and an input to an output and the
next state. `transitions` lists every step of a run with the state before and
after it, so that a property of "every step" or "every state reached" is a
property of the members of one list. `Taken` says that a transition is one the
system really takes.

The induction over a run is done here once: an invariant that each step keeps,
under a condition the step may need, holds before and after every step of every
run whose steps meet the condition (`invariant_transitions`), and so does one
that also speaks of the steps before (`invariant_history`).
-/

import Mathlib.Data.List.Basic
import Mathlib.Data.List.Induction

namespace Wslg.Runs

variable {S E O : Type}

/-- One step of a run: where it started, what it was given, what it gave, where
it ended. -/
structure Transition (S E O : Type) where
  before : S
  input : E
  output : O
  after : S

variable (step : S → E → O × S)

/-- The step taken from `s` on input `e`. -/
def take (s : S) (e : E) : Transition S E O :=
  ⟨s, e, (step s e).1, (step s e).2⟩

/-- The state a run ends in. -/
def finish : S → List E → S
  | s, [] => s
  | s, e :: es => finish (step s e).2 es

/-- The steps of a run, in order. -/
def transitions : S → List E → List (Transition S E O)
  | _, [] => []
  | s, e :: es => take step s e :: transitions (step s e).2 es

/-- The system takes `t`: its output and end state are the step's. -/
def Taken (t : Transition S E O) : Prop :=
  step t.before t.input = (t.output, t.after)

variable {step}

theorem taken_take (s : S) (e : E) : Taken step (take step s e) := rfl

theorem Taken.eq_take {t : Transition S E O} (taken : Taken step t) :
    t = take step t.before t.input := by
  have stepped : step t.before t.input = (t.output, t.after) := taken
  rw [take, stepped]

theorem finish_append (s : S) (es es' : List E) :
    finish step s (es ++ es') = finish step (finish step s es) es' := by
  induction es generalizing s with
  | nil => rfl
  | cons e es ih => exact ih _

theorem transitions_append (s : S) (es es' : List E) :
    transitions step s (es ++ es') =
      transitions step s es ++ transitions step (finish step s es) es' := by
  induction es generalizing s with
  | nil => rfl
  | cons e es ih => simp only [List.cons_append, transitions, finish, ih]

theorem finish_eq_getLast (s : S) (es : List E) :
    finish step s es = ((transitions step s es).getLast?.map (·.after)).getD s := by
  induction es generalizing s with
  | nil => rfl
  | cons e es ih =>
      rw [finish, ih, transitions, List.getLast?_cons]
      cases (transitions step (step s e).2 es).getLast? <;> rfl

theorem transitions_one (s : S) (e : E) : transitions step s [e] = [take step s e] := rfl

theorem transitions_two (s : S) (e e' : E) :
    transitions step s [e, e'] = [take step s e, take step (take step s e).after e'] := rfl

/-- Every listed transition is one the system takes. -/
theorem taken_of_mem {s : S} {es : List E} {t : Transition S E O}
    (mem : t ∈ transitions step s es) : Taken step t := by
  induction es generalizing s with
  | nil => cases mem
  | cons e es ih =>
      rcases List.mem_cons.mp mem with rfl | tail
      · rfl
      · exact ih tail

theorem mem_transitions (s : S) (es : List E) (e : E) (es' : List E) :
    take step (finish step s es) e ∈ transitions step s (es ++ e :: es') := by
  rw [transitions_append]
  exact List.mem_append_right _ List.mem_cons_self

theorem input_of_mem {s : S} {es : List E} {t : Transition S E O}
    (mem : t ∈ transitions step s es) : t.input ∈ es := by
  induction es generalizing s with
  | nil => cases mem
  | cons e es ih =>
      rcases List.mem_cons.mp mem with rfl | tail
      · exact List.mem_cons_self
      · exact List.mem_cons_of_mem _ (ih tail)

/-- A step of a run starts where the steps before it end. -/
theorem split_transitions {s : S} {es : List E} {ts ts' : List (Transition S E O)}
    {t : Transition S E O} (split : transitions step s es = ts ++ t :: ts') :
    ∃ es₁ es₂, es = es₁ ++ t.input :: es₂ ∧ ts = transitions step s es₁ ∧
      t = take step (finish step s es₁) t.input := by
  induction es generalizing s ts with
  | nil => cases ts <;> cases split
  | cons e es ih =>
      cases ts with
      | nil =>
          cases split
          exact ⟨[], es, rfl, rfl, rfl⟩
      | cons first ts =>
          obtain ⟨rfl, rest⟩ := List.cons.inj split
          obtain ⟨es₁, es₂, rfl, rfl, last⟩ := ih rest
          exact ⟨e :: es₁, es₂, rfl, rfl, last⟩

/-- The last steps of a run are a run. -/
theorem transitions_of_append {s : S} {es : List E} {ts ts' : List (Transition S E O)}
    (split : transitions step s es = ts ++ ts') : ∃ s' es', ts' = transitions step s' es' := by
  induction ts generalizing s es with
  | nil => exact ⟨s, es, split.symm⟩
  | cons t ts ih =>
      cases es with
      | nil => cases split
      | cons e es => exact ih (List.cons.inj split).2

/-! ### Invariants of runs -/

section Invariant

variable {I : S → Prop} {C : Transition S E O → Prop}

/-- An invariant that every step meeting `C` keeps holds around every step of a
run whose steps all meet `C`. -/
theorem invariant_transitions
    (keep : ∀ t, Taken step t → C t → I t.before → I t.after)
    {s : S} {es : List E} (start : I s) (meets : ∀ t ∈ transitions step s es, C t) :
    ∀ t ∈ transitions step s es, I t.before ∧ I t.after := by
  induction es generalizing s with
  | nil => intro t mem; cases mem
  | cons e es ih =>
      have first : I (step s e).2 :=
        keep (take step s e) rfl (meets _ List.mem_cons_self) start
      intro t mem
      rcases List.mem_cons.mp mem with rfl | tail
      · exact ⟨start, first⟩
      · exact ih first (fun t ht => meets t (List.mem_cons_of_mem _ ht)) t tail

/-- It holds where the run ends. -/
theorem invariant_finish
    (keep : ∀ t, Taken step t → C t → I t.before → I t.after)
    {s : S} {es : List E} (start : I s) (meets : ∀ t ∈ transitions step s es, C t) :
    I (finish step s es) := by
  induction es generalizing s with
  | nil => exact start
  | cons e es ih =>
      have first : I (step s e).2 :=
        keep (take step s e) rfl (meets _ List.mem_cons_self) start
      exact ih first fun t mem => meets t (List.mem_cons_of_mem _ mem)

end Invariant

/-- An invariant of a state and the steps that led to it, kept as each step is added,
holds at the end of every run. -/
theorem invariant_history {I : List (Transition S E O) → S → Prop}
    (keep : ∀ ts t, Taken step t → I ts t.before → I (ts ++ [t]) t.after)
    {s : S} (start : I [] s) (es : List E) : I (transitions step s es) (finish step s es) := by
  induction es using List.reverseRecOn with
  | nil => exact start
  | append_singleton es e ih =>
      rw [transitions_append, finish_append]
      exact keep _ (take step (finish step s es) e) rfl ih

/-! ### Two systems in step -/

section Lockstep

variable {S' E' O' : Type} {step' : S' → E' → O' × S'} {turn : E → E'} {R : S → S' → Prop}
  {C : E → Prop} (keep : ∀ s s' e, R s s' → C e → R (step s e).2 (step' s' (turn e)).2)

include keep

/-- Two systems that each step leaves related end related. -/
theorem related_finish {s : S} {s' : S'} {es : List E} (start : R s s') (meets : ∀ e ∈ es, C e) :
    R (finish step s es) (finish step' s' (es.map turn)) := by
  induction es generalizing s s' with
  | nil => exact start
  | cons e es ih =>
      exact ih (keep s s' e start (meets e List.mem_cons_self)) fun e' mem =>
        meets e' (List.mem_cons_of_mem _ mem)

/-- What can be told from related steps happens in both runs or in neither. -/
theorem exists_transition_iff {P : Transition S E O → Prop} {P' : Transition S' E' O' → Prop}
    (agree : ∀ s s' e, R s s' → C e → (P (take step s e) ↔ P' (take step' s' (turn e))))
    {s : S} {s' : S'} {es : List E} (start : R s s') (meets : ∀ e ∈ es, C e) :
    (∃ t ∈ transitions step s es, P t) ↔ ∃ t ∈ transitions step' s' (es.map turn), P' t := by
  induction es generalizing s s' with
  | nil => simp [transitions]
  | cons e es ih =>
      have here := meets e List.mem_cons_self
      rw [List.map_cons, transitions, transitions, List.exists_mem_cons_iff,
        List.exists_mem_cons_iff, agree s s' e start here]
      exact or_congr_right (ih (keep s s' e start here) fun e' mem =>
        meets e' (List.mem_cons_of_mem _ mem))

end Lockstep

/-! ### A system with steps of its own -/

section Stuttering

variable {S' E' O' P : Type} {step' : S' → E' → O' × S'} {turn : E → Option E'} {R : S → S' → Prop}
  {C : Transition S E O → Prop} {out : Transition S E O → List P}
  {out' : Transition S' E' O' → List P}

/-- Where each step leaves two systems related, one of them by a step or by none, and both
put out the same, whole runs do. -/
theorem refines_stuttering
    (keep : ∀ t s', Taken step t → C t → R t.before s' →
      match turn t.input with
      | none => R t.after s' ∧ out t = []
      | some e => R t.after (take step' s' e).after ∧ out t = out' (take step' s' e))
    {s : S} {s' : S'} {es : List E} (start : R s s') (meets : ∀ t ∈ transitions step s es, C t) :
    R (finish step s es) (finish step' s' (es.filterMap turn)) ∧
      (transitions step s es).flatMap out =
        (transitions step' s' (es.filterMap turn)).flatMap out' := by
  induction es generalizing s s' with
  | nil => exact ⟨start, rfl⟩
  | cons e es ih =>
      have here := keep (take step s e) s' rfl (meets _ List.mem_cons_self) start
      have later := fun t mem => meets t (List.mem_cons_of_mem _ mem)
      rw [transitions, List.flatMap_cons, finish]
      cases silent : turn e with
      | none =>
          rw [show turn (take step s e).input = none from silent] at here
          rw [List.filterMap_cons_none silent, here.2, List.nil_append]
          exact ih here.1 later
      | some e' =>
          rw [show turn (take step s e).input = some e' from silent] at here
          rw [List.filterMap_cons_some silent, here.2, transitions, List.flatMap_cons, finish]
          obtain ⟨related, same⟩ := ih here.1 later
          exact ⟨related, congrArg _ same⟩

/-- Where each step of the one that is a step of the other meets a condition there, the whole
run of the other does. -/
theorem meets_stuttering {C' : Transition S' E' O' → Prop}
    (keep : ∀ t s', Taken step t → C t → R t.before s' →
      match turn t.input with
      | none => R t.after s'
      | some e => R t.after (take step' s' e).after ∧ C' (take step' s' e))
    {s : S} {s' : S'} {es : List E} (start : R s s') (meets : ∀ t ∈ transitions step s es, C t) :
    ∀ t ∈ transitions step' s' (es.filterMap turn), C' t := by
  induction es generalizing s s' with
  | nil => exact List.forall_mem_nil _
  | cons e es ih =>
      have here := keep (take step s e) s' rfl (meets _ List.mem_cons_self) start
      have later := fun t mem => meets t (List.mem_cons_of_mem _ mem)
      cases silent : turn e with
      | none =>
          rw [show turn (take step s e).input = none from silent] at here
          rw [List.filterMap_cons_none silent]
          exact ih here later
      | some e' =>
          rw [show turn (take step s e).input = some e' from silent] at here
          rw [List.filterMap_cons_some silent, transitions, List.forall_mem_cons]
          exact ⟨here.2, ih here.1 later⟩

end Stuttering

end Wslg.Runs
