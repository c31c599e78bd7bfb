/-
A log of times of which only the recent ones are kept.

`recent width now times` are the times of a log no more than `width` before `now`.
A log may be pruned to these each time one is added (`record`): the clock does not go
back, so what is dropped is never recent again (`Represents`), and the pruned log
answers every later question about recent times as the full one does.

A limit on the recent times of a log is a limit on every window: if an event is let
through only while at most `n` events are recent, no window of that width has more
than `n` events that were let through (`length_window_le`).
-/

import Mathlib.Algebra.Order.Group.Defs
import Mathlib.Data.List.Basic
import Mathlib.Data.List.Induction

namespace Wslg.SlidingWindow

variable {τ : Type} [AddCommGroup τ] [LinearOrder τ] {width : τ}

/-- The times of a log that are no more than `width` before `now`. -/
def recent (width now : τ) (times : List τ) : List τ := times.filter fun t => now - width ≤ t

/-- The log pruned to what is recent, with `now` added. -/
def record (width now : τ) (kept : List τ) : List τ := recent width now kept ++ [now]

/-- The pruned log `kept` has the same recent times as the full log, from the last time
of the full log on. -/
def Represents (width : τ) (kept times : List τ) : Prop :=
  ∀ now, (∀ t ∈ times, t ≤ now) → recent width now kept = recent width now times

theorem recent_append (now : τ) (times times' : List τ) :
    recent width now (times ++ times') = recent width now times ++ recent width now times' :=
  List.filter_append ..

theorem Represents.nil : Represents width [] [] := fun _ _ => rfl

variable [IsOrderedAddMonoid τ]

/-- What is recent later was recent before. -/
theorem recent_recent {now later : τ} (le : now ≤ later) (times : List τ) :
    recent width later (recent width now times) = recent width later times := by
  rw [recent, recent, List.filter_filter, recent]
  refine List.filter_congr fun t _ => ?_
  have start : now - width ≤ later - width := sub_le_sub_right le width
  by_cases isRecent : later - width ≤ t
  · simp [isRecent, start.trans isRecent]
  · simp [isRecent]

/-- Pruning before adding keeps the log a representation. -/
theorem Represents.record {kept times : List τ} {now : τ} (represents : Represents width kept times)
    (last : ∀ t ∈ times, t ≤ now) :
    Represents width (record width now kept) (times ++ [now]) := by
  intro later after
  have le : now ≤ later := after now (List.mem_append_right _ List.mem_cons_self)
  have earlier : ∀ t ∈ times, t ≤ later := fun t mem => (last t mem).trans le
  rw [SlidingWindow.record, recent_append, recent_append, recent_recent le,
    represents later earlier]

/-- The pruned log just added to is the recent part of the full one. -/
theorem record_eq_recent {kept times : List τ} {now : τ} (wide : 0 ≤ width)
    (represents : Represents width kept times) (last : ∀ t ∈ times, t ≤ now) :
    record width now kept = recent width now (times ++ [now]) := by
  have itself : recent width now [now] = [now] :=
    List.filter_cons_of_pos (decide_eq_true (sub_le_self now wide))
  rw [record, recent_append, represents now last, itself]

/-- If an event is let through only while at most `n` events are recent, then no window
has more than `n` events that were let through. -/
theorem length_window_le {n : Nat} {events : List (τ × Bool)}
    (clock : (events.map (·.1)).Pairwise (· ≤ ·))
    (limited : ∀ front e back, events = front ++ e :: back → e.2 = true →
      (recent width e.1 ((front ++ [e]).map (·.1))).length ≤ n) (start : τ) :
    (events.filter fun e => e.2 ∧ start ≤ e.1 ∧ e.1 ≤ start + width).length ≤ n := by
  induction events using List.reverseRecOn with
  | nil => exact Nat.zero_le n
  | append_singleton events e ih =>
      rw [List.filter_append]
      by_cases inside : e.2 = true ∧ start ≤ e.1 ∧ e.1 ≤ start + width
      · -- everything in the window up to the last event let through is recent then
        have few := limited events e [] rfl inside.1
        refine le_trans ?_ few
        rw [← List.filter_append, recent, List.filter_map, List.length_map]
        refine (List.monotone_filter_right _ fun d within => ?_).length_le
        have since : start ≤ d.1 := (of_decide_eq_true within).2.1
        have bound : e.1 - width ≤ start := sub_le_iff_le_add.mpr inside.2.2
        exact decide_eq_true (bound.trans since)
      · have none_ : [e].filter (fun e => e.2 ∧ start ≤ e.1 ∧ e.1 ≤ start + width) = [] :=
          List.filter_cons_of_neg fun within => inside (of_decide_eq_true within)
        rw [none_, List.append_nil]
        rw [List.map_append, List.pairwise_append] at clock
        refine ih clock.1 fun front d back split through => ?_
        exact limited front d (back ++ [e]) (by rw [split, List.append_assoc]; rfl) through

end Wslg.SlidingWindow
