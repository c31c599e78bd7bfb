/-
A queue that keeps what went through it.

One party sends, the other takes, in order and each message once: nothing is lost between
`delivered` and `pending`. So what was taken is always a prefix of what was sent, and a fact
about all messages sent is one about those still on their way and those that arrived.
-/

import Mathlib.Data.List.Basic

namespace Wslg

/-- What was taken out of the queue, and what is in it. -/
structure Fifo (α : Type) where
  delivered : List α := []
  pending : List α := []
deriving DecidableEq

namespace Fifo

variable {α : Type}

/-- Everything that was ever put in. -/
def sent (q : Fifo α) : List α := q.delivered ++ q.pending

def send (q : Fifo α) (a : α) : Fifo α := { q with pending := q.pending ++ [a] }

/-- The first message of the queue is taken, if there is one. -/
def take (q : Fifo α) : Fifo α :=
  match q.pending with
  | [] => q
  | a :: rest => ⟨q.delivered ++ [a], rest⟩

@[simp] theorem sent_send (q : Fifo α) (a : α) : (q.send a).sent = q.sent ++ [a] := by
  rw [sent, sent, send, List.append_assoc]

theorem take_eq {q : Fifo α} {a : α} {rest : List α} (pending : q.pending = a :: rest) :
    q.take = ⟨q.delivered ++ [a], rest⟩ := by
  rw [take, pending]

@[simp] theorem sent_take (q : Fifo α) : q.take.sent = q.sent := by
  cases pending : q.pending with
  | nil => rw [take, pending]
  | cons a rest =>
      rw [take_eq pending, sent, sent, pending, List.append_assoc, List.singleton_append]

theorem mem_sent_of_pending {q : Fifo α} {a : α} {rest : List α} (pending : q.pending = a :: rest) :
    a ∈ q.sent := by
  rw [sent, pending]
  exact List.mem_append_right _ List.mem_cons_self

end Fifo

end Wslg
