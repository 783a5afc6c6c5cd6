/-!
# Handing results from producers to a consumer

A queue without bound: producers never wait, and the consumer takes the items in the order in which
they were put in. It waits when the queue is empty.

Nothing is lost, doubled or overtaken on the way: however the steps of producers and consumer
interleave, what the consumer took and what is left are together what was put in
(`taken_append_left`). A consumer that counts as many items as were put in has therefore got them
all, in their order (`taken_eq_pushed`).

Specification: sections 4.2 and 9, the handoff from the producers to the single consumer.
-/

set_option autoImplicit false

namespace WalletScan.Handoff

variable {α : Type}

/-- The items that were put in and not yet taken, oldest first. -/
abbrev Queue (α : Type) := List α

/-- Puts an item in. -/
def push (item : α) (q : Queue α) : Queue α := q ++ [item]

/-- Takes the oldest item; there is none while the consumer would wait. -/
def pop? : Queue α → Option (α × Queue α)
  | [] => none
  | item :: rest => some (item, rest)

/-- A step of a producer or of the consumer. -/
inductive Step (α : Type) where
  | push (item : α)
  | pop

/-- What the consumer gets from a run of steps on a queue. A step that would wait gets nothing. -/
def runFrom : Queue α → List (Step α) → List (Option α)
  | _, [] => []
  | q, .push item :: rest => runFrom (push item q) rest
  | q, .pop :: rest =>
    match pop? q with
    | some (item, q) => some item :: runFrom q rest
    | none => none :: runFrom q rest

/-- What the consumer gets from a run of steps on an empty queue. -/
def run (steps : List (Step α)) : List (Option α) := runFrom [] steps

/-- What a run of steps leaves on a queue. -/
def leftFrom : Queue α → List (Step α) → Queue α
  | q, [] => q
  | q, .push item :: rest => leftFrom (push item q) rest
  | q, .pop :: rest =>
    match pop? q with
    | some (_, q) => leftFrom q rest
    | none => leftFrom q rest

/-- The items that the producers put in, in order. -/
def pushed : List (Step α) → List α
  | [] => []
  | .push item :: rest => item :: pushed rest
  | .pop :: rest => pushed rest

/-- The items that the consumer gets from an empty queue, in order. -/
def taken (steps : List (Step α)) : List α := (run steps).filterMap id

/-- No step loses or reorders items: those that are taken come before those that are left. -/
theorem runFrom_append_leftFrom (q : Queue α) (steps : List (Step α)) :
    (runFrom q steps).filterMap id ++ leftFrom q steps = q ++ pushed steps := by
  induction steps generalizing q with
  | nil => simp [runFrom, leftFrom, pushed]
  | cons step rest ih =>
    cases step with
    | push item =>
      unfold runFrom leftFrom pushed push
      rw [ih, List.append_assoc, List.singleton_append]
    | pop =>
      cases q with
      | nil => simpa [runFrom, leftFrom, pushed, pop?] using ih []
      | cons item q => simpa [runFrom, leftFrom, pushed, pop?] using ih q

theorem taken_append_left (steps : List (Step α)) :
    taken steps ++ leftFrom [] steps = pushed steps :=
  runFrom_append_leftFrom [] steps

/-- A consumer that counts as many items as were put in has got them all, in their order. -/
theorem taken_eq_pushed {steps : List (Step α)}
    (hcount : (pushed steps).length ≤ (taken steps).length) : taken steps = pushed steps := by
  have hall := taken_append_left steps
  have hlength := congrArg List.length hall
  rw [List.length_append] at hlength
  have hleft : leftFrom [] steps = [] := List.eq_nil_of_length_eq_zero (by omega)
  rwa [hleft, List.append_nil] at hall

end WalletScan.Handoff
