import Attestor.Queue

/-!
Channels: a queue with the halves that refer to it. Both halves can be copied and dropped. A channel takes
items as long as one receiver is left, and it is disconnected once no sender is left; items that were queued
before are still handed out.

Items are received one after the other. That comes to taking them from the queue at once (`take_eq`, `drain_eq`).
-/

namespace Attestor

/-- Why taking items came to an end. -/
inductive Channel.End where
  /-- As many items as wanted were taken. -/
  | satisfied
  /-- Nothing waits, but a sender is left. -/
  | empty
  /-- Nothing waits and no sender is left. -/
  | disconnected
  deriving DecidableEq, Repr

/-- A queue, and for each sender and each receiver ever made whether it is still there. -/
structure Channel (α : Type) where
  queue : Queue α
  senders : List Bool
  receivers : List Bool

namespace Channel

variable {α : Type}

/-- A channel with one sender and one receiver. -/
def new : Channel α := ⟨.empty, [true], [true]⟩

/-- A sender is left. -/
def hasSender (c : Channel α) : Bool := c.senders.any id

/-- A receiver is left. -/
def hasReceiver (c : Channel α) : Bool := c.receivers.any id

/-- Publishes an item, unless no receiver is left; tells whether it did. -/
def publish (c : Channel α) (a : α) : Bool × Channel α :=
  if c.hasReceiver then (true, { c with queue := c.queue.publish a }) else (false, c)

/-- Makes another sender and gives its number. -/
def cloneSender (c : Channel α) : Nat × Channel α :=
  (c.senders.length, { c with senders := c.senders ++ [true] })

/-- Makes another receiver and gives its number. -/
def cloneReceiver (c : Channel α) : Nat × Channel α :=
  (c.receivers.length, { c with receivers := c.receivers ++ [true] })

/-- Drops a sender. -/
def dropSender (c : Channel α) (i : Nat) : Channel α :=
  { c with senders := c.senders.set i false }

/-- Drops a receiver. -/
def dropReceiver (c : Channel α) (i : Nat) : Channel α :=
  { c with receivers := c.receivers.set i false }

/-- How many items were ever published, as a 64-bit word. -/
def published (c : Channel α) : UInt64 := .ofNat c.queue.published

/-- The items that wait. With the last receiver they are gone. -/
def items (c : Channel α) : List α := if c.hasReceiver then c.queue.items else []

/-- Receives the oldest item that waits, or tells why there is none. -/
def receive (c : Channel α) : Except End (α × Channel α) :=
  match c.queue.next? with
  | some (a, queue) => .ok (a, { c with queue })
  | none => .error (if c.hasSender then .empty else .disconnected)

/-- Receives until there are `max` items or none is left, without waiting for more. -/
def take (c : Channel α) : (max : Nat) → List α × End × Channel α
  | 0 => ([], .satisfied, c)
  | max + 1 =>
    match c.receive with
    | .ok (a, c) =>
      let (items, stop, c) := c.take max
      (a :: items, stop, c)
    | .error stop => ([], stop, c)

/-- Receives until none is left. -/
def drain (c : Channel α) : List α × Channel α :=
  -- One item more is asked for than waits, so none is left when it ends.
  let (items, _, c) := c.take (c.queue.items.length + 1)
  (items, c)

/-! ### Operations -/

/-- The halves of a channel. -/
inductive Half where
  | sender
  | receiver
  deriving DecidableEq, Repr

/-- For each sender, or each receiver, ever made whether it is still there. -/
def flags (c : Channel α) : Half → List Bool
  | .sender => c.senders
  | .receiver => c.receivers

/-- What is done with one of the senders or receivers, given by its number. -/
inductive Operation (α : Type) where
  | publish (sender : Nat) (item : α)
  | published (sender : Nat)
  | clone (half : Half) (number : Nat)
  | drop (half : Half) (number : Nat)
  | drain (receiver : Nat)
  | take (receiver max : Nat)
  deriving Repr

/-- The sender or receiver that something is done with. -/
def Operation.holder : Operation α → Half × Nat
  | .publish i _ => (.sender, i)
  | .published i => (.sender, i)
  | .clone half i => (half, i)
  | .drop half i => (half, i)
  | .drain i => (.receiver, i)
  | .take i _ => (.receiver, i)

/-- What was done, and what it gave. -/
inductive Entry (α : Type) where
  | published (sender : Nat) (item : α) (done : Bool)
  | counted (sender : Nat) (count : UInt64)
  | cloned (half : Half) (number new : Nat)
  | dropped (half : Half) (number : Nat)
  | drained (receiver : Nat) (items : List α)
  | took (receiver max : Nat) (items : List α) (stop : End)
  deriving DecidableEq, Repr

/-- Performs an operation. -/
def perform (c : Channel α) : Operation α → Entry α × Channel α
  | .publish i a =>
    let (done, c) := c.publish a
    (.published i a done, c)
  | .published i => (.counted i c.published, c)
  | .clone .sender i =>
    let (new, c) := c.cloneSender
    (.cloned .sender i new, c)
  | .clone .receiver i =>
    let (new, c) := c.cloneReceiver
    (.cloned .receiver i new, c)
  | .drop .sender i => (.dropped .sender i, c.dropSender i)
  | .drop .receiver i => (.dropped .receiver i, c.dropReceiver i)
  | .drain i =>
    let (items, c) := c.drain
    (.drained i items, c)
  | .take i max =>
    let (items, stop, c) := c.take max
    (.took i max items stop, c)

/-- Performs operations one after the other. -/
def performAll (c : Channel α) : List (Operation α) → List (Entry α) × Channel α
  | [] => ([], c)
  | op :: ops =>
    let (entry, c) := c.perform op
    let (entries, c) := c.performAll ops
    (entry :: entries, c)

/-- An operation can be performed as long as the sender or receiver that it is done with is there. -/
def Offers (c : Channel α) (op : Operation α) : Prop := (c.flags op.holder.1)[op.holder.2]? = some true

/-- Each of the operations can be performed when its turn comes. -/
def OffersAll (c : Channel α) : List (Operation α) → Prop
  | [] => True
  | op :: ops => c.Offers op ∧ (c.perform op).2.OffersAll ops

theorem flags_queue (c : Channel α) (queue : Queue α) (half : Half) : { c with queue }.flags half = c.flags half := by
  cases half <;> rfl

/-! ### Receiving -/

/-- Receiving one item after the other takes what the queue takes at once, and stops early for want of items. -/
theorem take_eq (c : Channel α) (max : Nat) :
    c.take max = ((c.queue.take max).1,
      if c.queue.items.length < max then if c.hasSender then .empty else .disconnected else .satisfied,
      { c with queue := (c.queue.take max).2 }) := by
  induction max generalizing c with
  | zero => simp [take, Queue.take, Nat.min_eq_left c.queue.taken_le]
  | succ max ih =>
    rw [take, receive]
    cases h : c.queue.next? with
    | none =>
      have hitems := Queue.next?_eq_none_iff.mp h
      simp [Queue.take_of_items_eq_nil hitems, hitems]
    | some p =>
      obtain ⟨a, queue⟩ := p
      have hitems : c.queue.items.length = queue.items.length + 1 := by
        rw [(Queue.of_next? h).2.1, List.length_cons]
      have hshort : c.queue.items.length < max + 1 ↔ queue.items.length < max := by omega
      simp only [ih, Queue.take_of_next? h, hshort]
      rfl

/-- Receiving until none is left takes all that waits. -/
theorem drain_eq (c : Channel α) : c.drain = (c.queue.items, { c with queue := c.queue.drain.2 }) := by
  have hmore : c.queue.take (c.queue.items.length + 1) = (c.queue.items, c.queue.drain.2) := by
    have hmin : min (c.queue.taken + (c.queue.items.length + 1)) c.queue.log.length = c.queue.log.length := by
      have hlength : c.queue.items.length = c.queue.log.length - c.queue.taken := List.length_drop
      omega
    simp only [Queue.take, Queue.drain, List.take_of_length_le (Nat.le_succ _), hmin]
  rw [drain, take_eq, hmore]

end Channel

end Attestor
