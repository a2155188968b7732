import Attestor.Submission

/-!
The consumer loop of a submitter: it takes verifications from the queue, one at a time, and submits each to its
end before it takes the next. Only one loop of a submitter runs at a time; another one that is called meanwhile
returns at once. A cancellation is noticed between submissions only.
-/

namespace Attestor.Submission

open Contract (Verification)

/-- Where a consumer loop stands. -/
inductive Loop where
  | called
  /-- The loop is the running one, and is about to take hold of the queue. -/
  | leasing
  | receiving
  | submitting (x : Submission)
  | over

namespace Loop

variable {χ σ π : Type}

/-- The loop is the one that runs. -/
def isActive : Loop → Bool
  | .called => false
  | .over => false
  | _ => true

/-- The loop ends, and another one may run. -/
def leave (s : Shared χ σ π) : Progress (Loop × Shared χ σ π) :=
  .moved (.over, { s with submitting := false })

/-- A step of the loop. `closed` says that nothing more will be published. -/
def step (b : Submitter) (client : Chain.Client χ) (cancelled closed : Bool) (l : Loop)
    (s : Shared χ σ π) : Progress (Loop × Shared χ σ π) :=
  match l with
  | .called =>
    if s.submitting then .moved (.over, s) else .moved (.leasing, { s with submitting := true })
  | .leasing => if cancelled then leave s else .moved (.receiving, s)
  | .receiving =>
    if cancelled then leave s
    else
      match s.outbound.next? with
      | some (v, outbound) => .moved (.submitting (.begin v), { s with outbound })
      | none => if closed then leave s else .blocked
  | .submitting x =>
    match x.outcome? with
    | some _ => .moved (.receiving, s)
    | none =>
      match x.step b client s with
      | (x, s) => .moved (.submitting x, s)
  | .over => .over

/-- Ends the loop wherever it stands. What it was submitting is lost. -/
def abort (l : Loop) (s : Shared χ σ π) : Shared χ σ π :=
  if l.isActive then { s with submitting := false } else s

/-- Steps until the loop waits or is over. Each verification takes eight steps at most, and three more
begin and end the loop. -/
def settle (b : Submitter) (client : Chain.Client χ) (cancelled closed : Bool) :
    (steps : Nat) → Loop → Shared χ σ π → Loop × Shared χ σ π
  | 0, l, s => (l, s)
  | steps + 1, l, s =>
    match l.step b client cancelled closed s with
    | .moved (l, s) => settle b client cancelled closed steps l s
    | _ => (l, s)

/-- Gives the loop the time that it can use. -/
def proceed (b : Submitter) (client : Chain.Client χ) (cancelled closed : Bool) (l : Loop)
    (s : Shared χ σ π) : Loop × Shared χ σ π :=
  settle b client cancelled closed (8 * (s.outbound.items.length + 1) + 3) l s

end Loop

/-- Runs a loop on a queue of its own to which nothing more is published. Gives how many of its items were
not taken. -/
def consume {χ σ π : Type} (b : Submitter) (client : Chain.Client χ) (items : List Verification)
    (s : Shared χ σ π) : Nat × Shared χ σ π :=
  let queue := items.foldl Queue.publish Queue.empty
  let (_, after) := Loop.proceed b client false true .called { s with outbound := queue }
  (after.outbound.items.length, { after with outbound := s.outbound })

end Attestor.Submission
