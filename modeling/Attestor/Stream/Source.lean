import Attestor.Stream.Exit

/-!
Sources of blocks. Starting a source opens a feed of blocks in the order of their heights, from a height or
from wherever the source chooses. A scripted source plays back what it was given, one run for each start.
-/

namespace Attestor.Stream

/-- What a feed has to give. -/
inductive Pull (ρ : Type) where
  | block (block : Chain.Block) (rest : ρ)
  | failed (failure : Failure)
  | completed
  /-- Nothing yet. -/
  | pending

/-- A source of blocks with state `σ`, whose feeds have state `ρ`. -/
structure Source (σ ρ : Type) where
  /-- The latest height that the source knows, if it can tell. -/
  currentHeight : σ → Except Failure (Option Chain.Height) × σ
  start : Option Chain.Height → σ → Except Failure ρ × σ
  next : ρ → Pull ρ

/-! ### Scripted sources -/

/-- How a scripted feed ends. -/
inductive Tail where
  | completes
  /-- The feed stays open and gives nothing more. -/
  | hangs
  deriving DecidableEq, Repr

/-- A scripted feed. -/
structure Feed where
  items : List (Except Failure Chain.Block)
  tail : Tail

/-- What a feed that is given nothing does: it stays open. -/
def Feed.idle : Feed := ⟨[], .hangs⟩

/-- Gives the next item. -/
def Feed.next (f : Feed) : Pull Feed :=
  match f.items, f.tail with
  | .ok block :: rest, tail => .block block ⟨rest, tail⟩
  | .error failure :: _, _ => .failed failure
  | [], .completes => .completed
  | [], .hangs => .pending

/-- A source that plays back scripted runs. A run is a feed, or a failure to start. -/
structure Script where
  runs : List (Except Failure Feed)
  /-- The heights that starts were asked for, in order. -/
  starts : List (Option Chain.Height)
  height : Option Chain.Height
  /-- Asking for the current height fails. -/
  heightFailure : Option Failure

namespace Script

/-- Nothing scripted: feeds stay open and give nothing. -/
def empty : Script := ⟨[], [], none, none⟩

/-- Scripts the next run that has no script. -/
def push (s : Script) (run : Except Failure Feed) : Script :=
  { s with runs := s.runs ++ [run] }

def currentHeight (s : Script) : Except Failure (Option Chain.Height) :=
  match s.heightFailure with
  | some failure => .error failure
  | none => .ok s.height

/-- Plays the next run. -/
def start (height : Option Chain.Height) (s : Script) : Except Failure Feed × Script :=
  (s.runs.headD (.ok .idle), { s with starts := s.starts ++ [height], runs := s.runs.drop 1 })

/-- The source that plays a script. -/
def source : Source Script Feed where
  currentHeight s := (s.currentHeight, s)
  start := start
  next := Feed.next

end Script

end Attestor.Stream
