/-!
Code of the integrator, as the engine sees it from outside. Such code may give back a fault, which is a cause
with contexts around it, or it may panic instead of giving anything back.
-/

namespace Attestor

/-- A fault: a cause and the contexts that were put around it, the innermost first. -/
structure Fault where
  cause : String
  contexts : List String
  deriving DecidableEq, Repr

namespace Fault

/-- A fault without context. -/
def ofCause (cause : String) : Fault := ⟨cause, []⟩

/-- Puts a context around a fault. -/
def within (f : Fault) (context : String) : Fault :=
  { f with contexts := f.contexts ++ [context] }

/-- The fault in words, the outermost context first. -/
def message (f : Fault) : String :=
  ": ".intercalate (f.contexts.reverse ++ [f.cause])

end Fault

/-- What a panic carries. -/
inductive Panic where
  | text (message : String)
  /-- Something that is no text. -/
  | opaquePayload
  deriving DecidableEq, Repr

/-- The panic in words. -/
def Panic.message : Panic → String
  | .text message => message
  | .opaquePayload => "unknown panic"

/-- What comes of calling into code that may panic. -/
inductive Answer (α : Type) where
  | value (a : α)
  | panic (p : Panic)
  deriving DecidableEq, Repr

end Attestor
