import Phrasebook.Value

/-!
# Evaluation contexts

A `Context` goes along with the evaluation of a message: the replacements, the keys that are being expanded, outermost
first, and the largest number of them.  A key is entered before its message is evaluated and left afterwards; entering
is refused for a key that is being expanded already and at the ceiling.  What happens to keys on the way is noted.
-/

namespace Phrasebook

/-- Why a key cannot be entered. -/
inductive Refusal where
  /-- The key is being expanded; the chain ends with it. -/
  | cycle (chain : List String)
  /-- As many keys are being expanded as may be. -/
  | tooDeep (key : String) (maxDepth : Nat)
deriving DecidableEq, Repr

/-- The wording of a refusal. -/
def Refusal.message : Refusal → String
  | cycle chain => "cyclic reference: " ++ " -> ".intercalate chain
  | tooDeep key maxDepth => "reference depth " ++ maxDepth.repr ++ " exceeded at '" ++ key ++ "'"

/-- Something that happened to a key during an evaluation. -/
inductive Notice where
  /-- The last of these keys was entered. -/
  | entered (stack : List String)
  /-- A key was refused. -/
  | refused (key : String) (reason : Refusal)
  /-- A key was entered that has no message. -/
  | missing (key : String)
deriving DecidableEq, Repr

/-- The wording of what is worth telling; that a key was entered is not. -/
def Notice.message? : Notice → Option String
  | entered _ => none
  | refused key reason => some ("'" ++ key ++ "' is left out: " ++ reason.message)
  | missing key => some ("'" ++ key ++ "' has no message")

/-- The state of an evaluation. -/
structure Context where
  /-- The values for names. -/
  replacements : Replacements
  /-- How many keys may be expanded at a time. -/
  maxDepth : Nat
  /-- The keys being expanded, outermost first. -/
  stack : List String := []
  /-- What happened so far, the latest first. -/
  notices : List Notice := []

namespace Context

/-- How many keys may be expanded at a time if nothing else is said. -/
def defaultMaxDepth : Nat := 8

/-- A context in which no key is being expanded. -/
def fresh (replacements : Replacements) (maxDepth : Nat := defaultMaxDepth) : Context where
  replacements := replacements
  maxDepth := maxDepth

/-- How many keys are being expanded. -/
def depth (context : Context) : Nat :=
  context.stack.length

/-- How many more keys may be entered. -/
def room (context : Context) : Nat :=
  context.maxDepth - context.depth

/-- Is the key being expanded? -/
def isExpanding (context : Context) (key : String) : Bool :=
  context.stack.contains key

/-- Why a key cannot be entered, if it cannot. -/
def refusal? (context : Context) (key : String) : Option Refusal :=
  if context.isExpanding key then some (.cycle (context.stack ++ [key]))
  else if context.maxDepth ≤ context.depth then some (.tooDeep key context.maxDepth)
  else none

/-- Notes something. -/
def note (context : Context) (notice : Notice) : Context :=
  { context with notices := notice :: context.notices }

/-- Enters a key, or says why not. -/
def enter (context : Context) (key : String) : Except Refusal Context :=
  match context.refusal? key with
  | some reason => .error reason
  | none => .ok ({ context with stack := context.stack ++ [key] }.note (.entered (context.stack ++ [key])))

/-- Leaves the key entered last. -/
def leave (context : Context) : Context :=
  { context with stack := context.stack.dropLast }

end Context

end Phrasebook
