import Phrasebook.Evaluation

/-!
# Stores and locales

A `Store` holds the active tree, if there is one.  Trees are values: a snapshot of a store keeps its tree whatever
happens to the store afterwards.  A `Locale` translates keys with the active tree of its store.
-/

namespace Phrasebook

/-- A place for the active tree. -/
structure Store where
  /-- A snapshot of the active tree. -/
  current : Option Tree := none

namespace Store

/-- Makes a tree the active one. -/
def set (_store : Store) (tree : Tree) : Store :=
  ⟨some tree⟩

/-- Removes the active tree. -/
def clear (_store : Store) : Store :=
  ⟨none⟩

end Store

/-- A store, and how many keys may be expanded at a time. -/
structure Locale where
  maxDepth : Nat := Context.defaultMaxDepth
  store : Store := {}

namespace Locale

/-- A locale with a tree and the default depth. -/
def withTree (tree : Tree) : Locale where
  store := ⟨some tree⟩

/-- Makes a tree the active one. -/
def set (locale : Locale) (tree : Tree) : Locale :=
  { locale with store := locale.store.set tree }

/-- Removes the active tree. -/
def clear (locale : Locale) : Locale :=
  { locale with store := locale.store.clear }

/-- A snapshot of the active tree. -/
def current (locale : Locale) : Option Tree :=
  locale.store.current

/-- Evaluates the message of a key; without an active tree it is the empty text. -/
def evaluate (locale : Locale) (key : String) (replacements : Replacements) : Evaluation.Outcome :=
  let context := Context.fresh replacements locale.maxDepth
  match locale.current with
  | none => (.ok "", context)
  | some tree => Evaluation.evalKey tree key context

/-- Translates a key. -/
def translate (locale : Locale) (key : String) (replacements : Replacements) : Except EvalError String :=
  (locale.evaluate key replacements).1

end Locale

end Phrasebook
