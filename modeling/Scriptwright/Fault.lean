/-!
# Faults

What goes wrong when a value is used in a way its shape does not allow. A fault has no text of its
own beyond its kind, except for emitters that were put together without their counterpart.
-/

namespace Scriptwright

inductive Fault where
  | notIterable
  /-- A collection was looked up in a table. -/
  | unhashable
  /-- A value that has no text as data was written as data. -/
  | notEncodable
  | notIndexable
  | notText
  | notRecord
  | missingKey
  /-- A text that stands for no value, such as a day that does not exist. -/
  | badValue
  /-- A value that holds itself was written as data. -/
  | circular
  /-- A value that holds itself was followed without end. -/
  | endless
  | outOfRange
  | tooLarge
  /-- A place that leads back to itself. -/
  | linkLoop
  /-- Half of a character that is written in two halves. -/
  | unpaired
  | unmatchedMark
  /-- An emitter needed the counterpart it was not linked with. -/
  | unlinked (message : String)
deriving DecidableEq, Repr

def Fault.kind : Fault → String
  | .notIterable | .unhashable | .notEncodable | .notIndexable | .notText => "TypeError"
  | .notRecord => "AttributeError"
  | .missingKey => "KeyError"
  | .badValue | .circular => "ValueError"
  | .endless => "RecursionError"
  | .outOfRange => "IndexError"
  | .tooLarge => "OverflowError"
  | .unmatchedMark => "MarkupError"
  | .linkLoop | .unlinked _ => "RuntimeError"
  | .unpaired => "UnicodeEncodeError"

def Fault.message? : Fault → Option String
  | .unlinked message => some message
  | _ => none

theorem exists_of_map_eq_ok {ε α β : Type} {f : α → β} {x : Except ε α} {b : β}
    (h : x.map f = .ok b) : ∃ a, x = .ok a ∧ f a = b := by
  cases x with
  | error e => cases h
  | ok a =>
    cases h
    exact ⟨a, rfl, rfl⟩

end Scriptwright
