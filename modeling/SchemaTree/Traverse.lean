/-!
Functions that may fail, applied along a list: the first failure is the outcome.
-/

namespace SchemaTree

/-- Applies a function to every element of a list, in order. -/
def mapEach {α β ε : Type} (f : α → Except ε β) : List α → Except ε (List β)
  | [] =>
      .ok []
  | head :: tail =>
      (f head).bind fun first => (mapEach f tail).map fun others => first :: others

/-- Runs a check on every element of a list, in order. -/
def checkEach {α ε : Type} (f : α → Except ε Unit) : List α → Except ε Unit
  | [] =>
      .ok ()
  | head :: tail =>
      (f head).bind fun _ => checkEach f tail

theorem checkEach_eq_ok_iff {α ε : Type} (f : α → Except ε Unit) (items : List α) :
    checkEach f items = .ok () ↔ ∀ item ∈ items, f item = .ok () := by
  induction items with
  | nil => simp [checkEach]
  | cons head tail inductionHypothesis =>
      cases outcome : f head with
      | error error => simp [checkEach, outcome, Except.bind]
      | ok checked => simp [checkEach, outcome, Except.bind, inductionHypothesis]

end SchemaTree
