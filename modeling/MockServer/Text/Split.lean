/-
  MockServer.Text.Split — cutting lists at separators.

  A list is cut at every occurrence of one element, or at the first or
  at every occurrence of a pattern of several elements, scanning from
  the left.
-/

namespace MockServer.Text

variable {α : Type} [DecidableEq α]

/-- Puts an element in front of the first piece. -/
def consFirst (x : α) : List (List α) → List (List α)
  | [] => [[x]]
  | piece :: rest => (x :: piece) :: rest

/-- The pieces between the occurrences of `sep`; always at least one. -/
def splitOn (sep : α) : List α → List (List α)
  | [] => [[]]
  | x :: rest => if x = sep then [] :: splitOn sep rest else consFirst x (splitOn sep rest)

/-- The parts before and after the first occurrence of an element. -/
def splitFirst (sep : α) : List α → Option (List α × List α)
  | [] => none
  | x :: rest =>
    if x = sep then some ([], rest)
    else (splitFirst sep rest).map fun (before, after) => (x :: before, after)

/-- The rest of a list after a pattern, if the list starts with it. -/
def after? : List α → List α → Option (List α)
  | [], xs => some xs
  | _ :: _, [] => none
  | p :: pat, x :: xs => if p = x then after? pat xs else none

/-- The parts before and after the first occurrence of a pattern. -/
def splitAt? (pat : List α) : List α → Option (List α × List α)
  | [] => (after? pat []).map fun after => ([], after)
  | x :: rest =>
    match after? pat (x :: rest) with
    | some after => some ([], after)
    | none => (splitAt? pat rest).map fun (before, after) => (x :: before, after)

def occurs (pat xs : List α) : Bool := (splitAt? pat xs).isSome

/-- The pieces between the occurrences of a pair of elements. -/
def splitPair (a b : α) : List α → List (List α)
  | [] => [[]]
  | [x] => [[x]]
  | x :: y :: rest =>
    if x = a ∧ y = b then [] :: splitPair a b rest
    else consFirst x (splitPair a b (y :: rest))

end MockServer.Text
