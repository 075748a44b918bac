/-!
# Pieces between separators

Cutting a text at every place where a separator stands, or at the first such place only.
-/

namespace FleetControl.Text

/-- The pieces of a list between the places where a separator stands. There is always at least one. -/
def pieces {α : Type} [DecidableEq α] (separator : α) : List α → List (List α)
  | [] => [[]]
  | a :: rest =>
    if a = separator then [] :: pieces separator rest
    else match pieces separator rest with
      | [] => [[a]]
      | piece :: more => (a :: piece) :: more

/-- What stands before the first separator and what stands after it. -/
def splitFirst {α : Type} [DecidableEq α] (separator : α) (as : List α) : List α × List α :=
  (as.takeWhile (· ≠ separator), (as.dropWhile (· ≠ separator)).drop 1)

end FleetControl.Text
