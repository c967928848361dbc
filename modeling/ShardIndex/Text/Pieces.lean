/-!
# Pieces of a text

A text is cut at each of its separators; what stands between two of them may be empty.
-/

namespace ShardIndex.Text

universe u

/-- The pieces between the separators of a text. -/
def pieces {α : Type u} [DecidableEq α] (separator : α) : List α → List (List α)
  | [] => [[]]
  | x :: rest =>
    if x = separator then [] :: pieces separator rest
    else
      match pieces separator rest with
      | [] => [[x]]
      | piece :: others => (x :: piece) :: others

end ShardIndex.Text
