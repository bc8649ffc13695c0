/-
  DynamicQuorum/Text/Split.lean
  =============================
  **Cutting a text at a separator.**
-/

namespace DynamicQuorum.Text

/-- The parts of a text between separators; there is one more of them than of these. -/
def splitOn (separator : Char) : List Char → List (List Char)
  | [] => [[]]
  | c :: rest =>
    if c = separator then [] :: splitOn separator rest
    else
      match splitOn separator rest with
      | [] => [[c]]
      | part :: parts => (c :: part) :: parts

end DynamicQuorum.Text
