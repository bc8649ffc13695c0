/-
  DynamicQuorum/Report/Table.lean
  ===============================
  **Tables of text.**

  Every column is as wide as its widest cell, with a blank on either side; cells are aligned to
  the left, and a rule stands above, between and below the rows.  The table of proposals has
  a heading and a row for each proposal.
-/
import DynamicQuorum.Proposal.Registry

namespace DynamicQuorum.Report

abbrev Row := List String

namespace Table

/-- The width of each column so far, and a row that may need more. -/
def widen : List Nat → Row → List Nat
  | [], cells => cells.map (·.length)
  | widths, [] => widths
  | width :: widths, cell :: cells => max width cell.length :: widen widths cells

def widths (rows : List Row) : List Nat := rows.foldl widen []

def rule (widths : List Nat) : String :=
  "+" ++ String.join (widths.map fun width =>
    String.ofList (List.replicate (width + 2) '-') ++ "+")

def pad (width : Nat) (cell : String) : String :=
  cell ++ String.ofList (List.replicate (width - cell.length) ' ')

def line (widths : List Nat) (row : Row) : String :=
  "|" ++ String.join ((widths.zip row).map fun column =>
    " " ++ pad column.1 column.2 ++ " |")

def lines (rows : List Row) : List String :=
  let widths := widths rows
  rule widths :: rows.flatMap fun row => [line widths row, rule widths]

def render (rows : List Row) : String := String.intercalate "\n" (lines rows)

end Table

def proposalHeading : Row :=
  ["ID", "Proposer", "State", "For", "Against", "Abstain", "Quorum", "Dynamic"]

def proposalRow (view : ChainView) (p : Proposal) : Row :=
  [toString p.id, p.proposer.short, (p.stateAt view).label, p.forVotes.toDecimal,
    p.againstVotes.toDecimal, p.abstainVotes.toDecimal, p.quorumVotes.toDecimal,
    if p.quorumParams.isSome then "yes" else "no"]

def proposalTable (view : ChainView) (proposals : List Proposal) : String :=
  Table.render (proposalHeading :: proposals.map (proposalRow view))

end DynamicQuorum.Report
