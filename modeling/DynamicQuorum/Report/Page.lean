/-
  DynamicQuorum/Report/Page.lean
  ==============================
  **What the commands show.**

  A page is a heading over a double line, and lines of a label and a value each.  A notice is a
  single line behind a symbol that tells its kind.
-/
import DynamicQuorum.Report.Style
import DynamicQuorum.Report.Table
import DynamicQuorum.Settings.Basic

namespace DynamicQuorum.Report

/-! ### Notices -/

inductive Notice where
  | success
  | failure
  | warning
  | info
deriving DecidableEq, Repr

namespace Notice

def symbol : Notice → String
  | .success => "✓"
  | .failure => "✗"
  | .warning => "⚠"
  | .info => "ℹ"

def style : Notice → Style
  | .success => .green
  | .failure => .red
  | .warning => .yellow
  | .info => .blue

def render (notice : Notice) (palette : Palette) (text : String) : String :=
  notice.style.apply palette (notice.symbol ++ " " ++ text)

end Notice

/-! ### Pages -/

def ofLines (lines : List String) : String := String.join (lines.map (· ++ "\n"))

def heading (palette : Palette) (title : String) : List String :=
  [Style.bold.apply palette title, String.ofList (List.replicate 50 '=')]

/-- A value behind its label, the values of a page in one column. -/
def labelled (column : Nat) (label value : String) : String :=
  Table.pad column (label ++ ":") ++ value

def quorumPage (palette : Palette) (params : QuorumParams) (votes : VoteSnapshot)
    (quorum : Word256) : String :=
  ofLines (heading palette "Dynamic Quorum" ++
    [labelled 18 "Against votes" votes.againstVotes.toDecimal,
     labelled 18 "Total supply" votes.totalSupply.toDecimal,
     labelled 18 "Min quorum" params.minBps.toPercent,
     labelled 18 "Max quorum" params.maxBps.toPercent,
     labelled 18 "Coefficient" params.coefficient.toDecimal,
     "",
     labelled 18 "Quorum votes" (Style.boldGreen.apply palette quorum.toDecimal)])

def proposalPage (palette : Palette) (view : ChainView) (p : Proposal) : String :=
  ofLines (heading palette ("Proposal " ++ toString p.id) ++
    [labelled 16 "State" (showState palette (p.stateAt view)),
     labelled 16 "Proposer" p.proposer.toHex,
     labelled 16 "Voting"
       ("blocks " ++ toString p.startBlock ++ " to " ++ toString p.endBlock),
     labelled 16 "For" p.forVotes.toDecimal,
     labelled 16 "Against" p.againstVotes.toDecimal,
     labelled 16 "Abstain" p.abstainVotes.toDecimal,
     labelled 16 "Quorum votes" p.quorumVotes.toDecimal])

def settingsPage (palette : Palette) (file : String) (s : Settings) : String :=
  ofLines (heading palette "CLI Configuration" ++
    [labelled 14 "File" file,
     labelled 14 "Log level" (Style.brightCyan.apply palette s.logLevel),
     labelled 14 "JSON logs" (Settings.truthText s.jsonLogs),
     labelled 14 "DAO v3" (Style.brightGreen.apply palette (Settings.truthText s.daoV3)),
     labelled 14 "Min quorum" (Style.brightYellow.apply palette s.quorum.minBps.toPercent),
     labelled 14 "Max quorum" (Style.brightYellow.apply palette s.quorum.maxBps.toPercent),
     labelled 14 "Coefficient"
       (Style.brightMagenta.apply palette s.quorum.coefficient.toDecimal)])

def settingLine (palette : Palette) (key value : String) : String :=
  Style.brightCyan.apply palette key ++ " = " ++ Style.brightGreen.apply palette value

end DynamicQuorum.Report
