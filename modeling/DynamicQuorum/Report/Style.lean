/-
  DynamicQuorum/Report/Style.lean
  ===============================
  **Colours on a terminal.**

  A styled text stands between a control sequence that turns its style on and one that resets
  all styles.  A reset inside the text would end the style too early, so the style is turned
  on again behind it.
-/
import DynamicQuorum.Proposal.State

namespace DynamicQuorum.Report

/-- Whether a terminal shows colours. -/
inductive Palette where
  | plain
  | coloured
deriving DecidableEq, Repr

inductive Style where
  | bold
  | boldGreen
  | dimmed
  | red
  | green
  | yellow
  | blue
  | brightCyan
  | brightGreen
  | brightYellow
  | brightMagenta
deriving DecidableEq, Repr

namespace Style

/-- The parameters of the control sequence that turns a style on. -/
def code : Style → List Char
  | .bold => ['1']
  | .boldGreen => ['1', ';', '3', '2']
  | .dimmed => ['2']
  | .red => ['3', '1']
  | .green => ['3', '2']
  | .yellow => ['3', '3']
  | .blue => ['3', '4']
  | .brightCyan => ['9', '6']
  | .brightGreen => ['9', '2']
  | .brightYellow => ['9', '3']
  | .brightMagenta => ['9', '5']

def sequence (code : List Char) : List Char := '\x1b' :: '[' :: (code ++ ['m'])

def start (style : Style) : List Char := sequence style.code

def reset : List Char := sequence ['0']

/-- Turn a style on again behind every reset in a text. -/
def keepOn (start : List Char) : List Char → List Char
  | '\x1b' :: '[' :: '0' :: 'm' :: rest => reset ++ start ++ keepOn start rest
  | c :: rest => c :: keepOn start rest
  | [] => []

def apply (style : Style) (palette : Palette) (text : String) : String :=
  match palette with
  | .plain => text
  | .coloured => String.ofList (style.start ++ keepOn style.start text.toList ++ reset)

/-- Green for a success, red for a failure, yellow while votes or objections may come. -/
def ofState : ProposalState → Style
  | .succeeded | .executed | .queued => .green
  | .defeated | .vetoed | .expired => .red
  | .active | .objectionPeriod => .yellow
  | .undetermined | .pending | .cancelled | .updatable => .dimmed

end Style

def showState (palette : Palette) (state : ProposalState) : String :=
  (Style.ofState state).apply palette state.label

end DynamicQuorum.Report
