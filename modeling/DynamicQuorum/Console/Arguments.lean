/-
  DynamicQuorum/Console/Arguments.lean
  ====================================
  **Taking arguments apart.**

  A grammar names the options, the positional arguments and the inner commands of a command;
  the arguments are scanned from left to right into a record.  An option is written `--name`
  or by a letter behind a dash; its value is attached (`--name=value`, `-cvalue`, `-c=value`)
  or is the next argument, unless that looks like an option.  Two dashes alone end the options.

  A value is looked at when the next argument has been recognised, or at the end.  An argument
  that is not recognised is therefore reported in preference to a bad value in front of it.
-/
import DynamicQuorum.Error

namespace DynamicQuorum

inductive ValueFault where
  | word (cause : ValueError)
  | state (cause : GovernanceError)
  | number
deriving DecidableEq, Repr

def ValueFault.message : ValueFault → String
  | .word cause => cause.message
  | .state cause => cause.message
  | .number => "not a number in range"

/-- Why a command line cannot be carried out.  Asking for help or for the version is one of the ways
    not to give a command. -/
inductive UsageError where
  | badValue (fault : ValueFault)
  | missingValue
  | surplusValue
  | repeated
  | unknownArgument
  | unknownCommand
  | missingArgument
  | missingCommand
  | nothingGiven
  | help
  | version
deriving DecidableEq, Repr

def UsageError.message : UsageError → String
  | .badValue fault => "invalid value: " ++ fault.message
  | .missingValue => "a value is missing"
  | .surplusValue => "a flag takes no value"
  | .repeated => "an option was given twice"
  | .unknownArgument => "unexpected argument"
  | .unknownCommand => "unknown command"
  | .missingArgument => "a required argument is missing"
  | .missingCommand | .nothingGiven => "a command is missing"
  | .help => "help requested"
  | .version => "version requested"

/-! ### Grammars -/

abbrev Taker (σ : Type) := String → σ → Except UsageError σ

inductive Effect (σ : Type) where
  | flag (set : σ → σ)
  | value (take : Taker σ)
  | stop (request : UsageError)

structure Switch (σ : Type) where
  name : String
  letter : Option Char := none
  effect : Effect σ

structure Positional (σ : Type) where
  name : String
  take : Taker σ

structure Grammar (σ : Type) where
  switches : List (Switch σ)
  positionals : List (Positional σ) := []
  commands : List String := []

variable {σ : Type}

/-! ### Scanning -/

/-- An option or a positional argument whose value was not looked at yet; there is no value while
    the next argument is awaited. -/
structure Pending (σ : Type) where
  name : String
  take : Taker σ
  value : Option String

/-- The arguments as far as they were scanned: what was taken into the record, what is still
    free, and whether the options have ended. -/
structure Scan (σ : Type) where
  record : σ
  used : List String := []
  pending : Option (Pending σ) := none
  free : List (Positional σ)
  ended : Bool := false

namespace Scan

def give (s : Scan σ) (name : String) (take : Taker σ) (value : String) :
    Except UsageError (Scan σ) :=
  if name ∈ s.used then .error .repeated
  else (take value s.record).map fun record => { s with record := record, used := name :: s.used }

/-- Look at the value that was left pending. -/
def flush (s : Scan σ) : Except UsageError (Scan σ) :=
  match s.pending with
  | none => .ok s
  | some p =>
    match p.value with
    | none => .error .missingValue
    | some value => { s with pending := none }.give p.name p.take value

def awaits (s : Scan σ) : Bool := s.pending.any (·.value.isNone)

def await (s : Scan σ) (name : String) (take : Taker σ) (value : Option String) :
    Except UsageError (Scan σ) := do
  let s ← s.flush
  return { s with pending := some ⟨name, take, value⟩ }

def turnOn (s : Scan σ) (name : String) (set : σ → σ) : Except UsageError (Scan σ) := do
  let s ← s.flush
  s.give name (fun _ record => .ok (set record)) ""

/-- An option by its name, with the value attached to it if there is one. -/
def option (s : Scan σ) (g : Grammar σ) (name : String) (attached : Option String) :
    Except UsageError (Scan σ) :=
  match g.switches.find? (·.name = name) with
  | none => .error .unknownArgument
  | some switch =>
    match switch.effect, attached with
    | .value take, some value => do
      let s ← s.flush
      s.give name take value
    | .value take, none => s.await name take none
    | _, some _ => .error .surplusValue
    | .flag set, none => s.turnOn name set
    | .stop request, none => do
      let _ ← s.flush
      throw request

/-- Options by their letters. -/
def letters (s : Scan σ) (g : Grammar σ) : List Char → Except UsageError (Scan σ)
  | [] => .ok s
  | letter :: rest =>
    match g.switches.find? (·.letter = some letter) with
    | none => .error .unknownArgument
    | some switch =>
      match switch.effect with
      | .flag set => do
        let s ← s.turnOn switch.name set
        s.letters g rest
      | .stop request => do
        let _ ← s.flush
        throw request
      | .value take =>
        -- the rest is the value, and not more letters
        match rest with
        | [] => s.await switch.name take none
        | '=' :: value => do
          let s ← s.flush
          s.give switch.name take (String.ofList value)
        | value => do
          let s ← s.flush
          s.give switch.name take (String.ofList value)

def place (s : Scan σ) (g : Grammar σ) (argument : String) : Except UsageError (Scan σ) :=
  match s.free with
  | next :: free => { s with free := free }.await next.name next.take (some argument)
  | [] =>
    if g.commands.isEmpty || (s.ended && argument ∈ g.commands) then .error .unknownArgument
    else .error .unknownCommand

def argument (s : Scan σ) (g : Grammar σ) (text : String) : Except UsageError (Scan σ) :=
  if s.ended then s.place g text
  else
    match text.toList with
    | ['-', '-'] => .ok { s with ended := true }
    | '-' :: '-' :: long =>
      let name := String.ofList (long.takeWhile (· ≠ '='))
      match long.dropWhile (· ≠ '=') with
      | [] => s.option g name none
      | _ :: value => s.option g name (some (String.ofList value))
    | '-' :: letter :: rest => s.letters g (letter :: rest)
    | _ =>
      match s.pending with
      | some ⟨name, take, none⟩ => .ok { s with pending := some ⟨name, take, some text⟩ }
      | _ => s.place g text

end Scan

namespace Grammar

def start (g : Grammar σ) (record : σ) : Scan σ := { record := record, free := g.positionals }

/-- Scan arguments up to an inner command: its name and the arguments behind it, if there is
    one. -/
def scan (g : Grammar σ) (s : Scan σ) :
    List String → Except UsageError (Scan σ × Option (String × List String))
  | [] => .ok (s, none)
  | text :: rest =>
    if !s.ended && !s.awaits && text ∈ g.commands then .ok (s, some (text, rest))
    else do
      let s ← s.argument g text
      g.scan s rest

end Grammar

end DynamicQuorum
