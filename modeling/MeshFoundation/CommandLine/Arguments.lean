/-!
# Command line arguments

The program has two commands, each of which takes one payload, and one option for the
second of them. Arguments are read from left to right: the first one that is wrong makes
the whole line wrong, and the first one that asks for help or for the version is answered
at once, whatever follows.

An argument with a dash in front is an option, unless it is the dash alone. Within a
command two dashes end the options, and everything behind them is taken as it is.

The word `help` in place of a command asks for help as well. It takes no options, only
the topic that the help is to be about: a command, or the word itself.
-/

set_option autoImplicit false

namespace MeshFoundation.CommandLine

/-- What the program is asked to do. -/
inductive Task where
  | showVersion
  | showHelp
  | opcode (payload : String)
  | composition (payload : String) (isStrict : Bool)
  deriving DecidableEq, Repr

/-- An argument by its form. -/
inductive Argument where
  /-- Two dashes alone. -/
  | separator
  /-- An option of more than one letter, without its two dashes. -/
  | long (name : String)
  /-- An option of one letter; what follows the letter does not matter here. -/
  | short (letter : Char)
  | plain (text : String)
  deriving DecidableEq, Repr

def Argument.ofString (text : String) : Argument :=
  match text.toList with
  | ['-', '-'] => .separator
  | '-' :: '-' :: name => .long (String.ofList name)
  | '-' :: letter :: _ => .short letter
  | _ => .plain text

/-- Whether an argument asks for help. -/
def Argument.asksHelp (a : Argument) : Bool := a == .long "help" || a == .short 'h'

/-- A command that takes a payload. -/
inductive Command where
  | opcode
  | composition
  deriving DecidableEq, Repr

def Command.ofName? (name : String) : Option Command :=
  if name = "opcode" then some .opcode
  else if name = "composition" then some .composition
  else none

/-- The task of a command with its payload. -/
def Command.task (isStrict : Bool) (payload : String) : Command → Task
  | .opcode => .opcode payload
  | .composition => .composition payload isStrict

/-- Reads the arguments of a command behind those that were read before. -/
def readCommand (command : Command) : Option String → Bool → List String → Option Task
  | payload?, isStrict, [] => payload?.map (command.task isStrict ·)
  | payload?, isStrict, first :: rest =>
    match Argument.ofString first with
    | .separator =>
      match payload?.toList ++ rest with
      | [payload] => some (command.task isStrict payload)
      | _ => none
    | .plain payload => if payload?.isSome then none else readCommand command payload isStrict rest
    | option =>
      if option.asksHelp then some .showHelp
      else if option = .long "strict" ∧ command = .composition ∧ isStrict = false then
        readCommand command payload? true rest
      else none

def helpWord : String := "help"

/-- Whether these arguments may follow the word that asks for help: none at all, or the
name of one topic. Topics have no topics of their own. -/
def isTopic : List String → Bool
  | [] => true
  | [name] => name == helpWord || (Command.ofName? name).isSome
  | _ => false

/-- Reads the arguments of the program. There has to be a command. -/
def read : List String → Option Task
  | [] => none
  | first :: rest =>
    match Argument.ofString first with
    | .separator => none
    | .plain name =>
      if name = helpWord then if isTopic rest then some .showHelp else none
      else (Command.ofName? name).bind fun command => readCommand command none false rest
    | option =>
      if option.asksHelp then some .showHelp
      else if option = .long "version" ∨ option = .short 'V' then some .showVersion
      else none

end MeshFoundation.CommandLine
