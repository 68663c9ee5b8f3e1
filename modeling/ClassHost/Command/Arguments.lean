/-!
# Command lines

A command line names a command and gives it options and names to work on:

    [--plain] resolve [--plain] NAME...
    [--plain] load [--plain] [--cp PATH]... NAME...
    help [resolve | load | help]

Options may stand before, between and behind the names; behind `--` everything is a name. Asking
for help or for the version is granted as soon as it is read, and so is a fault reported: whatever
comes first decides.

`Command.ofArguments` reads a command line.
-/

namespace ClassHost

/-- What a command does with names. -/
inductive Verb where
  | resolve
  | load
  deriving Repr, DecidableEq

namespace Verb

def text : Verb → String
  | resolve => "resolve"
  | load => "load"

def ofText? (text : String) : Option Verb :=
  [resolve, load].find? fun verb => verb.text = text

end Verb

/-- What help can be about. -/
inductive HelpTopic where
  | program
  | verb (verb : Verb)
  | help
  deriving Repr, DecidableEq

/-- What a command line asks for. -/
inductive Command where
  | resolve (names : List String)
  | load (classPath names : List String)
  | help (topic : HelpTopic)
  | version (verb : Option Verb)
  deriving Repr, DecidableEq

/-- Why a command line asks for nothing. -/
inductive UsageFault where
  | noCommand
  | unknownCommand (text : String)
  | unexpected (argument : String)
  | repeated (option : String)
  | valueNotTaken (option : String)
  | noValue (option : String)
  | noNames
  deriving Repr, DecidableEq

def UsageFault.message : UsageFault → String
  | noCommand => "a command is required"
  | unknownCommand text => "unrecognized command '" ++ text ++ "'"
  | unexpected argument => "unexpected argument '" ++ argument ++ "'"
  | repeated option => "'" ++ option ++ "' cannot be used more than once"
  | valueNotTaken option => "'" ++ option ++ "' takes no value"
  | noValue option => "'" ++ option ++ "' requires a value"
  | noNames => "at least one name is required"

/-- One argument, by its shape. -/
inductive Argument where
  /-- Two dashes alone. -/
  | separator
  /-- Two dashes and a name, with a value if an equals sign follows. -/
  | long (name : String) (value : Option String)
  /-- One dash and at least one letter. -/
  | short (letters : List Char)
  | plain (text : String)
  deriving Repr, DecidableEq

/-- The shape of an argument. A dash alone is an ordinary text. -/
def Argument.ofText (text : String) : Argument :=
  match text.toList with
  | ['-', '-'] => separator
  | '-' :: '-' :: rest =>
    let name := String.ofList (rest.takeWhile (· ≠ '='))
    match rest.dropWhile (· ≠ '=') with
    | [] => long name none
    | _ :: value => long name (some (String.ofList value))
  | '-' :: letter :: letters => short (letter :: letters)
  | _ => plain text

namespace Command

/-- What options that every command knows come to. -/
inductive SharedOption where
  | plain
  | help
  | version
  deriving Repr, DecidableEq

/-- The option that is known everywhere, if the argument is one. Of letters behind one dash the
first decides. -/
def sharedOption? : Argument → Option SharedOption
  | .long "plain" _ => some .plain
  | .long "help" _ | .short ('h' :: _) => some .help
  | .long "version" _ | .short ('V' :: _) => some .version
  | _ => none

/-- The value behind an equals sign. -/
def attachedValue? : Argument → Option String
  | .long _ value => value
  | _ => none

/-- What has been read behind a verb. -/
structure Draft where
  isPlain : Bool
  classPath : List String
  names : List String
  deriving Repr, DecidableEq

def Draft.empty : Draft := ⟨false, [], []⟩

/-- The command, once all arguments have been read. There have to be names. -/
def Draft.command (draft : Draft) (verb : Verb) : Except UsageFault Command :=
  if draft.names.isEmpty then .error .noNames
  else
    match verb with
    | .resolve => .ok (.resolve draft.names)
    | .load => .ok (.load draft.classPath draft.names)

/-- Reads the arguments behind a verb. -/
def behindVerb (verb : Verb) (draft : Draft) : List String → Except UsageFault Command
  | [] => draft.command verb
  | text :: rest =>
    let argument := Argument.ofText text
    match sharedOption? argument, attachedValue? argument with
    | some _, some _ => .error (.valueNotTaken text)
    | some .help, none => .ok (.help (.verb verb))
    | some .version, none => .ok (.version verb)
    | some .plain, none =>
      if draft.isPlain then .error (.repeated text)
      else behindVerb verb { draft with isPlain := true } rest
    | none, _ =>
      match argument with
      | .separator => { draft with names := draft.names ++ rest }.command verb
      | .plain name => behindVerb verb { draft with names := draft.names ++ [name] } rest
      | .short _ => .error (.unexpected text)
      | .long name value =>
        if verb ≠ .load ∨ name ≠ "cp" then .error (.unexpected text)
        else
          match value with
          | some path => behindVerb verb { draft with classPath := draft.classPath ++ [path] } rest
          | none =>
            match rest with
            | [] => .error (.noValue text)
            | path :: rest =>
              match Argument.ofText path with
              | .plain path =>
                behindVerb verb { draft with classPath := draft.classPath ++ [path] } rest
              | _ => .error (.noValue text)

/-- Reads the topics behind `help`. -/
def behindHelp : List String → Except UsageFault Command
  | [] => .ok (.help .program)
  | text :: rest =>
    match Verb.ofText? text, rest with
    | some verb, [] => .ok (.help (.verb verb))
    | some _, other :: _ => .error (.unknownCommand other)
    | none, [] => if text = "help" then .ok (.help .help) else .error (.unknownCommand text)
    | none, other :: _ => .error (.unknownCommand (if text = "help" then other else text))

/-- Reads arguments up to the command's name. -/
def inFront (isPlain : Bool) : List String → Except UsageFault Command
  | [] => .error .noCommand
  | text :: rest =>
    let argument := Argument.ofText text
    match sharedOption? argument, attachedValue? argument with
    | some _, some _ => .error (.valueNotTaken text)
    | some .help, none => .ok (.help .program)
    | some .version, none => .ok (.version none)
    | some .plain, none =>
      if isPlain then .error (.repeated text) else inFront true rest
    | none, _ =>
      match argument with
      | .separator => .error .noCommand
      | .long _ _ | .short _ => .error (.unexpected text)
      | .plain name =>
        match Verb.ofText? name with
        | some verb => behindVerb verb .empty rest
        | none => if name = "help" then behindHelp rest else .error (.unknownCommand name)

/-- Reads a command line. -/
def ofArguments (arguments : List String) : Except UsageFault Command :=
  inFront false arguments

end Command

end ClassHost
