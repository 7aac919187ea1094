import PluginAudit.Text.Parts
import PluginAudit.Text.Similarity
import PluginAudit.Value.Shown

namespace PluginAudit.Cli

/-- An option. Its long name identifies it. -/
structure Switch where
  long : String
  short : Option Char := none
  takesValue : Bool := false
  deriving DecidableEq, Repr

/-- A command: how it is called, what follows its name, and its options. -/
structure Command where
  path : String
  operands : String
  switches : List Switch
  /-- Whether options can stand behind arguments. -/
  mixed : Bool

/-- What is wrong with a command line. -/
inductive UsageFault where
  | noSuchOption (name : String) (close : List String)
  | noSuchCommand (name : String) (close : List String)
  | needsValue (option : String)
  | takesNoValue (option : String)
  | missingCommand
  | missingArgument (name : String)
  | badValue (hint cause : String)
  | extraArguments (args : List String)
  deriving DecidableEq, Repr

namespace UsageFault

/-- What could have been meant. -/
def suggestion (close : List String) : String :=
  let all := Text.join ", " (close.map Text.quoted)
  match close with
  | [] => ""
  | [_] => s!" Did you mean {all}?"
  | _ => s!" (Did you mean one of: {all}?)"

def message : UsageFault → String
  | .noSuchOption name close => s!"No such option {Text.quoted name}.{suggestion close}"
  | .noSuchCommand name close => s!"No such command {Text.quoted name}.{suggestion close}"
  | .needsValue option => s!"Option {Text.quoted option} requires an argument."
  | .takesNoValue option => s!"Option {Text.quoted option} does not take a value."
  | .missingCommand => "Missing command."
  | .missingArgument name => s!"Missing argument {Text.quoted name}."
  | .badValue hint cause => s!"Invalid value for {hint}: {cause}"
  | .extraArguments args =>
    let noun := if args.length == 1 then "argument" else "arguments"
    s!"Got unexpected extra {noun} ({Text.join blank args})"
where
  blank : String := " "

end UsageFault

/-- The options of a command line in order, each with its value, and the other arguments. -/
structure Parsed where
  options : List (String × String) := []
  arguments : List String := []

namespace Parsed

def has (p : Parsed) (long : String) : Bool :=
  p.options.any fun o => o.1 == long

/-- All values of an option. -/
def values (p : Parsed) (long : String) : List String :=
  (p.options.filter fun o => o.1 == long).map Prod.snd

/-- The last value of an option. -/
def value? (p : Parsed) (long : String) : Option String :=
  (p.values long).getLast?

end Parsed

namespace Command

def usage (c : Command) : String :=
  s!"Usage: {c.path} {c.operands}"

/-- An option by its long name, with the value behind the equals sign if there is one. The flag
tells whether the next argument is its value. -/
def readLong (c : Command) (name : String) (attached next : Option String) :
    Except UsageFault (List (String × String) × Bool) :=
  match c.switches.find? fun s => s.long == name with
  | none => .error (.noSuchOption name (Text.closeTo name (c.switches.map Switch.long)))
  | some s =>
    if s.takesValue then
      match attached, next with
      | some v, _ => .ok ([(name, v)], false)
      | none, some v => .ok ([(name, v)], true)
      | none, none => .error (.needsValue name)
    else if attached.isSome then .error (.takesNoValue name)
    else .ok ([(name, "")], false)

/-- Options by their letters. The first one that takes a value takes the letters behind it, or the
next argument if there are none. -/
def readShort (c : Command) (next : Option String) :
    List Char → Except UsageFault (List (String × String) × Bool)
  | [] => .ok ([], false)
  | letter :: rest =>
    let name := String.ofList ['-', letter]
    match c.switches.find? fun s => s.short == some letter with
    | none => .error (.noSuchOption name [])
    | some s =>
      if s.takesValue then
        match rest, next with
        | _ :: _, _ => .ok ([(s.long, String.ofList rest)], false)
        | [], some v => .ok ([(s.long, v)], true)
        | [], none => .error (.needsValue name)
      else do
        let (options, usesNext) ← c.readShort next rest
        return ((s.long, "") :: options, usesNext)

/-- The options in one argument that begins with a hyphen. -/
def readOption (c : Command) (arg : String) (next : Option String) :
    Except UsageFault (List (String × String) × Bool) :=
  match Text.afterHead? arg "--" with
  | some _ =>
    match Text.cutAt? "=" arg with
    | some (name, v) => c.readLong name (some v) next
    | none => c.readLong arg none next
  | none => c.readShort next (arg.toList.drop 1)

def isOption (arg : String) : Bool :=
  Text.startsWith arg "-" && arg != "-"

/-- Reads the arguments behind the name of a command. After two hyphens nothing is an option. -/
def parse (c : Command) (done : Parsed) : List String → Except UsageFault Parsed
  | [] => .ok done
  | arg :: rest =>
    if arg == "--" then .ok { done with arguments := done.arguments ++ rest }
    else if isOption arg then
      match c.readOption arg rest.head? with
      | .error e => .error e
      | .ok (options, usesNext) =>
        let done := { done with options := done.options ++ options }
        match usesNext, rest with
        | true, _ :: rest => c.parse done rest
        | _, rest => c.parse done rest
    else if c.mixed then c.parse { done with arguments := done.arguments ++ [arg] } rest
    else .ok { done with arguments := done.arguments ++ arg :: rest }

end Command

end PluginAudit.Cli
