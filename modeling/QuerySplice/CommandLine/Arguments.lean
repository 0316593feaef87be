import QuerySplice.Text.Case
import QuerySplice.Text.Quoted
import QuerySplice.Text.Similarity

/-!
# Splitting arguments into options and positions

An option begins with a hyphen and may take a value: the text behind an equals sign, or the next
argument whatever it looks like. A one-letter option may have its value attached, and such options
may be bundled behind one hyphen. Two hyphens alone end the options.
-/

namespace QuerySplice.CommandLine

open Text

structure OptionSpec where
  names : List Text
  takesValue : Bool

/-- Why a command line names no command to run. A hint is the name of the option or argument as it
is shown in the message. -/
inductive UsageFault
  /-- An option is not known. Those whose names are close to it come along. -/
  | noSuchOption (name : Text) (close : List Text)
  | needsValue (name : Text)
  | takesNoValue (name : Text)
  | invalidValue (hint : Text) (reason : Text)
  | missingOption (name : Text)
  | missingArgument (hint : Text) (choices : List Text)
  | extraArguments (arguments : List Text)
  /-- A command is not known. Those whose names are close to it come along. -/
  | noSuchCommand (name : Text) (close : List Text)
  | missingCommand
  /-- A path holds a null character, so nothing can be found under it. -/
  | nullInPath
  /-- Help was asked for instead. -/
  | help
  /-- Nothing was asked for at all. -/
  | nothing
  deriving DecidableEq, Repr

/-- The names that may have been meant. -/
def proposal : List Text → Text
  | [] => []
  | [name] => " Did you mean ".toList ++ quoted name ++ ['?']
  | names =>
    " (Did you mean one of: ".toList ++ List.intercalate ", ".toList (names.map quoted) ++
      "?)".toList

/-- The wording of a usage fault. -/
def UsageFault.message : UsageFault → Text
  | noSuchOption name close => "No such option ".toList ++ quoted name ++ '.' :: proposal close
  | needsValue name => "Option ".toList ++ quoted name ++ " requires an argument.".toList
  | takesNoValue name => "Option ".toList ++ quoted name ++ " does not take a value.".toList
  | invalidValue hint reason => "Invalid value for ".toList ++ hint ++ ": ".toList ++ reason
  | missingOption name => "Missing option ".toList ++ quoted name ++ ['.']
  | missingArgument hint choices =>
    "Missing argument ".toList ++ hint ++ ". Choose from:\n\t".toList ++
      List.intercalate ",\n\t".toList choices
  | extraArguments [a] => "Got unexpected extra argument (".toList ++ a ++ [')']
  | extraArguments arguments =>
    "Got unexpected extra arguments (".toList ++ List.intercalate [' '] arguments ++ [')']
  | noSuchCommand name close => "No such command ".toList ++ quoted name ++ '.' :: proposal close
  | missingCommand => "Missing command.".toList
  | nullInPath => "embedded null byte".toList
  | help | nothing => []

/-- A command line taken apart. Options come by their first name, in the order given; a flag has
an empty value. -/
structure Arguments where
  options : List (Text × Text)
  positions : List Text
  deriving Repr

namespace Arguments

/-- The values of an option, in the order given. -/
def values (a : Arguments) (name : String) : List Text :=
  (a.options.filter fun o => o.1 == name.toList).map (·.2)

/-- The value of an option that counts: the last one given. -/
def value? (a : Arguments) (name : String) : Option Text := (a.values name).getLast?

def hasFlag (a : Arguments) (name : String) : Bool := !(a.values name).isEmpty

end Arguments

def findSpec? (specs : List OptionSpec) (name : Text) : Option OptionSpec :=
  specs.find? fun spec => spec.names.contains name

/-- The names of options that begin with two hyphens. -/
def longNames (specs : List OptionSpec) : List Text :=
  (specs.flatMap (·.names)).filter fun name => "--".toList.isPrefixOf name

/-- An option that has been read, with its value if it came along with it. -/
structure Given where
  spec : OptionSpec
  name : Text
  attached : Option Text

/-- Reads the letters of bundled one-letter options: flags, and last an option that takes the
remaining letters for its value. -/
def readBundle (specs : List OptionSpec) : Text → Except UsageFault (List Given)
  | [] => .ok []
  | letter :: letters =>
    match findSpec? specs ['-', letter] with
    | none => .error (.noSuchOption ['-', letter] [])
    | some spec =>
      if spec.takesValue then
        .ok [⟨spec, ['-', letter], if letters.isEmpty then none else some letters⟩]
      else do return ⟨spec, ['-', letter], none⟩ :: (← readBundle specs letters)

/-- Reads the options in one argument: one by its long name, or a bundle. -/
def readOptions (specs : List OptionSpec) (argument : Text) : Except UsageFault (List Given) :=
  if "--".toList.isPrefixOf argument then
    let name := argument.takeWhile (· != '=')
    let attached :=
      if name.length = argument.length then none else some (argument.drop (name.length + 1))
    match findSpec? specs name with
    | none => .error (.noSuchOption name (closeNames (longNames specs) name))
    | some spec =>
      if attached.isSome && !spec.takesValue then .error (.takesNoValue name)
      else .ok [⟨spec, name, attached⟩]
  else readBundle specs argument.tail

/-- Whether the value of an option is still to come. -/
def Given.isWaiting (g : Given) : Bool := g.spec.takesValue && g.attached.isNone

/-- An argument is read as options if it begins with a hyphen and has more to it. -/
def isOption (argument : Text) : Bool :=
  argument.head? == some '-' && decide (1 < argument.length)

/-- The arguments with an option in front. -/
def Arguments.withOption (a : Arguments) (g : Given) (value : Text) : Arguments :=
  { a with options := (g.spec.names.headD [], value) :: a.options }

/-- Takes a command line apart. If options may not be mixed with positions, the first position
ends the options. The first list holds options that wait for the next argument as their value;
only the last option of a bundle can be one. -/
def split (specs : List OptionSpec) (mixed : Bool) :
    List Given → List Text → Except UsageFault Arguments
  | [], [] => .ok ⟨[], []⟩
  | g :: _, [] => .error (.needsValue g.name)
  | g :: _, value :: rest => do return (← split specs mixed [] rest).withOption g value
  | [], argument :: rest =>
    if argument = ['-', '-'] then .ok ⟨[], rest⟩
    else if isOption argument then do
      let given ← readOptions specs argument
      let a ← split specs mixed (given.filter Given.isWaiting) rest
      return (given.filter fun g => !g.isWaiting).foldr
        (fun g a => a.withOption g (g.attached.getD [])) a
    else if mixed then do
      let a ← split specs mixed [] rest
      return { a with positions := argument :: a.positions }
    else .ok ⟨[], argument :: rest⟩

/-- The choice that an argument names in any letter case. -/
def choice? {α : Type} (choices : List (Text × α)) (given : Text) : Option α :=
  (choices.find? fun c => c.1.map folded == given.map folded).map (·.2)

/-- Why an argument is none of the choices. -/
def notAChoice (choices : List Text) (given : Text) : Text :=
  quoted given ++ " is not one of ".toList ++
    List.intercalate ", ".toList (choices.map fun c => quoted (c.map folded)) ++ ['.']

end QuerySplice.CommandLine
