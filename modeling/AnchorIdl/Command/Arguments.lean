/-
# Command lines

A command line is a list of words.  A word of at least two characters that
begins with a dash is an option.  An option that takes a value takes what
follows an equals sign in its word, else the whole next word.  Short options may
share a word: `-vx` is `-v -x`, and the rest of the word after one that takes a
value is its value.  After the word `--` no word is an option.

Words that are no options are arguments.  The words before the first argument
belong to the whole command line, that argument names the command, and the words
after it belong to the command, where options and arguments may be mixed.

Source: the options and arguments that `idlforge.cli` declares.
-/

import AnchorIdl.Files.Name
import AnchorIdl.Generation.Target

namespace AnchorIdl
namespace CommandLine

/-- An option: its long name, its letter if it has one, and whether it takes a value. -/
structure OptionForm where
  long : Text
  letter : Option CodePoint := none
  takesValue : Bool := false
  deriving DecidableEq, Repr

/-- An option as given, by its long name. -/
structure Given where
  long : Text
  value : Text := []
  deriving DecidableEq, Repr

/-- What the words of a command line are: options in order, and arguments in order. -/
structure Words where
  options : List Given := []
  arguments : List Text := []
  deriving DecidableEq, Repr

/-- What one word gives: options, and the one whose value the next word is. -/
structure Reading where
  given : List Given := []
  awaiting : Option Text := none
  deriving DecidableEq, Repr

/-- The options of a word of short options, after its dash. -/
def readLetters (forms : List OptionForm) : Text → Option Reading
  | [] => some {}
  | c :: rest => do
    let form ← forms.find? fun form => form.letter = some c
    if form.takesValue then
      if rest = [] then return { awaiting := some form.long }
      else return { given := [⟨form.long, rest⟩] }
    else
      let reading ← readLetters forms rest
      return { reading with given := ⟨form.long, []⟩ :: reading.given }

/-- The value after the first equals sign of a word, if it has one. -/
def attached? (word : Text) : Option Text :=
  match word.dropWhile fun c : CodePoint => c ≠ '=' with
  | [] => none
  | _ :: value => some value

/-- The options of a word that begins with a dash. -/
def readOption (forms : List OptionForm) (word : Text) : Option Reading :=
  let name := word.takeWhile fun c : CodePoint => c ≠ '='
  match forms.find? fun form => form.long = name with
  | some form =>
    match form.takesValue, attached? word with
    | true, some value => some { given := [⟨form.long, value⟩] }
    | true, none => some { awaiting := some form.long }
    | false, some _ => none
    | false, none => some { given := [⟨form.long, []⟩] }
  | none => if (Text.dropStart? "--" word).isSome then none else readLetters forms (word.drop 1)

/-- Whether a word is an option. -/
def isOption (word : Text) : Bool := word.head? = some (CodePoint.ofChar '-') && 1 < word.length

/-- Read some words; none if they are misused.  `awaiting` is the option whose value the first word
is, and `mixed` says whether options may follow an argument. -/
def readWords (forms : List OptionForm) (mixed : Bool) :
    (awaiting : Option Text) → List Text → Option Words
  | none, [] => some {}
  | some _, [] => none
  | some long, word :: rest => do
    let words ← readWords forms mixed none rest
    return { words with options := ⟨long, word⟩ :: words.options }
  | none, word :: rest =>
    if word = "--" then some { arguments := rest }
    else if isOption word then do
      let reading ← readOption forms word
      let words ← readWords forms mixed reading.awaiting rest
      return { words with options := reading.given ++ words.options }
    else if mixed then do
      let words ← readWords forms mixed none rest
      return { words with arguments := word :: words.arguments }
    else some { arguments := word :: rest }

/-- The value of an option that was given last, if it was given. -/
def Words.last? (words : Words) (long : Text) : Option Text :=
  (words.options.reverse.find? fun given => given.long = long).map Given.value

/-- The last of two options that set the same truth value, if one was given. -/
def Words.switch? (words : Words) (on off : Text) : Option Bool :=
  (words.options.reverse.find? fun given => given.long = on ∨ given.long = off).map
    fun given => given.long = on

end CommandLine

/-- A command with its arguments. -/
inductive Command
  | generate (idl output : Option Path) (flags : Flags) (project : Option Path)
  | lookup (idl : Path) (instruction format : Text)
  | inspect (idl : Path)
  deriving DecidableEq, Repr

/-- A command, and whether every log line is to be shown. -/
structure Invocation where
  verbose : Bool
  command : Command
  deriving DecidableEq, Repr

namespace CommandLine

/-- The options before the command. -/
def globalForms : List OptionForm := [⟨"--verbose", some 'v', false⟩]

/-- The options of `generate`. -/
def generateForms : List OptionForm :=
  [⟨"--module", some 'm', true⟩, ⟨"--binding", some 'b', true⟩, ⟨"--strict", none, false⟩,
    ⟨"--no-strict", none, false⟩, ⟨"--config", some 'c', true⟩]

/-- The options of `lookup`. -/
def lookupForms : List OptionForm := [⟨"--format", some 'f', true⟩]

/-- The path that a word denotes; one that cannot be looked up is misuse. -/
def readPath (word : Text) : Option Path := (some (Path.ofText word)).filter Path.hasRoute

/-- The command `generate`. -/
def readGenerate (words : List Text) : Option Command := do
  let words ← readWords generateForms true none words
  let flags : Flags := {
    module := words.last? "--module"
    binding := words.last? "--binding"
    strict := words.switch? "--strict" "--no-strict" }
  let project ← (words.last? "--config").mapM readPath
  match ← words.arguments.mapM readPath with
  | [] => return .generate none none flags project
  | [idl] => return .generate (some idl) none flags project
  | [idl, output] => return .generate (some idl) (some output) flags project
  | _ => none

/-- The command `lookup`. -/
def readLookup (words : List Text) : Option Command := do
  let words ← readWords lookupForms true none words
  match words.arguments with
  | [idl, instruction] =>
    return .lookup (← readPath idl) instruction ((words.last? "--format").getD "list")
  | _ => none

/-- The command `inspect`. -/
def readInspect (words : List Text) : Option Command := do
  let words ← readWords [] true none words
  match words.arguments with
  | [idl] => return .inspect (← readPath idl)
  | _ => none

/-- The command of a name. -/
def readCommand (name : Text) (words : List Text) : Option Command :=
  if name = "generate" then readGenerate words
  else if name = "lookup" then readLookup words
  else if name = "inspect" then readInspect words
  else none

/-- What a command line asks for; none if it is misused. -/
def read (words : List Text) : Option Invocation := do
  let words ← readWords globalForms false none words
  let verbose := (words.last? "--verbose").isSome
  match words.arguments with
  | name :: rest => return ⟨verbose, ← readCommand name rest⟩
  | [] => none

end CommandLine
end AnchorIdl
