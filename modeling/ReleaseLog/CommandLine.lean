import ReleaseLog.Text.Printable
import ReleaseLog.Text.Similarity
import ReleaseLog.Text.Split
import ReleaseLog.Text.Utf8

/-!
# The command line

The program takes no arguments but the flags that ask for help, so the first argument decides: it
asks for help or it is rejected. Only `--` is let through, once, and takes the meaning from all
that follows.
-/

namespace ReleaseLog.CommandLine

abbrev Argument := List UInt8

/-- What a command line comes to that does not start a run. -/
inductive Verdict
  | shortHelp
  | longHelp
  | unexpectedValue (value : Text)
  | unexpectedArgument (argument : Text) (similar : Bool)
  deriving DecidableEq

def helpName : Text := "help".toList

def helpFlag : Argument := Text.utf8 "--help".toList

def helpFlagWithValue : Argument := Text.utf8 "--help=".toList

def escape : Argument := Text.utf8 "--".toList

def dash : UInt8 := 0x2d

def equals : UInt8 := 0x3d

def slash : UInt8 := 0x2f

/-- The verdict on a flag of letters, of which only the first counts. What is no UTF-8 from the
start is taken as a whole. -/
def letterVerdict (letters : List UInt8) : Verdict :=
  match Utf8.items letters with
  | some c :: _ => if c = 'h' ∨ c = '?' then .shortHelp else .unexpectedArgument ['-', c] false
  | _ => .unexpectedArgument ('-' :: Text.ofUtf8 letters) false

/-- The verdict on a flag with a name. A value that comes with it is left out, and a name close to
the one known is called similar. -/
def nameVerdict (flag : List UInt8) : Verdict :=
  let name := Text.ofUtf8 (flag.takeWhile (· ≠ equals))
  .unexpectedArgument ('-' :: '-' :: name) (Text.similarAtLeast 7 10 name helpName)

/-- The verdict on an argument that stands before `--`. -/
def verdict (argument : Argument) : Verdict :=
  if argument = helpFlag then .longHelp
  else if helpFlagWithValue.isPrefixOf argument then
    .unexpectedValue (Text.ofUtf8 (argument.drop helpFlagWithValue.length))
  else
    match argument with
    | a :: b :: rest =>
      if a = dash ∧ b = dash then nameVerdict rest
      else if a = dash then letterVerdict (b :: rest)
      else .unexpectedArgument (Text.ofUtf8 argument) false
    | _ => .unexpectedArgument (Text.ofUtf8 argument) false

/-- The verdict on the arguments after the program's name; none if a run may start. -/
def judge : List Argument → Option Verdict
  | [] => none
  | first :: rest =>
    if first = escape then rest.head?.map fun a => .unexpectedArgument (Text.ofUtf8 a) false
    else some (verdict first)

/-- The last name of a path, unless it leads up. -/
def fileName? (path : Argument) : Option Argument :=
  let names := (pieces slash path).filter fun name => name ≠ [] ∧ name ≠ Text.utf8 ".".toList
  names.getLast?.filter (· ≠ Text.utf8 "..".toList)

def defaultName : Text := "prlog".toList

def programName (call : Option Argument) : Text :=
  ((call.bind fileName?).bind Text.ofUtf8?).getD defaultName

namespace Verdict

def isHelp : Verdict → Bool
  | .shortHelp | .longHelp => true
  | _ => false

def exitCode (v : Verdict) : Nat := if v.isHelp then 0 else 2

def summary : Text :=
  ("Print a markdown changelog of the pull requests merged since the latest release tag").toList

def description : Text :=
  ("Run inside a git checkout with an `origin` remote. The latest tag matching `v[0-9]*` " ++
    "reachable from `origin/master` is the starting point; every commit after it whose " ++
    "subject ends in `(#<number>)` becomes a bullet linking to that pull request.").toList

def usage (line : Text) : Text := "\n\nUsage: ".toList ++ line

def helpHint : Text := "\n\nFor more information, try '--help'.\n".toList

def complaint : Verdict → Text
  | .unexpectedValue value =>
    "error: unexpected value '".toList ++ value ++
      "' for '--help' found; no more were expected".toList
  | .unexpectedArgument argument similar =>
    "error: unexpected argument '".toList ++ argument ++ "' found".toList ++
      if similar then "\n\n  tip: a similar argument exists: '--help'".toList else []
  | _ => []

/-- The usage that is shown: with the flag for help if the verdict is about it. -/
def usageLine (name : Text) : Verdict → Text
  | .unexpectedValue _ | .unexpectedArgument _ true => name ++ " --help".toList
  | _ => name

def text (name : Text) (v : Verdict) : Text :=
  match v with
  | .shortHelp =>
    summary ++ usage (v.usageLine name) ++ "\n\nOptions:\n  -h, --help  Print help\n".toList
  | .longHelp =>
    summary ++ ".\n\n".toList ++ description ++ usage (v.usageLine name) ++
      "\n\nOptions:\n  -h, --help\n          Print help\n".toList
  | _ => v.complaint ++ usage (v.usageLine name) ++ helpHint

def printable (i : Text.Interruption) : Verdict → Verdict
  | .unexpectedValue value => .unexpectedValue (value.printable i)
  | .unexpectedArgument argument similar => .unexpectedArgument (argument.printable i) similar
  | v => v

/-- What a terminal shows for a verdict. The texts that come from outside are made printable one by
one, so none of them swallows what stands after it. -/
def message (i : Text.Interruption) (name : Text) (v : Verdict) : Text :=
  (v.printable i).text (name.printable i)

end Verdict

@[simp] theorem judge_nil : judge [] = none := rfl

end ReleaseLog.CommandLine
