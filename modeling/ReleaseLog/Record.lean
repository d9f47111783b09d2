import ReleaseLog.Text.Basic

/-!
# Records

What a run notes on its way, beside what it writes. A warning is for everyone, a debug record for
those who ask.
-/

namespace ReleaseLog

inductive Level
  | debug
  | warn
  deriving DecidableEq

def Level.name : Level → Text
  | .debug => "DEBUG".toList
  | .warn => "WARN".toList

inductive Record
  | usingGit (path : Text)
  | runningGit (arguments : List Text)
  | noSuffix (url : Text)
  | counted (subjects : Nat) (tag : Text)
  | skipped (subject : Text)
  deriving DecidableEq

namespace Record

def level : Record → Level
  | .noSuffix _ => .warn
  | _ => .debug

def message : Record → Text
  | .usingGit path => "using git at ".toList ++ path
  | .runningGit arguments => "running git ".toList ++ Text.unwords arguments
  | .noSuffix url =>
    "remote URL '".toList ++ url ++
      "' has no .git suffix; change request links may not resolve".toList
  | .counted subjects tag => Text.ofNat subjects ++ " commits since ".toList ++ tag
  | .skipped subject => "skipping commit without change request: ".toList ++ subject

def render (r : Record) : Text := r.level.name ++ ' ' :: r.message

end Record

end ReleaseLog
