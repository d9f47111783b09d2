import ReleaseLog.Fault

/-!
# Failures

A question to git can fail in five ways, and a run of the program in one way for each of its
stages. A failure has a message, which ends in the message of its cause, and the messages of the
causes below it.
-/

namespace ReleaseLog

inductive QueryFailure
  | notARepository
  | commandFailed (complaint : Text) (exitCode : Int)
  | fault (f : Fault)
  | gitNotFound
  | noOutput (command : Text)
  deriving DecidableEq

namespace QueryFailure

def message : QueryFailure → Text
  | .notARepository => "Not a git repository".toList
  | .commandFailed complaint exitCode =>
    "git command failed (exit code ".toList ++ Text.ofInt exitCode ++ "): ".toList ++ complaint
  | .fault f => "IO error: ".toList ++ f.message
  | .gitNotFound => "git is not installed or not in PATH".toList
  | .noOutput command => "git produced no output for `".toList ++ command ++ "`".toList

def causes : QueryFailure → List Text
  | .fault f => [f.message]
  | _ => []

end QueryFailure

/-- The stage at which a run failed, with what it was about and why. -/
inductive Failure
  | missingTool
  | tagResolution (pattern reference : Text) (cause : QueryFailure)
  | remoteConfig (remote : Text) (cause : QueryFailure)
  | logFetch (range : Text) (cause : QueryFailure)
  | output (cause : Fault)
  deriving DecidableEq

namespace Failure

def installGuide : Text :=
  "https://git-scm.com/book/en/v2/Getting-Started-Installing-Git".toList

def query? : Failure → Option QueryFailure
  | .tagResolution _ _ cause | .remoteConfig _ cause | .logFetch _ cause => some cause
  | .missingTool | .output _ => none

def message : Failure → Text
  | .missingTool =>
    QueryFailure.gitNotFound.message ++ ". Install it by following ".toList ++ installGuide
  | .tagResolution pattern reference cause =>
    "Failed to resolve the latest release tag matching '".toList ++ pattern ++ "' on ".toList ++
      reference ++ ": ".toList ++ cause.message
  | .remoteConfig remote cause =>
    "Failed to read the URL of remote '".toList ++ remote ++ "': ".toList ++ cause.message
  | .logFetch range cause =>
    "Failed to fetch commits in ".toList ++ range ++ ": ".toList ++ cause.message
  | .output cause => "Failed to write changelog: ".toList ++ cause.message

def causes : Failure → List Text
  | .missingTool => []
  | .tagResolution _ _ cause | .remoteConfig _ cause | .logFetch _ cause =>
    cause.message :: cause.causes
  | .output cause => [cause.message]

end Failure

end ReleaseLog
