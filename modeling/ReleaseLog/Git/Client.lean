import ReleaseLog.Git.Output
import ReleaseLog.Git.Reply
import ReleaseLog.Host.Search
import ReleaseLog.Repository
import ReleaseLog.Settings

/-!
# Asking git

Git is looked for on the search path. A client asks it by starting it. Each start that succeeds is a
call, which uses up one reply; a start that fails uses up none.
-/

namespace ReleaseLog.Git

def locate (h : Host) : Answer Unit Text :=
  match h.findGit with
  | some program => ⟨.ok program, (), [.usingGit program]⟩
  | none => ⟨.error .gitNotFound, (), []⟩

/-- The replies still to come and the calls so far, each with its arguments. -/
structure Exchange where
  replies : List Reply
  calls : List (List Text) := []
  deriving DecidableEq

structure Client where
  program : Text
  directory : Option Text
  settings : Settings
  host : Host

def describeArguments (s : Settings) : List Text :=
  ["describe".toList, "--tags".toList, "--abbrev=0".toList, "--match".toList, s.tagPattern,
    s.mainline]

def remoteUrlArguments (s : Settings) : List Text :=
  ["remote".toList, "get-url".toList, s.remote]

def logArguments (range : Text) : List Text := ["log".toList, "--format=%s".toList, range]

namespace Client

def callArguments (c : Client) (arguments : List Text) : List Text :=
  match c.directory with
  | some directory => "-C".toList :: directory :: arguments
  | none => arguments

/-- Why git cannot be started with these arguments. A NUL is found before git is looked for, and
too many bytes are found after it. -/
def start (c : Client) (arguments : List Text) : Except QueryFailure Unit :=
  if !(c.program :: c.callArguments arguments).all Path.transferable then .error (.fault .nulByte)
  else
    match c.host.start c.program (c.callArguments arguments) with
    | .ok () => .ok ()
    | .error .missing => .error .gitNotFound
    | .error obstacle => .error (.fault obstacle.toFault)

/-- Starts git and reads its reply. The record of it leaves the directory out. -/
def run (c : Client) (arguments : List Text) (e : Exchange) : Answer Exchange Text :=
  match c.start arguments with
  | .error cause => ⟨.error cause, e, [.runningGit arguments]⟩
  | .ok () =>
    ⟨(e.replies.headD {}).read, ⟨e.replies.tail, e.calls ++ [c.callArguments arguments]⟩,
      [.runningGit arguments]⟩

def describe (c : Client) : Exchange → Answer Exchange Text :=
  c.run (describeArguments c.settings)

def getUrl (c : Client) : Exchange → Answer Exchange Text :=
  c.run (remoteUrlArguments c.settings)

def log (c : Client) (range : Text) : Exchange → Answer Exchange Text := c.run (logArguments range)

def readValue (command output : Text) : Except QueryFailure Text :=
  match value? output with
  | some value => .ok value
  | none => .error (.noOutput command)

def latestTag (c : Client) (e : Exchange) : Answer Exchange Text :=
  (c.describe e).read (readValue "describe".toList)

def remoteUrl (c : Client) (e : Exchange) : Answer Exchange Text :=
  (c.getUrl e).read (readValue "remote get-url".toList)

def subjectsBetween (c : Client) (tag mainline : Text) (e : Exchange) :
    Answer Exchange (List Text) :=
  (c.log (tag ++ "..".toList ++ mainline) e).read fun output => .ok (subjects output)

def repository (c : Client) : Repository Exchange := ⟨c.latestTag, c.remoteUrl, c.subjectsBetween⟩

inductive Request
  | latestTag
  | remoteUrl
  | subjects (tag mainline : Text)
  | describe
  | getUrl
  | log (range : Text)
  | run (arguments : List Text)
  deriving DecidableEq

inductive Response
  | text (t : Text)
  | texts (ts : List Text)
  deriving DecidableEq

def answer (c : Client) (e : Exchange) : Request → Answer Exchange Response
  | .latestTag => (c.latestTag e).read fun t => .ok (.text t)
  | .remoteUrl => (c.remoteUrl e).read fun t => .ok (.text t)
  | .subjects tag mainline => (c.subjectsBetween tag mainline e).read fun ts => .ok (.texts ts)
  | .describe => (c.describe e).read fun t => .ok (.text t)
  | .getUrl => (c.getUrl e).read fun t => .ok (.text t)
  | .log range => (c.log range e).read fun t => .ok (.text t)
  | .run arguments => (c.run arguments e).read fun t => .ok (.text t)

/-- The answers to a list of requests, each asked where the one before left off. -/
def answers (c : Client) : Exchange → List Request → List (Answer Exchange Response)
  | _, [] => []
  | e, r :: rs => c.answer e r :: c.answers (c.answer e r).state rs

def exchangeAfter (c : Client) : Exchange → List Request → Exchange
  | e, [] => e
  | e, r :: rs => c.exchangeAfter (c.answer e r).state rs

@[simp] theorem run_records (c : Client) (arguments : List Text) (e : Exchange) :
    (c.run arguments e).records = [.runningGit arguments] := by
  unfold run
  split <;> rfl

theorem run_state_of_not_started {c : Client} {arguments : List Text} {cause : QueryFailure}
    (h : c.start arguments = .error cause) (e : Exchange) : (c.run arguments e).state = e := by
  simp [run, h]

end Client

end ReleaseLog.Git
