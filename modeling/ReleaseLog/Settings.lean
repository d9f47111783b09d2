import ReleaseLog.Text.Basic

/-!
# Settings

Where releases and merged pull requests are looked for.
-/

namespace ReleaseLog

/-- The remote whose URL the links are made from, the reference of the mainline branch, and the
pattern of the tags that are releases. -/
structure Settings where
  remote : Text := "origin".toList
  mainline : Text := "origin/master".toList
  tagPattern : Text := "v[0-9]*".toList
  deriving DecidableEq

namespace Settings

/-- The commits that a tag does not reach and the mainline does. -/
def range (s : Settings) (tag : Text) : Text := tag ++ "..".toList ++ s.mainline

end Settings

end ReleaseLog
