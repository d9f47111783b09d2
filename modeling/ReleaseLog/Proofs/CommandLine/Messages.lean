import ReleaseLog.CommandLine

/-!
# What a command line is answered with

Help is the same for everyone, but for the name of the program. A complaint quotes the argument that
it is about (`says_message`), and whatever that holds, nothing in the complaint steers a terminal
(`Says.shows`).
-/

namespace ReleaseLog.CommandLine.Verdict

/-- What is said for a verdict, where the program goes by some name. -/
inductive Says (name : Text) : Verdict → Text → Prop
  | shortHelp : Says name .shortHelp
    ("Print a markdown changelog of the pull requests merged since the latest release tag".toList ++
      ("\n\nUsage: ".toList ++ name) ++ "\n\nOptions:\n  -h, --help  Print help\n".toList)
  | longHelp : Says name .longHelp
    ("Print a markdown changelog of the pull requests merged since the latest release tag".toList ++
      ".\n\n".toList ++
      ("Run inside a git checkout with an `origin` remote. The latest tag matching `v[0-9]*` " ++
        "reachable from `origin/master` is the starting point; every commit after it whose " ++
        "subject ends in `(#<number>)` becomes a bullet linking to that pull request.").toList ++
      ("\n\nUsage: ".toList ++ name) ++
      "\n\nOptions:\n  -h, --help\n          Print help\n".toList)
  | value {value quoted : Text} (hq : value.Shown quoted) : Says name (.unexpectedValue value)
    ("error: unexpected value '".toList ++ quoted ++
      "' for '--help' found; no more were expected".toList ++
      ("\n\nUsage: ".toList ++ (name ++ " --help".toList)) ++
      "\n\nFor more information, try '--help'.\n".toList)
  | argument {argument quoted : Text} (hq : argument.Shown quoted) :
    Says name (.unexpectedArgument argument false)
      ("error: unexpected argument '".toList ++ quoted ++ "' found".toList ++
        ("\n\nUsage: ".toList ++ name) ++ "\n\nFor more information, try '--help'.\n".toList)
  | similar {argument quoted : Text} (hq : argument.Shown quoted) :
    Says name (.unexpectedArgument argument true)
      ("error: unexpected argument '".toList ++ quoted ++ "' found".toList ++
        "\n\n  tip: a similar argument exists: '--help'".toList ++
        ("\n\nUsage: ".toList ++ (name ++ " --help".toList)) ++
        "\n\nFor more information, try '--help'.\n".toList)

theorem says_message (i : Text.Interruption) (name : Text) (v : Verdict) :
    v.Says (name.printable i) (v.message i name) := by
  cases v with
  | shortHelp => exact .shortHelp
  | longHelp => exact .longHelp
  | unexpectedValue value => exact .value (Text.shown_printable i value)
  | unexpectedArgument argument similar =>
    have hq := Text.shown_printable i argument
    cases similar with
    | true => exact .similar hq
    | false =>
      have hcomplaint : complaint (.unexpectedArgument (argument.printable i) false) =
          "error: unexpected argument '".toList ++ argument.printable i ++ "' found".toList :=
        List.append_nil _
      have hsays : Says (name.printable i) _ _ := .argument hq
      rw [← hcomplaint] at hsays
      exact hsays

theorem all_shows_append {s t : Text} (hs : s.all Text.Mode.plain.shows = true)
    (ht : t.all Text.Mode.plain.shows = true) : (s ++ t).all Text.Mode.plain.shows = true := by
  rw [List.all_append, hs, ht, Bool.and_self]

theorem all_shows_quoted {s t shown : Text} (hs : s.all Text.Mode.plain.shows = true)
    (hq : t.Shown shown) : (s ++ shown).all Text.Mode.plain.shows = true :=
  all_shows_append hs (List.all_eq_true.mpr hq.shows)

/-- Nothing in a complaint steers a terminal if the name of the program does not. -/
theorem Says.shows {name text : Text} {v : Verdict} (h : v.Says name text) (hv : v.isHelp = false)
    (hname : name.all Text.Mode.plain.shows = true) : text.all Text.Mode.plain.shows = true := by
  have husage := all_shows_append (s := "\n\nUsage: ".toList) (by decide) hname
  have husageHelp : ("\n\nUsage: ".toList ++ (name ++ " --help".toList)).all
      Text.Mode.plain.shows = true := by
    rw [← List.append_assoc]
    exact all_shows_append husage (by decide)
  have hhint : ("\n\nFor more information, try '--help'.\n".toList).all
      Text.Mode.plain.shows = true := by decide +kernel
  cases h with
  | shortHelp | longHelp => cases hv
  | value hq =>
    have hquoted :=
      all_shows_quoted (s := "error: unexpected value '".toList) (by decide +kernel) hq
    have hcomplaint := all_shows_append hquoted
      (t := "' for '--help' found; no more were expected".toList) (by decide +kernel)
    exact all_shows_append (all_shows_append hcomplaint husageHelp) hhint
  | argument hq =>
    have hquoted :=
      all_shows_quoted (s := "error: unexpected argument '".toList) (by decide +kernel) hq
    have hcomplaint := all_shows_append hquoted (t := "' found".toList) (by decide)
    exact all_shows_append (all_shows_append hcomplaint husage) hhint
  | similar hq =>
    have hquoted :=
      all_shows_quoted (s := "error: unexpected argument '".toList) (by decide +kernel) hq
    have hcomplaint := all_shows_append hquoted (t := "' found".toList) (by decide)
    have htip := all_shows_append hcomplaint
      (t := "\n\n  tip: a similar argument exists: '--help'".toList) (by decide +kernel)
    exact all_shows_append (all_shows_append htip husageHelp) hhint

end ReleaseLog.CommandLine.Verdict
