import ReleaseLog.CommandLine
import ReleaseLog.Proofs.Text.Ascii

/-!
# The grammar of the command line

A call is let through exactly if it has no argument but at most one escape. In any other call one
argument decides: the first one by the bytes that it begins with, or whatever stands after the
escape, and nothing that follows counts (`notice_grammar`).
-/

namespace ReleaseLog.CommandLine

def shortHelpFlag : Argument := Text.utf8 "-h".toList

def shortHelpAlias : Argument := Text.utf8 "-?".toList

/-- How an argument is read that is not the escape: as a flag that is known, as one with another
name, as one of letters, or as no flag at all. -/
inductive Reading : Argument → Verdict → Prop
  | help : Reading helpFlag .longHelp
  | helpWithValue (value : List UInt8) :
    Reading (helpFlagWithValue ++ value) (.unexpectedValue (Text.ofUtf8 value))
  | name {rest : List UInt8} (hhelp : dash :: dash :: rest ≠ helpFlag)
    (hvalue : ¬ helpFlagWithValue <+: dash :: dash :: rest) :
    Reading (dash :: dash :: rest) (nameVerdict rest)
  | letters {b : UInt8} (rest : List UInt8) (hb : b ≠ dash) :
    Reading (dash :: b :: rest) (letterVerdict (b :: rest))
  | other {a : Argument} (ha : ∀ b rest, a ≠ dash :: b :: rest) :
    Reading a (.unexpectedArgument (Text.ofUtf8 a) false)

theorem reading_verdict (a : Argument) : Reading a (verdict a) := by
  by_cases hhelp : a = helpFlag
  · have hv : verdict a = .longHelp := by simp only [verdict, hhelp, if_true]
    rw [hv, hhelp]
    exact .help
  by_cases hvalue : helpFlagWithValue.isPrefixOf a = true
  · obtain ⟨value, rfl⟩ := List.isPrefixOf_iff_prefix.mp hvalue
    have hv : verdict (helpFlagWithValue ++ value) = .unexpectedValue (Text.ofUtf8 value) := by
      simp only [verdict, hhelp, if_false, hvalue, if_true, List.drop_left]
    rw [hv]
    exact .helpWithValue value
  have hprefix : ¬ helpFlagWithValue <+: a := mt List.isPrefixOf_iff_prefix.mpr hvalue
  match a with
  | [] => exact .other (by simp)
  | [x] =>
    have hv : verdict [x] = .unexpectedArgument (Text.ofUtf8 [x]) false := by
      simp [verdict, hhelp, hprefix]
    rw [hv]
    exact .other (by simp)
  | x :: b :: rest =>
    by_cases hx : x = dash
    · subst hx
      by_cases hb : b = dash
      · subst hb
        have hv : verdict (dash :: dash :: rest) = nameVerdict rest := by
          simp [verdict, hhelp, hprefix]
        rw [hv]
        exact .name hhelp hprefix
      · have hv : verdict (dash :: b :: rest) = letterVerdict (b :: rest) := by
          simp [verdict, hhelp, hprefix, hb]
        rw [hv]
        exact .letters rest hb
    · have hv : verdict (x :: b :: rest) =
          .unexpectedArgument (Text.ofUtf8 (x :: b :: rest)) false := by
        simp [verdict, hhelp, hprefix, hx]
      rw [hv]
      exact .other (fun _ _ h => hx (List.cons.inj h).1)

/-- A flag of letters asks for help exactly if its first byte does. -/
theorem letterVerdict_eq_shortHelp_iff {b : UInt8} {rest : List UInt8} :
    letterVerdict (b :: rest) = .shortHelp ↔ b = 0x68 ∨ b = 0x3f := by
  have hh : (Utf8.items (b :: rest)).head? = some (some 'h') ↔ b = 0x68 :=
    (Utf8.head?_items_iff (by decide)).trans Option.some_inj
  have hq : (Utf8.items (b :: rest)).head? = some (some '?') ↔ b = 0x3f :=
    (Utf8.head?_items_iff (by decide)).trans Option.some_inj
  rw [← hh, ← hq]
  unfold letterVerdict
  match Utf8.items (b :: rest) with
  | [] => simp
  | none :: _ => simp
  | some c :: _ => by_cases hc : c = 'h' ∨ c = '?' <;> simp [hc]

theorem letterVerdict_cases (letters : List UInt8) :
    letterVerdict letters = .shortHelp ∨
      ∃ a, letterVerdict letters = .unexpectedArgument a false := by
  unfold letterVerdict
  match Utf8.items letters with
  | [] => exact .inr ⟨_, rfl⟩
  | none :: _ => exact .inr ⟨_, rfl⟩
  | some c :: _ =>
    by_cases hc : c = 'h' ∨ c = '?'
    · exact .inl (if_pos hc)
    · exact .inr ⟨_, if_neg hc⟩

/-- What an argument is taken for, by the bytes that it begins with. -/
structure TakenFor (a : Argument) (v : Verdict) : Prop where
  longHelp : v = .longHelp ↔ a = helpFlag
  unexpectedValue : (∃ value, v = .unexpectedValue value) ↔ helpFlagWithValue <+: a
  shortHelp : v = .shortHelp ↔ shortHelpFlag <+: a ∨ shortHelpAlias <+: a
  unexpectedArgument : (∃ argument similar, v = .unexpectedArgument argument similar) ↔
    a ≠ helpFlag ∧ ¬ helpFlagWithValue <+: a ∧ ¬ shortHelpFlag <+: a ∧ ¬ shortHelpAlias <+: a

theorem helpFlag_eq : helpFlag = [dash, dash, 0x68, 0x65, 0x6c, 0x70] := by decide

theorem helpFlagWithValue_eq :
    helpFlagWithValue = [dash, dash, 0x68, 0x65, 0x6c, 0x70, equals] := by decide

theorem shortHelpFlag_eq : shortHelpFlag = [dash, 0x68] := by decide

theorem shortHelpAlias_eq : shortHelpAlias = [dash, 0x3f] := by decide

theorem not_shortHelp_prefix {a : Argument} (ha : ∀ b rest, a = dash :: b :: rest → b = dash) :
    ¬ shortHelpFlag <+: a ∧ ¬ shortHelpAlias <+: a := by
  rw [shortHelpFlag_eq, shortHelpAlias_eq]
  constructor
  · rintro ⟨rest, rfl⟩
    exact absurd (ha 0x68 rest rfl) (by decide)
  · rintro ⟨rest, rfl⟩
    exact absurd (ha 0x3f rest rfl) (by decide)

theorem takenFor_shortHelp {a : Argument} (hhelp : a ≠ helpFlag)
    (hvalue : ¬ helpFlagWithValue <+: a) (h : shortHelpFlag <+: a ∨ shortHelpAlias <+: a) :
    TakenFor a .shortHelp where
  longHelp := by simp [hhelp]
  unexpectedValue := by simp [hvalue]
  shortHelp := by simp [h]
  unexpectedArgument := by
    constructor
    · rintro ⟨_, _, ⟨⟩⟩
    · rintro ⟨_, _, hh, hq⟩
      exact absurd h (not_or.mpr ⟨hh, hq⟩)

theorem takenFor_unexpectedArgument {a : Argument} (hhelp : a ≠ helpFlag)
    (hvalue : ¬ helpFlagWithValue <+: a) (h : ¬ shortHelpFlag <+: a ∧ ¬ shortHelpAlias <+: a)
    (argument : Text) (similar : Bool) : TakenFor a (.unexpectedArgument argument similar) := by
  constructor <;> simp [hhelp, hvalue, h]

theorem Reading.takenFor {a : Argument} {v : Verdict} (h : Reading a v) : TakenFor a v := by
  cases h with
  | help =>
    have hno := not_shortHelp_prefix (a := helpFlag) (by simp [helpFlag_eq])
    have hvalue : ¬ helpFlagWithValue <+: helpFlag := by decide
    constructor <;> simp [hno, hvalue]
  | helpWithValue value =>
    have hno := not_shortHelp_prefix (a := helpFlagWithValue ++ value)
      (by simp [helpFlagWithValue_eq])
    have hhelp : helpFlagWithValue ++ value ≠ helpFlag := by
      simp [helpFlagWithValue_eq, helpFlag_eq]
    constructor <;> simp [hno, hhelp]
  | @name rest hhelp hvalue =>
    have hno := not_shortHelp_prefix (a := dash :: dash :: rest) (by simp)
    exact takenFor_unexpectedArgument hhelp hvalue hno _ _
  | @letters b rest hb =>
    have hhelp : dash :: b :: rest ≠ helpFlag := by simp [helpFlag_eq, hb]
    have hvalue : ¬ helpFlagWithValue <+: dash :: b :: rest := by
      simp [helpFlagWithValue_eq, Ne.symm hb]
    have hshort : shortHelpFlag <+: dash :: b :: rest ∨ shortHelpAlias <+: dash :: b :: rest ↔
        letterVerdict (b :: rest) = .shortHelp := by
      rw [letterVerdict_eq_shortHelp_iff]
      simp [shortHelpFlag_eq, shortHelpAlias_eq, eq_comm]
    rcases letterVerdict_cases (b :: rest) with hv | ⟨argument, hv⟩
    · rw [hv]
      exact takenFor_shortHelp hhelp hvalue (hshort.mpr hv)
    · have hno := mt hshort.mp (by rw [hv]; simp)
      rw [hv]
      exact takenFor_unexpectedArgument hhelp hvalue (not_or.mp hno) _ _
  | other ha =>
    have hno := not_shortHelp_prefix fun b rest h => absurd h (ha b rest)
    have hhelp : a ≠ helpFlag := fun h => ha _ _ (h.trans helpFlag_eq)
    have hvalue : ¬ helpFlagWithValue <+: a := by
      rw [helpFlagWithValue_eq]
      rintro ⟨rest, rfl⟩
      exact ha _ _ rfl
    exact takenFor_unexpectedArgument hhelp hvalue hno _ _

structure Notice where
  verdict : Verdict
  message : Text
  exitCode : Nat
  onErrorStream : Bool
  deriving DecidableEq

/-- What a call is answered with, its first word being the name that the program was called by;
none if a run may start. -/
def notice (call : List Argument) : Option Notice :=
  (judge call.tail).map fun v =>
    ⟨v, v.message .ends (programName call.head?), v.exitCode, !v.isHelp⟩

/-- The argument that decides on a call, what stands between it and the name, and the verdict. -/
inductive Decides : List Argument → Argument → Verdict → Prop
  | first {a : Argument} {v : Verdict} (ha : a ≠ escape) (hv : TakenFor a v) : Decides [] a v
  | escaped (a : Argument) :
    Decides [escape] a (.unexpectedArgument (Text.ofUtf8 a) false)

theorem exists_decides_of_judge {arguments : List Argument} {v : Verdict}
    (h : judge arguments = some v) :
    ∃ before a after, arguments = before ++ a :: after ∧ Decides before a v ∧
      ∀ after', judge (before ++ a :: after') = some v := by
  match arguments with
  | [] => cases h
  | a :: rest =>
    by_cases ha : a = escape
    · subst ha
      match rest with
      | [] => cases h
      | b :: after =>
        obtain rfl : .unexpectedArgument (Text.ofUtf8 b) false = v := Option.some.inj h
        exact ⟨[escape], b, after, rfl, .escaped b, fun _ => rfl⟩
    · have hjudge : ∀ rest, judge (a :: rest) = some (verdict a) := by
        intro rest
        simp only [judge, ha, if_false]
      obtain rfl : verdict a = v := Option.some.inj ((hjudge rest).symm.trans h)
      exact ⟨[], a, rest, rfl, .first ha (reading_verdict a).takenFor, hjudge⟩

theorem judge_eq_none_iff {arguments : List Argument} :
    judge arguments = none ↔ arguments = [] ∨ arguments = [escape] := by
  match arguments with
  | [] => simp
  | a :: rest =>
    by_cases ha : a = escape
    · simp [judge, ha]
    · simp [judge, ha]

/-- A call is let through, or one argument decides and nothing after it counts. -/
theorem notice_grammar (call : List Argument) :
    (notice call = none ↔ call.tail = [] ∨ call.tail = [escape]) ∧
      ∀ n, notice call = some n →
        (∃ name before a after, call = name :: before ++ a :: after ∧
          Decides before a n.verdict ∧
          ∀ after', notice (name :: before ++ a :: after') = some n) ∧
        if n.verdict.isHelp then n.exitCode = 0 ∧ n.onErrorStream = false
        else n.exitCode = 2 ∧ n.onErrorStream = true := by
  constructor
  · rw [notice, Option.map_eq_none_iff]
    exact judge_eq_none_iff
  · intro n hn
    obtain ⟨v, hv, rfl⟩ := Option.map_eq_some_iff.mp hn
    constructor
    · obtain ⟨before, a, after, hcall, hdecides, hafter⟩ := exists_decides_of_judge hv
      match call with
      | [] => simp at hcall
      | name :: arguments =>
        refine ⟨name, before, a, after, congrArg (name :: ·) hcall, hdecides, ?_⟩
        intro after'
        exact Option.map_eq_some_iff.mpr ⟨v, hafter after', rfl⟩
    · cases hhelp : v.isHelp <;> simp [Verdict.exitCode, hhelp]

example : (notice [[], escape, helpFlag]).map Notice.verdict =
    some (.unexpectedArgument "--help".toList false) := by decide

end ReleaseLog.CommandLine
