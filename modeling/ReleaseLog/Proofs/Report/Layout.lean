import Mathlib.Data.List.Chain
import ReleaseLog.Failure
import ReleaseLog.Report

/-!
# The layout of reports

A report on a failure is told by its lines: a heading, and each message with a number before it and
its further lines set in (`tells_iff`). So no line of a message is taken for another message, and
the report tells them all apart (`Tells.messages_eq`). The messages of a failure say what failed and
each ends in the next one (`Failure.told_failure`).
-/

namespace ReleaseLog

namespace Report

def setIn (line : Text) : Text := if line = [] then [] else "      ".toList ++ line

/-- The lines of a message: its number to the right of four columns, and the message. -/
def entryLines (number : Nat) (message : Text) : List Text :=
  match pieces '\n' message with
  | [] => []
  | first :: rest =>
    ((Text.ofNat number).leftpad 4 ' ' ++ ": ".toList ++ first) :: rest.map setIn

def numbered (messages : List Text) (number : Nat) : List Text :=
  (messages.zipIdx number).flatMap fun p => entryLines p.2 p.1

/-- A report whose lines are a heading and some numbered messages. -/
def Tells (messages : List Text) (report : Text) : Prop :=
  pieces '\n' report = "Error: ".toList :: numbered messages 0

/-! ## The lines of a report -/

theorem furtherLine_eq (line : Text) : furtherLine line = '\n' :: setIn line := by
  cases line with
  | nil => rfl
  | cons c line => rfl

theorem not_mem_setIn {line : Text} (h : '\n' ∉ line) : '\n' ∉ setIn line := by
  unfold setIn
  split
  · exact List.not_mem_nil
  · simp [h]

theorem pieces_append_flatMap_furtherLine {head : Text} (hhead : '\n' ∉ head) {rest : List Text}
    (hrest : ∀ line ∈ rest, '\n' ∉ line) :
    pieces '\n' (head ++ rest.flatMap furtherLine) = head :: rest.map setIn := by
  induction rest generalizing head with
  | nil => rw [List.flatMap_nil, List.append_nil, pieces_of_not_mem hhead, List.map_nil]
  | cons line rest ih =>
    obtain ⟨hline, hrest⟩ := List.forall_mem_cons.mp hrest
    rw [List.flatMap_cons, furtherLine_eq, List.cons_append, pieces_append_cons hhead,
      ih (not_mem_setIn hline) hrest, List.map_cons]

theorem isDigit_of_mem_ofNat {n : Nat} {c : Char} (h : c ∈ Text.ofNat n) : c.isDigit = true :=
  Nat.isDigit_of_mem_toDigits (by decide) (by decide) h

theorem not_mem_ofNat (n : Nat) : '\n' ∉ Text.ofNat n := by
  intro h
  exact absurd (isDigit_of_mem_ofNat h) (by decide)

theorem not_mem_numeral (n : Nat) : '\n' ∉ (Text.ofNat n).leftpad 4 ' ' ++ ": ".toList := by
  have h := not_mem_ofNat n
  simp only [List.leftpad, List.mem_append, List.mem_replicate, h, or_false]
  simp

theorem pieces_numeral_append_indented (number : Nat) (message : Text) :
    pieces '\n' ((Text.ofNat number).leftpad 4 ' ' ++ ": ".toList ++ indented message) =
      entryLines number message := by
  have hlines : ∀ line ∈ pieces '\n' message, '\n' ∉ line := fun _ h => not_mem_of_mem_pieces h
  unfold indented entryLines
  cases h : pieces '\n' message with
  | nil => exact absurd h (pieces_ne_nil '\n' message)
  | cons first rest =>
    rw [h] at hlines
    obtain ⟨hfirst, hrest⟩ := List.forall_mem_cons.mp hlines
    have hhead : '\n' ∉ (Text.ofNat number).leftpad 4 ' ' ++ ": ".toList ++ first := by
      rw [List.mem_append]
      exact not_or.mpr ⟨not_mem_numeral number, hfirst⟩
    rw [← List.append_assoc, pieces_append_flatMap_furtherLine hhead hrest]

theorem entry_eq (number : Nat) (message : Text) :
    entry number message =
      '\n' :: ((Text.ofNat number).leftpad 4 ' ' ++ ": ".toList ++ indented message) := by
  unfold entry
  generalize Text.ofNat number = digits
  rfl

theorem pieces_append_entries (s : Text) (number : Nat) (messages : List Text) :
    pieces '\n' (s ++ entries number messages) = pieces '\n' s ++ numbered messages number := by
  induction messages generalizing s number with
  | nil => simp [entries, numbered]
  | cons message messages ih =>
    rw [entries, entry_eq, List.cons_append, pieces_append_separator, ih,
      pieces_numeral_append_indented, numbered, numbered, List.zipIdx_cons, List.flatMap_cons]

theorem pieces_failure (messages : List Text) :
    pieces '\n' (failure messages) = "Error: ".toList :: numbered messages 0 := by
  have hhead : '\n' ∉ "Error: ".toList := by decide
  unfold failure
  rw [pieces_append_entries, pieces_of_not_mem hhead]
  rfl

theorem tells_iff {messages : List Text} {report : Text} :
    Tells messages report ↔ failure messages = report := by
  rw [Tells, ← pieces_failure]
  constructor
  · intro h
    rw [← intercalate_pieces '\n' report, h, intercalate_pieces]
  · rintro rfl
    rfl

/-! ## The messages of a report -/

/-- Whether a line of a report goes on with a message. -/
def isFurther (line : Text) : Bool := (line.take 4).all (· = ' ')

theorem isFurther_setIn (line : Text) : isFurther (setIn line) = true := by
  unfold setIn
  split <;> rfl

theorem setIn_injective {s t : Text} (h : setIn s = setIn t) : s = t := by
  have hlong : ∀ {line : Text}, "      ".toList ++ line ≠ [] := by simp
  unfold setIn at h
  split at h
  · next hs =>
    split at h
    · next ht => exact hs.trans ht.symm
    · exact absurd h.symm hlong
  · split at h
    · exact absurd h hlong
    · exact List.append_cancel_left h

theorem isFurther_numeral_append (n : Nat) (t : Text) :
    isFurther ((Text.ofNat n).leftpad 4 ' ' ++ t) = false := by
  obtain ⟨d, ds, hds⟩ := List.exists_cons_of_ne_nil (l := Text.ofNat n) Nat.toDigits_ne_nil
  have hd : d ∈ Text.ofNat n := hds ▸ List.mem_cons_self
  have hne : d ≠ ' ' := by
    rintro rfl
    exact absurd (isDigit_of_mem_ofNat hd) (by decide)
  -- the first digit is among the first four characters, however many blanks are before it
  have hmem : d ∈ ((Text.ofNat n).leftpad 4 ' ' ++ t).take 4 := by
    rw [hds, List.leftpad, List.append_assoc, List.take_append, List.length_replicate,
      List.length_cons, List.cons_append]
    apply List.mem_append_right
    rw [show 4 - (4 - (ds.length + 1)) = (4 - (4 - (ds.length + 1)) - 1) + 1 by omega,
      List.take_succ_cons]
    exact List.mem_cons_self
  unfold isFurther
  rw [List.all_eq_false]
  exact ⟨d, hmem, by simpa using hne⟩

theorem isFurther_of_mem_setIn {rest : List Text} {line : Text} (h : line ∈ rest.map setIn) :
    isFurther line = true := by
  obtain ⟨l, _, rfl⟩ := List.mem_map.mp h
  exact isFurther_setIn l

theorem exists_entryLines (number : Nat) (message : Text) :
    ∃ first rest, pieces '\n' message = first :: rest ∧
      entryLines number message =
        ((Text.ofNat number).leftpad 4 ' ' ++ ": ".toList ++ first) :: rest.map setIn := by
  obtain ⟨first, rest, h⟩ := List.exists_cons_of_ne_nil (pieces_ne_nil '\n' message)
  refine ⟨first, rest, h, ?_⟩
  unfold entryLines
  rw [h]

/-- What stands under a message ends where the next number stands. -/
theorem takeWhile_setIn_append_numbered (rest : List Text) (messages : List Text) (number : Nat) :
    (rest.map setIn ++ numbered messages number).takeWhile isFurther = rest.map setIn := by
  rw [List.takeWhile_append_of_pos fun _ => isFurther_of_mem_setIn]
  cases messages with
  | nil => simp [numbered]
  | cons message messages =>
    obtain ⟨first, _, _, hlines⟩ := exists_entryLines number message
    have hhead := isFurther_numeral_append number (": ".toList ++ first)
    rw [← List.append_assoc] at hhead
    rw [numbered, List.zipIdx_cons, List.flatMap_cons, hlines, List.cons_append,
      List.takeWhile_cons_of_neg (Bool.eq_false_iff.mp hhead), List.append_nil]

theorem numbered_injective {messages messages' : List Text} {number : Nat}
    (h : numbered messages number = numbered messages' number) : messages = messages' := by
  induction messages generalizing messages' number with
  | nil =>
    cases messages' with
    | nil => rfl
    | cons message messages' =>
      obtain ⟨_, _, _, hlines⟩ := exists_entryLines number message
      simp [numbered, hlines] at h
  | cons message messages ih =>
    obtain ⟨first, rest, hpieces, hlines⟩ := exists_entryLines number message
    cases messages' with
    | nil => simp [numbered, hlines] at h
    | cons message' messages' =>
      obtain ⟨first', rest', hpieces', hlines'⟩ := exists_entryLines number message'
      rw [numbered, numbered, List.zipIdx_cons, List.zipIdx_cons, List.flatMap_cons,
        List.flatMap_cons, hlines, hlines', List.cons_append, List.cons_append,
        List.cons_eq_cons] at h
      obtain ⟨hfirst, hrest⟩ := h
      have hmap : rest.map setIn = rest'.map setIn := by
        rw [← takeWhile_setIn_append_numbered rest messages (number + 1),
          ← takeWhile_setIn_append_numbered rest' messages' (number + 1)]
        exact congrArg _ hrest
      have hmessage : message = message' := by
        rw [← intercalate_pieces '\n' message, ← intercalate_pieces '\n' message', hpieces,
          hpieces', List.append_cancel_left hfirst,
          List.map_inj_right (fun _ _ => setIn_injective) |>.mp hmap]
      rw [hmap] at hrest
      rw [hmessage, ih (List.append_cancel_left hrest)]

/-- A report tells one list of messages only. -/
theorem Tells.messages_eq {messages messages' : List Text} {report : Text}
    (h : Tells messages report) (h' : Tells messages' report) : messages = messages' :=
  numbered_injective (List.cons_eq_cons.mp (h.symm.trans h')).2

/-! ## Warnings -/

/-- What is shown of the records: each warning of theirs on a line. -/
inductive Warns : List Record → Text → Prop
  | nil : Warns [] []
  | quiet {r : Record} {records : List Record} {text : Text} (hr : ∀ url, r ≠ .noSuffix url)
    (h : Warns records text) : Warns (r :: records) text
  | noSuffix {url : Text} {records : List Record} {text : Text} (h : Warns records text) :
    Warns (.noSuffix url :: records)
      ("[WARN] ".toList ++ ("remote URL '".toList ++ url ++
        "' has no .git suffix; change request links may not resolve".toList) ++ ['\n'] ++ text)

theorem warnings_eq_nil {r : Record} (hr : ∀ url, r ≠ .noSuffix url) : warnings [r] = [] := by
  cases r with
  | noSuffix url => exact absurd rfl (hr url)
  | usingGit | runningGit | counted | skipped => rfl

theorem warnings_noSuffix (url : Text) :
    warnings [.noSuffix url] = "[WARN] ".toList ++ ("remote URL '".toList ++ url ++
      "' has no .git suffix; change request links may not resolve".toList) ++ ['\n'] := by
  have hlevel : '[' :: Level.warn.name ++ "] ".toList = "[WARN] ".toList := by decide
  rw [← hlevel, List.append_assoc]
  exact List.append_nil _

theorem warns_iff {records : List Record} {text : Text} :
    Warns records text ↔ warnings records = text := by
  constructor
  · intro h
    induction h with
    | nil => rfl
    | @quiet r records text hr h ih =>
      rw [← List.singleton_append, warnings_append, warnings_eq_nil hr, ih, List.nil_append]
    | @noSuffix url records text h ih =>
      rw [← List.singleton_append, warnings_append, warnings_noSuffix, ih]
  · rintro rfl
    induction records with
    | nil => exact .nil
    | cons r records ih =>
      rw [← List.singleton_append, warnings_append]
      cases r with
      | noSuffix url =>
        rw [warnings_noSuffix]
        exact .noSuffix ih
      | usingGit | runningGit | counted | skipped => exact .quiet (by simp) ih

end Report

namespace QueryFailure

def opening : QueryFailure → Text
  | .notARepository => "Not a git repository".toList
  | .commandFailed _ _ => "git command failed (exit code ".toList
  | .fault _ => "IO error: ".toList
  | .gitNotFound => "git is not installed or not in PATH".toList
  | .noOutput _ => "git produced no output for `".toList

theorem opening_prefix_message (cause : QueryFailure) : cause.opening <+: cause.message := by
  cases cause with
  | notARepository | gitNotFound => exact List.prefix_rfl
  | commandFailed =>
    iterate 2 apply List.prefix_append_of_prefix
    exact List.prefix_append _ _
  | fault => exact List.prefix_append _ _
  | noOutput => exact List.prefix_append_of_prefix (List.prefix_append _ _)

theorem isChain_messages (cause : QueryFailure) :
    (cause.message :: cause.causes).IsChain fun message below => below <:+ message := by
  cases cause with
  | fault f => exact .cons_cons (List.suffix_append _ _) (.singleton _)
  | notARepository | commandFailed | gitNotFound | noOutput => exact .singleton _

end QueryFailure

namespace Failure

def opening : Failure → Text
  | .missingTool => "git is not installed or not in PATH".toList
  | .tagResolution _ _ _ => "Failed to resolve the latest release tag matching '".toList
  | .remoteConfig _ _ => "Failed to read the URL of remote '".toList
  | .logFetch _ _ => "Failed to fetch commits in ".toList
  | .output _ => "Failed to write changelog: ".toList

/-- A report that tells what failed and why: each message ends in the one below it. -/
structure Told (f : Failure) (report : Text) : Prop where
  messages : ∀ messages, Report.Tells messages report ↔ messages = f.message :: f.causes
  opening : f.opening <+: f.message
  question : ∀ cause, f.query? = some cause →
    f.causes = cause.message :: cause.causes ∧ cause.opening <+: cause.message
  chain : (f.message :: f.causes).IsChain fun message below => below <:+ message

theorem opening_prefix_message (f : Failure) : f.opening <+: f.message := by
  cases f with
  | missingTool => exact List.prefix_append_of_prefix (List.prefix_append _ _)
  | tagResolution =>
    iterate 4 apply List.prefix_append_of_prefix
    exact List.prefix_append _ _
  | remoteConfig | logFetch =>
    iterate 2 apply List.prefix_append_of_prefix
    exact List.prefix_append _ _
  | output => exact List.prefix_append _ _

theorem isChain_messages (f : Failure) :
    (f.message :: f.causes).IsChain fun message below => below <:+ message := by
  cases f with
  | missingTool => exact .singleton _
  | tagResolution _ _ cause | remoteConfig _ cause | logFetch _ cause =>
    exact .cons_cons (List.suffix_append _ _) cause.isChain_messages
  | output fault => exact .cons_cons (List.suffix_append _ _) (.singleton _)

theorem told_failure (f : Failure) : f.Told (Report.failure (f.message :: f.causes)) where
  messages messages := by
    have htells := Report.tells_iff.mpr (rfl : Report.failure (f.message :: f.causes) = _)
    exact ⟨fun h => h.messages_eq htells, fun h => h ▸ htells⟩
  opening := f.opening_prefix_message
  question cause hcause := by
    refine ⟨?_, cause.opening_prefix_message⟩
    cases f with
    | missingTool | output => cases hcause
    | tagResolution | remoteConfig | logFetch =>
      cases hcause
      rfl
  chain := f.isChain_messages

end Failure

end ReleaseLog
