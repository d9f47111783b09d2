import ReleaseLog.Text.Basic

/-!
# Printable text

What is left of a text when the sequences that steer a terminal are taken out: escape sequences,
control sequences, commands, device control strings, other strings, and every control character but
the ones that lay out lines. A layout character is shown within an escape or control sequence too.
It ends the sequence there, or suspends it until the next character that is not shown.
-/

namespace ReleaseLog.Text

/-- Where a terminal stands: in plain text, or within a sequence that steers it. A device control
string has a head of parameters before it. -/
inductive Mode
  | plain
  | escape
  | intermediate
  | control
  | command
  | device
  | deviceParameter
  | deviceIntermediate
  | string
  deriving DecidableEq

def isLayout (c : Char) : Bool := c = '\t' || c = '\n' || c = '\x0c' || c = '\r'

def Mode.shows : Mode → Char → Bool
  | .plain, c => isLayout c || (0x20 ≤ c.toNat && c.toNat != 0x7f)
  | .escape, c | .intermediate, c | .control, c => isLayout c
  | _, _ => false

def between (low high c : Char) : Bool := low ≤ c && c ≤ high

/-- A string ends at the byte 9C, even at one among the bytes of a character. -/
def endsString (c : Char) : Bool := (String.utf8EncodeChar c).contains 0x9c

def Mode.next (m : Mode) (c : Char) : Mode :=
  if c = '\x1b' then .escape
  else if c = '\x18' || c = '\x1a' then .plain
  else
    match m with
    | .plain => .plain
    | .escape =>
      if c = '[' then .control
      else if c = ']' then .command
      else if c = 'P' then .device
      else if c = 'X' || c = '^' || c = '_' then .string
      else if between ' ' '/' c then .intermediate
      else if between '0' '~' c then .plain
      else .escape
    | .intermediate => if between '0' '~' c then .plain else .intermediate
    | .control => if between '@' '~' c then .plain else .control
    | .command => if c = '\x07' then .plain else .command
    | .device =>
      if between ' ' '/' c then .deviceIntermediate
      else if between '0' '?' c then .deviceParameter
      else if between '@' '~' c then .string
      else .device
    | .deviceParameter =>
      if between ' ' '/' c then .deviceIntermediate
      else if between '<' '~' c then .string
      else .deviceParameter
    | .deviceIntermediate => if between '0' '~' c then .string else .deviceIntermediate
    | .string => if endsString c then .plain else .string

/-- What a layout character does to the sequence that it stands in. -/
inductive Interruption
  | ends
  | suspends
  deriving DecidableEq

/-- The mode that is left after a character that is shown. A suspended sequence ends at a character
that is not ASCII. -/
def Interruption.leave : Interruption → Mode → Char → Mode
  | .ends, _, _ => .plain
  | .suspends, m, c => if c.toNat ≤ 0x7f then m else .plain

/-- The characters shown when a text is read from a mode on. While `suspended` holds, plain text is
read within the sequence of that mode. -/
def printableFrom (i : Interruption) : Mode → Bool → Text → Text
  | _, _, [] => []
  | m, suspended, c :: r =>
    if (if suspended then Mode.plain else m).shows c then
      c :: printableFrom i (i.leave m c) true r
    else printableFrom i (m.next c) false r

def printable (i : Interruption) (t : Text) : Text := printableFrom i .plain false t

@[simp] theorem leave_plain (i : Interruption) (c : Char) : i.leave .plain c = .plain := by
  cases i <;> simp [Interruption.leave]

theorem printable_of_shown (i : Interruption) {t : Text} (h : t.all Mode.plain.shows = true) :
    printable i t = t := by
  suffices ∀ suspended, printableFrom i .plain suspended t = t from this false
  induction t with
  | nil => simp [printableFrom]
  | cons c r ih => simp_all [printableFrom]

theorem Mode.plain_shows_of_shows {m : Mode} {c : Char} (h : m.shows c = true) :
    Mode.plain.shows c = true := by
  cases m <;> simp_all [Mode.shows]

theorem printableFrom_sublist (i : Interruption) (m : Mode) (suspended : Bool) (t : Text) :
    (printableFrom i m suspended t).Sublist t := by
  induction t generalizing m suspended with
  | nil => exact .slnil
  | cons c r ih =>
    rw [printableFrom]
    by_cases hc : (if suspended then Mode.plain else m).shows c = true
    · rw [if_pos hc]
      exact .cons_cons c (ih _ _)
    · rw [if_neg hc]
      exact .cons c (ih _ _)

theorem shows_of_mem_printableFrom {i : Interruption} {m : Mode} {suspended : Bool} {t : Text}
    {c : Char} (h : c ∈ printableFrom i m suspended t) : Mode.plain.shows c = true := by
  induction t generalizing m suspended with
  | nil => cases h
  | cons d r ih =>
    rw [printableFrom] at h
    by_cases hd : (if suspended then Mode.plain else m).shows d = true
    · rw [if_pos hd] at h
      rcases List.mem_cons.mp h with rfl | h
      · exact Mode.plain_shows_of_shows hd
      · exact ih h
    · rw [if_neg hd] at h
      exact ih h

/-- What can be shown of a text: nothing that steers a terminal, and the whole text if nothing in
it does. -/
structure Shown (t shown : Text) : Prop where
  sublist : shown.Sublist t
  shows : ∀ c ∈ shown, Mode.plain.shows c = true
  whole : t.all Mode.plain.shows = true → shown = t

theorem shown_printable (i : Interruption) (t : Text) : t.Shown (t.printable i) where
  sublist := printableFrom_sublist i .plain false t
  shows _ := shows_of_mem_printableFrom
  whole := printable_of_shown i

end ReleaseLog.Text
