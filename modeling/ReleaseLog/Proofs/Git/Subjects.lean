import Mathlib.Data.List.Basic
import ReleaseLog.Git.Output
import ReleaseLog.Proofs.Text.ByteLines
import ReleaseLog.Reference

/-!
# The subjects in an output

A text is a list of lines, each with the end that it has, and perhaps one more line that has none.
The subjects are those of its lines that are not blank, each as it stands, and this says all about
them, since every text can be read as such a list (`subjects_of_sheet`).
-/

namespace ReleaseLog

namespace Text

inductive LineEnd
  | feed
  | returnFeed
  deriving DecidableEq

def LineEnd.text : LineEnd → Text
  | .feed => ['\n']
  | .returnFeed => ['\r', '\n']

/-- Lines with their ends, and perhaps one more line without. No line holds a line feed, and where a
feed stands alone no return stands before it, since the two would be one end. -/
structure Sheet where
  ended : List (Text × LineEnd)
  last : Option Text
  feed_free : ∀ l ∈ ended.map Prod.fst ++ last.toList, '\n' ∉ l
  return_free : ∀ l, (l, .feed) ∈ ended → l.getLast? ≠ some '\r'

namespace Sheet

def lines (s : Sheet) : List Text := s.ended.map Prod.fst ++ s.last.toList

def text (s : Sheet) : Text := s.ended.flatMap (fun (l, e) => l ++ e.text) ++ s.last.getD []

end Sheet

theorem feedLines_append_end {l : Text} {e : LineEnd} (hl : '\n' ∉ l)
    (he : e = .feed → l.getLast? ≠ some '\r') (r : Text) :
    feedLines '\n' '\r' (l ++ e.text ++ r) = l :: feedLines '\n' '\r' r := by
  cases e with
  | feed =>
    rw [LineEnd.text, List.append_assoc, List.singleton_append, feedLines_append_cons hl,
      dropReturn, if_neg (he rfl)]
  | returnFeed =>
    have hl' : '\n' ∉ l ++ ['\r'] := by simp [hl]
    have hsplit : l ++ ['\r', '\n'] ++ r = (l ++ ['\r']) ++ '\n' :: r := by simp
    rw [LineEnd.text, hsplit, feedLines_append_cons hl', dropReturn_append_singleton, if_pos rfl]

namespace Sheet

/-- What stands between the feeds of a sheet are its lines; nothing after the last end counts as an
empty one. -/
theorem feedLines_text (s : Sheet) :
    feedLines '\n' '\r' s.text = s.ended.map Prod.fst ++ [s.last.getD []] := by
  obtain ⟨ended, last, hfeed, hreturn⟩ := s
  simp only [text]
  induction ended with
  | nil =>
    have hlast : '\n' ∉ last.getD [] := by
      cases last with
      | none => simp
      | some l => exact hfeed l (by simp)
    exact feedLines_of_not_mem hlast '\r'
  | cons p ended ih =>
    have hrest := ih (fun l hl => hfeed l (List.mem_cons_of_mem p.1 hl))
      (fun l hl => hreturn l (List.mem_cons_of_mem p hl))
    have hl : '\n' ∉ p.1 := hfeed p.1 (by simp)
    have he : p.2 = .feed → p.1.getLast? ≠ some '\r' := by
      intro he
      exact hreturn p.1 (by simp [← he])
    rw [List.flatMap_cons, List.append_assoc, feedLines_append_end hl he, hrest]
    rfl

theorem filterMap_lines_text {β : Type} {f : Text → Option β} (hf : f [] = none) (s : Sheet) :
    s.text.lines.filterMap f = s.lines.filterMap f := by
  rw [filterMap_lines hf, feedLines_text, lines, List.filterMap_append, List.filterMap_append]
  cases s.last with
  | none => simp [hf]
  | some l => rfl

def cons (l : Text) (e : LineEnd) (hl : '\n' ∉ l) (he : e = .feed → l.getLast? ≠ some '\r')
    (s : Sheet) : Sheet where
  ended := (l, e) :: s.ended
  last := s.last
  feed_free := List.forall_mem_cons.mpr ⟨hl, s.feed_free⟩
  return_free := by
    intro k hk
    rcases List.mem_cons.mp hk with hk | hk
    · obtain ⟨rfl, rfl⟩ := Prod.mk.inj hk
      exact he rfl
    · exact s.return_free k hk

theorem text_cons {l : Text} {e : LineEnd} (hl : '\n' ∉ l)
    (he : e = .feed → l.getLast? ≠ some '\r') (s : Sheet) :
    (s.cons l e hl he).text = l ++ e.text ++ s.text := by
  simp [text, cons]

theorem exists_text_eq (t : Text) : ∃ s : Sheet, s.text = t := by
  induction t using cut_induction '\n' with
  | last l hl =>
    have hfeed : ∀ k ∈ ([] : List (Text × LineEnd)).map Prod.fst ++ (some l).toList, '\n' ∉ k := by
      simpa using hl
    exact ⟨⟨[], some l, hfeed, by simp⟩, by simp [text]⟩
  | cut l r hl ih =>
    obtain ⟨s, rfl⟩ := ih
    by_cases hreturn : l.getLast? = some '\r'
    · obtain ⟨k, rfl⟩ := List.getLast?_eq_some_iff.mp hreturn
      have hk : '\n' ∉ k := fun h => hl (List.mem_append_left _ h)
      exact ⟨s.cons k .returnFeed hk (by simp), by simp [text_cons, LineEnd.text]⟩
    · exact ⟨s.cons l .feed hl (fun _ => hreturn), by simp [text_cons, LineEnd.text]⟩

end Sheet

end Text

namespace Git

theorem filterMap_subjects {β : Type} {f : Text → Option β}
    (hf : ∀ l : Text, l.allBlank = true → f l = none) (output : Text) :
    (subjects output).filterMap f = output.lines.filterMap f := by
  rw [subjects, List.filterMap_filter]
  apply List.filterMap_congr
  intro l _
  cases h : l.allBlank with
  | false => rfl
  | true => exact (hf l h).symm

theorem subjects_text (s : Text.Sheet) :
    subjects s.text = s.lines.filter fun l => !l.allBlank := by
  rw [subjects, ← List.filterMap_eq_filter, s.filterMap_lines_text]
  rfl

/-- The subjects in a sheet are its lines that are not blank, and as many references are found in
them as in all lines. Every text is one, so nothing else reads sheets in this way. -/
theorem subjects_of_sheet :
    (∀ s : Text.Sheet,
      subjects s.text = s.lines.filter (fun l => !l.allBlank) ∧
        (subjects s.text).filterMap Reference.ofSubject? =
          s.lines.filterMap Reference.ofSubject?) ∧
      (∀ output : Text, ∃ s : Text.Sheet, s.text = output) ∧
      ∀ read : Text → List Text,
        (∀ s : Text.Sheet, read s.text = s.lines.filter fun l => !l.allBlank) ↔
          read = subjects := by
  refine ⟨fun s => ⟨subjects_text s, ?_⟩, Text.Sheet.exists_text_eq, fun read => ⟨?_, ?_⟩⟩
  · rw [filterMap_subjects fun _ => Reference.ofSubject?_of_allBlank]
    exact s.filterMap_lines_text rfl
  · intro hread
    funext output
    obtain ⟨s, rfl⟩ := Text.Sheet.exists_text_eq output
    rw [hread, subjects_text]
  · rintro rfl
    exact subjects_text

/-- Only one return goes with a feed, and none without. -/
example : subjects "Fix (#1)\r\r\n\n \u2003\r\n Tidy\r".toList =
    ["Fix (#1)\r".toList, " Tidy\r".toList] := by decide

end Git

end ReleaseLog
