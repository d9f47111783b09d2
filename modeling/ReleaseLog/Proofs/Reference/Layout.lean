import ReleaseLog.Proofs.Text.Trimming
import ReleaseLog.Reference

/-!
# The layout of a subject

The marker holds no blank, so the last blank of a subject stands before it, and the title and the
number are cut from the same layout: blanks, the title, blanks, a word glued to the marker, and the
marker. Every subject that ends in a marker has such a layout, and only one title goes with it
(`ofSubject?_eq_some_iff_layout`).
-/

namespace ReleaseLog.Reference

def IsWord (t : Text) : Prop := ∀ c ∈ t, Text.isBlank c = false

/-- A number as a marker holds it: one digit at least, and nothing else. -/
structure IsNumber (number : Text) : Prop where
  ne_nil : number ≠ []
  digits : ∀ c ∈ number, c.isDigit = true

theorem isBlank_of_isDigit {c : Char} (h : c.isDigit = true) : Text.isBlank c = false := by
  obtain ⟨hlow, hhigh⟩ := toNat_of_isDigit h
  simp only [Text.isBlank, Text.blankRanges, List.any_cons, List.any_nil, Bool.or_false,
    Bool.or_eq_false_iff, Bool.and_eq_false_iff, decide_eq_false_iff_not]
  omega

theorem isWord_marker {number : Text} (h : IsNumber number) : IsWord (marker number) :=
  forall_mem_marker (by decide) (by decide) (by decide) fun c hc =>
    isBlank_of_isDigit (h.digits c hc)

/-! ## The title -/

theorem titleOf_append_blank (head : Text) {c : Char} (hc : Text.isBlank c = true) :
    titleOf (head ++ [c]) = Text.trim head := by
  simp [titleOf, hc]

/-- A word at the end of a subject is no part of the title. -/
theorem titleOf_append_word (head : Text) {word : Text} (hw : IsWord word) :
    titleOf (head ++ word) = titleOf head := by
  have hw' : ∀ c ∈ word.reverse, (!Text.isBlank c) = true := by
    intro c hc
    rw [hw c (List.mem_reverse.mp hc)]
    rfl
  rw [titleOf, List.reverse_append, List.dropWhile_append_of_pos hw', titleOf]

theorem titleOf_of_isWord {word : Text} (hw : IsWord word) : titleOf word = [] :=
  titleOf_append_word [] hw

theorem titleOf_of_allBlank {t : Text} (h : t.allBlank = true) : titleOf t = [] := by
  rcases List.eq_nil_or_concat t with rfl | ⟨head, c, rfl⟩
  · rfl
  · rw [List.concat_eq_append] at h ⊢
    obtain ⟨hhead, hc⟩ := Text.allBlank_concat_iff.mp h
    rw [titleOf_append_blank head hc, Text.trim_of_allBlank hhead]

theorem isWord_or_exists_last_blank (t : Text) :
    IsWord t ∨ ∃ head c word, t = head ++ [c] ++ word ∧ Text.isBlank c = true ∧ IsWord word := by
  induction t with
  | nil => exact .inl (by simp [IsWord])
  | cons d t ih =>
    rcases ih with hword | ⟨head, c, word, rfl, hc, hword⟩
    · cases hd : Text.isBlank d with
      | false => exact .inl (List.forall_mem_cons.mpr ⟨hd, hword⟩)
      | true => exact .inr ⟨[], d, t, rfl, hd, hword⟩
    · exact .inr ⟨d :: head, c, word, rfl, hc, hword⟩

/-! ## Layouts -/

/-- A subject as blanks, a title, a gap, a word glued to the marker, and the marker. -/
structure Layout (subject : Text) (r : Reference) (lead gap glued : Text) : Prop where
  subject_eq : subject = lead ++ r.title ++ gap ++ glued ++ marker r.number
  lead_blank : lead.allBlank = true
  title_trimmed : r.title.Trimmed
  gap_blank : gap.allBlank = true
  gap_ne_nil : r.title ≠ [] → gap ≠ []
  glued_word : IsWord glued
  number : IsNumber r.number

theorem Layout.titleOf_eq {subject : Text} {r : Reference} {lead gap glued : Text}
    (h : Layout subject r lead gap glued) : titleOf subject = r.title := by
  have hwords : titleOf subject = titleOf (lead ++ r.title ++ gap) := by
    rw [h.subject_eq, titleOf_append_word _ (isWord_marker h.number),
      titleOf_append_word _ h.glued_word]
  rw [hwords]
  rcases List.eq_nil_or_concat gap with hnil | ⟨blanks, c, hgap⟩
  · -- Nothing parts a title from the marker, so there is none.
    have htitle : r.title = [] := Classical.not_not.mp (mt h.gap_ne_nil (not_not_intro hnil))
    rw [hnil, htitle, List.append_nil, List.append_nil, titleOf_of_allBlank h.lead_blank]
  · rw [List.concat_eq_append] at hgap
    obtain ⟨hblanks, hc⟩ := Text.allBlank_concat_iff.mp (hgap ▸ h.gap_blank)
    rw [hgap, ← List.append_assoc, titleOf_append_blank _ hc]
    exact Text.trim_eq_iff.mpr ⟨lead, blanks, rfl, h.lead_blank, hblanks, h.title_trimmed⟩

theorem exists_layout (head : Text) {number : Text} (hn : IsNumber number) :
    ∃ lead gap glued, Layout (head ++ marker number) ⟨titleOf (head ++ marker number), number⟩
      lead gap glued := by
  rw [titleOf_append_word head (isWord_marker hn)]
  rcases isWord_or_exists_last_blank head with hword | ⟨before, c, word, rfl, hc, hword⟩
  · rw [titleOf_of_isWord hword]
    exact ⟨[], [], head, by simp, rfl, Text.trimmed_nil, rfl, by simp, hword, hn⟩
  · rw [titleOf_append_word _ hword, titleOf_append_blank before hc]
    obtain ⟨lead, blanks, hbefore, hlead, hblanks, htitle⟩ :=
      Text.trim_eq_iff.mp (Eq.refl (Text.trim before))
    have hgap : Text.allBlank (blanks ++ [c]) = true := Text.allBlank_concat_iff.mpr ⟨hblanks, hc⟩
    refine ⟨lead, blanks ++ [c], word, ?_, hlead, htitle, hgap, by simp, hword, hn⟩
    conv => lhs; rw [hbefore]
    simp

theorem ofSubject?_append_marker (head : Text) {number : Text} (hn : IsNumber number) :
    ofSubject? (head ++ marker number) = some ⟨titleOf (head ++ marker number), number⟩ := by
  rw [ofSubject?, trailingNumber?_append_marker head hn.ne_nil hn.digits, Option.map_some]

theorem Layout.ofSubject?_eq {subject : Text} {r : Reference} {lead gap glued : Text}
    (h : Layout subject r lead gap glued) : ofSubject? subject = some r := by
  have htitle := h.titleOf_eq
  rw [h.subject_eq] at htitle ⊢
  rw [ofSubject?_append_marker _ h.number, htitle]

theorem exists_of_ofSubject? {subject : Text} {r : Reference} (h : ofSubject? subject = some r) :
    IsNumber r.number ∧ ∃ head, subject = head ++ marker r.number ∧ titleOf subject = r.title := by
  obtain ⟨number, hn, rfl⟩ := Option.map_eq_some_iff.mp h
  obtain ⟨hne, hd, head, hhead⟩ := eq_append_marker_of_trailingNumber? hn
  exact ⟨⟨hne, hd⟩, head, hhead, rfl⟩

theorem ofSubject?_eq_some_iff_layout {subject : Text} {r : Reference} :
    ofSubject? subject = some r ↔ ∃ lead gap glued, Layout subject r lead gap glued := by
  constructor
  · intro h
    obtain ⟨hn, head, hhead, htitle⟩ := exists_of_ofSubject? h
    have hlayout := exists_layout head hn
    rw [← hhead, htitle] at hlayout
    exact hlayout
  · rintro ⟨lead, gap, glued, h⟩
    exact h.ofSubject?_eq

def EndsInMarker (subject : Text) : Prop :=
  ∃ head number, IsNumber number ∧ subject = head ++ marker number

theorem ofSubject?_eq_none_iff_not_endsInMarker {subject : Text} :
    ofSubject? subject = none ↔ ¬ EndsInMarker subject := by
  constructor
  · rintro h ⟨head, number, hn, rfl⟩
    rw [ofSubject?_append_marker head hn] at h
    cases h
  · intro h
    cases hr : ofSubject? subject with
    | none => rfl
    | some r =>
      obtain ⟨hn, head, hhead, _⟩ := exists_of_ofSubject? hr
      exact absurd ⟨head, r.number, hn, hhead⟩ h

/-- A subject refers to what its layout shows. No two layouts show different references, and the
subjects without one are those that do not end in a marker. -/
theorem reference_iff_layout (subject : Text) :
    (∀ r, ofSubject? subject = some r ↔ ∃ lead gap glued, Layout subject r lead gap glued) ∧
      (∀ r r' lead gap glued lead' gap' glued', Layout subject r lead gap glued →
        Layout subject r' lead' gap' glued' → r = r') ∧
      (ofSubject? subject = none ↔ ¬ EndsInMarker subject) := by
  refine ⟨fun r => ofSubject?_eq_some_iff_layout, ?_, ofSubject?_eq_none_iff_not_endsInMarker⟩
  intro r r' lead gap glued lead' gap' glued' h h'
  exact Option.some.inj (h.ofSubject?_eq.symm.trans h'.ofSubject?_eq)

/-- A word glued to the marker is no part of the title. -/
theorem reference_iff_layout_glued :
    ∃ lead gap glued, Layout "\tFix  bug(#07)".toList ⟨"Fix".toList, "07".toList⟩ lead gap glued :=
  ((reference_iff_layout _).1 _).mp (by decide)

end ReleaseLog.Reference
