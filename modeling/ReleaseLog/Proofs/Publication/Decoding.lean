import ReleaseLog.Proofs.Bullet.Rendering
import ReleaseLog.Proofs.Publication.Outcome
import ReleaseLog.Proofs.Text.ByteLines

/-!
# Reading a log back

No line of a log has a line feed of its own, so the lines of a log are known from its text, and with
them the tag and the references (`logText_injective`).
-/

namespace ReleaseLog

/-! ## Line feeds -/

namespace Git

theorem newline_not_mem_value {output value : Text} (h : value? output = some value) :
    '\n' ∉ value := by
  obtain ⟨line, hline, rfl⟩ := List.mem_map.mp (List.mem_of_find?_eq_some h)
  exact mt Text.mem_of_mem_trim (Text.newline_not_mem_of_mem_lines hline)

theorem newline_not_mem_of_mem_subjects {output subject : Text} (h : subject ∈ subjects output) :
    '\n' ∉ subject :=
  Text.newline_not_mem_of_mem_lines (List.mem_filter.mp h).1

end Git

namespace Reference

theorem mem_of_mem_titleOf {subject : Text} {c : Char} (h : c ∈ titleOf subject) :
    c ∈ subject := by
  unfold titleOf at h
  cases hd : subject.reverse.dropWhile fun c => !Text.isBlank c with
  | nil => simp [hd] at h
  | cons b head =>
    rw [hd] at h
    have hhead := List.mem_reverse.mp (Text.mem_of_mem_trim h)
    have hrev : c ∈ subject.reverse :=
      (List.dropWhile_sublist _).mem (hd ▸ List.mem_cons_of_mem b hhead)
    exact List.mem_reverse.mp hrev

theorem digits_of_ofSubject? {subject : Text} {r : Reference} (h : ofSubject? subject = some r) :
    ∀ c ∈ r.number, c.isDigit = true := by
  obtain ⟨number, hn, rfl⟩ := Option.map_eq_some_iff.mp h
  exact (eq_append_marker_of_trailingNumber? hn).2.1

theorem mem_of_mem_title {subject : Text} {r : Reference} (h : ofSubject? subject = some r)
    {c : Char} (hc : c ∈ r.title) : c ∈ subject := by
  obtain ⟨number, _, rfl⟩ := Option.map_eq_some_iff.mp h
  exact mem_of_mem_titleOf hc

end Reference

namespace Publication

def references (subjects : List Text) : List Reference := subjects.filterMap Reference.ofSubject?

def bulletLine (url : Text) (r : Reference) : Text :=
  (Bullet.ofReference (Review.base url) r).render

def logLines (tag url : Text) (rs : List Reference) : List Text :=
  tagLine tag :: heading :: [] :: rs.map (bulletLine url)

structure Unbroken (tag url : Text) (subjects : List Text) : Prop where
  tag : '\n' ∉ tag
  url : '\n' ∉ url
  subjects : ∀ subject ∈ subjects, '\n' ∉ subject

theorem bullets_eq_map (url : Text) (subjects : List Text) :
    Bullet.ofSubjects (Review.base url) subjects =
      (references subjects).map (Bullet.ofReference (Review.base url)) := by
  rw [references, List.map_filterMap]
  rfl

theorem logText_eq_flatMap (tag url : Text) (subjects : List Text) :
    logText tag (Bullet.ofSubjects (Review.base url) subjects) =
      (logLines tag url (references subjects)).flatMap Text.line := by
  have hbullets : bulletText (Bullet.ofSubjects (Review.base url) subjects) =
      ((references subjects).map (bulletLine url)).flatMap Text.line := by
    rw [bullets_eq_map, bulletText, List.flatMap_map, List.flatMap_map]
    rfl
  have hheading : "[+] Changelog\n\n".toList = heading.line ++ Text.line [] := by decide
  unfold logText logTail
  rw [hbullets, hheading, List.append_assoc]
  rfl

theorem newline_not_mem_base {url : Text} (h : '\n' ∉ url) : '\n' ∉ Review.base url := by
  intro hm
  rcases Occurrence.mem_of_mem_replaceFirst hm with hurl | hpath
  · exact h hurl
  · exact absurd hpath (by decide)

theorem newline_not_mem_bulletLine {url : Text} {r : Reference} (hurl : '\n' ∉ url)
    (htitle : '\n' ∉ r.title) (hnumber : '\n' ∉ r.number) : '\n' ∉ bulletLine url r := by
  have hbase := newline_not_mem_base hurl
  have hlead : '\n' ∉ Bullet.lead r.title := by
    unfold Bullet.lead
    split <;> simp [htitle]
  rw [bulletLine, Bullet.render_ofReference]
  simp [hlead, hnumber, hbase]

theorem newline_not_mem_logLines {tag url : Text} {subjects : List Text}
    (h : Unbroken tag url subjects) :
    ∀ line ∈ logLines tag url (references subjects), '\n' ∉ line := by
  intro line hline
  simp only [logLines, List.mem_cons, List.mem_map] at hline
  rcases hline with rfl | rfl | rfl | ⟨r, hr, rfl⟩
  · have hword : '\n' ∉ "[+] Latest release tag: ".toList := by decide
    unfold tagLine
    rw [List.mem_append, not_or]
    exact ⟨hword, h.tag⟩
  · decide
  · exact List.not_mem_nil
  · obtain ⟨subject, hsubject, hr⟩ := List.mem_filterMap.mp hr
    have htitle : '\n' ∉ r.title := fun hm =>
      h.subjects subject hsubject (Reference.mem_of_mem_title hr hm)
    have hnumber : '\n' ∉ r.number := fun hm =>
      absurd (Reference.digits_of_ofSubject? hr '\n' hm) (by decide)
    exact newline_not_mem_bulletLine h.url htitle hnumber

theorem pieces_flatMap_line {ls : List Text} (h : ∀ l ∈ ls, '\n' ∉ l) :
    pieces '\n' (ls.flatMap Text.line) = ls ++ [[]] := by
  induction ls with
  | nil => rfl
  | cons l ls ih =>
    have hl := h l List.mem_cons_self
    have hls : ∀ k ∈ ls, '\n' ∉ k := fun k hk => h k (List.mem_cons_of_mem l hk)
    rw [List.flatMap_cons, Text.line, List.append_assoc, List.singleton_append,
      pieces_append_cons hl, ih hls, List.cons_append]

/-- A log tells its tag and its references. -/
theorem logText_injective {tag tag' url : Text} {subjects subjects' : List Text}
    (h : Unbroken tag url subjects) (h' : Unbroken tag' url subjects')
    (htext : logText tag (Bullet.ofSubjects (Review.base url) subjects) =
      logText tag' (Bullet.ofSubjects (Review.base url) subjects')) :
    tag = tag' ∧ references subjects = references subjects' := by
  have hlines := congrArg (pieces '\n') htext
  rw [logText_eq_flatMap, logText_eq_flatMap, pieces_flatMap_line (newline_not_mem_logLines h),
    pieces_flatMap_line (newline_not_mem_logLines h')] at hlines
  obtain ⟨htag, hrest⟩ := List.cons_eq_cons.mp (List.append_cancel_right hlines)
  obtain ⟨_, hrest⟩ := List.cons_eq_cons.mp hrest
  obtain ⟨_, hbullets⟩ := List.cons_eq_cons.mp hrest
  have hbracket : ∀ {ss : List Text}, ∀ r ∈ references ss, ']' ∉ r.number := by
    intro ss r hr hm
    obtain ⟨subject, _, hr⟩ := List.mem_filterMap.mp hr
    exact absurd (Reference.digits_of_ofSubject? hr ']' hm) (by decide)
  exact ⟨List.append_cancel_left htag, Bullet.map_render_injective hbracket hbracket hbullets⟩

/-- Lines that stand in some bytes, each with its end: three, and then one for each reference. -/
structure Framed (url : Text) (rs : List Reference) (bytes : List UInt8) (lines : List Text) :
    Prop where
  bytes : bytes = Text.utf8 (lines.flatMap Text.line)
  unbroken : ∀ line ∈ lines, '\n' ∉ line
  length : lines.length = 3 + rs.length
  bullet : ∀ i r, rs[i]? = some r → lines[3 + i]? = some (bulletLine url r)

theorem framed_logText {tag url : Text} {subjects : List Text} (h : Unbroken tag url subjects) :
    Framed url (references subjects)
      (logText tag (Bullet.ofSubjects (Review.base url) subjects)).utf8
      (logLines tag url (references subjects)) where
  bytes := congrArg Text.utf8 (logText_eq_flatMap tag url subjects)
  unbroken := newline_not_mem_logLines h
  length := by
    simp only [logLines, List.length_cons, List.length_map]
    omega
  bullet := by
    intro i r hr
    have hdrop : (logLines tag url (references subjects))[3 + i]? =
        ((references subjects).map (bulletLine url))[i]? := by
      rw [Nat.add_comm]
      rfl
    rw [hdrop, List.getElem?_map, hr, Option.map_some]

/-- Runs that get all their answers succeed, and two of them under one URL that write the same were
told the same tag and list the same references. -/
theorem publish_uniquely_decodable {σ τ : Type} (r : Repository σ) (r' : Repository τ)
    (settings settings' : Settings) (q : σ) (q' : τ) {d d' : Device} (hd : d.capacity = none)
    (hd' : d'.capacity = none) {tag tag' url : Text} {subjects subjects' : List Text}
    (ha : (r.survey settings q).Answers tag url subjects)
    (ha' : (r'.survey settings' q').Answers tag' url subjects')
    (h : Unbroken tag url subjects) (h' : Unbroken tag' url subjects') :
    let final := Run.after (publish r settings) (.start q d)
    let final' := Run.after (publish r' settings') (.start q' d')
    (Run.result (publish r settings) (.start q d) = .ok () ∧
        Run.result (publish r' settings') (.start q' d') = .ok ()) ∧
      (∃ lines, Framed url (references subjects) final.sink.bytes lines) ∧
      (final.sink.bytes = final'.sink.bytes →
        tag = tag' ∧ references subjects = references subjects') ∧
      (∀ output value, Git.value? output = some value → '\n' ∉ value) ∧
      ∀ output, ∀ subject ∈ Git.subjects output, '\n' ∉ subject := by
  intro final final'
  have hbytes : final.sink.bytes =
      (logText tag (Bullet.ofSubjects (Review.base url) subjects)).utf8 :=
    (bytes_publish r settings rfl).trans (ha.portion_text hd)
  have hbytes' : final'.sink.bytes =
      (logText tag' (Bullet.ofSubjects (Review.base url) subjects')).utf8 :=
    (bytes_publish r' settings' rfl).trans (ha'.portion_text hd')
  refine ⟨⟨?_, ?_⟩, ?_, ?_, ?_, ?_⟩
  · exact (result_publish r settings rfl).trans (ha.outcome_eq_ok hd settings)
  · exact (result_publish r' settings' rfl).trans (ha'.outcome_eq_ok hd' settings')
  · rw [hbytes]
    exact ⟨_, framed_logText h⟩
  · intro heq
    rw [hbytes, hbytes'] at heq
    exact logText_injective h h' (Text.utf8_injective heq)
  · exact fun _ _ => Git.newline_not_mem_value
  · exact fun _ _ => Git.newline_not_mem_of_mem_subjects

/-- Two runs whose subjects differ in a blank that no title keeps. -/
theorem publish_uniquely_decodable_blanks :
    let r := Repository.known (.ok "v1".toList) (.ok "u.git".toList) (.ok ["Fix (#1)".toList])
    let r' := Repository.known (.ok "v1".toList) (.ok "u.git".toList) (.ok ["Fix  (#1)".toList])
    let start := Session.start PUnit.unit Sink.unlimited.device
    let final := Run.after (publish r {}) start
    let final' := Run.after (publish r' {}) start
    (Run.result (publish r {}) start = .ok () ∧ Run.result (publish r' {}) start = .ok ()) ∧
      (∃ lines, Framed "u.git".toList (references ["Fix (#1)".toList]) final.sink.bytes lines) ∧
      (final.sink.bytes = final'.sink.bytes → "v1".toList = "v1".toList ∧
        references ["Fix (#1)".toList] = references ["Fix  (#1)".toList]) ∧
      (∀ output value, Git.value? output = some value → '\n' ∉ value) ∧
      ∀ output, ∀ subject ∈ Git.subjects output, '\n' ∉ subject :=
  publish_uniquely_decodable _ _ {} {} PUnit.unit PUnit.unit rfl rfl
    ⟨rfl, rfl, rfl⟩ ⟨rfl, rfl, rfl⟩
    ⟨by decide, by decide, by decide⟩ ⟨by decide, by decide, by decide⟩

end Publication

end ReleaseLog
