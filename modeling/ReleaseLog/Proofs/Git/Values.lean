import ReleaseLog.Proofs.Git.Edits
import ReleaseLog.Proofs.Git.Located
import ReleaseLog.Proofs.Text.Trimming

/-!
# The value in an output

A value stands on a line of its own. Before it there are only blanks, among them the ends of blank
lines, and behind it only blanks up to the end of its line. An output that is not blank shows one
value in this way and no other, whatever blanks besides line feeds stand in it
(`value?_eq_some_iff_layout`). So a question that a value answers goes without an answer exactly if
git ended well and printed nothing but blanks (`Client.readsValue`).
-/

namespace ReleaseLog

namespace Text

theorem trim_dropReturn (l : Text) : trim (dropReturn '\r' l) = trim l := by
  by_cases h : l.getLast? = some '\r'
  · obtain ⟨k, rfl⟩ := List.getLast?_eq_some_iff.mp h
    rw [dropReturn_append_singleton, if_pos rfl, trim_append_blank k (by decide)]
  · rw [dropReturn, if_neg h]

end Text

namespace Git

/-- An output as blanks, a value, a gap up to the end of its line, and the rest. -/
structure ValueLayout (output value lead gap rest : Text) : Prop where
  output_eq : output = lead ++ value ++ gap ++ rest
  lead_blank : lead.allBlank = true
  value_ne_nil : value ≠ []
  value_feed_free : '\n' ∉ value
  value_trimmed : value.Trimmed
  gap_blank : gap.allBlank = true
  gap_feed_free : '\n' ∉ gap
  rest_begins : ∀ c ∈ rest.head?, c = '\n'

namespace ValueLayout

variable {output value lead gap rest : Text}

theorem prepend (h : ValueLayout output value lead gap rest) {blanks : Text}
    (hb : blanks.allBlank = true) :
    ValueLayout (blanks ++ output) value (blanks ++ lead) gap rest where
  output_eq := by simp [h.output_eq]
  lead_blank := by rw [Text.allBlank_append, hb, h.lead_blank, Bool.and_self]
  value_ne_nil := h.value_ne_nil
  value_feed_free := h.value_feed_free
  value_trimmed := h.value_trimmed
  gap_blank := h.gap_blank
  gap_feed_free := h.gap_feed_free
  rest_begins := h.rest_begins

theorem not_allBlank (h : ValueLayout output value lead gap rest) : output.allBlank = false := by
  have hvalue := h.value_trimmed.not_allBlank h.value_ne_nil
  simp [h.output_eq, Text.allBlank_append, hvalue]

/-- The value is what is left of the line that the output begins with once its blanks are gone. -/
theorem value_eq (h : ValueLayout output value lead gap rest) :
    value = Text.trimEnd ((Text.trimStart output).takeWhile (· ≠ '\n')) := by
  have hhead : ∀ c ∈ (value ++ (gap ++ rest)).head?, Text.isBlank c = false := by
    rw [List.head?_append_of_ne_nil value h.value_ne_nil]
    exact h.value_trimmed.head
  have hstart : Text.trimStart output = (value ++ gap) ++ rest := by
    rw [h.output_eq, List.append_assoc, List.append_assoc, Text.trimStart_append h.lead_blank,
      Text.trimStart_eq_self hhead, List.append_assoc]
  have hline : ∀ c ∈ value ++ gap, decide (c ≠ '\n') = true := by
    intro c hc
    apply decide_eq_true
    rintro rfl
    rcases List.mem_append.mp hc with hc | hc
    · exact h.value_feed_free hc
    · exact h.gap_feed_free hc
  have hrest : rest.takeWhile (· ≠ '\n') = [] := by
    apply List.takeWhile_eq_nil_iff.mpr
    intro hlen
    have hfeed := h.rest_begins (rest[0]) (by simp [List.head?_eq_getElem?, hlen])
    simp [hfeed]
  rw [hstart, List.takeWhile_append_of_pos hline, hrest, List.append_nil,
    Text.trimEnd_append value h.gap_blank, Text.trimEnd_eq_self h.value_trimmed.last]

theorem unique {value' lead' gap' rest' : Text} (h : ValueLayout output value lead gap rest)
    (h' : ValueLayout output value' lead' gap' rest') : value = value' :=
  h.value_eq.trans h'.value_eq.symm

end ValueLayout

theorem exists_layout_of_line {l : Text} (hl : '\n' ∉ l) (hblank : l.allBlank = false)
    (rest : Text) (hrest : ∀ c ∈ rest.head?, c = '\n') :
    ∃ lead gap, ValueLayout (l ++ rest) l.trim lead gap rest := by
  obtain ⟨lead, gap, hsplit, hlead, hgap, htrimmed⟩ := Text.trim_eq_iff.mp (Eq.refl l.trim)
  have hgapfree : '\n' ∉ gap := by
    intro hm
    rw [hsplit] at hl
    exact hl (List.mem_append_right _ hm)
  refine ⟨lead, gap, ?_, hlead, Text.trim_ne_nil hblank, mt Text.mem_of_mem_trim hl, htrimmed, hgap,
    hgapfree, hrest⟩
  rw [← hsplit]

theorem value?_append_feed {l : Text} (hl : '\n' ∉ l) (r : Text) :
    value? (l ++ '\n' :: r) = if l.allBlank then value? r else some l.trim := by
  rw [value?, Text.lines_append_feed hl, List.map_cons, Text.trim_dropReturn, List.find?_cons]
  cases hblank : l.allBlank with
  | true => simp [Text.trim_of_allBlank hblank, value?]
  | false =>
    have hshown : List.isEmpty l.trim = false :=
      List.isEmpty_eq_false_iff.mpr (Text.trim_ne_nil hblank)
    simp [hshown]

theorem value?_of_feed_free {l : Text} (hl : '\n' ∉ l) (hblank : l.allBlank = false) :
    value? l = some l.trim := by
  have htrim : l.trim ≠ [] := Text.trim_ne_nil hblank
  have hne : l ≠ [] := by
    rintro rfl
    exact htrim rfl
  simp [value?, Text.lines_of_not_mem hl hne, htrim]

/-- What is read from an output that is not blank stands in it in this way. The induction is on the
lines: blank ones belong to the lead, and the first that is not blank holds the value. -/
theorem exists_layout_of_not_allBlank {output : Text} (h : output.allBlank = false) :
    ∃ value lead gap rest,
      value? output = some value ∧ ValueLayout output value lead gap rest := by
  induction output using cut_induction '\n' with
  | last l hl =>
    obtain ⟨lead, gap, hlayout⟩ := exists_layout_of_line hl h [] (by simp)
    rw [List.append_nil] at hlayout
    exact ⟨_, lead, gap, [], value?_of_feed_free hl h, hlayout⟩
  | cut l r hl ih =>
    rw [value?_append_feed hl]
    cases hblank : Text.allBlank l with
    | true =>
      have hline : Text.allBlank (l ++ ['\n']) = true :=
        Text.allBlank_concat_iff.mpr ⟨hblank, by decide⟩
      have hr : Text.allBlank r = false := by
        rw [List.append_cons, Text.allBlank_append, hline] at h
        exact h
      obtain ⟨value, lead, gap, rest, hvalue, hlayout⟩ := ih hr
      refine ⟨value, l ++ ['\n'] ++ lead, gap, rest, hvalue, ?_⟩
      rw [List.append_cons]
      exact hlayout.prepend hline
    | false =>
      obtain ⟨lead, gap, hlayout⟩ := exists_layout_of_line hl hblank ('\n' :: r) (by simp)
      exact ⟨_, lead, gap, '\n' :: r, rfl, hlayout⟩

theorem value?_eq_some_iff_layout {output value : Text} :
    value? output = some value ↔ ∃ lead gap rest, ValueLayout output value lead gap rest := by
  constructor
  · intro h
    have hblank : output.allBlank = false := by
      apply Bool.eq_false_iff.mpr
      intro hb
      rw [value?_eq_none_iff.mpr hb] at h
      cases h
    obtain ⟨value', lead, gap, rest, hvalue, hlayout⟩ := exists_layout_of_not_allBlank hblank
    obtain rfl : value = value' := Option.some.inj (h.symm.trans hvalue)
    exact ⟨lead, gap, rest, hlayout⟩
  · rintro ⟨lead, gap, rest, h⟩
    obtain ⟨value', lead', gap', rest', hvalue, hlayout⟩ :=
      exists_layout_of_not_allBlank h.not_allBlank
    rw [hvalue, h.unique hlayout]

namespace Client

/-- A git that was started with these arguments has printed this and ended well. -/
structure Printed (c : Client) (arguments : List Text) (e : Exchange) (output : Text) : Prop where
  started : c.start arguments = .ok ()
  ending : (e.replies.headD {}).ending = .exited 0
  output_eq : Text.ofUtf8 (e.replies.headD {}).output = output

variable {c : Client} {arguments : List Text} {e : Exchange}

theorem run_eq_ok_iff_printed {output : Text} :
    (c.run arguments e).result = .ok output ↔ c.Printed arguments e output := by
  unfold run
  cases hstart : c.start arguments with
  | error cause =>
    refine iff_of_false (by simp) fun h => ?_
    have hok := h.started
    rw [hstart] at hok
    cases hok
  | ok u =>
    apply Reply.read_eq_ok_iff.trans
    exact ⟨fun h => ⟨hstart, h.1, h.2⟩, fun h => ⟨h.ending, h.output_eq⟩⟩

theorem result_run_ne_noOutput (k : Text) : (c.run arguments e).result ≠ .error (.noOutput k) := by
  unfold run start Reply.read
  grind

theorem readValue_eq_ok_iff {command output value : Text} :
    readValue command output = .ok value ↔ value? output = some value := by
  unfold readValue
  cases value? output <;> simp

theorem readValue_eq_error_iff {command output : Text} {cause : QueryFailure} :
    readValue command output = .error cause ↔
      .noOutput command = cause ∧ output.allBlank = true := by
  rw [← value?_eq_none_iff]
  unfold readValue
  cases value? output <;> simp

/-- A question that the value in an output answers, and that blanks leave without an answer. -/
structure ReadsValue (c : Client) (arguments : List Text) (command : Text)
    (question : Exchange → Answer Exchange Text) : Prop where
  value_iff : ∀ e value, (question e).result = .ok value ↔
    ∃ output lead gap rest, c.Printed arguments e output ∧
      ValueLayout output value lead gap rest
  noOutput_iff : ∀ e k, (question e).result = .error (.noOutput k) ↔
    k = command ∧ ∃ output, c.Printed arguments e output ∧ output.allBlank = true

theorem readsValue (c : Client) (arguments : List Text) (command : Text) :
    c.ReadsValue arguments command fun e => (c.run arguments e).read (readValue command) where
  value_iff e value := by
    rw [Answer.result_read_eq_iff]
    simp [run_eq_ok_iff_printed, readValue_eq_ok_iff, value?_eq_some_iff_layout]
  noOutput_iff e k := by
    rw [Answer.result_read_eq_iff]
    constructor
    · rintro (⟨output, hrun, hread⟩ | ⟨cause, hrun, hcause⟩)
      · obtain ⟨hk, hblank⟩ := readValue_eq_error_iff.mp hread
        exact ⟨(QueryFailure.noOutput.inj hk).symm, output, run_eq_ok_iff_printed.mp hrun, hblank⟩
      · obtain rfl := Except.error.inj hcause
        exact absurd hrun (result_run_ne_noOutput k)
    · rintro ⟨rfl, output, hprinted, hblank⟩
      have hread : readValue k output = .error (.noOutput k) :=
        readValue_eq_error_iff.mpr ⟨rfl, hblank⟩
      exact .inl ⟨output, run_eq_ok_iff_printed.mpr hprinted, hread⟩

end Client

/-- An output shows at most one value, and it shows one unless it is blank. The two questions that a
value answers read it alike, and they find none in an output exactly if it is blank. -/
theorem value_iff_layout :
    (∀ output value,
      value? output = some value ↔ ∃ lead gap rest, ValueLayout output value lead gap rest) ∧
      (∀ output value value' lead gap rest lead' gap' rest',
        ValueLayout output value lead gap rest → ValueLayout output value' lead' gap' rest' →
          value = value') ∧
      (∀ output : Text, value? output = none ↔ output.allBlank = true) ∧
      ∀ c : Client,
        c.ReadsValue (describeArguments c.settings) "describe".toList c.latestTag ∧
          c.ReadsValue (remoteUrlArguments c.settings) "remote get-url".toList c.remoteUrl := by
  refine ⟨fun output value => value?_eq_some_iff_layout, ?_, fun output => value?_eq_none_iff, ?_⟩
  · intro output value value' lead gap rest lead' gap' rest' h h'
    exact h.unique h'
  · intro c
    exact ⟨c.readsValue _ _, c.readsValue _ _⟩

/-- A return that no line feed follows is a part of the value; other breaks around it are blanks. -/
theorem value_iff_layout_lone_return :
    let output := "\r\n\u2028v1\rrc\u0085\r\n v2\n".toList
    ValueLayout output "v1\rrc".toList "\r\n\u2028".toList "\u0085\r".toList "\n v2\n".toList ∧
      value? output = some "v1\rrc".toList ∧
      ∀ lead gap rest, ¬ ValueLayout output "v1".toList lead gap rest := by
  intro output
  obtain ⟨hvalue, hunique, _⟩ := value_iff_layout
  have htrimmed : Text.Trimmed "v1\rrc".toList := by
    constructor
    · intro c hc
      obtain rfl : 'v' = c := Option.some.inj hc
      decide
    · intro c hc
      obtain rfl : 'c' = c := Option.some.inj hc
      decide
  have hlayout : ValueLayout output "v1\rrc".toList "\r\n\u2028".toList "\u0085\r".toList
      "\n v2\n".toList :=
    ⟨by decide, by decide, by decide, by decide, htrimmed, by decide, by decide,
      fun c hc => (Option.some.inj hc).symm⟩
  refine ⟨hlayout, (hvalue _ _).mpr ⟨_, _, _, hlayout⟩, fun lead gap rest h => ?_⟩
  have hsame := hunique _ _ _ _ _ _ _ _ _ h hlayout
  exact absurd hsame (by decide)

end Git

end ReleaseLog
