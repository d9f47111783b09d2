import ReleaseLog.Proofs.Publication.Warnings
import ReleaseLog.Proofs.Text.Pieces

/-!
# Bases derived again

A URL falls into pieces at its suffixes. Deriving a base takes the first of them away and makes
none, since the path that comes in its place shares no letter with it. So bases derived one from the
other use the suffixes up in their order (`bases_use_up_suffixes`).
-/

namespace ReleaseLog.Review

open Publication

theorem path_ne_nil : path ≠ [] := by decide

theorem not_mem_suffix_of_mem_path : ∀ c ∈ path, c ∉ suffix := by
  have h : (path.all fun c => !suffix.contains c) = true := by decide
  intro c hc
  simpa using List.all_eq_true.mp h c hc

theorem dot_not_mem : '.' ∉ "git".toList := by decide

/-- A URL as pieces without the suffix that are joined by it. -/
structure Pieces (url : Text) (ps : List Text) : Prop where
  ne_nil : ps ≠ []
  joined : suffix.intercalate ps = url
  free : ∀ s ∈ ps, hasSuffix s = false

theorem pieces_iff {url : Text} {ps : List Text} :
    Pieces url ps ↔ Occurrence.Pieces suffix url ps := by
  have hfree : ∀ s : Text, hasSuffix s = false ↔ ¬ suffix <:+: s := by
    intro s
    rw [← hasSuffix_iff, Bool.not_eq_true]
  constructor
  · intro h
    exact h.joined ▸ .of_intercalate h.ne_nil fun s hs => (hfree s).mp (h.free s hs)
  · intro h
    exact ⟨h.ne_nil, h.joined, fun s hs => (hfree s).mpr (h.not_infix_of_mem s hs)⟩

theorem existsUnique_pieces (url : Text) : ∃! ps, Pieces url ps := by
  simp only [pieces_iff]
  exact Occurrence.existsUnique_pieces dot_not_mem url

theorem Pieces.length_eq {url : Text} {ps : List Text} (h : Pieces url ps) :
    ps.length = Occurrence.count suffix url + 1 :=
  Occurrence.Pieces.length_eq dot_not_mem (pieces_iff.mp h)

/-- Bases derived one from the other join a beginning of the pieces by the path. -/
theorem Pieces.iterate_base {url : Text} {ps : List Text} (h : Pieces url ps) (n : Nat) :
    Pieces (base^[n] url) (path.intercalate (ps.take (n + 1)) :: ps.drop (n + 1)) :=
  pieces_iff.mpr <|
    Occurrence.Pieces.iterate_replaceFirst dot_not_mem path_ne_nil not_mem_suffix_of_mem_path
      (pieces_iff.mp h) n

theorem Pieces.iterate_base_eq {url : Text} {ps : List Text} (h : Pieces url ps) (n : Nat) :
    base^[n] url =
      suffix.intercalate (path.intercalate (ps.take (min n (ps.length - 1) + 1)) ::
        ps.drop (min n (ps.length - 1) + 1)) := by
  rw [← (h.iterate_base n).joined]
  rcases Nat.le_total n (ps.length - 1) with hle | hle
  · rw [Nat.min_eq_left hle]
  · -- No suffix is left, and all pieces have been joined.
    have hall : ps.length ≤ n + 1 := by omega
    have hall' : ps.length ≤ ps.length - 1 + 1 := by omega
    rw [Nat.min_eq_right hle, List.take_of_length_le hall, List.take_of_length_le hall',
      List.drop_of_length_le hall, List.drop_of_length_le hall']

theorem count_iterate_base (url : Text) (n : Nat) :
    Occurrence.count suffix (base^[n] url) = Occurrence.count suffix url - n :=
  Occurrence.count_iterate_replaceFirst dot_not_mem path_ne_nil not_mem_suffix_of_mem_path n

theorem hasSuffix_iterate_base (url : Text) (n : Nat) :
    hasSuffix (base^[n] url) = decide (n < Occurrence.count suffix url) := by
  rw [Bool.eq_iff_iff, hasSuffix, Occurrence.contains_iff_count_pos, count_iterate_base,
    decide_eq_true_iff]
  omega

theorem hasSuffix_iff_base_ne (url : Text) : hasSuffix url = true ↔ base url ≠ url := by
  constructor
  · intro h hbase
    have hpos := Occurrence.contains_iff_count_pos.mp h
    have hcount := count_iterate_base url 1
    rw [Function.iterate_one, hbase] at hcount
    omega
  · intro h
    cases hs : hasSuffix url with
    | true => rfl
    | false => exact absurd (base_of_not_hasSuffix hs) h

theorem bases_eq_map (n : Nat) (url : Text) :
    bases n url = (List.range n).map fun i => (hasSuffix (base^[i] url), base^[i + 1] url) := by
  induction n generalizing url with
  | zero => rfl
  | succ n ih =>
    rw [bases, ih, List.range_succ_eq_map, List.map_cons, List.map_map]
    rfl

/-- Of the bases derived from a URL one from the other, the `n`-th has its first `n` suffixes, or
all of them if there are fewer, replaced, and all else as it was. A base is derived from a URL that
has the suffix as long as one is left; then nothing changes any more. A run warns of the URLs that
are their own base. -/
theorem bases_use_up_suffixes (url : Text) :
    let c := Occurrence.count suffix url
    (∃! ps, Pieces url ps) ∧
      (∀ ps, Pieces url ps →
        ps.length = c + 1 ∧ ∀ n, base^[n] url =
          suffix.intercalate
            (path.intercalate (ps.take (min n c + 1)) :: ps.drop (min n c + 1))) ∧
      (∀ n, bases n url = (List.range n).map fun i => (decide (i < c), base^[i + 1] url)) ∧
      (∀ n, Occurrence.count suffix (base^[n] url) = c - n) ∧
      base (base^[c] url) = base^[c] url ∧
      (hasSuffix url = true ↔ base url ≠ url) ∧
      ∀ {σ : Type} (r : Repository σ), r.Quiet → ∀ (settings : Settings) (q : σ) (d : Device) (tag),
        (r.survey settings q).tag = .ok tag → d.HasRoomFor (tagText tag).utf8 →
          (r.survey settings q).url = .ok url →
            warningsAmong (Run.after (publish r settings) (.start q d)).records =
              if base url = url then [.noSuffix url] else [] := by
  intro c
  refine ⟨existsUnique_pieces url, ?_, ?_, count_iterate_base url, ?_, hasSuffix_iff_base_ne url,
    ?_⟩
  · intro ps h
    have hlength := h.length_eq
    have hc : ps.length - 1 = c := by omega
    exact ⟨hlength, fun n => hc ▸ h.iterate_base_eq n⟩
  · intro n
    rw [bases_eq_map]
    simp only [hasSuffix_iterate_base, c]
  · apply base_of_not_hasSuffix
    rw [hasSuffix_iterate_base]
    simp [c]
  · intro σ r hr settings q d tag ht hroom hu
    rw [warnings_publish hr settings q ht hroom hu]
    by_cases hs : hasSuffix url = true
    · rw [if_pos hs, if_neg ((hasSuffix_iff_base_ne url).mp hs)]
    · rw [if_neg hs, if_pos (Classical.not_not.mp (mt (hasSuffix_iff_base_ne url).mpr hs))]

theorem bases_use_up_two_suffixes :
    let url := "..git.git".toList
    let r := Repository.known (.ok "v1".toList) (.ok url) (.ok [])
    base^[5] url = "./pull//pull/".toList ∧
      bases 3 url =
        [(true, "./pull/.git".toList), (true, "./pull//pull/".toList),
          (false, "./pull//pull/".toList)] ∧
      warningsAmong (Run.after (publish r {}) (.start ⟨⟩ Sink.unlimited.device)).records = [] := by
  intro url r
  obtain ⟨_, hpieces, hbases, _, _, _, hwarnings⟩ := bases_use_up_suffixes url
  have hurl : Pieces url [".".toList, [], []] := ⟨by decide, rfl, by decide⟩
  have hcount : Occurrence.count suffix url = 2 :=
    (Nat.succ.inj (hpieces _ hurl).1).symm
  have hquiet : r.Quiet := ⟨fun _ => rfl, fun _ => rfl, fun _ _ _ => rfl⟩
  have hroom : Sink.unlimited.device.HasRoomFor (tagText "v1".toList).utf8 :=
    Device.hasRoomFor_of_unlimited rfl _
  refine ⟨?_, ?_, ?_⟩
  · rw [(hpieces _ hurl).2, hcount]
    rfl
  · rw [hbases, hcount]
    decide
  · rw [hwarnings r hquiet {} ⟨⟩ _ _ rfl hroom rfl]
    decide

end ReleaseLog.Review
