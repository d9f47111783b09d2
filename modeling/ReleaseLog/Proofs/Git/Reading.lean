import ReleaseLog.Proofs.Git.Located
import ReleaseLog.Proofs.Text.Ascii
import ReleaseLog.Proofs.Text.Trimming

/-!
# Reading a reply

Git has printed a value only if it exited with status zero. After any other ending its complaint
tells whether it was asked outside a repository, and the bytes of the complaint tell the same as its
text: neither decoding nor trimming makes or breaks an occurrence of what is looked for
(`contains_notARepository_iff`).
-/

namespace ReleaseLog.Git

theorem ascii_notARepository : ∀ c ∈ notARepository, c.toNat ≤ 0x7F :=
  List.forall_iff_forall_mem.mp (by decide)

theorem trimmed_notARepository : notARepository.Trimmed where
  head c hc := by
    obtain rfl : 'n' = c := Option.some.inj hc
    decide
  last c hc := by
    obtain rfl : 'y' = c := Option.some.inj hc
    decide

theorem contains_notARepository_iff (bs : List UInt8) :
    Occurrence.contains notARepository (Text.ofUtf8 bs).trim = true ↔
      notARepository.utf8 <:+: bs := by
  rw [Occurrence.contains_iff, Text.infix_trim_iff trimmed_notARepository,
    Text.infix_ofUtf8_iff ascii_notARepository]

namespace Reply

variable {r : Reply}

theorem read_of_outside (he : r.ending ≠ .exited 0) (h : notARepository.utf8 <:+: r.complaint) :
    r.read = .error .notARepository := by
  have hcontains := (contains_notARepository_iff r.complaint).mpr h
  rw [read, if_neg he]
  exact if_pos hcontains

theorem read_of_failed (he : r.ending ≠ .exited 0) (h : ¬ notARepository.utf8 <:+: r.complaint) :
    r.read = .error (.commandFailed (Text.ofUtf8 r.complaint).trim r.ending.code) := by
  have hcontains := mt (contains_notARepository_iff r.complaint).mp h
  rw [read, if_neg he]
  exact if_neg hcontains

theorem read_eq_notARepository_iff (he : r.ending ≠ .exited 0) :
    r.read = .error .notARepository ↔ notARepository.utf8 <:+: r.complaint := by
  by_cases h : notARepository.utf8 <:+: r.complaint
  · exact iff_of_true (read_of_outside he h) h
  · exact iff_of_false (by simp [read_of_failed he h]) h

end Reply

namespace Client

theorem result_run_of_start {c : Client} {arguments : List Text} (h : c.start arguments = .ok ())
    (e : Exchange) : (c.run arguments e).result = (e.replies.headD {}).read := by
  simp only [run, h]

/-- A git that was started is read by its ending: its output counts after status zero, whatever it
complained of, and after any other ending the bytes of its complaint are looked through for what it
says outside a repository. -/
theorem run_reads_reply {c : Client} {arguments : List Text} (h : c.start arguments = .ok ())
    (e : Exchange) :
    let r := e.replies.headD {}
    let result := (c.run arguments e).result
    let outside := notARepository.utf8 <:+: r.complaint
    let complaint := (Text.ofUtf8 r.complaint).trim
    (∀ output, result = .ok output ↔ r.ending = .exited 0 ∧ Text.ofUtf8 r.output = output) ∧
      (r.ending ≠ .exited 0 → (result = .error .notARepository ↔ outside)) ∧
      (∀ status, r.ending = .exited status → status ≠ 0 → ¬ outside →
        result = .error (.commandFailed complaint status.toNat)) ∧
      (∀ signal, r.ending = .killed signal → ¬ outside →
        result = .error (.commandFailed complaint (-1))) ∧
      ∀ bs, Occurrence.contains notARepository (Text.ofUtf8 bs).trim = true ↔
        notARepository.utf8 <:+: bs := by
  intro r result outside complaint
  have hresult : result = r.read := result_run_of_start h e
  rw [hresult]
  refine ⟨fun output => Reply.read_eq_ok_iff, Reply.read_eq_notARepository_iff, ?_, ?_,
    contains_notARepository_iff⟩
  · intro status hstatus hne hinside
    have hfailed : r.ending ≠ .exited 0 := by simpa [hstatus] using hne
    rw [Reply.read_of_failed hfailed hinside, hstatus]
    rfl
  · intro signal hsignal hinside
    have hfailed : r.ending ≠ .exited 0 := by simp [hsignal]
    rw [Reply.read_of_failed hfailed hinside, hsignal]
    rfl

/-- A git that was killed, with characters cut short on either side of what it says outside a
repository. -/
theorem run_reads_cut_complaint :
    let files : FileTree := ⟨[([Host.git], .file true)]⟩
    let h : Host := { tree := files, home := [], workingDirectory := "/".toList }
    let c : Client := ⟨"/git".toList, none, {}, h⟩
    let complaint := [0xE2, 0x82] ++ notARepository.utf8 ++ [0xF0, 0x9F]
    let e : Exchange := ⟨[{ complaint, ending := .killed 15 }], []⟩
    c.start [] = .ok () ∧ (c.run [] e).result = .error .notARepository := by
  intro files h c complaint e
  have hstart : c.start [] = .ok () := by decide
  have houtside : notARepository.utf8 <:+: complaint := List.infix_append ..
  obtain ⟨_, hiff, _⟩ := run_reads_reply hstart e
  exact ⟨hstart, (hiff (by decide)).mpr houtside⟩

end Client

end ReleaseLog.Git
