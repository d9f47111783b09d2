import ReleaseLog.Git.Client

/-!
# A located git

A start of git goes well exactly if its program is there, no NUL cuts anything short, and the
system takes the arguments (`start_eq_ok_iff`). Whatever is started is a program, also where a bare
name is looked for along the search path (`isProgram_of_programFor`). What the search path leads to
is there: it is a program, and its path holds a slash. So once git has been found, only its
arguments can keep it from being started (`start_of_findGit`).
-/

namespace ReleaseLog

namespace Path

theorem transferable_iff {t : Text} : transferable t = true ↔ '\x00' ∉ t := by
  simp [transferable]

theorem slash_mem_join (directory name : Text) : '/' ∈ join directory name := by
  unfold join
  split
  · next h =>
    have hlast := List.mem_of_getLast? h
    exact List.mem_append_left _ hlast
  · simp

end Path

namespace Host

theorem programAt_eq_ok_iff {h : Host} {path program : Text} :
    h.programAt path = .ok program ↔ path = program ∧ h.isProgram path = true := by
  rw [isProgram_iff, programAt]
  split
  · next hn => simp [hn]
  · next hother hn =>
    simp only [hn, reduceCtorEq, false_iff, Except.ok.injEq, not_and]
    exact fun _ => hother
  · next hn => simp [hn]

/-- What a search comes to is one of the paths that are tried. -/
theorem mem_of_firstProgram {h : Host} {met : Obstacle} {paths : List Text} {program : Text}
    (hf : h.firstProgram met paths = .ok program) :
    program ∈ paths ∧ h.isProgram program = true := by
  induction paths generalizing met with
  | nil => cases hf
  | cons path rest ih =>
    rw [firstProgram] at hf
    cases hp : h.programAt path with
    | ok found =>
      obtain ⟨rfl, hprogram⟩ := programAt_eq_ok_iff.mp hp
      rw [hp] at hf
      obtain rfl := Except.ok.inj hf
      exact ⟨List.mem_cons_self, hprogram⟩
    | error obstacle =>
      simp only [hp] at hf
      split at hf
      · obtain ⟨hmem, hprogram⟩ := ih hf
        exact ⟨List.mem_cons_of_mem path hmem, hprogram⟩
      · cases hf

/-- Whatever is started is a program, also where a bare name has been looked for. -/
theorem isProgram_of_programFor {h : Host} {name program : Text}
    (hp : h.programFor name = .ok program) : h.isProgram program = true := by
  unfold programFor at hp
  split at hp
  · obtain ⟨rfl, hprogram⟩ := programAt_eq_ok_iff.mp hp
    exact hprogram
  · split at hp
    · cases hp
    · split at hp
      · exact (mem_of_firstProgram hp).2
      · cases hp

theorem programFor_of_slash_mem (h : Host) {name : Text} (hs : '/' ∈ name) :
    h.programFor name = h.programAt name :=
  if_pos (List.contains_iff_mem.mpr hs)

theorem transferable_of_isProgram {h : Host} {path : Text} (hp : h.isProgram path = true) :
    Path.transferable path = true := by
  have hnode := isProgram_iff.mp hp
  cases ht : Path.transferable path with
  | true => rfl
  | false =>
    have hcut : h.tree.resolve (Path.names h.workingDirectory) path = .error .cutShort := by
      simp only [FileTree.resolve, ht, Bool.not_false, if_true]
    simp [node, FileTree.node, hcut] at hnode

theorem slash_mem_of_findGit {h : Host} {program : Text} (hg : h.findGit = some program) :
    '/' ∈ program := by
  obtain ⟨searchPath, _, hs⟩ := Option.bind_eq_some_iff.mp hg
  obtain ⟨entry, _, rfl⟩ := List.mem_map.mp (List.mem_of_find?_eq_some hs)
  exact Path.slash_mem_join _ _

theorem programFor_of_findGit {h : Host} {program : Text} (hg : h.findGit = some program) :
    h.programFor program = .ok program := by
  rw [programFor_of_slash_mem h (slash_mem_of_findGit hg)]
  exact programAt_eq_ok_iff.mpr ⟨rfl, isProgram_of_findGit hg⟩

theorem not_takes_of_long {h : Host} {path t : Text} {arguments : List Text}
    (hm : t ∈ arguments) (hlong : maxArgument < t.length) : h.takes path arguments = false := by
  apply Bool.eq_false_iff.mpr
  intro ht
  have hle := (takes_iff.mp ht).1 t hm
  have hlength := Text.length_le_length_utf8 t
  omega

theorem takes_append_of_size_le {h : Host} {path : Text} (shared : List Text) {as bs : List Text}
    (ht : h.takes path (shared ++ as) = true) (hlength : ∀ t ∈ bs, t.utf8.length ≤ maxArgument)
    (hsize : size bs ≤ size as) : h.takes path (shared ++ bs) = true := by
  obtain ⟨hshared, hroom⟩ := takes_iff.mp ht
  refine takes_iff.mpr ⟨fun t hm => ?_, ?_⟩
  · rcases List.mem_append.mp hm with hm | hm
    · exact hshared t (List.mem_append_left as hm)
    · exact hlength t hm
  · rw [size_append] at hroom ⊢
    omega

theorem start_of_programFor {h : Host} {program path : Text}
    (hp : h.programFor program = .ok path) (arguments : List Text) :
    h.start program arguments =
      if h.takes path (program :: arguments) then .ok () else .error .argumentsTooLong := by
  rw [start, hp]

end Host

namespace Git

theorem Reply.read_eq_ok_iff {r : Reply} {output : Text} :
    r.read = .ok output ↔ r.ending = .exited 0 ∧ Text.ofUtf8 r.output = output := by
  unfold read
  by_cases he : r.ending = .exited 0
  · simp [he]
  · simp only [he, if_false, false_and, iff_false]
    split <;> simp

theorem headD_drop (replies : List Reply) (n : Nat) :
    (replies.drop n).headD {} = replies.getD n {} := by
  rw [List.headD_eq_head?_getD, List.head?_drop, List.getD_eq_getElem?_getD]

namespace Client

variable {c : Client} {arguments : List Text}

theorem all_transferable_callArguments_iff :
    (c.callArguments arguments).all Path.transferable = true ↔
      (∀ t ∈ c.directory, '\x00' ∉ t) ∧ ∀ t ∈ arguments, '\x00' ∉ t := by
  unfold callArguments
  cases c.directory with
  | none => simp [Path.transferable_iff]
  | some directory => simp [Path.transferable_iff]

/-! ## What a start comes to -/

/-- The text that a start with these arguments comes to, which this reply answers. -/
def received (c : Client) (arguments : List Text) (reply : Reply) : Except QueryFailure Text :=
  (c.start arguments).bind fun _ => reply.read

def starts (c : Client) (arguments : List Text) : Bool := (c.start arguments).isOk

theorem starts_iff : c.starts arguments = true ↔ c.start arguments = .ok () := by
  unfold starts
  cases c.start arguments with
  | error cause => simp [Except.isOk, Except.toBool]
  | ok u => simp [Except.isOk, Except.toBool]

theorem received_of_starts (h : c.starts arguments = true) (reply : Reply) :
    c.received arguments reply = reply.read := by
  rw [received, starts_iff.mp h]
  rfl

theorem starts_of_received {reply : Reply} {output : Text}
    (h : c.received arguments reply = .ok output) : c.starts arguments = true := by
  unfold received at h
  cases hs : c.start arguments with
  | error cause =>
    rw [hs] at h
    cases h
  | ok u => exact starts_iff.mpr hs

def leaves (c : Client) (arguments : List Text) (e : Exchange) : Exchange :=
  if c.starts arguments then ⟨e.replies.tail, e.calls ++ [c.callArguments arguments]⟩ else e

theorem run_eq (c : Client) (arguments : List Text) (e : Exchange) :
    c.run arguments e =
      ⟨c.received arguments (e.replies.headD {}), c.leaves arguments e,
        [.runningGit arguments]⟩ := by
  unfold run received leaves starts
  cases c.start arguments <;> rfl

theorem read_run (c : Client) (arguments : List Text) (e : Exchange) {α : Type}
    (f : Text → Except QueryFailure α) :
    ((c.run arguments e).read f).result =
        (c.received arguments (e.replies.headD {})).bind f ∧
      ((c.run arguments e).read f).state = c.leaves arguments e := by
  rw [run_eq]
  exact ⟨rfl, rfl⟩

/-! ## When git starts -/

theorem start_of_cut (h : (c.callArguments arguments).all Path.transferable = false) :
    c.start arguments = .error (.fault .nulByte) := by
  simp [start, h]

/-- A git whose program is there starts unless its arguments are in the way. -/
theorem start_of_programFor {path : Text} (hcut : Path.transferable c.program = true)
    (hp : c.host.programFor c.program = .ok path) (arguments : List Text) :
    c.start arguments =
      if (c.callArguments arguments).all Path.transferable then
        if c.host.takes path (c.program :: c.callArguments arguments) then .ok ()
        else .error (.fault .argumentsTooLong)
      else .error (.fault .nulByte) := by
  cases ha : (c.callArguments arguments).all Path.transferable with
  | false => exact start_of_cut ha
  | true =>
    simp only [start, List.all_cons, hcut, ha, Host.start_of_programFor hp, Bool.and_self,
      Bool.not_true, Bool.false_eq_true, if_false, if_true]
    cases c.host.takes path (c.program :: c.callArguments arguments) <;> rfl

theorem start_eq_ok_iff :
    c.start arguments = .ok () ↔
      (∃ path, c.host.programFor c.program = .ok path ∧
        c.host.takes path (c.program :: c.callArguments arguments) = true) ∧
      Path.transferable c.program = true ∧
        (c.callArguments arguments).all Path.transferable = true := by
  constructor
  · intro h
    have hcut : (c.program :: c.callArguments arguments).all Path.transferable = true := by
      apply Classical.not_not.mp
      intro hcut
      simp [start, hcut] at h
    rw [List.all_cons, Bool.and_eq_true] at hcut
    cases hp : c.host.programFor c.program with
    | error obstacle =>
      have hstart : c.host.start c.program (c.callArguments arguments) = .error obstacle := by
        rw [Host.start, hp]
      cases obstacle <;> simp [start, hcut, hstart] at h
    | ok path =>
      rw [start_of_programFor hcut.1 hp, if_pos hcut.2] at h
      refine ⟨⟨path, rfl, ?_⟩, hcut⟩
      split at h
      · assumption
      · cases h
  · rintro ⟨⟨path, hp, htakes⟩, hprogram, harguments⟩
    rw [start_of_programFor hprogram hp, if_pos harguments, if_pos htakes]

theorem starts_iff_of_programFor {path : Text} (hp : c.host.programFor c.program = .ok path) :
    c.starts arguments = true ↔
      c.host.takes path (c.program :: c.callArguments arguments) = true ∧
        Path.transferable c.program = true ∧
          (c.callArguments arguments).all Path.transferable = true := by
  rw [starts_iff, start_eq_ok_iff]
  refine and_congr_left fun _ => ⟨?_, fun ht => ⟨path, hp, ht⟩⟩
  rintro ⟨path', hp', ht⟩
  obtain rfl : path = path' := Except.ok.inj (hp.symm.trans hp')
  exact ht

/-- A located git is started unless a NUL stands in its arguments or there are too many of them. -/
theorem start_of_findGit (hg : c.host.findGit = some c.program) (arguments : List Text) :
    c.start arguments =
      if (c.callArguments arguments).all Path.transferable then
        if c.host.takes c.program (c.program :: c.callArguments arguments) then .ok ()
        else .error (.fault .argumentsTooLong)
      else .error (.fault .nulByte) :=
  start_of_programFor (Host.transferable_of_isProgram (Host.isProgram_of_findGit hg))
    (Host.programFor_of_findGit hg) arguments

end Client

end Git

def rootHost : Host :=
  { tree := ⟨[([Host.git], .file true)]⟩
    home := []
    workingDirectory := "/".toList
    searchPath := some "/".toList }

theorem findGit_rootHost : rootHost.findGit = some "/git".toList := by decide

end ReleaseLog
