import ReleaseLog.Git.Client

/-!
# Searching for git

A search path can be cut at any colon: what is found on the whole is what is found on the first
part, or else on the second (`findGit_searching_append`). Where the home and the working directory
are absolute, so is what is found, and its last name is that of git (`locate_searches_in_order`).
-/

namespace ReleaseLog

namespace Path

theorem names_append_slash (s r : Text) : names (s ++ '/' :: r) = names s ++ names r := by
  rw [names, pieces_append_separator, List.filter_append]
  rfl

theorem names_of_slash_free {name : Text} (hs : '/' ∉ name) (hne : name ≠ []) :
    names name = [name] := by
  rw [names, pieces_of_not_mem hs]
  simp [hne]

/-- A name below a directory is the last one of its path. -/
theorem names_join (directory : Text) {name : Text} (hs : '/' ∉ name) (hne : name ≠ []) :
    names (join directory name) = names directory ++ [name] := by
  unfold join
  split
  · next hlast =>
    obtain ⟨d, rfl⟩ := List.getLast?_eq_some_iff.mp hlast
    have hd : names (d ++ ['/']) = names d := names_append_slash d [] ▸ List.append_nil _
    rw [List.append_assoc, List.singleton_append, names_append_slash, hd,
      names_of_slash_free hs hne]
  · rw [names_append_slash, names_of_slash_free hs hne]

theorem isAbsolute_join {directory : Text} (h : isAbsolute directory = true) (name : Text) :
    isAbsolute (join directory name) = true := by
  obtain ⟨d, rfl⟩ := List.head?_eq_some_iff.mp (of_decide_eq_true h)
  unfold join
  split <;> rfl

end Path

namespace Host

variable {h : Host}

theorem isAbsolute_extend {directory : Text} (hd : Path.isAbsolute directory = true)
    (names : List Text) : Path.isAbsolute (directoryOf.extend directory names) = true := by
  unfold directoryOf.extend
  generalize names.filter (· ≠ Path.here) = names
  induction names generalizing directory with
  | nil => exact hd
  | cons name names ih => exact ih (Path.isAbsolute_join hd name)

theorem isAbsolute_directoryOf (hhome : Path.isAbsolute h.home = true)
    (hplace : Path.isAbsolute h.workingDirectory = true) (entry : Text) :
    Path.isAbsolute (h.directoryOf entry) = true := by
  unfold directoryOf
  split
  · assumption
  · split
    · exact isAbsolute_extend hhome _
    · exact isAbsolute_extend hplace _

def searching (h : Host) (searchPath : Text) : Host := { h with searchPath := some searchPath }

theorem findGit_searching (searchPath : Text) :
    (h.searching searchPath).findGit = (h.candidates searchPath).find? h.isProgram := rfl

theorem candidates_append (h : Host) (p q : Text) :
    h.candidates (p ++ ':' :: q) = h.candidates p ++ h.candidates q := by
  rw [candidates, pieces_append_separator, List.map_append]
  rfl

theorem findGit_searching_append (h : Host) (p q : Text) :
    (h.searching (p ++ ':' :: q)).findGit =
      (h.searching p).findGit.or (h.searching q).findGit := by
  rw [findGit_searching, candidates_append, List.find?_append]
  rfl

theorem exists_entry_of_findGit {searchPath program : Text}
    (hg : (h.searching searchPath).findGit = some program) :
    ∃ entry ∈ pieces ':' searchPath, Path.join (h.directoryOf entry) git = program :=
  List.mem_map.mp (List.mem_of_find?_eq_some hg)

theorem findGit_searching_eq_none_iff {searchPath : Text} :
    (h.searching searchPath).findGit = none ↔
      ∀ entry ∈ pieces ':' searchPath,
        h.node (Path.join (h.directoryOf entry) git) ≠ .ok (.file true) := by
  rw [findGit_searching, List.find?_eq_none, candidates, List.forall_mem_map]
  simp only [isProgram_iff, ne_eq]

end Host

namespace Git

variable {h : Host}

theorem locate_of_findGit {program : Text} (hg : h.findGit = some program) :
    locate h = ⟨.ok program, (), [.usingGit program]⟩ := by
  rw [locate, hg]

theorem locate_of_not_findGit (hg : h.findGit = none) :
    locate h = ⟨.error .gitNotFound, (), []⟩ := by
  rw [locate, hg]

theorem result_locate_eq_ok_iff {program : Text} :
    (locate h).result = .ok program ↔ h.findGit = some program := by
  cases hg : h.findGit with
  | none => simp [locate_of_not_findGit hg]
  | some p => simp [locate_of_findGit hg]

theorem result_locate_eq_error_iff {cause : QueryFailure} :
    (locate h).result = .error cause ↔ cause = .gitNotFound ∧ h.findGit = none := by
  cases hg : h.findGit with
  | none => simp [locate_of_not_findGit hg, eq_comm]
  | some p => simp [locate_of_findGit hg]

theorem records_locate :
    (locate h).records = ((locate h).result.toOption.map Record.usingGit).toList := by
  cases hg : h.findGit with
  | none => rw [locate_of_not_findGit hg]; rfl
  | some p => rw [locate_of_findGit hg]; rfl

theorem locate_searching_append (h : Host) (p q : Text) :
    locate (h.searching (p ++ ':' :: q)) =
      if (locate (h.searching p)).result.isOk then locate (h.searching p)
      else locate (h.searching q) := by
  have happend := h.findGit_searching_append p q
  cases hp : (h.searching p).findGit with
  | some program =>
    rw [hp, Option.some_or] at happend
    rw [locate_of_findGit happend, locate_of_findGit hp]
    rfl
  | none =>
    rw [hp, Option.none_or] at happend
    rw [locate_of_not_findGit hp, locate, happend]
    rfl

/-- On a host with an absolute home and working directory, git is looked for in the entries of the
search path one after another: cutting the path at a colon cuts the search there. What is found is
an absolute path that ends in the name of git and leads to a program, and it is noted. Nothing is
found exactly if no entry leads to one. -/
theorem locate_searches_in_order {h : Host} (hhome : Path.isAbsolute h.home = true)
    (hplace : Path.isAbsolute h.workingDirectory = true) :
    locate { h with searchPath := none } = ⟨.error .gitNotFound, (), []⟩ ∧
      (∀ p q, locate (h.searching (p ++ ':' :: q)) =
        if (locate (h.searching p)).result.isOk then locate (h.searching p)
        else locate (h.searching q)) ∧
      (∀ p program, (locate (h.searching p)).result = .ok program →
        Path.isAbsolute program = true ∧ (Path.names program).getLast? = some Host.git ∧
          h.node program = .ok (.file true)) ∧
      (∀ p cause, (locate (h.searching p)).result = .error cause ↔
        cause = .gitNotFound ∧ ∀ entry ∈ pieces ':' p,
          h.node (Path.join (h.directoryOf entry) Host.git) ≠ .ok (.file true)) ∧
      ∀ p, (locate (h.searching p)).records =
        ((locate (h.searching p)).result.toOption.map Record.usingGit).toList := by
  refine ⟨locate_of_not_findGit rfl, locate_searching_append h, ?_, ?_, fun p => records_locate⟩
  · intro p program hp
    have hg := result_locate_eq_ok_iff.mp hp
    obtain ⟨entry, _, rfl⟩ := Host.exists_entry_of_findGit hg
    have hnames : Path.names (Path.join (h.directoryOf entry) Host.git) =
        Path.names (h.directoryOf entry) ++ [Host.git] :=
      Path.names_join _ (by decide) (by decide)
    refine ⟨?_, ?_, Host.isProgram_iff.mp (Host.isProgram_of_findGit (h := h.searching p) hg)⟩
    · exact Path.isAbsolute_join (Host.isAbsolute_directoryOf hhome hplace entry) Host.git
    · rw [hnames, List.getLast?_concat]
  · intro p cause
    rw [result_locate_eq_error_iff, Host.findGit_searching_eq_none_iff]

/-- A directory of the name of git at home, and below the working directory a link to a program,
which the empty entry at the seam leads to. -/
theorem locate_searches_across_empty_entry :
    let files : FileTree :=
      ⟨[(["home".toList, Host.git], .directory),
        (["work".toList, Host.git], .link "../lib/x".toList),
        (["lib".toList, "x".toList], .file true)]⟩
    let h : Host := { tree := files, home := "/home".toList, workingDirectory := "/work".toList }
    Path.isAbsolute h.home = true ∧ Path.isAbsolute h.workingDirectory = true ∧
      locate (h.searching ("~".toList ++ ':' :: ":lib".toList)) =
        locate (h.searching ":lib".toList) ∧
      (locate (h.searching ":lib".toList)).result = .ok "/work/git".toList ∧
      h.node "/work/git".toList = .ok (.file true) := by
  intro files h
  have hhome : Path.isAbsolute h.home = true := by decide
  have hplace : Path.isAbsolute h.workingDirectory = true := by decide
  obtain ⟨_, hcut, hfound, _⟩ := locate_searches_in_order hhome hplace
  have hempty : (locate (h.searching "~".toList)).result.isOk = false := by decide
  have hlocated : (locate (h.searching ":lib".toList)).result = .ok "/work/git".toList :=
    result_locate_eq_ok_iff.mpr (by decide)
  refine ⟨hhome, hplace, ?_, hlocated, (hfound _ _ hlocated).2.2⟩
  rw [hcut, hempty, if_neg Bool.false_ne_true]

end Git

end ReleaseLog
