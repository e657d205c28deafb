import Scriptwright.Proofs.Project.Failure
import Scriptwright.Proofs.Project.Words

/-!
# Lint commands

Linting is meant never to stop a build, and no program that is started can stop one. A command that
cannot be split into words does, and so does a null character, which no program can be handed. So
linting a file returns just if there is no command, or a text in which every quote is closed and
every backslash has a character behind it, and no null character is in it or in the name of the
file.
-/

namespace Scriptwright.Project

/-! ## Marks in a text -/

section Marks

variable {part new s before after : List Char} {d : Char}

theorem eq_append_of_cutAt? (h : Text.cutAt? part s = some (before, after)) :
    s = before ++ (part ++ after) := by
  induction s generalizing before with
  | nil =>
    rw [Text.cutAt?] at h
    split at h
    · next hempty =>
      cases h
      rw [List.isEmpty_iff.mp hempty]
      rfl
    · cases h
  | cons c cs ih =>
    rw [Text.cutAt?] at h
    split at h
    · next hprefix =>
      cases h
      obtain ⟨rest, hrest⟩ := List.isPrefixOf_iff_prefix.mp hprefix
      rw [← hrest, List.drop_left, List.nil_append]
    · obtain ⟨cut, hcut, heq⟩ := Option.map_eq_some_iff.mp h
      cases heq
      rw [List.cons_append, ← ih hcut]

theorem mentions_iff : mentions part s = true ↔ part <:+: s := by
  rw [mentions]
  constructor
  · intro h
    obtain ⟨⟨before, after⟩, hcut⟩ := Option.isSome_iff_exists.mp h
    exact ⟨before, after, by rw [eq_append_of_cutAt? hcut, List.append_assoc]⟩
  · intro h
    induction s with
    | nil =>
      rw [List.infix_nil.mp h]
      rfl
    | cons c cs ih =>
      rw [Text.cutAt?]
      split
      · rfl
      · next hnot =>
        rw [Option.isSome_map]
        refine ih ((List.infix_cons_iff.mp h).resolve_left fun hprefix => ?_)
        exact hnot (List.isPrefixOf_iff_prefix.mpr hprefix)

theorem mem_replaceAll_of_mem (hd : d ∉ part) {fuel : Nat} (h : d ∈ s) :
    d ∈ replaceAll part new fuel s := by
  induction fuel generalizing s with
  | zero => exact h
  | succ fuel ih =>
    rw [replaceAll]
    split
    · next hcut =>
      rw [eq_append_of_cutAt? hcut] at h
      simp only [List.mem_append, hd, false_or] at h
      rw [List.mem_append, List.mem_append]
      exact h.imp .inl ih
    · exact h

/-- Characters that are new come from what takes the place of the part. -/
theorem mem_or_mem_of_mem_replaceAll {fuel : Nat} (h : d ∈ replaceAll part new fuel s) :
    d ∈ s ∨ d ∈ new := by
  induction fuel generalizing s with
  | zero => exact .inl h
  | succ fuel ih =>
    rw [replaceAll] at h
    split at h
    · next hcut =>
      rw [eq_append_of_cutAt? hcut]
      simp only [List.mem_append] at h ⊢
      rcases h with (hbefore | hnew) | hafter
      · exact .inl (.inl hbefore)
      · exact .inr hnew
      · exact (ih hafter).imp_left fun h => .inr (.inr h)
    · exact .inl h

theorem mem_replaceAll_new {fuel : Nat} (hfuel : fuel ≠ 0) (hpart : part <:+: s)
    (h : d ∈ new) : d ∈ replaceAll part new fuel s := by
  obtain ⟨n, rfl⟩ := Nat.exists_eq_succ_of_ne_zero hfuel
  obtain ⟨⟨before, after⟩, hcut⟩ := Option.isSome_iff_exists.mp (mentions_iff.mpr hpart)
  simp only [replaceAll, hcut, List.mem_append]
  exact .inl (.inr h)

end Marks

/-! ## Commands for a file -/

theorem canStart_iff {argv : List String} :
    Work.canStart argv = true ↔ ∀ word ∈ argv, '\x00' ∉ word.toList := by
  simp [Work.canStart]

/-- The file that a command is for plays no part in whether it has words. -/
theorem isOk_lintWords_iff {command target : String} :
    (lintWords command target).isOk = true ↔ Words.Complete command.toList := by
  rw [← Words.isOk_split_iff, lintWords]
  cases Words.split command with
  | error f => rfl
  | ok words =>
    by_cases hmark : mentions fileMark command.toList = true
    · simp only [hmark]
      rfl
    · simp only [hmark]
      rfl

section Null

variable {command target : String} {words argv : List String}

/-- A null character stands for itself in a command, so it comes to a word. -/
theorem null_notMem_split_iff (h : Words.split command = .ok words) :
    (∀ word ∈ words, '\x00' ∉ word.toList) ↔ '\x00' ∉ command.toList := by
  constructor
  · intro hall hnull
    have hordinary : ∀ c ∈ ['\x00'], Words.isOrdinary c = true :=
      List.forall_mem_singleton.mpr rfl
    obtain ⟨word, hword, hin⟩ := Words.exists_infix_of_split h (List.cons_ne_nil _ _) hordinary
      ((List.singleton_infix_iff _ _).mpr hnull)
    exact hall word hword ((List.singleton_infix_iff _ _).mp hin)
  · exact fun hcommand _ hword hnull => hcommand (Words.mem_of_mem_split (by decide) h hword hnull)

/-- A command that mentions the file has a word with the mark in it, so the name of the file comes
to a word. -/
theorem null_notMem_replaced_iff (h : Words.split command = .ok words)
    (hmark : mentions fileMark command.toList = true) :
    (∀ word ∈ words, '\x00' ∉ replaceAll fileMark target.toList word.length word.toList) ↔
      '\x00' ∉ command.toList ∧ '\x00' ∉ target.toList := by
  rw [← null_notMem_split_iff h]
  constructor
  · intro hall
    refine ⟨fun word hword hnull => ?_, fun hnull => ?_⟩
    · exact hall word hword (mem_replaceAll_of_mem (by decide) hnull)
    · have hordinary : ∀ c ∈ fileMark, Words.isOrdinary c = true :=
        List.all_eq_true.mp (by decide)
      obtain ⟨word, hword, hin⟩ :=
        Words.exists_infix_of_split h (by decide) hordinary (mentions_iff.mp hmark)
      have hlength : word.length ≠ 0 := by
        have hle := hin.length_le
        rw [String.length_toList] at hle
        exact Nat.ne_of_gt (Nat.lt_of_lt_of_le (by decide) hle)
      exact hall word hword (mem_replaceAll_new hlength hin hnull)
  · rintro ⟨hwords, htarget⟩ word hword hnull
    rcases mem_or_mem_of_mem_replaceAll hnull with hold | hnew
    · exact hwords word hword hold
    · exact htarget hnew

/-- The words of a command for a file can be handed to a program if neither the command nor the name
of the file has a null character. -/
theorem canStart_iff_of_lintWords (h : lintWords command target = .ok argv) :
    Work.canStart argv = true ↔ '\x00' ∉ command.toList ∧ '\x00' ∉ target.toList := by
  rw [canStart_iff]
  rw [lintWords] at h
  cases hsplit : Words.split command with
  | error f =>
    rw [hsplit] at h
    cases h
  | ok words =>
    rw [hsplit] at h
    by_cases hmark : mentions fileMark command.toList = true
    · simp only [hmark] at h
      cases h
      simp only [List.forall_mem_map, String.toList_ofList]
      exact null_notMem_replaced_iff hsplit hmark
    · simp only [hmark] at h
      cases h
      rw [List.forall_mem_append, List.forall_mem_singleton, null_notMem_split_iff hsplit]

end Null

/-- A lint command that can be used for a file: there is none, or it is a complete text, with no
null character in it or in the name of the file. -/
def Lintable (lint : Value) (target : Path) : Prop :=
  lint.truthy = false ∨ ∃ s, lint = .string s ∧ Words.Complete s.toList ∧
    '\x00' ∉ s.toList ∧ '\x00' ∉ target.text.toList

/-- What becomes of a lint command: there is none, or it is a text and its words count, or it is
something else. -/
theorem lintCommand_cases (lint : Value) (target : Path) :
    (lint.truthy = false ∧ lintCommand lint target = .ok none) ∨
    (lint.truthy = true ∧ ∃ s, lint = .string s ∧
      lintCommand lint target = (lintWords s target.text).map some) ∨
    (lint.truthy = true ∧ (∀ s, lint ≠ .string s) ∧ ∃ f, lintCommand lint target = .error f) := by
  unfold lintCommand
  cases htruthy : lint.truthy with
  | false => exact .inl ⟨rfl, rfl⟩
  | true =>
    cases lint with
    | string s => exact .inr (.inl ⟨rfl, s, rfl, rfl⟩)
    | _ => exact .inr (.inr ⟨rfl, by simp, _, rfl⟩)

theorem lintable_string_iff {text : String} {target : Path}
    (htruthy : (Value.string text).truthy = true) :
    Lintable (.string text) target ↔
      ∃ argv, lintWords text target.text = .ok argv ∧ Work.canStart argv = true := by
  have hcomplete : (lintWords text target.text).isOk = true ↔ Words.Complete text.toList :=
    isOk_lintWords_iff
  rw [Lintable, htruthy]
  constructor
  · rintro (hfalse | ⟨_, heq, htext, hnull⟩)
    · cases hfalse
    · cases heq
      cases hwords : lintWords text target.text with
      | error f =>
        rw [hwords] at hcomplete
        cases hcomplete.mpr htext
      | ok argv => exact ⟨argv, rfl, (canStart_iff_of_lintWords hwords).mpr hnull⟩
  · rintro ⟨argv, hwords, hstart⟩
    rw [hwords] at hcomplete
    exact .inr ⟨text, rfl, hcomplete.mp rfl, (canStart_iff_of_lintWords hwords).mp hstart⟩

theorem lints_iff {project : Project} {target : Path} :
    Lints project target ↔ Lintable project.lint target := by
  rw [Lints]
  rcases lintCommand_cases project.lint target with ⟨hfalse, heq⟩ | ⟨htruthy, s, hs, heq⟩ |
    ⟨htruthy, hno, f, heq⟩
  · exact iff_of_true ⟨none, heq, fun _ h => by cases h⟩ (.inl hfalse)
  · rw [heq, hs, lintable_string_iff (hs ▸ htruthy)]
    cases lintWords s target.text with
    | error f => exact iff_of_false (fun ⟨_, h, _⟩ => by cases h) fun ⟨_, h, _⟩ => by cases h
    | ok argv =>
      constructor
      · rintro ⟨words, hwords, hstart⟩
        cases hwords
        exact ⟨argv, rfl, hstart argv rfl⟩
      · rintro ⟨_, hargv, hstart⟩
        cases hargv
        refine ⟨some argv, rfl, fun words hwords => ?_⟩
        rwa [← Option.some.inj hwords]
  · rw [heq, Lintable, htruthy]
    refine iff_of_false (fun ⟨_, h, _⟩ => by cases h) ?_
    rintro (hfalse | ⟨s, hs, -⟩)
    · cases hfalse
    · exact hno s hs

/-! ## Linting -/

/-- Linting a file returns, whatever the started program does, just if its command can be used.
Otherwise it fails before anything is started. -/
theorem runLint_returns_iff (project : Project) (target : Path) (w : World) :
    ((∃ succeeded v, (runLint project target).run w = (.ok succeeded, v) ∧
        Linted project target w succeeded v) ↔ Lintable project.lint target) ∧
      ((∃ f, (runLint project target).run w = (.error (.fault f), w)) ↔
        ¬Lintable project.lint target) := by
  rw [← lints_iff]
  by_cases hlints : Lints project target
  · obtain ⟨succeeded, v, hrun, hlinted⟩ := exists_linted hlints w
    refine ⟨iff_of_true ⟨succeeded, v, hrun, hlinted⟩ hlints,
      iff_of_false ?_ (not_not_intro hlints)⟩
    rintro ⟨f, hfails⟩
    rw [hrun] at hfails
    cases hfails
  · obtain ⟨f, hfails⟩ := exists_fault_of_not_lints hlints w
    refine ⟨iff_of_false ?_ hlints, iff_of_true ⟨f, hfails⟩ hlints⟩
    rintro ⟨succeeded, v, hrun, -⟩
    rw [hfails] at hrun
    cases hrun

def lintManifest (lint : Value) : Fields :=
  Fields.ofTexts [(sectionName,
    Value.record [("entry", .string "a.yml"), ("output", .string "dist")]), ("tools",
    Value.record [("lint", lint)])]

/-- A manifest with an open quote in its lint command, or with a list of words for it, is loaded,
and then every linting fails. -/
theorem runLint_fatal :
    (∃ project, ofManifest (inApp []) (inApp [manifestName]) true
      (lintManifest (.string "eslint 'fix")) = .ok project ∧
      ∀ target w, (runLint project target).run w = (.error (.fault .badValue), w)) ∧
    ∃ project, ofManifest (inApp []) (inApp [manifestName]) true
        (lintManifest (.list [.string "npx", .string "eslint"])) = .ok project ∧
      ∀ target w, (runLint project target).run w = (.error (.fault .notRecord), w) := by
  refine ⟨⟨_, rfl, fun target w => run_runLint_of_error ?_ w⟩,
    ⟨_, rfl, fun target w => run_runLint_of_error ?_ w⟩⟩
  · have hopen : Words.split "eslint 'fix" = .error .badValue := by with_unfolding_all rfl
    change (lintWords "eslint 'fix" target.text).map some = _
    rw [lintWords, hopen]
    rfl
  · rfl

end Scriptwright.Project
