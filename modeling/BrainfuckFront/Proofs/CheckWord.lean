import Mathlib
import BrainfuckFront.CommandLine.Invocation
import BrainfuckFront.Proofs.Settings

/-!
# The word that asks for a check

The word `check` is taken out of the arguments before the flags are read, by a
search that does not know which arguments are values.  No argument with a flag in
it can be the word, so it can only be mistaken for a value that stands in an
argument of its own.  Where no such value is the word itself, asking for a check
changes nothing of the options, and not asking for it leaves the arguments as they
are.  A file called `check` has to be given behind an equals sign.
-/

namespace BrainfuckFront.CommandLine

/-- Written settings make the same options with the word as without it, wherever
it stands between two of them, and a check is asked for only where it stands. -/
structure Undisturbed (pieces : List (List String)) : Prop where
  absent : (takeCheck pieces.flatten).1 = false ∧
    Options.ofArguments (takeCheck pieces.flatten).2 =
      Options.ofArguments pieces.flatten
  inserted : ∀ before after, pieces = before ++ after →
    (takeCheck (before.flatten ++ checkWord :: after.flatten)).1 = true ∧
      Options.ofArguments
          (takeCheck (before.flatten ++ checkWord :: after.flatten)).2 =
        Options.ofArguments pieces.flatten

/-- One of the settings has the word for its value, in an argument of its own. -/
def GivesWord (pieces : List (List String)) : Prop :=
  ∃ flag, [flag, checkWord] ∈ pieces

variable {setting : Setting} {made : List Setting} {piece : List String}
variable {pieces before after : List (List String)}

theorem dashes_append_ne_checkWord {dashes : String}
    (hdashes : dashes ∈ ["-", "--"]) (body : String) :
    dashes ++ body ≠ checkWord := by
  intro hsame
  have hhead := congrArg (fun text => text.toList.head?) hsame
  simp only [List.mem_cons, List.not_mem_nil, or_false] at hdashes
  obtain rfl | rfl := hdashes <;> simp [checkWord] at hhead

/-- Only a value in an argument of its own can be the word. -/
theorem Setting.Written.checkWord_mem_iff (hwritten : setting.Written piece) :
    checkWord ∈ piece ↔ ∃ flag, piece = [flag, checkWord] := by
  cases hwritten with
  | separate dashes text hdashes htext =>
      have hflag := dashes_append_ne_checkWord hdashes setting.name
      simp [hflag.symm, eq_comm]
  | joined dashes text hdashes htext =>
      have hflag := dashes_append_ne_checkWord hdashes
        (setting.name ++ "=" ++ text)
      simpa [String.append_assoc] using hflag.symm
  | switched dashes hdashes =>
      have hflag := dashes_append_ne_checkWord hdashes "debug"
      simpa using hflag.symm
  | assigned dashes text hdashes htext =>
      have hflag := dashes_append_ne_checkWord hdashes ("debug" ++ "=" ++ text)
      simpa [String.append_assoc] using hflag.symm

theorem checkWord_mem_flatten_iff
    (hwritten : List.Forall₂ Setting.Written made pieces) :
    checkWord ∈ pieces.flatten ↔ GivesWord pieces := by
  induction hwritten with
  | nil => simp [GivesWord]
  | cons hfirst _ ih =>
      rw [List.flatten_cons, List.mem_append, ih, hfirst.checkWord_mem_iff]
      simp only [GivesWord, List.mem_cons, exists_or, eq_comm]

theorem takeCheck_of_notMem {arguments : List String}
    (hword : checkWord ∉ arguments) :
    takeCheck arguments = (false, arguments) := by
  rw [takeCheck, List.erase_of_not_mem hword]
  simpa using hword

/-- The first word is the one that is taken out. -/
theorem takeCheck_append_cons {front back : List String}
    (hword : checkWord ∉ front) :
    takeCheck (front ++ checkWord :: back) = (true, front ++ back) := by
  rw [takeCheck, List.erase_append_right _ hword, List.erase_cons_head]
  simp

theorem takeCheck_inserted (hsplit : pieces = before ++ after)
    (hword : checkWord ∉ before.flatten) :
    takeCheck (before.flatten ++ checkWord :: after.flatten) =
      (true, pieces.flatten) := by
  rw [takeCheck_append_cons hword, hsplit, List.flatten_append]

/-- A value of its own that is the word is taken for it. -/
theorem takeCheck_of_givesWord (hgives : GivesWord pieces) :
    (takeCheck pieces.flatten).1 = true := by
  obtain ⟨flag, hpiece⟩ := hgives
  have hmem : checkWord ∈ pieces.flatten :=
    List.mem_flatten_of_mem hpiece (by simp)
  simpa [takeCheck] using hmem

theorem undisturbed_of_notMem (hword : checkWord ∉ pieces.flatten) :
    Undisturbed pieces where
  absent := by
    rw [takeCheck_of_notMem hword]
    exact ⟨rfl, rfl⟩
  inserted := by
    intro before after hsplit
    have hbefore : checkWord ∉ before.flatten := by
      rw [hsplit, List.flatten_append, List.mem_append] at hword
      exact fun hmem => hword (Or.inl hmem)
    rw [takeCheck_inserted hsplit hbefore]
    exact ⟨rfl, rfl⟩

theorem ofArguments_file {file : String} (hfile : file ≠ "") :
    Options.ofArguments ["-file", file] =
      .ok { Options.default with file } := by
  have hwritten : List.Forall₂ Setting.Written [.file file]
      [["-file", file]] :=
    .cons (.separate "-" file (by decide) rfl) .nil
  have hover : FlagsOver [] := by
    rintro _ ⟨⟩
  exact (Options.ofArguments_of_written hwritten hover).trans
    (Options.validate_of_known hfile List.mem_cons_self List.mem_cons_self)

/-- The word disturbs the settings exactly if one of them has it for a value in an
argument of its own, since that value is then taken out.  Between settings without
such a value it does no harm, whatever comes after it.  So a file can be named in
an argument of its own exactly if it is called otherwise. -/
theorem undisturbed_iff (hwritten : List.Forall₂ Setting.Written made pieces) :
    (Undisturbed pieces ↔ ¬ GivesWord pieces) ∧
      (GivesWord pieces → (takeCheck pieces.flatten).1 = true) ∧
      (∀ before after, pieces = before ++ after → ¬ GivesWord before →
        takeCheck (before.flatten ++ checkWord :: after.flatten) =
          (true, pieces.flatten)) ∧
      ∀ file : String, file ≠ "" →
        ((takeCheck ["-file", file]).1 = false ∧
          Options.ofArguments (takeCheck ["-file", file]).2 =
            .ok { Options.default with file } ↔ file ≠ checkWord) := by
  refine ⟨⟨?_, ?_⟩, takeCheck_of_givesWord, ?_, ?_⟩
  · intro hundisturbed hgives
    have htrue := takeCheck_of_givesWord hgives
    rw [hundisturbed.absent.1] at htrue
    cases htrue
  · intro hgives
    rw [← checkWord_mem_flatten_iff hwritten] at hgives
    exact undisturbed_of_notMem hgives
  · rintro before after rfl hgives
    rw [← checkWord_mem_flatten_iff
      (List.forall₂_take_append made before after hwritten)] at hgives
    exact takeCheck_inserted rfl hgives
  · intro file hfile
    constructor
    · rintro ⟨habsent, -⟩ rfl
      cases habsent
    · intro hother
      have hword : checkWord ∉ ["-file", file] := by
        simpa [checkWord, eq_comm] using hother
      rw [takeCheck_of_notMem hword]
      exact ⟨rfl, ofArguments_file hfile⟩

/-- Behind an equals sign the word is a value like any other. -/
theorem undisturbed_iff_assigned :
    Undisturbed [["-color", "never"], ["--file=check"], ["-debug"]] ∧
      takeCheck ["-color", "never", "check", "--file=check", "-debug"] =
        (true, ["-color", "never", "--file=check", "-debug"]) ∧
      Options.ofArguments (takeCheck ["-file", "Check"]).2 =
        .ok ⟨"Check", "text", "auto", false⟩ := by
  have hwritten : List.Forall₂ Setting.Written
      [.color "never", .file "check", .debug true]
      [["-color", "never"], ["--file=check"], ["-debug"]] :=
    .cons (.separate "-" "never" (by decide) rfl)
      (.cons (.joined "--" "check" (by decide) rfl)
        (.cons (.switched "-" (by decide)) .nil))
  have hgives : ¬ GivesWord [["-color", "never"], ["--file=check"],
      ["-debug"]] := by
    simp [GivesWord, checkWord]
  have hbefore : ¬ GivesWord [["-color", "never"]] := by
    simp [GivesWord, checkWord]
  obtain ⟨hiff, -, hinserted, hfile⟩ := undisturbed_iff hwritten
  exact ⟨hiff.mpr hgives, hinserted [["-color", "never"]] _ rfl hbefore,
    ((hfile "Check" (by decide)).mpr (by decide)).2⟩

/-- A file called `check` cannot be named in an argument of its own: the word is
taken out, and the flag has no value left. -/
theorem not_undisturbed_file :
    List.Forall₂ Setting.Written [.file "check"] [["-file", "check"]] ∧
      ¬ Undisturbed [["-file", "check"]] ∧
      takeCheck ["-file", "check"] = (true, ["-file"]) ∧
      Options.ofArguments ["-file", "check"] =
        .ok ⟨"check", "text", "auto", false⟩ ∧
      Options.ofArguments ["-file"] = .error (.missingValue "file") := by
  refine ⟨.cons (.separate "-" "check" (by decide) rfl) .nil, ?_, by decide,
    ofArguments_file (by decide), by decide⟩
  intro hundisturbed
  have habsent := hundisturbed.absent.1
  revert habsent
  decide

end BrainfuckFront.CommandLine
