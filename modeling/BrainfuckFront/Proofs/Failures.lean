import Mathlib
import BrainfuckFront.CommandLine.Run
import BrainfuckFront.Proofs.Loops

/-!
# How parsing fails

Resolving trusts what encoding has checked: that every loop has a partner, and
that only commands become instructions and only loops get jumps.  The trust is
kept, so the internal failures never show.  What is left are faults of the
source, each with its place, and these are still recognized under any number of
labels.
-/

namespace BrainfuckFront

open Level

namespace Jumps

open Program (Encoded)

variable {left right : Program} {start finish : Instruction}

theorem findLoopEnd_length_left (hlength : left.length < 2 ^ 63) :
    findLoopEnd (left ++ start :: right) (Int64.ofNat left.length) =
      (closing? start.times (left.length + 1) right).elim
        (.error (.noLoopEnd (Int64.ofNat left.length)))
        fun found => .ok (Int64.ofNat found) := by
  have hnonneg : ¬Int64.ofNat left.length < 0 := by
    rw [Int64.lt_iff_toInt_lt, Int64.toInt_ofNat_of_lt hlength,
      Int64.toInt_zero]
    omega
  rw [findLoopEnd, if_neg hnonneg, Int64.toNatClampNeg_ofNat_of_lt hlength,
    List.drop_left]
  cases hclosing : closing? start.times (left.length + 1) right with
  | none => simp only [hclosing, Option.elim_none]
  | some found => simp only [hclosing, Option.elim_some]

theorem findLoopStart_length_left (hlength : left.length < 2 ^ 63) :
    findLoopStart (left ++ finish :: right) (Int64.ofNat left.length) =
      (opening? 1 left.reverse).elim
        (.error (.noLoopStart (Int64.ofNat left.length)))
        fun found => .ok (Int64.ofNat found) := by
  have hnearest := Words.toInt_ofNat_sub_one hlength
  simp only [findLoopStart]
  obtain rfl | hleft := eq_or_ne left []
  · rfl
  have hpos := List.length_pos_of_ne_nil hleft
  have hnonneg : ¬Int64.ofNat left.length - 1 < 0 := by
    rw [Int64.lt_iff_toInt_lt, hnearest, Int64.toInt_zero]
    omega
  have hclamp : (Int64.ofNat left.length - 1).toNatClampNeg =
      left.length - 1 := by
    rw [Int64.toNatClampNeg, hnearest]
    omega
  have hlt : left.length - 1 < (left ++ finish :: right).length := by
    rw [List.length_append]
    omega
  rw [if_neg hnonneg, hclamp, if_pos hlt, Nat.sub_add_cancel hpos,
    List.take_left]
  cases opening? 1 left.reverse with
  | none => rfl
  | some found => rfl

variable {program : Program} {position : ℕ}

/-- From every start of a loop the search to the right ends, at a run that
closes all loops opened since. -/
theorem exists_findLoopEnd (hencoded : Encoded program)
    (hget : program[position]? = some start)
    (hkind : start.kind = .loopStart) :
    ∃ (found : ℕ) (finish : Instruction),
      findLoopEnd program (Int64.ofNat position) = .ok (Int64.ofNat found) ∧
        position < found ∧ program[found]? = some finish ∧
        finish.kind = .loopEnd ∧ program.opened position (found + 1) ≤ 0 := by
  obtain ⟨left, right, rfl, rfl⟩ := exists_split hget
  have hlength := hencoded.length_lt
  rw [List.length_append] at hlength
  obtain ⟨inner, finish, outer, rfl, hclosing, hfinish, -, hle⟩ :=
    exists_closing hencoded hkind
  have hsplit : left ++ start :: (inner ++ finish :: outer) =
      left ++ (start :: (inner ++ [finish])) ++ outer := by simp
  have hfound : left.length + 1 + inner.length + 1 =
      (left ++ start :: (inner ++ [finish])).length := by
    simp only [List.length_append, List.length_cons, List.length_nil]
    omega
  refine ⟨left.length + 1 + inner.length, finish, ?_, by omega, ?_, hfinish,
    ?_⟩
  · rw [findLoopEnd_length_left (by omega), hclosing, Option.elim_some]
  · rw [List.getElem?_append_right (by omega), add_assoc,
      Nat.add_sub_cancel_left, Nat.add_comm 1, List.getElem?_cons_succ]
    simp
  · rw [hfound, hsplit, Program.opened_append, change_cons, change_append,
      change_cons, change_nil, Instruction.rise_of_loopStart hkind,
      Instruction.rise_of_loopEnd hfinish]
    omega

/-- From every end of a loop the search to the left ends, at a run that opens a
loop which is still open. -/
theorem exists_findLoopStart (hencoded : Encoded program)
    (hget : program[position]? = some finish)
    (hkind : finish.kind = .loopEnd) :
    ∃ (found : ℕ) (start : Instruction),
      findLoopStart program (Int64.ofNat position) = .ok (Int64.ofNat found) ∧
        found < position ∧ program[found]? = some start ∧
        start.kind = .loopStart ∧ 1 ≤ program.opened found position := by
  obtain ⟨left, right, rfl, rfl⟩ := exists_split hget
  have hlength := hencoded.length_lt
  rw [List.length_append] at hlength
  obtain ⟨outer, start, inner, rfl, hopening, hstart, -, hle⟩ :=
    exists_opening hencoded hkind
  refine ⟨outer.length, start, ?_, by simp, by simp, hstart, ?_⟩
  · rw [findLoopStart_length_left (by omega), hopening,
      Option.elim_some]
  · rw [Program.opened_append, change_cons,
      Instruction.rise_of_loopStart hstart]
    omega

end Jumps

namespace Failure

/-- Whatever labels leave alone is the same under any number of them. -/
theorem foldr_labelled {A : Type} (view : Failure → A)
    (hview : ∀ label inner, view (labelled label inner) = view inner)
    (labels : List String) (failure : Failure) :
    view (labels.foldr labelled failure) = view failure := by
  induction labels with
  | nil => rfl
  | cons label labels ih => rw [List.foldr_cons, hview, ih]

theorem isCausedBy_fault_iff {failure : Failure} {cause : Fault} :
    failure.isCausedBy (fault cause) = true ↔ failure.fault? = some cause := by
  rw [isCausedBy, beq_iff_eq]

end Failure

namespace ParseError

/-- The faults that a source can have. -/
def OfSource (error : ParseError) : Prop :=
  error.fault = .unclosedBrackets ∨ error.fault = .infiniteLoop

variable {error : ParseError}

theorem OfSource.category (herror : error.OfSource) :
    error.fault.category = .invalidArgument := by
  obtain hfault | hfault := herror <;> rw [hfault] <;> rfl

theorem OfSource.mem_all (herror : error.OfSource) :
    error.fault ∈ Fault.all := by
  obtain hfault | hfault := herror <;> rw [hfault] <;> decide

theorem OfSource.category?_labelled (herror : error.OfSource)
    (labels : List String) :
    (labels.foldr Failure.labelled (.parse error)).category? =
      some .invalidArgument := by
  rw [Failure.foldr_labelled Failure.category? fun _ _ => rfl,
    Failure.category?, herror.category]

theorem OfSource.existsUnique_cause (herror : error.OfSource)
    (labels : List String) :
    ∃! cause, cause ∈ Fault.all ∧
      (labels.foldr Failure.labelled (.parse error)).isCausedBy
        (.fault cause) = true := by
  simp only [Failure.isCausedBy_fault_iff]
  rw [Failure.foldr_labelled Failure.fault? fun _ _ => rfl, Failure.fault?]
  refine ⟨error.fault, ⟨herror.mem_all, rfl⟩, ?_⟩
  rintro cause ⟨-, hcause⟩
  exact (Option.some.inj hcause).symm

end ParseError

namespace Program

variable {source : Bytes} {failure : Failure}

/-- Parsing fails at a bracket without a partner, or else at an empty loop. -/
theorem parse_error_cases (hsize : source.length < 2 ^ 63)
    (hparse : parse source = .error failure) :
    (∃ mismatch,
        Brackets.mismatch? (Source.commands source) = some mismatch ∧
        failure = .parse (mismatchError (Source.commands source) mismatch)) ∨
      ∃ left start finish right,
        encode source = .ok (left ++ start :: finish :: right) ∧
        start.kind = .loopStart ∧ finish.kind = .loopEnd ∧
        failure = Jumps.emptyLoop (start :: left.reverse) := by
  cases hencode : encode source with
  | error reported =>
      rw [parse_of_encode_error hencode, Except.error.injEq] at hparse
      subst hparse
      exact Or.inl (encode_eq_error_iff.mp hencode)
  | ok program =>
      rw [parse_of_encode_ok hencode] at hparse
      obtain ⟨left, start, finish, right, rfl, hstart, hfinish, -, hfailure⟩ :=
        Jumps.resolve_eq_error (encoded_of_encode hsize hencode) hparse
      exact Or.inr
        ⟨left, start, finish, right, rfl, hstart, hfinish, hfailure⟩

theorem exists_parseError (hsize : source.length < 2 ^ 63)
    (hparse : parse source = .error failure) :
    ∃ error : ParseError, failure = .parse error ∧ error.OfSource := by
  obtain ⟨mismatch, -, rfl⟩ | ⟨left, start, finish, right, -, -, -, rfl⟩ :=
    parse_error_cases hsize hparse
  · exact ⟨_, rfl, Or.inl rfl⟩
  · exact ⟨_, rfl, Or.inr rfl⟩

/-- Parsing never fails by the parser's own fault.  On what was encoded both
searches succeed for all loops, whose jumps may then be set, and every character
that is kept makes an instruction.  So each failure is a fault of the source; it
is recognized as exactly one of the assigned faults under any number of labels,
and a run over the source answers it with a diagnostic. -/
theorem parse_failure_ofSource {source : Bytes}
    (hsize : source.length < 2 ^ 63) :
    (∀ program, encode source = .ok program →
      ∀ (position : ℕ) (instruction : Instruction),
        program[position]? = some instruction →
          (instruction.kind = .loopStart →
            ∃ (found : ℕ) (finish : Instruction),
              Jumps.findLoopEnd program (Int64.ofNat position) =
                .ok (Int64.ofNat found) ∧
              position < found ∧ program[found]? = some finish ∧
              finish.kind = .loopEnd ∧
              program.opened position (found + 1) ≤ 0) ∧
          (instruction.kind = .loopEnd →
            ∃ (found : ℕ) (start : Instruction),
              Jumps.findLoopStart program (Int64.ofNat position) =
                .ok (Int64.ofNat found) ∧
              found < position ∧ program[found]? = some start ∧
              start.kind = .loopStart ∧
              1 ≤ program.opened found position) ∧
          (instruction.kind = .loopStart ∨ instruction.kind = .loopEnd →
            ∀ jump, instruction.setJump jump =
              .ok { instruction with jump })) ∧
      (∀ char ∈ Utf8.decode source, ∀ command,
        Command.ofChar? char = some command →
          ∀ index, Instruction.ofCodePoint index char.toNat =
            .ok (.single index command)) ∧
      ∀ failure, parse source = .error failure →
        ∃ error : ParseError, failure = .parse error ∧
          (error.fault = .unclosedBrackets ∨ error.fault = .infiniteLoop) ∧
          (∀ labels : List String,
            (labels.foldr Failure.labelled failure).category? =
                some .invalidArgument ∧
              ∃! cause, cause ∈ Fault.all ∧
                (labels.foldr Failure.labelled failure).isCausedBy
                  (.fault cause) = true) ∧
          ∀ options check terminal stdout stderr,
            CommandLine.run options check terminal (.ok source) stdout
                stderr =
              (CommandLine.Outcome.start stdout stderr
                ((trace source).map
                  (·.withField "file" (.text options.file)))).diagnose
                options.file (.ofSource error source
                  (CommandLine.useColor options.color terminal)) := by
  refine ⟨?_, ?_, ?_⟩
  · intro program hencode position instruction hget
    have hencoded := encoded_of_encode hsize hencode
    refine ⟨Jumps.exists_findLoopEnd hencoded hget,
      Jumps.exists_findLoopStart hencoded hget, ?_⟩
    intro hloop
    apply Jumps.setJump_of_isLoop
    obtain hkind | hkind := hloop <;> rw [hkind] <;> rfl
  · intro char _ command hcommand index
    rw [Instruction.ofCodePoint]
    rw [Command.ofChar?] at hcommand
    rw [hcommand]
  · intro failure hparse
    obtain ⟨error, rfl, herror⟩ := exists_parseError hsize hparse
    refine ⟨error, rfl, herror, ?_, ?_⟩
    · intro labels
      exact ⟨herror.category?_labelled labels,
        herror.existsUnique_cause labels⟩
    · intro options check terminal stdout stderr
      simp only [CommandLine.run, hparse, Failure.parseError?]

theorem parse_failure_ofSource_brackets :
    (∃ (program : Program) (found : ℕ) (finish : Instruction),
      encode [91, 91, 43, 93, 43, 93] = .ok program ∧
        Jumps.findLoopEnd program (Int64.ofNat 0) =
          .ok (Int64.ofNat found) ∧
        0 < found ∧ program[found]? = some finish ∧
        finish.kind = .loopEnd ∧ program.opened 0 (found + 1) ≤ 0) ∧
      ∃ error : ParseError, parse [43, 91, 93] = .error (.parse error) ∧
        (error.fault = .unclosedBrackets ∨ error.fault = .infiniteLoop) ∧
        (Failure.labelled "outer" (.labelled "inner" (.parse error))).category? =
          some .invalidArgument := by
  constructor
  · have hencode : encode [91, 91, 43, 93, 43, 93] = .ok
        [⟨0, .loopStart, 2, 0⟩, ⟨1, .of .increment, 1, 0⟩,
          ⟨2, .loopEnd, 1, 0⟩, ⟨3, .of .increment, 1, 0⟩,
          ⟨4, .loopEnd, 1, 0⟩] := rfl
    obtain ⟨found, finish, hfound⟩ :=
      ((parse_failure_ofSource (by decide)).1 _ hencode 0 _ rfl).1 rfl
    exact ⟨_, found, finish, hencode, hfound⟩
  · have hparse : parse [43, 91, 93] =
        .error (.parse ⟨.infiniteLoop, 2, 2, false⟩) := rfl
    obtain ⟨error, herror, hfault, hlabels, -⟩ :=
      (parse_failure_ofSource (by decide)).2.2 _ hparse
    rw [herror] at hlabels hparse
    exact ⟨error, hparse, hfault, (hlabels ["outer", "inner"]).1⟩

end Program

end BrainfuckFront
