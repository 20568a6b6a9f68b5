import Mathlib
import BrainfuckFront.Proofs.Loops

/-!
# The language of the parser

Which sources parse, said by a grammar: commands follow each other in any order,
and brackets stand around words of the language that are not empty.  The parser
knows no grammar.  It checks the brackets on single commands and the bodies of
loops on runs, which together means that the word is balanced and that no
bracket is closed right after it was opened.
-/

namespace BrainfuckFront

open Brackets (Balanced balanced_iff)
open Level

/-- No opening bracket is followed by a closing one. -/
def EmptyLoopFree (word : List Command) : Prop :=
  word.IsChain fun first second => ¬(first = .openLoop ∧ second = .closeLoop)

/-- The words that parse. -/
inductive WellFormed : List Command → Prop
  | nil : WellFormed []
  | command {command : Command} {word : List Command}
      (hopen : command ≠ .openLoop) (hclose : command ≠ .closeLoop)
      (hword : WellFormed word) : WellFormed (command :: word)
  | loop {body word : List Command} (hbody : WellFormed body)
      (hne : body ≠ []) (hword : WellFormed word) :
      WellFormed (.openLoop :: (body ++ .closeLoop :: word))

theorem Command.rise_of_not_bracket {command : Command}
    (hopen : command ≠ .openLoop) (hclose : command ≠ .closeLoop) :
    command.rise = 0 := by
  cases command with
  | openLoop => contradiction
  | closeLoop => contradiction
  | _ => rfl

theorem balanced_cons_iff {command : Command} {word : List Command}
    (hopen : command ≠ .openLoop) (hclose : command ≠ .closeLoop) :
    Balanced (command :: word) ↔ Balanced word := by
  rw [balanced_iff, balanced_iff, staysPositive_cons, change_cons,
    Command.rise_of_not_bracket hopen hclose, add_zero, zero_add]
  simp

theorem balanced_loop {body word : List Command} (hbody : Balanced body)
    (hword : Balanced word) :
    Balanced (.openLoop :: (body ++ .closeLoop :: word)) := by
  obtain ⟨hpositive, hzero⟩ := balanced_iff.mp hbody
  obtain ⟨hpositive', hzero'⟩ := balanced_iff.mp hword
  rw [balanced_iff, staysPositive_cons, staysPositive_append,
    staysPositive_cons, change_cons, change_append, change_cons, hzero,
    hzero', Command.rise, Command.rise]
  refine ⟨⟨one_pos, hpositive.mono (by norm_num), by norm_num, ?_⟩,
    by norm_num⟩
  simpa using hpositive'

theorem emptyLoopFree_loop {body word : List Command}
    (hbalanced : Balanced body) (hne : body ≠ [])
    (hbody : EmptyLoopFree body) (hword : EmptyLoopFree word) :
    EmptyLoopFree (.openLoop :: (body ++ .closeLoop :: word)) := by
  refine List.isChain_cons.mpr ⟨?_, List.isChain_append.mpr
    ⟨hbody, List.isChain_cons.mpr ⟨?_, hword⟩, ?_⟩⟩
  · rintro first hfirst ⟨-, rfl⟩
    rw [List.head?_append_of_ne_nil _ hne] at hfirst
    exact hbalanced.head?_ne_closeLoop hfirst
  · rintro first - ⟨hcontra, -⟩
    cases hcontra
  · rintro last hlast first - ⟨rfl, -⟩
    exact hbalanced.getLast?_ne_openLoop hlast

theorem WellFormed.balanced_and_emptyLoopFree {word : List Command}
    (hword : WellFormed word) : Balanced word ∧ EmptyLoopFree word := by
  induction hword with
  | nil => exact ⟨by decide, List.isChain_nil⟩
  | command hopen hclose _ ih =>
      refine ⟨(balanced_cons_iff hopen hclose).mpr ih.1,
        List.isChain_cons.mpr ⟨?_, ih.2⟩⟩
      rintro next - ⟨hcontra, -⟩
      exact hopen hcontra
  | loop _ hne _ ihbody ihword =>
      exact ⟨balanced_loop ihbody.1 ihword.1,
        emptyLoopFree_loop ihbody.1 hne ihbody.2 ihword.2⟩

/-- The derivation follows the word from the left, and at an opening bracket it
splits off the body of the loop. -/
theorem wellFormed_of_balanced {word : List Command}
    (hbalanced : Balanced word) (hfree : EmptyLoopFree word) :
    WellFormed word := by
  match word with
  | [] => exact .nil
  | command :: rest =>
      have hrest := (List.isChain_cons.mp hfree).2
      by_cases hopen : command = .openLoop
      · subst hopen
        obtain ⟨body, after, rfl, hbody, hafter⟩ := hbalanced.exists_loop
        obtain ⟨hfreeBody, hfreeRest, -⟩ := List.isChain_append.mp hrest
        refine .loop (wellFormed_of_balanced hbody hfreeBody) ?_
          (wellFormed_of_balanced hafter (List.isChain_cons.mp hfreeRest).2)
        rintro rfl
        exact (List.isChain_cons_cons.mp hfree).1 ⟨rfl, rfl⟩
      · by_cases hclose : command = .closeLoop
        · subst hclose
          exact absurd rfl hbalanced.head?_ne_closeLoop
        · exact .command hopen hclose (wellFormed_of_balanced
            ((balanced_cons_iff hopen hclose).mp hbalanced) hrest)
termination_by word.length

namespace Program

theorem head?_commands {program : Program}
    (htimes : ∀ instruction ∈ program, 1 ≤ instruction.times)
    (hcommand : ∀ instruction ∈ program,
      ∃ command, instruction.kind = .of command) :
    (commands program).head?.map Kind.of =
      program.head?.map Instruction.kind := by
  cases program with
  | nil => rfl
  | cons instruction program =>
      obtain ⟨command, hkind⟩ := hcommand instruction (by simp)
      have hcount := Instruction.one_le_count (htimes instruction (by simp))
      obtain ⟨more, hmore⟩ := Nat.exists_eq_add_of_le' hcount
      rw [commands_cons, Instruction.commands_of_kind hkind, hmore,
        List.replicate_succ, List.cons_append, List.head?_cons,
        List.head?_cons, Option.map_some, Option.map_some, hkind]

/-- Inside a run nothing changes, so an empty loop shows where two runs
meet. -/
theorem emptyLoopFree_commands {program : Program}
    (htimes : ∀ instruction ∈ program, 1 ≤ instruction.times)
    (hcommand : ∀ instruction ∈ program,
      ∃ command, instruction.kind = .of command) :
    EmptyLoopFree (commands program) ↔
      program.IsChain fun left right =>
        ¬(left.kind = .loopStart ∧ right.kind = .loopEnd) := by
  induction program with
  | nil => exact iff_of_true List.isChain_nil List.isChain_nil
  | cons instruction program ih =>
      obtain ⟨hfirst, hrest⟩ := List.forall_mem_cons.mp htimes
      obtain ⟨⟨command, hkind⟩, hcommand'⟩ :=
        List.forall_mem_cons.mp hcommand
      have hhead := head?_commands hrest hcommand'
      have hcount := Instruction.one_le_count hfirst
      have hlast : instruction.commands.getLast? = some command := by
        rw [Instruction.commands_of_kind hkind, List.getLast?_replicate,
          if_neg (by omega)]
      have hinside : EmptyLoopFree instruction.commands := by
        rw [Instruction.commands_of_kind hkind]
        refine List.isChain_replicate_of_rel _ ?_
        rintro ⟨rfl, hcontra⟩
        cases hcontra
      rw [commands_cons, EmptyLoopFree, List.isChain_append,
        List.isChain_cons, ← ih hrest hcommand', hlast]
      constructor
      · rintro ⟨-, hfree, hseam⟩
        refine ⟨?_, hfree⟩
        rintro next hnext ⟨hstart, hend⟩
        rw [Option.mem_def.mp hnext, Option.map_some, hend,
          Option.map_eq_some_iff] at hhead
        obtain ⟨second, hsecond, hclose⟩ := hhead
        rw [hkind, Kind.of.injEq] at hstart
        exact hseam command rfl second hsecond
          ⟨hstart, Kind.of.inj hclose⟩
      · rintro ⟨hseam, hfree⟩
        refine ⟨hinside, hfree, ?_⟩
        rintro first hfirst' second hsecond ⟨rfl, rfl⟩
        rw [Option.mem_def.mp hsecond, Option.map_some, eq_comm,
          Option.map_eq_some_iff] at hhead
        obtain ⟨next, hnext, hend⟩ := hhead
        rw [Option.mem_some_iff] at hfirst'
        exact hseam next hnext ⟨by rw [hkind, hfirst'], hend⟩

variable {source : Bytes}

theorem parse_isOk_iff (hsize : source.length < 2 ^ 63) :
    (∃ program, parse source = .ok program) ↔
      Balanced (Source.commands source) ∧
        EmptyLoopFree (Source.commands source) := by
  have hlength := (Source.length_commands_le source).trans_lt hsize
  simp only [parse_eq_ok_iff, exists_and_left]
  refine and_congr_right fun hbalanced => ?_
  have hencoded := encoded_of_encode hsize
    (encode_eq_ok_iff.mpr ⟨hbalanced, rfl⟩)
  rw [Jumps.resolve_isOk_iff hencoded, ← emptyLoopFree_commands
    hencoded.one_le_times hencoded.isCommand,
    RunLength.commands_runs hlength]

/-- A source parses exactly when what is left of it without comments spells a
word of the language. -/
theorem parse_isOk_iff_wellFormed (hsize : source.length < 2 ^ 63) :
    (∃ program, parse source = .ok program) ↔
      ∃ word, WellFormed word ∧
        Source.filtered source = word.map Command.byte := by
  rw [parse_isOk_iff hsize]
  constructor
  · rintro ⟨hbalanced, hfree⟩
    exact ⟨Source.commands source, wellFormed_of_balanced hbalanced hfree, rfl⟩
  · rintro ⟨word, hword, hfiltered⟩
    have hcommands : Source.commands source = word := by
      rw [← Source.commands_map_byte word, ← hfiltered, Source.filtered,
        Source.commands_map_byte]
    rw [hcommands]
    exact hword.balanced_and_emptyLoopFree

theorem parse_isOk_iff_wellFormed_nested :
    (∃ word, WellFormed word ∧
        Source.filtered [91, 91, 43, 33, 93, 43, 93] =
          word.map Command.byte) ∧
      ¬∃ word, WellFormed word ∧
        Source.filtered [91, 91, 33, 93, 93] = word.map Command.byte := by
  refine ⟨(parse_isOk_iff_wellFormed (by decide)).mp ⟨_, rfl⟩, ?_⟩
  intro hword
  obtain ⟨program, hparse⟩ :=
    (parse_isOk_iff_wellFormed (by decide)).mpr hword
  cases hparse

end Program

end BrainfuckFront
