import Mathlib
import BrainfuckFront.Proofs.Decodability
import BrainfuckFront.Proofs.Filtering
import BrainfuckFront.Proofs.LoopRanges
import BrainfuckFront.Proofs.Outcomes

/-!
# What a listing tells

Neither listing loses anything of a program.  In the text every line can be taken
apart into its numbers and its symbol, and in JSON every object into its members,
although a jump is only given where there is one.  The text shows the jumps of
loops only and reserved kinds as blanks, so it tells programs apart as far as
their instructions are legible; the instructions of a parsed program always are.
-/

namespace BrainfuckFront

open Text

theorem Command.symbol_injective : Function.Injective symbol :=
  injective_of_nodup_map (by decide)

theorem Command.name_injective : Function.Injective name :=
  injective_of_nodup_map (by decide)

namespace Kind

theorem toList_name_reserved (code : UInt8) (high : 14 ≤ code) :
    (reserved code high).name.toList =
      "Kind(".toList ++ (code.toNat.repr.toList ++ [')']) := by
  have hname : (reserved code high).name =
      "Kind(" ++ code.toNat.repr ++ ")" := rfl
  simp [hname]

theorem name_of_ne_name_reserved (command : Command) (code : UInt8)
    (high : 14 ≤ code) : (of command).name ≠ (reserved code high).name := by
  intro hsame
  have hchars := String.toList_inj.mpr hsame
  rw [toList_name_reserved] at hchars
  cases command <;> simp [name, Command.name] at hchars

theorem name_injective : Function.Injective name := by
  intro left right hsame
  cases left with
  | of command =>
      cases right with
      | of command' => rw [Command.name_injective hsame]
      | reserved code high =>
          exact absurd hsame (name_of_ne_name_reserved command code high)
  | reserved code high =>
      cases right with
      | of command =>
          exact absurd hsame.symm (name_of_ne_name_reserved command code high)
      | reserved code' high' =>
          have hchars := String.toList_inj.mpr hsame
          rw [toList_name_reserved, toList_name_reserved] at hchars
          have hdigits := List.append_cancel_right
            (List.append_cancel_left hchars)
          have hcode : code = code' :=
            UInt8.toNat_inj.mp (Nat.repr_inj.mp (String.toList_inj.mp hdigits))
          subst hcode
          rfl

theorem quote_notMem_name (kind : Kind) : '"' ∉ kind.name.toList := by
  cases kind with
  | of command => cases command <;> decide +kernel
  | reserved code high =>
      rw [toList_name_reserved, List.mem_append, List.mem_append]
      rintro (hmem | hmem | hmem)
      · simp at hmem
      · cases isNumeral_of_mem_repr hmem
      · simp at hmem

end Kind

namespace Instruction

variable {left right instruction : Instruction} {rest rest' : List Char}

/-- What an instruction must be for its line to tell all of it: a command is
behind it, and no jump is hidden. -/
structure Legible (instruction : Instruction) : Prop where
  isCommand : ∃ command, instruction.kind = .of command
  jump_eq : instruction.kind.isLoop = false → instruction.jump = 0

theorem legible_of_isLoop (hloop : instruction.kind.isLoop = true) :
    instruction.Legible := by
  constructor
  · obtain hkind | hkind := Kind.isLoop_iff.mp hloop
    · exact ⟨.openLoop, hkind⟩
    · exact ⟨.closeLoop, hkind⟩
  · intro hother
    rw [hloop] at hother
    cases hother

theorem eq_of_fields (hindex : left.index = right.index)
    (hkind : left.kind = right.kind) (htimes : left.times = right.times)
    (hjump : left.jump = right.jump) : left = right := by
  obtain ⟨index, kind, times, jump⟩ := left
  obtain ⟨index', kind', times', jump'⟩ := right
  dsimp only at hindex hkind htimes hjump
  rw [hindex, hkind, htimes, hjump]

theorem toList_line (instruction : Instruction) :
    instruction.line.toList =
      (toString instruction.index).toList ++ ':' :: ' ' ::
        instruction.kind.symbol :: 'x' ::
          ((toString instruction.times).toList ++
            (instruction.arrow.toList ++ ['\n'])) := by
  have htext : instruction.text =
      (toString instruction.index ++ ": ") ++
        String.singleton instruction.kind.symbol ++
          ("x" ++ toString instruction.times) ++ instruction.arrow := rfl
  simp [line, htext]

/-- Loops of one kind have the same mark before their jumps. -/
theorem exists_arrow_eq {kind : Kind} (hloop : kind.isLoop = true) :
    ∃ mark : List Char, ∀ instruction : Instruction, instruction.kind = kind →
      instruction.arrow.toList =
        ' ' :: (mark ++ (toString instruction.jump).toList) := by
  obtain rfl | rfl := Kind.isLoop_iff.mp hloop
  · refine ⟨['-', '>'], fun instruction hkind => ?_⟩
    have harrow : instruction.arrow = " ->" ++ toString instruction.jump := by
      rw [arrow, hkind]
      rfl
    simp [harrow]
  · refine ⟨['<', '-'], fun instruction hkind => ?_⟩
    have harrow : instruction.arrow = " <-" ++ toString instruction.jump := by
      rw [arrow, hkind]
      rfl
    simp [harrow]

theorem arrow_of_not_isLoop (hkind : instruction.kind.isLoop = false) :
    instruction.arrow.toList = [] := by
  unfold arrow
  split
  next hstart =>
    rw [hstart] at hkind
    cases hkind
  next hend =>
    rw [hend] at hkind
    cases hkind
  next => rfl

theorem ends_arrow (instruction : Instruction) (rest : List Char) :
    Ends isNumeral (instruction.arrow.toList ++ '\n' :: rest) := by
  cases hloop : instruction.kind.isLoop with
  | false =>
      rw [arrow_of_not_isLoop hloop, List.nil_append, ends_cons]
      rfl
  | true =>
      obtain ⟨mark, harrow⟩ := exists_arrow_eq hloop
      rw [harrow instruction rfl, List.cons_append, ends_cons]
      rfl

theorem arrow_append_inj (hleft : left.Legible) (hright : right.Legible)
    (hkind : left.kind = right.kind)
    (hsame : left.arrow.toList ++ '\n' :: rest =
      right.arrow.toList ++ '\n' :: rest') :
    left.jump = right.jump ∧ rest = rest' := by
  cases hloop : left.kind.isLoop with
  | false =>
      have hloop' : right.kind.isLoop = false := hkind ▸ hloop
      rw [arrow_of_not_isLoop hloop, arrow_of_not_isLoop hloop'] at hsame
      rw [hleft.jump_eq hloop, hright.jump_eq hloop']
      exact ⟨rfl, List.tail_eq_of_cons_eq hsame⟩
  | true =>
      obtain ⟨mark, harrow⟩ := exists_arrow_eq hloop
      rw [harrow left rfl, harrow right hkind.symm, List.cons_append,
        List.cons_append, List.append_assoc, List.append_assoc] at hsame
      obtain ⟨hjump, hrest⟩ := numeral_append_inj (ends_cons.mpr rfl)
        (ends_cons.mpr rfl)
        (List.append_cancel_left (List.tail_eq_of_cons_eq hsame))
      exact ⟨hjump, List.tail_eq_of_cons_eq hrest⟩

/-- A line is read from the left: the first number ends at the colon, then stand
the symbol and its mark, and the second number ends at the arrow or at the end of
the line. -/
theorem prefixFreeOn_line :
    PrefixFreeOn {instruction : Instruction | instruction.Legible}
      fun instruction => instruction.line.toList := by
  intro left hleft right hright rest rest' hsame
  simp only [toList_line, List.append_assoc, List.cons_append,
    List.nil_append] at hsame
  obtain ⟨hindex, hsame⟩ := numeral_append_inj (ends_cons.mpr rfl)
    (ends_cons.mpr rfl) hsame
  simp only [List.cons.injEq, true_and] at hsame
  obtain ⟨hsymbol, hsame⟩ := hsame
  have hkind : left.kind = right.kind := by
    obtain ⟨command, hcommand⟩ := hleft.isCommand
    obtain ⟨command', hcommand'⟩ := hright.isCommand
    rw [hcommand, hcommand'] at hsymbol ⊢
    rw [Command.symbol_injective hsymbol]
  obtain ⟨htimes, hsame⟩ := numeral_append_inj (left.ends_arrow rest)
    (right.ends_arrow rest') hsame
  obtain ⟨hjump, hrest⟩ := arrow_append_inj hleft hright hkind hsame
  exact ⟨eq_of_fields hindex hkind htimes hjump, hrest⟩

end Instruction

namespace Program

variable {sink : Sink} {program left right : Program}

theorem toList_text_writeText (hquota : sink.quota = none) (program : Program) :
    (writeText sink program).1.text.toList =
      sink.text.toList ++ program.flatMap fun instruction =>
        instruction.line.toList := by
  have hall : Sink.accepted none program.length = program.length := rfl
  rw [writeText_eq, hquota, hall, List.take_length, String.toList_append,
    String.toList_join, List.flatMap_map]

/-- Where every write is accepted, legible programs with the same text are the
same. -/
theorem injOn_text_writeText (hquota : sink.quota = none) :
    Set.InjOn (fun program => (writeText sink program).1.text)
      {program | ∀ instruction ∈ program, instruction.Legible} := by
  intro left hleft right hright hsame
  have hstop : ∀ instruction ∈ {instruction : Instruction |
      instruction.Legible}, ¬instruction.line.toList <+: [] := by
    intro instruction _ hnil
    rw [List.prefix_nil, Instruction.toList_line] at hnil
    simp at hnil
  have hchars := String.toList_inj.mpr hsame
  rw [toList_text_writeText hquota, toList_text_writeText hquota] at hchars
  apply Instruction.prefixFreeOn_line.flatMap_append_inj hstop hleft hright
  rw [List.append_cancel_left hchars]

theorem Parsed.legible (hparsed : Parsed program) {instruction : Instruction}
    (hmem : instruction ∈ program) : instruction.Legible := by
  obtain ⟨position, hget⟩ := List.mem_iff_getElem?.mp hmem
  refine ⟨hparsed.isCommand hmem, fun hloop => ?_⟩
  have hother : ¬instruction.kind.isLoop = true := by
    rw [hloop]
    exact Bool.false_ne_true
  rw [Kind.isLoop_iff, not_or] at hother
  exact (hparsed.matched position instruction hget).other hother.1 hother.2

/-- The commands of a source and its program determine each other. -/
theorem eq_iff_filtered_eq {source source' : Bytes}
    (hsize : source.length < 2 ^ 63) (hsize' : source'.length < 2 ^ 63)
    (hparse : parse source = .ok left) (hparse' : parse source' = .ok right) :
    left = right ↔ Source.filtered source = Source.filtered source' := by
  constructor
  · rintro rfl
    rw [Source.filtered, Source.filtered, ← commands_of_parse hsize hparse,
      ← commands_of_parse hsize' hparse']
  · intro hfiltered
    have hcommands := Source.commands_of_filtered hfiltered
    apply (parsed_of_parse hsize hparse).eq_of_commands
      (parsed_of_parse hsize' hparse')
    rw [commands_of_parse hsize hparse, commands_of_parse hsize' hparse',
      hcommands]

/-- Where every write is accepted, the text of a program is written whole and
tells legible programs apart.  So the texts of two parsed sources are equal when
the sources are, up to their comments, and only then. -/
theorem writeText_injective {sink : Sink} (hquota : sink.quota = none) :
    (∀ program : Program, (writeText sink program).2 = none) ∧
      Set.InjOn (fun program => (writeText sink program).1.text)
        {program | ∀ instruction ∈ program, instruction.Legible} ∧
      ∀ (source source' : Bytes) (program program' : Program),
        source.length < 2 ^ 63 → source'.length < 2 ^ 63 →
        parse source = .ok program → parse source' = .ok program' →
          ((writeText sink program).1.text =
              (writeText sink program').1.text ↔
            Source.filtered source = Source.filtered source') := by
  have hinjective := injOn_text_writeText hquota
  refine ⟨?_, hinjective, ?_⟩
  · intro program
    have hall : Sink.accepted none program.length = program.length := rfl
    rw [writeText_eq, hquota, hall, List.getElem?_length]
    rfl
  · intro source source' program program' hsize hsize' hparse hparse'
    rw [← eq_iff_filtered_eq hsize hsize' hparse hparse']
    exact hinjective.eq_iff (fun _ => (parsed_of_parse hsize hparse).legible)
      (fun _ => (parsed_of_parse hsize' hparse').legible)

/-- Two loops with negative numbers that differ in the last digit of the last
jump, and two sources that differ in a comment. -/
theorem writeText_injective_loops :
    (writeText .unlimited [⟨-1, .loopStart, 1, -12⟩, ⟨7, .loopEnd, -2, 30⟩]
        ).1.text ≠
      (writeText .unlimited [⟨-1, .loopStart, 1, -12⟩, ⟨7, .loopEnd, -2, 31⟩]
        ).1.text ∧
      ∃ program program' : Program,
        parse [91, 45, 93] = .ok program ∧
          parse [91, 0xE2, 45, 93] = .ok program' ∧
          (writeText .unlimited program).1.text =
            (writeText .unlimited program').1.text := by
  obtain ⟨-, hloops, hsources⟩ :=
    writeText_injective (show Sink.unlimited.quota = none from rfl)
  have hlegible (jump : Int64) : ∀ instruction ∈
      [⟨-1, .loopStart, 1, -12⟩, (⟨7, .loopEnd, -2, jump⟩ : Instruction)],
        instruction.Legible := by
    rw [List.forall_mem_cons, List.forall_mem_singleton]
    exact ⟨Instruction.legible_of_isLoop rfl, Instruction.legible_of_isLoop rfl⟩
  refine ⟨fun hsame => ?_, _, _, rfl, rfl, ?_⟩
  · have hequal := hloops (hlegible 30) (hlegible 31) hsame
    revert hequal
    decide
  · exact (hsources [91, 45, 93] [91, 0xE2, 45, 93] _ _ (by decide) (by decide)
      rfl rfl).mpr (by decide)

end Program

namespace Instruction

variable {left right : Instruction} {rest rest' : List Char}

/-- The member of a jump with the comma before it, and nothing for a jump of
`0`. -/
def jumpMember (instruction : Instruction) : List Char :=
  if instruction.jump = 0 then []
  else ',' :: ("\n    \"jump\": ".toList ++ (toString instruction.jump).toList)

theorem toList_indentedJson (instruction : Instruction) :
    instruction.indentedJson.toList =
      "  \x7b\n    \"index\": ".toList ++
        ((toString instruction.index).toList ++
          ',' :: ("\n    \"kind\": \"".toList ++ (instruction.kind.name.toList ++
            '"' :: (",\n    \"times\": ".toList ++
              ((toString instruction.times).toList ++
                (instruction.jumpMember ++ '\n' :: "  \x7d".toList)))))) := by
  by_cases hjump : instruction.jump = 0
  · simp [indentedJson, members, jumpMember, hjump, String.intercalate_cons_cons]
  · simp [indentedJson, members, jumpMember, hjump, String.intercalate_cons_cons]

theorem ends_jumpMember (instruction : Instruction) (rest : List Char) :
    Ends isNumeral (instruction.jumpMember ++ '\n' :: rest) := by
  rw [jumpMember]
  split
  · exact ends_cons.mpr rfl
  · exact ends_cons.mpr rfl

theorem jumpMember_append_inj
    (hsame : left.jumpMember ++ '\n' :: rest =
      right.jumpMember ++ '\n' :: rest') :
    left.jump = right.jump ∧ rest = rest' := by
  rw [jumpMember, jumpMember] at hsame
  by_cases hleft : left.jump = 0
  · by_cases hright : right.jump = 0
    · rw [if_pos hleft, if_pos hright] at hsame
      exact ⟨hleft.trans hright.symm, List.tail_eq_of_cons_eq hsame⟩
    · rw [if_pos hleft, if_neg hright] at hsame
      cases hsame
  · by_cases hright : right.jump = 0
    · rw [if_neg hleft, if_pos hright] at hsame
      cases hsame
    · rw [if_neg hleft, if_neg hright, List.cons_append, List.cons_append,
        List.append_assoc, List.append_assoc] at hsame
      obtain ⟨hjump, hrest⟩ := numeral_append_inj (ends_cons.mpr rfl)
        (ends_cons.mpr rfl)
        (List.append_cancel_left (List.tail_eq_of_cons_eq hsame))
      exact ⟨hjump, List.tail_eq_of_cons_eq hrest⟩

/-- An object is read from the left as well: its numbers end at a comma or at the
end of the line, and the name of the kind ends at its quote. -/
theorem prefixFreeOn_indentedJson :
    PrefixFreeOn Set.univ fun instruction : Instruction =>
      instruction.indentedJson.toList := by
  intro left _ right _ rest rest' hsame
  simp only [toList_indentedJson, List.append_assoc, List.cons_append] at hsame
  obtain ⟨hindex, hsame⟩ := numeral_append_inj (ends_cons.mpr rfl)
    (ends_cons.mpr rfl) (List.append_cancel_left hsame)
  obtain ⟨hname, hsame⟩ := append_mark_inj left.kind.quote_notMem_name
    right.kind.quote_notMem_name
    (List.append_cancel_left (List.tail_eq_of_cons_eq hsame))
  obtain ⟨htimes, hsame⟩ := numeral_append_inj
    (left.ends_jumpMember _) (right.ends_jumpMember _)
    (List.append_cancel_left hsame)
  obtain ⟨hjump, hrest⟩ := jumpMember_append_inj hsame
  have hkind := Kind.name_injective (String.toList_inj.mp hname)
  exact ⟨eq_of_fields hindex hkind htimes hjump, List.append_cancel_left hrest⟩

theorem jump_mem_members_iff (instruction : Instruction) :
    "jump" ∈ instruction.members.map Prod.fst ↔ instruction.jump ≠ 0 := by
  by_cases hjump : instruction.jump = 0
  · simp [members, hjump]
  · simp [members, hjump]

end Instruction

namespace Program

variable {program : Program} {position : ℕ} {instruction : Instruction}

theorem toList_json_cons (first : Instruction) (rest : Program) :
    (json (first :: rest)).toList =
      "[\n".toList ++ (first.indentedJson.toList ++
        ((rest.flatMap fun instruction =>
            ",\n".toList ++ instruction.indentedJson.toList) ++
          "\n]\n".toList)) := by
  simp [json, intercalate_cons, List.flatMap_map]

theorem json_nil_ne_cons (first : Instruction) (rest : Program) :
    json [] ≠ json (first :: rest) := by
  intro hsame
  have hchars := String.toList_inj.mpr hsame
  rw [toList_json_cons] at hchars
  simp [json] at hchars

/-- The objects behind the first one come with a comma before them, so the line
break that ends the list is not taken for another object. -/
theorem json_injective : Function.Injective json := by
  intro left right hsame
  cases left with
  | nil =>
      cases right with
      | nil => rfl
      | cons first rest => exact absurd hsame (json_nil_ne_cons first rest)
  | cons first rest =>
      cases right with
      | nil => exact absurd hsame.symm (json_nil_ne_cons first rest)
      | cons first' rest' =>
          have hobject := Instruction.prefixFreeOn_indentedJson
          have hstop : ∀ instruction ∈ (Set.univ : Set Instruction),
              ¬",\n".toList ++ instruction.indentedJson.toList <+:
                "\n]\n".toList := by
            simp
          have hchars := String.toList_inj.mpr hsame
          rw [toList_json_cons, toList_json_cons] at hchars
          obtain ⟨rfl, hlater⟩ := hobject first trivial first' trivial _ _
            (List.append_cancel_left hchars)
          rw [(hobject.append_left _).flatMap_append_inj hstop
            (fun _ _ => trivial) (fun _ _ => trivial) hlater]

/-- A loop that jumps to `0` would start the program and have nothing in it. -/
theorem Parsed.jump_ne_zero (hparsed : Parsed program)
    (hencoded : Encoded program) (hget : program[position]? = some instruction)
    (hloop : instruction.kind.isLoop = true) : instruction.jump ≠ 0 := by
  intro hzero
  obtain hkind | hkind := Kind.isLoop_iff.mp hloop
  · have hstart : position ∈ program.places .loopStart :=
      ⟨instruction, hget, hkind⟩
    have hone : program.loopEndOf position = 1 := by
      rw [loopEndOf, jumpAt_eq hget, hzero]
      rfl
    have hlt := hparsed.matched.lt_loopEndOf hencoded hstart
    have hend := hparsed.matched.loopEndOf_mem hencoded hstart
    rw [hone] at hlt hend
    -- so the loop takes up the first two places
    obtain rfl : position = 0 := by omega
    have hchain := (emptyLoopFree_commands hencoded.one_le_times
      hencoded.isCommand).mp hparsed.emptyLoopFree
    obtain ⟨finish, hfinish, hkind'⟩ := hend
    obtain _ | ⟨first, _ | ⟨second, rest⟩⟩ := program
    · cases hget
    · cases hfinish
    · cases hget
      cases hfinish
      exact (List.isChain_cons_cons.mp hchain).1 ⟨hkind, hkind'⟩
  · obtain ⟨_, run, -, -, hrun⟩ :=
      (hparsed.matched position instruction hget).finish hkind
    rw [hzero, Int64.toInt_zero] at hrun
    omega

theorem Parsed.jump_ne_zero_iff (hparsed : Parsed program)
    (hencoded : Encoded program) (hmem : instruction ∈ program) :
    instruction.jump ≠ 0 ↔
      instruction.kind = .loopStart ∨ instruction.kind = .loopEnd := by
  rw [← Kind.isLoop_iff]
  constructor
  · intro hjump
    by_contra hloop
    exact hjump ((hparsed.legible hmem).jump_eq
      (Bool.eq_false_of_not_eq_true hloop))
  · intro hloop
    obtain ⟨position, hget⟩ := List.mem_iff_getElem?.mp hmem
    exact hparsed.jump_ne_zero hencoded hget hloop

/-- Where a write is accepted, the JSON of a program is written whole and tells
any two programs apart.  In that of a parsed source the loops are just the
objects with a jump, while before the jumps are set no object has one. -/
theorem writeJson_injective :
    (∀ sink : Sink, sink.quota ≠ some 0 →
        (∀ program : Program, (writeJson sink program).2 = none) ∧
          Function.Injective fun program => (writeJson sink program).1.text) ∧
      (∀ (source : Bytes) (program : Program), source.length < 2 ^ 63 →
        parse source = .ok program → ∀ instruction ∈ program,
          ("jump" ∈ instruction.members.map Prod.fst ↔
            instruction.kind = .loopStart ∨ instruction.kind = .loopEnd)) ∧
      ∀ (source : Bytes) (program : Program), source.length < 2 ^ 63 →
        encode source = .ok program → ∀ instruction ∈ program,
          "jump" ∉ instruction.members.map Prod.fst := by
  refine ⟨?_, ?_, ?_⟩
  · intro sink hquota
    refine ⟨fun program => ?_, fun left right hsame => ?_⟩
    · rw [writeJson_eq, if_neg hquota]
    · dsimp only at hsame
      rw [writeJson_eq, writeJson_eq, if_neg hquota, if_neg hquota] at hsame
      have hchars := String.toList_inj.mpr hsame
      rw [String.toList_append, String.toList_append] at hchars
      exact json_injective (String.toList_inj.mp (List.append_cancel_left hchars))
  · intro source program hsize hparse instruction hmem
    rw [Instruction.jump_mem_members_iff]
    exact (parsed_of_parse hsize hparse).jump_ne_zero_iff
      (encoded_of_parse hsize hparse) hmem
  · intro source program hsize hencode instruction hmem
    obtain ⟨-, rfl⟩ := encode_eq_ok_iff.mp hencode
    have hlength := (Source.length_commands_le source).trans_lt hsize
    obtain ⟨_, hrun⟩ :=
      (RunLength.canonical_runs hlength).areRuns.isRun_of_mem hmem
    rw [Instruction.jump_mem_members_iff, not_not]
    exact hrun.jump_eq

/-- Two reserved kinds of which one name starts the other, and a loop at the
front of a program before and after its jump is set. -/
theorem writeJson_injective_loop :
    (writeJson .unlimited [⟨0, .ofCode 14, 1, 0⟩]).1.text ≠
        (writeJson .unlimited [⟨0, .ofCode 140, 1, 0⟩]).1.text ∧
      (∃ (program : Program) (start : Instruction),
        parse [91, 43, 93] = .ok program ∧ program[0]? = some start ∧
          "jump" ∈ start.members.map Prod.fst) ∧
      ∃ (program : Program) (start : Instruction),
        encode [91, 43, 93] = .ok program ∧ program[0]? = some start ∧
          "jump" ∉ start.members.map Prod.fst := by
  obtain ⟨hwritten, hparsed, hencoded⟩ := writeJson_injective
  refine ⟨fun hsame => ?_, ?_, ?_⟩
  · have hequal := (hwritten .unlimited (by decide)).2 hsame
    revert hequal
    decide
  · refine ⟨_, _, rfl, rfl, ?_⟩
    exact (hparsed [91, 43, 93] _ (by decide) rfl _ List.mem_cons_self).mpr
      (Or.inl rfl)
  · exact ⟨_, _, rfl, rfl,
      hencoded [91, 43, 93] _ (by decide) rfl _ List.mem_cons_self⟩

end Program

end BrainfuckFront
