import Mathlib
import BrainfuckFront.Proofs.Filtering
import BrainfuckFront.Proofs.Matching

/-!
# Concatenation of sources

A source that is cut in two parts which both parse is parsed part by part.  The
second program moves behind the first one, and where the two meet in the same
command their runs become one.  A loop never reaches over the cut: an accepted
program ends with no opening and starts with no closing bracket, so that the
runs which become one are no brackets, and the partner of a bracket lies in its
own part.
-/

namespace BrainfuckFront

open Brackets (Balanced Partners)

theorem EmptyLoopFree.append {left right : List Command}
    (hleft : EmptyLoopFree left) (hright : EmptyLoopFree right)
    (hbalanced : Balanced left) : EmptyLoopFree (left ++ right) := by
  refine List.isChain_append.mpr ⟨hleft, hright, ?_⟩
  intro last hlast first _ hloop
  exact hbalanced.getLast?_ne_openLoop (hloop.1 ▸ hlast)

namespace Instruction

/-- The instruction `distance` places further on. -/
def shift (distance : ℕ) (instruction : Instruction) : Instruction :=
  { instruction with
    index := instruction.index + Int64.ofNat distance
    jump :=
      if instruction.kind.isLoop then
        instruction.jump + Int64.ofNat distance
      else instruction.jump }

/-- One run in place of two, at the place of the first. -/
def merge (last first : Instruction) : Instruction :=
  { last with times := last.times + first.times }

variable {instruction last first : Instruction} {distance position : ℕ}

@[simp]
theorem shift_zero : instruction.shift 0 = instruction := by
  simp [shift]

@[simp]
theorem kind_merge : (last.merge first).kind = last.kind := rfl

theorem jump_shift_of_isLoop (hloop : instruction.kind.isLoop = true) :
    (instruction.shift distance).jump =
      instruction.jump + Int64.ofNat distance :=
  if_pos hloop

theorem jump_shift_of_not_isLoop (hloop : ¬instruction.kind.isLoop = true) :
    (instruction.shift distance).jump = instruction.jump :=
  if_neg hloop

theorem IsRun.shift (hrun : instruction.unlinked.IsRun position)
    (hbound : position + distance < 2 ^ 63) :
    (instruction.shift distance).unlinked.IsRun (distance + position) := by
  refine ⟨?_, hrun.one_le_times, rfl, hrun.isCommand⟩
  have hindex : instruction.index.toInt = position := hrun.index_eq
  have hsum := Words.toInt_add_ofNat (by omega : distance < 2 ^ 63)
    (show instruction.index.toInt + distance < 2 ^ 63 by omega)
  rw [unlinked, Instruction.shift, hsum, hindex]
  push_cast
  ring

section Merge

variable (hlast : 1 ≤ last.times) (hfirst : 1 ≤ first.times)
variable (hbound : last.count + first.count < 2 ^ 63)

include hlast hfirst hbound

theorem toInt_times_merge :
    (last.merge first).times.toInt = last.count + first.count := by
  have hleft := toInt_times hlast
  have hright := toInt_times hfirst
  rw [merge, Words.toInt_add (by omega) (by omega) (by omega), hleft, hright]

theorem count_merge : (last.merge first).count = last.count + first.count := by
  have htimes := toInt_times_merge hlast hfirst hbound
  rw [count, ← Int64.toNat_toInt, htimes]
  omega

theorem one_le_times_merge : 1 ≤ (last.merge first).times := by
  have htimes := toInt_times_merge hlast hfirst hbound
  have hcount := one_le_count hlast
  rw [Int64.le_iff_toInt_le, htimes, Int64.toInt_one]
  omega

theorem commands_merge (hkind : last.kind = first.kind) :
    (last.merge first).commands = last.commands ++ first.commands := by
  have hcount := count_merge hlast hfirst hbound
  cases hcommand : last.kind with
  | of command =>
      rw [commands_of_kind (show (last.merge first).kind = _ from hcommand),
        hcount, List.replicate_add, commands_of_kind hcommand,
        commands_of_kind (hkind ▸ hcommand)]
  | reserved code high =>
      simp [commands, hcommand, ← hkind]

end Merge

end Instruction

namespace Program

/-- The second program behind the first one, as one program. -/
def join (left right : Program) : Program :=
  match left.getLast?, right with
  | some last, first :: rest =>
      if last.kind = first.kind then
        left.dropLast ++
          last.merge first :: rest.map (.shift (left.length - 1))
      else left ++ right.map (.shift left.length)
  | _, _ => left ++ right.map (.shift left.length)

variable {left right initial rest : Program}
variable {last first : Instruction}

theorem join_merged (hkind : last.kind = first.kind) :
    join (initial ++ [last]) (first :: rest) =
      initial ++ last.merge first :: rest.map (.shift initial.length) := by
  simp [join, hkind]

theorem join_apart (hkind : ∀ last ∈ left.getLast?, ∀ first ∈ right.head?,
      last.kind ≠ first.kind) :
    join left right = left ++ right.map (.shift left.length) := by
  unfold join
  split
  · rename_i last first rest hlast
    rw [if_neg (hkind last hlast first rfl)]
  · rfl

/-- Two programs that meet in the same kind are seen with the two runs that
become one. -/
theorem join_cases (left right : Program) :
    (∃ initial last first rest, left = initial ++ [last] ∧
        right = first :: rest ∧ last.kind = first.kind) ∨
      ∀ last ∈ left.getLast?, ∀ first ∈ right.head?,
        last.kind ≠ first.kind := by
  rw [or_iff_not_imp_right]
  intro hmeet
  push Not at hmeet
  obtain ⟨last, hlast, first, hfirst, hkind⟩ := hmeet
  obtain ⟨initial, rfl⟩ := List.getLast?_eq_some_iff.mp hlast
  obtain ⟨rest, rfl⟩ := List.head?_eq_some_iff.mp hfirst
  exact ⟨initial, last, first, rest, rfl, rfl, hkind⟩

theorem commands_map_shift (distance : ℕ) (program : Program) :
    commands (program.map (.shift distance)) = commands program := by
  apply commands_congr
  rw [List.map_map]
  rfl

theorem offset_map_shift (distance : ℕ) (program : Program) (position : ℕ) :
    offset (program.map (.shift distance)) position =
      offset program position := by
  apply offset_congr
  rw [List.map_map]
  rfl

theorem offset_append_of_le {position : ℕ} (hle : position ≤ left.length) :
    offset (left ++ right) position = offset left position := by
  rw [offset, offset, List.take_append_of_le_length hle]

theorem offset_append_add (position : ℕ) :
    offset (left ++ right) (left.length + position) =
      size left + offset right position := by
  rw [offset, List.take_length_add_append, size_append, offset]

theorem forall_getElem?_append {P : ℕ → Instruction → Prop} :
    (∀ position instruction, (left ++ right)[position]? = some instruction →
        P position instruction) ↔
      (∀ position instruction, left[position]? = some instruction →
          P position instruction) ∧
        ∀ position instruction, right[position]? = some instruction →
          P (left.length + position) instruction := by
  constructor
  · intro hall
    constructor
    · intro position instruction hget
      apply hall
      rwa [List.getElem?_append_left (List.getElem?_eq_some_iff.mp hget).1]
    · intro position instruction hget
      apply hall
      rwa [List.getElem?_append_right (Nat.le_add_right _ _),
        Nat.add_sub_cancel_left]
  · rintro ⟨hleft, hright⟩ position instruction hget
    by_cases hlt : position < left.length
    · rw [List.getElem?_append_left hlt] at hget
      exact hleft position instruction hget
    · rw [List.getElem?_append_right (not_lt.mp hlt)] at hget
      have hplace := hright (position - left.length) instruction hget
      rwa [Nat.add_sub_cancel' (not_lt.mp hlt)] at hplace

theorem areRuns_append {base : ℕ} :
    AreRuns base (left ++ right) ↔
      AreRuns base left ∧ AreRuns (base + left.length) right := by
  rw [AreRuns, forall_getElem?_append]
  simp only [AreRuns, add_assoc]

theorem areRuns_map_shift {base distance : ℕ} {program : Program}
    (hruns : AreRuns base (program.map Instruction.unlinked))
    (hbound : base + program.length + distance ≤ 2 ^ 63) :
    AreRuns (distance + base)
      ((program.map (.shift distance)).map Instruction.unlinked) := by
  intro position instruction hget
  rw [List.getElem?_map, List.getElem?_map, Option.map_map,
    Option.map_eq_some_iff] at hget
  obtain ⟨original, hget, rfl⟩ := hget
  have hlt := (List.getElem?_eq_some_iff.mp hget).1
  have hrun := hruns position original.unlinked
    (by rw [List.getElem?_map, hget, Option.map_some])
  rw [add_assoc]
  exact hrun.shift (by omega)

/-- Whether neighbours differ can be seen from the kinds alone. -/
theorem kinds_differ_map_unlinked {program : Program} :
    ((program.map Instruction.unlinked).IsChain fun left right =>
        left.kind ≠ right.kind) ↔
      (program.map Instruction.kind).IsChain (· ≠ ·) := by
  rw [List.isChain_map, List.isChain_map]
  rfl

theorem map_kind_shift (distance : ℕ) (program : Program) :
    (program.map (.shift distance)).map Instruction.kind =
      program.map Instruction.kind := by
  rw [List.map_map]
  rfl

/-- The commands of `part` stand in `whole` from `place` on, in the runs from
`base` on.  A run of `whole` at the rim of `part` may hold more. -/
structure Embeds (part whole : Program) (base place : ℕ) : Prop where
  commands : ∃ front back,
    whole.commands = front ++ (part.commands ++ back) ∧ front.length = place
  offset_le : ∀ run < part.length,
    whole.offset (base + run) ≤ place + part.offset run
  le_offset : ∀ run < part.length,
    place + part.offset (run + 1) ≤ whole.offset (base + run + 1)
  offset_eq : ∀ (run : ℕ) (instruction : Instruction),
    part[run]? = some instruction → instruction.kind.isLoop = true →
      whole.offset (base + run) = place + part.offset run

namespace Embeds

variable {part whole : Program} {base place run offset : ℕ}

/-- A part whose runs are all kept as they are. -/
theorem of_offset_eq
    (hcommands : ∃ front back,
      whole.commands = front ++ (part.commands ++ back) ∧
        front.length = place)
    (hoffset : ∀ run ≤ part.length,
      whole.offset (base + run) = place + part.offset run) :
    Embeds part whole base place := by
  refine ⟨hcommands, ?_, ?_, ?_⟩
  · intro run hlt
    exact (hoffset run hlt.le).le
  · intro run hlt
    exact (hoffset (run + 1) hlt).ge
  · intro run instruction hget _
    exact hoffset run (List.getElem?_eq_some_iff.mp hget).1.le

theorem holds (hembeds : Embeds part whole base place)
    (hholds : part.Holds run offset) :
    whole.Holds (base + run) (place + offset) := by
  have hlt := hholds.run_lt_length
  have hlower := hembeds.offset_le run hlt
  have hupper := hembeds.le_offset run hlt
  obtain ⟨hle, hlt'⟩ := hholds
  constructor <;> omega

theorem partners {opening closing : ℕ}
    (hembeds : Embeds part whole base place)
    (hpartners : Partners part.commands opening closing) :
    Partners whole.commands (place + opening) (place + closing) := by
  obtain ⟨front, back, hcommands, rfl⟩ := hembeds.commands
  rw [hcommands]
  exact (hpartners.append_right back).append_left front

/-- Matching sees nothing but the own part, moved as a whole. -/
theorem jumpMatches {position : ℕ} {instruction : Instruction}
    (hembeds : Embeds part whole base place)
    (hlength : whole.length < 2 ^ 63) (hmatched : Matched part)
    (hget : part[position]? = some instruction) :
    whole.JumpMatches (base + position) (instruction.shift base) := by
  have hmatch := hmatched position instruction hget
  have hoffset := hembeds.offset_eq position instruction hget
  constructor
  · intro hkind
    have hloop : instruction.kind.isLoop = true :=
      Kind.isLoop_iff.mpr (.inl hkind)
    obtain ⟨closing, run, hpartners, hholds, hjump⟩ := hmatch.start hkind
    have hholds' := hembeds.holds hholds
    have hrun := hholds'.run_lt_length
    refine ⟨place + closing, base + run, ?_, hholds', ?_⟩
    · rw [hoffset hloop]
      exact hembeds.partners hpartners
    · rw [Instruction.jump_shift_of_isLoop hloop,
        Words.toInt_add_ofNat (by omega) (by omega)]
      push_cast
      omega
  · intro hkind
    have hloop : instruction.kind.isLoop = true :=
      Kind.isLoop_iff.mpr (.inr hkind)
    obtain ⟨opening, run, hpartners, hholds, hjump⟩ := hmatch.finish hkind
    have hholds' := hembeds.holds hholds
    have hrun := hholds'.run_lt_length
    refine ⟨place + opening, base + run, ?_, hholds', ?_⟩
    · rw [hoffset hloop]
      exact hembeds.partners hpartners
    · rw [Instruction.jump_shift_of_isLoop hloop,
        Words.toInt_add_ofNat (by omega) (by omega)]
      push_cast
      omega
  · intro hnstart hnend
    have hloop : ¬instruction.kind.isLoop = true := by
      rw [Kind.isLoop_iff, not_or]
      exact ⟨hnstart, hnend⟩
    rw [Instruction.jump_shift_of_not_isLoop hloop]
    exact hmatch.other hnstart hnend

end Embeds

section Seam

variable (hleft : Parsed left) (hright : Parsed right)

include hleft hright in
theorem length_add_length_lt (hsize : size left + size right < 2 ^ 63) :
    left.length + right.length < 2 ^ 63 := by
  have hlength := length_le_size fun _ => hleft.one_le_times
  have hlength' := length_le_size fun _ => hright.one_le_times
  omega

include hleft in
theorem Parsed.kind_getLast? (hlast : last ∈ left.getLast?) :
    last.kind ≠ .loopStart := by
  intro hkind
  have hcount := Instruction.one_le_count
    (hleft.one_le_times (List.mem_of_getLast? hlast))
  obtain ⟨initial, rfl⟩ := List.getLast?_eq_some_iff.mp hlast
  apply hleft.balanced.getLast?_ne_openLoop
  rw [commands_append, commands_cons, commands_nil, List.append_nil,
    Instruction.commands_of_kind hkind, List.getLast?_append,
    List.getLast?_replicate, if_neg (by omega), Option.some_or]

include hright in
theorem Parsed.kind_head? (hfirst : first ∈ right.head?) :
    first.kind ≠ .loopEnd := by
  intro hkind
  obtain ⟨rest, rfl⟩ := List.head?_eq_some_iff.mp hfirst
  have hhead := head?_commands (fun _ => hright.one_le_times)
    (fun _ => hright.isCommand)
  rw [List.head?_cons, Option.map_some, hkind,
    Option.map_eq_some_iff] at hhead
  obtain ⟨command, hcommand, hclose⟩ := hhead
  exact hright.balanced.head?_ne_closeLoop (Kind.of.inj hclose ▸ hcommand)

include hleft hright in
/-- Brackets never meet at the seam. -/
theorem not_isLoop_of_seam (hlast : last ∈ left.getLast?)
    (hfirst : first ∈ right.head?) (hkind : last.kind = first.kind) :
    ¬last.kind.isLoop = true := by
  rw [Kind.isLoop_iff, not_or]
  exact ⟨hleft.kind_getLast? hlast, hkind ▸ hright.kind_head? hfirst⟩

end Seam

theorem embeds_append_left (left right : Program) :
    Embeds left (left ++ right) 0 0 := by
  apply Embeds.of_offset_eq
  · exact ⟨[], commands right, commands_append left right, rfl⟩
  · intro run hle
    rw [zero_add, zero_add, offset_append_of_le hle]

theorem embeds_append_right (hleft : Parsed left) (right : Program) :
    Embeds right (left ++ right.map (.shift left.length)) left.length
      (size left) := by
  apply Embeds.of_offset_eq
  · refine ⟨commands left, [], ?_, hleft.length_commands⟩
    rw [commands_append, commands_map_shift, List.append_nil]
  · intro run _
    rw [offset_append_add, offset_map_shift]

section Apart

variable (hleft : Parsed left) (hright : Parsed right)
variable (hlength : left.length + right.length < 2 ^ 63)

include hleft hright hlength

theorem canonical_apart
    (hapart : ∀ last ∈ left.getLast?, ∀ first ∈ right.head?,
      last.kind ≠ first.kind) :
    Canonical ((left ++ right.map (Instruction.shift left.length)).map
      Instruction.unlinked) := by
  have hdiffer := kinds_differ_map_unlinked.mp hleft.canonical.kinds_differ
  have hdiffer' := kinds_differ_map_unlinked.mp hright.canonical.kinds_differ
  constructor
  · rw [List.map_append, areRuns_append, List.length_map, zero_add]
    exact ⟨hleft.canonical.areRuns,
      areRuns_map_shift hright.canonical.areRuns (by omega)⟩
  · rw [kinds_differ_map_unlinked, List.map_append, map_kind_shift]
    refine List.isChain_append.mpr ⟨hdiffer, hdiffer', ?_⟩
    intro kind hlast kind' hfirst
    rw [List.getLast?_map, Option.mem_map] at hlast
    rw [List.head?_map, Option.mem_map] at hfirst
    obtain ⟨last, hlast, rfl⟩ := hlast
    obtain ⟨first, hfirst, rfl⟩ := hfirst
    exact hapart last hlast first hfirst

theorem matched_apart :
    Matched (left ++ right.map (.shift left.length)) := by
  have hwhole : List.length (left ++ right.map (.shift left.length)) <
      2 ^ 63 := by
    rwa [List.length_append, List.length_map]
  refine forall_getElem?_append.mpr ⟨?_, ?_⟩
  · intro position instruction hget
    have hmatch := (embeds_append_left left _).jumpMatches hwhole
      hleft.matched hget
    rwa [zero_add, Instruction.shift_zero] at hmatch
  · intro position instruction hget
    rw [List.getElem?_map, Option.map_eq_some_iff] at hget
    obtain ⟨original, hget, rfl⟩ := hget
    exact (embeds_append_right hleft right).jumpMatches hwhole
      hright.matched hget

end Apart

section Merged

variable (hleft : Parsed (initial ++ [last])) (hright : Parsed (first :: rest))
variable (hkind : last.kind = first.kind)
variable (hsize : size (initial ++ [last]) + size (first :: rest) < 2 ^ 63)

include hleft hright hsize

theorem times_of_seam : 1 ≤ last.times ∧ 1 ≤ first.times ∧
    last.count + first.count < 2 ^ 63 := by
  refine ⟨hleft.one_le_times (by simp), hright.one_le_times (by simp), ?_⟩
  rw [size_append, size_cons, size_cons] at hsize
  omega

include hkind

theorem commands_merged :
    commands (initial ++ last.merge first ::
        rest.map (.shift initial.length)) =
      commands (initial ++ [last]) ++ commands (first :: rest) := by
  obtain ⟨hlast, hfirst, hbound⟩ := times_of_seam hleft hright hsize
  rw [commands_append, commands_cons, commands_map_shift,
    Instruction.commands_merge hlast hfirst hbound hkind]
  simp

theorem embeds_merged_left :
    Embeds (initial ++ [last])
      (initial ++ last.merge first :: rest.map (.shift initial.length))
      0 0 := by
  have hoffset : ∀ run ≤ initial.length,
      offset (initial ++ last.merge first ::
          rest.map (.shift initial.length)) (0 + run) =
        0 + offset (initial ++ [last]) run := by
    intro run hle
    rw [zero_add, zero_add, offset_append_of_le hle, offset_append_of_le hle]
  have hlength : (initial ++ [last]).length = initial.length + 1 := by simp
  refine ⟨⟨[], commands (first :: rest), ?_, rfl⟩, ?_, ?_, ?_⟩
  · exact commands_merged hleft hright hkind hsize
  · intro run hlt
    exact (hoffset run (by omega)).le
  · intro run hlt
    obtain hlt' | rfl := (show run ≤ initial.length by omega).lt_or_eq
    · exact (hoffset (run + 1) hlt').ge
    · obtain ⟨hlast, hfirst, hbound⟩ := times_of_seam hleft hright hsize
      have hcount := Instruction.count_merge hlast hfirst hbound
      rw [zero_add, zero_add, offset_append_length_succ,
        offset_append_length_succ]
      omega
  · intro run instruction hget _
    have hlt := (List.getElem?_eq_some_iff.mp hget).1
    exact hoffset run (by omega)

theorem embeds_merged_right :
    Embeds (first :: rest)
      (initial ++ last.merge first :: rest.map (.shift initial.length))
      initial.length (size (initial ++ [last])) := by
  obtain ⟨hlast, hfirst, hbound⟩ := times_of_seam hleft hright hsize
  have hcount := Instruction.count_merge hlast hfirst hbound
  have hoffset : ∀ run,
      offset (initial ++ last.merge first ::
          rest.map (.shift initial.length)) (initial.length + (run + 1)) =
        size (initial ++ [last]) + offset (first :: rest) (run + 1) := by
    intro run
    rw [offset_append_add, offset_cons_succ, offset_cons_succ,
      offset_map_shift, size_append, size_cons, size_nil]
    omega
  refine ⟨⟨commands (initial ++ [last]), [], ?_, hleft.length_commands⟩,
    ?_, ?_, ?_⟩
  · rw [List.append_nil]
    exact commands_merged hleft hright hkind hsize
  · intro run _
    cases run with
    | zero =>
        rw [add_zero, offset_append_length, size_append]
        omega
    | succ run => exact (hoffset run).le
  · intro run _
    exact (hoffset run).ge
  · intro run instruction hget hloop
    cases run with
    | zero =>
        rw [List.getElem?_cons_zero, Option.some.injEq] at hget
        rw [← hget, ← hkind] at hloop
        exact absurd hloop (not_isLoop_of_seam hleft hright (by simp)
          (by simp) hkind)
    | succ run => exact hoffset run

theorem canonical_merged :
    Canonical ((initial ++ last.merge first ::
      rest.map (.shift initial.length)).map Instruction.unlinked) := by
  obtain ⟨hlast, hfirst, hbound⟩ := times_of_seam hleft hright hsize
  have hlength := length_add_length_lt hleft hright hsize
  rw [List.length_append, List.length_cons, List.length_cons] at hlength
  have hdiffer := kinds_differ_map_unlinked.mp hleft.canonical.kinds_differ
  have hdiffer' := kinds_differ_map_unlinked.mp hright.canonical.kinds_differ
  constructor
  · have hruns := hleft.canonical.areRuns
    have hruns' := hright.canonical.areRuns
    rw [List.map_append, areRuns_append] at hruns
    rw [List.map_cons, areRuns_cons] at hruns'
    obtain ⟨hinitial, hruns⟩ := hruns
    have hrun := (areRuns_cons.mp hruns).1
    rw [List.map_append, areRuns_append, List.map_cons, areRuns_cons]
    refine ⟨hinitial, ⟨hrun.index_eq,
      Instruction.one_le_times_merge hlast hfirst hbound, rfl,
      hrun.isCommand⟩, ?_⟩
    rw [List.length_map, add_right_comm, add_comm]
    exact areRuns_map_shift hruns'.2 (by omega)
  · rw [kinds_differ_map_unlinked, List.map_append, List.map_cons,
      map_kind_shift, List.isChain_split, Instruction.kind_merge]
    rw [List.map_append] at hdiffer
    rw [List.map_cons, ← hkind] at hdiffer'
    exact ⟨hdiffer, hdiffer'⟩

theorem matched_merged :
    Matched (initial ++ last.merge first ::
      rest.map (.shift initial.length)) := by
  have hlength := length_add_length_lt hleft hright hsize
  have hwhole : List.length (initial ++ last.merge first ::
      rest.map (.shift initial.length)) < 2 ^ 63 := by
    simp only [List.length_append, List.length_cons, List.length_map,
      List.length_nil] at hlength ⊢
    omega
  have hseam : ¬last.kind.isLoop = true :=
    not_isLoop_of_seam hleft hright (by simp) (by simp) hkind
  rw [Kind.isLoop_iff, not_or] at hseam
  refine forall_getElem?_append.mpr ⟨?_, ?_⟩
  · intro position instruction hget
    have hmatch := (embeds_merged_left hleft hright hkind hsize).jumpMatches
      hwhole hleft.matched (by rwa [List.getElem?_append_left
        (List.getElem?_eq_some_iff.mp hget).1])
    rwa [zero_add, Instruction.shift_zero] at hmatch
  · intro position instruction hget
    cases position with
    | zero =>
        rw [List.getElem?_cons_zero, Option.some.injEq] at hget
        subst hget
        refine ⟨fun hstart => absurd hstart hseam.1,
          fun hend => absurd hend hseam.2, ?_⟩
        exact (hleft.matched initial.length last (by simp)).other
    | succ position =>
        rw [List.getElem?_cons_succ, List.getElem?_map,
          Option.map_eq_some_iff] at hget
        obtain ⟨original, hget, rfl⟩ := hget
        exact (embeds_merged_right hleft hright hkind hsize).jumpMatches
          hwhole hright.matched (by rwa [List.getElem?_cons_succ])

end Merged

section Join

variable (hleft : Parsed left) (hright : Parsed right)
variable (hsize : size left + size right < 2 ^ 63)

include hleft hright hsize

theorem commands_join :
    commands (join left right) = commands left ++ commands right := by
  obtain ⟨initial, last, first, rest, rfl, rfl, hkind⟩ | hapart :=
    join_cases left right
  · rw [join_merged hkind]
    exact commands_merged hleft hright hkind hsize
  · rw [join_apart hapart, commands_append, commands_map_shift]

theorem parsed_join : Parsed (join left right) := by
  have hcommands := commands_join hleft hright hsize
  have hbalanced := hleft.balanced.append hright.balanced
  have hfree := hleft.emptyLoopFree.append hright.emptyLoopFree hleft.balanced
  rw [← hcommands] at hbalanced hfree
  obtain ⟨initial, last, first, rest, rfl, rfl, hkind⟩ | hapart :=
    join_cases left right
  · rw [join_merged hkind] at hbalanced hfree ⊢
    exact ⟨hbalanced, hfree, canonical_merged hleft hright hkind hsize,
      matched_merged hleft hright hkind hsize⟩
  · have hlength := length_add_length_lt hleft hright hsize
    rw [join_apart hapart] at hbalanced hfree ⊢
    exact ⟨hbalanced, hfree, canonical_apart hleft hright hlength hapart,
      matched_apart hleft hright hlength⟩

end Join

/-- Joining sets no jump of the first program anew. -/
theorem exists_getElem?_join {position : ℕ} {instruction : Instruction}
    (right : Program) (hget : left[position]? = some instruction) :
    ∃ kept, (join left right)[position]? = some kept ∧
      kept.jump = instruction.jump := by
  obtain ⟨initial, last, first, rest, rfl, rfl, hkind⟩ | hapart :=
    join_cases left right
  · rw [join_merged hkind]
    by_cases hlt : position < initial.length
    · rw [List.getElem?_append_left hlt] at hget ⊢
      exact ⟨instruction, hget, rfl⟩
    · rw [List.getElem?_append_right (not_lt.mp hlt)] at hget ⊢
      have hplace : position - initial.length = 0 := by
        have hlt' := (List.getElem?_eq_some_iff.mp hget).1
        rw [List.length_singleton] at hlt'
        omega
      rw [hplace, List.getElem?_cons_zero, Option.some.injEq] at hget
      rw [hplace, List.getElem?_cons_zero, ← hget]
      exact ⟨last.merge first, rfl, rfl⟩
  · rw [join_apart hapart, List.getElem?_append_left
      (List.getElem?_eq_some_iff.mp hget).1]
    exact ⟨instruction, hget, rfl⟩

/-- Sources that parse can be put one after the other: the result is the second
program joined to the first.  No brackets meet at the seam, and the first
program keeps its jumps. -/
theorem parse_append {front back : Bytes}
    (hsize : front.length + back.length < 2 ^ 63)
    (hleft : parse front = .ok left) (hright : parse back = .ok right) :
    parse (front ++ back) = .ok (join left right) ∧
      (∀ last ∈ left.getLast?, ∀ first ∈ right.head?,
        last.kind = first.kind → last.kind.isLoop = false) ∧
      ∀ (position : ℕ) (instruction : Instruction),
        left[position]? = some instruction →
          ∃ kept, (join left right)[position]? = some kept ∧
            kept.jump = instruction.jump := by
  have hparsed := parsed_of_parse (by omega) hleft
  have hparsed' := parsed_of_parse (by omega) hright
  have hcommands := commands_of_parse (by omega) hleft
  have hcommands' := commands_of_parse (by omega) hright
  have hbound : size left + size right < 2 ^ 63 := by
    have hle := Source.length_commands_le front
    have hle' := Source.length_commands_le back
    rw [← hparsed.length_commands, ← hparsed'.length_commands, hcommands,
      hcommands']
    omega
  refine ⟨?_, ?_, fun _ _ => exists_getElem?_join right⟩
  · rw [parse_eq_ok_iff_parsed (by rwa [List.length_append]),
      commands_join hparsed hparsed' hbound, Source.commands_append,
      hcommands, hcommands']
    exact ⟨parsed_join hparsed hparsed' hbound, rfl⟩
  · intro last hlast first hfirst hkind
    rw [← Bool.not_eq_true]
    exact not_isLoop_of_seam hparsed hparsed' hlast hfirst hkind

/-- The cut goes through a character of two bytes, and one run through the
cut. -/
theorem parse_append_split_character :
    ∃ left right : Program,
      parse [91, 45, 93, 43, 0xC3] = .ok left ∧
        parse [0xA9, 43, 91, 45, 93] = .ok right ∧
        parse ([91, 45, 93, 43, 0xC3] ++ [0xA9, 43, 91, 45, 93]) =
          .ok (join left right) ∧
        join left right =
          [⟨0, .loopStart, 1, 1⟩, ⟨1, .of .decrement, 1, 0⟩,
            ⟨2, .loopEnd, 1, 1⟩, ⟨3, .of .increment, 2, 0⟩,
            ⟨4, .loopStart, 1, 5⟩, ⟨5, .of .decrement, 1, 0⟩,
            ⟨6, .loopEnd, 1, 5⟩] := by
  have hleft : parse [91, 45, 93, 43, 0xC3] = .ok
      [⟨0, .loopStart, 1, 1⟩, ⟨1, .of .decrement, 1, 0⟩,
        ⟨2, .loopEnd, 1, 1⟩, ⟨3, .of .increment, 1, 0⟩] := rfl
  have hright : parse [0xA9, 43, 91, 45, 93] = .ok
      [⟨0, .of .increment, 1, 0⟩, ⟨1, .loopStart, 1, 2⟩,
        ⟨2, .of .decrement, 1, 0⟩, ⟨3, .loopEnd, 1, 2⟩] := rfl
  exact ⟨_, _, hleft, hright, (parse_append (by decide) hleft hright).1, rfl⟩

end Program

end BrainfuckFront
