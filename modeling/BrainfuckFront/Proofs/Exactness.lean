import Mathlib
import BrainfuckFront.Proofs.Recording

/-!
# Exactness

No number that parsing or tallying forms leaves the range from zero to the
number of commands.  So over words every number is the one of the computation
over the integers.  Each run pays for what a search adds to its depth, and the
end of a loop itself pays for the one loop that the search to the left starts
with.
-/

namespace BrainfuckFront

namespace Counted

def toInts (counted : Counted Int64) : Counted ℤ where
  index := counted.index.toInt
  kind := counted.kind
  times := counted.times.toInt
  jump := counted.jump.toInt

end Counted

namespace Stop

def toInts : Stop Int64 → Stop ℤ
  | mismatch offset instruction unexpected =>
      mismatch offset.toInt instruction.toInt unexpected
  | noLoopEnd place => noLoopEnd place.toInt
  | noLoopStart place => noLoopStart place.toInt
  | emptyLoop offset instruction =>
      emptyLoop offset.toInt instruction.toInt

end Stop

namespace Program

/-- All instructions are runs, and together they stand for at most `bound`
commands. -/
structure Within (bound : ℕ) (program : Program) : Prop where
  one_le_times : ∀ instruction ∈ program, 1 ≤ instruction.times
  size_le : size program ≤ bound

namespace Within

variable {bound : ℕ} {program other : Program}

theorem length_le (hwithin : Within bound program) : program.length ≤ bound :=
  (length_le_size hwithin.one_le_times).trans hwithin.size_le

theorem reverse (hwithin : Within bound program) :
    Within bound program.reverse where
  one_le_times := by simpa using hwithin.one_le_times
  size_le := by simpa [size_reverse] using hwithin.size_le

theorem sublist (hwithin : Within bound program)
    (hsublist : other.Sublist program) : Within bound other where
  one_le_times := fun instruction hmem =>
    hwithin.one_le_times instruction (hsublist.subset hmem)
  size_le :=
    ((hsublist.map Instruction.count).sum_le_sum
      fun _ _ => Nat.zero_le _).trans hwithin.size_le

theorem of_map_bare (hwithin : Within bound program)
    (hbare : other.map Instruction.bare = program.map Instruction.bare) :
    Within bound other where
  one_le_times := by
    intro instruction hmem
    have hmem' : instruction.bare ∈ program.map Instruction.bare :=
      hbare ▸ List.mem_map_of_mem hmem
    obtain ⟨original, horiginal, hsame⟩ := List.mem_map.mp hmem'
    have htimes := congrArg Instruction.times hsame
    change 1 ≤ instruction.bare.times
    rw [← htimes]
    exact hwithin.one_le_times original horiginal
  size_le := by
    rw [← size_map_bare, hbare, size_map_bare]
    exact hwithin.size_le

end Within

theorem within_runs {word : List Command} (hlength : word.length < 2 ^ 63) :
    Within word.length (RunLength.runs word) where
  one_le_times := by
    intro instruction hmem
    obtain ⟨_, hrun⟩ :=
      (RunLength.canonical_runs hlength).areRuns.isRun_of_mem hmem
    exact hrun.one_le_times
  size_le := (size_runs hlength).le

theorem within_of_parse {source : Bytes} {program : Program}
    (hsize : source.length < 2 ^ 63) (hparse : parse source = .ok program) :
    Within (Source.commands source).length program := by
  have hlength := Source.length_commands_le source
  have hlinked := Jumps.linked_of_resolve (parse_eq_ok_iff.mp hparse).2
  exact (within_runs (hlength.trans_lt hsize)).of_map_bare hlinked.map_bare

end Program

/-- A computation over words forms the numbers of one over the integers, all of
them from zero to `bound`, and its value, seen through `view`, is the same. -/
structure Exact {A B : Type} (bound : ℕ) (view : A → B)
    (words : Recorded Int64 A) (integers : Recorded ℤ B) : Prop where
  value_eq : integers.value = view words.value
  formed_eq : integers.formed = words.formed.map Int64.toInt
  formed_le : ∀ word ∈ words.formed, 0 ≤ word.toInt ∧ word.toInt ≤ bound

namespace Exact

variable {A B C D : Type} {bound : ℕ} {view : A → B} {view' : C → D}
variable {words : Recorded Int64 A} {integers : Recorded ℤ B}

theorem pure {value : A} {value' : B} (hvalue : value' = view value) :
    Exact bound view (.pure value) (.pure value') :=
  ⟨hvalue, rfl, by simp [Recorded.pure]⟩

theorem map {next : A → C} {next' : B → D}
    (hexact : Exact bound view words integers)
    (hnext : next' (view words.value) = view' (next words.value)) :
    Exact bound view' (words.map next) (integers.map next') := by
  refine ⟨?_, hexact.formed_eq, hexact.formed_le⟩
  rw [Recorded.value_map, Recorded.value_map, hexact.value_eq, hnext]

theorem bind {next : A → Recorded Int64 C} {next' : B → Recorded ℤ D}
    (hexact : Exact bound view words integers)
    (hnext : Exact bound view' (next words.value)
      (next' (view words.value))) :
    Exact bound view' (words.bind next) (integers.bind next') := by
  rw [← hexact.value_eq] at hnext
  refine ⟨hnext.value_eq, ?_, ?_⟩
  · simp [Recorded.bind, hexact.formed_eq, hnext.formed_eq]
  · exact List.forall_mem_append.mpr ⟨hexact.formed_le, hnext.formed_le⟩

end Exact

namespace Arithmetic

open Counted
open Program (size size_cons length_le_size)

variable {bound position : ℕ} {word left right depth : Int64}

theorem exact_formed {number : ℤ} (hword : word.toInt = number)
    (hnonneg : 0 ≤ number) (hle : number ≤ bound) :
    Exact bound Int64.toInt ⟨word, [word]⟩ ⟨number, [number]⟩ := by
  refine ⟨hword.symm, by simp [hword], ?_⟩
  simp only [List.mem_singleton, forall_eq, hword]
  exact ⟨hnonneg, hle⟩

theorem exact_difference (left right : Int64) (hright : 0 ≤ right.toInt)
    (hright_le : right.toInt ≤ left.toInt) (hleft_le : left.toInt ≤ bound) :
    Exact bound Int64.toInt (words.difference left right)
      (integers.difference left.toInt right.toInt) := by
  have hle : left.toInt - right.toInt ≤ bound := by omega
  refine exact_formed ?_ (Int.sub_nonneg_of_le hright_le) hle
  exact Int64.toInt_sub_of_le _ _
    (by rwa [Int64.le_iff_toInt_le]) (by rwa [Int64.le_iff_toInt_le])

theorem exact_sub_one (word : Int64) (hword : 1 ≤ word.toInt)
    (hle : word.toInt ≤ bound) :
    Exact bound Int64.toInt (words.difference word (words.ofNat 1))
      (integers.difference word.toInt (integers.ofNat 1)) :=
  exact_difference word (words.ofNat 1) (by decide) hword hle

/-- Both computations take the same branch where a depth is compared with
zero. -/
theorem exact_ite_zero {A B : Type} {view : A → B}
    {found other : Recorded Int64 A} {found' other' : Recorded ℤ B}
    (hfound : Exact bound view found found')
    (hother : Exact bound view other other') :
    Exact bound view (if depth = words.ofNat 0 then found else other)
      (if depth.toInt = integers.ofNat 0 then found' else other') := by
  have hzero_iff : depth = words.ofNat 0 ↔ depth.toInt = integers.ofNat 0 :=
    Words.eq_zero_iff
  by_cases hzero : depth.toInt = integers.ofNat 0
  · rw [if_pos (hzero_iff.mpr hzero), if_pos hzero]
    exact hfound
  · rw [if_neg (mt hzero_iff.mp hzero), if_neg hzero]
    exact hother

theorem exact_cons {counted : Counted Int64} {counted' : Counted ℤ}
    {rest : Recorded Int64 (Except (Stop Int64) (List (Counted Int64)))}
    {rest' : Recorded ℤ (Except (Stop ℤ) (List (Counted ℤ)))}
    (hcounted : counted' = counted.toInts)
    (hrest : Exact bound (mapResult Stop.toInts (List.map toInts)) rest
      rest') :
    Exact bound (mapResult Stop.toInts (List.map toInts))
      (rest.map (consOk counted)) (rest'.map (consOk counted')) := by
  refine hrest.map ?_
  rw [hcounted]
  cases rest.value with
  | error stop => rfl
  | ok program => rfl

theorem closing?_bounds {counted : Counted Int64}
    {program : List (Counted Int64)} {found : ℕ}
    (hfirst : 1 ≤ counted.toInstruction.times)
    (htimes : ∀ instruction ∈ toProgram program, 1 ≤ instruction.times)
    (hsize : counted.toInstruction.count + size (toProgram program) < 2 ^ 63)
    (hfound : (words.closing? counted.times position program).value =
      some found) :
    position ≤ found ∧ found < position + size (toProgram program) := by
  have hlength := length_le_size htimes
  rw [value_closing?] at hfound
  obtain ⟨hnone, -⟩ | ⟨inner, finish, outer, hsplit, hsome, -⟩ :=
    Jumps.closing?_cases hfirst htimes hsize
  · rw [times_toInstruction, hfound] at hnone
    cases hnone
  · rw [times_toInstruction, hfound, Option.some.injEq] at hsome
    rw [hsplit, List.length_append, List.length_cons, ← hsplit] at hlength
    omega

theorem opening?_lt_length {before : List (Counted Int64)} {found : ℕ}
    (hfound : (words.opening? depth before).value = some found) :
    found < before.length := by
  rw [value_opening?] at hfound
  rw [← length_toProgram]
  exact Jumps.lt_length_of_opening? hfound

theorem toExcept_eq_ok {resolution : Jumps.Resolution}
    {instructions : Program}
    (hresolution : resolution.toExcept = .ok instructions) :
    instructions = resolution.instructions := by
  rcases resolution with ⟨resolved, _ | failure⟩
  · cases hresolution
    rfl
  · cases hresolution

theorem map_bare_of_resolveStarts {program started : List (Counted Int64)}
    (hvalue : (words.resolveStarts 0 program).value = .ok started) :
    (toProgram started).map Instruction.bare =
      (toProgram program).map Instruction.bare := by
  have hstarts := value_resolveStarts 0 program
  obtain ⟨stop, hsettled, -⟩ := Jumps.settled_pass .loopStart
    Jumps.startTarget [] (toProgram program)
  rw [hvalue] at hstarts
  rw [← Jumps.resolveStarts_eq_pass] at hsettled
  rw [toExcept_eq_ok hstarts.symm]
  exact hsettled.map_bare

theorem runIndex_le {commands : List Command} {offset : ℕ}
    (hoffset : offset < commands.length) :
    runIndex commands offset ≤ offset := by
  cases commands with
  | nil => exact Nat.zero_le offset
  | cons command rest => exact RunLength.changes_le (Nat.le_of_lt_succ hoffset)

variable (hbound : bound < 2 ^ 63)
include hbound

theorem exact_number {number : ℕ} (hle : number ≤ bound) :
    Exact bound Int64.toInt (words.number number)
      (integers.number number) :=
  exact_formed (Int64.toInt_ofNat_of_lt (hle.trans_lt hbound))
    (Int.natCast_nonneg number) (Int.ofNat_le.mpr hle)

theorem exact_sum (left right : Int64) (hleft : 0 ≤ left.toInt)
    (hright : 0 ≤ right.toInt) (hle : left.toInt + right.toInt ≤ bound) :
    Exact bound Int64.toInt (words.sum left right)
      (integers.sum left.toInt right.toInt) :=
  exact_formed (Words.toInt_add hleft hright (by omega))
    (Int.add_nonneg hleft hright) hle

theorem exact_add_one (word : Int64) (hword : 0 ≤ word.toInt)
    (hle : word.toInt + 1 ≤ bound) :
    (words.sum word (words.ofNat 1)).value.toInt = word.toInt + 1 ∧
      Exact bound Int64.toInt (words.sum word (words.ofNat 1))
        (integers.sum word.toInt (integers.ofNat 1)) := by
  have hsum := exact_sum hbound word (words.ofNat 1) hword (by decide) hle
  exact ⟨hsum.value_eq.symm, hsum⟩

theorem exact_saturatingSub (hleft_le : left.toInt ≤ bound)
    (hright : 0 ≤ right.toInt) :
    Exact bound Int64.toInt (words.saturatingSub left right)
      (integers.saturatingSub left.toInt right.toInt) := by
  have hle_eq : words.le left right = integers.le left.toInt right.toInt :=
    decide_eq_decide.mpr Int64.le_iff_toInt_le
  rw [saturatingSub, saturatingSub, hle_eq]
  by_cases hle : integers.le left.toInt right.toInt = true
  · rw [if_pos hle, if_pos hle]
    exact exact_number hbound (Nat.zero_le bound)
  · have hlt : ¬left.toInt ≤ right.toInt := mt decide_eq_true hle
    rw [if_neg hle, if_neg hle]
    exact exact_difference left right hright (by omega) hleft_le

variable {counted : Counted Int64} {program before : List (Counted Int64)}

theorem exact_add_times (htimes : 1 ≤ counted.toInstruction.times)
    (hdepth : 0 ≤ depth.toInt)
    (hle : depth.toInt + counted.toInstruction.count ≤ bound) :
    (words.sum depth counted.times).value.toInt =
        depth.toInt + counted.toInstruction.count ∧
      Exact bound Int64.toInt (words.sum depth counted.times)
        (integers.sum depth.toInt counted.toInts.times) := by
  have hcount := Instruction.toInt_times htimes
  rw [times_toInstruction] at hcount
  have hsum := exact_sum hbound depth counted.times hdepth (by omega)
    (by omega)
  refine ⟨?_, hsum⟩
  rw [← hcount]
  exact hsum.value_eq.symm

theorem exact_sub_times (htimes : 1 ≤ counted.toInstruction.times)
    (hdepth : 0 ≤ depth.toInt) (hle : depth.toInt ≤ bound) :
    0 ≤ (words.saturatingSub depth counted.times).value.toInt ∧
      (words.saturatingSub depth counted.times).value.toInt ≤ depth.toInt ∧
      Exact bound Int64.toInt (words.saturatingSub depth counted.times)
        (integers.saturatingSub depth.toInt counted.toInts.times) := by
  have hcount := Instruction.toInt_times htimes
  rw [times_toInstruction] at hcount
  have hnonneg : 0 ≤ counted.times.toInt := by omega
  have hvalue : (words.saturatingSub depth counted.times).value.toInt =
      max 0 (depth.toInt - counted.times.toInt) := by
    rw [value_saturatingSub, Words.toInt_saturatingSub hnonneg]
  exact ⟨by omega, by omega, exact_saturatingSub hbound hle hnonneg⟩

/-- Every run before the current one has taken a command, so there is room for the
index that a command forms.  A repeat takes one command from the word, and a new
run takes one for its index and leaves at least one behind. -/
theorem exact_runsFrom {current : Counted Int64} {word : List Command}
    (hindex : 0 ≤ current.index.toInt) (htimes : 1 ≤ current.times.toInt)
    (hle : current.index.toInt + current.times.toInt + word.length ≤ bound) :
    Exact bound (List.map toInts) (words.runsFrom current word)
      (integers.runsFrom current.toInts word) := by
  induction word generalizing current with
  | nil => exact .pure rfl
  | cons command word ih =>
      rw [List.length_cons] at hle
      push_cast at hle
      obtain ⟨hnext, hsum⟩ := exact_add_one hbound current.index hindex
        (by omega)
      rw [runsFrom, runsFrom]
      refine hsum.bind ?_
      by_cases hkind : current.kind = .of command
      · obtain ⟨hvalue, hrepeat⟩ := exact_add_one hbound current.times
          (by omega) (by omega)
        rw [if_pos hkind, if_pos (by exact hkind)]
        refine hrepeat.bind (ih hindex ?_ ?_)
        · dsimp only
          omega
        · dsimp only
          omega
      · have hone : (words.ofNat 1).toInt = 1 := rfl
        rw [if_neg hkind, if_neg (by exact hkind)]
        refine (ih ?_ hone.ge ?_).map rfl
        · dsimp only [single]
          omega
        · dsimp only [single]
          omega

theorem exact_runs {word : List Command} (hle : word.length ≤ bound) :
    Exact bound (List.map toInts) (words.runs word) (integers.runs word) := by
  cases word with
  | nil => exact .pure rfl
  | cons command word =>
      have hzero : (words.number 0).value.toInt = 0 := rfl
      have hone : (words.ofNat 1).toInt = 1 := rfl
      rw [List.length_cons] at hle
      rw [runs, runs]
      refine (exact_number hbound (Nat.zero_le bound)).bind
        (exact_runsFrom hbound hzero.ge hone.ge ?_)
      dsimp only [single]
      omega

theorem exact_total (hwithin : (toProgram program).Within bound) :
    Exact bound Int64.toInt (words.total program)
      (integers.total (program.map toInts)) := by
  obtain ⟨htimes, hle⟩ := hwithin
  suffices hfrom : ∀ sum : Int64, 0 ≤ sum.toInt →
      sum.toInt + size (toProgram program) ≤ bound →
        Exact bound Int64.toInt (words.totalFrom sum program)
          (integers.totalFrom sum.toInt (program.map toInts)) by
    exact hfrom 0 (by decide) (by rw [Int64.toInt_zero]; omega)
  clear hle
  induction program with
  | nil => exact fun _ _ _ => .pure rfl
  | cons counted program ih =>
      obtain ⟨hfirst, hrest⟩ := List.forall_mem_cons.mp htimes
      intro sum hsum hle
      rw [toProgram_cons, size_cons] at hle
      push_cast at hle
      obtain ⟨hvalue, hnext⟩ := exact_add_times hbound hfirst hsum (by omega)
      exact hnext.bind (ih hrest _ (by omega) (by omega))

theorem exact_closing? (hdepth : 0 ≤ depth.toInt)
    (htimes : ∀ instruction ∈ toProgram program, 1 ≤ instruction.times)
    (hle : depth.toInt + size (toProgram program) ≤ bound) :
    Exact bound id (words.closing? depth position program)
      (integers.closing? depth.toInt position (program.map toInts)) := by
  induction program generalizing depth position with
  | nil => exact .pure rfl
  | cons counted program ih =>
      obtain ⟨hfirst, hrest⟩ := List.forall_mem_cons.mp htimes
      rw [toProgram_cons, size_cons] at hle
      push_cast at hle
      rw [closing?, List.map_cons, closing?, toInts]
      dsimp only
      split
      next =>
          obtain ⟨hvalue, hsum⟩ := exact_add_times hbound hfirst hdepth
            (by omega)
          exact hsum.bind (ih (by omega) hrest (by omega))
      next =>
          obtain ⟨hnonneg, hsub_le, hsub⟩ := exact_sub_times hbound hfirst
            hdepth (by omega)
          exact hsub.bind
            (exact_ite_zero (.pure rfl) (ih hnonneg hrest (by omega)))
      next => exact ih hdepth hrest (by omega)

theorem exact_opening? (hdepth : 0 ≤ depth.toInt)
    (htimes : ∀ instruction ∈ toProgram before, 1 ≤ instruction.times)
    (hle : depth.toInt + size (toProgram before) ≤ bound) :
    Exact bound id (words.opening? depth before)
      (integers.opening? depth.toInt (before.map toInts)) := by
  induction before generalizing depth with
  | nil => exact .pure rfl
  | cons counted before ih =>
      obtain ⟨hfirst, hbefore⟩ := List.forall_mem_cons.mp htimes
      rw [toProgram_cons, size_cons] at hle
      push_cast at hle
      rw [opening?, List.map_cons, opening?, toInts, List.length_map]
      dsimp only
      split
      next =>
          obtain ⟨hvalue, hsum⟩ := exact_add_times hbound hfirst hdepth
            (by omega)
          exact hsum.bind (ih (by omega) hbefore (by omega))
      next =>
          obtain ⟨hnonneg, hsub_le, hsub⟩ := exact_sub_times hbound hfirst
            hdepth (by omega)
          exact hsub.bind
            (exact_ite_zero (.pure rfl) (ih hnonneg hbefore (by omega)))
      next => exact ih hdepth hbefore (by omega)

theorem exact_resolveStarts
    (htimes : ∀ instruction ∈ toProgram program, 1 ≤ instruction.times)
    (hle : position + size (toProgram program) ≤ bound) :
    Exact bound (mapResult Stop.toInts (List.map toInts))
      (words.resolveStarts position program)
      (integers.resolveStarts position (program.map toInts)) := by
  induction program generalizing position with
  | nil => exact .pure rfl
  | cons counted program ih =>
      obtain ⟨hfirst, hrest⟩ := List.forall_mem_cons.mp htimes
      have hcount := Instruction.toInt_times hfirst
      have hpos := Instruction.one_le_count hfirst
      rw [times_toInstruction] at hcount
      rw [toProgram_cons, size_cons] at hle
      rw [resolveStarts, List.map_cons, resolveStarts]
      by_cases hkind : counted.kind = .loopStart
      · rw [if_pos hkind, if_pos (by exact hkind)]
        refine (exact_closing? hbound (by omega) hrest (by omega)).bind ?_
        dsimp only [id]
        cases hfound : (words.closing? counted.times (position + 1)
            program).value with
        | none => exact (exact_number hbound (by omega)).map rfl
        | some found =>
            obtain ⟨hlow, hhigh⟩ :=
              closing?_bounds hfirst hrest (by omega) hfound
            have hnumber := exact_number hbound (show found ≤ bound by omega)
            have hvalue : (found : ℤ) = (words.number found).value.toInt :=
              hnumber.value_eq
            exact hnumber.bind ((exact_sub_one _ (by omega) (by omega)).bind
              (exact_cons rfl (ih hrest (by omega))))
      · rw [if_neg hkind, if_neg (by exact hkind)]
        exact exact_cons rfl (ih hrest (by omega))

theorem exact_emptyLoop (hwithin : (toProgram before).Within bound) :
    Exact bound Stop.toInts (words.emptyLoop before)
      (integers.emptyLoop (before.map toInts)) := by
  have hlength := hwithin.length_le
  rw [length_toProgram] at hlength
  rw [emptyLoop, emptyLoop, ← List.map_reverse, List.length_map]
  refine (exact_total hbound ?_).bind ((exact_number hbound hlength).map rfl)
  rw [toProgram_reverse]
  exact hwithin.reverse

theorem exact_resolveEnds
    (hbefore : ∀ instruction ∈ toProgram before, 1 ≤ instruction.times)
    (htimes : ∀ instruction ∈ toProgram program, 1 ≤ instruction.times)
    (hle : size (toProgram before) + size (toProgram program) ≤ bound) :
    Exact bound (mapResult Stop.toInts (List.map toInts))
      (words.resolveEnds before program)
      (integers.resolveEnds (before.map toInts) (program.map toInts)) := by
  induction program generalizing before with
  | nil => exact .pure rfl
  | cons counted program ih =>
      obtain ⟨hfirst, hrest⟩ := List.forall_mem_cons.mp htimes
      have hpos := Instruction.one_le_count hfirst
      have hlength := length_le_size hbefore
      rw [length_toProgram] at hlength
      rw [toProgram_cons, size_cons] at hle
      have hnext (jump : Int64) :
          Exact bound (mapResult Stop.toInts (List.map toInts))
            (words.resolveEnds ({ counted with jump } :: before) program)
            (integers.resolveEnds
              ({ counted with jump }.toInts :: before.map toInts)
              (program.map toInts)) := by
        refine ih (List.forall_mem_cons.mpr ⟨hfirst, hbefore⟩) hrest ?_
        rw [toProgram_cons, size_cons]
        change counted.toInstruction.count + size (toProgram before) + _ ≤ _
        omega
      rw [resolveEnds, List.map_cons, resolveEnds]
      by_cases hkind : counted.kind = .loopEnd
      · rw [if_pos hkind, if_pos (by exact hkind)]
        -- The depth starts at one, for which this end of a loop has the room.
        have hone : (words.ofNat 1).toInt = 1 := rfl
        refine (exact_opening? hbound (by omega) hbefore (by omega)).bind ?_
        dsimp only [id]
        cases hfound : (words.opening? (words.ofNat 1) before).value with
        | none =>
            rw [List.length_map]
            exact (exact_number hbound (by omega)).map rfl
        | some found =>
            have hlt := opening?_lt_length hfound
            dsimp only
            rw [List.length_map]
            by_cases hempty : before.length = found + 1
            · rw [if_pos hempty, if_pos hempty]
              exact (exact_emptyLoop hbound ⟨hbefore, by omega⟩).map rfl
            · rw [if_neg hempty, if_neg hempty]
              have hnumber := exact_number hbound (show found ≤ bound by omega)
              have hvalue : (found : ℤ) = (words.number found).value.toInt :=
                hnumber.value_eq
              obtain ⟨-, hsum⟩ := exact_add_one hbound
                (words.number found).value (by omega) (by omega)
              exact hnumber.bind (hsum.bind (exact_cons rfl (hnext _)))
      · rw [if_neg hkind, if_neg (by exact hkind)]
        exact exact_cons rfl (hnext counted.jump)

theorem exact_resolve (hwithin : (toProgram program).Within bound) :
    Exact bound (mapResult Stop.toInts (List.map toInts))
      (words.resolve program) (integers.resolve (program.map toInts)) := by
  refine (exact_resolveStarts hbound hwithin.one_le_times
    (by simpa using hwithin.size_le)).bind ?_
  cases hvalue : (words.resolveStarts 0 program).value with
  | error stop => exact .pure rfl
  | ok started =>
      have hstarted := hwithin.of_map_bare (map_bare_of_resolveStarts hvalue)
      exact exact_resolveEnds hbound (List.forall_mem_nil _)
        hstarted.one_le_times ((Nat.zero_add _).trans_le hstarted.size_le)

/-- What is counted so far for a kind leaves room for all that is to come. -/
theorem exact_countsFrom {counts : FiniteMap Kind Int64}
    (htimes : ∀ instruction ∈ toProgram program, 1 ≤ instruction.times)
    (hcounts : ∀ kind, 0 ≤ ((counts.get? kind).getD 0).toInt ∧
      ((counts.get? kind).getD 0).toInt + size (toProgram program) ≤ bound) :
    Exact bound (FiniteMap.mapValues Int64.toInt)
      (words.countsFrom counts program)
      (integers.countsFrom (counts.mapValues Int64.toInt)
        (program.map toInts)) := by
  induction program generalizing counts with
  | nil => exact .pure rfl
  | cons counted program ih =>
      obtain ⟨hfirst, hrest⟩ := List.forall_mem_cons.mp htimes
      have hpos := Instruction.one_le_count hfirst
      rw [toProgram_cons, size_cons] at hcounts
      push_cast at hcounts
      obtain ⟨hnonneg, hle⟩ := hcounts counted.kind
      obtain ⟨hvalue, hsum⟩ := exact_add_times hbound hfirst hnonneg
        (by omega)
      have hcount : ((counts.mapValues Int64.toInt).get? counted.kind).getD
          (integers.ofNat 0) =
            ((counts.get? counted.kind).getD 0).toInt := by
        rw [FiniteMap.get?_mapValues]
        exact Option.getD_map Int64.toInt 0 _
      rw [countsFrom, List.map_cons, countsFrom]
      dsimp only [toInts]
      rw [hcount]
      refine hsum.bind ?_
      rw [← FiniteMap.mapValues_insert]
      refine ih hrest ?_
      intro kind
      rw [FiniteMap.get?_insert]
      by_cases hkind : kind = counted.kind
      · rw [if_pos hkind, Option.getD_some]
        omega
      · obtain ⟨hother, hother_le⟩ := hcounts kind
        rw [if_neg hkind]
        omega

theorem exact_tally (hwithin : (toProgram program).Within bound) :
    Exact bound (List.map (Prod.map id Int64.toInt)) (words.tally program)
      (integers.tally (program.map toInts)) := by
  have hsize := hwithin.size_le
  refine (exact_countsFrom hbound hwithin.one_le_times ?_).map ?_
  · intro kind
    rw [FiniteMap.get?_empty, Option.getD_none, Int64.toInt_zero]
    omega
  · exact FiniteMap.entriesBy_mapValues Kind.all

omit hbound

theorem exact_parse {commands : List Command}
    (hlength : commands.length < 2 ^ 63) :
    Exact commands.length (mapResult Stop.toInts (List.map toInts))
      (words.parse commands) (integers.parse commands) := by
  refine (exact_runs hlength le_rfl).bind ?_
  cases hmismatch : Brackets.mismatch? commands with
  | none =>
      refine exact_resolve hlength ?_
      rw [value_runs]
      exact Program.within_runs hlength
  | some mismatch =>
      have hoffset := (Brackets.mismatch?_location hmismatch).1
      have hindex := runIndex_le hoffset
      exact (exact_number hlength hoffset.le).bind
        ((exact_number hlength (by omega)).map rfl)

/-- The view of a program with its tally over the integers. -/
def talliedToInts :
    List (Counted Int64) × List (Kind × Int64) →
      List (Counted ℤ) × List (Kind × ℤ) :=
  Prod.map (List.map toInts) (List.map (Prod.map id Int64.toInt))

theorem exact_parseAndTally {source : Bytes}
    (hsize : source.length < 2 ^ 63) :
    Exact (Source.commands source).length
      (mapResult Stop.toInts talliedToInts)
      (words.parseAndTally (Source.commands source))
      (integers.parseAndTally (Source.commands source)) := by
  have hlength := (Source.length_commands_le source).trans_lt hsize
  have hparse := value_parse hsize
  refine (exact_parse hlength).bind ?_
  cases hvalue : (words.parse (Source.commands source)).value with
  | error stop => exact .pure rfl
  | ok program =>
      rw [hvalue] at hparse
      exact (exact_tally hlength
        (Program.within_of_parse hsize hparse.symm)).map rfl

/-- Over words parsing and tallying are the program.  The numbers they form are
those of the same computation over the integers, one by one, and none of them is
negative or greater than the number of commands. -/
theorem parseAndTally_exact {source : Bytes}
    (hsize : source.length < 2 ^ 63) :
    toResult (Prod.map toProgram id)
        (words.parseAndTally (Source.commands source)).value =
      (Program.parse source).map (fun program => (program, program.tally)) ∧
    mapResult Stop.toInts talliedToInts
        (words.parseAndTally (Source.commands source)).value =
      (integers.parseAndTally (Source.commands source)).value ∧
    (words.parseAndTally (Source.commands source)).formed.map Int64.toInt =
      (integers.parseAndTally (Source.commands source)).formed ∧
    ∀ word ∈ (words.parseAndTally (Source.commands source)).formed,
      0 ≤ word.toInt ∧ word.toInt ≤ (Source.commands source).length := by
  have hexact := exact_parseAndTally hsize
  exact ⟨value_parseAndTally hsize, hexact.value_eq.symm,
    hexact.formed_eq.symm, hexact.formed_le⟩

/-- Two loops inside a third, the first of which starts with it.  The record has
the runs, the jumps of the starts, the jumps of the ends and the tally. -/
theorem parseAndTally_exact_nested :
    (∃ program,
      Program.parse [91, 91, 43, 93, 45, 91, 43, 93, 60, 93] = .ok program) ∧
      (words.parseAndTally (Source.commands [91, 91, 43, 93, 45, 91, 43, 93,
        60, 93])).formed.map Int64.toInt =
          [0, 1, 2, 1, 2, 3, 4, 5, 6, 7, 8] ++
          [1, 2, 1, 0, 8, 7, 0, 6, 5] ++
          [0, 0, 1, 0, 4, 5, 2, 1, 2, 0, 0, 1] ++
          [2, 1, 1, 1, 3, 2, 2, 1, 3] := by
  have hsize : ([91, 91, 43, 93, 45, 91, 43, 93, 60, 93] : Bytes).length <
      2 ^ 63 := by decide
  obtain ⟨-, -, hformed, -⟩ := parseAndTally_exact hsize
  exact ⟨⟨_, rfl⟩, hformed.trans (by decide)⟩

end Arithmetic

end BrainfuckFront
