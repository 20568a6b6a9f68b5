import Mathlib
import BrainfuckFront.Proofs.Maps
import BrainfuckFront.Proofs.Mismatches

/-!
# Recording the numbers of a computation

Parsing and tallying, written for any arithmetic and with a record of every
number that is formed on the way.  Over 64-bit words this is what the program
does.  Over the integers it is the same computation without bounds.
-/

namespace BrainfuckFront

/-- A value and the numbers that were formed to get it, the earliest first. -/
structure Recorded (N A : Type) where
  value : A
  formed : List N

namespace Recorded

variable {N A B : Type}

def pure (value : A) : Recorded N A := ⟨value, []⟩

def bind (first : Recorded N A) (next : A → Recorded N B) : Recorded N B :=
  ⟨(next first.value).value, first.formed ++ (next first.value).formed⟩

def map (view : A → B) (recorded : Recorded N A) : Recorded N B :=
  ⟨view recorded.value, recorded.formed⟩

@[simp]
theorem value_bind (first : Recorded N A) (next : A → Recorded N B) :
    (first.bind next).value = (next first.value).value := rfl

@[simp]
theorem value_map (view : A → B) (recorded : Recorded N A) :
    (recorded.map view).value = view recorded.value := rfl

end Recorded

/-- How a computation forms and compares its numbers. -/
structure Arithmetic (N : Type) where
  ofNat : ℕ → N
  add : N → N → N
  sub : N → N → N
  le : N → N → Bool

/-- An instruction over any numbers. -/
structure Counted (N : Type) where
  index : N
  kind : Kind
  times : N
  jump : N

/-- Why there is no program, over any numbers. -/
inductive Stop (N : Type) where
  | mismatch (offset instruction : N) (unexpected : Bool)
  | noLoopEnd (place : N)
  | noLoopStart (place : N)
  | emptyLoop (offset instruction : N)

/-- Says a result in other terms. -/
def mapResult {E E' A B : Type} (stop : E → E') (view : A → B) :
    Except E A → Except E' B
  | .error error => .error (stop error)
  | .ok value => .ok (view value)

namespace Arithmetic

def words : Arithmetic Int64 where
  ofNat := Int64.ofNat
  add := (· + ·)
  sub := (· - ·)
  le left right := decide (left ≤ right)

def integers : Arithmetic ℤ where
  ofNat := Nat.cast
  add := (· + ·)
  sub := (· - ·)
  le left right := decide (left ≤ right)

variable {N : Type} [DecidableEq N] (numbers : Arithmetic N)

/-! Every number but the constants zero and one is formed by these three. -/

def number (natural : ℕ) : Recorded N N :=
  ⟨numbers.ofNat natural, [numbers.ofNat natural]⟩

def sum (left right : N) : Recorded N N :=
  ⟨numbers.add left right, [numbers.add left right]⟩

def difference (left right : N) : Recorded N N :=
  ⟨numbers.sub left right, [numbers.sub left right]⟩

def saturatingSub (left right : N) : Recorded N N :=
  if numbers.le left right then numbers.number 0
  else numbers.difference left right

def single (index : N) (command : Command) : Counted N :=
  { index, kind := .of command, times := numbers.ofNat 1
    jump := numbers.ofNat 0 }

/-- The index of a new run is formed for every command, also for one that then
only repeats the run before it. -/
def runsFrom (current : Counted N) :
    List Command → Recorded N (List (Counted N))
  | [] => .pure [current]
  | command :: rest =>
      (numbers.sum current.index (numbers.ofNat 1)).bind fun index =>
        if current.kind = .of command then
          (numbers.sum current.times (numbers.ofNat 1)).bind fun times =>
            runsFrom { current with times } rest
        else
          (runsFrom (numbers.single index command) rest).map (current :: ·)

def runs : List Command → Recorded N (List (Counted N))
  | [] => .pure []
  | command :: rest =>
      (numbers.number 0).bind fun index =>
        numbers.runsFrom (numbers.single index command) rest

def totalFrom (sum : N) : List (Counted N) → Recorded N N
  | [] => .pure sum
  | counted :: rest =>
      (numbers.sum sum counted.times).bind fun sum => totalFrom sum rest

def total (program : List (Counted N)) : Recorded N N :=
  numbers.totalFrom (numbers.ofNat 0) program

def closing? (depth : N) (position : ℕ) :
    List (Counted N) → Recorded N (Option ℕ)
  | [] => .pure none
  | counted :: rest =>
      match counted.kind with
      | .loopStart =>
          (numbers.sum depth counted.times).bind fun depth =>
            closing? depth (position + 1) rest
      | .loopEnd =>
          (numbers.saturatingSub depth counted.times).bind fun depth =>
            if depth = numbers.ofNat 0 then .pure (some position)
            else closing? depth (position + 1) rest
      | _ => closing? depth (position + 1) rest

def opening? (depth : N) : List (Counted N) → Recorded N (Option ℕ)
  | [] => .pure none
  | counted :: rest =>
      match counted.kind with
      | .loopEnd =>
          (numbers.sum depth counted.times).bind fun depth =>
            opening? depth rest
      | .loopStart =>
          (numbers.saturatingSub depth counted.times).bind fun depth =>
            if depth = numbers.ofNat 0 then .pure (some rest.length)
            else opening? depth rest
      | _ => opening? depth rest

/-- Puts an instruction in front of a program, if there is one. -/
def consOk (counted : Counted N) :
    Except (Stop N) (List (Counted N)) → Except (Stop N) (List (Counted N)) :=
  Except.map (counted :: ·)

def resolveStarts (position : ℕ) :
    List (Counted N) → Recorded N (Except (Stop N) (List (Counted N)))
  | [] => .pure (.ok [])
  | counted :: rest =>
      if counted.kind = .loopStart then
        (numbers.closing? counted.times (position + 1) rest).bind fun
          | none =>
              (numbers.number position).map fun place =>
                .error (.noLoopEnd place)
          | some found =>
              (numbers.number found).bind fun found =>
                (numbers.difference found (numbers.ofNat 1)).bind fun jump =>
                  (resolveStarts (position + 1) rest).map
                    (consOk { counted with jump })
      else (resolveStarts (position + 1) rest).map (consOk counted)

def emptyLoop (before : List (Counted N)) : Recorded N (Stop N) :=
  (numbers.total before.reverse).bind fun offset =>
    (numbers.number before.length).map fun instruction =>
      .emptyLoop offset instruction

def resolveEnds (before : List (Counted N)) :
    List (Counted N) → Recorded N (Except (Stop N) (List (Counted N)))
  | [] => .pure (.ok [])
  | counted :: rest =>
      if counted.kind = .loopEnd then
        (numbers.opening? (numbers.ofNat 1) before).bind fun
          | none =>
              (numbers.number before.length).map fun place =>
                .error (.noLoopStart place)
          | some found =>
              if before.length = found + 1 then
                (numbers.emptyLoop before).map .error
              else
                (numbers.number found).bind fun found =>
                  (numbers.sum found (numbers.ofNat 1)).bind fun jump =>
                    (resolveEnds ({ counted with jump } :: before) rest).map
                      (consOk { counted with jump })
      else (resolveEnds (counted :: before) rest).map (consOk counted)

def resolve (program : List (Counted N)) :
    Recorded N (Except (Stop N) (List (Counted N))) :=
  (numbers.resolveStarts 0 program).bind fun
    | .error stop => .pure (.error stop)
    | .ok started => numbers.resolveEnds [] started

/-- The number of runs before the one that holds the command at `offset`. -/
def runIndex (commands : List Command) (offset : ℕ) : ℕ :=
  match commands with
  | [] => 0
  | command :: rest => RunLength.changes command offset rest

/-- The runs are formed whether the brackets match or not. -/
def parse (commands : List Command) :
    Recorded N (Except (Stop N) (List (Counted N))) :=
  (numbers.runs commands).bind fun program =>
    match Brackets.mismatch? commands with
    | none => numbers.resolve program
    | some mismatch =>
        (numbers.number mismatch.offset).bind fun offset =>
          (numbers.number (runIndex commands mismatch.offset)).map
            fun instruction =>
              .error (.mismatch offset instruction mismatch.unexpected)

def countsFrom (counts : FiniteMap Kind N) :
    List (Counted N) → Recorded N (FiniteMap Kind N)
  | [] => .pure counts
  | counted :: rest =>
      let count := (counts.get? counted.kind).getD (numbers.ofNat 0)
      (numbers.sum count counted.times).bind fun count =>
        countsFrom (counts.insert counted.kind count) rest

def tally (program : List (Counted N)) : Recorded N (List (Kind × N)) :=
  (numbers.countsFrom .empty program).map fun counts =>
    counts.entriesBy Kind.all

/-- Parses commands and tallies the program, if there is one. -/
def parseAndTally (commands : List Command) :
    Recorded N (Except (Stop N) (List (Counted N) × List (Kind × N))) :=
  (numbers.parse commands).bind fun
    | .error stop => .pure (.error stop)
    | .ok program => (numbers.tally program).map fun tally =>
        .ok (program, tally)

end Arithmetic

/-! ## Over words -/

namespace Counted

def toInstruction (counted : Counted Int64) : Instruction where
  index := counted.index
  kind := counted.kind
  times := counted.times
  jump := counted.jump

/-- The program that counted instructions over words stand for. -/
def toProgram (program : List (Counted Int64)) : Program :=
  program.map toInstruction

@[simp]
theorem kind_toInstruction (counted : Counted Int64) :
    counted.toInstruction.kind = counted.kind := rfl

@[simp]
theorem times_toInstruction (counted : Counted Int64) :
    counted.toInstruction.times = counted.times := rfl

@[simp]
theorem toProgram_cons (counted : Counted Int64)
    (program : List (Counted Int64)) :
    toProgram (counted :: program) =
      counted.toInstruction :: toProgram program := rfl

theorem toProgram_reverse (program : List (Counted Int64)) :
    toProgram program.reverse = (toProgram program).reverse :=
  List.map_reverse

@[simp]
theorem length_toProgram (program : List (Counted Int64)) :
    (toProgram program).length = program.length :=
  List.length_map _

end Counted

namespace Stop

def toFailure : Stop Int64 → Failure
  | mismatch offset instruction unexpected =>
      .parse { fault := .unclosedBrackets, offset, instruction, unexpected }
  | noLoopEnd place => .noLoopEnd place
  | noLoopStart place => .noLoopStart place
  | emptyLoop offset instruction =>
      .parse { fault := .infiniteLoop, offset, instruction, unexpected := false }

end Stop

namespace Arithmetic

open Counted

variable {current : Counted Int64} {before : List (Counted Int64)}

/-- A result over words as the program reports it. -/
abbrev toResult {A B : Type} (view : A → B) :
    Except (Stop Int64) A → Except Failure B :=
  mapResult Stop.toFailure view

theorem value_saturatingSub (left right : Int64) :
    (words.saturatingSub left right).value = Jumps.saturatingSub left right := by
  rw [saturatingSub, Jumps.saturatingSub]
  by_cases hle : left ≤ right
  · rw [if_pos hle, if_pos (by simpa [words] using hle)]
    rfl
  · rw [if_neg hle, if_neg (by simpa [words] using hle)]
    rfl

theorem value_runsFrom (word : List Command) :
    toProgram (words.runsFrom current word).value =
      RunLength.runsFrom current.toInstruction word := by
  induction word generalizing current with
  | nil => rfl
  | cons command word ih =>
      rw [runsFrom, RunLength.runsFrom, Recorded.value_bind]
      by_cases hkind : current.kind = .of command
      · rw [if_pos hkind, if_pos (by exact hkind), Recorded.value_bind, ih]
        rfl
      · rw [if_neg hkind, if_neg (by exact hkind), Recorded.value_map]
        exact congrArg _ ih

theorem value_runs (word : List Command) :
    toProgram (words.runs word).value = RunLength.runs word := by
  cases word with
  | nil => rfl
  | cons command word => exact value_runsFrom word

theorem value_total (program : List (Counted Int64)) :
    (words.total program).value = RunLength.total (toProgram program) := by
  suffices hfrom : ∀ sum, (words.totalFrom sum program).value =
      (toProgram program).foldl
        (fun sum instruction => sum + instruction.times) sum from hfrom 0
  induction program with
  | nil => exact fun _ => rfl
  | cons counted program ih => exact fun _ => ih _

theorem value_closing? {depth : Int64} {position : ℕ}
    (program : List (Counted Int64)) :
    (words.closing? depth position program).value =
      Jumps.closing? depth position (toProgram program) := by
  induction program generalizing depth position with
  | nil => rfl
  | cons counted program ih =>
      rw [closing?, toProgram_cons, Jumps.closing?, kind_toInstruction]
      cases counted.kind with
      | reserved code high => exact ih
      | of command =>
          cases command with
          | openLoop => exact ih
          | closeLoop =>
              dsimp only
              rw [Recorded.value_bind, value_saturatingSub,
                apply_ite Recorded.value, ih]
              rfl
          | _ => exact ih

theorem value_opening? {depth : Int64} (before : List (Counted Int64)) :
    (words.opening? depth before).value =
      Jumps.opening? depth (toProgram before) := by
  induction before generalizing depth with
  | nil => rfl
  | cons counted before ih =>
      rw [opening?, toProgram_cons, Jumps.opening?, kind_toInstruction]
      cases counted.kind with
      | reserved code high => exact ih
      | of command =>
          cases command with
          | closeLoop => exact ih
          | openLoop =>
              dsimp only
              rw [Recorded.value_bind, value_saturatingSub,
                apply_ite Recorded.value, ih, length_toProgram]
              rfl
          | _ => exact ih

theorem toExcept_cons (instruction : Instruction)
    (resolution : Jumps.Resolution) :
    (resolution.cons instruction).toExcept =
      resolution.toExcept.map (instruction :: ·) := by
  rcases resolution with ⟨instructions, _ | failure⟩
  · rfl
  · rfl

theorem toResult_consOk (counted : Counted Int64)
    (result : Except (Stop Int64) (List (Counted Int64))) :
    toResult toProgram (consOk counted result) =
      (toResult toProgram result).map (counted.toInstruction :: ·) := by
  cases result with
  | error stop => rfl
  | ok program => rfl

theorem value_resolveStarts (position : ℕ)
    (program : List (Counted Int64)) :
    toResult toProgram (words.resolveStarts position program).value =
      (Jumps.resolveStarts position (toProgram program)).toExcept := by
  induction program generalizing position with
  | nil => rfl
  | cons counted program ih =>
      rw [resolveStarts, toProgram_cons, Jumps.resolveStarts,
        kind_toInstruction]
      by_cases hkind : counted.kind = .loopStart
      · rw [if_pos hkind, if_pos hkind, Recorded.value_bind, value_closing?,
          times_toInstruction]
        cases Jumps.closing? counted.times (position + 1)
            (toProgram program) with
        | none => rfl
        | some found =>
            dsimp only
            rw [Jumps.setJump_of_isLoop (by rw [kind_toInstruction, hkind]; rfl)]
            dsimp only
            rw [toExcept_cons, ← ih]
            exact toResult_consOk _ _
      · rw [if_neg hkind, if_neg hkind, toExcept_cons, ← ih]
        exact toResult_consOk _ _

theorem value_emptyLoop (before : List (Counted Int64)) :
    (words.emptyLoop before).value.toFailure =
      Jumps.emptyLoop (toProgram before) := by
  rw [Jumps.emptyLoop, length_toProgram, ← toProgram_reverse, ← value_total]
  rfl

theorem value_resolveEnds (program : List (Counted Int64)) :
    toResult toProgram (words.resolveEnds before program).value =
      (Jumps.resolveEnds (toProgram before) (toProgram program)).toExcept := by
  induction program generalizing before with
  | nil => rfl
  | cons counted program ih =>
      rw [resolveEnds, toProgram_cons, Jumps.resolveEnds,
        kind_toInstruction]
      by_cases hkind : counted.kind = .loopEnd
      · have hopening : (words.opening? (words.ofNat 1) before).value =
            Jumps.opening? 1 (toProgram before) := value_opening? before
        rw [if_pos hkind, if_pos hkind, Recorded.value_bind, hopening,
          length_toProgram]
        cases Jumps.opening? 1 (toProgram before) with
        | none => rfl
        | some found =>
            dsimp only
            by_cases hempty : before.length = found + 1
            · rw [if_pos hempty, if_pos hempty, ← length_toProgram before]
              exact congrArg Except.error (value_emptyLoop before)
            · rw [if_neg hempty, if_neg hempty, Jumps.setJump_of_isLoop
                (by rw [kind_toInstruction, hkind]; rfl)]
              dsimp only
              rw [toExcept_cons]
              exact (toResult_consOk _ _).trans (congrArg _ ih)
      · rw [if_neg hkind, if_neg hkind, toExcept_cons, ← toProgram_cons, ← ih]
        exact toResult_consOk _ _

theorem toExcept_resolve (instructions : Program) :
    (Jumps.resolve instructions).toExcept =
      (Jumps.resolveStarts 0 instructions).toExcept.bind fun started =>
        (Jumps.resolveEnds [] started).toExcept := by
  rw [Jumps.resolve]
  rcases Jumps.resolveStarts 0 instructions with ⟨started, _ | failure⟩
  · rfl
  · rfl

theorem value_resolve (program : List (Counted Int64)) :
    toResult toProgram (words.resolve program).value =
      (Jumps.resolve (toProgram program)).toExcept := by
  rw [toExcept_resolve, ← value_resolveStarts, resolve, Recorded.value_bind]
  cases (words.resolveStarts 0 program).value with
  | error stop => rfl
  | ok started => exact value_resolveEnds started

theorem indexAt_ofNat (commands : List Command) {offset : ℕ}
    (hoffset : offset < 2 ^ 63) :
    RunLength.indexAt commands (Int64.ofNat offset) =
      Int64.ofNat (runIndex commands offset) := by
  cases commands with
  | nil => rfl
  | cons command rest =>
      rw [RunLength.indexAt, runIndex, Int64.toNatClampNeg_ofNat_of_lt hoffset]

theorem value_parse {source : Bytes} (hsize : source.length < 2 ^ 63) :
    toResult toProgram (words.parse (Source.commands source)).value =
      Program.parse source := by
  have hlength := Source.length_commands_le source
  rw [parse, Program.parse, Program.encode_filtered, Program.encode,
    Program.encodeCommands, Recorded.value_bind]
  cases hmismatch : Brackets.mismatch? (Source.commands source) with
  | none =>
      dsimp only
      rw [value_resolve, value_runs]
  | some mismatch =>
      have hoffset := (Brackets.mismatch?_location hmismatch).1
      simp only [Program.mismatchError]
      rw [indexAt_ofNat _ (by omega)]
      rfl

theorem value_countsFrom (counts : FiniteMap Kind Int64)
    (program : List (Counted Int64)) :
    (words.countsFrom counts program).value =
      (toProgram program).foldl Program.addCount counts := by
  induction program generalizing counts with
  | nil => rfl
  | cons counted program ih => exact ih _

theorem value_tally (program : List (Counted Int64)) :
    (words.tally program).value = (toProgram program).tally := by
  rw [tally, Recorded.value_map, value_countsFrom]
  rfl

theorem value_parseAndTally {source : Bytes}
    (hsize : source.length < 2 ^ 63) :
    toResult (Prod.map toProgram id)
        (words.parseAndTally (Source.commands source)).value =
      (Program.parse source).map fun program => (program, program.tally) := by
  rw [← value_parse hsize, parseAndTally, Recorded.value_bind]
  cases (words.parse (Source.commands source)).value with
  | error stop => rfl
  | ok program =>
      dsimp only
      rw [Recorded.value_map, value_tally]
      rfl

end Arithmetic

end BrainfuckFront
