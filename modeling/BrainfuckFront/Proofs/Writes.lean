import Mathlib
import BrainfuckFront.Proofs.Resolution

/-!
# What resolving writes

A pass changes the program that it is reading.  It writes jumps, though, and
reads kinds and repeats only.  So the runs of a program alone decide which
instructions get a jump, which jump that is, and where the pass stops.  Old
jumps do not matter, and to resolve once more what an attempt has left, failed
or not, is to go the same way again and to change nothing.
-/

namespace BrainfuckFront.Jumps

/-- The program with new jumps at the positions where `writes` has one. -/
def overwrite (writes : ℕ → Option Int64) (program : List Instruction) :
    List Instruction :=
  program.mapIdx fun position instruction =>
    { instruction with jump := (writes position).getD instruction.jump }

/-- What to write when an instruction that gets `first` stands before a program
that gets `writes`. -/
def prepend (first : Option Int64) (writes : ℕ → Option Int64) :
    ℕ → Option Int64
  | 0 => first
  | position + 1 => writes position

variable {target : Target} {before rest : List Instruction}
variable {instruction : Instruction}

theorem overwrite_cons (writes : ℕ → Option Int64) (instruction : Instruction)
    (rest : List Instruction) :
    overwrite writes (instruction :: rest) =
      { instruction with jump := (writes 0).getD instruction.jump } ::
        overwrite (fun position => writes (position + 1)) rest := by
  rw [overwrite, List.mapIdx_cons, overwrite]

theorem overwrite_prepend (first : Option Int64) (writes : ℕ → Option Int64)
    (instruction : Instruction) (rest : List Instruction) :
    overwrite (prepend first writes) (instruction :: rest) =
      { instruction with jump := first.getD instruction.jump } ::
        overwrite writes rest := by
  rw [overwrite_cons]
  rfl

theorem overwrite_none (program : List Instruction) :
    overwrite (fun _ => none) program = program := by
  induction program with
  | nil => rfl
  | cons instruction rest ih => rw [overwrite_cons, ih, Option.getD_none]

theorem map_bare_overwrite (writes : ℕ → Option Int64)
    (program : List Instruction) :
    (overwrite writes program).map Instruction.bare =
      program.map Instruction.bare := by
  induction program generalizing writes with
  | nil => rfl
  | cons instruction rest ih =>
      rw [overwrite_cons, List.map_cons, ih, List.map_cons]
      rfl

/-- Of two writes to one position the later one counts. -/
theorem overwrite_overwrite (first second : ℕ → Option Int64)
    (program : List Instruction) :
    overwrite second (overwrite first program) =
      overwrite (fun position => (second position).or (first position))
        program := by
  induction program generalizing first second with
  | nil => rfl
  | cons instruction rest ih =>
      rw [overwrite_cons, overwrite_cons, overwrite_cons, ih]
      cases second 0 <;> rfl

/-- The target is computed from nothing but runs. -/
def ReadsRuns (target : Target) : Prop :=
  ∀ before instruction rest,
    target (before.map Instruction.bare) instruction.bare
      (rest.map Instruction.bare) = target before instruction rest

theorem readsRuns_startTarget : ReadsRuns startTarget := by
  intro before start rest
  rw [startTarget, startTarget, closing?_map_bare, List.length_map]
  rfl

theorem readsRuns_endTarget : ReadsRuns endTarget := by
  intro before finish rest
  exact endTarget_map_bare before finish rest

theorem ReadsRuns.congr {before' rest' : List Instruction}
    {instruction' : Instruction} (htarget : ReadsRuns target)
    (hbefore : before'.map Instruction.bare = before.map Instruction.bare)
    (hinstruction : instruction'.bare = instruction.bare)
    (hrest : rest'.map Instruction.bare = rest.map Instruction.bare) :
    target before' instruction' rest' = target before instruction rest := by
  rw [← htarget before', hbefore, hinstruction, hrest, htarget]

/-- What a pass writes and where it stops is the same for all programs with the
same runs. -/
theorem exists_pass_eq_overwrite (kind : Kind) (htarget : ReadsRuns target)
    (before program : List Instruction) :
    ∃ (writes : ℕ → Option Int64) (failure : Option Failure),
      ∀ before' other : List Instruction,
        before'.map Instruction.bare = before.map Instruction.bare →
          other.map Instruction.bare = program.map Instruction.bare →
            pass kind target before' other =
              ⟨overwrite writes other, failure⟩ := by
  induction program generalizing before with
  | nil =>
      refine ⟨fun _ => none, none, fun before' other _ hother => ?_⟩
      rw [List.map_nil, List.map_eq_nil_iff] at hother
      rw [hother]
      rfl
  | cons instruction rest ih =>
      obtain ⟨writes, failure, hwrites⟩ := ih (instruction :: before)
      -- the other program splits in the same way, and its pass goes on with
      -- the writes of the induction hypothesis
      have hsplit {before' other : List Instruction}
          (hbefore : before'.map Instruction.bare =
            before.map Instruction.bare)
          (hother : other.map Instruction.bare =
            (instruction :: rest).map Instruction.bare) :
          ∃ instruction' rest', other = instruction' :: rest' ∧
            instruction'.kind = instruction.kind ∧
            target before' instruction' rest' =
              target before instruction rest ∧
            pass kind target (instruction' :: before') rest' =
              ⟨overwrite writes rest', failure⟩ := by
        rw [List.map_cons, List.map_eq_cons_iff] at hother
        obtain ⟨instruction', rest', rfl, hinstruction, hrest⟩ := hother
        have hkind : instruction'.bare.kind = instruction.bare.kind := by
          rw [hinstruction]
        refine ⟨instruction', rest', rfl, hkind,
          htarget.congr hbefore hinstruction hrest, hwrites _ _ ?_ hrest⟩
        rw [List.map_cons, List.map_cons, hinstruction, hbefore]
      by_cases hkind : instruction.kind = kind
      · cases hreached : target before instruction rest with
        | error reported =>
            refine ⟨fun _ => none, some reported, ?_⟩
            intro before' other hbefore hother
            obtain ⟨instruction', rest', rfl, hkind', htarget', -⟩ :=
              hsplit hbefore hother
            rw [pass, if_pos (hkind'.trans hkind), htarget', hreached,
              overwrite_none]
        | ok jump =>
            refine ⟨prepend (some jump) writes, failure, ?_⟩
            intro before' other hbefore hother
            obtain ⟨instruction', rest', rfl, hkind', htarget', hpass⟩ :=
              hsplit hbefore hother
            rw [pass, if_pos (hkind'.trans hkind), htarget', hreached, hpass,
              overwrite_prepend]
            rfl
      · refine ⟨prepend none writes, failure, ?_⟩
        intro before' other hbefore hother
        obtain ⟨instruction', rest', rfl, hkind', -, hpass⟩ :=
          hsplit hbefore hother
        rw [pass, if_neg (hkind' ▸ hkind), hpass, overwrite_prepend]
        rfl

/-- The second pass meets the same runs as the first. -/
theorem exists_resolve_eq_overwrite (program : List Instruction) :
    ∃ (writes : ℕ → Option Int64) (failure : Option Failure),
      ∀ other : List Instruction,
        other.map Instruction.bare = program.map Instruction.bare →
          resolve other = ⟨overwrite writes other, failure⟩ := by
  obtain ⟨starts, failure, hstarts⟩ :=
    exists_pass_eq_overwrite .loopStart readsRuns_startTarget [] program
  cases failure with
  | some failure =>
      refine ⟨starts, some failure, fun other hother => ?_⟩
      have hpass := hstarts [] other rfl hother
      rw [resolve_of_failure_eq_some (by rw [hpass]), hpass]
  | none =>
      obtain ⟨ends, failure, hends⟩ :=
        exists_pass_eq_overwrite .loopEnd readsRuns_endTarget [] program
      refine ⟨fun position => (ends position).or (starts position), failure,
        fun other hother => ?_⟩
      have hpass := hstarts [] other rfl hother
      have hbare := (map_bare_overwrite starts other).trans hother
      rw [resolve_of_failure_eq_none (by rw [hpass]), hpass,
        hends [] _ rfl hbare, overwrite_overwrite]

/-- All programs with the same kinds and repeats, whatever their old jumps, end
with the same failure or none, and get the same jumps written at the same
positions.  Resolving again what is left, also after a failure, ends in the same
way and changes nothing. -/
theorem resolve_determined_by_runs :
    (∀ program : List Instruction,
        ∃ (writes : ℕ → Option Int64) (failure : Option Failure),
          ∀ other : List Instruction,
            other.map Instruction.bare = program.map Instruction.bare →
              (resolve other).failure = failure ∧
                (resolve other).instructions = overwrite writes other) ∧
      ∀ program : List Instruction,
        resolve (resolve program).instructions = resolve program := by
  constructor
  · intro program
    obtain ⟨writes, failure, hresolve⟩ := exists_resolve_eq_overwrite program
    refine ⟨writes, failure, fun other hother => ?_⟩
    rw [hresolve other hother]
    exact ⟨rfl, rfl⟩
  · intro program
    obtain ⟨writes, failure, hresolve⟩ := exists_resolve_eq_overwrite program
    have htwice : overwrite writes (overwrite writes program) =
        overwrite writes program := by
      simp only [overwrite_overwrite, Option.or_self]
    rw [hresolve program rfl,
      hresolve _ (map_bare_overwrite writes program), htwice]

/-- Two programs that get stuck at their last instruction, after two jumps were
written. -/
theorem resolve_determined_by_runs_stuck :
    ∃ (program other : List Instruction) (writes : ℕ → Option Int64),
      program ≠ other ∧
        other.map Instruction.bare = program.map Instruction.bare ∧
        (resolve program).failure = some (.noLoopStart 3) ∧
        (resolve other).failure = some (.noLoopStart 3) ∧
        (resolve program).instructions = overwrite writes program ∧
        (resolve other).instructions = overwrite writes other ∧
        resolve (resolve other).instructions = resolve other := by
  have hbare : ([⟨8, .loopStart, 1, 77⟩, ⟨8, .of .increment, 0, 5⟩,
      ⟨8, .loopEnd, 1, -3⟩, ⟨8, .loopEnd, -2, 4⟩] : List Instruction).map
        Instruction.bare =
      ([⟨0, .loopStart, 1, 0⟩, ⟨1, .of .increment, 0, 0⟩,
        ⟨2, .loopEnd, 1, 0⟩, ⟨3, .loopEnd, -2, 0⟩] : List Instruction).map
          Instruction.bare := by decide
  obtain ⟨writes, failure, hsame⟩ := resolve_determined_by_runs.1
    [⟨0, .loopStart, 1, 0⟩, ⟨1, .of .increment, 0, 0⟩, ⟨2, .loopEnd, 1, 0⟩,
      ⟨3, .loopEnd, -2, 0⟩]
  obtain ⟨hfailure, hwritten⟩ := hsame _ rfl
  obtain ⟨hfailure', hwritten'⟩ := hsame _ hbare
  have hstuck : failure = some (.noLoopStart 3) := by
    rw [← hfailure]
    rfl
  exact ⟨_, _, writes, by decide, hbare, hfailure.trans hstuck,
    hfailure'.trans hstuck, hwritten, hwritten',
    resolve_determined_by_runs.2 _⟩

end BrainfuckFront.Jumps
