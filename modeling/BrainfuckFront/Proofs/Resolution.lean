import Mathlib
import BrainfuckFront.Proofs.Searches

/-!
# Resolving jumps

Both passes over a program are the same walk: at each instruction of one kind a
target is computed from what stands on the left and on the right, and written as
the jump.  What a pass reads is never what a pass writes, so the targets of the
second pass are those of the program before the first.
-/

namespace BrainfuckFront.Jumps

/-- Computes a jump from the instructions on the left, the nearest first, the
instruction itself and the instructions on the right. -/
abbrev Target :=
  List Instruction → Instruction → List Instruction → Except Failure Int64

def startTarget : Target := fun before start rest =>
  match closing? start.times (before.length + 1) rest with
  | none => .error (.noLoopEnd (Int64.ofNat before.length))
  | some found => .ok (Int64.ofNat found - 1)

/-- An empty loop is reported at its end. -/
def emptyLoop (before : List Instruction) : Failure :=
  .parse {
    fault := .infiniteLoop
    offset := RunLength.total before.reverse
    instruction := Int64.ofNat before.length
    unexpected := false }

def endTarget : Target := fun before _ _ =>
  match opening? 1 before with
  | none => .error (.noLoopStart (Int64.ofNat before.length))
  | some found =>
      if before.length = found + 1 then .error (emptyLoop before)
      else .ok (Int64.ofNat found + 1)

/-- Writes the targets of the instructions of one kind up to the first that has
none. -/
def pass (kind : Kind) (target : Target) (before : List Instruction) :
    List Instruction → Resolution
  | [] => ⟨[], none⟩
  | instruction :: rest =>
      if instruction.kind = kind then
        match target before instruction rest with
        | .error failure => ⟨instruction :: rest, some failure⟩
        | .ok jump =>
            (pass kind target (instruction :: before) rest).cons
              { instruction with jump }
      else (pass kind target (instruction :: before) rest).cons instruction

theorem setJump_of_isLoop {instruction : Instruction}
    (hloop : instruction.kind.isLoop = true) (jump : Int64) :
    instruction.setJump jump = .ok { instruction with jump } :=
  if_pos hloop

theorem resolveStarts_eq_pass (before instructions : List Instruction) :
    resolveStarts before.length instructions =
      pass .loopStart startTarget before instructions := by
  induction instructions generalizing before with
  | nil => rfl
  | cons instruction rest ih =>
      have hnext := ih (instruction :: before)
      rw [List.length_cons] at hnext
      rw [resolveStarts, pass, hnext]
      by_cases hkind : instruction.kind = .loopStart
      · rw [if_pos hkind, if_pos hkind, startTarget]
        cases closing? instruction.times (before.length + 1) rest with
        | none => rfl
        | some found =>
            dsimp only
            rw [setJump_of_isLoop (by rw [hkind]; rfl)]
      · rw [if_neg hkind, if_neg hkind]

theorem total_map_bare (instructions : List Instruction) :
    RunLength.total (instructions.map Instruction.bare) =
      RunLength.total instructions := by
  rw [RunLength.total, RunLength.total, List.foldl_map]
  rfl

theorem endTarget_map_bare (before : List Instruction)
    (finish : Instruction) (rest : List Instruction) :
    endTarget (before.map Instruction.bare) finish rest =
      endTarget before finish rest := by
  rw [endTarget, endTarget, emptyLoop, emptyLoop, opening?_map_bare,
    List.length_map, ← List.map_reverse, total_map_bare]

theorem resolveEnds_eq_pass {written before : List Instruction}
    (instructions : List Instruction)
    (hbare : written.map Instruction.bare = before.map Instruction.bare) :
    resolveEnds written instructions =
      pass .loopEnd endTarget before instructions := by
  induction instructions generalizing written before with
  | nil => rfl
  | cons instruction rest ih =>
      have htarget : endTarget written instruction rest =
          endTarget before instruction rest := by
        rw [← endTarget_map_bare written, hbare, endTarget_map_bare]
      rw [resolveEnds, pass, ← htarget]
      by_cases hkind : instruction.kind = .loopEnd
      · rw [if_pos hkind, if_pos hkind, endTarget]
        cases opening? 1 written with
        | none => rfl
        | some found =>
            have hnext (jump : Int64) :
                ({ instruction with jump } :: written).map Instruction.bare =
                  (instruction :: before).map Instruction.bare := by
              simp [Instruction.bare, hbare]
            dsimp only
            split
            · rfl
            · rw [setJump_of_isLoop (by rw [hkind]; rfl)]
              dsimp only
              rw [ih (hnext _)]
      · have hnext : (instruction :: written).map Instruction.bare =
            (instruction :: before).map Instruction.bare := by
          simp [hbare]
        rw [if_neg hkind, if_neg hkind, ih hnext]

variable {kind : Kind} {target : Target} {before instructions : List Instruction}
variable {instruction : Instruction} {position : ℕ}

/-- The target of the instruction at `position`, where `before` stands on the
left of the whole list. -/
def targetAt (target : Target) (before instructions : List Instruction)
    (position : ℕ) (instruction : Instruction) : Except Failure Int64 :=
  target ((instructions.take position).reverse ++ before) instruction
    (instructions.drop (position + 1))

@[simp]
theorem targetAt_cons_succ (first : Instruction) :
    targetAt target before (first :: instructions) (position + 1)
        instruction =
      targetAt target (first :: before) instructions position
        instruction := by
  simp [targetAt]

theorem targetAt_append (left right : List Instruction) :
    targetAt target [] (left ++ instruction :: right) left.length
        instruction =
      target left.reverse instruction right := by
  rw [targetAt, List.take_left, List.append_nil, List.drop_append,
    List.drop_eq_nil_of_le (by omega), Nat.add_sub_cancel_left,
    List.drop_one, List.tail_cons, List.nil_append]

theorem exists_split {A : Type*} {values : List A} {value : A}
    (hget : values[position]? = some value) :
    ∃ left right, values = left ++ value :: right ∧
      left.length = position := by
  obtain ⟨hlt, rfl⟩ := List.getElem?_eq_some_iff.mp hget
  refine ⟨values.take position, values.drop (position + 1), ?_,
    List.length_take_of_le hlt.le⟩
  rw [List.getElem_cons_drop, List.take_append_drop]

/-- The list `settled` is `instructions` with the targets written of all
instructions of one kind that stand before `stop`. -/
structure Settled (kind : Kind) (target : Target)
    (before instructions : List Instruction) (stop : ℕ)
    (settled : List Instruction) : Prop where
  length_eq : settled.length = instructions.length
  written : ∀ position instruction,
    instructions[position]? = some instruction → position < stop →
      instruction.kind = kind →
        ∃ jump, targetAt target before instructions position instruction =
            .ok jump ∧
          settled[position]? = some { instruction with jump }
  kept : ∀ position instruction,
    instructions[position]? = some instruction →
      stop ≤ position ∨ instruction.kind ≠ kind →
        settled[position]? = some instruction

theorem settled_zero :
    Settled kind target before instructions 0 instructions where
  length_eq := rfl
  written := by
    intro position instruction hget hlt
    omega
  kept := by
    intro position instruction hget hkept
    exact hget

theorem Settled.cons_written {settled : List Instruction} {stop : ℕ}
    {jump : Int64} (hkind : instruction.kind = kind)
    (htarget : target before instruction instructions = .ok jump)
    (hsettled : Settled kind target (instruction :: before) instructions stop
      settled) :
    Settled kind target before (instruction :: instructions) (stop + 1)
      ({ instruction with jump } :: settled) where
  length_eq := by simp [hsettled.length_eq]
  written := by
    rintro (_ | position) found hget hlt hfound
    · cases hget
      exact ⟨jump, htarget, rfl⟩
    · simpa using hsettled.written position found hget (by omega) hfound
  kept := by
    rintro (_ | position) found hget hkept
    · cases hget
      exact absurd hkind (hkept.resolve_left (by omega))
    · exact hsettled.kept position found hget (hkept.imp_left (by omega))

theorem Settled.cons_kept {settled : List Instruction} {stop : ℕ}
    (hkind : instruction.kind ≠ kind)
    (hsettled : Settled kind target (instruction :: before) instructions stop
      settled) :
    Settled kind target before (instruction :: instructions) (stop + 1)
      (instruction :: settled) where
  length_eq := by simp [hsettled.length_eq]
  written := by
    rintro (_ | position) found hget hlt hfound
    · cases hget
      exact absurd hfound hkind
    · simpa using hsettled.written position found hget (by omega) hfound
  kept := by
    rintro (_ | position) found hget hkept
    · exact hget
    · exact hsettled.kept position found hget (hkept.imp_left (by omega))

/-- All that a pass does: it settles the list up to its end, or up to the first
instruction of its kind that has no target, and reports why. -/
theorem settled_pass (kind : Kind) (target : Target)
    (before instructions : List Instruction) :
    ∃ stop, Settled kind target before instructions stop
        (pass kind target before instructions).instructions ∧
      ((pass kind target before instructions).failure = none ∧
          stop = instructions.length ∨
        ∃ stuck failure, instructions[stop]? = some stuck ∧
          stuck.kind = kind ∧
          targetAt target before instructions stop stuck = .error failure ∧
          (pass kind target before instructions).failure = some failure) := by
  induction instructions generalizing before with
  | nil => exact ⟨0, settled_zero, Or.inl ⟨rfl, rfl⟩⟩
  | cons instruction rest ih =>
      obtain ⟨stop, hsettled, hend⟩ := ih (instruction :: before)
      rw [pass]
      by_cases hkind : instruction.kind = kind
      · rw [if_pos hkind]
        cases htarget : target before instruction rest with
        | error failure =>
            exact ⟨0, settled_zero,
              Or.inr ⟨instruction, failure, rfl, hkind, htarget, rfl⟩⟩
        | ok jump =>
            exact ⟨stop + 1, hsettled.cons_written hkind htarget,
              by simpa [Resolution.cons] using hend⟩
      · rw [if_neg hkind]
        exact ⟨stop + 1, hsettled.cons_kept hkind,
          by simpa [Resolution.cons] using hend⟩

/-- A program that differs from another in its jumps only looks the same to
whatever does not look at jumps. -/
theorem map_eq_of_exists_jump {A : Type*} {view : Instruction → A}
    {program : List Instruction}
    (hview : ∀ (instruction : Instruction) (jump : Int64),
      view { instruction with jump } = view instruction)
    (hlength : program.length = instructions.length)
    (hjump : ∀ (position : ℕ) (instruction : Instruction),
      instructions[position]? = some instruction →
        ∃ jump, program[position]? = some { instruction with jump }) :
    program.map view = instructions.map view := by
  apply List.ext_getElem?
  intro position
  rw [List.getElem?_map, List.getElem?_map]
  cases hget : instructions[position]? with
  | none =>
      rw [List.getElem?_eq_none_iff, ← hlength,
        ← List.getElem?_eq_none_iff] at hget
      rw [hget]
  | some instruction =>
      obtain ⟨jump, hwritten⟩ := hjump position instruction hget
      rw [hwritten, Option.map_some, Option.map_some, hview]

theorem Settled.map_bare {settled : List Instruction} {stop : ℕ}
    (hsettled : Settled kind target before instructions stop settled) :
    settled.map Instruction.bare = instructions.map Instruction.bare := by
  refine map_eq_of_exists_jump (fun _ _ => rfl) hsettled.length_eq ?_
  intro position instruction hget
  by_cases hkept : stop ≤ position ∨ instruction.kind ≠ kind
  · exact ⟨instruction.jump, hsettled.kept position instruction hget hkept⟩
  · rw [not_or, not_le, not_not] at hkept
    obtain ⟨jump, -, hwritten⟩ :=
      hsettled.written position instruction hget hkept.1 hkept.2
    exact ⟨jump, hwritten⟩

/-- Instructions of other kinds are where they were. -/
theorem Settled.getElem?_of_kind_ne {settled : List Instruction} {stop : ℕ}
    (hsettled : Settled kind target before instructions stop settled)
    (hget : settled[position]? = some instruction)
    (hkind : instruction.kind ≠ kind) :
    instructions[position]? = some instruction := by
  have hlt := (List.getElem?_eq_some_iff.mp hget).1
  rw [hsettled.length_eq] at hlt
  have horiginal := List.getElem?_eq_getElem hlt
  by_cases hkept : stop ≤ position ∨ instructions[position].kind ≠ kind
  · rw [← hget, hsettled.kept position _ horiginal hkept, horiginal]
  · rw [not_or, not_le, not_not] at hkept
    obtain ⟨jump, -, hwritten⟩ :=
      hsettled.written position _ horiginal hkept.1 hkept.2
    rw [hget, Option.some.injEq] at hwritten
    rw [hwritten] at hkind
    exact absurd hkept.2 hkind

/-- The target of the end of a loop depends on the runs to the left of it. -/
theorem targetAt_endTarget_congr {left right : List Instruction}
    (hbare : left.map Instruction.bare = right.map Instruction.bare)
    (position : ℕ) (finish other : Instruction) :
    targetAt endTarget [] left position finish =
      targetAt endTarget [] right position other := by
  simp only [targetAt, List.append_nil]
  rw [← endTarget_map_bare, ← endTarget_map_bare (right.take position).reverse,
    List.map_reverse, List.map_take, hbare, List.map_reverse, List.map_take]
  rfl

theorem resolve_of_failure_eq_some {failure : Failure}
    (hsome : (pass .loopStart startTarget [] instructions).failure =
      some failure) :
    resolve instructions = pass .loopStart startTarget [] instructions := by
  have hstarts := resolveStarts_eq_pass [] instructions
  rw [List.length_nil] at hstarts
  simp only [resolve, hstarts, hsome]

theorem resolve_of_failure_eq_none
    (hnone : (pass .loopStart startTarget [] instructions).failure = none) :
    resolve instructions = pass .loopEnd endTarget []
      (pass .loopStart startTarget [] instructions).instructions := by
  have hstarts := resolveStarts_eq_pass [] instructions
  rw [List.length_nil] at hstarts
  simp only [resolve, hstarts, hnone]
  exact resolveEnds_eq_pass _ rfl

/-- A program whose loops all got their jumps.  The targets are those of the
program without jumps. -/
structure Linked (instructions program : List Instruction) : Prop where
  length_eq : program.length = instructions.length
  start : ∀ left instruction right,
    instructions = left ++ instruction :: right →
      instruction.kind = .loopStart →
        ∃ jump, startTarget left.reverse instruction right = .ok jump ∧
          program[left.length]? = some { instruction with jump }
  finish : ∀ left instruction right,
    instructions = left ++ instruction :: right →
      instruction.kind = .loopEnd →
        ∃ jump, endTarget left.reverse instruction right = .ok jump ∧
          program[left.length]? = some { instruction with jump }
  other : ∀ left instruction right,
    instructions = left ++ instruction :: right →
      instruction.kind ≠ .loopStart → instruction.kind ≠ .loopEnd →
        program[left.length]? = some instruction

theorem Linked.exists_jump {program : List Instruction}
    (hlinked : Linked instructions program)
    (hget : instructions[position]? = some instruction) :
    ∃ jump, program[position]? = some { instruction with jump } := by
  obtain ⟨left, right, hsplit, rfl⟩ := exists_split hget
  by_cases hstart : instruction.kind = .loopStart
  · obtain ⟨jump, -, hwritten⟩ :=
      hlinked.start left instruction right hsplit hstart
    exact ⟨jump, hwritten⟩
  · by_cases hend : instruction.kind = .loopEnd
    · obtain ⟨jump, -, hwritten⟩ :=
        hlinked.finish left instruction right hsplit hend
      exact ⟨jump, hwritten⟩
    · exact ⟨instruction.jump,
        hlinked.other left instruction right hsplit hstart hend⟩

theorem Linked.map_bare {program : List Instruction}
    (hlinked : Linked instructions program) :
    program.map Instruction.bare = instructions.map Instruction.bare :=
  map_eq_of_exists_jump (fun _ _ => rfl) hlinked.length_eq
    fun _ _ => hlinked.exists_jump

/-- Where an instruction of the linked program comes from, and where its jump
does. -/
theorem Linked.exists_original {program : List Instruction}
    (hlinked : Linked instructions program)
    (hget : program[position]? = some instruction) :
    ∃ left original right, instructions = left ++ original :: right ∧
      left.length = position ∧ original.kind = instruction.kind ∧
      (instruction.kind = .loopStart →
        startTarget left.reverse original right = .ok instruction.jump) ∧
      (instruction.kind = .loopEnd →
        endTarget left.reverse original right = .ok instruction.jump) ∧
      (instruction.kind ≠ .loopStart → instruction.kind ≠ .loopEnd →
        original = instruction) := by
  have hlt := (List.getElem?_eq_some_iff.mp hget).1
  rw [hlinked.length_eq] at hlt
  obtain ⟨left, right, hsplit, rfl⟩ :=
    exists_split (List.getElem?_eq_getElem hlt)
  generalize instructions[left.length] = original at hsplit
  have hsame {jump : Int64} (hwritten : program[left.length]? =
      some { original with jump }) :
      instruction = { original with jump } := by
    rwa [hget, Option.some.injEq] at hwritten
  refine ⟨left, original, right, hsplit, rfl, ?_⟩
  by_cases hstart : original.kind = .loopStart
  · obtain ⟨jump, htarget, hwritten⟩ :=
      hlinked.start left original right hsplit hstart
    rw [hsame hwritten, hstart]
    simp [htarget]
  · by_cases hend : original.kind = .loopEnd
    · obtain ⟨jump, htarget, hwritten⟩ :=
        hlinked.finish left original right hsplit hend
      rw [hsame hwritten, hend]
      simp [htarget]
    · have hkept := hlinked.other left original right hsplit hstart hend
      rw [hget, Option.some.injEq] at hkept
      rw [hkept]
      simp [hstart, hend]

/-- What the second pass has written is computed from the program before the
first. -/
theorem Settled.exists_endTarget {started settled : List Instruction}
    {stop stop' : ℕ}
    (hstarts : Settled .loopStart startTarget [] instructions stop started)
    (hends : Settled .loopEnd endTarget [] started stop' settled)
    {left right : List Instruction}
    (hsplit : instructions = left ++ instruction :: right)
    (hlt : left.length < stop') (hkind : instruction.kind = .loopEnd) :
    ∃ jump, endTarget left.reverse instruction right = .ok jump ∧
      settled[left.length]? = some { instruction with jump } := by
  subst hsplit
  have hkept : started[left.length]? = some instruction := by
    refine hstarts.kept left.length instruction (by simp) (Or.inr ?_)
    rw [hkind]
    decide
  obtain ⟨jump, htarget, hwritten⟩ :=
    hends.written left.length instruction hkept hlt hkind
  rw [targetAt_endTarget_congr hstarts.map_bare left.length instruction
    instruction, targetAt_append] at htarget
  exact ⟨jump, htarget, hwritten⟩

theorem Settled.linked {started program : List Instruction}
    (hstarts : Settled .loopStart startTarget [] instructions
      instructions.length started)
    (hends : Settled .loopEnd endTarget [] started started.length program) :
    Linked instructions program where
  length_eq := hends.length_eq.trans hstarts.length_eq
  start := by
    rintro left instruction right rfl hkind
    obtain ⟨jump, htarget, hwritten⟩ :=
      hstarts.written left.length instruction (by simp) (by simp) hkind
    rw [targetAt_append] at htarget
    refine ⟨jump, htarget, hends.kept left.length _ hwritten (Or.inr ?_)⟩
    rw [hkind]
    decide
  finish := by
    intro left instruction right hsplit hkind
    apply hstarts.exists_endTarget hends hsplit _ hkind
    simp [hstarts.length_eq, hsplit]
  other := by
    rintro left instruction right rfl hstart hend
    exact hends.kept left.length instruction
      (hstarts.kept left.length instruction (by simp) (Or.inr hstart))
      (Or.inr hend)

/-- All that resolving does: it stops at the first start of a loop without a
target, or else at the first end of a loop without one, or else it links all
loops. -/
theorem resolve_cases (instructions : List Instruction) :
    (∃ left stuck right failure, instructions = left ++ stuck :: right ∧
        stuck.kind = .loopStart ∧
        startTarget left.reverse stuck right = .error failure ∧
        (resolve instructions).toExcept = .error failure) ∨
      (∃ left stuck right failure, instructions = left ++ stuck :: right ∧
        stuck.kind = .loopEnd ∧
        endTarget left.reverse stuck right = .error failure ∧
        (∀ before finish after, left = before ++ finish :: after →
          finish.kind = .loopEnd → ∃ jump,
            endTarget before.reverse finish (after ++ stuck :: right) =
              .ok jump) ∧
        (resolve instructions).toExcept = .error failure) ∨
      ∃ program, Linked instructions program ∧
        (resolve instructions).toExcept = .ok program := by
  obtain ⟨stop, hstarts, ⟨hnone, rfl⟩ |
    ⟨stuck, failure, hget, hkind, htarget, hsome⟩⟩ :=
      settled_pass .loopStart startTarget [] instructions
  · rw [resolve_of_failure_eq_none hnone]
    generalize (pass .loopStart startTarget [] instructions).instructions =
      started at hstarts
    obtain ⟨stop, hends, ⟨hnone, rfl⟩ |
      ⟨stuck, failure, hget, hkind, htarget, hsome⟩⟩ :=
        settled_pass .loopEnd endTarget [] started
    · refine Or.inr (Or.inr ⟨_, hstarts.linked hends, ?_⟩)
      rw [Resolution.toExcept, hnone]
    · have hother : stuck.kind ≠ .loopStart := by
        rw [hkind]
        decide
      obtain ⟨left, right, rfl, rfl⟩ :=
        exists_split (hstarts.getElem?_of_kind_ne hget hother)
      rw [targetAt_endTarget_congr hstarts.map_bare left.length stuck stuck,
        targetAt_append] at htarget
      refine Or.inr (Or.inl
        ⟨left, stuck, right, failure, rfl, hkind, htarget, ?_, ?_⟩)
      · rintro before finish after rfl hfinish
        obtain ⟨jump, hjump, -⟩ := hstarts.exists_endTarget hends
          (List.append_assoc before (finish :: after) (stuck :: right))
          (by simp) hfinish
        exact ⟨jump, hjump⟩
      · rw [Resolution.toExcept, hsome]
  · obtain ⟨left, right, rfl, rfl⟩ := exists_split hget
    rw [targetAt_append] at htarget
    refine Or.inl ⟨left, stuck, right, failure, rfl, hkind, htarget, ?_⟩
    rw [resolve_of_failure_eq_some hsome, Resolution.toExcept, hsome]

theorem linked_of_resolve {program : List Instruction}
    (hresolve : (resolve instructions).toExcept = .ok program) :
    Linked instructions program := by
  obtain ⟨_, _, _, failure, -, -, -, herror⟩ |
    ⟨_, _, _, failure, -, -, -, -, herror⟩ | ⟨linked, hlinked, hok⟩ :=
      resolve_cases instructions
  · simp [herror] at hresolve
  · simp [herror] at hresolve
  · rw [hok, Except.ok.injEq] at hresolve
    exact hresolve ▸ hlinked

end BrainfuckFront.Jumps
