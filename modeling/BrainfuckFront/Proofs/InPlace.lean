import Mathlib
import BrainfuckFront.Proofs.Places
import BrainfuckFront.Proofs.Writes

/-!
# Resolving in place

Resolving is written as a walk that takes a program apart and puts it together
again.  It can also be said of the program as a whole: position by position, the
partner of a loop is looked up in the program as it stands by then, and the jump
is written into it.  Both are the same, so the jumps are those that the searches
give, and the offset of an empty loop is that of its position.
-/

namespace BrainfuckFront.Jumps

/-- Where the start of a loop jumps to, by a search over the whole program. -/
def startJump (program : Program) (position : Int64) : Except Failure Int64 :=
  (findLoopEnd program position).map (· - 1)

/-- Where the end of a loop jumps to, unless the loop is empty. -/
def endJump (program : Program) (position : Int64) : Except Failure Int64 :=
  (findLoopStart program position).bind fun found =>
    if position = found + 1 then
      (RunLength.offsetOf program position).bind fun offset =>
        .error (.parse {
          fault := .infiniteLoop
          offset
          instruction := position
          unexpected := false })
    else .ok (found + 1)

/-- Writes the jumps of the instructions of one kind, at `count` positions from
`position` on. -/
def writeJumps (kind : Kind)
    (jump : Program → Int64 → Except Failure Int64) :
    ℕ → ℕ → Program → Resolution
  | 0, _, program => ⟨program, none⟩
  | count + 1, position, program =>
      match program[position]? with
      | none => ⟨program, none⟩
      | some instruction =>
          if instruction.kind = kind then
            match (jump program (Int64.ofNat position)).bind
                instruction.setJump with
            | .error failure => ⟨program, some failure⟩
            | .ok resolved =>
                writeJumps kind jump count (position + 1)
                  (program.set position resolved)
          else writeJumps kind jump count (position + 1) program

/-- Both passes over the whole program. -/
def resolveInPlace (program : Program) : Resolution :=
  let starts := writeJumps .loopStart startJump program.length 0 program
  match starts.failure with
  | some _ => starts
  | none =>
      writeJumps .loopEnd endJump starts.instructions.length 0
        starts.instructions

/-- What a walk over the rest of a program makes of the whole, when `left` stands
before it. -/
def Resolution.behind (left : Program) (resolution : Resolution) :
    Resolution :=
  { resolution with instructions := left ++ resolution.instructions }

theorem Resolution.behind_cons (left : Program) (instruction : Instruction)
    (resolution : Resolution) :
    (resolution.cons instruction).behind left =
      resolution.behind (left ++ [instruction]) := by
  rw [behind, cons, behind, List.append_assoc]
  rfl

variable {kind : Kind} {jump : Program → Int64 → Except Failure Int64}
variable {left rest : Program} {instruction : Instruction}

theorem getElem?_length_left :
    (left ++ instruction :: rest)[left.length]? = some instruction := by
  rw [List.getElem?_append_right le_rfl, Nat.sub_self, List.getElem?_cons_zero]

theorem writeJumps_of_kind_ne (hkind : instruction.kind ≠ kind) :
    writeJumps kind jump (rest.length + 1) left.length
        (left ++ instruction :: rest) =
      writeJumps kind jump rest.length (left ++ [instruction]).length
        (left ++ [instruction] ++ rest) := by
  rw [writeJumps, getElem?_length_left, List.append_assoc, List.length_append]
  exact if_neg hkind

theorem writeJumps_of_error {failure : Failure}
    (hkind : instruction.kind = kind)
    (hjump : jump (left ++ instruction :: rest) (Int64.ofNat left.length) =
      .error failure) :
    writeJumps kind jump (rest.length + 1) left.length
        (left ++ instruction :: rest) =
      ⟨left ++ instruction :: rest, some failure⟩ := by
  rw [writeJumps, getElem?_length_left]
  dsimp only
  rw [if_pos hkind, hjump, Except.bind]

/-- An instruction that got its jump joins those on the left. -/
theorem writeJumps_of_ok {target : Int64} (hloop : kind.isLoop = true)
    (hkind : instruction.kind = kind)
    (hjump : jump (left ++ instruction :: rest) (Int64.ofNat left.length) =
      .ok target) :
    writeJumps kind jump (rest.length + 1) left.length
        (left ++ instruction :: rest) =
      writeJumps kind jump rest.length
        (left ++ [{ instruction with jump := target }]).length
        (left ++ [{ instruction with jump := target }] ++ rest) := by
  have hset : (left ++ instruction :: rest).set left.length
      { instruction with jump := target } =
        left ++ [{ instruction with jump := target }] ++ rest := by
    rw [List.set_append_right _ _ le_rfl, Nat.sub_self, List.set_cons_zero,
      List.append_assoc, List.singleton_append]
  rw [writeJumps, getElem?_length_left, List.length_append]
  dsimp only
  rw [if_pos hkind, hjump, Except.bind,
    setJump_of_isLoop (by rw [hkind, hloop])]
  dsimp only
  rw [hset]
  rfl

/-- A search over the whole program gives the target that the walk computes from
what stands on both sides. -/
def Searches (jump : Program → Int64 → Except Failure Int64)
    (target : Target) : Prop :=
  ∀ (left : Program) (instruction : Instruction) (rest : Program),
    (left ++ instruction :: rest).length < 2 ^ 63 →
      jump (left ++ instruction :: rest) (Int64.ofNat left.length) =
        target left.reverse instruction rest

theorem searches_startTarget : Searches startJump startTarget := by
  intro left start rest hlength
  rw [List.length_append] at hlength
  rw [startJump, findLoopEnd_length_left (by omega), startTarget,
    List.length_reverse]
  cases closing? start.times (left.length + 1) rest with
  | none => rfl
  | some found => rfl

theorem searches_endTarget : Searches endJump endTarget := by
  intro left finish rest hlength
  have hoffset : RunLength.offsetOf (left ++ finish :: rest)
      (Int64.ofNat left.length) = .ok (RunLength.total left) := by
    rw [RunLength.offsetOf_eq_total hlength (by simp), List.take_left]
  rw [List.length_append] at hlength
  rw [endJump, findLoopStart_length_left (by omega), endTarget,
    List.length_reverse]
  cases hfound : opening? 1 left.reverse with
  | none => rfl
  | some found =>
      have hlt := lt_length_of_opening? hfound
      rw [List.length_reverse] at hlt
      -- The place found is on the left, so adding one to it does not wrap around.
      have hnext : Int64.ofNat left.length = Int64.ofNat found + 1 ↔
          left.length = found + 1 := by
        rw [← Int64.toInt_inj, Int64.toInt_ofNat_of_lt (by omega),
          Words.toInt_ofNat_add_one (by omega)]
        omega
      simp only [Option.elim_some, Except.bind, hnext, hoffset, emptyLoop,
        List.length_reverse, List.reverse_reverse]

/-- A pass in place makes what the walk makes.  Of the instructions on the left a
search reads the runs only, and writing jumps leaves these as they were. -/
theorem writeJumps_eq_pass {target : Target} {before : Program}
    (hloop : kind.isLoop = true) (hreads : ReadsRuns target)
    (hsearches : Searches jump target)
    (hlength : (left ++ rest).length < 2 ^ 63)
    (hbare : left.reverse.map Instruction.bare =
      before.map Instruction.bare) :
    writeJumps kind jump rest.length left.length (left ++ rest) =
      (pass kind target before rest).behind left := by
  induction rest generalizing left before with
  | nil => rfl
  | cons instruction rest ih =>
      have hnext (resolved : Instruction)
          (hresolved : resolved.bare = instruction.bare) :
          writeJumps kind jump rest.length (left ++ [resolved]).length
              (left ++ [resolved] ++ rest) =
            ((pass kind target (instruction :: before) rest).cons
              resolved).behind left := by
        rw [Resolution.behind_cons]
        apply ih
        · simpa using hlength
        · simp [hbare, hresolved]
      rw [List.length_cons, pass]
      by_cases hkind : instruction.kind = kind
      · have htarget := hsearches left instruction rest hlength
        rw [hreads.congr hbare rfl rfl] at htarget
        rw [if_pos hkind]
        cases hresult : target before instruction rest with
        | error failure =>
            rw [hresult] at htarget
            exact writeJumps_of_error hkind htarget
        | ok found =>
            rw [hresult] at htarget
            rw [writeJumps_of_ok hloop hkind htarget]
            exact hnext _ rfl
      · rw [if_neg hkind, writeJumps_of_kind_ne hkind]
        exact hnext instruction rfl

theorem writeJumps_zero_eq_pass {target : Target} {program : Program}
    (hloop : kind.isLoop = true) (hreads : ReadsRuns target)
    (hsearches : Searches jump target) (hlength : program.length < 2 ^ 63) :
    writeJumps kind jump program.length 0 program =
      pass kind target [] program := by
  have hwhole : writeJumps kind jump program.length ([] : Program).length
      ([] ++ program) = (pass kind target [] program).behind [] :=
    writeJumps_eq_pass hloop hreads hsearches hlength rfl
  exact hwhole

/-- To resolve a program is to write, position by position, the jumps that the
searches give in the program as it stands, up to the first loop without one. -/
theorem resolve_eq_resolveInPlace {program : Program}
    (hlength : program.length < 2 ^ 63) :
    resolve program = resolveInPlace program := by
  rw [resolveInPlace, writeJumps_zero_eq_pass rfl readsRuns_startTarget
    searches_startTarget hlength]
  cases hfailure : (pass .loopStart startTarget [] program).failure with
  | some failure => exact resolve_of_failure_eq_some hfailure
  | none =>
      obtain ⟨stop, hsettled, -⟩ :=
        settled_pass .loopStart startTarget [] program
      rw [resolve_of_failure_eq_none hfailure]
      symm
      apply writeJumps_zero_eq_pass rfl readsRuns_endTarget searches_endTarget
      rw [hsettled.length_eq]
      exact hlength

end BrainfuckFront.Jumps
