import Mathlib
import BrainfuckFront.Proofs.EmptyLoops
import BrainfuckFront.Proofs.Mismatches

/-!
# Sources that go on

What a source is reported for does not depend on what is written after it, as
long as that cannot mend it.  A closing bracket too many stays the first one,
with the same offset and the same run.  Loops that are left open are mended by
closing brackets, and exactly by as many as there are open loops: with fewer the
outermost loop is reported as before, and with more the first one too many.
-/

namespace BrainfuckFront

open Level

namespace RunLength

variable {word : List Command} {place : ℕ}

theorem changes_append {Symbol : Type} [DecidableEq Symbol]
    {previous : Symbol} {symbols : List Symbol} {count : ℕ}
    (hcount : count ≤ symbols.length) (rest : List Symbol) :
    changes previous count (symbols ++ rest) =
      changes previous count symbols := by
  induction count generalizing previous symbols with
  | zero => rw [changes, changes]
  | succ count ih =>
      cases symbols with
      | nil => exact absurd hcount (Nat.not_succ_le_zero count)
      | cons symbol symbols =>
          rw [List.cons_append, changes, changes,
            ih (Nat.le_of_succ_le_succ hcount)]

/-- The run of a command is the same however the word goes on. -/
theorem indexAt_append (hlength : word.length < 2 ^ 63)
    (hplace : place < word.length) (rest : List Command) :
    indexAt (word ++ rest) (Int64.ofNat place) =
      indexAt word (Int64.ofNat place) := by
  cases word with
  | nil => exact absurd hplace (Nat.not_lt_zero place)
  | cons first word =>
      rw [List.cons_append, indexAt, indexAt,
        Int64.toNatClampNeg_ofNat_of_lt (hplace.trans hlength),
        changes_append (Nat.le_of_lt_succ hplace)]

end RunLength

namespace Brackets

variable {word before after rest outer inner : List Command}
variable {pending : List ℕ} {place count : ℕ}

theorem mismatch?_closeLoop (hbefore : Balanced before)
    (after : List Command) :
    mismatch? (before ++ .closeLoop :: after) =
      some ⟨before.length, true⟩ := by
  have hover : Overclosed (before ++ .closeLoop :: after)
      (before.length + 1) := overclosed_closeLoop hbefore
  obtain ⟨place, hmismatch⟩ := mismatch?_unexpected_iff.mpr ⟨_, hover⟩
  have hplace : place = before.length :=
    ((mismatch?_location hmismatch).2.1 rfl).unique
      (isLeast_overclosed hbefore)
  rw [hmismatch, hplace]

theorem mismatch?_openLoop (hbefore : Balanced before)
    (hrest : StaysPositive Command.rise 1 rest) :
    mismatch? (before ++ .openLoop :: rest) =
      some ⟨before.length, false⟩ := by
  obtain ⟨place, hmismatch⟩ := mismatch?_unclosed_iff.mpr
    ⟨fun _ => not_overclosed_openLoop hbefore hrest,
      count_closeLoop_lt hbefore hrest⟩
  have hplace : place = before.length :=
    ((mismatch?_location hmismatch).2.2 rfl).1.unique
      (isLeast_unclosed hbefore hrest)
  rw [hmismatch, hplace]

/-- Nothing that follows mends a closing bracket too many. -/
theorem mismatch?_append_of_unexpected {mismatch : Mismatch}
    (hmismatch : mismatch? word = some mismatch)
    (hunexpected : mismatch.unexpected = true) (rest : List Command) :
    mismatch? (word ++ rest) = some mismatch := by
  obtain ⟨before, after, rfl, hbefore, rfl⟩ | ⟨_, _, -, -, -, rfl⟩ :=
    mismatch?_eq_some hmismatch
  · rw [List.append_assoc, List.cons_append, mismatch?_closeLoop hbefore]
  · cases hunexpected

/-- A loop is not closed when behind its bracket some loop always stays
open. -/
theorem unclosed_openLoop_iff :
    Unclosed (before ++ .openLoop :: rest) before.length ↔
      StaysPositive Command.rise 1 rest := by
  constructor
  · rintro ⟨-, hunclosed⟩ count
    by_contra hdrop
    obtain ⟨body, after, hbody, hbalanced⟩ := exists_body (not_lt.mp hdrop)
    have hrest : rest = body ++ .closeLoop :: (after ++ rest.drop count) := by
      conv_lhs => rw [← List.take_append_drop count rest, hbody]
      rw [List.append_assoc, List.cons_append]
    exact hunclosed _ ⟨before, body, after ++ rest.drop count,
      congrArg (before ++ .openLoop :: ·) hrest, rfl, rfl, hbalanced⟩
  · intro hpositive
    refine ⟨by simp, ?_⟩
    rintro closing ⟨before', inner, after, hsplit, hlength, -, hinner⟩
    obtain ⟨rfl, hrest⟩ := List.append_inj hsplit hlength.symm
    rw [List.cons.injEq] at hrest
    rw [hrest.2, staysPositive_append, (balanced_iff.mp hinner).2,
      staysPositive_cons, Command.rise] at hpositive
    have hend := hpositive.2.2.start_pos
    omega

theorem Balanced.not_unclosed (hbalanced : Balanced word) :
    ¬Unclosed word place := by
  rintro ⟨hopen, hunclosed⟩
  obtain ⟨closing, hpartners⟩ := hbalanced.exists_partner hopen
  exact hunclosed closing hpartners

section Openings

variable (hinner : Balanced inner)

include hinner

/-- A loop that is opened later and left open closes none that was opened
before. -/
theorem unclosed_append_left_iff (hlt : place < outer.length) :
    Unclosed (outer ++ .openLoop :: inner) place ↔ Unclosed outer place := by
  constructor
  · rintro ⟨hopen, hunclosed⟩
    rw [List.getElem?_append_left hlt] at hopen
    exact ⟨hopen, fun closing hpartners =>
      hunclosed closing (hpartners.append_right _)⟩
  · intro hunclosed
    obtain ⟨before, rest, rfl, rfl⟩ := Jumps.exists_split hunclosed.1
    rw [unclosed_openLoop_iff] at hunclosed
    have hend := hunclosed.end_pos
    rw [List.append_assoc, List.cons_append, unclosed_openLoop_iff,
      staysPositive_append, staysPositive_cons, Command.rise]
    exact ⟨hunclosed, hend, (balanced_iff.mp hinner).1.mono (by omega)⟩

theorem not_unclosed_append_right (hlt : outer.length < place) :
    ¬Unclosed (outer ++ .openLoop :: inner) place := by
  rintro ⟨hopen, hunclosed⟩
  obtain ⟨inside, rfl⟩ := Nat.exists_eq_add_of_lt hlt
  rw [List.getElem?_append_right (by omega), add_assoc,
    Nat.add_sub_cancel_left, List.getElem?_cons_succ] at hopen
  obtain ⟨closing, hpartners⟩ := hinner.exists_partner hopen
  have hmoved := hpartners.append_left (outer ++ [.openLoop])
  rw [List.append_assoc, List.singleton_append, List.length_append,
    List.length_singleton, add_right_comm] at hmoved
  exact hunclosed _ hmoved

end Openings

theorem Pending.lt_length (hpending : Pending word pending)
    (hmem : place ∈ pending) : place < word.length := by
  induction hpending with
  | nil hword => simp at hmem
  | cons houter hinner ih =>
      rw [List.length_append, List.length_cons]
      obtain rfl | hmem := List.mem_cons.mp hmem
      · omega
      · have hlt := ih hmem
        omega

/-- The open loops of a word are those that the scan keeps. -/
theorem Pending.unclosed_iff (hpending : Pending word pending) :
    Unclosed word place ↔ place ∈ pending := by
  induction hpending with
  | nil hword => exact iff_of_false hword.not_unclosed List.not_mem_nil
  | @cons outer inner pending houter hinner ih =>
      rw [List.mem_cons]
      obtain hlt | rfl | hgt := lt_trichotomy place outer.length
      · rw [unclosed_append_left_iff hinner hlt, ih]
        exact (or_iff_right hlt.ne).symm
      · exact iff_of_true (unclosed_openLoop_iff.mpr
          (balanced_iff.mp hinner).1) (Or.inl rfl)
      · refine iff_of_false (not_unclosed_append_right hinner hgt) ?_
        rintro (rfl | hmem)
        · exact lt_irrefl _ hgt
        · exact lt_asymm hgt (houter.lt_length hmem)

theorem Pending.nodup (hpending : Pending word pending) : pending.Nodup := by
  induction hpending with
  | nil hword => exact List.nodup_nil
  | cons houter hinner ih =>
      exact List.nodup_cons.mpr
        ⟨fun hmem => lt_irrefl _ (houter.lt_length hmem), ih⟩

theorem Pending.change_rise (hpending : Pending word pending) :
    change Command.rise word = pending.length := by
  induction hpending with
  | nil hword => exact (balanced_iff.mp hword).2
  | cons houter hinner ih =>
      rw [change_append, change_cons, ih, (balanced_iff.mp hinner).2,
        Command.rise, List.length_cons]
      push_cast
      ring

theorem Pending.ncard_unclosed (hpending : Pending word pending) :
    {place | Unclosed word place}.ncard = pending.length := by
  have hset : {place | Unclosed word place} = ↑pending.toFinset := by
    ext place
    rw [List.coe_toFinset]
    exact hpending.unclosed_iff
  rw [hset, Set.ncard_coe_finset,
    List.toFinset_card_of_nodup hpending.nodup]

theorem exists_pending (hmismatch : mismatch? word = some ⟨place, false⟩) :
    ∃ pending, Pending word pending := by
  have hstart : Pending [] [] := .nil (by decide)
  obtain ⟨_, _, -, -, hfalse⟩ | ⟨pending, _, hpending, -⟩ :=
    scan_eq_some hstart hmismatch
  · cases hfalse
  · exact ⟨pending, hpending⟩

section Closings

variable (hmismatch : mismatch? word = some ⟨place, false⟩)

include hmismatch

/-- As many loops are left open as there are more opening brackets than closing
ones. -/
theorem change_rise_eq_ncard :
    change Command.rise word = {other | Unclosed word other}.ncard := by
  obtain ⟨pending, hpending⟩ := exists_pending hmismatch
  rw [hpending.change_rise, hpending.ncard_unclosed]

/-- Too few closing brackets leave the outermost loop open. -/
theorem mismatch?_append_lt
    (hcount : count < {other | Unclosed word other}.ncard) :
    mismatch? (word ++ .increment :: List.replicate count .closeLoop) =
      some ⟨place, false⟩ := by
  have hchange := change_rise_eq_ncard hmismatch
  obtain ⟨_, _, -, -, hfalse⟩ | ⟨before, rest, rfl, hbefore, hrest, hplace⟩ :=
    mismatch?_eq_some hmismatch
  · cases hfalse
  · have hend := hrest.end_pos
    rw [change_append, (balanced_iff.mp hbefore).2, change_cons,
      Command.rise] at hchange
    rw [hplace, List.append_assoc, List.cons_append]
    apply mismatch?_openLoop hbefore
    have hincrement : Command.increment.rise = 0 := rfl
    rw [staysPositive_append, staysPositive_cons, staysPositive_replicate,
      hincrement, Command.rise]
    exact ⟨hrest, hend, by omega, by omega⟩

/-- As many closing brackets as there are open loops close them all. -/
theorem balanced_append_ncard :
    Balanced (word ++ .increment ::
      List.replicate {other | Unclosed word other}.ncard .closeLoop) := by
  have hincrement : Command.increment.rise = 0 := rfl
  have hpositive : StaysPositive Command.rise 1 word := by
    intro initial
    have hover := (unclosed_of_mismatch? hmismatch).1 initial
    rw [overclosed_iff, depth] at hover
    omega
  have hend := hpositive.end_pos
  have hpositive' : StaysPositive Command.rise ((0 : ℕ) + 1)
      (word ++ [.increment]) := by
    rw [Nat.cast_zero, zero_add, staysPositive_append, staysPositive_cons,
      staysPositive_nil, hincrement]
    exact ⟨hpositive, hend, by omega⟩
  have hchange : (0 : ℕ) + change Command.rise (word ++ [.increment]) =
      {other | Unclosed word other}.ncard := by
    rw [change_append, change_cons, change_nil, hincrement,
      change_rise_eq_ncard hmismatch]
    ring
  rw [List.append_cons]
  exact balanced_between hpositive' hchange

theorem mismatch?_append_gt
    (hcount : {other | Unclosed word other}.ncard < count) :
    mismatch? (word ++ .increment :: List.replicate count .closeLoop) =
      some ⟨word.length + 1 + {other | Unclosed word other}.ncard, true⟩ := by
  have hbalanced := balanced_append_ncard hmismatch
  obtain ⟨more, rfl⟩ := Nat.exists_eq_add_of_lt hcount
  have hmismatch := mismatch?_closeLoop hbalanced
    (List.replicate more .closeLoop)
  rw [List.append_assoc, List.cons_append, ← List.replicate_succ,
    List.replicate_append_replicate, ← add_assoc] at hmismatch
  rw [hmismatch, List.length_append, List.length_cons, List.length_replicate,
    add_assoc, add_comm 1]

end Closings

end Brackets

namespace Source

/-- The source with a command and `count` closing brackets after it. -/
def closed (source : Bytes) (count : ℕ) : Bytes :=
  source ++ Command.increment.byte ::
    List.replicate count Command.closeLoop.byte

theorem commands_closed (source : Bytes) (count : ℕ) :
    commands (closed source count) = commands source ++
      .increment :: List.replicate count .closeLoop := by
  have hbytes : Command.increment.byte ::
      List.replicate count Command.closeLoop.byte =
        (.increment :: List.replicate count .closeLoop).map Command.byte := by
    rw [List.map_cons, List.map_replicate]
  rw [closed, commands_append, hbytes, commands_map_byte]

end Source

namespace Program

open Brackets (Balanced Unclosed)

variable {source front back : Bytes} {error : ParseError}
variable {mismatch : Brackets.Mismatch} {word : List Command} {count : ℕ}

theorem parse_of_mismatch?
    (hmismatch : Brackets.mismatch? (Source.commands source) =
      some mismatch) :
    parse source =
      .error (.parse (mismatchError (Source.commands source) mismatch)) :=
  parse_of_encode_error (encode_eq_error_iff.mpr ⟨mismatch, hmismatch, rfl⟩)

/-- A parse error that is no empty loop is a bracket without a partner. -/
theorem exists_mismatch_of_parse (hsize : source.length < 2 ^ 63)
    (hparse : parse source = .error (.parse error))
    (hbracket : error.fault = .unclosedBrackets ∨ error.unexpected = true) :
    ∃ mismatch,
      Brackets.mismatch? (Source.commands source) = some mismatch ∧
        error = mismatchError (Source.commands source) mismatch := by
  obtain ⟨mismatch, hmismatch, hreported⟩ | ⟨_, _, _, _, -, -, -, hreported⟩ :=
    parse_error_cases hsize hparse
  · exact ⟨mismatch, hmismatch, Failure.parse.inj hreported⟩
  · rw [Jumps.emptyLoop, Failure.parse.injEq] at hreported
    rw [hreported] at hbracket
    obtain hfault | hunexpected := hbracket
    · cases hfault
    · cases hunexpected

/-- The report of a bracket does not depend on what follows. -/
theorem mismatchError_append (hlength : word.length < 2 ^ 63)
    (hmismatch : Brackets.mismatch? word = some mismatch)
    (rest : List Command) :
    mismatchError (word ++ rest) mismatch = mismatchError word mismatch := by
  have hplace := (Brackets.mismatch?_location hmismatch).1
  rw [mismatchError, mismatchError,
    RunLength.indexAt_append hlength hplace]

theorem parse_append_of_unexpected
    (hsize : front.length + back.length < 2 ^ 63)
    (hparse : parse front = .error (.parse error))
    (hunexpected : error.unexpected = true) :
    parse (front ++ back) = .error (.parse error) := by
  have hfront : front.length < 2 ^ 63 := by omega
  have hlength := (Source.length_commands_le front).trans_lt hfront
  obtain ⟨mismatch, hmismatch, rfl⟩ :=
    exists_mismatch_of_parse hfront hparse (Or.inr hunexpected)
  rw [← mismatchError_append hlength hmismatch, ← Source.commands_append]
  apply parse_of_mismatch?
  rw [Source.commands_append]
  exact Brackets.mismatch?_append_of_unexpected hmismatch hunexpected _

/-- Closing brackets behind a command make no loop empty. -/
theorem emptyLoopFree_closed_iff :
    EmptyLoopFree (word ++ .increment :: List.replicate count .closeLoop) ↔
      EmptyLoopFree word := by
  have hclosings : EmptyLoopFree
      (.increment :: List.replicate count .closeLoop) := by
    rw [EmptyLoopFree, List.isChain_cons]
    refine ⟨?_, ?_⟩
    · rintro _ - ⟨hfalse, -⟩
      cases hfalse
    · exact List.isChain_replicate_of_rel count (by simp)
  rw [EmptyLoopFree, List.isChain_append]
  constructor
  · exact fun hfree => hfree.1
  · intro hfree
    refine ⟨hfree, hclosings, ?_⟩
    rintro last - first hfirst ⟨-, rfl⟩
    cases hfirst

section Closings

variable (hsize : (Source.closed source count).length < 2 ^ 63)
variable {place : ℕ}
variable (hmismatch : Brackets.mismatch? (Source.commands source) =
  some ⟨place, false⟩)

include hsize hmismatch

theorem parse_closed_lt
    (hlt : count < {other | Unclosed (Source.commands source) other}.ncard) :
    parse (Source.closed source count) = .error (.parse
      (mismatchError (Source.commands source) ⟨place, false⟩)) := by
  have hcommands := Source.commands_closed source count
  have hlength : (Source.commands source).length < 2 ^ 63 := by
    refine (Source.length_commands_le source).trans_lt ?_
    rw [Source.closed, List.length_append] at hsize
    omega
  rw [← mismatchError_append hlength hmismatch, ← hcommands]
  apply parse_of_mismatch?
  rw [hcommands, Brackets.mismatch?_append_lt hmismatch hlt]

theorem parse_closed_eq
    (heq : count = {other | Unclosed (Source.commands source) other}.ncard) :
    (∃ program, encode (Source.closed source count) = .ok program) ∧
      ((∃ program, parse (Source.closed source count) = .ok program) ↔
        ∀ other, ¬EmptyLoopAt (Source.commands source) other) := by
  have hbalanced : Balanced (Source.commands (Source.closed source count)) := by
    rw [Source.commands_closed, heq]
    exact Brackets.balanced_append_ncard hmismatch
  refine ⟨⟨_, encode_eq_ok_iff.mpr ⟨hbalanced, rfl⟩⟩, ?_⟩
  rw [parse_isOk_iff hsize, and_iff_right hbalanced, Source.commands_closed,
    emptyLoopFree_closed_iff, emptyLoopFree_iff]

theorem parse_closed_gt
    (hgt : {other | Unclosed (Source.commands source) other}.ncard < count) :
    ∃ error : ParseError,
      parse (Source.closed source count) = .error (.parse error) ∧
        error.unexpected = true ∧
        error.offset.toInt = (Source.commands source).length + 1 +
          {other | Unclosed (Source.commands source) other}.ncard := by
  have hmismatch' := Brackets.mismatch?_append_gt hmismatch hgt
  rw [← Source.commands_closed] at hmismatch'
  have hlt := (Brackets.mismatch?_location hmismatch').1
  have hlength := (Source.length_commands_le _).trans_lt hsize
  refine ⟨_, parse_of_mismatch? hmismatch', rfl, ?_⟩
  have hoffset := Int64.toInt_ofNat_of_lt (hlt.trans hlength)
  exact_mod_cast hoffset

end Closings

/-- What follows does not mend a closing bracket too many.  Loops that are left
open are mended by as many closing brackets as there are such loops, and by no
other number. -/
theorem parse_continued :
    (∀ (front back : Bytes) (error : ParseError),
        front.length + back.length < 2 ^ 63 →
        parse front = .error (.parse error) → error.unexpected = true →
          parse (front ++ back) = .error (.parse error)) ∧
      ∀ (front : Bytes) (word : List Command) (error : ParseError),
        Source.filtered front = word.map Command.byte →
        parse front = .error (.parse error) →
        error.fault = .unclosedBrackets → error.unexpected = false →
        ∀ opened count : ℕ,
          {place | Unclosed word place}.ncard = opened →
          (Source.closed front count).length < 2 ^ 63 →
            (count < opened →
              parse (Source.closed front count) = .error (.parse error)) ∧
            (count = opened →
              (∃ program, encode (Source.closed front count) = .ok program) ∧
                ((∃ program,
                    parse (Source.closed front count) = .ok program) ↔
                  ∀ place, ¬EmptyLoopAt word place)) ∧
            (opened < count → ∃ error' : ParseError,
              parse (Source.closed front count) = .error (.parse error') ∧
                error'.unexpected = true ∧
                error'.offset.toInt = word.length + 1 + opened) := by
  refine ⟨fun _ _ _ => parse_append_of_unexpected, ?_⟩
  rintro front word error hword hparse hfault hunexpected _ count rfl hsize
  obtain rfl := Source.commands_of_filtered hword
  have hfront : front.length < 2 ^ 63 := by
    rw [Source.closed, List.length_append] at hsize
    omega
  obtain ⟨⟨place, unexpected⟩, hmismatch, rfl⟩ :=
    exists_mismatch_of_parse hfront hparse (Or.inl hfault)
  obtain rfl : unexpected = false := hunexpected
  exact ⟨parse_closed_lt hsize hmismatch, parse_closed_eq hsize hmismatch,
    parse_closed_gt hsize hmismatch⟩

/-- A closing bracket too many behind a loop, and two open loops with a comment
between them that take one, two and three closing brackets. -/
theorem parse_continued_nested :
    (∃ error : ParseError,
      parse [91, 43, 93, 93] = .error (.parse error) ∧
        parse ([91, 43, 93, 93] ++ [93, 91, 33]) = .error (.parse error)) ∧
      (∃ error : ParseError, parse [91, 33, 91] = .error (.parse error) ∧
        parse (Source.closed [91, 33, 91] 1) = .error (.parse error)) ∧
      (∃ program, parse (Source.closed [91, 33, 91] 2) = .ok program) ∧
      ∃ error : ParseError,
        parse (Source.closed [91, 33, 91] 3) = .error (.parse error) ∧
          error.unexpected = true ∧ error.offset.toInt = 2 + 1 + 2 := by
  obtain ⟨hunexpected, hunclosed⟩ := parse_continued
  have hfirst : parse [91, 43, 93, 93] =
      .error (.parse ⟨.unclosedBrackets, 3, 2, true⟩) := rfl
  have hparse : parse [91, 33, 91] =
      .error (.parse ⟨.unclosedBrackets, 0, 0, false⟩) := rfl
  have hmismatch : Brackets.mismatch? [.openLoop, .openLoop] =
      some ⟨0, false⟩ := rfl
  have hopened : {place | Unclosed [.openLoop, .openLoop] place}.ncard = 2 := by
    have hchange : (2 : ℤ) = _ := Brackets.change_rise_eq_ncard hmismatch
    exact_mod_cast hchange.symm
  have hclosings := fun count =>
    hunclosed [91, 33, 91] _ _ rfl hparse rfl rfl 2 count hopened
  refine ⟨⟨_, hfirst, hunexpected _ _ _ (by decide) hfirst rfl⟩,
    ⟨_, hparse, (hclosings 1 (by decide)).1 (by decide)⟩, ?_,
    (hclosings 3 (by decide)).2.2 (by decide)⟩
  obtain ⟨-, hiff⟩ := (hclosings 2 (by decide)).2.1 rfl
  have hfree : EmptyLoopFree [.openLoop, .openLoop] := by
    rw [EmptyLoopFree]
    decide
  exact hiff.mpr (emptyLoopFree_iff.mp hfree)

end Program

end BrainfuckFront
