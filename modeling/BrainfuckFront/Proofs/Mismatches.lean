import Mathlib
import BrainfuckFront.Proofs.Places

/-!
# Brackets without a partner

The scan for a bracket without a partner keeps the places of the loops that are
open.  These cut what has been read into balanced words, after every step.  So
the scan stops at a closing bracket just when it is the first one too many, and
what it reports at the end is the first opening bracket that nothing closes,
behind the longest initial part in which as many loops are closed as opened.
-/

namespace BrainfuckFront

open Level

namespace Brackets

/-- The first `count` commands close more loops than they open. -/
def Overclosed (word : List Command) (count : ℕ) : Prop :=
  (word.take count).count .openLoop < (word.take count).count .closeLoop

/-- The command at `place` opens a loop that nothing closes. -/
def Unclosed (word : List Command) (place : ℕ) : Prop :=
  word[place]? = some .openLoop ∧ ∀ closing, ¬Partners word place closing

/-- After `word` has been read, the loops that were opened at the places
`pending` are still open, the innermost first.  All other brackets match. -/
inductive Pending : List Command → List ℕ → Prop
  | nil {word : List Command} (hword : Balanced word) : Pending word []
  | cons {outer inner : List Command} {pending : List ℕ}
      (houter : Pending outer pending) (hinner : Balanced inner) :
      Pending (outer ++ .openLoop :: inner) (outer.length :: pending)

variable {word read before after rest : List Command} {pending : List ℕ}
variable {place count : ℕ}

theorem Pending.append (hpending : Pending word pending)
    (hrest : Balanced rest) : Pending (word ++ rest) pending := by
  cases hpending with
  | nil hword => exact .nil (hword.append hrest)
  | cons houter hinner =>
      rw [List.append_assoc, List.cons_append]
      exact .cons houter (hinner.append hrest)

theorem Pending.openLoop (hpending : Pending word pending) :
    Pending (word ++ [.openLoop]) (word.length :: pending) :=
  .cons hpending (by decide)

/-- A closing bracket makes the innermost open loop a balanced part of the word
around it. -/
theorem Pending.closeLoop {innermost : ℕ}
    (hpending : Pending word (innermost :: pending)) :
    Pending (word ++ [.closeLoop]) pending := by
  cases hpending with
  | cons houter hinner =>
      rw [List.append_assoc, List.cons_append]
      exact houter.append (balanced_loop hinner (by decide))

/-- All that the scan finds: a closing bracket behind a balanced word, or else
the outermost of the loops that are open at the end. -/
theorem scan_eq_some {mismatch : Mismatch} (hpending : Pending read pending)
    (hscan : scan read.length pending word = some mismatch) :
    (∃ before after, read ++ word = before ++ .closeLoop :: after ∧
        Balanced before ∧ mismatch = ⟨before.length, true⟩) ∨
      ∃ pending' outermost, Pending (read ++ word) pending' ∧
        pending'.getLast? = some outermost ∧
        mismatch = ⟨outermost, false⟩ := by
  induction word generalizing read pending with
  | nil =>
      rw [scan, Option.map_eq_some_iff] at hscan
      obtain ⟨outermost, hlast, rfl⟩ := hscan
      rw [List.append_nil]
      exact Or.inr ⟨pending, outermost, hpending, hlast, rfl⟩
  | cons command word ih =>
      have hnext {pending' : List ℕ}
          (hpending' : Pending (read ++ [command]) pending')
          (hscan' : scan (read.length + 1) pending' word = some mismatch) := by
        have hlength : read.length + 1 = (read ++ [command]).length := by simp
        rw [hlength] at hscan'
        have hfound := ih hpending' hscan'
        rw [List.append_assoc, List.singleton_append] at hfound
        exact hfound
      cases command with
      | openLoop => exact hnext hpending.openLoop hscan
      | closeLoop =>
          cases pending with
          | nil =>
              cases hpending with
              | nil hread =>
                  rw [scan, Option.some.injEq] at hscan
                  exact Or.inl ⟨read, word, rfl, hread, hscan.symm⟩
          | cons innermost pending => exact hnext hpending.closeLoop hscan
      | _ => exact hnext (hpending.append (by decide)) hscan

/-- The outermost open loop starts behind a balanced word, and behind its
bracket no loop is closed that was opened before. -/
theorem Pending.exists_outermost {outermost : ℕ}
    (hpending : Pending word pending)
    (hlast : pending.getLast? = some outermost) :
    ∃ before rest, word = before ++ .openLoop :: rest ∧
      before.length = outermost ∧ Balanced before ∧
      StaysPositive Command.rise 1 rest := by
  induction hpending with
  | nil hword => simp at hlast
  | @cons outer inner pending houter hinner ih =>
      have hpositive := (balanced_iff.mp hinner).1
      cases pending with
      | nil =>
          cases houter with
          | nil hword =>
              rw [List.getLast?_singleton, Option.some.injEq] at hlast
              exact ⟨outer, inner, rfl, hlast, hword, hpositive⟩
      | cons innermost pending =>
          rw [List.getLast?_cons_cons] at hlast
          obtain ⟨before, rest, rfl, hlength, hbefore, hrest⟩ := ih hlast
          have hlevel := hrest.end_pos
          refine ⟨before, rest ++ .openLoop :: inner, by simp, hlength,
            hbefore, ?_⟩
          rw [staysPositive_append, staysPositive_cons, Command.rise]
          exact ⟨hrest, hlevel, hpositive.mono (by omega)⟩

/-- All that can be wrong with the brackets of a word. -/
theorem mismatch?_eq_some {mismatch : Mismatch}
    (hmismatch : mismatch? word = some mismatch) :
    (∃ before after, word = before ++ .closeLoop :: after ∧
        Balanced before ∧ mismatch = ⟨before.length, true⟩) ∨
      ∃ before rest, word = before ++ .openLoop :: rest ∧ Balanced before ∧
        StaysPositive Command.rise 1 rest ∧
        mismatch = ⟨before.length, false⟩ := by
  have hstart : Pending [] [] := .nil (by decide)
  obtain hclose | ⟨pending, outermost, hpending, hlast, rfl⟩ :=
    scan_eq_some hstart hmismatch
  · exact Or.inl hclose
  · obtain ⟨before, rest, hword, rfl, hbefore, hrest⟩ :=
      hpending.exists_outermost hlast
    exact Or.inr ⟨before, rest, hword, hbefore, hrest, rfl⟩

theorem overclosed_iff : Overclosed word count ↔ depth word count < 0 := by
  rw [Overclosed, depth, change_rise]
  omega

theorem Balanced.not_overclosed (hbalanced : Balanced word) :
    ¬Overclosed word count :=
  not_lt.mpr (hbalanced.initial count)

section Unexpected

variable (hbefore : Balanced before)

include hbefore

theorem overclosed_closeLoop :
    Overclosed (before ++ .closeLoop :: after) (before.length + 1) := by
  have htake : (before ++ Command.closeLoop :: after).take
      (before.length + 1) = before ++ [.closeLoop] := by
    rw [List.take_length_add_append]
    rfl
  rw [overclosed_iff, depth, htake, change_append,
    (balanced_iff.mp hbefore).2, change_cons, change_nil, Command.rise]
  norm_num

theorem isLeast_overclosed :
    IsLeast {other | other < (before ++ Command.closeLoop :: after).length ∧
      Overclosed (before ++ .closeLoop :: after) (other + 1)}
      before.length := by
  refine ⟨⟨by simp, overclosed_closeLoop hbefore⟩, ?_⟩
  rintro place ⟨-, hover⟩
  by_contra hlt
  rw [Overclosed, List.take_append_of_le_length (by omega)] at hover
  exact hbefore.not_overclosed hover

end Unexpected

section Unclosed

variable (hbefore : Balanced before) (hrest : StaysPositive Command.rise 1 rest)

include hbefore

theorem depth_openLoop :
    depth (before ++ .openLoop :: rest) before.length = 0 := by
  rw [depth, List.take_left]
  exact (balanced_iff.mp hbefore).2

include hrest

/-- Behind the bracket of a loop that stays open, some loop is open. -/
theorem depth_pos (hlt : before.length < place) :
    0 < depth (before ++ .openLoop :: rest) place := by
  obtain ⟨count, rfl⟩ := Nat.exists_eq_add_of_lt hlt
  have hpositive := hrest count
  rw [depth, add_assoc, List.take_length_add_append, List.take_succ_cons,
    change_append, (balanced_iff.mp hbefore).2, change_cons, Command.rise]
  omega

theorem not_overclosed_openLoop :
    ¬Overclosed (before ++ .openLoop :: rest) count := by
  by_cases hle : count ≤ before.length
  · rw [Overclosed, List.take_append_of_le_length hle]
    exact hbefore.not_overclosed
  · have hpos := depth_pos hbefore hrest (not_le.mp hle)
    rw [overclosed_iff]
    omega

theorem isLeast_unclosed :
    IsLeast {other | Unclosed (before ++ .openLoop :: rest) other}
      before.length := by
  constructor
  · refine ⟨by simp, fun closing hpartners => ?_⟩
    -- behind the partner no more loops would be open than before the bracket
    have hpos := depth_pos hbefore hrest
      (hpartners.opening_lt.trans (Nat.lt_succ_self closing))
    rw [hpartners.depth_behind, depth_openLoop hbefore] at hpos
    exact lt_irrefl 0 hpos
  · rintro place ⟨hopen, hunclosed⟩
    by_contra hlt
    rw [List.getElem?_append_left (not_le.mp hlt)] at hopen
    obtain ⟨closing, hpartners⟩ := hbefore.exists_partner hopen
    exact hunclosed closing (hpartners.append_right _)

theorem isGreatest_balanced :
    IsGreatest {count | count ≤ (before ++ Command.openLoop :: rest).length ∧
      ((before ++ .openLoop :: rest).take count).count Command.openLoop =
        ((before ++ .openLoop :: rest).take count).count .closeLoop}
      before.length := by
  constructor
  · refine ⟨by simp, ?_⟩
    rw [List.take_left]
    exact hbefore.total.symm
  · rintro count ⟨-, hequal⟩
    by_contra hlt
    have hpos := depth_pos hbefore hrest (not_le.mp hlt)
    rw [depth, change_rise] at hpos
    omega

theorem count_closeLoop_lt :
    (before ++ Command.openLoop :: rest).count .closeLoop <
      (before ++ Command.openLoop :: rest).count .openLoop := by
  have hpos := depth_pos hbefore hrest
    (show before.length < (before ++ Command.openLoop :: rest).length by simp)
  rw [depth, List.take_length, change_rise] at hpos
  omega

end Unclosed

/-- Where the scan reports a bracket. -/
theorem mismatch?_location {mismatch : Mismatch}
    (hmismatch : mismatch? word = some mismatch) :
    mismatch.offset < word.length ∧
      (mismatch.unexpected = true →
        IsLeast {other | other < word.length ∧ Overclosed word (other + 1)}
          mismatch.offset) ∧
      (mismatch.unexpected = false →
        IsLeast {other | Unclosed word other} mismatch.offset ∧
          IsGreatest {count | count ≤ word.length ∧
            (word.take count).count .openLoop =
              (word.take count).count .closeLoop} mismatch.offset) := by
  obtain ⟨before, after, rfl, hbefore, rfl⟩ |
    ⟨before, rest, rfl, hbefore, hrest, rfl⟩ := mismatch?_eq_some hmismatch
  · refine ⟨by simp, fun _ => isLeast_overclosed hbefore, fun hfalse => ?_⟩
    cases hfalse
  · refine ⟨by simp, fun hfalse => ?_, fun _ => ?_⟩
    · cases hfalse
    · exact ⟨isLeast_unclosed hbefore hrest,
        isGreatest_balanced hbefore hrest⟩

theorem overclosed_of_mismatch?
    (hmismatch : mismatch? word = some ⟨place, true⟩) :
    ∃ count, Overclosed word count := by
  obtain ⟨-, hleast, -⟩ := mismatch?_location hmismatch
  exact ⟨place + 1, (hleast rfl).1.2⟩

theorem unclosed_of_mismatch?
    (hmismatch : mismatch? word = some ⟨place, false⟩) :
    (∀ count, ¬Overclosed word count) ∧
      word.count .closeLoop < word.count .openLoop := by
  obtain ⟨_, _, -, -, hfalse⟩ | ⟨before, rest, rfl, hbefore, hrest, -⟩ :=
    mismatch?_eq_some hmismatch
  · cases hfalse
  · exact ⟨fun count => not_overclosed_openLoop hbefore hrest,
      count_closeLoop_lt hbefore hrest⟩

/-- A closing bracket is reported when some initial part closes too many
loops. -/
theorem mismatch?_unexpected_iff :
    (∃ place, mismatch? word = some ⟨place, true⟩) ↔
      ∃ count, Overclosed word count := by
  constructor
  · rintro ⟨place, hmismatch⟩
    exact overclosed_of_mismatch? hmismatch
  · rintro ⟨count, hover⟩
    cases hmismatch : mismatch? word with
    | none =>
        have hbalanced := mismatch?_eq_none_iff.mp hmismatch
        exact absurd hover hbalanced.not_overclosed
    | some mismatch =>
        obtain ⟨place, _ | _⟩ := mismatch
        · exact absurd hover ((unclosed_of_mismatch? hmismatch).1 count)
        · exact ⟨place, rfl⟩

/-- An opening bracket is reported when no initial part closes too many loops and
some loop is not closed. -/
theorem mismatch?_unclosed_iff :
    (∃ place, mismatch? word = some ⟨place, false⟩) ↔
      (∀ count, ¬Overclosed word count) ∧
        word.count .closeLoop < word.count .openLoop := by
  constructor
  · rintro ⟨place, hmismatch⟩
    exact unclosed_of_mismatch? hmismatch
  · rintro ⟨hover, hcount⟩
    cases hmismatch : mismatch? word with
    | none =>
        have hbalanced := mismatch?_eq_none_iff.mp hmismatch
        exact absurd hbalanced.total hcount.ne
    | some mismatch =>
        obtain ⟨place, _ | _⟩ := mismatch
        · exact ⟨place, rfl⟩
        · obtain ⟨count, hcontra⟩ := overclosed_of_mismatch? hmismatch
          exact absurd hcontra (hover count)

theorem balanced_iff_not_overclosed :
    Balanced word ↔ (∀ count, ¬Overclosed word count) ∧
      word.count .openLoop ≤ word.count .closeLoop := by
  constructor
  · intro hbalanced
    exact ⟨fun count => hbalanced.not_overclosed, hbalanced.total.ge⟩
  · rintro ⟨hover, hcount⟩
    have hinitial := fun count => not_lt.mp (hover count)
    have htotal := hinitial word.length
    rw [List.take_length] at htotal
    exact ⟨hinitial, le_antisymm htotal hcount⟩

end Brackets

namespace Program

open Brackets (Overclosed Unclosed)

variable {source : Bytes} {word : List Command}

theorem exists_encode_error_iff {unexpected : Bool} :
    (∃ error : ParseError, encode source = .error (.parse error) ∧
        error.unexpected = unexpected) ↔
      ∃ place, Brackets.mismatch? (Source.commands source) =
        some ⟨place, unexpected⟩ := by
  constructor
  · rintro ⟨error, hencode, rfl⟩
    obtain ⟨mismatch, hmismatch, herror⟩ := encode_eq_error_iff.mp hencode
    rw [Failure.parse.injEq] at herror
    rw [herror]
    exact ⟨mismatch.offset, hmismatch⟩
  · rintro ⟨place, hmismatch⟩
    exact ⟨_, encode_eq_error_iff.mpr ⟨_, hmismatch, rfl⟩, rfl⟩

/-- Encoding fails exactly at the words whose brackets do not match, and says
where. -/
theorem encode_locates_mismatch (hsize : source.length < 2 ^ 63)
    (hword : Source.commands source = word) :
    ((∃ error : ParseError, encode source = .error (.parse error) ∧
          error.unexpected = true) ↔
        ∃ count, Overclosed word count) ∧
      ((∃ error : ParseError, encode source = .error (.parse error) ∧
          error.unexpected = false) ↔
        (∀ count, ¬Overclosed word count) ∧
          word.count .closeLoop < word.count .openLoop) ∧
      ((∃ program, encode source = .ok program) ↔
        (∀ count, ¬Overclosed word count) ∧
          word.count .openLoop ≤ word.count .closeLoop) ∧
      ∀ failure, encode source = .error failure →
        ∃ (error : ParseError) (place : ℕ), failure = .parse error ∧
          error.fault = .unclosedBrackets ∧ error.offset.toInt = place ∧
          error.instruction.toInt = ((Finset.Icc 1 place).filter fun later =>
            word[later]? ≠ word[later - 1]?).card ∧
          (error.unexpected = true →
            IsLeast {other | other < word.length ∧
              Overclosed word (other + 1)} place) ∧
          (error.unexpected = false →
            IsLeast {other | Unclosed word other} place ∧
              IsGreatest {count | count ≤ word.length ∧
                (word.take count).count .openLoop =
                  (word.take count).count .closeLoop} place) := by
  subst hword
  have hlength := (Source.length_commands_le source).trans_lt hsize
  refine ⟨?_, ?_, ?_, ?_⟩
  · rw [exists_encode_error_iff, Brackets.mismatch?_unexpected_iff]
  · rw [exists_encode_error_iff, Brackets.mismatch?_unclosed_iff]
  · simp only [encode_eq_ok_iff, exists_and_left, exists_eq', and_true]
    exact Brackets.balanced_iff_not_overclosed
  · intro failure hencode
    obtain ⟨mismatch, hmismatch, rfl⟩ := encode_eq_error_iff.mp hencode
    obtain ⟨hlt, hlocation⟩ := Brackets.mismatch?_location hmismatch
    exact ⟨_, mismatch.offset, rfl, rfl,
      Int64.toInt_ofNat_of_lt (hlt.trans hlength),
      RunLength.toInt_indexAt hlength hlt, hlocation⟩

/-- In the first source the second loop is not closed, although the one inside
it is. -/
theorem encode_locates_mismatch_outermost :
    (∃ (error : ParseError) (place : ℕ),
      encode [43, 91, 43, 93, 62, 91, 91, 45, 93] = .error (.parse error) ∧
        error.offset.toInt = place ∧
        IsLeast {other | Unclosed [.increment, .openLoop, .increment,
          .closeLoop, .right, .openLoop, .openLoop, .decrement, .closeLoop]
          other} place) ∧
      ∃ (error : ParseError) (place : ℕ),
        encode [91, 43, 93, 93, 91] = .error (.parse error) ∧
          error.offset.toInt = place ∧
          IsLeast {other | other < 5 ∧ Overclosed [.openLoop, .increment,
            .closeLoop, .closeLoop, .openLoop] (other + 1)} place := by
  constructor
  · have hencode : encode [43, 91, 43, 93, 62, 91, 91, 45, 93] =
        .error (.parse ⟨.unclosedBrackets, 5, 5, false⟩) := rfl
    obtain ⟨error, place, herror, -, hoffset, -, -, hunclosed⟩ :=
      (encode_locates_mismatch (by decide) rfl).2.2.2 _ hencode
    cases herror
    exact ⟨_, place, hencode, hoffset, (hunclosed rfl).1⟩
  · have hencode : encode [91, 43, 93, 93, 91] =
        .error (.parse ⟨.unclosedBrackets, 3, 2, true⟩) := rfl
    obtain ⟨error, place, herror, -, hoffset, -, hunexpected, -⟩ :=
      (encode_locates_mismatch (by decide) rfl).2.2.2 _ hencode
    cases herror
    exact ⟨_, place, hencode, hoffset, hunexpected rfl⟩

end Program

end BrainfuckFront
