import Mathlib
import BrainfuckFront.Brackets
import BrainfuckFront.Proofs.Level

/-!
# Nesting of loops

What it means for the brackets of a word of commands to match, said without any
scan: a word is balanced when no initial part closes more loops than it opens
and none is open at the end, and two brackets are partners when the word between
them is balanced.  The scan for a bracket without a partner accepts exactly the
balanced words.
-/

namespace BrainfuckFront

/-- How a command moves the number of open loops. -/
def Command.rise : Command → ℤ
  | .openLoop => 1
  | .closeLoop => -1
  | _ => 0

theorem Command.eq_closeLoop_of_rise_neg {command : Command}
    (hrise : command.rise < 0) : command = .closeLoop := by
  cases command with
  | closeLoop => rfl
  | _ => simp [rise] at hrise

namespace Brackets

open Level

/-- No initial part closes more loops than it opens, and all loops are closed
at the end. -/
structure Balanced (word : List Command) : Prop where
  initial : ∀ count, (word.take count).count .closeLoop ≤
    (word.take count).count .openLoop
  total : word.count .closeLoop = word.count .openLoop

theorem change_rise (word : List Command) :
    change Command.rise word =
      word.count .openLoop - word.count .closeLoop := by
  induction word with
  | nil => rfl
  | cons command word ih =>
      rw [change_cons, ih]
      cases command <;> simp [Command.rise] <;> ring

theorem balanced_iff {word : List Command} :
    Balanced word ↔ StaysPositive Command.rise 1 word ∧
      change Command.rise word = 0 := by
  simp only [StaysPositive, change_rise]
  constructor
  · rintro ⟨hinitial, htotal⟩
    refine ⟨fun count => ?_, by omega⟩
    have := hinitial count
    omega
  · rintro ⟨hpositive, hzero⟩
    refine ⟨fun count => ?_, by omega⟩
    have := hpositive count
    omega

/-- A word that keeps some loops open and leaves others open is completed by
brackets on both sides. -/
theorem balanced_between {opened closed : ℕ} {word : List Command}
    (hpositive : StaysPositive Command.rise (opened + 1) word)
    (hchange : opened + change Command.rise word = closed) :
    Balanced (List.replicate opened .openLoop ++
      (word ++ List.replicate closed .closeLoop)) := by
  rw [balanced_iff, staysPositive_append, staysPositive_append,
    staysPositive_replicate, staysPositive_replicate, change_append,
    change_append, change_replicate, change_replicate, Command.rise,
    Command.rise, mul_one, add_comm 1 (opened : ℤ)]
  exact ⟨⟨by omega, hpositive, by omega, by omega⟩, by omega⟩

theorem Balanced.append {left right : List Command} (hleft : Balanced left)
    (hright : Balanced right) : Balanced (left ++ right) := by
  obtain ⟨hpositive, hzero⟩ := balanced_iff.mp hleft
  obtain ⟨hpositive', hzero'⟩ := balanced_iff.mp hright
  rw [balanced_iff, staysPositive_append, change_append, hzero, hzero',
    add_zero]
  exact ⟨⟨hpositive, hpositive'⟩, rfl⟩

theorem Balanced.head?_ne_closeLoop {word : List Command}
    (hbalanced : Balanced word) : word.head? ≠ some .closeLoop := by
  intro hhead
  obtain ⟨rest, rfl⟩ := List.head?_eq_some_iff.mp hhead
  have hpositive := (balanced_iff.mp hbalanced).1
  rw [staysPositive_cons, Command.rise] at hpositive
  linarith [hpositive.2.start_pos]

theorem Balanced.getLast?_ne_openLoop {word : List Command}
    (hbalanced : Balanced word) : word.getLast? ≠ some .openLoop := by
  intro hlast
  obtain ⟨initial, rfl⟩ := List.getLast?_eq_some_iff.mp hlast
  obtain ⟨hpositive, hzero⟩ := balanced_iff.mp hbalanced
  rw [staysPositive_append] at hpositive
  rw [change_append, change_cons, change_nil, Command.rise] at hzero
  linarith [hpositive.1.end_pos]

/-- A word that closes more loops than it opens closes one more after a balanced
part. -/
theorem exists_body {word : List Command}
    (hchange : 1 + change Command.rise word ≤ 0) :
    ∃ body after, word = body ++ .closeLoop :: after ∧ Balanced body := by
  obtain ⟨position, hfound⟩ := exists_firstDrop one_pos hchange
  obtain ⟨body, command, after, rfl, -, hbody, hdrop⟩ :=
    (firstDrop_eq_some_iff one_pos).mp hfound
  have hend := hbody.end_pos
  obtain rfl : command = .closeLoop :=
    Command.eq_closeLoop_of_rise_neg (by omega)
  rw [Command.rise] at hdrop
  exact ⟨body, after, rfl, balanced_iff.mpr ⟨hbody, by omega⟩⟩

/-- A balanced word that starts with a loop splits into the body of that loop
and what follows it. -/
theorem Balanced.exists_loop {rest : List Command}
    (hbalanced : Balanced (.openLoop :: rest)) :
    ∃ body after, rest = body ++ .closeLoop :: after ∧ Balanced body ∧
      Balanced after := by
  obtain ⟨hpositive, hzero⟩ := balanced_iff.mp hbalanced
  rw [staysPositive_cons, Command.rise] at hpositive
  rw [change_cons, Command.rise] at hzero
  obtain ⟨body, after, rfl, hbody⟩ := exists_body hzero.le
  have hchange := (balanced_iff.mp hbody).2
  rw [change_append, change_cons, Command.rise, hchange] at hzero
  rw [staysPositive_append, staysPositive_cons, Command.rise,
    hchange] at hpositive
  refine ⟨body, after, rfl, hbody, balanced_iff.mpr ⟨?_, by omega⟩⟩
  simpa using hpositive.2.2.2

/-- The scan succeeds when the loops of `pending` and of the word are all
closed, each after it was opened. -/
theorem scan_eq_none_iff {offset : ℕ} {pending : List ℕ}
    {word : List Command} :
    scan offset pending word = none ↔
      StaysPositive Command.rise (pending.length + 1) word ∧
        pending.length + change Command.rise word = 0 := by
  induction word generalizing offset pending with
  | nil =>
      rw [scan, Option.map_eq_none_iff, List.getLast?_eq_none_iff,
        staysPositive_nil, change_nil, ← List.length_eq_zero_iff]
      omega
  | cons command word ih =>
      rw [staysPositive_cons_iff (by omega), change_cons]
      cases command with
      | openLoop =>
          rw [scan, ih, List.length_cons, Command.rise]
          push_cast
          exact and_congr_right fun _ => by omega
      | closeLoop =>
          cases pending with
          | nil =>
              rw [scan, Command.rise]
              refine iff_of_false (by simp) ?_
              rintro ⟨hpositive, -⟩
              simpa using hpositive.start_pos
          | cons innermost outer =>
              rw [scan, ih, List.length_cons, Command.rise]
              push_cast
              rw [add_neg_cancel_right]
              exact and_congr_right fun _ => by omega
      | _ => simp only [scan, ih, Command.rise, add_zero, zero_add]

theorem mismatch?_eq_none_iff {word : List Command} :
    mismatch? word = none ↔ Balanced word := by
  rw [mismatch?, scan_eq_none_iff, balanced_iff]
  simp

instance : DecidablePred Balanced := fun _ =>
  decidable_of_iff _ mismatch?_eq_none_iff

/-- The bracket at `opening` opens the loop that the one at `closing`
closes. -/
def Partners (word : List Command) (opening closing : ℕ) : Prop :=
  ∃ before inner after,
    word = before ++ .openLoop :: (inner ++ .closeLoop :: after) ∧
      before.length = opening ∧ opening + inner.length + 1 = closing ∧
      Balanced inner

/-- From an opening bracket its partner is found by reading to the right. -/
theorem Partners.firstDrop_drop {word : List Command} {opening closing : ℕ}
    (hpartners : Partners word opening closing) :
    (firstDrop Command.rise 1 (word.drop (opening + 1))).map
      (opening + 1 + ·) = some closing := by
  obtain ⟨before, inner, after, rfl, rfl, rfl, hinner⟩ := hpartners
  obtain ⟨hpositive, hzero⟩ := balanced_iff.mp hinner
  have hfound : firstDrop Command.rise 1 (inner ++ .closeLoop :: after) =
      some inner.length :=
    (firstDrop_eq_some_iff one_pos).mpr
      ⟨inner, .closeLoop, after, rfl, rfl, hpositive, by simp [hzero, Command.rise]⟩
  have hdrop : (before ++ Command.openLoop ::
      (inner ++ .closeLoop :: after)).drop (before.length + 1) =
        inner ++ .closeLoop :: after := by
    simp [List.drop_append]
  rw [hdrop, hfound, Option.map_some]
  congr 1
  omega

/-- From a closing bracket its partner is found by reading to the left. -/
theorem Partners.firstDrop_take {word : List Command} {opening closing : ℕ}
    (hpartners : Partners word opening closing) :
    (firstDrop (fun command => -command.rise) 1
      (word.take closing).reverse).map (closing - 1 - ·) = some opening := by
  obtain ⟨before, inner, after, rfl, rfl, rfl, hinner⟩ := hpartners
  obtain ⟨hpositive, hzero⟩ := balanced_iff.mp hinner
  have htake : (before ++ Command.openLoop ::
      (inner ++ .closeLoop :: after)).take (before.length + inner.length + 1) =
        before ++ .openLoop :: inner := by
    rw [List.take_append, List.take_of_length_le (by omega),
      show before.length + inner.length + 1 - before.length =
        inner.length + 1 by omega, List.take_succ_cons, List.take_left]
  have hfound : firstDrop (fun command => -command.rise) 1
      (before ++ .openLoop :: inner).reverse = some inner.length := by
    refine (firstDrop_eq_some_iff one_pos).mpr
      ⟨inner.reverse, .openLoop, before.reverse, by simp, by simp, ?_, ?_⟩
    · rw [staysPositive_reverse_neg, hzero, sub_zero]
      exact hpositive
    · rw [change_neg, change_reverse, hzero, Command.rise]
      norm_num
  rw [htake, hfound, Option.map_some]
  congr 1
  omega

/-- No bracket has two partners on its right. -/
theorem Partners.closing_unique {word : List Command}
    {opening left right : ℕ} (hleft : Partners word opening left)
    (hright : Partners word opening right) : left = right := by
  simpa [hleft.firstDrop_drop] using hright.firstDrop_drop

/-- No bracket has two partners on its left. -/
theorem Partners.opening_unique {word : List Command}
    {left right closing : ℕ} (hleft : Partners word left closing)
    (hright : Partners word right closing) : left = right := by
  simpa [hleft.firstDrop_take] using hright.firstDrop_take

end Brackets

end BrainfuckFront
