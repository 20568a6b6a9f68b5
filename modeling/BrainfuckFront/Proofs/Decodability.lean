import Mathlib

/-!
# Texts that can be taken apart

Things that are written one after another can be told apart again when each of
them shows where it ends.  A word ends before the first character that it cannot
hold, and a numeral is such a word.  A code is prefix-free when whatever follows
it can be split off, and then a list of codes can be taken apart from the front
until the text that ends the list is reached.
-/

namespace BrainfuckFront.Text

/-- No character at the front of `rest` could belong to a word of such
letters. -/
def Ends (letter : Char → Bool) (rest : List Char) : Prop :=
  ∀ char ∈ rest.head?, letter char = false

theorem ends_cons {letter : Char → Bool} {char : Char} {rest : List Char} :
    Ends letter (char :: rest) ↔ letter char = false := by
  simp [Ends]

theorem takeWhile_word_append {letter : Char → Bool} {word rest : List Char}
    (hword : ∀ char ∈ word, letter char = true) (hrest : Ends letter rest) :
    (word ++ rest).takeWhile letter = word := by
  rw [List.takeWhile_append_of_pos hword]
  cases rest with
  | nil => rw [List.takeWhile_nil, List.append_nil]
  | cons char rest =>
      rw [List.takeWhile_cons_of_neg (by simpa using ends_cons.mp hrest),
        List.append_nil]

/-- A word is told from what follows it by the first character that it cannot
hold. -/
theorem word_append_inj {letter : Char → Bool}
    {left right rest rest' : List Char}
    (hleft : ∀ char ∈ left, letter char = true)
    (hright : ∀ char ∈ right, letter char = true)
    (hrest : Ends letter rest) (hrest' : Ends letter rest')
    (hsame : left ++ rest = right ++ rest') : left = right ∧ rest = rest' := by
  have hword : left = right := by
    rw [← takeWhile_word_append hleft hrest, hsame,
      takeWhile_word_append hright hrest']
  subst hword
  exact ⟨rfl, List.append_cancel_left hsame⟩

/-- A word is told from what follows it by a mark that it does not hold. -/
theorem append_mark_inj {mark : Char} {left right rest rest' : List Char}
    (hleft : mark ∉ left) (hright : mark ∉ right)
    (hsame : left ++ mark :: rest = right ++ mark :: rest') :
    left = right ∧ rest = rest' := by
  have hletter {word : List Char} (hword : mark ∉ word) :
      ∀ char ∈ word, (char != mark) = true := by
    intro char hmem
    rw [bne_iff_ne]
    exact ne_of_mem_of_not_mem hmem hword
  have hmark {rest : List Char} : Ends (· != mark) (mark :: rest) := by
    rw [ends_cons, bne_self_eq_false]
  obtain ⟨hword, hrest⟩ :=
    word_append_inj (hletter hleft) (hletter hright) hmark hmark hsame
  exact ⟨hword, List.tail_eq_of_cons_eq hrest⟩

/-- The characters of which numerals consist. -/
def isNumeral (char : Char) : Bool := char.isDigit || char == '-'

theorem isNumeral_of_mem_repr {number : ℕ} {char : Char}
    (hmem : char ∈ number.repr.toList) : isNumeral char = true := by
  rw [Nat.toList_repr] at hmem
  have hdigit := Nat.isDigit_of_mem_toDigits (by omega) (by omega) hmem
  rw [isNumeral, hdigit, Bool.true_or]

theorem isNumeral_of_mem_toString {number : Int64} {char : Char}
    (hmem : char ∈ (toString number).toList) : isNumeral char = true := by
  have hsigned : toString number = number.toInt.repr := rfl
  rw [hsigned] at hmem
  cases hnumber : number.toInt with
  | ofNat digits =>
      rw [hnumber] at hmem
      exact isNumeral_of_mem_repr hmem
  | negSucc digits =>
      rw [hnumber, Int.repr, String.toList_append, List.mem_append] at hmem
      obtain hsign | hdigit := hmem
      · obtain rfl : char = '-' := by simpa using hsign
        rfl
      · exact isNumeral_of_mem_repr hdigit

theorem toString_injective : Function.Injective (toString : Int64 → String) := by
  intro left right hsame
  have hrepr : left.toInt.repr = right.toInt.repr := hsame
  exact Int64.toInt_inj.mp (Int.repr_inj.mp hrepr)

/-- A numeral is told from what follows it, whatever its length. -/
theorem numeral_append_inj {left right : Int64} {rest rest' : List Char}
    (hrest : Ends isNumeral rest) (hrest' : Ends isNumeral rest')
    (hsame : (toString left).toList ++ rest =
      (toString right).toList ++ rest') : left = right ∧ rest = rest' := by
  obtain ⟨hnumeral, htail⟩ :=
    word_append_inj (fun _ => isNumeral_of_mem_toString)
      (fun _ => isNumeral_of_mem_toString) hrest hrest' hsame
  exact ⟨toString_injective (String.toList_inj.mp hnumeral), htail⟩

theorem intercalate_cons (separator first : List Char)
    (rest : List (List Char)) :
    separator.intercalate (first :: rest) =
      first ++ rest.flatMap (separator ++ ·) := by
  induction rest generalizing first with
  | nil => simp
  | cons second rest ih =>
      rw [List.intercalate_cons_cons, ih, List.flatMap_cons, List.append_assoc,
        List.append_assoc]

section Codes

variable {A : Type*} {domain : Set A} {code : A → List Char}

/-- On `domain`, the code of a value can be split off the front of any text, and
tells the value. -/
def PrefixFreeOn (domain : Set A) (code : A → List Char) : Prop :=
  ∀ left ∈ domain, ∀ right ∈ domain, ∀ rest rest' : List Char,
    code left ++ rest = code right ++ rest' → left = right ∧ rest = rest'

theorem PrefixFreeOn.append_left (hcode : PrefixFreeOn domain code)
    (front : List Char) :
    PrefixFreeOn domain fun value => front ++ code value := by
  intro left hleft right hright rest rest' hsame
  rw [List.append_assoc, List.append_assoc] at hsame
  exact hcode left hleft right hright rest rest'
    (List.append_cancel_left hsame)

/-- A list of codes can be taken apart one by one, when none of them can be
mistaken for the text that ends the list. -/
theorem PrefixFreeOn.flatMap_append_inj (hcode : PrefixFreeOn domain code)
    {stop : List Char} (hstop : ∀ value ∈ domain, ¬code value <+: stop)
    {left right : List A} (hleft : ∀ value ∈ left, value ∈ domain)
    (hright : ∀ value ∈ right, value ∈ domain)
    (hsame : left.flatMap code ++ stop = right.flatMap code ++ stop) :
    left = right := by
  induction left generalizing right with
  | nil =>
      cases right with
      | nil => rfl
      | cons value right =>
          -- the first code on the right would start the text that ends the list
          rw [List.flatMap_nil, List.nil_append, List.flatMap_cons,
            List.append_assoc] at hsame
          exact absurd ⟨_, hsame.symm⟩ (hstop value (hright value (by simp)))
  | cons value left ih =>
      rw [List.forall_mem_cons] at hleft
      cases right with
      | nil =>
          rw [List.flatMap_nil, List.nil_append, List.flatMap_cons,
            List.append_assoc] at hsame
          exact absurd ⟨_, hsame⟩ (hstop value hleft.1)
      | cons value' right =>
          rw [List.forall_mem_cons] at hright
          rw [List.flatMap_cons, List.flatMap_cons, List.append_assoc,
            List.append_assoc] at hsame
          obtain ⟨rfl, hrest⟩ :=
            hcode value hleft.1 value' hright.1 _ _ hsame
          rw [ih hleft.2 hright.2 hrest]

end Codes

end BrainfuckFront.Text
