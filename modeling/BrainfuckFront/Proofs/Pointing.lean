import Mathlib
import BrainfuckFront.Diagnostic
import BrainfuckFront.Proofs.Decodability
import BrainfuckFront.Proofs.EmptyLoops
import BrainfuckFront.Proofs.Mismatches

/-!
# Where a diagnostic points

An error of a source lies at a bracket, whichever part of the parser reports it.
The diagnostic takes the comments out of the source once more and shows the
commands around that place.  Every command is one character and one byte, so the
line under the window, which counts bytes, has its caret under the bracket.
-/

namespace BrainfuckFront

namespace Text

/-- The lines of a text. -/
def lines (text : String) : List (List Char) := text.toList.splitOn '\n'

/-- The line `marks` is as long as `shown`, with a caret at `column` and tildes
at all other columns. -/
structure Underlines (marks shown : List Char) (column : ℕ) : Prop where
  length_eq : marks.length = shown.length
  column_lt : column < shown.length
  getElem?_eq : ∀ other < shown.length,
    marks[other]? = some (if other = column then '^' else '~')

theorem underlines_replicate {before after : List Char} (char : Char) :
    Underlines
      (List.replicate before.length '~' ++
        '^' :: List.replicate after.length '~')
      (before ++ char :: after) before.length := by
  refine ⟨by simp, by simp, fun other hlt => ?_⟩
  obtain hbefore | rfl | hafter := lt_trichotomy other before.length
  · rw [if_neg hbefore.ne, List.getElem?_append_left (by simpa using hbefore),
      List.getElem?_replicate_of_lt hbefore]
  · rw [if_pos rfl, List.getElem?_append_right (by simp)]
    simp
  · obtain ⟨column, rfl⟩ := Nat.exists_eq_add_of_lt hafter
    rw [List.length_append, List.length_cons] at hlt
    have hmarked : (List.replicate before.length '~').length ≤
        before.length + column + 1 := by
      rw [List.length_replicate]
      exact hafter.le
    rw [if_neg hafter.ne', List.getElem?_append_right hmarked,
      List.length_replicate, add_assoc, Nat.add_sub_cancel_left,
      List.getElem?_cons_succ, List.getElem?_replicate_of_lt (by omega)]

/-- A text without control characters. -/
def Visible (text : List Char) : Prop := ∀ char ∈ text, ' ' ≤ char

instance (text : List Char) : Decidable (Visible text) :=
  decidable_of_iff (text.all fun char => decide (' ' ≤ char))
    List.all_iff_forall_prop

theorem Visible.notMem {text : List Char} {char : Char} (hvisible : Visible text)
    (hcontrol : char < ' ') : char ∉ text := by
  intro hmem
  exact absurd (hvisible char hmem) (not_le.mpr hcontrol)

theorem visible_append {left right : List Char} :
    Visible (left ++ right) ↔ Visible left ∧ Visible right :=
  List.forall_mem_append

theorem space_le_of_isNumeral {char : Char} (hnumeral : isNumeral char = true) :
    ' ' ≤ char := by
  rw [isNumeral, Bool.or_eq_true, beq_iff_eq] at hnumeral
  obtain hdigit | rfl := hnumeral
  · have hlow : '0' ≤ char := by
      rw [Char.isDigit, Bool.and_eq_true, decide_eq_true_eq] at hdigit
      exact hdigit.1
    exact le_trans (by decide) hlow
  · decide

theorem visible_repr (number : ℕ) : Visible number.repr.toList :=
  fun _ hmem => space_le_of_isNumeral (isNumeral_of_mem_repr hmem)

theorem visible_toString (number : Int64) : Visible (toString number).toList :=
  fun _ hmem => space_le_of_isNumeral (isNumeral_of_mem_toString hmem)

theorem toList_renderSpans_false (spans : List Span) :
    (renderSpans false spans).toList =
      spans.flatMap fun span => span.text.toList := by
  have hplain : Span.render false = Span.text := by
    funext span
    obtain ⟨style, text⟩ := span
    cases style <;> rfl
  rw [renderSpans, String.toList_join, hplain, List.flatMap_map]

end Text

theorem Command.utf8Size_symbol (command : Command) :
    command.symbol.utf8Size = 1 := by
  cases command <;> rfl

theorem Utf8.size_map_symbol (word : List Command) :
    size (word.map Command.symbol) = word.length := by
  induction word with
  | nil => rfl
  | cons command word ih =>
      rw [List.map_cons, size, ih, command.utf8Size_symbol, List.length_cons,
        add_comm]

theorem Command.newline_notMem_map_symbol (word : List Command) :
    '\n' ∉ word.map symbol := by
  intro hmem
  obtain ⟨command, -, hsymbol⟩ := List.mem_map.mp hmem
  cases command <;> cases hsymbol

namespace Window

/-- All characters that the window shows. -/
def shown (window : Window) : List Char :=
  window.before ++ window.focus ++ window.after

/-- The line that is written under the window. -/
def marks (window : Window) : List Char :=
  (tildes window.before).toList ++ window.caret.toList ++
    (tildes window.after).toList

theorem visible_tildes (chars : List Char) : Text.Visible (tildes chars).toList := by
  intro char hmem
  rw [tildes, String.toList_ofList] at hmem
  rw [List.eq_of_mem_replicate hmem]
  decide

theorem visible_caret (window : Window) : Text.Visible window.caret.toList := by
  rw [caret]
  split
  · simp [Text.Visible]
  · simp [Text.Visible]

theorem visible_marks (window : Window) : Text.Visible window.marks := by
  rw [marks, Text.visible_append, Text.visible_append]
  exact ⟨⟨visible_tildes _, window.visible_caret⟩, visible_tildes _⟩

/-- What the window shows of a word, at a command with `left` before it and
`right` after it. -/
def ofWord (left : List Command) (command : Command) (right : List Command) :
    Window :=
  ⟨(left.drop (left.length - contextBefore)).map Command.symbol,
    [command.symbol],
    (right.take contextAfter).map Command.symbol⟩

section Word

variable {left right : List Command} {command : Command}

theorem around_map_symbol {offset : Int64}
    (hoffset : offset.toInt = left.length) :
    around ((left ++ command :: right).map Command.symbol) offset =
      ofWord left command right := by
  have hposition : offset.toNatClampNeg = left.length := by
    rw [Int64.toNatClampNeg, hoffset, Int.toNat_natCast]
  have hnonneg : 0 ≤ offset := by
    rw [Int64.le_iff_toInt_le, hoffset]
    exact Int.natCast_nonneg _
  rw [around, hposition, if_pos ⟨hnonneg, by simp⟩]
  simp only [← List.map_take, ← List.map_drop, List.take_left, List.drop_left,
    List.drop_length_add_append]
  rfl

theorem length_before_ofWord :
    (ofWord left command right).before.length = min 4 left.length := by
  rw [ofWord, List.length_map, List.length_drop, contextBefore]
  omega

theorem length_after_ofWord :
    (ofWord left command right).after.length = min 5 right.length := by
  rw [ofWord, List.length_map, List.length_take, contextAfter]

theorem shown_ofWord :
    (ofWord left command right).shown =
      (left.drop (left.length - contextBefore) ++
        command :: right.take contextAfter).map Command.symbol := by
  rw [shown, ofWord]
  simp

theorem shown_ofWord_isPrefix :
    (ofWord left command right).shown <+:
      ((left ++ command :: right).map Command.symbol).drop
        (left.length - (ofWord left command right).before.length) := by
  have hstart : left.length - (ofWord left command right).before.length =
      left.length - contextBefore := by
    rw [length_before_ofWord, contextBefore]
    omega
  rw [shown_ofWord, hstart, ← List.map_drop,
    List.drop_append_of_le_length (Nat.sub_le _ _)]
  apply List.IsPrefix.map
  exact (List.prefix_append_right_inj _).mpr
    ((List.prefix_cons_inj command).mpr (List.take_prefix _ _))

/-- Commands take one byte each, so the marks are as many as the characters
above them. -/
theorem underlines_ofWord :
    Text.Underlines (ofWord left command right).marks
      (ofWord left command right).shown
      (ofWord left command right).before.length := by
  have hmarks : (ofWord left command right).marks =
      List.replicate (ofWord left command right).before.length '~' ++
        '^' :: List.replicate (ofWord left command right).after.length '~' := by
    rw [marks, ofWord, tildes, tildes, Utf8.size_map_symbol,
      Utf8.size_map_symbol, List.length_map, List.length_map]
    simp [caret]
  rw [hmarks, shown, List.append_assoc]
  exact Text.underlines_replicate command.symbol

end Word

end Window

theorem Fault.visible_message (fault : Fault) :
    Text.Visible fault.message.toList := by
  cases fault with
  | unassigned code free =>
      have hmessage : (unassigned code free).message =
          "error: unknown error " ++ code.toNat.repr := rfl
      rw [hmessage, String.toList_append, Text.visible_append]
      exact ⟨by decide +kernel, Text.visible_repr _⟩
  | _ => decide +kernel

theorem Fault.visible_name (fault : Fault) : Text.Visible fault.name.toList := by
  cases fault with
  | unassigned code free =>
      rw [name]
      decide +kernel
  | _ => decide +kernel

theorem ParseError.visible_reason (error : ParseError) :
    Text.Visible error.reason.toList := by
  rw [reason]
  split
  · split <;> decide +kernel
  · decide +kernel
  · exact Fault.visible_message _

namespace Diagnostic

variable {diagnostic : Diagnostic}

/-- The lines of a diagnostic without colours. -/
def layout (diagnostic : Diagnostic) : List (List Char) :=
  ["~~~~~~ Error on building! ~~~~~~".toList,
    [],
    "error on instruction ".toList ++
      (toString diagnostic.error.instruction).toList ++ [':'],
    '|' :: '\t' :: diagnostic.window.shown,
    '|' :: '\t' :: diagnostic.window.marks,
    [],
    diagnostic.error.reason.toList,
    "Exception: ".toList ++ diagnostic.error.fault.name.toList,
    []]

theorem toList_text (hcolor : diagnostic.color = false) :
    diagnostic.text.toList = ['\n'].intercalate diagnostic.layout := by
  have hheading : s!"instruction {diagnostic.error.instruction}" =
      "instruction " ++ toString diagnostic.error.instruction := rfl
  rw [text, hcolor, Text.toList_renderSpans_false, spans, hheading]
  simp [windowSpans, markSpans, Window.shown, Window.marks, layout,
    Text.Style.paint, Text.Span.plain, List.intercalate]

theorem newline_notMem_of_mem_layout (hshown : '\n' ∉ diagnostic.window.shown)
    {line : List Char} (hline : line ∈ diagnostic.layout) : '\n' ∉ line := by
  have hcontrol : '\n' < ' ' := by decide
  have hinstruction :=
    (Text.visible_toString diagnostic.error.instruction).notMem hcontrol
  have hmarks := diagnostic.window.visible_marks.notMem hcontrol
  have hreason := diagnostic.error.visible_reason.notMem hcontrol
  have hname := diagnostic.error.fault.visible_name.notMem hcontrol
  simp only [layout, List.mem_cons, List.not_mem_nil, or_false] at hline
  obtain rfl | rfl | rfl | rfl | rfl | rfl | rfl | rfl | rfl := hline <;>
    simp [hinstruction, hshown, hmarks, hreason, hname]

/-- None of the lines is broken by what it shows. -/
theorem lines_text (hcolor : diagnostic.color = false)
    (hshown : '\n' ∉ diagnostic.window.shown) :
    Text.lines diagnostic.text = diagnostic.layout := by
  rw [Text.lines, toList_text hcolor]
  apply List.splitOn_intercalate
  · exact fun line => newline_notMem_of_mem_layout hshown
  · simp [layout]

section Source

variable {source : Bytes} {error : ParseError} {left right : List Command}
variable {command : Command}
variable (hcommands : Source.commands source = left ++ command :: right)
variable (hoffset : error.offset.toInt = left.length)

include hcommands hoffset

theorem window_ofSource (color : Bool) :
    (ofSource error source color).window =
      Window.ofWord left command right := by
  rw [window, ofSource, Source.filtered, Utf8.decode_map_byte, hcommands,
    Window.around_map_symbol hoffset]

theorem lines_ofSource :
    Text.lines (ofSource error source false).text =
      (ofSource error source false).layout := by
  apply lines_text rfl
  rw [window_ofSource hcommands hoffset, Window.shown_ofWord]
  exact Command.newline_notMem_map_symbol _

end Source

end Diagnostic

/-- The bracket that an error of a source is about. -/
def ParseError.bracket (error : ParseError) : Command :=
  if error.fault = .infiniteLoop ∨ error.unexpected = true then .closeLoop
  else .openLoop

namespace Program

variable {source : Bytes} {failure : Failure}

/-- Whichever part of the parser reports an error, its offset is the place of the
bracket that it is about. -/
theorem exists_bracket (hsize : source.length < 2 ^ 63)
    (hparse : parse source = .error failure) :
    ∃ (error : ParseError) (place : ℕ), failure = .parse error ∧
      error.OfSource ∧ error.offset.toInt = place ∧
      (Source.commands source)[place]? = some error.bracket := by
  have hlength := (Source.length_commands_le source).trans_lt hsize
  cases hencode : encode source with
  | error reported =>
      obtain ⟨mismatch, hmismatch, rfl⟩ := encode_eq_error_iff.mp hencode
      rw [parse_of_encode_error hencode, Except.error.injEq] at hparse
      subst hparse
      have hlt := (Brackets.mismatch?_location hmismatch).1.trans hlength
      refine ⟨_, mismatch.offset, rfl, Or.inl rfl,
        Int64.toInt_ofNat_of_lt hlt, ?_⟩
      obtain ⟨before, after, hword, -, rfl⟩ | ⟨before, rest, hword, -, -, rfl⟩ :=
        Brackets.mismatch?_eq_some hmismatch
      all_goals
        rw [hword, List.getElem?_append_right le_rfl, Nat.sub_self]
        rfl
  | ok program =>
      obtain ⟨error, place, _, rfl, hfault, hleast, hoffset, -⟩ :=
        parse_error_of_encode hsize hencode hparse
      refine ⟨error, place + 1, rfl, Or.inr hfault, by exact_mod_cast hoffset,
        ?_⟩
      rw [ParseError.bracket, if_pos (Or.inl hfault)]
      exact hleast.1.2

end Program

namespace Diagnostic

variable {source : Bytes} {failure : Failure} {word : List Command}

/-- The diagnostic of a source that does not parse shows the bracket that the
error is about, with four commands before it and five after it as far as there
are so many.  Without colours the line under the window is as long as the line
of the window and points at the bracket. -/
theorem ofSource_points_at_bracket (hsize : source.length < 2 ^ 63)
    (hword : Source.filtered source = word.map Command.byte)
    (hparse : Program.parse source = .error failure) :
    ∃ (error : ParseError) (place : ℕ) (window : Window),
      failure = .parse error ∧ error.OfSource ∧
      error.offset.toInt = place ∧ place < word.length ∧
      (∀ color, (ofSource error source color).window = window) ∧
      window.focus = [error.bracket.symbol] ∧
      window.before ++ window.focus ++ window.after <+:
        (word.map Command.symbol).drop (place - window.before.length) ∧
      window.before.length = min 4 place ∧
      window.after.length = min 5 (word.length - 1 - place) ∧
      ∃ marks : List Char,
        (Text.lines (ofSource error source false).text)[3]? =
          some ('|' :: '\t' ::
            (window.before ++ window.focus ++ window.after)) ∧
        (Text.lines (ofSource error source false).text)[4]? =
          some ('|' :: '\t' :: marks) ∧
        Text.Underlines marks
          (window.before ++ window.focus ++ window.after)
          window.before.length := by
  obtain rfl := Source.commands_of_filtered hword
  obtain ⟨error, _, rfl, herror, hoffset, hbracket⟩ :=
    Program.exists_bracket hsize hparse
  obtain ⟨left, right, hcommands, rfl⟩ := Jumps.exists_split hbracket
  have hwindow := window_ofSource hcommands hoffset
  have hlines := lines_ofSource hcommands hoffset
  have hafter : (Source.commands source).length - 1 - left.length =
      right.length := by
    rw [hcommands, List.length_append, List.length_cons]
    omega
  refine ⟨error, left.length, _, rfl, herror, hoffset, ?_, hwindow, rfl, ?_,
    Window.length_before_ofWord, ?_, _, ?_, ?_, Window.underlines_ofWord⟩
  · rw [hcommands, List.length_append, List.length_cons]
    omega
  · rw [hcommands]
    exact Window.shown_ofWord_isPrefix
  · rw [hafter, Window.length_after_ofWord]
  · rw [hlines, layout, hwindow]
    rfl
  · rw [hlines, layout, hwindow]
    rfl

/-- An empty loop with a comment inside that breaks off a character, and more
commands on both sides than are shown. -/
theorem ofSource_points_at_bracket_emptyLoop :
    ∃ (source : Bytes) (error : ParseError) (marks : List Char),
      source = [43, 43, 43, 43, 91, 0xE2, 93, 46, 46, 46, 46, 46, 46] ∧
      Program.parse source = .error (.parse error) ∧
      error.offset.toInt = 5 ∧
      (Text.lines (ofSource error source false).text)[3]? =
        some "|\t+++[].....".toList ∧
      (Text.lines (ofSource error source false).text)[4]? =
        some ('|' :: '\t' :: marks) ∧
      Text.Underlines marks "+++[].....".toList 4 := by
  have hparse : Program.parse
      [43, 43, 43, 43, 91, 0xE2, 93, 46, 46, 46, 46, 46, 46] =
        .error (.parse ⟨.infiniteLoop, 5, 2, false⟩) := rfl
  have hword : Source.filtered
      [43, 43, 43, 43, 91, 0xE2, 93, 46, 46, 46, 46, 46, 46] =
        (List.replicate 4 Command.increment ++
          [Command.openLoop, Command.closeLoop] ++
          List.replicate 6 Command.output).map Command.byte := rfl
  obtain ⟨error, place, window, herror, -, -, -, hwindow, -, -, -, -, marks,
    hshown, hmarks, hunderlines⟩ :=
      ofSource_points_at_bracket (by decide) hword hparse
  cases herror
  obtain rfl : window = ⟨"+++[".toList, [']'], ".....".toList⟩ :=
    (hwindow false).symm.trans (by decide)
  exact ⟨_, _, marks, rfl, hparse, rfl, hshown, hmarks, hunderlines⟩

end Diagnostic

end BrainfuckFront
