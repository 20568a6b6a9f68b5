import Mathlib
import BrainfuckFront.Proofs.Decodability
import BrainfuckFront.Proofs.Filtering
import BrainfuckFront.Proofs.Pointing

/-!
# What painting adds

A terminal reads a painted text as characters and escape sequences.  In that
reading the characters are those of the text without colours, and every sequence
that switches a style on is followed by some characters and then by the sequence
that switches the same style off.  Both hold for any spans without escapes of
their own, and the source is the only place where a diagnostic could take one
from.
-/

namespace BrainfuckFront

namespace Text

/-- The character that starts an escape sequence. -/
def escape : Char := '\x1b'

/-- The characters of which the codes of an escape sequence consist. -/
def isCode (char : Char) : Bool := char.isDigit || char == ';'

/-- What a terminal reads: a character to show, or the codes of an escape
sequence. -/
inductive Token where
  | char (shown : Char)
  | sequence (codes : List Char)
deriving DecidableEq, Repr

def Token.char? : Token → Option Char
  | char shown => some shown
  | sequence _ => none

/-- The codes of the escape sequence at the front of a text, if one stands
there. -/
def sequence? : List Char → Option (List Char)
  | first :: '[' :: rest =>
      if first = escape ∧ (rest.dropWhile isCode).head? = some 'm' then
        some (rest.takeWhile isCode)
      else none
  | _ => none

/-- Reads on after passing over `skip` characters that belong to the sequence
before. -/
def scanFrom : ℕ → List Char → List Token
  | _, [] => []
  | skip + 1, _ :: rest => scanFrom skip rest
  | 0, first :: rest =>
      match sequence? (first :: rest) with
      | some codes => .sequence codes :: scanFrom (codes.length + 2) rest
      | none => .char first :: scanFrom 0 rest

def scan (text : List Char) : List Token := scanFrom 0 text

/-- The text with every escape sequence taken out. -/
def strip (text : List Char) : List Char := (scan text).filterMap Token.char?

theorem sequence?_of_ne {first : Char} (hfirst : first ≠ escape)
    (rest : List Char) : sequence? (first :: rest) = none := by
  unfold sequence?
  split
  next hsplit =>
    rw [List.cons.injEq] at hsplit
    rw [← hsplit.1, if_neg fun hboth => hfirst hboth.1]
  next => rfl

theorem sequence?_eq_some {codes : List Char}
    (hcodes : ∀ char ∈ codes, isCode char = true) (rest : List Char) :
    sequence? (escape :: '[' :: (codes ++ 'm' :: rest)) = some codes := by
  have hmark : ¬isCode 'm' = true := by decide
  rw [sequence?, List.dropWhile_append_of_pos hcodes,
    List.dropWhile_cons_of_neg hmark, if_pos ⟨rfl, rfl⟩,
    takeWhile_word_append hcodes (ends_cons.mpr rfl)]

theorem scanFrom_length (front rest : List Char) :
    scanFrom front.length (front ++ rest) = scan rest := by
  induction front with
  | nil => rfl
  | cons char front ih =>
      rw [List.length_cons, List.cons_append, scanFrom, ih]

theorem scan_escapeSequence {codes : String}
    (hcodes : ∀ char ∈ codes.toList, isCode char = true) (rest : List Char) :
    scan ((escapeSequence codes).toList ++ rest) =
      .sequence codes.toList :: scan rest := by
  have hsequence : (escapeSequence codes).toList ++ rest =
      escape :: '[' :: (codes.toList ++ 'm' :: rest) := by
    simp [escapeSequence, escape]
  -- behind the escape itself, the bracket, the codes and the letter are passed over
  have hpassed : '[' :: (codes.toList ++ 'm' :: rest) =
      ('[' :: (codes.toList ++ ['m'])) ++ rest := by simp
  rw [hsequence, scan, scanFrom, sequence?_eq_some hcodes]
  dsimp only
  rw [hpassed, ← scanFrom_length ('[' :: (codes.toList ++ ['m'])) rest]
  simp

/-- Characters are read as they stand, as long as none starts a sequence. -/
theorem scan_append {text : List Char} (htext : escape ∉ text)
    (rest : List Char) :
    scan (text ++ rest) = text.map .char ++ scan rest := by
  induction text with
  | nil => rfl
  | cons char text ih =>
      rw [List.mem_cons, not_or] at htext
      rw [List.cons_append, scan, scanFrom, sequence?_of_ne (Ne.symm htext.1)]
      exact congrArg _ (ih htext.2)

theorem filterMap_char?_map_char (text : List Char) :
    (text.map Token.char).filterMap Token.char? = text := by
  rw [List.filterMap_map]
  exact List.filterMap_some

namespace Style

/-- The styles in which diagnostics are painted. -/
def all : List Style := [alarm, bold, red, yellow, blue]

variable {style style' : Style}

theorem isCode_of_mem (hstyle : style ∈ all) :
    (∀ char ∈ style.codes.toList, isCode char = true) ∧
      ∀ char ∈ style.reset.toList, isCode char = true := by
  have hall : (all.all fun style => style.codes.toList.all isCode &&
      style.reset.toList.all isCode) = true := by decide +kernel
  have hboth := List.all_eq_true.mp hall style hstyle
  rw [Bool.and_eq_true, List.all_eq_true, List.all_eq_true] at hboth
  exact hboth

theorem eq_of_codes_eq (hstyle : style ∈ all) (hstyle' : style' ∈ all)
    (hcodes : style.codes = style'.codes) : style = style' := by
  have hnodup : (all.map codes).Nodup := by decide
  exact List.inj_on_of_nodup_map hnodup hstyle hstyle' hcodes

/-- No style is switched on by what switches another one off. -/
theorem codes_ne_reset (hstyle : style ∈ all) (hstyle' : style' ∈ all) :
    style.codes ≠ style'.reset := by
  have hall : ∀ style ∈ all, ∀ style' ∈ all, style.codes ≠ style'.reset := by
    decide
  exact hall style hstyle style' hstyle'

end Style

/-- A text as a terminal reads it, of characters and of pieces that have a style.
A piece is not empty, and it ends before the next sequence switches another style
on. -/
inductive Paired : List Token → Prop
  | nil : Paired []
  | char (shown : Char) {rest : List Token} (hrest : Paired rest) :
      Paired (.char shown :: rest)
  | piece {style : Style} (hstyle : style ∈ Style.all) {shown : List Char}
      (hshown : shown ≠ []) {rest : List Token} (hrest : Paired rest) :
      Paired (.sequence style.codes.toList ::
        (shown.map .char ++ .sequence style.reset.toList :: rest))

namespace Paired

theorem append_chars {rest : List Token} (hrest : Paired rest)
    (shown : List Char) : Paired (shown.map .char ++ rest) := by
  induction shown with
  | nil => exact hrest
  | cons first shown ih => exact ih.char first

/-- Behind the characters of a piece, a sequence is the one that ends the piece
or it stands in the rest. -/
theorem sequence_cases {shown : List Char} {reset codes : List Char}
    {rest before after : List Token}
    (hsame : shown.map .char ++ .sequence reset :: rest =
      before ++ .sequence codes :: after) :
    (before = shown.map .char ∧ codes = reset) ∨
      ∃ between, before = shown.map .char ++ .sequence reset :: between ∧
        rest = between ++ .sequence codes :: after := by
  induction shown generalizing before with
  | nil =>
      cases before with
      | nil =>
          rw [List.map_nil, List.nil_append, List.nil_append, List.cons.injEq,
            Token.sequence.injEq] at hsame
          exact Or.inl ⟨rfl, hsame.1.symm⟩
      | cons first before =>
          rw [List.map_nil, List.nil_append, List.cons_append,
            List.cons.injEq] at hsame
          exact Or.inr ⟨before, by rw [← hsame.1]; rfl, hsame.2⟩
  | cons first shown ih =>
      cases before with
      | nil => cases hsame
      | cons second before =>
          rw [List.map_cons, List.cons_append, List.cons_append,
            List.cons.injEq] at hsame
          obtain ⟨rfl, hsame⟩ := hsame
          obtain ⟨rfl, hcodes⟩ | ⟨between, rfl, hrest⟩ := ih hsame
          · exact Or.inl ⟨rfl, hcodes⟩
          · exact Or.inr ⟨between, rfl, hrest⟩

/-- Every sequence switches a style on and is followed by a piece of text and the
reset of that style, or it is such a reset behind its piece. -/
theorem of_sequence {tokens before after : List Token} {codes : List Char}
    (hpaired : Paired tokens)
    (hsame : tokens = before ++ .sequence codes :: after) :
    (∃ style ∈ Style.all, codes = style.codes.toList ∧
        ∃ shown rest, shown ≠ [] ∧
          after = shown.map .char ++ .sequence style.reset.toList :: rest) ∨
      ∃ style ∈ Style.all, codes = style.reset.toList ∧
        ∃ front shown, shown ≠ [] ∧
          before = front ++ .sequence style.codes.toList :: shown.map .char := by
  induction hpaired generalizing before with
  | nil => simp at hsame
  | char first hrest ih =>
      cases before with
      | nil => cases hsame
      | cons second before =>
          rw [List.cons_append, List.cons.injEq] at hsame
          obtain hopening | ⟨style, hstyle, hcodes, front, shown, hshown, rfl⟩ :=
            ih hsame.2
          · exact Or.inl hopening
          · exact Or.inr ⟨style, hstyle, hcodes, second :: front, shown, hshown,
              rfl⟩
  | @piece style hstyle shown hshown rest hrest ih =>
      cases before with
      | nil =>
          rw [List.nil_append, List.cons.injEq, Token.sequence.injEq] at hsame
          exact Or.inl ⟨style, hstyle, hsame.1.symm, shown, rest, hshown,
            hsame.2.symm⟩
      | cons first before =>
          rw [List.cons_append, List.cons.injEq] at hsame
          obtain ⟨rfl, hsame⟩ := hsame
          -- the first sequence behind the opening is the reset of the piece
          obtain ⟨rfl, hcodes⟩ | ⟨between, rfl, hlater⟩ := sequence_cases hsame
          · exact Or.inr ⟨style, hstyle, hcodes, [], shown, hshown, rfl⟩
          · obtain hopening | ⟨style', hstyle', hcodes, front, shown', hshown',
              rfl⟩ := ih hlater
            · exact Or.inl hopening
            · refine Or.inr ⟨style', hstyle', hcodes, .sequence
                style.codes.toList :: (shown.map .char ++
                  .sequence style.reset.toList :: front), shown', hshown', ?_⟩
              simp

end Paired

namespace Span

/-- The span holds no escape of its own, and is painted as diagnostics are. -/
structure Paintable (span : Span) : Prop where
  escape_notMem : escape ∉ span.text.toList
  style_mem : ∀ style ∈ span.style, style ∈ Style.all

theorem paintable_plain {text : String} (htext : escape ∉ text.toList) :
    (plain text).Paintable :=
  ⟨htext, fun _ hstyle => by cases hstyle⟩

theorem paintable_paint {style : Style} (hstyle : style ∈ Style.all)
    {text : String} (htext : escape ∉ text.toList) :
    (style.paint text).Paintable :=
  ⟨htext, fun _ hsame => by cases hsame; exact hstyle⟩

/-- What a terminal reads of the span when it is rendered with colours. -/
def tokens (span : Span) : List Token :=
  match span.style with
  | none => span.text.toList.map .char
  | some style =>
      if span.text.isEmpty then []
      else .sequence style.codes.toList ::
        (span.text.toList.map .char ++ [.sequence style.reset.toList])

theorem tokens_of_some (style : Style) {text : String} (htext : text ≠ "") :
    (style.paint text).tokens = .sequence style.codes.toList ::
      (text.toList.map .char ++ [.sequence style.reset.toList]) := by
  have hempty : ¬text.isEmpty = true := by simpa using htext
  rw [tokens]
  exact if_neg hempty

theorem render_true_of_some (style : Style) {text : String} (htext : text ≠ "") :
    ((style.paint text).render true).toList =
      (escapeSequence style.codes).toList ++
        (text.toList ++ (escapeSequence style.reset).toList) := by
  have hempty : text.isEmpty = false := by simpa using htext
  simp [render, Style.paint, hempty]

/-- A span is plain text, or painted and empty, or painted with some text. -/
theorem cases_paint (span : Span) :
    (∃ text, span = plain text) ∨ (∃ style : Style, span = style.paint "") ∨
      ∃ (style : Style) (text : String), text ≠ "" ∧
        span = style.paint text := by
  obtain ⟨style, text⟩ := span
  cases style with
  | none => exact Or.inl ⟨text, rfl⟩
  | some style =>
      by_cases htext : text = ""
      · exact Or.inr (Or.inl ⟨style, by rw [htext]; rfl⟩)
      · exact Or.inr (Or.inr ⟨style, text, htext, rfl⟩)

variable {span : Span}

theorem scan_render (hspan : span.Paintable) (rest : List Char) :
    scan ((span.render true).toList ++ rest) = span.tokens ++ scan rest := by
  obtain ⟨text, rfl⟩ | ⟨style, rfl⟩ | ⟨style, text, htext, rfl⟩ :=
    span.cases_paint
  · exact scan_append hspan.escape_notMem rest
  · rfl
  · have hcodes := Style.isCode_of_mem (hspan.style_mem style rfl)
    have hescape : escape ∉ text.toList := hspan.escape_notMem
    rw [render_true_of_some style htext, tokens_of_some style htext,
      List.append_assoc, List.append_assoc,
      scan_escapeSequence hcodes.1, scan_append hescape,
      scan_escapeSequence hcodes.2]
    simp

theorem filterMap_char?_tokens (span : Span) :
    span.tokens.filterMap Token.char? = span.text.toList := by
  obtain ⟨text, rfl⟩ | ⟨style, rfl⟩ | ⟨style, text, htext, rfl⟩ :=
    span.cases_paint
  · exact filterMap_char?_map_char _
  · rfl
  · rw [tokens_of_some style htext, List.filterMap_cons_none rfl,
      List.filterMap_append, filterMap_char?_map_char]
    exact List.append_nil _

theorem paired_tokens_append (hspan : span.Paintable) {rest : List Token}
    (hrest : Paired rest) : Paired (span.tokens ++ rest) := by
  obtain ⟨text, rfl⟩ | ⟨style, rfl⟩ | ⟨style, text, htext, rfl⟩ :=
    span.cases_paint
  · exact hrest.append_chars text.toList
  · exact hrest
  · have hshown : text.toList ≠ [] := by simpa using htext
    rw [tokens_of_some style htext, List.cons_append, List.append_assoc]
    exact .piece (hspan.style_mem style rfl) hshown hrest

end Span

section Spans

variable {spans : List Span} (hspans : ∀ span ∈ spans, span.Paintable)

include hspans

theorem scan_renderSpans :
    scan (renderSpans true spans).toList = spans.flatMap Span.tokens := by
  rw [renderSpans, String.toList_join, List.flatMap_map]
  induction spans with
  | nil => rfl
  | cons span spans ih =>
      rw [List.forall_mem_cons] at hspans
      rw [List.flatMap_cons, Span.scan_render hspans.1, ih hspans.2,
        List.flatMap_cons]

/-- Without its escape sequences the painted text is the text without colours. -/
theorem strip_renderSpans :
    strip (renderSpans true spans).toList =
      (renderSpans false spans).toList := by
  rw [strip, scan_renderSpans hspans, toList_renderSpans_false,
    List.filterMap_flatMap]
  simp only [Span.filterMap_char?_tokens]

theorem paired_renderSpans : Paired (scan (renderSpans true spans).toList) := by
  rw [scan_renderSpans hspans]
  induction spans with
  | nil => exact .nil
  | cons span spans ih =>
      rw [List.forall_mem_cons] at hspans
      rw [List.flatMap_cons]
      exact Span.paired_tokens_append hspans.1 (ih hspans.2)

end Spans

end Text

namespace Utf8

/-- An ASCII character is only decoded from the byte that is its code. -/
theorem mem_of_mem_decodeFrom {skip : ℕ} {bytes : Bytes} {char : Char}
    (hmem : char ∈ decodeFrom skip bytes) (hascii : char.toNat < 0x80) :
    UInt8.ofNat char.toNat ∈ bytes := by
  induction bytes generalizing skip with
  | nil => simp [decodeFrom] at hmem
  | cons lead rest ih =>
      cases skip with
      | succ skip =>
          rw [decodeFrom] at hmem
          exact List.mem_cons_of_mem _ (ih hmem)
      | zero =>
          rw [decodeFrom, List.mem_cons] at hmem
          obtain hchar | hmem := hmem
          · by_cases hlead : lead < 0x80
            · have hvalid : lead.toNat.isValidChar :=
                Or.inl (lead.toNat_lt.trans (by decide))
              rw [scalarAt_of_ascii hlead] at hchar
              rw [hchar, Char.toNat_ofNat, if_pos hvalid, UInt8.ofNat_toNat]
              exact List.mem_cons_self
            · have hwide := (wide_scalarAt hlead rest).char_ge
              rw [← hchar] at hwide
              omega
          · exact List.mem_cons_of_mem _ (ih hmem)

end Utf8

theorem Window.mem_of_mem_shown {chars : List Char} {offset : Int64} {char : Char}
    (hmem : char ∈ (around chars offset).shown) : char ∈ chars := by
  rw [shown, around] at hmem
  split at hmem
  · rw [List.mem_append, List.mem_append] at hmem
    obtain (hbefore | hfocus) | hafter := hmem
    · exact List.mem_of_mem_take (List.mem_of_mem_drop hbefore)
    · exact List.mem_of_mem_drop (List.mem_of_mem_take hfocus)
    · exact List.mem_of_mem_drop (List.mem_of_mem_take hafter)
  · simp [empty] at hmem

namespace Diagnostic

open Text

theorem paintable_windowSpans {window : Window}
    (hshown : escape ∉ window.shown) :
    ∀ span ∈ windowSpans window, span.Paintable := by
  rw [Window.shown, List.mem_append, List.mem_append, not_or, not_or] at hshown
  obtain ⟨⟨hbefore, hfocus⟩, hafter⟩ := hshown
  rw [windowSpans, List.forall_mem_cons, List.forall_mem_cons,
    List.forall_mem_singleton]
  exact ⟨Span.paintable_paint (by decide) (by simpa using hbefore),
    Span.paintable_paint (by decide) (by simpa using hfocus),
    Span.paintable_paint (by decide) (by simpa using hafter)⟩

theorem paintable_markSpans (window : Window) :
    ∀ span ∈ markSpans window, span.Paintable := by
  have hcontrol : escape < ' ' := by decide
  rw [markSpans, List.forall_mem_cons, List.forall_mem_cons,
    List.forall_mem_singleton]
  exact ⟨Span.paintable_paint (by decide)
      ((Window.visible_tildes _).notMem hcontrol),
    Span.paintable_paint (by decide) (window.visible_caret.notMem hcontrol),
    Span.paintable_paint (by decide)
      ((Window.visible_tildes _).notMem hcontrol)⟩

theorem paintable_spans {diagnostic : Diagnostic}
    (hsource : 0x1B ∉ diagnostic.source) :
    ∀ span ∈ diagnostic.spans, span.Paintable := by
  have hcontrol : escape < ' ' := by decide
  have hshown : escape ∉ diagnostic.window.shown := by
    intro hmem
    exact hsource (Utf8.mem_of_mem_decodeFrom (Window.mem_of_mem_shown hmem)
      (by decide))
  have hheading : escape ∉
      s!"instruction {diagnostic.error.instruction}".toList := by
    have hsplit : s!"instruction {diagnostic.error.instruction}" =
        "instruction " ++ toString diagnostic.error.instruction := rfl
    rw [hsplit, String.toList_append, List.mem_append, not_or]
    exact ⟨by decide +kernel,
      (visible_toString diagnostic.error.instruction).notMem hcontrol⟩
  have hname : escape ∉
      ("Exception: " ++ diagnostic.error.fault.name).toList := by
    rw [String.toList_append, List.mem_append, not_or]
    exact ⟨by decide +kernel,
      diagnostic.error.fault.visible_name.notMem hcontrol⟩
  have hreason := diagnostic.error.visible_reason.notMem hcontrol
  simp only [spans, List.forall_mem_append, List.forall_mem_cons,
    List.not_mem_nil, false_imp_iff, implies_true, and_true]
  refine ⟨⟨⟨⟨⟨?_, ?_, ?_, ?_⟩, ?_⟩, ?_⟩, ?_⟩, ?_, ?_, ?_, ?_, ?_⟩
  · exact Span.paintable_paint (by decide) (by decide +kernel)
  · exact Span.paintable_plain (by decide +kernel)
  · exact Span.paintable_paint (by decide) hheading
  · exact Span.paintable_plain (by decide +kernel)
  · exact paintable_windowSpans hshown
  · exact Span.paintable_plain (by decide +kernel)
  · exact paintable_markSpans diagnostic.window
  · exact Span.paintable_plain (by decide +kernel)
  · exact Span.paintable_paint (by decide) hreason
  · exact Span.paintable_plain (by decide +kernel)
  · exact Span.paintable_paint (by decide) hname
  · exact Span.paintable_plain (by decide +kernel)

/-- For any error and any source without escapes, a terminal reads the diagnostic
with colours span by span, and shows the same text as without colours, in which
no escape is left.  Each sequence switches on a style and is followed by a piece
of text and the reset of that style, or else it is such a reset behind its piece.
So no piece is empty and no style is switched on inside another one. -/
theorem text_painted (error : ParseError) {source : Bytes}
    (hsource : 0x1B ∉ source) :
    scan (Diagnostic.mk error source true).text.toList =
        (Diagnostic.mk error source true).spans.flatMap Span.tokens ∧
      strip (Diagnostic.mk error source true).text.toList =
          (Diagnostic.mk error source false).text.toList ∧
      escape ∉ (Diagnostic.mk error source false).text.toList ∧
      ∀ (before after : List Token) (codes : List Char),
        scan (Diagnostic.mk error source true).text.toList =
            before ++ .sequence codes :: after →
          (∀ style ∈ Style.all, codes = style.codes.toList →
            ∃ shown rest, shown ≠ [] ∧
              after = shown.map .char ++
                .sequence style.reset.toList :: rest) ∧
          ((∀ style ∈ Style.all, codes ≠ style.codes.toList) →
            ∃ style ∈ Style.all, codes = style.reset.toList ∧
              ∃ front shown, shown ≠ [] ∧
                before = front ++
                  .sequence style.codes.toList :: shown.map .char) := by
  have hspans : ∀ span ∈ (Diagnostic.mk error source true).spans,
      span.Paintable := paintable_spans hsource
  refine ⟨scan_renderSpans hspans, strip_renderSpans hspans, ?_, ?_⟩
  · intro hmem
    rw [text, toList_renderSpans_false, List.mem_flatMap] at hmem
    obtain ⟨span, hspan, hescape⟩ := hmem
    exact (hspans span hspan).escape_notMem hescape
  · intro before after codes hscan
    have hcases := (paired_renderSpans hspans).of_sequence hscan
    constructor
    · rintro style hstyle rfl
      obtain ⟨style', hstyle', hcodes, hpiece⟩ | ⟨style', hstyle', hcodes, -⟩ :=
        hcases
      · obtain rfl := Style.eq_of_codes_eq hstyle hstyle'
          (String.toList_inj.mp hcodes)
        exact hpiece
      · exact absurd (String.toList_inj.mp hcodes)
          (Style.codes_ne_reset hstyle hstyle')
    · intro hother
      obtain ⟨style, hstyle, hcodes, -⟩ | hreset := hcases
      · exact absurd hcodes (hother style hstyle)
      · exact hreset

/-- An error beyond the end of the source, so that the window is empty, and the
heading of a diagnostic that shows a character of two bytes. -/
theorem text_painted_window :
    strip (Diagnostic.mk ⟨.unclosedBrackets, 7, 0, true⟩ [91] true).text.toList =
        (Diagnostic.mk ⟨.unclosedBrackets, 7, 0, true⟩ [91] false).text.toList ∧
      ∃ after shown rest,
        scan (Diagnostic.mk ⟨.infiniteLoop, 1, 0, false⟩ [91, 0xC3, 0xA9]
            true).text.toList =
          .sequence Style.alarm.codes.toList :: after ∧ shown ≠ [] ∧
        after = shown.map .char ++
          .sequence Style.alarm.reset.toList :: rest := by
  refine ⟨(text_painted _ (by decide)).2.1, ?_⟩
  have hsource : 0x1B ∉ ([91, 0xC3, 0xA9] : Bytes) := by decide
  obtain ⟨hspans, -, -, hsequences⟩ :=
    text_painted ⟨.infiniteLoop, 1, 0, false⟩ hsource
  have hscan : ∃ after,
      scan (Diagnostic.mk ⟨.infiniteLoop, 1, 0, false⟩ [91, 0xC3, 0xA9]
          true).text.toList =
        [] ++ .sequence Style.alarm.codes.toList :: after := ⟨_, hspans⟩
  obtain ⟨after, hscan⟩ := hscan
  obtain ⟨shown, rest, hshown, hafter⟩ :=
    (hsequences [] after _ hscan).1 .alarm (by decide) rfl
  exact ⟨after, shown, rest, hscan, hshown, hafter⟩

end Diagnostic

end BrainfuckFront
