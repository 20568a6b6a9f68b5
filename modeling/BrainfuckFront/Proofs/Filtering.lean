import Mathlib
import BrainfuckFront.Proofs.Encoding

/-!
# Filtering a source

A source is decoded before its commands are picked out, and it need not be
well-formed UTF-8.  Still its commands are exactly the command bytes in it: what
a longer sequence takes up are continuation bytes, which are no commands, and
neither such a sequence nor a byte out of place reads as a command.  So a source
may be cut anywhere, even inside a character.
-/

namespace BrainfuckFront

namespace Command

/-- The bytes that stand for commands. -/
def bytes : Bytes := all.map byte

def ofByte? (byte : UInt8) : Option Command :=
  all.find? fun command => command.byte == byte

/-- What differs on all commands tells them apart. -/
theorem injective_of_nodup_map {A : Type*} {view : Command → A}
    (hnodup : (all.map view).Nodup) : Function.Injective view := by
  intro first second hsame
  exact List.inj_on_of_nodup_map hnodup (mem_all first) (mem_all second) hsame

theorem toNat_symbol_lt (command : Command) : command.symbol.toNat < 0x80 := by
  cases command <;> decide

theorem toNat_byte (command : Command) :
    command.byte.toNat = command.symbol.toNat := by
  cases command <;> rfl

theorem byte_of_ofByte? {byte : UInt8} {command : Command}
    (hcommand : ofByte? byte = some command) : command.byte = byte := by
  simpa using List.find?_some hcommand

theorem byte_mem_bytes (command : Command) : command.byte ∈ bytes :=
  List.mem_map_of_mem (mem_all command)

example : bytes =
    [62, 60, 43, 45, 46, 44, 91, 93, 94, 118, 40, 41, 38, 63] := by decide

theorem ofByte?_eq_none_iff {byte : UInt8} :
    ofByte? byte = none ↔ byte ∉ bytes := by
  simp [ofByte?, bytes]

/-- An ASCII character is a command when its byte is. -/
theorem ofChar?_ofNat {byte : UInt8} (hascii : byte < 0x80) :
    ofChar? (Char.ofNat byte.toNat) = ofByte? byte := by
  have hlt : byte.toNat < 0x80 := UInt8.lt_iff_toNat_lt.mp hascii
  have hvalid : byte.toNat.isValidChar := Or.inl (by omega)
  rw [ofChar?, ofCodePoint?, ofByte?, Char.toNat_ofNat, if_pos hvalid]
  congr 1
  funext command
  rw [Bool.eq_iff_iff, beq_iff_eq, beq_iff_eq, ← UInt8.toNat_inj, toNat_byte,
    codePoint, Int.natCast_inj]

theorem ofChar?_eq_none {char : Char} (hwide : 0x80 ≤ char.toNat) :
    ofChar? char = none := by
  by_contra hsome
  obtain ⟨command, hcommand⟩ := Option.ne_none_iff_exists'.mp hsome
  have hpoint := codePoint_of_ofCodePoint? hcommand
  have hlt := toNat_symbol_lt command
  rw [codePoint] at hpoint
  omega

theorem ofByte?_eq_none {byte : UInt8} (hwide : 0x80 ≤ byte) :
    ofByte? byte = none := by
  by_contra hsome
  obtain ⟨command, hcommand⟩ := Option.ne_none_iff_exists'.mp hsome
  have hlt := toNat_symbol_lt command
  rw [← toNat_byte, byte_of_ofByte? hcommand] at hlt
  have hle : 0x80 ≤ byte.toNat := UInt8.le_iff_toNat_le.mp hwide
  omega

end Command

namespace Utf8

variable {lead : UInt8} {rest : Bytes}

theorem isContinuation_iff {byte : UInt8} :
    isContinuation byte = true ↔ 0x80 ≤ byte.toNat ∧ byte.toNat ≤ 0xBF := by
  rw [isContinuation, Bool.and_eq_true, decide_eq_true_eq, decide_eq_true_eq,
    UInt8.le_iff_toNat_le, UInt8.le_iff_toNat_le]
  rfl

/-- The ranges of a second byte, in unbounded numbers. -/
theorem isSecond_iff {second : UInt8} :
    isSecond lead second = true ↔ isContinuation second = true ∧
      (lead.toNat = 0xE0 → 0xA0 ≤ second.toNat) ∧
      (lead.toNat = 0xED → second.toNat ≤ 0x9F) ∧
      (lead.toNat = 0xF0 → 0x90 ≤ second.toNat) ∧
      (lead.toNat = 0xF4 → second.toNat ≤ 0x8F) := by
  simp only [isSecond, Bool.and_eq_true, Bool.or_eq_true, bne_iff_ne,
    decide_eq_true_eq, UInt8.le_iff_toNat_le, ne_eq, ← UInt8.toNat_inj,
    ← imp_iff_not_or, and_assoc]
  rfl

/-- A character beyond ASCII, with the bytes that it owns after the first. -/
structure Wide (char : Char) (owned : Bytes) : Prop where
  char_ge : 0x80 ≤ char.toNat
  owned_isContinuation : ∀ byte ∈ owned, isContinuation byte = true

theorem wide_replacement : Wide replacement (rest.take 0) where
  char_ge := by decide
  owned_isContinuation := by simp

theorem wide_ofNat {number : ℕ} {owned : Bytes} (hvalid : number.isValidChar)
    (hge : 0x80 ≤ number)
    (howned : ∀ byte ∈ owned, isContinuation byte = true) :
    Wide (Char.ofNat number) owned where
  char_ge := by rwa [Char.toNat_ofNat, if_pos hvalid]
  owned_isContinuation := howned

theorem le_and_le_iff {low high : UInt8} :
    (decide (low ≤ lead) && decide (lead ≤ high)) = true ↔
      low.toNat ≤ lead.toNat ∧ lead.toNat ≤ high.toNat := by
  rw [Bool.and_eq_true, decide_eq_true_eq, decide_eq_true_eq,
    UInt8.le_iff_toNat_le, UInt8.le_iff_toNat_le]

variable {second third fourth : UInt8}

theorem wide_pair (hrange : 0xC2 ≤ lead.toNat ∧ lead.toNat ≤ 0xDF)
    (hsecond : isSecond lead second = true) :
    Wide (Char.ofNat ((lead.toNat - 0xC0) * 0x40 + payload second))
      [second] := by
  obtain ⟨hcontinuation, -⟩ := isSecond_iff.mp hsecond
  have hbounds := isContinuation_iff.mp hcontinuation
  have hpayload : payload second = second.toNat - 0x80 := rfl
  apply wide_ofNat
  · unfold Nat.isValidChar
    omega
  · omega
  · simpa using hcontinuation

/-- Neither overlong forms nor surrogates pass the second byte. -/
theorem wide_triple (hrange : 0xE0 ≤ lead.toNat ∧ lead.toNat ≤ 0xEF)
    (hsecond : isSecond lead second = true)
    (hthird : isContinuation third = true) :
    Wide (Char.ofNat ((lead.toNat - 0xE0) * 0x1000 + payload second * 0x40 +
      payload third)) [second, third] := by
  obtain ⟨hcontinuation, hoverlong, hsurrogate, -⟩ := isSecond_iff.mp hsecond
  have hbounds := isContinuation_iff.mp hcontinuation
  have hbounds' := isContinuation_iff.mp hthird
  have hpayload : payload second = second.toNat - 0x80 := rfl
  have hpayload' : payload third = third.toNat - 0x80 := rfl
  apply wide_ofNat
  · unfold Nat.isValidChar
    omega
  · omega
  · simpa using ⟨hcontinuation, hthird⟩

/-- Neither overlong forms nor values beyond the last code point pass the second
byte. -/
theorem wide_quadruple (hrange : 0xF0 ≤ lead.toNat ∧ lead.toNat ≤ 0xF4)
    (hsecond : isSecond lead second = true)
    (hthird : isContinuation third = true)
    (hfourth : isContinuation fourth = true) :
    Wide (Char.ofNat ((lead.toNat - 0xF0) * 0x40000 +
      payload second * 0x1000 + payload third * 0x40 + payload fourth))
      [second, third, fourth] := by
  obtain ⟨hcontinuation, -, -, hoverlong, hbeyond⟩ := isSecond_iff.mp hsecond
  have hbounds := isContinuation_iff.mp hcontinuation
  have hbounds' := isContinuation_iff.mp hthird
  have hbounds'' := isContinuation_iff.mp hfourth
  have hpayload : payload second = second.toNat - 0x80 := rfl
  have hpayload' : payload third = third.toNat - 0x80 := rfl
  have hpayload'' : payload fourth = fourth.toNat - 0x80 := rfl
  apply wide_ofNat
  · unfold Nat.isValidChar
    omega
  · omega
  · simpa using ⟨hcontinuation, hthird, hfourth⟩

theorem scalarAt_of_ascii (hlead : lead < 0x80) (rest : Bytes) :
    scalarAt lead rest = (Char.ofNat lead.toNat, 0) := by
  unfold scalarAt
  exact if_pos hlead

/-- What starts beyond ASCII stays there: either a whole sequence of two to four
bytes is one character, or the lead byte alone is replaced. -/
theorem wide_scalarAt (hlead : ¬lead < 0x80) (rest : Bytes) :
    Wide (scalarAt lead rest).1 (rest.take (scalarAt lead rest).2) := by
  unfold scalarAt
  rw [if_neg hlead]
  split
  next htwo =>
    match rest with
    | [] => exact wide_replacement
    | second :: _ =>
        dsimp only
        split
        next hsecond =>
          dsimp only
          exact wide_pair (le_and_le_iff.mp htwo) hsecond
        next => exact wide_replacement
  next =>
    split
    next hthree =>
      match rest with
      | [] | [_] => exact wide_replacement
      | second :: third :: _ =>
          dsimp only
          split
          next hbytes =>
            obtain ⟨hsecond, hthird⟩ := Bool.and_eq_true_iff.mp hbytes
            dsimp only
            exact wide_triple (le_and_le_iff.mp hthree) hsecond hthird
          next => exact wide_replacement
    next =>
      split
      next hfour =>
        match rest with
        | [] | [_] | [_, _] => exact wide_replacement
        | second :: third :: fourth :: _ =>
            dsimp only
            split
            next hbytes =>
              obtain ⟨hfirst, hfourth⟩ := Bool.and_eq_true_iff.mp hbytes
              obtain ⟨hsecond, hthird⟩ := Bool.and_eq_true_iff.mp hfirst
              dsimp only
              exact wide_quadruple (le_and_le_iff.mp hfour) hsecond hthird
                hfourth
            next => exact wide_replacement
      next => exact wide_replacement

/-- One step of decoding keeps what the bytes say: the commands among the
characters from here on are the commands among the bytes, where the bytes passed
over belong to the character before. -/
theorem filterMap_decodeFrom {skip : ℕ} {bytes : Bytes}
    (hskip : ∀ byte ∈ bytes.take skip, isContinuation byte = true) :
    (decodeFrom skip bytes).filterMap Command.ofChar? =
      bytes.filterMap Command.ofByte? := by
  induction bytes generalizing skip with
  | nil =>
      rw [decodeFrom]
      rfl
  | cons lead rest ih =>
      cases skip with
      | succ skip =>
          rw [List.take_succ_cons, List.forall_mem_cons] at hskip
          have hlead : 0x80 ≤ lead := by
            rw [UInt8.le_iff_toNat_le]
            exact (isContinuation_iff.mp hskip.1).1
          rw [decodeFrom, ih hskip.2,
            List.filterMap_cons_none (Command.ofByte?_eq_none hlead)]
      | zero =>
          rw [decodeFrom]
          by_cases hascii : lead < 0x80
          · have hrest := @ih 0 (by simp)
            rw [scalarAt_of_ascii hascii, List.filterMap_cons,
              List.filterMap_cons, hrest, Command.ofChar?_ofNat hascii]
          · have hwide := wide_scalarAt hascii rest
            rw [List.filterMap_cons_none (Command.ofChar?_eq_none hwide.char_ge),
              ih hwide.owned_isContinuation, List.filterMap_cons_none
                (Command.ofByte?_eq_none (UInt8.not_lt.mp hascii))]

end Utf8

namespace Source

/-- The commands of a source are those of its bytes, decoded or not. -/
theorem commands_eq_filterMap (source : Bytes) :
    commands source = source.filterMap Command.ofByte? :=
  Utf8.filterMap_decodeFrom (by simp)

theorem filtered_eq_filter (source : Bytes) :
    filtered source = source.filter (· ∈ Command.bytes) := by
  rw [filtered, commands_eq_filterMap]
  induction source with
  | nil => rfl
  | cons byte source ih =>
      cases hcommand : Command.ofByte? byte with
      | none =>
          have hother := Command.ofByte?_eq_none_iff.mp hcommand
          rw [List.filterMap_cons_none hcommand, ih,
            List.filter_cons_of_neg (by simpa using hother)]
      | some command =>
          obtain rfl := Command.byte_of_ofByte? hcommand
          rw [List.filterMap_cons_some hcommand, List.map_cons, ih,
            List.filter_cons_of_pos
              (by simpa using Command.byte_mem_bytes command)]

-- a sequence of three bytes that breaks off after two keeps nothing from being read
example : filtered [0xE2, 0x96, 0x2B, 0x5B] = [0x2B, 0x5B] := by decide

theorem commands_append (left right : Bytes) :
    commands (left ++ right) = commands left ++ commands right := by
  rw [commands_eq_filterMap, commands_eq_filterMap, commands_eq_filterMap,
    List.filterMap_append]

theorem commands_of_filtered {source : Bytes} {word : List Command}
    (hword : filtered source = word.map Command.byte) :
    commands source = word := by
  rw [← commands_filtered, hword, commands_map_byte]

/-- Taking out the comments of a source is taking out its bytes that are no
commands, whatever characters the bytes make up.  So it may be done piece by
piece and again, the programs depend on what is left only, and that takes one
byte for each command. -/
theorem filtered_bytewise :
    (∀ source : Bytes,
        filtered source = source.filter (· ∈ Command.bytes) ∧
          commands source = source.filterMap Command.ofByte?) ∧
      (∀ left right : Bytes,
        filtered (left ++ right) = filtered left ++ filtered right) ∧
      ∀ source : Bytes,
        filtered (filtered source) = filtered source ∧
          Program.encode source = Program.encode (filtered source) ∧
          Program.parse source = Program.parse (filtered source) ∧
          (filtered source).length = (commands source).length := by
  refine ⟨?_, ?_, ?_⟩
  · intro source
    exact ⟨filtered_eq_filter source, commands_eq_filterMap source⟩
  · intro left right
    rw [filtered, commands_append, List.map_append]
    rfl
  · intro source
    refine ⟨?_, (Program.encode_filtered source).symm, ?_, ?_⟩
    · rw [filtered, commands_filtered]
      rfl
    · simp only [Program.parse, Program.encode_filtered]
    · exact List.length_map _

end Source

end BrainfuckFront
