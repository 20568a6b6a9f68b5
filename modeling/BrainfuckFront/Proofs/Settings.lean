import Mathlib
import BrainfuckFront.CommandLine.Options

/-!
# Settings and the arguments that make them

A setting can be written in several ways: with one dash or two, with its value
behind an equals sign or in an argument of its own, and a switch without any
value.  Reading undoes writing, whatever the values look like.  A value that
follows its flag may itself look like a flag, an ending or an assignment, and is
still read as a value.  So the options that come out depend only on which settings
were made: for every field the last one counts.
-/

namespace BrainfuckFront.CommandLine

/-- The texts that a switch takes for a value. -/
def booleanTexts : Bool → List String
  | true => ["1", "t", "T", "TRUE", "true", "True"]
  | false => ["0", "f", "F", "FALSE", "false", "False"]

theorem boolean?_of_mem_booleanTexts {value : Bool} {text : String}
    (htext : text ∈ booleanTexts value) : boolean? text = some value := by
  have hall : ∀ value, ∀ text ∈ booleanTexts value,
      boolean? text = some value := by decide
  exact hall value text htext

namespace Setting

/-- The name of the flag that makes the setting. -/
def name : Setting → String
  | file _ => "file"
  | format _ => "format"
  | color _ => "color"
  | debug _ => "debug"

def file? : Setting → Option String
  | file value => some value
  | _ => none

def format? : Setting → Option String
  | format value => some value
  | _ => none

def color? : Setting → Option String
  | color value => some value
  | _ => none

def debug? : Setting → Option Bool
  | debug value => some value
  | _ => none

/-- The value of a setting that takes a text. -/
def text? : Setting → Option String
  | file value => some value
  | format value => some value
  | color value => some value
  | debug _ => none

/-- The arguments that make one setting. -/
inductive Written : Setting → List String → Prop
  | separate {setting : Setting} (dashes text : String)
      (hdashes : dashes ∈ ["-", "--"]) (htext : setting.text? = some text) :
      Written setting [dashes ++ setting.name, text]
  | joined {setting : Setting} (dashes text : String)
      (hdashes : dashes ∈ ["-", "--"]) (htext : setting.text? = some text) :
      Written setting [dashes ++ setting.name ++ "=" ++ text]
  | switched (dashes : String) (hdashes : dashes ∈ ["-", "--"]) :
      Written (debug true) [dashes ++ "debug"]
  | assigned {value : Bool} (dashes text : String)
      (hdashes : dashes ∈ ["-", "--"]) (htext : text ∈ booleanTexts value) :
      Written (debug value) [dashes ++ "debug" ++ "=" ++ text]

/-- The last value among the settings of one field. -/
def last {A : Type} (field : Setting → Option A) (settings : List Setting) :
    Option A :=
  (settings.filterMap field).getLast?

end Setting

/-- The flags are over: there are no more arguments, or the first of them is two
dashes, one dash, or starts with no dash, as the empty argument does. -/
def FlagsOver (arguments : List String) : Prop :=
  ∀ first ∈ arguments.head?,
    first = "--" ∨ first = "-" ∨ first.toList.head? ≠ some '-'

namespace Argument

/-- What a flag can be called. -/
def IsName (name : String) : Prop :=
  (∃ first ∈ name.toList.head?, first ≠ '-') ∧ '=' ∉ name.toList

theorem isName_name (setting : Setting) : IsName setting.name := by
  cases setting <;> simp [Setting.name, IsName]

variable {dashes name : String}

theorem ofChars_of_dashes (hdashes : dashes ∈ ["-", "--"]) {first : Char}
    (hfirst : first ≠ '-') (body : List Char) :
    ofChars (dashes.toList ++ first :: body) = ofFlag (first :: body) := by
  simp only [List.mem_cons, List.not_mem_nil, or_false] at hdashes
  obtain rfl | rfl := hdashes
  · rw [show "-".toList = ['-'] from rfl, List.singleton_append, ofChars]
    · exact List.cons_ne_nil first body
    · exact fun hsame => hfirst (List.cons.inj hsame).1
    · exact fun _ hsame => hfirst (List.cons.inj hsame).1
  · rw [show "--".toList = ['-', '-'] from rfl]
    rfl

section Names

variable (hdashes : dashes ∈ ["-", "--"]) (hname : IsName name)

include hdashes hname

/-- Behind its dashes, a flag is read up to the first equals sign. -/
theorem ofString_of_isName (rest : List Char) {argument : String}
    (hargument : argument.toList = dashes.toList ++ (name.toList ++ rest))
    (hrest : ∀ char ∈ rest.head?, char = '=') :
    ofString argument =
      flag name (rest.tail?.map String.ofList) := by
  obtain ⟨⟨first, hfirst, hne⟩, hequals⟩ := hname
  obtain ⟨others, hchars⟩ := List.head?_eq_some_iff.mp hfirst
  have hname : ∀ char ∈ name.toList, (char != '=') = true := by
    intro char hchar
    rw [bne_iff_ne]
    exact fun hsame => hequals (hsame ▸ hchar)
  have hstop : rest.takeWhile (· != '=') = [] ∧
      rest.dropWhile (· != '=') = rest := by
    cases rest with
    | nil => exact ⟨rfl, rfl⟩
    | cons char rest =>
        obtain rfl := hrest char rfl
        exact ⟨rfl, rfl⟩
  have hfirstEquals : first ≠ '=' := fun hsame =>
    hequals (hchars ▸ hsame ▸ List.mem_cons_self)
  rw [ofString, hargument, hchars, List.cons_append,
    ofChars_of_dashes hdashes hne, ofFlag, if_neg (by simp [hne, hfirstEquals]),
    ← List.cons_append, ← hchars, List.takeWhile_append_of_pos hname, hstop.1,
    List.dropWhile_append_of_pos hname, hstop.2, List.append_nil,
    String.ofList_toList]
  cases rest <;> rfl

theorem ofString_alone : ofString (dashes ++ name) = flag name none :=
  ofString_of_isName hdashes hname [] (by simp) (by simp)

theorem ofString_assigned (text : String) :
    ofString (dashes ++ name ++ "=" ++ text) = flag name (some text) := by
  rw [ofString_of_isName hdashes hname ('=' :: text.toList) (by simp) (by simp)]
  simp

end Names

theorem ofString_of_over {first : String}
    (hover : first = "--" ∨ first = "-" ∨ first.toList.head? ≠ some '-') :
    ofString first = ending := by
  obtain rfl | rfl | hhead := hover
  · rfl
  · rfl
  · rw [ofString]
    cases hchars : first.toList with
    | nil => rfl
    | cons char rest =>
        have hchar : char ≠ '-' := by simpa [hchars] using hhead
        rw [ofChars] <;> simp [hchar]

end Argument

open Argument (isName_name)

variable {setting : Setting} {piece tail : List String}

theorem exists_textSetting? {text : String}
    (htext : setting.text? = some text) :
    ∃ make, textSetting? setting.name = some make ∧ make text = setting := by
  cases setting with
  | file value => exact ⟨.file, rfl, congrArg _ (Option.some.inj htext.symm)⟩
  | format value => exact ⟨.format, rfl, congrArg _ (Option.some.inj htext.symm)⟩
  | color value => exact ⟨.color, rfl, congrArg _ (Option.some.inj htext.symm)⟩
  | debug value => cases htext

theorem name_ne_debug {text : String} (htext : setting.text? = some text) :
    setting.name ≠ "debug" := by
  cases setting with
  | debug value => cases htext
  | _ => simp [Setting.name]

/-- One written setting is read, and reading goes on behind it. -/
theorem settings_append_of_written (hwritten : setting.Written piece)
    (rest : List String) :
    settings (piece ++ rest) = (settings rest).map (setting :: ·) := by
  have hdebug : Argument.IsName "debug" := isName_name (.debug true)
  cases hwritten with
  | separate dashes text hdashes htext =>
      obtain ⟨make, hmake, hsetting⟩ := exists_textSetting? htext
      rw [List.cons_append, List.singleton_append, settings,
        Argument.ofString_alone hdashes (isName_name setting)]
      dsimp only
      rw [if_neg (name_ne_debug htext), hmake]
      dsimp only
      rw [hsetting]
  | joined dashes text hdashes htext =>
      obtain ⟨make, hmake, hsetting⟩ := exists_textSetting? htext
      rw [List.singleton_append, settings,
        Argument.ofString_assigned hdashes (isName_name setting)]
      dsimp only
      rw [if_neg (name_ne_debug htext), hmake]
      dsimp only
      rw [hsetting]
  | switched dashes hdashes =>
      rw [List.singleton_append, settings,
        Argument.ofString_alone hdashes hdebug]
      rfl
  | assigned dashes text hdashes htext =>
      rw [List.singleton_append, settings,
        Argument.ofString_assigned hdashes hdebug]
      dsimp only
      rw [if_pos rfl, debugSetting, boolean?_of_mem_booleanTexts htext]

theorem settings_of_flagsOver (hover : FlagsOver tail) :
    settings tail = .ok [] := by
  cases tail with
  | nil => rfl
  | cons first rest =>
      rw [settings, Argument.ofString_of_over (hover first rfl)]

theorem settings_flatten_append {made : List Setting}
    {pieces : List (List String)}
    (hwritten : List.Forall₂ Setting.Written made pieces)
    (rest : List String) :
    settings (pieces.flatten ++ rest) = (settings rest).map (made ++ ·) := by
  induction hwritten with
  | nil => cases hrest : settings rest <;> simp [hrest, Except.map]
  | cons hfirst _ ih =>
      rw [List.flatten_cons, List.append_assoc,
        settings_append_of_written hfirst, ih]
      cases settings rest <;> rfl

theorem settings_of_written {made : List Setting} {pieces : List (List String)}
    (hwritten : List.Forall₂ Setting.Written made pieces)
    (hover : FlagsOver tail) :
    settings (pieces.flatten ++ tail) = .ok made := by
  rw [settings_flatten_append hwritten, settings_of_flagsOver hover, Except.map,
    List.append_nil]

/-- A flag that takes a text and stands last has none left to take. -/
theorem settings_of_missingValue {dashes text : String}
    (hdashes : dashes ∈ ["-", "--"]) (htext : setting.text? = some text) :
    settings [dashes ++ setting.name] =
      .error (.missingValue setting.name) := by
  obtain ⟨make, hmake, -⟩ := exists_textSetting? htext
  rw [settings, Argument.ofString_alone hdashes (isName_name setting)]
  dsimp only
  rw [if_neg (name_ne_debug htext), hmake]

namespace Setting

/-- The options that settings leave: for every field the last value that was set,
or the default, which for `debug` is that of a build without an override. -/
def chosen (made : List Setting) : Options where
  file := (last file? made).getD ""
  format := (last format? made).getD "text"
  color := (last color? made).getD "auto"
  debug := (last debug? made).getD false

/-- A later setting of a field hides the earlier ones, and those of other fields
leave it alone. -/
theorem foldl_set {A : Type} (project : Options → A)
    (field : Setting → Option A)
    (hset : ∀ (options : Options) (setting : Setting),
      project (options.set setting) = (field setting).getD (project options))
    (made : List Setting) (options : Options) :
    project (made.foldl Options.set options) =
      (last field made).getD (project options) := by
  induction made generalizing options with
  | nil => rfl
  | cons setting made ih =>
      rw [List.foldl_cons, ih, hset, last, last]
      cases hfield : field setting with
      | none => rw [List.filterMap_cons_none hfield, Option.getD_none]
      | some value =>
          rw [List.filterMap_cons_some hfield, List.getLast?_cons,
            Option.getD_some, Option.getD_some]

theorem foldl_set_default (made : List Setting) :
    made.foldl Options.set .default = chosen made := by
  have hfile := foldl_set Options.file file?
    (by rintro _ (_ | _ | _ | _) <;> rfl) made .default
  have hformat := foldl_set Options.format format?
    (by rintro _ (_ | _ | _ | _) <;> rfl) made .default
  have hcolor := foldl_set Options.color color?
    (by rintro _ (_ | _ | _ | _) <;> rfl) made .default
  have hdebug := foldl_set Options.debug debug?
    (by rintro _ (_ | _ | _ | _) <;> rfl) made .default
  generalize made.foldl Options.set .default = options
    at hfile hformat hcolor hdebug ⊢
  obtain ⟨file, format, color, debug⟩ := options
  dsimp only at hfile hformat hcolor hdebug
  rw [hfile, hformat, hcolor, hdebug]
  rfl

end Setting

namespace Options

variable {made : List Setting} {pieces : List (List String)}

theorem ofArguments_of_written
    (hwritten : List.Forall₂ Setting.Written made pieces)
    (hover : FlagsOver tail) :
    ofArguments (pieces.flatten ++ tail) =
      (Setting.chosen made).validate := by
  rw [ofArguments, settings_of_written hwritten hover]
  dsimp only
  rw [Setting.foldl_set_default]

section Validation

variable {options : Options}

theorem validate_of_format (hfile : options.file ≠ "")
    (hformat : options.format ∉ ["text", "json"]) :
    options.validate = .error (.unknownFormat options.format) := by
  rw [validate, if_neg hfile, if_pos (by simpa using hformat)]

variable (hfile : options.file ≠ "")
variable (hformat : options.format ∈ ["text", "json"])

include hfile hformat

theorem validate_of_color (hcolor : options.color ∉ ["auto", "always", "never"]) :
    options.validate = .error (.unknownColor options.color) := by
  rw [validate, if_neg hfile, if_neg (by grind), if_pos (by simpa using hcolor)]

theorem validate_of_known (hcolor : options.color ∈ ["auto", "always", "never"]) :
    options.validate = .ok options := by
  rw [validate, if_neg hfile, if_neg (by grind), if_neg (by grind)]

end Validation

/-- However settings are written, and whatever follows them once the flags are
over, they give the options with the last value of every field.  These are refused
if the file is missing or empty, or else if the format is unknown, or else if the
mode of colouring is; otherwise they are the result. -/
theorem ofArguments_written
    (hwritten : List.Forall₂ Setting.Written made pieces)
    (hover : FlagsOver tail) :
    ((∃ error, ofArguments (pieces.flatten ++ tail) = .error error) ↔
        (Setting.chosen made).file = "" ∨
          (Setting.chosen made).format ∉ ["text", "json"] ∨
          (Setting.chosen made).color ∉ ["auto", "always", "never"]) ∧
      ((Setting.chosen made).file = "" →
        ofArguments (pieces.flatten ++ tail) = .error .fileRequired) ∧
      ((Setting.chosen made).file ≠ "" →
        (Setting.chosen made).format ∉ ["text", "json"] →
          ofArguments (pieces.flatten ++ tail) =
            .error (.unknownFormat (Setting.chosen made).format)) ∧
      ((Setting.chosen made).file ≠ "" →
        (Setting.chosen made).format ∈ ["text", "json"] →
          (Setting.chosen made).color ∉ ["auto", "always", "never"] →
            ofArguments (pieces.flatten ++ tail) =
              .error (.unknownColor (Setting.chosen made).color)) ∧
      ((Setting.chosen made).file ≠ "" →
        (Setting.chosen made).format ∈ ["text", "json"] →
          (Setting.chosen made).color ∈ ["auto", "always", "never"] →
            ofArguments (pieces.flatten ++ tail) =
              .ok (Setting.chosen made)) := by
  rw [ofArguments_of_written hwritten hover]
  generalize Setting.chosen made = options
  have hempty (hfile : options.file = "") :
      options.validate = .error .fileRequired := if_pos hfile
  refine ⟨⟨?_, ?_⟩, hempty, validate_of_format, validate_of_color,
    validate_of_known⟩
  · rintro ⟨error, herror⟩
    by_contra hvalid
    simp only [not_or, not_not] at hvalid
    rw [validate_of_known hvalid.1 hvalid.2.1 hvalid.2.2] at herror
    cases herror
  · intro hfault
    by_cases hfile : options.file = ""
    · exact ⟨_, hempty hfile⟩
    by_cases hformat : options.format ∈ ["text", "json"]
    · have hcolor := (hfault.resolve_left hfile).resolve_left
        (not_not.mpr hformat)
      exact ⟨_, validate_of_color hfile hformat hcolor⟩
    · exact ⟨_, validate_of_format hfile hformat⟩

/-- Values that look like flags or endings, settings that are overridden, and
flags that come too late. -/
theorem ofArguments_written_lookalikes :
    ofArguments ["-format", "--", "--file=-x=y", "--debug", "-file", "-debug",
        "-debug=F", "--format=json", "-", "-color", "pink"] =
      .ok ⟨"-debug", "json", "auto", false⟩ := by
  have hwritten : List.Forall₂ Setting.Written
      [.format "--", .file "-x=y", .debug true, .file "-debug", .debug false,
        .format "json"]
      [["-format", "--"], ["--file=-x=y"], ["--debug"], ["-file", "-debug"],
        ["-debug=F"], ["--format=json"]] :=
    .cons (.separate "-" "--" (by decide) rfl)
      (.cons (.joined "--" "-x=y" (by decide) rfl)
        (.cons (.switched "--" (by decide))
          (.cons (.separate "-" "-debug" (by decide) rfl)
            (.cons (.assigned "-" "F" (by decide) (by decide))
              (.cons (.joined "--" "json" (by decide) rfl) .nil)))))
  have hover : FlagsOver ["-", "-color", "pink"] := by
    rintro _ ⟨⟩
    exact Or.inr (Or.inl rfl)
  exact (ofArguments_written hwritten hover).2.2.2.2 (by decide) (by decide)
    (by decide)

end Options

end BrainfuckFront.CommandLine
