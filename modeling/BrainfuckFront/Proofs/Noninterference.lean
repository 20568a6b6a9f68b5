import Mathlib
import BrainfuckFront.Proofs.Filtering
import BrainfuckFront.Proofs.Outcomes

/-!
# What a run does not show

The contents of a file reach a run twice, once through the parser and once
through the diagnostic, and both take out the comments.  So two files with the
same commands cannot be told apart, whatever else is in them.  Each option shows
in one place only: the exit code depends on none, the standard output on
`check` and on whether the format is JSON, and the standard error on whether it
is painted.
-/

namespace BrainfuckFront

theorem Source.filtered_congr {left right : Bytes}
    (hbytes : left.filter (· ∈ Command.bytes) =
      right.filter (· ∈ Command.bytes)) :
    filtered left = filtered right := by
  rw [filtered_eq_filter, filtered_eq_filter, hbytes]

theorem Program.parse_congr {left right : Bytes}
    (hfiltered : Source.filtered left = Source.filtered right) :
    parse left = parse right := by
  rw [parse, parse, hfiltered]

/-- The diagnostic of an error depends on the commands of its source only. -/
theorem Diagnostic.ofSource_congr {left right : Bytes}
    (hfiltered : Source.filtered left = Source.filtered right)
    (error : ParseError) (color : Bool) :
    ofSource error left color = ofSource error right color := by
  rw [ofSource, ofSource, hfiltered]

namespace CommandLine

/-- The run over a file with `source` as its contents, with both outputs in
memory. -/
def runInMemory (options : Options) (check : Bool) (source : Bytes) : Outcome :=
  run options check false (.ok source) .unlimited .unlimited

/-- In memory nothing is painted unless the mode says so. -/
theorem useColor_false (mode : String) :
    useColor mode false = decide (mode = "always") := by
  by_cases hmode : mode = "always"
  · rw [useColor, if_pos hmode, decide_eq_true hmode]
  · rw [useColor, if_neg hmode, ite_self, decide_eq_false hmode]

variable {options : Options} {check : Bool} {source left right : Bytes}

theorem report_of_parse_error {error : ParseError}
    (hparse : Program.parse source = .error (.parse error)) :
    (runInMemory options check source).report =
      ⟨1, "", (Diagnostic.ofSource error source
        (decide (options.color = "always"))).text, []⟩ := by
  rw [← useColor_false]
  exact report_run_unlimited_of_parse_error hparse

theorem report_of_parse_ok {program : Program}
    (hsize : source.length < 2 ^ 63)
    (hparse : Program.parse source = .ok program) :
    (runInMemory options check source).report =
      ⟨0, if check then "" else program.listing options.format, "", []⟩ :=
  report_run_unlimited_of_parse_ok hsize hparse

/-- The exit code says whether the source parses, and nothing else. -/
theorem code_runInMemory (hsize : source.length < 2 ^ 63) :
    (runInMemory options check source).status.code =
      if (Program.parse source).isOk then 0 else 1 := by
  cases hparse : Program.parse source with
  | error failure =>
      obtain ⟨error, rfl, -⟩ := Program.exists_parseError hsize hparse
      exact congrArg Report.code (report_of_parse_error hparse)
  | ok program => exact congrArg Report.code (report_of_parse_ok hsize hparse)

theorem stdout_runInMemory (hsize : source.length < 2 ^ 63) :
    (runInMemory options check source).stdout.text =
      match Program.parse source with
      | .error _ => ""
      | .ok program =>
          if check then "" else program.listing options.format := by
  cases hparse : Program.parse source with
  | error failure =>
      obtain ⟨error, rfl, -⟩ := Program.exists_parseError hsize hparse
      exact congrArg Report.stdout (report_of_parse_error hparse)
  | ok program =>
      exact congrArg Report.stdout (report_of_parse_ok hsize hparse)

theorem stderr_runInMemory (hsize : source.length < 2 ^ 63) :
    (runInMemory options check source).stderr.text =
      match Program.parse source with
      | .error failure => failure.parseError?.elim "" fun error =>
          (Diagnostic.ofSource error source
            (decide (options.color = "always"))).text
      | .ok _ => "" := by
  cases hparse : Program.parse source with
  | error failure =>
      obtain ⟨error, rfl, -⟩ := Program.exists_parseError hsize hparse
      exact congrArg Report.stderr (report_of_parse_error hparse)
  | ok program =>
      exact congrArg Report.stderr (report_of_parse_ok hsize hparse)

/-- Two runs over files with the same command bytes end with the same exit code,
show the same on the standard output if they agree on `check` and on JSON, and
the same on the standard error if they agree on painting always. -/
theorem run_noninterference (hleft : left.length < 2 ^ 63)
    (hright : right.length < 2 ^ 63)
    (hbytes : left.filter (· ∈ Command.bytes) =
      right.filter (· ∈ Command.bytes))
    (options options' : Options) (check check' : Bool) :
    (runInMemory options check left).status.code =
        (runInMemory options' check' right).status.code ∧
      (check = check' →
        (options.format = "json" ↔ options'.format = "json") →
          (runInMemory options check left).stdout.text =
            (runInMemory options' check' right).stdout.text) ∧
      ((options.color = "always" ↔ options'.color = "always") →
        (runInMemory options check left).stderr.text =
          (runInMemory options' check' right).stderr.text) ∧
      ((runInMemory options true left).status.code = 0 ↔
        (runInMemory options' false right).status.code = 0) := by
  have hfiltered := Source.filtered_congr hbytes
  have hparse := Program.parse_congr hfiltered
  have hcode (check check' : Bool) :
      (runInMemory options check left).status.code =
        (runInMemory options' check' right).status.code := by
    rw [code_runInMemory hleft, code_runInMemory hright, hparse]
  refine ⟨hcode check check', ?_, ?_, by rw [hcode]⟩
  · intro hcheck hformat
    rw [stdout_runInMemory hleft, stdout_runInMemory hright, hparse, hcheck]
    simp only [Program.listing, hformat]
  · intro hcolor
    rw [stderr_runInMemory hleft, stderr_runInMemory hright, hparse]
    simp only [hcolor, Diagnostic.ofSource_congr hfiltered]

/-- The sources differ in a comment that breaks off a character. -/
theorem run_noninterference_comment :
    (runInMemory ⟨"loop.bf", "json", "never", true⟩ true
        [91, 0xE2, 0x96, 93]).status.code =
      (runInMemory ⟨"empty", "text", "auto", false⟩ false
        [91, 93, 32]).status.code ∧
      (runInMemory ⟨"loop.bf", "json", "never", true⟩ true
          [91, 0xE2, 0x96, 93]).stderr.text =
        (runInMemory ⟨"empty", "text", "auto", false⟩ false
          [91, 93, 32]).stderr.text := by
  have hbytes : [91, 0xE2, 0x96, 93].filter (· ∈ Command.bytes) =
      [91, 93, 32].filter (· ∈ Command.bytes) := by decide
  have hsame := run_noninterference (by decide) (by decide) hbytes
    ⟨"loop.bf", "json", "never", true⟩ ⟨"empty", "text", "auto", false⟩ true
    false
  exact ⟨hsame.1, hsame.2.2.1 (by decide)⟩

end CommandLine

end BrainfuckFront
