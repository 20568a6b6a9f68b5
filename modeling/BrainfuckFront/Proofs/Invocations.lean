import Mathlib
import BrainfuckFront.Proofs.CheckWord
import BrainfuckFront.Proofs.Outcomes

/-!
# From the arguments to the outputs

What the command does is fixed by the settings that its arguments make, by
whether they ask for a check, and by what the file holds.  It can end in four
ways, and exactly one of them applies.  So the exit status tells a wrong use of
the command from a faulty source, and asking for a check changes nothing but
what is shown of a valid program.
-/

namespace BrainfuckFront.CommandLine

theorem Status.code_injective : Function.Injective code := by
  intro left right hcode
  cases left <;> cases right <;> first | rfl | cases hcode

/-- The arguments make the settings `made`, and ask for a check if `check` says
so.  The word stands between two settings, or anywhere behind them once the flags
are over. -/
inductive Asks (made : List Setting) : Bool → List String → Prop
  | plain {pieces : List (List String)} {tail : List String}
      (hwritten : List.Forall₂ Setting.Written made pieces)
      (hover : FlagsOver tail) (hgives : ¬ GivesWord pieces)
      (htail : checkWord ∉ tail) :
      Asks made false (pieces.flatten ++ tail)
  | between {before after : List (List String)} {tail : List String}
      (hwritten : List.Forall₂ Setting.Written made (before ++ after))
      (hover : FlagsOver tail) (hgives : ¬ GivesWord before) :
      Asks made true (before.flatten ++ checkWord :: (after.flatten ++ tail))
  | behind {pieces : List (List String)} {front back : List String}
      (hwritten : List.Forall₂ Setting.Written made pieces)
      (hover : FlagsOver (front ++ back)) (hgives : ¬ GivesWord pieces)
      (hfront : checkWord ∉ front) :
      Asks made true (pieces.flatten ++ front ++ checkWord :: back)

section Arguments

variable {made : List Setting} {check : Bool} {arguments : List String}

theorem checkWord_notMem_append {pieces : List (List String)}
    {tail : List String}
    (hwritten : List.Forall₂ Setting.Written made pieces)
    (hgives : ¬ GivesWord pieces) (htail : checkWord ∉ tail) :
    checkWord ∉ pieces.flatten ++ tail := by
  rw [List.mem_append, checkWord_mem_flatten_iff hwritten]
  exact not_or.mpr ⟨hgives, htail⟩

/-- Taking out the word leaves the arguments that make the settings. -/
theorem Asks.exists_flags (hasks : Asks made check arguments) :
    ∃ flags, takeCheck arguments = (check, flags) ∧
      Options.ofArguments flags = (Setting.chosen made).validate := by
  cases hasks with
  | plain hwritten hover hgives htail =>
      have hword := checkWord_notMem_append hwritten hgives htail
      exact ⟨_, takeCheck_of_notMem hword,
        Options.ofArguments_of_written hwritten hover⟩
  | @between before after tail hwritten hover hgives =>
      rw [← checkWord_mem_flatten_iff
        (List.forall₂_take_append made before after hwritten)] at hgives
      refine ⟨_, takeCheck_append_cons hgives, ?_⟩
      rw [← List.append_assoc, ← List.flatten_append]
      exact Options.ofArguments_of_written hwritten hover
  | behind hwritten hover hgives hfront =>
      have hword := checkWord_notMem_append hwritten hgives hfront
      refine ⟨_, takeCheck_append_cons hword, ?_⟩
      rw [List.append_assoc]
      exact Options.ofArguments_of_written hwritten hover

/-- With its value behind an equals sign, a setting takes one argument. -/
theorem exists_written_singletons (made : List Setting) :
    ∃ arguments : List String,
      List.Forall₂ Setting.Written made (arguments.map ([·])) := by
  induction made with
  | nil => exact ⟨[], .nil⟩
  | cons setting made ih =>
      obtain ⟨arguments, hwritten⟩ := ih
      have hsetting : ∃ argument, setting.Written [argument] := by
        cases setting with
        | debug value =>
            cases value with
            | true => exact ⟨_, .assigned "-" "true" (by decide) (by decide)⟩
            | false => exact ⟨_, .assigned "-" "false" (by decide) (by decide)⟩
        | _ => exact ⟨_, .joined "-" _ (by decide) rfl⟩
      obtain ⟨argument, hargument⟩ := hsetting
      exact ⟨argument :: arguments, .cons hargument hwritten⟩

/-- Whatever the settings are, some arguments make them, with the word as well as
without it. -/
theorem exists_asks (made : List Setting) (check : Bool) :
    ∃ arguments, Asks made check arguments := by
  obtain ⟨arguments, hwritten⟩ := exists_written_singletons made
  have hgives : ¬ GivesWord (arguments.map ([·])) := by
    simp [GivesWord]
  have hover : FlagsOver [] := by
    rintro _ ⟨⟩
  cases check with
  | false => exact ⟨_, .plain hwritten hover hgives (by simp)⟩
  | true =>
      rw [← List.append_nil (arguments.map ([·]))] at hwritten
      exact ⟨_, .between hwritten hover hgives⟩

end Arguments

namespace Options

/-- The entries that parsing leaves in the log of a run. -/
def traced (options : Options) (source : Bytes) : List Log.Entry :=
  (Program.trace source).map (·.withField "file" (.text options.file))

/-- The entry for a program that passed the check. -/
def validEntry (options : Options) (program : Program) : Log.Entry :=
  { level := .debug
    message := "source is valid"
    fields := [("instructions", .number program.length),
      ("file", .text options.file)] }

/-- Entries for debugging, as far as they are asked for. -/
def debugText (options : Options) (entries : List Log.Entry) : String :=
  if options.debug then String.join (entries.map Log.Entry.line) else ""

theorem lines_logLevel {entries : List Log.Entry} (options : Options)
    (hlevel : ∀ entry ∈ entries, entry.level = .debug) :
    Log.lines options.logLevel entries = options.debugText entries := by
  rw [Log.lines, logLevel, debugText]
  by_cases hdebug : options.debug = true
  · have hall : entries.filter (fun entry =>
        Log.Level.debug.admits entry.level) = entries := by
      rw [List.filter_eq_self]
      intro entry hmem
      rw [hlevel entry hmem]
      rfl
    rw [if_pos hdebug, if_pos hdebug, hall]
  · have hnone : entries.filter (fun entry =>
        Log.Level.info.admits entry.level) = [] := by
      rw [List.filter_eq_nil_iff]
      intro entry hmem
      rw [hlevel entry hmem]
      decide
    rw [if_neg hdebug, if_neg hdebug, hnone]
    rfl

theorem debugText_nil (options : Options) : options.debugText [] = "" := by
  rw [debugText, List.map_nil, String.join_nil, ite_self]

theorem debugText_of_not_debug {options : Options}
    (hdebug : options.debug = false) (entries : List Log.Entry) :
    options.debugText entries = "" := by
  rw [debugText, hdebug, if_neg Bool.false_ne_true]

theorem validate_eq_ok {options result : Options}
    (hresult : options.validate = .ok result) : result = options := by
  unfold validate at hresult
  split_ifs at hresult
  cases hresult
  rfl

/-- Settings that make no options are refused without the usage. -/
theorem validate_eq_error {options : Options} {error : OptionError}
    (herror : options.validate = .error error) :
    error.status = .failure ∧ error.printedUsage = "" ∧
      error.report = errorLine error.message := by
  unfold validate at herror
  split_ifs at herror <;> cases herror <;> exact ⟨rfl, rfl, rfl⟩

end Options

theorem Outcome.log_list (outcome : Outcome) (format : String)
    (program : Program) : (outcome.list format program).log = outcome.log := by
  unfold list
  dsimp only
  split <;> rfl

theorem Outcome.log_diagnose {outcome : Outcome} (file : String)
    (diagnostic : Diagnostic) (hquota : outcome.stderr.quota ≠ some 0) :
    (outcome.diagnose file diagnostic).log = outcome.log := by
  rw [diagnose, Diagnostic.writeTo, Sink.write_eq, if_neg hquota]

theorem log_run_of_parse_ok {options : Options} {check terminal : Bool}
    {source : Bytes} {program : Program} {stdout stderr : Sink}
    (hparse : Program.parse source = .ok program) :
    (run options check terminal (.ok source) stdout stderr).log =
      options.traced source ++
        if check then [options.validEntry program] else [] := by
  rw [run, hparse]
  dsimp only
  cases check with
  | true => rfl
  | false =>
      rw [if_neg Bool.false_ne_true, if_neg Bool.false_ne_true,
        Outcome.log_list, List.append_nil]
      rfl

/-- How the command ends, by the settings, by whether a check is asked for and by
what can be read. -/
inductive Ends (made : List Setting) (check terminal : Bool)
    (read : String → Except Failure Bytes) : Completion → Prop
  | refused {error : OptionError}
      (hoptions : (Setting.chosen made).validate = .error error) :
      Ends made check terminal read
        ⟨.failure, "", errorLine error.message⟩
  | unreadable {options : Options} {failure : Failure}
      (hoptions : (Setting.chosen made).validate = .ok options)
      (hread : read options.file = .error failure) :
      Ends made check terminal read
        ⟨.failure, "", errorLine failure.message⟩
  | faulty {options : Options} {source : Bytes} {error : ParseError}
      (hoptions : (Setting.chosen made).validate = .ok options)
      (hread : read options.file = .ok source)
      (hparse : Program.parse source = .error (.parse error)) :
      Ends made check terminal read
        ⟨.faultySource, "", options.debugText (options.traced source) ++
          (Diagnostic.ofSource error source
            (useColor options.color terminal)).text⟩
  | valid {options : Options} {source : Bytes} {program : Program}
      (hoptions : (Setting.chosen made).validate = .ok options)
      (hread : read options.file = .ok source)
      (hparse : Program.parse source = .ok program) :
      Ends made check terminal read
        ⟨.success, if check then "" else program.listing options.format,
          options.debugText (options.traced source ++
            if check then [options.validEntry program] else [])⟩

section Execution

variable {made : List Setting} {check terminal : Bool}
variable {arguments : List String} {read : String → Except Failure Bytes}

theorem execute_of_refused (hasks : Asks made check arguments)
    {error : OptionError}
    (hoptions : (Setting.chosen made).validate = .error error) :
    execute arguments terminal read =
      ⟨.failure, "", errorLine error.message⟩ := by
  obtain ⟨flags, htake, hflags⟩ := hasks.exists_flags
  obtain ⟨hstatus, husage, hreport⟩ := Options.validate_eq_error hoptions
  rw [execute, htake]
  dsimp only
  rw [hflags, hoptions]
  dsimp only
  rw [hstatus, husage, hreport, String.empty_append]

section Runs

variable {options : Options}
variable (hasks : Asks made check arguments)
variable (hoptions : (Setting.chosen made).validate = .ok options)

include hasks hoptions

/-- Past the options, the command shows what the run shows, and what it logged if
that is asked for. -/
theorem execute_of_report (status : Status) {stdout stderr : String}
    {errors : List String} {log : List Log.Entry}
    (hreport : (run options check terminal (read options.file) .unlimited
      .unlimited).report = ⟨status.code, stdout, stderr, errors⟩)
    (hlog : (run options check terminal (read options.file) .unlimited
      .unlimited).log = log)
    (hlevel : ∀ entry ∈ log, entry.level = .debug) :
    execute arguments terminal read =
      ⟨status, stdout, options.debugText log ++ stderr⟩ := by
  obtain ⟨flags, htake, hflags⟩ := hasks.exists_flags
  have hstatus : (run options check terminal (read options.file) .unlimited
      .unlimited).status = status :=
    Status.code_injective (congrArg Report.code hreport)
  have hstdout : (run options check terminal (read options.file) .unlimited
      .unlimited).stdout.text = stdout := congrArg Report.stdout hreport
  have hstderr : (run options check terminal (read options.file) .unlimited
      .unlimited).stderr.text = stderr := congrArg Report.stderr hreport
  rw [execute, htake]
  dsimp only
  rw [hflags, hoptions]
  dsimp only
  rw [hstatus, hstdout, hstderr, hlog, Options.lines_logLevel options hlevel]

theorem execute_of_unreadable {failure : Failure}
    (hread : read options.file = .error failure) :
    execute arguments terminal read =
      ⟨.failure, "", errorLine failure.message⟩ := by
  have hreport : (run options check terminal (read options.file) .unlimited
      .unlimited).report =
        ⟨Status.failure.code, "", errorLine failure.message, []⟩ := by
    rw [hread]
    exact report_run_unlimited_of_error failure
  have hlog : (run options check terminal (read options.file) .unlimited
      .unlimited).log = [] := by
    rw [hread]
    rfl
  rw [execute_of_report hasks hoptions .failure hreport hlog (by simp),
    Options.debugText_nil, String.empty_append]

theorem execute_of_faulty {source : Bytes} {error : ParseError}
    (hread : read options.file = .ok source)
    (hparse : Program.parse source = .error (.parse error)) :
    execute arguments terminal read =
      ⟨.faultySource, "", options.debugText (options.traced source) ++
        (Diagnostic.ofSource error source
          (useColor options.color terminal)).text⟩ := by
  apply execute_of_report hasks hoptions .faultySource
  · rw [hread]
    exact report_run_unlimited_of_parse_error hparse
  · rw [hread, run, hparse]
    apply Outcome.log_diagnose
    exact (Option.some_ne_none 0).symm
  · exact fun _ => level_of_mem_log

theorem execute_of_valid {source : Bytes} {program : Program}
    (hread : read options.file = .ok source)
    (hsize : source.length < 2 ^ 63)
    (hparse : Program.parse source = .ok program) :
    execute arguments terminal read =
      ⟨.success, if check then "" else program.listing options.format,
        options.debugText (options.traced source ++
          if check then [options.validEntry program] else [])⟩ := by
  have hlevel : ∀ entry ∈ options.traced source ++
      (if check then [options.validEntry program] else []),
      entry.level = .debug := by
    rw [List.forall_mem_append]
    constructor
    · exact fun _ => level_of_mem_log
    · cases check <;> simp [Options.validEntry]
  have hreport : (run options check terminal (read options.file) .unlimited
      .unlimited).report = ⟨Status.success.code,
        if check then "" else program.listing options.format, "", []⟩ := by
    rw [hread]
    exact report_run_unlimited_of_parse_ok hsize hparse
  have hlog : (run options check terminal (read options.file) .unlimited
      .unlimited).log = options.traced source ++
        if check then [options.validEntry program] else [] := by
    rw [hread]
    exact log_run_of_parse_ok hparse
  rw [execute_of_report hasks hoptions .success hreport hlog hlevel,
    String.append_empty]

end Runs

variable (terminal)
variable (hasks : Asks made check arguments)
variable (hsize : ∀ path source, read path = .ok source →
  source.length < 2 ^ 63)

include hasks hsize

theorem ends_execute :
    Ends made check terminal read (execute arguments terminal read) := by
  cases hoptions : (Setting.chosen made).validate with
  | error error =>
      rw [execute_of_refused hasks hoptions]
      exact .refused hoptions
  | ok options =>
      cases hread : read options.file with
      | error failure =>
          rw [execute_of_unreadable hasks hoptions hread]
          exact .unreadable hoptions hread
      | ok source =>
          have hlength := hsize options.file source hread
          cases hparse : Program.parse source with
          | error failure =>
              obtain ⟨error, rfl, -⟩ :=
                Program.exists_parseError hlength hparse
              rw [execute_of_faulty hasks hoptions hread hparse]
              exact .faulty hoptions hread hparse
          | ok program =>
              rw [execute_of_valid hasks hoptions hread hlength hparse]
              exact .valid hoptions hread hparse

theorem execute_of_ends {completion : Completion}
    (hends : Ends made check terminal read completion) :
    execute arguments terminal read = completion := by
  cases hends with
  | refused hoptions => exact execute_of_refused hasks hoptions
  | unreadable hoptions hread =>
      exact execute_of_unreadable hasks hoptions hread
  | faulty hoptions hread hparse =>
      exact execute_of_faulty hasks hoptions hread hparse
  | valid hoptions hread hparse =>
      exact execute_of_valid hasks hoptions hread (hsize _ _ hread) hparse

/-- The command ends as the settings and the file say, and in no other way. -/
theorem execute_eq_iff_ends {completion : Completion} :
    execute arguments terminal read = completion ↔
      Ends made check terminal read completion := by
  constructor
  · rintro rfl
    exact ends_execute terminal hasks hsize
  · exact execute_of_ends terminal hasks hsize

/-- The exit status tells whether the command was used wrongly, the source is
faulty or all went well. -/
theorem status_execute :
    ((execute arguments terminal read).status = .failure ↔
        (∃ error, (Setting.chosen made).validate = .error error) ∨
          ∃ options failure, (Setting.chosen made).validate = .ok options ∧
            read options.file = .error failure) ∧
      ((execute arguments terminal read).status = .faultySource ↔
        ∃ options source error,
          (Setting.chosen made).validate = .ok options ∧
            read options.file = .ok source ∧
            Program.parse source = .error (.parse error)) ∧
      ((execute arguments terminal read).status = .success ↔
        ∃ options source program,
          (Setting.chosen made).validate = .ok options ∧
            read options.file = .ok source ∧
            Program.parse source = .ok program) := by
  have hends := ends_execute terminal hasks hsize
  generalize execute arguments terminal read = completion at hends ⊢
  cases hends with
  | refused hoptions => simp [hoptions]
  | unreadable hoptions hread => simp [hoptions, hread]
  | faulty hoptions hread hparse => simp [hoptions, hread, hparse]
  | valid hoptions hread hparse => simp [hoptions, hread, hparse]

end Execution

section Word

variable {made : List Setting} (terminal : Bool)
variable {read : String → Except Failure Bytes}

/-- With the same settings, a check ends with the status that a listing ends with,
and lists nothing.  Where there is no program both do the same, and where there is
one they differ on the standard error only if they debug. -/
theorem execute_check {checking listing : List String}
    (hchecking : Asks made true checking) (hlisting : Asks made false listing)
    (hsize : ∀ path source, read path = .ok source →
      source.length < 2 ^ 63) :
    (execute checking terminal read).status =
        (execute listing terminal read).status ∧
      (execute checking terminal read).stdout = "" ∧
      ((execute checking terminal read).status ≠ .success →
        execute checking terminal read = execute listing terminal read) ∧
      ((Setting.chosen made).debug = false →
        (execute checking terminal read).stderr =
          (execute listing terminal read).stderr) := by
  have hends := ends_execute terminal hchecking hsize
  generalize execute checking terminal read = checked at hends ⊢
  cases hends with
  | refused hoptions =>
      rw [execute_of_ends terminal hlisting hsize (.refused hoptions)]
      exact ⟨rfl, rfl, fun _ => rfl, fun _ => rfl⟩
  | unreadable hoptions hread =>
      rw [execute_of_ends terminal hlisting hsize (.unreadable hoptions hread)]
      exact ⟨rfl, rfl, fun _ => rfl, fun _ => rfl⟩
  | faulty hoptions hread hparse =>
      rw [execute_of_ends terminal hlisting hsize
        (.faulty hoptions hread hparse)]
      exact ⟨rfl, rfl, fun _ => rfl, fun _ => rfl⟩
  | valid hoptions hread hparse =>
      rw [execute_of_ends terminal hlisting hsize
        (.valid hoptions hread hparse)]
      refine ⟨rfl, rfl, fun hstatus => absurd rfl hstatus, fun hdebug => ?_⟩
      rw [← Options.validate_eq_ok hoptions] at hdebug
      rw [Options.debugText_of_not_debug hdebug,
        Options.debugText_of_not_debug hdebug]

/-- A setting that comes last and has the word for its value, in an argument of its
own, is left without a value, and no file is read. -/
theorem execute_of_missingValue {before : List (List String)}
    {setting : Setting} {flag : String}
    (hwritten : List.Forall₂ Setting.Written made before)
    (hgives : ¬ GivesWord before)
    (hlast : setting.Written [flag, checkWord]) :
    execute (before.flatten ++ [flag, checkWord]) terminal read =
      ⟨.failure, "",
        (OptionError.missingValue setting.name).message ++ "\n" ++ usage ++
          errorLine (OptionError.missingValue setting.name).message⟩ := by
  cases hlast with
  | separate dashes text hdashes htext =>
      have hflag : checkWord ∉ [dashes ++ setting.name] := by
        rw [List.mem_singleton]
        exact (dashes_append_ne_checkWord hdashes setting.name).symm
      have hword := checkWord_notMem_append hwritten hgives hflag
      have htake : takeCheck (before.flatten ++ [dashes ++ setting.name] ++
          [checkWord]) = (true, before.flatten ++ [dashes ++ setting.name] ++
            []) := takeCheck_append_cons hword
      rw [List.append_nil, List.append_assoc] at htake
      have hsettings : settings (before.flatten ++ [dashes ++ setting.name]) =
          .error (.missingValue setting.name) := by
        rw [settings_flatten_append hwritten,
          settings_of_missingValue hdashes htext]
        rfl
      rw [execute, ← List.singleton_append, htake]
      dsimp only
      rw [Options.ofArguments, hsettings]
      rfl

end Word

end BrainfuckFront.CommandLine
