import Mathlib
import BrainfuckFront.Proofs.Failures
import BrainfuckFront.Proofs.Matching

/-!
# What a run shows

A run can fail when the file is read, when its contents are parsed, and at every
single write to one of two outputs.  Whatever happens, its exit code says how
far it came, and what was written before a refused write stays.  A listing that
is cut short names the instruction at which it stopped, which is the number of
lines before it.
-/

namespace BrainfuckFront

namespace Sink

/-- How many of a number of writes are accepted. -/
def accepted (quota : Option ℕ) (writes : ℕ) : ℕ :=
  quota.elim writes (min writes)

/-- What a single write to an empty sink leaves there. -/
def afterWrite (quota : Option ℕ) (piece : String) : String :=
  if quota = some 0 then "" else piece

variable {quota : Option ℕ}

theorem afterWrite_none (piece : String) : afterWrite none piece = piece :=
  if_neg (Option.some_ne_none 0).symm

@[simp]
theorem accepted_some_zero (writes : ℕ) : accepted (some 0) writes = 0 :=
  min_eq_right (Nat.zero_le writes)

theorem accepted_succ (hquota : quota ≠ some 0) (writes : ℕ) :
    accepted quota (writes + 1) = accepted (quota.map (· - 1)) writes + 1 := by
  cases quota with
  | none => rfl
  | some count =>
      have hcount : count ≠ 0 := fun hzero => hquota (congrArg some hzero)
      simp only [accepted, Option.map_some, Option.elim_some]
      omega

theorem write_eq (sink : Sink) (piece : String) :
    sink.write piece =
      if sink.quota = some 0 then .error (.plain sink.refusal)
      else .ok { sink with
        quota := sink.quota.map (· - 1)
        text := sink.text ++ piece } := by
  unfold write
  split
  · rename_i hquota
    rw [if_pos hquota]
  · rename_i left hquota
    rw [if_neg (by simp [hquota]), hquota]
    rfl
  · rename_i hquota
    rw [if_neg (by simp [hquota]), hquota]
    rfl

theorem text_offer_empty (quota : Option ℕ) (refusal piece : String) :
    ((empty quota refusal).offer piece).text = afterWrite quota piece := by
  rw [offer, write_eq, afterWrite, empty]
  by_cases hquota : quota = some 0
  · rw [if_pos hquota, if_pos hquota]
  · rw [if_neg hquota, if_neg hquota]
    exact String.empty_append

end Sink

namespace Program

/-- One line goes out for each accepted write, and the first instruction whose
line does not is reported. -/
theorem writeText_eq (sink : Sink) (program : Program) :
    writeText sink program =
      ({ sink with
          quota := sink.quota.map (· - program.length)
          text := sink.text ++ String.join ((program.take
            (Sink.accepted sink.quota program.length)).map
              Instruction.line) },
        (program[Sink.accepted sink.quota program.length]?).map
          fun instruction => .labelled
            s!"writing instruction {instruction.index}"
            (.plain sink.refusal)) := by
  induction program generalizing sink with
  | nil => simp [writeText]
  | cons instruction program ih =>
      rw [writeText, Sink.write_eq]
      by_cases hquota : sink.quota = some 0
      · obtain ⟨quota, refusal, text⟩ := sink
        subst hquota
        simp
      · have hleft : ((· - program.length) ∘ (· - 1) : ℕ → ℕ) =
            (· - (program.length + 1)) := by
          funext count
          rw [Function.comp_apply, Nat.sub_sub, add_comm]
        rw [if_neg hquota, List.length_cons, Sink.accepted_succ hquota]
        dsimp only
        rw [ih, Option.map_map, hleft, List.take_succ_cons, List.map_cons,
          String.join_cons, List.getElem?_cons_succ, String.append_assoc]

theorem writeJson_eq (sink : Sink) (program : Program) :
    program.writeJson sink =
      if sink.quota = some 0 then (sink, some (.plain sink.refusal))
      else ({ sink with
        quota := sink.quota.map (· - 1)
        text := sink.text ++ program.json }, none) := by
  rw [writeJson, Sink.write_eq]
  by_cases hquota : sink.quota = some 0
  · rw [if_pos hquota, if_pos hquota]
  · rw [if_neg hquota, if_neg hquota]

theorem level_of_mem_trace {source : Bytes} {entry : Log.Entry}
    (hmem : entry ∈ trace source) : entry.level = .debug := by
  rw [trace, List.mem_cons] at hmem
  obtain rfl | hmem := hmem
  · rfl
  · cases hencode : encode (Source.filtered source) with
    | error failure =>
        rw [hencode, encodingTrace, List.mem_singleton] at hmem
        rw [hmem]
        rfl
    | ok instructions =>
        rw [hencode, encodingTrace, List.mem_cons, List.mem_singleton] at hmem
        obtain rfl | rfl := hmem
        · rfl
        · unfold resolutionTrace
          split <;> rfl

/-- The instructions of a parsed program are numbered by their places. -/
theorem toString_index {source : Bytes} {program : Program} {position : ℕ}
    {instruction : Instruction} (hsize : source.length < 2 ^ 63)
    (hparse : parse source = .ok program)
    (hget : program[position]? = some instruction) :
    toString instruction.index = toString position := by
  have hindex : instruction.index.toInt = position :=
    ((parsed_of_parse hsize hparse).isRun hget).index_eq
  calc
    toString instruction.index = toString instruction.index.toInt := rfl
    _ = toString (position : ℤ) := by rw [hindex]
    _ = toString position := rfl

/-- The whole listing of a program in a format. -/
def listing (program : Program) (format : String) : String :=
  if format = "json" then program.json
  else String.join (program.map Instruction.line)

end Program

namespace CommandLine

/-- What can be seen of a run from outside, with the messages that it logged as
errors. -/
structure Report where
  code : ℕ
  stdout : String
  stderr : String
  errors : List String
deriving DecidableEq, Repr

namespace Outcome

def report (outcome : Outcome) : Report :=
  { code := outcome.status.code
    stdout := outcome.stdout.text
    stderr := outcome.stderr.text
    errors := (outcome.log.filter fun entry =>
      entry.level == .error).map Log.Entry.message }

section Report

variable {log : List Log.Entry} (hlog : ∀ entry ∈ log, entry.level = .debug)
variable (stdout : Sink) (quota : Option ℕ) (refusal : String)

include hlog

theorem filter_error_eq_nil :
    (log.filter fun entry => entry.level == .error) = [] := by
  rw [List.filter_eq_nil_iff]
  intro entry hmem
  rw [hlog entry hmem]
  decide

theorem report_start :
    (start stdout (.empty quota refusal) log).report =
      ⟨0, stdout.text, "", []⟩ := by
  rw [report, start, filter_error_eq_nil hlog]
  rfl

theorem report_abort (status : Status) (failure : Failure) :
    ((start stdout (.empty quota refusal) log).abort status failure).report =
      ⟨status.code, stdout.text,
        Sink.afterWrite quota (errorLine failure.message), []⟩ := by
  rw [abort, report, start, Sink.text_offer_empty, filter_error_eq_nil hlog]
  rfl

theorem report_diagnose (file : String) (diagnostic : Diagnostic) :
    ((start stdout (.empty quota refusal) log).diagnose file
        diagnostic).report =
      ⟨1, stdout.text, Sink.afterWrite quota diagnostic.text,
        if quota = some 0 then ["failed to write diagnostic"] else []⟩ := by
  rw [diagnose, Diagnostic.writeTo, Sink.write_eq, start, Sink.empty,
    Sink.afterWrite]
  by_cases hquota : quota = some 0
  · rw [if_pos hquota, if_pos hquota, if_pos hquota]
    dsimp only
    rw [report, addEntry, List.filter_append, filter_error_eq_nil hlog]
    rfl
  · rw [if_neg hquota, if_neg hquota, if_neg hquota]
    dsimp only
    rw [report, filter_error_eq_nil hlog, String.empty_append]
    rfl

theorem report_list_json (outQuota : Option ℕ) (outRefusal : String)
    (program : Program) :
    ((start (.empty outQuota outRefusal) (.empty quota refusal) log).list
        "json" program).report =
      if outQuota = some 0 then
        ⟨2, "", Sink.afterWrite quota (errorLine outRefusal), []⟩
      else ⟨0, program.json, "", []⟩ := by
  rw [list, if_pos rfl, Program.writeJson_eq, start]
  by_cases hquota : outQuota = some 0
  · rw [if_pos hquota, Sink.empty, if_pos hquota]
    exact report_abort hlog (.empty outQuota outRefusal) quota refusal .failure
      (.plain outRefusal)
  · rw [if_neg hquota, Sink.empty, if_neg hquota]
    dsimp only
    rw [String.empty_append]
    exact report_start hlog ⟨outQuota.map (· - 1), outRefusal, program.json⟩
      quota refusal

/-- A listing stops at the first refused line.  The instructions are numbered by
their places, so it says how many lines there are. -/
theorem report_list_text {format : String} (hformat : format ≠ "json")
    (outQuota : Option ℕ) (outRefusal : String) {program : Program}
    (hindex : ∀ (position : ℕ) (instruction : Instruction),
      program[position]? = some instruction →
        toString instruction.index = toString position) :
    ((start (.empty outQuota outRefusal) (.empty quota refusal) log).list
        format program).report =
      let written := Sink.accepted outQuota program.length
      let lines := String.join ((program.take written).map Instruction.line)
      if written < program.length then
        ⟨2, lines, Sink.afterWrite quota (errorLine
          s!"writing instruction {written}: {outRefusal}"), []⟩
      else ⟨0, lines, "", []⟩ := by
  rw [list, if_neg hformat, Program.writeText_eq, start, Sink.empty]
  dsimp only
  rw [String.empty_append]
  by_cases hlt : Sink.accepted outQuota program.length < program.length
  · have hget := List.getElem?_eq_getElem hlt
    rw [if_pos hlt, hget, Option.map_some, hindex _ _ hget]
    exact report_abort hlog _ quota refusal .failure _
  · rw [if_neg hlt, List.getElem?_eq_none (not_lt.mp hlt), Option.map_none]
    exact report_start hlog _ quota refusal

end Report

end Outcome

section Run

variable {options : Options} {check terminal : Bool} {source : Bytes}

/-- Parsing is traced for debugging only. -/
theorem level_of_mem_log {entry : Log.Entry}
    (hmem : entry ∈ (Program.trace source).map
      (·.withField "file" (.text options.file))) : entry.level = .debug := by
  obtain ⟨original, horiginal, rfl⟩ := List.mem_map.mp hmem
  have hlevel := Program.level_of_mem_trace horiginal
  exact hlevel

theorem report_run_of_parse_error (outQuota errQuota : Option ℕ)
    (outRefusal errRefusal : String) {error : ParseError}
    (hparse : Program.parse source = .error (.parse error)) :
    (run options check terminal (.ok source) (.empty outQuota outRefusal)
        (.empty errQuota errRefusal)).report =
      ⟨1, "", Sink.afterWrite errQuota (Diagnostic.ofSource error source
        (useColor options.color terminal)).text,
        if errQuota = some 0 then ["failed to write diagnostic"] else []⟩ := by
  rw [run, hparse]
  apply Outcome.report_diagnose
  exact fun _ => level_of_mem_log

theorem report_run_of_parse_ok (outQuota errQuota : Option ℕ)
    (outRefusal errRefusal : String) {program : Program}
    (hsize : source.length < 2 ^ 63)
    (hparse : Program.parse source = .ok program) :
    (run options check terminal (.ok source) (.empty outQuota outRefusal)
        (.empty errQuota errRefusal)).report =
      if check then ⟨0, "", "", []⟩
      else if options.format = "json" then
        if outQuota = some 0 then
          ⟨2, "", Sink.afterWrite errQuota (errorLine outRefusal), []⟩
        else ⟨0, program.json, "", []⟩
      else
        let written := Sink.accepted outQuota program.length
        let lines := String.join ((program.take written).map Instruction.line)
        if written < program.length then
          ⟨2, lines, Sink.afterWrite errQuota (errorLine
            s!"writing instruction {written}: {outRefusal}"), []⟩
        else ⟨0, lines, "", []⟩ := by
  have hlog : ∀ entry ∈ (Program.trace source).map
      (·.withField "file" (.text options.file)), entry.level = .debug :=
    fun _ => level_of_mem_log
  rw [run, hparse]
  dsimp only
  cases check with
  | true =>
      rw [if_pos rfl, if_pos rfl]
      apply Outcome.report_start
      rw [List.forall_mem_append, List.forall_mem_singleton]
      exact ⟨hlog, rfl⟩
  | false =>
      rw [if_neg Bool.false_ne_true, if_neg Bool.false_ne_true]
      by_cases hformat : options.format = "json"
      · rw [if_pos hformat, hformat]
        exact Outcome.report_list_json hlog errQuota errRefusal outQuota
          outRefusal program
      · rw [if_neg hformat]
        exact Outcome.report_list_text hlog errQuota errRefusal hformat
          outQuota outRefusal fun _ _ => Program.toString_index hsize hparse

theorem report_run_unlimited_of_error (failure : Failure) :
    (run options check terminal (.error failure) .unlimited
        .unlimited).report =
      ⟨2, "", errorLine failure.message, []⟩ := by
  rw [← Sink.afterWrite_none (errorLine failure.message)]
  exact Outcome.report_abort (by simp) .unlimited none "" .failure failure

theorem report_run_unlimited_of_parse_error {error : ParseError}
    (hparse : Program.parse source = .error (.parse error)) :
    (run options check terminal (.ok source) .unlimited .unlimited).report =
      ⟨1, "", (Diagnostic.ofSource error source
        (useColor options.color terminal)).text, []⟩ := by
  rw [Sink.unlimited, report_run_of_parse_error none none "" "" hparse,
    Sink.afterWrite_none, if_neg (Option.some_ne_none 0).symm]

/-- Outputs without a limit take the whole listing. -/
theorem report_run_unlimited_of_parse_ok {program : Program}
    (hsize : source.length < 2 ^ 63)
    (hparse : Program.parse source = .ok program) :
    (run options check terminal (.ok source) .unlimited .unlimited).report =
      ⟨0, if check then "" else program.listing options.format, "", []⟩ := by
  have hall : Sink.accepted none program.length = program.length := rfl
  rw [Sink.unlimited, report_run_of_parse_ok none none "" "" hsize hparse]
  cases check with
  | true => rfl
  | false =>
      rw [if_neg Bool.false_ne_true, if_neg Bool.false_ne_true,
        Program.listing]
      by_cases hformat : options.format = "json"
      · rw [if_pos hformat, if_pos hformat]
        rfl
      · rw [if_neg hformat, if_neg hformat]
        dsimp only
        rw [hall, if_neg (lt_irrefl _), List.take_length]

end Run

end CommandLine

end BrainfuckFront
