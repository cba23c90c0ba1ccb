import LoopLang.Proofs.Flags
import LoopLang.Proofs.RoundTrip
import LoopLang.Proofs.Safety

/-!
# How sessions end

A session on a source that can be read ends well unless something fails: the text is no program,
the tree that was asked for is too deep to be shown, or the run comes to a fault. What failed is
told on the last line, after all that was shown before, and the session ends with status one.
There are two gaps: a file whose bytes are no text, and an input line that passes for a number
and is none, end the session without a word.
-/
namespace LoopLang

theorem Typed.unhindered {category : Category} {node : Node} (typed : Typed category node) :
    ∀ levels, OnlyLevels (node.obstacle? false levels) := by
  induction typed with
  | noTail | number => exact fun _ => .none_
  | program _ ih | «otherwise» _ ih | negation _ ih | parenthesized _ ih | read _ ih | print _ ih =>
    exact .of_succ ih
  | fi | exit | name => exact .of_succ fun _ => .none_
  | last _ ih | single _ ih => exact .of_succ fun levels => (ih levels).orElse .none_
  | next _ others ih ih' =>
    refine .of_succ fun levels => ?_
    have rest := ih' (levels + 1)
    cases others <;> exact (ih levels).orElse rest
  | branch _ _ _ ih ih' ih'' =>
    exact .of_succ fun levels => (ih levels).orElse ((ih' levels).orElse (ih'' levels))
  | loop _ ih | assign _ ih => exact .of_succ fun levels => .orElse .none_ (ih levels)
  | oneName => exact .of_succ fun _ => .orElse .none_ .none_
  | moreNames _ ih => exact .of_succ fun levels => .orElse .none_ (ih (levels + 1))
  | chain _ _ ih ih' => exact .of_succ fun levels => (ih levels).orElse (ih' levels)
  | link _ _ _ ih ih' =>
    exact .of_succ fun levels => .orElse .none_ ((ih levels).orElse (ih' levels))
  | relation _ _ _ ih ih' =>
    exact .of_succ fun levels => (ih levels).orElse (.orElse .none_ (ih' levels))

/-- A fault that the user is told about, or the one of a line that only passes for a number. -/
def Fault.Told (fault : Fault) : Prop :=
  fault = .unreadableNumber ∨ ∃ message, CommandLine.complaint? fault = some message

theorem Fault.told_of_report {fault : Fault} {report : Report}
    (reported : fault.report? = some report) : fault.Told := by
  refine .inr ⟨report.message, ?_⟩
  cases fault <;> first
    | cases reported; done
    | rw [CommandLine.complaint?, reported, Option.map_some]
      nofun

theorem Fault.told_ofToken (expected : Option String) (found : Token) :
    (Fault.ofToken expected found).Told := by
  unfold Fault.ofToken
  split
  · exact told_of_report rfl
  · split
    · exact told_of_report rfl
    · cases expected <;> exact told_of_report rfl

namespace Reading

variable {limits : Limits} {tracing : Bool} {source : Source} {program : Node} {fault : Fault}
  {reader : Reader}

theorem told_of_refused
    (refused : Reading.program limits (.ofSource tracing source) = .error fault reader) :
    fault.Told := by
  have outcome := outcome limits tracing source
  rw [refused] at outcome
  cases outcome with
  | tooDeep => exact Fault.told_of_report rfl
  | @refused own token rest expected => exact Fault.told_ofToken expected token

theorem told_of_outline {levels : Nat}
    (parsed : Reading.program limits (.ofSource tracing source) = .ok program reader)
    (outlined : program.outline levels = .error fault) : fault.Told := by
  rw [Node.outline] at outlined
  split at outlined
  · rename_i obstacle found
    cases outlined
    rw [(typed_of_ok parsed).unhindered _ fault found]
    exact .inr ⟨_, rfl⟩
  · cases outlined

theorem told_of_run {steps : Nat} {unread : List Char} {last : World}
    (parsed : Reading.program limits (.ofSource tracing source) = .ok program reader)
    (failed : Machine.run steps program (.fresh .initial unread) = .error (.fault fault) last) :
    fault.Told := by
  have ready : (World.fresh .initial unread).Ready := ⟨rfl, nofun⟩
  rcases Machine.reported_of_ready (typed_of_ok parsed) ready failed with unreadable | reported
  · exact .inl unreadable
  · cases report : fault.report? with
    | some report => exact Fault.told_of_report report
    | none =>
      rw [report] at reported
      simp at reported

end Reading

open CommandLine in
theorem Fault.Told.ends {fault : Fault} (told : fault.Told) (input? : Option (List Char)) :
    fault = .unreadableNumber ∧ Course.ofFault input? fault = ⟨.failure fault, ""⟩ ∨
    input? = none ∧ isEndOfInput fault ∧ Course.ofFault input? fault = ⟨.undecodable, ""⟩ ∨
    ∃ message, complaint? fault = some message ∧
      Course.ofFault input? fault = ⟨.exit 1, linesText [message]⟩ := by
  cases hidden : input?.isNone && isEndOfInput fault with
  | true =>
    have fits : input? = none ∧ isEndOfInput fault := by simpa using hidden
    refine .inr (.inl ⟨fits.1, fits.2, ?_⟩)
    rw [Course.ofFault, hidden, if_pos rfl]
  | false =>
    rw [Course.ofFault, hidden, if_neg Bool.false_ne_true]
    rcases told with rfl | ⟨message, isTold⟩
    · exact .inl ⟨rfl, rfl⟩
    · rw [isTold]
      exact .inr (.inr ⟨message, rfl, rfl⟩)

namespace CommandLine

open Machine

/-- What can fail in a session on a source: its text is refused, its tree cannot be shown, or
its run comes to a fault. The text is what was shown by then, after the tokens. An input that is
no text is empty as far as it can be read. -/
inductive Fails (limits : Limits) (steps : Nat) (tree debug : Bool) (source : Source)
    (input? : Option (List Char)) : String → Fault → Prop where
  | refused {fault reader}
      (refused : Reading.program limits (.ofSource debug source) = .error fault reader) :
      Fails limits steps tree debug source input? "" fault
  | tree {program reader fault}
      (parsed : Reading.program limits (.ofSource debug source) = .ok program reader)
      (asked : tree = true) (outlined : program.outline limits.writing = .error fault) :
      Fails limits steps tree debug source input? "" fault
  | run {program reader opening fault last}
      (parsed : Reading.program limits (.ofSource debug source) = .ok program reader)
      (opens : Opens limits.writing tree program opening)
      (failed : run steps program (.fresh .initial (input?.getD [])) =
        .error (.fault fault) last) :
      Fails limits steps tree debug source input?
        (opening ++ (linesText [horizontalRule] ++ last.console.transcript)) fault

variable {limits : Limits} {steps : Nat} {tree debug : Bool} {source : Source}
  {input? : Option (List Char)} {shown : String} {fault : Fault}

theorem Fails.told (fails : Fails limits steps tree debug source input? shown fault) :
    fault.Told := by
  cases fails with
  | refused refused => exact Reading.told_of_refused refused
  | tree parsed _ outlined => exact Reading.told_of_outline parsed outlined
  | run parsed _ failed => exact Reading.told_of_run parsed failed

/-- Where something fails, a session gives up over it, after all that was shown by then. -/
theorem Fails.course {options : Options}
    (fails : Fails limits steps options.tree options.debug source input? shown fault) :
    Course.ofSource limits steps options source input? = (Course.ofFault input? fault).after
      ((if options.tokens then tokensText options.json source else "") ++ shown) := by
  obtain ⟨file, tokens, tree, json, debug, caseSensitive⟩ := options
  cases fails with
  | refused refused => rw [Course.ofSource_refused refused, String.append_empty]
  | tree parsed asked outlined =>
    dsimp only at asked
    rw [Course.ofSource_parsed parsed, asked, Course.ofTree_tooDeep outlined, String.append_empty]
  | run parsed opens failed =>
    rw [Course.ofSource_parsed parsed, Course.ofTree_opens opens, Course.ofProgram, failed]
    simp only [Course.ofRun, Course.after_after]

/-- A session on a source is stopped for its steps, or something fails, or it ends well. -/
theorem ended_or_failed (limits : Limits) (steps : Nat) (options : Options) (source : Source)
    (input? : Option (List Char)) :
    (Course.ofSource limits steps options source input?).ending = .outOfSteps ∨
    (∃ shown fault,
      Fails limits steps options.tree options.debug source input? shown fault) ∨
    (Course.ofSource limits steps options source input?).ending = .exit 0 := by
  obtain ⟨file, tokens, tree, json, debug, caseSensitive⟩ := options
  cases result : Reading.program limits (.ofSource debug source) with
  | error fault reader => exact .inr (.inl ⟨"", fault, .refused result⟩)
  | ok program reader =>
    rcases Course.opens_or_not limits.writing tree program with
      ⟨opening, opens⟩ | ⟨fault, asked, outlined⟩
    · rw [Course.ofSource_parsed result, Course.ofTree_opens opens, Course.ofProgram]
      cases ran : run steps program (.fresh .initial (input?.getD [])) with
      | ok value last => exact .inr (.inr rfl)
      | error halt last =>
        cases halt with
        | outOfSteps => exact .inl rfl
        | fault fault => exact .inr (.inl ⟨_, fault, .run result opens ran⟩)
    · exact .inr (.inl ⟨"", fault, .tree result asked outlined⟩)

/-- A source that is found but is no text. -/
inductive Undecodable (read : String → Except Unreadable ByteArray) (input : ByteArray) :
    String → Prop where
  | input (fails : Text.decodeFile? input = none) : Undecodable read input "-"
  | file {file bytes} (named : file ≠ "-") (opens : read file = .ok bytes)
      (fails : Text.decodeFile? bytes = none) : Undecodable read input file

section Sources

variable {options : Options} {read : String → Except Unreadable ByteArray} {input : ByteArray}

theorem course_of_undecodable (undecodable : Undecodable read input options.file)
    (limits : Limits) (steps : Nat) :
    (perform limits steps options read input).course = ⟨.undecodable, ""⟩ := by
  generalize named : options.file = file at undecodable
  cases undecodable with
  | input fails => simp only [perform, named, if_true, fails]; rfl
  | file differs opens fails => simp only [perform, named, if_neg differs, opens, fails]; rfl

theorem course_of_unopened {problem : Unreadable} {message : String}
    (named : options.file ≠ "-") (fails : read options.file = .error problem)
    (told : problem.message? = some message) (limits : Limits) (steps : Nat) :
    (perform limits steps options read input).course =
      ⟨.exit 1, linesText ["Could not read " ++ options.file ++ ": " ++ message]⟩ := by
  simp only [perform, if_neg named, fails, told]
  exact congrArg (Course.mk _) String.empty_append

end Sources

/-- What fails is told on the last line, and ends a session with status one. So does a file that
cannot be opened. A session on a source that is a text, if it is not stopped for its steps, ends
with status zero exactly if nothing fails in it: the text is a program, its tree can be shown if
that was asked for, and its run comes to no fault. Else it has shown all that it showed before,
and then a line for the fault. But there are failures that are not told, and end a session in
another way: an input line that passes for a number and is none, after all that was shown before,
and a file, or an input that is asked for a line, that is no text. -/
theorem failures_told (limits : Limits) (steps : Nat) (options : Options)
    (read : String → Except Unreadable ByteArray) (input : ByteArray) :
    let told := perform limits steps options read input
    (∀ problem message, options.file ≠ "-" → read options.file = .error problem →
      problem.message? = some message → told.ending = .exit 1 ∧
        told.output = linesText ["Could not read " ++ options.file ++ ": " ++ message]) ∧
    (Undecodable read input options.file → told.ending = .undecodable ∧ told.output = "") ∧
    ∀ text input?, Loaded read input options.file text input? → told.ending ≠ .outOfSteps →
      let source := Source.ofText (!options.caseSensitive) (.ofList text)
      let listing := if options.tokens then tokensText options.json source else ""
      (told.ending = .exit 0 ↔ ∀ shown fault,
        ¬ Fails limits steps options.tree options.debug source input? shown fault) ∧
      ∀ shown fault, Fails limits steps options.tree options.debug source input? shown fault →
        fault = .unreadableNumber ∧ told.ending = .failure fault ∧
          told.output = listing ++ shown ∨
        input? = none ∧ isEndOfInput fault ∧ told.ending = .undecodable ∧
          told.output = listing ++ shown ∨
        ∃ message, complaint? fault = some message ∧ told.ending = .exit 1 ∧
          told.output = listing ++ shown ++ linesText [message] := by
  intro told
  have ending : told.ending = told.course.ending := rfl
  have output : told.output = told.course.shown := rfl
  refine ⟨?_, fun undecodable => ?_, ?_⟩
  · intro problem message named fails isTold
    rw [ending, output, course_of_unopened named fails isTold]
    exact ⟨rfl, rfl⟩
  · rw [ending, output, course_of_undecodable undecodable]
    exact ⟨rfl, rfl⟩
  · intro text input? loaded goesOn source listing
    have course : told.course = Course.ofSource limits steps options source input? :=
      course_perform loaded limits steps
    rw [ending, course] at goesOn
    rw [ending, output, course]
    refine ⟨⟨?_, ?_⟩, ?_⟩
    · intro well shown fault fails
      rw [fails.course] at well
      exact Course.ofFault_ending_ne input? fault well
    · intro free
      rcases ended_or_failed limits steps options source input? with
        stopped | ⟨shown, fault, fails⟩ | well
      · exact absurd stopped goesOn
      · exact absurd fails (free shown fault)
      · exact well
    · intro shown fault fails
      rw [fails.course]
      rcases fails.told.ends input? with
        ⟨rfl, ends⟩ | ⟨absent, atEnd, ends⟩ | ⟨message, isTold, ends⟩
      · rw [ends]
        exact .inl ⟨rfl, rfl, String.append_empty⟩
      · rw [ends]
        exact .inr (.inl ⟨absent, atEnd, rfl, String.append_empty⟩)
      · rw [ends]
        exact .inr (.inr ⟨message, isTold, rfl, rfl⟩)

/-- Two sessions that end with no status and without a word: one on a file of one byte that is no
text, and one whose program is given a digit between separators, which are blanks around a line
but not around a number. -/
theorem failures_untold :
    (∀ status, (perform .standard 0 { file := "p" } (fun _ => .ok ⟨#[0xff]⟩) "".toUTF8).ending ≠
      .exit status) ∧
    ∀ status, (perform .standard 0 { file := "p" } (fun _ => .ok "READ X.".toUTF8)
      "\x1c8\x1f\n".toUTF8).ending ≠ .exit status := by
  constructor
  · have undecodable : Undecodable (fun _ => .ok ⟨#[0xff]⟩) "".toUTF8 "p" :=
      .file (by decide) rfl (by decide +kernel)
    have ends : (perform .standard 0 { file := "p" } (fun _ => .ok ⟨#[0xff]⟩) "".toUTF8).ending =
        _ :=
      congrArg Course.ending
        (@course_of_undecodable { file := "p" } _ _ undecodable .standard 0)
    rw [ends]
    nofun
  · have input : Text.decodeFile? "\x1c8\x1f\n".toUTF8 = some "\x1c8\x1f\n".toList :=
      Text.decodeFile?_toUTF8 _
    have loaded : Loaded (fun _ => .ok "READ X.".toUTF8) "\x1c8\x1f\n".toUTF8 "p"
        "READ X.".toList (some "\x1c8\x1f\n".toList) := by
      rw [← input]
      exact .file (by decide) rfl (Text.decodeFile?_toUTF8 _)
    have ends : (perform .standard 0 { file := "p" } (fun _ => .ok "READ X.".toUTF8)
        "\x1c8\x1f\n".toUTF8).ending = _ :=
      congrArg Course.ending (@course_perform { file := "p" } _ _ _ _ loaded .standard 0)
    have unreadable : (Course.ofSource .standard 0 { file := "p" }
        (.ofText true (.ofList "READ X.".toList)) (some "\x1c8\x1f\n".toList)).ending =
        .failure .unreadableNumber := by decide +kernel
    rw [ends.trans unreadable]
    nofun

end CommandLine

end LoopLang
