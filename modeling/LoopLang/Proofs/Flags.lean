import LoopLang.Proofs.Courses
import LoopLang.Proofs.Newlines

/-!
# Flags that only show

Three of the flags are there to show more: the tokens before all else, the tree before the
first rule, and the final state as data. They show what they are for and change nothing else,
neither how a session ends nor what its program reads and shows, also where the text is no
program, or its run fails or is stopped.
-/
namespace LoopLang.CommandLine

open Machine

namespace Course

variable {limits : Limits} {steps : Nat} {file : String}
  {tokens tree json debug caseSensitive : Bool} {source : Source} {input? : Option (List Char)}
  {program : Node} {reader : Reader}

theorem ofSource_tokens :
    ofSource limits steps ⟨file, true, tree, json, debug, caseSensitive⟩ source input? =
      (ofSource limits steps ⟨file, false, tree, json, debug, caseSensitive⟩ source input?).after
        (tokensText json source) := by
  simp [ofSource]

theorem ofSource_refused {fault : Fault}
    (refused : Reading.program limits (.ofSource debug source) = .error fault reader) :
    ofSource limits steps ⟨file, tokens, tree, json, debug, caseSensitive⟩ source input? =
      (ofFault input? fault).after (if tokens then tokensText json source else "") := by
  rw [ofSource, refused]

theorem ofSource_parsed
    (parsed : Reading.program limits (.ofSource debug source) = .ok program reader) :
    ofSource limits steps ⟨file, tokens, tree, json, debug, caseSensitive⟩ source input? =
      (ofTree limits.writing tree input? program
        (ofProgram steps json input? program)).after
          (if tokens then tokensText json source else "") := by
  rw [ofSource, parsed]

theorem ofFault_ending_ne (input? : Option (List Char)) (fault : Fault) :
    (ofFault input? fault).ending ≠ .exit 0 := by
  unfold ofFault
  split
  · simp
  · split <;> simp

theorem ofProgram_json (steps : Nat) (input? : Option (List Char)) (program : Node) :
    (∃ last, run steps program (.fresh .initial (input?.getD [])) = .ok () last ∧
      ∀ json, ofProgram steps json input? program = ⟨.exit 0, linesText [horizontalRule] ++
        last.console.transcript ++ linesText [horizontalRule] ++ stateText json last.state⟩) ∨
    ∃ course, course.ending ≠ .exit 0 ∧ ∀ json, ofProgram steps json input? program = course := by
  unfold ofProgram
  cases run steps program (.fresh .initial (input?.getD [])) with
  | ok value last =>
    refine .inl ⟨last, rfl, fun json => ?_⟩
    simp only [ofRun, after, String.append_assoc]
  | error halt last =>
    cases halt with
    | fault fault =>
      exact .inr ⟨((ofFault input? fault).after last.console.transcript).after
        (linesText [horizontalRule]), ofFault_ending_ne input? fault, fun json => rfl⟩
    | outOfSteps =>
      exact .inr ⟨after (linesText [horizontalRule]) ⟨.outOfSteps, last.console.transcript⟩,
        by simp [after], fun json => rfl⟩

end Course

/-- What is shown before the first rule of the tree of a program. -/
def Opens (levels : Nat) (tree : Bool) (program : Node) (opening : String) : Prop :=
  match tree with
  | true => ∃ data, program.outline levels = .ok data ∧ opening = linesText [data.indentedJson]
  | false => opening = ""

namespace Course

variable {levels : Nat} {tree : Bool} {program : Node} {input? : Option (List Char)}

theorem opens_or_not (levels : Nat) (tree : Bool) (program : Node) :
    (∃ opening, Opens levels tree program opening) ∨
      ∃ fault, tree = true ∧ program.outline levels = .error fault := by
  cases tree with
  | false => exact .inl ⟨"", rfl⟩
  | true =>
    cases outlined : program.outline levels with
    | ok data => exact .inl ⟨_, data, outlined, rfl⟩
    | error fault => exact .inr ⟨fault, rfl, rfl⟩

theorem ofTree_opens {opening : String} (opens : Opens levels tree program opening)
    (rest : Course) : ofTree levels tree input? program rest = rest.after opening := by
  cases tree with
  | false =>
    cases opens
    simp [ofTree, after]
  | true =>
    obtain ⟨data, outlined, rfl⟩ := opens
    rw [ofTree, outlined, if_pos rfl]

theorem ofTree_tooDeep {fault : Fault} (outlined : program.outline levels = .error fault)
    (rest : Course) : ofTree levels true input? program rest = ofFault input? fault := by
  rw [ofTree, outlined, if_pos rfl]

/-- Without the tokens, a session ends well with the final state, shown in one way or the other
after all else, or it ends otherwise and the same in both ways. -/
theorem ofSource_json (limits : Limits) (steps : Nat) (file : String)
    (tree debug caseSensitive : Bool) (source : Source) (input? : Option (List Char)) :
    (∃ program reader opening last,
      Reading.program limits (.ofSource debug source) = .ok program reader ∧
      Opens limits.writing tree program opening ∧
      run steps program (.fresh .initial (input?.getD [])) = .ok () last ∧
      ∀ json, ofSource limits steps ⟨file, false, tree, json, debug, caseSensitive⟩ source input? =
        ⟨.exit 0, opening ++ (linesText [horizontalRule] ++ last.console.transcript ++
          linesText [horizontalRule] ++ stateText json last.state)⟩) ∨
    ∃ course, course.ending ≠ .exit 0 ∧ ∀ json,
      ofSource limits steps ⟨file, false, tree, json, debug, caseSensitive⟩ source input? =
        course := by
  cases result : Reading.program limits (.ofSource debug source) with
  | error fault reader =>
    exact .inr ⟨(ofFault input? fault).after "", ofFault_ending_ne input? fault,
      fun _ => ofSource_refused result⟩
  | ok program reader =>
    simp only [ofSource_parsed result]
    rcases opens_or_not limits.writing tree program with
      ⟨opening, opens⟩ | ⟨fault, rfl, outlined⟩
    · rcases ofProgram_json steps input? program with ⟨last, ran, ends⟩ | ⟨course, fails, ends⟩
      · refine .inl ⟨program, reader, opening, last, rfl, opens, ran, fun json => ?_⟩
        simp [ofTree_opens opens, ends, after]
      · refine .inr ⟨(course.after opening).after "", fails, fun json => ?_⟩
        rw [ofTree_opens opens, ends]
        rfl
    · refine .inr ⟨(ofFault input? fault).after "", ofFault_ending_ne input? fault, fun json => ?_⟩
      rw [ofTree_tooDeep outlined]
      rfl

end Course

/-- Flags only show more. Whatever is asked of a session besides, and however often its loops may
run, listing the tokens leaves how it ends as it is, and puts the listing before what is shown
otherwise. Asking for the tree changes nothing where the text is no program, and otherwise, unless
something stands in the way of the tree, puts it before the first rule. Without the tokens, asking
for the final state as data changes nothing unless the session ends well, and then it changes
only what follows the second rule. -/
theorem flags_only_show {read : String → Except Unreadable ByteArray} {input : ByteArray}
    {file : String} {text : List Char} {input? : Option (List Char)}
    (loaded : Loaded read input file text input?) (limits : Limits) (steps : Nat)
    (debug caseSensitive : Bool) :
    let source := Source.ofText (!caseSensitive) (.ofList text)
    let told (tokens tree json : Bool) : Outcome :=
      perform limits steps ⟨file, tokens, tree, json, debug, caseSensitive⟩ read input
    let rule := linesText [horizontalRule]
    (∀ tree json,
      (told true tree json).ending = (told false tree json).ending ∧
      (told true tree json).output = tokensText json source ++ (told false tree json).output) ∧
    (∀ tokens json,
      match Reading.program limits (.ofSource debug source) with
      | .error _ _ =>
        (told tokens true json).ending = (told tokens false json).ending ∧
        (told tokens true json).output = (told tokens false json).output
      | .ok program _ => ∀ data, program.outline limits.writing = .ok data →
        (told tokens true json).ending = (told tokens false json).ending ∧
        ∃ later,
          (told tokens false json).output =
            (if tokens then tokensText json source else "") ++ (rule ++ later) ∧
          (told tokens true json).output = (if tokens then tokensText json source else "") ++
            (linesText [data.indentedJson] ++ (rule ++ later))) ∧
    ∀ tree,
      (told false tree true).ending = (told false tree false).ending ∧
      ((told false tree true).ending ≠ .exit 0 →
        (told false tree true).output = (told false tree false).output) ∧
      ((told false tree true).ending = .exit 0 → ∃ program reader opening last,
        Reading.program limits (.ofSource debug source) = .ok program reader ∧
        Opens limits.writing tree program opening ∧
        run steps program (.fresh .initial (input?.getD [])) = .ok () last ∧
        ∀ json, (told false tree json).output = opening ++
          (rule ++ last.console.transcript ++ rule ++ stateText json last.state)) := by
  intro source told rule
  have course (tokens tree json : Bool) : (told tokens tree json).course = Course.ofSource limits
      steps ⟨file, tokens, tree, json, debug, caseSensitive⟩ source input? :=
    @course_perform ⟨file, tokens, tree, json, debug, caseSensitive⟩ _ _ _ _ loaded limits steps
  have ending (tokens tree json : Bool) : (told tokens tree json).ending =
      (told tokens tree json).course.ending := rfl
  have output (tokens tree json : Bool) : (told tokens tree json).output =
      (told tokens tree json).course.shown := rfl
  simp only [ending, output, course]
  refine ⟨fun tree json => ?_, fun tokens json => ?_, fun tree => ?_⟩
  · rw [Course.ofSource_tokens]
    exact ⟨rfl, rfl⟩
  · cases result : Reading.program limits (.ofSource debug source) with
    | error fault reader =>
      simp only [Course.ofSource_refused result, and_self]
    | ok program reader =>
      intro data outlined
      have opens : Opens limits.writing true program (linesText [data.indentedJson]) :=
        ⟨data, outlined, rfl⟩
      rw [Course.ofSource_parsed result, Course.ofSource_parsed result, Course.ofTree_opens opens]
      exact ⟨rfl, _, rfl, rfl⟩
  · rcases Course.ofSource_json limits steps file tree debug caseSensitive source input? with
      ⟨program, reader, opening, last, parsed, opens, ran, ends⟩ | ⟨course, fails, ends⟩
    · simp only [ends]
      exact ⟨trivial, fun fails => absurd rfl fails, fun _ =>
        ⟨program, reader, opening, last, parsed, opens, ran, fun _ => rfl⟩⟩
    · simp only [ends]
      exact ⟨trivial, fun _ => trivial, fun ends => absurd ends fails⟩

/-- A program that finds nothing to read. Its first token is listed, the blank after it is not. -/
theorem read_only_shown :
    let read : String → Except Unreadable ByteArray := fun _ => .ok "read a.".toUTF8
    let told (tokens json : Bool) : Outcome :=
      perform .standard 0 ⟨"p", tokens, false, json, false, false⟩ read "".toUTF8
    Loaded read "".toUTF8 "p" "read a.".toList (some []) ∧
    (told true false).output =
      "READ\t: 7\nA\t: 28\n.\t: 11\n" ++
        "next: [Empty String, done, or nothing left to process]\t: -400\n" ++
        (told false false).output ∧
    (told false true).ending = (told false false).ending := by
  intro read told
  have input : Text.decodeFile? "".toUTF8 = some [] := Text.decodeFile?_toUTF8 _
  have loaded : Loaded read "".toUTF8 "p" "read a.".toList (some []) := by
    rw [← input]
    exact .file (by decide) rfl (Text.decodeFile?_toUTF8 _)
  have shows := flags_only_show loaded .standard 0 false false
  have listing : tokensText false (.ofText true (.ofList "read a.".toList)) =
      "READ\t: 7\nA\t: 28\n.\t: 11\n" ++
        "next: [Empty String, done, or nothing left to process]\t: -400\n" := by decide +kernel
  have listed := (shows.1 false false).2
  rw [Bool.not_false, listing] at listed
  exact ⟨loaded, listed, (shows.2.2 false).1⟩

end LoopLang.CommandLine
