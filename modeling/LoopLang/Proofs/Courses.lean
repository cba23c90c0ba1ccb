import LoopLang.CommandLine.Session
import LoopLang.Proofs.Keeping
import LoopLang.Proofs.Mirroring
import LoopLang.Proofs.Tracking

/-!
# The courses of sessions

A session shows one text: the tokens, the tree, what the program shows between two rules, and
then the final state, or what went wrong. Nothing in it depends on what was shown or recorded
before. The tokens are listed with the very cursor that the program is read from, but that is
moved back to the first one. So the course of a session, that is how it ends and what it has
shown by then, is put together from the courses of its parts, each as if it stood alone.
-/
namespace LoopLang

namespace Cursor

/-- The tokens that are listed line by line: the first one, then each that is not whitespace. -/
def listed (cursor : Cursor) : List Token :=
  match cursor.ahead with
  | [] => []
  | first :: rest => first :: rest.filter (!·.isWhitespace)

theorem listed_skipWhitespace (cursor : Cursor) :
    cursor.skipWhitespace.listed = cursor.ahead.filter (!·.isWhitespace) := by
  rw [← words_dropWhile]
  have head := List.head?_dropWhile_not (·.isWhitespace) cursor.ahead
  rw [listed, ahead_skipWhitespace]
  cases left : cursor.ahead.dropWhile (·.isWhitespace) with
  | nil => rfl
  | cons token rest =>
    have isReal : token.isWhitespace = false := by simpa [left] using head
    simp [isReal]

theorem listed_of_valid {cursor : Cursor} (valid : cursor.peek.isValid = true) :
    cursor.listed = cursor.peek :: cursor.advanceReal.listed := by
  rw [advanceReal, listed_skipWhitespace, ahead_advance, listed, ahead_of_valid valid]
  rfl

theorem length_advanceReal_le (cursor : Cursor) :
    cursor.advanceReal.ahead.length ≤ cursor.ahead.length - 1 := by
  have dropped := List.length_dropWhile_le (·.isWhitespace) cursor.advance.ahead
  rw [ahead_advance, List.length_drop] at dropped
  rwa [advanceReal, ahead_skipWhitespace, ahead_advance]

end Cursor

namespace Reading

open CommandLine

theorem tokenLines_eq {count : Nat} {reader : Reader}
    (enough : reader.cursor.ahead.length ≤ count) :
    ∃ last, tokenLines count reader = .ok (reader.cursor.listed.map (·.listing)) last ∧
      last.cursor.source = reader.cursor.source ∧ last.cursor.peek = reader.cursor.stop := by
  have ends {reader : Reader} (done : reader.cursor.ahead = []) :
      reader.cursor.listed = [] ∧ reader.cursor.peek = reader.cursor.stop := by
    rw [Cursor.listed, Cursor.peek_eq, done]
    exact ⟨rfl, rfl⟩
  induction count generalizing reader with
  | zero =>
    obtain ⟨none_, stops⟩ := ends (List.eq_nil_of_length_eq_zero (Nat.le_zero.mp enough))
    exact ⟨reader, by rw [none_]; rfl, rfl, stops⟩
  | succ count ih =>
    rw [tokenLines, get_bind]
    cases valid : reader.cursor.peek.isValid with
    | false =>
      obtain ⟨none_, stops⟩ := ends (Cursor.ahead_eq_nil_iff.mpr valid)
      refine ⟨reader, ?_, rfl, stops⟩
      rw [none_, Cursor.isDone_of_invalid valid]
      rfl
    | true =>
      have passes : pass reader = .ok reader.cursor.advanceReal.lastReal? (passing reader) := rfl
      have shorter : (passing reader).cursor.ahead.length ≤ count := by
        rw [cursor_passing]
        exact reader.cursor.length_advanceReal_le.trans (Nat.sub_le_of_le_add enough)
      obtain ⟨last, lists, source, stops⟩ := ih shorter
      rw [cursor_passing] at lists source stops
      refine ⟨last, ?_, source.trans reader.cursor.source_advanceReal,
        stops.trans reader.cursor.stop_advanceReal⟩
      rw [Cursor.isDone_of_valid valid, if_neg Bool.false_ne_true, peek_bind, bind_ok passes,
        bind_ok lists, Cursor.listed_of_valid valid]
      rfl

end Reading

/-- A reader is compared with one that has recorded something else. -/
def Mirror.relogging : Mirror where
  move := id
  move' := id
  alike reader image :=
    reader.cursor.Ready ∧ image.cursor = reader.cursor ∧ image.tracing = reader.tracing
  fallen reader image := image.cursor = reader.cursor ∧ image.tracing = reader.tracing
  uneven := False

theorem Mirror.faithful_relogging : relogging.Faithful where
  ready := by
    rintro reader image ⟨ready, cursor, -⟩
    exact ⟨ready, by rwa [cursor]⟩
  peek := by
    rintro reader image ⟨-, cursor, -⟩
    rw [tokens, cursor]
    rfl
  last := by
    rintro reader image token ⟨-, cursor, -⟩ last
    exact ⟨token, by rw [cursor, last], rfl⟩
  noted := by
    rintro reader image channel message message' ⟨ready, cursor, tracing⟩
    refine ⟨by rwa [Reading.cursor_note], ?_, ?_⟩
    · rw [Reading.cursor_note, Reading.cursor_note, cursor]
    · rw [Reading.tracing_note, Reading.tracing_note, tracing]
  passed := by
    rintro reader image ⟨ready, cursor, tracing⟩ valid
    exact ⟨(ready.passed_advanceReal valid).ready,
      congrArg Cursor.advanceReal cursor, tracing⟩
  fell := by
    rintro reader image ⟨-, cursor, tracing⟩ -
    refine .inr ⟨?_, tracing⟩
    rw [Reader.giveUp, Reader.giveUp, cursor, tracing]

namespace Reading

/-- The same but for what was recorded. -/
inductive Relogged :
    EStateM.Result Fault Reader Node → EStateM.Result Fault Reader Node → Prop where
  | ok {node reader log} : Relogged (.ok node reader) (.ok node { reader with log })
  | error {fault reader log} : Relogged (.error fault reader) (.error fault { reader with log })

theorem program_relogged (limits : Limits) (reader : Reader) (log : List Record) :
    Relogged (program limits reader) (program limits { reader with log }) := by
  have allows : Mirror.relogging.Allows (limits.depth reader.tracing)
      (limits.depth reader.tracing) := ⟨Nat.le_refl _, .inr rfl⟩
  have start : Mirror.relogging.alike { reader with cursor := reader.cursor.skipWhitespace }
      { reader with cursor := reader.cursor.skipWhitespace, log } :=
    ⟨Cursor.ready_skipWhitespace _, rfl, rfl⟩
  have compared := @compared_programWithin _ Mirror.faithful_relogging _ _ allows reader
    { reader with log } start
  rw [program_within, program_within]
  generalize programWithin _ reader = result at compared
  change Compared _ result (programWithin (limits.depth reader.tracing) _) at compared
  generalize programWithin (limits.depth reader.tracing) _ = result' at compared
  have image {reader image : Reader} (cursor : image.cursor = reader.cursor)
      (tracing : image.tracing = reader.tracing) : image = { reader with log := image.log } := by
    rw [← cursor, ← tracing]
  cases compared with
  | read trees holds =>
    change Node.moved id _ = Node.moved id _ at trees
    rw [Node.moved_id, Node.moved_id] at trees
    rw [trees, image holds.2.1 holds.2.2]
    exact .ok
  | refused faults holds =>
    change Fault.moved id _ = Fault.moved id _ at faults
    rw [Fault.moved_id, Fault.moved_id] at faults
    rw [faults, image holds.2.1 holds.2.2]
    exact .error
  | fell holds =>
    rw [image holds.1 holds.2]
    exact .error
  | deeper uneven => exact uneven.elim

end Reading

namespace Console

/-- Streams with the same input, of which the second show a text and then what the first show. -/
inductive After (text : String) : Console → Console → Prop where
  | intro (unread : List Char) (written : List String) {earlier : List String}
      (shown : String.join earlier.reverse = text) :
      After text (.streams unread written) (.streams unread (written ++ earlier))

variable {text : String} {console console' : Console}

theorem After.transcript (after : After text console console') :
    console'.transcript = text ++ console.transcript := by
  obtain ⟨unread, written, rfl⟩ := after
  simp [Console.transcript]

theorem After.readLine (after : After text console console') (prompt : String) :
    Matched (fun came came' => came'.1 = came.1 ∧ After text came.2 came'.2)
      (console.readLine prompt) (console'.readLine prompt) := by
  obtain ⟨unread, written, shown⟩ := after
  rw [Console.readLine, Console.readLine]
  split
  · exact .ok ⟨rfl, .intro unread (prompt :: written) shown⟩
  · exact .ok ⟨rfl, .intro _ (prompt :: written) shown⟩

theorem After.writeLine (after : After text console console') (line : String) :
    Matched (After text) (console.writeLine line) (console'.writeLine line) := by
  obtain ⟨unread, written, shown⟩ := after
  exact .ok (.intro unread ((line ++ "\n") :: written) shown)

theorem After.renewed (after : After text console console') :
    ∃ unread, After (text ++ console.transcript) (.ofInput unread) console' := by
  rw [← after.transcript]
  obtain ⟨unread, written, shown⟩ := after
  exact ⟨unread, .intro unread [] rfl⟩

end Console

/-- Worlds with the usual prompt that are the same but for what they have recorded and for a
text that the second shows before all else. -/
structure World.After (text : String) (world world' : World) : Prop where
  state : world'.state = world.state
  prompt : world.settings.prompt = ({} : Settings).prompt
  prompt' : world'.settings.prompt = ({} : Settings).prompt
  console : Console.After text world.console world'.console

theorem unnoticed_after (text : String) : Unnoticed (World.After text) where
  prompt after := by rw [after.prompt, after.prompt']
  signal after := by rw [after.state]
  noted message after := by
    unfold World.note
    split <;> split <;> exact { after with }
  warned message after := { after with }
  requested target after := { after with state := by simp only [after.state] }
  finished after := { after with state := by simp only [after.state] }
  read prompt after :=
    (after.console.readLine prompt).imp fun _ _ fits =>
      ⟨fits.1, { after with console := fits.2 }⟩
  written line after :=
    (after.console.writeLine line).imp fun _ _ console => { after with console }

def World.fresh (state : State) (unread : List Char) : World :=
  ⟨state, .ofInput unread, {}, []⟩

namespace World.After

variable {text : String} {state : State} {unread : List Char} {world last last' : World}

theorem shown (after : World.After text (.fresh state unread) world) :
    ∃ written, world.console = .streams unread written ∧ String.join written.reverse = text := by
  have console : Console.After text (.streams unread []) world.console := after.console
  generalize world.console = console' at console ⊢
  obtain ⟨_, _, shown⟩ := console
  exact ⟨_, rfl, shown⟩

theorem renewed (after : World.After text last last') :
    ∃ unread, World.After (text ++ last.console.transcript) (.fresh last.state unread) last' := by
  obtain ⟨unread, console⟩ := after.console.renewed
  exact ⟨unread, after.state, rfl, after.prompt', console⟩

end World.After

namespace CommandLine

def linesText (lines : List String) : String :=
  String.join (lines.map (· ++ "\n"))

theorem linesText_append (lines lines' : List String) :
    linesText (lines ++ lines') = linesText lines ++ linesText lines' := by
  simp [linesText]

end CommandLine

namespace Machine

open CommandLine

variable {text : String} {state : State} {unread : List Char} {world : World}

theorem writeLine_after (after : World.After text (.fresh state unread) world) (line : String) :
    ∃ world', writeLine line world = .ok () world' ∧ world'.settings = world.settings ∧
      World.After (text ++ linesText [line]) (.fresh state unread) world' := by
  obtain ⟨written, console, shown⟩ := after.shown
  refine ⟨{ world with console := .streams unread ((line ++ "\n") :: written) }, ?_, rfl, ?_⟩
  · rw [writeLine, get_bind, console]
    rfl
  · refine { after with console := .intro unread [] ?_ }
    simp [shown, linesText]

theorem after_logged (after : World.After text (.fresh state unread) world) (log : List Record) :
    World.After text (.fresh state unread) { world with log } :=
  { after with }

theorem follows_run {last : World} (steps : Nat) (program : Node)
    (after : World.After text last world) :
    Follows True (World.After text) (run steps program last) (run steps program world) := by
  refine tracks_run (unnoticed_after text) ⟨Nat.le_refl steps, fun _ => rfl⟩ ?_ ?_ last world after
  · intro name _ world world' after
    rw [after.state]
  · intro name _ value world world' after
    exact { after with state := by simp only [after.state] }

end Machine

namespace CommandLine

open Machine

/-- How a session ends, and what it has shown by then. -/
structure Course where
  ending : Ending
  shown : String

def Outcome.course (outcome : Outcome) : Course :=
  ⟨outcome.ending, outcome.output⟩

/-- What is shown of the tokens of a source: their kinds and texts as data on one line, or a
line for each listed token and one for the token that stops the scan. -/
def tokensText (json : Bool) (source : Source) : String :=
  let start := Cursor.ofSource source
  if json then linesText [(tokenOutline start).json]
  else linesText (start.listed.map (·.listing) ++ ["next: " ++ start.stop.listing])

def stateText (json : Bool) (state : State) : String :=
  linesText (if json then [state.outline.indentedJson] else state.store.listing)

namespace Course

def after (text : String) (course : Course) : Course :=
  { course with shown := text ++ course.shown }

@[simp] theorem after_after (text text' : String) (course : Course) :
    (course.after text').after text = course.after (text ++ text') := by
  simp [after, String.append_assoc]

/-- A session is given up over a fault, which is told if it has a report. Where the input is no
text, its end cannot be told from that. -/
def ofFault (input? : Option (List Char)) (fault : Fault) : Course :=
  if input?.isNone && isEndOfInput fault then ⟨.undecodable, ""⟩
  else
    match complaint? fault with
    | some message => ⟨.exit 1, linesText [message]⟩
    | none => ⟨.failure fault, ""⟩

def ofRun (json : Bool) (input? : Option (List Char)) : EStateM.Result Halt World Unit → Course
  | .ok _ last =>
    ⟨.exit 0, last.console.transcript ++ linesText [horizontalRule] ++ stateText json last.state⟩
  | .error (.fault fault) last => (ofFault input? fault).after last.console.transcript
  | .error .outOfSteps last => ⟨.outOfSteps, last.console.transcript⟩

def ofProgram (steps : Nat) (json : Bool) (input? : Option (List Char)) (program : Node) :
    Course :=
  (ofRun json input? (run steps program (.fresh .initial (input?.getD [])))).after
    (linesText [horizontalRule])

/-- A tree is shown if that was asked for, unless something stands in its way. -/
def ofTree (levels : Nat) (tree : Bool) (input? : Option (List Char)) (program : Node)
    (rest : Course) : Course :=
  if tree then
    match program.outline levels with
    | .ok data => rest.after (linesText [data.indentedJson])
    | .error fault => ofFault input? fault
  else rest

/-- A session on a source, with some input. -/
def ofSource (limits : Limits) (steps : Nat) (options : Options) (source : Source)
    (input? : Option (List Char)) : Course :=
  after (if options.tokens then tokensText options.json source else "") <|
    match Reading.program limits (.ofSource options.debug source) with
    | .ok program _ =>
      ofTree limits.writing options.tree input? program
        (ofProgram steps options.json input? program)
    | .error fault _ => ofFault input? fault

end Course

section Sessions

variable {α : Type} {input? : Option (List Char)} {text : String} {state : State}
  {unread : List Char} {world last : World} {limits : Limits}

theorem course_of_fault (fault : Fault) (last : World) :
    (concluded input? (.error (.fault fault) last)).course =
      (Course.ofFault input? fault).after last.console.transcript := by
  have bare : last.console.transcript ++ String.join (([] : List String).map (· ++ "\n")) =
      last.console.transcript ++ "" := rfl
  unfold concluded Course.ofFault
  dsimp only
  split
  · exact congrArg (Course.mk _) bare
  · cases complaint? fault with
    | some message => rfl
    | none => exact congrArg (Course.mk _) bare

theorem course_of_done (last : World) :
    (concluded input? (.ok () last)).course = ⟨.exit 0, last.console.transcript⟩ :=
  congrArg (Course.mk _) String.append_empty

theorem course_of_stopped (last : World) :
    (concluded input? (.error .outOfSteps last)).course =
      ⟨.outOfSteps, last.console.transcript⟩ :=
  congrArg (Course.mk _) String.append_empty

theorem writeLines_after (after : World.After text (.fresh state unread) world)
    (lines : List String) :
    ∃ world', writeLines lines world = .ok () world' ∧ world'.settings = world.settings ∧
      World.After (text ++ linesText lines) (.fresh state unread) world' := by
  induction lines generalizing text world with
  | nil => exact ⟨world, rfl, rfl, by simpa [linesText] using after⟩
  | cons line lines ih =>
    obtain ⟨middle, writes, settings, after⟩ := writeLine_after after line
    obtain ⟨world', others, settings', after⟩ := ih after
    refine ⟨world', ?_, settings'.trans settings, ?_⟩
    · rw [writeLines, bind_ok writes, others]
    · rwa [String.append_assoc, ← linesText_append] at after

theorem transcript_after (after : World.After text (.fresh state unread) world) :
    world.console.transcript = text := by
  obtain ⟨written, console, shown⟩ := after.shown
  rw [console, Console.transcript, shown]

theorem course_showState (after : World.After text (.fresh state unread) world)
    (options : Options) : (concluded input? (showState options world)).course =
      ⟨.exit 0, text ++ stateText options.json state⟩ := by
  have shows : ∃ last, showState options world = .ok () last ∧
      last.settings = world.settings ∧
      World.After (text ++ stateText options.json state) (.fresh state unread) last := by
    rw [showState, get_bind, after.state, stateText]
    cases options.json with
    | true => exact writeLine_after after state.outline.indentedJson
    | false => exact writeLines_after after state.store.listing
  obtain ⟨last, shows, -, after⟩ := shows
  rw [shows, course_of_done, transcript_after after]

/-- A program runs after any text as it does alone. -/
theorem course_runProgram {program : Node}
    (after : World.After text (.fresh .initial (input?.getD [])) world) (steps : Nat)
    (options : Options) : (concluded input? (runProgram steps options program world)).course =
      (Course.ofProgram steps options.json input? program).after text := by
  obtain ⟨ruled, rules, -, after⟩ := writeLine_after after horizontalRule
  rw [runProgram, bind_ok rules, Course.ofProgram, Course.after_after]
  have follows := follows_run steps program after
  generalize ran : run steps program (.fresh .initial (input?.getD [])) = result at follows
  generalize ran' : run steps program ruled = result' at follows
  cases follows with
  | done after =>
    obtain ⟨unread, after⟩ := after.renewed
    obtain ⟨last, rules, -, after⟩ := writeLine_after after horizontalRule
    rw [bind_ok ran', bind_ok rules, course_showState after]
    simp only [Course.ofRun, Course.after, String.append_assoc]
  | @halted halt last last' after =>
    rw [bind_error ran']
    cases halt with
    | fault fault =>
      rw [course_of_fault, after.console.transcript, Course.ofRun, Course.after_after]
    | outOfSteps => rw [course_of_stopped, after.console.transcript, Course.ofRun, Course.after]
  | outlasted more => exact absurd trivial more

theorem course_tree {program : Node}
    (after : World.After text (.fresh .initial (input?.getD [])) world) (steps : Nat)
    (options : Options) :
    (concluded input? ((if options.tree then
        showTree limits.writing program >>= fun _ => runProgram steps options program
      else runProgram steps options program) world)).course =
      (Course.ofTree limits.writing options.tree input? program
        (Course.ofProgram steps options.json input? program)).after text := by
  unfold Course.ofTree
  cases options.tree with
  | false => exact course_runProgram after steps options
  | true =>
    cases outlined : program.outline limits.writing with
    | ok data =>
      obtain ⟨shown, shows, -, after⟩ := writeLine_after after data.indentedJson
      have tree : showTree limits.writing program world = .ok () shown := by
        rw [showTree, ofExcept_bind, outlined]
        exact shows
      rw [if_pos rfl, if_pos rfl, bind_ok tree, course_runProgram after, Course.after_after]
    | error fault =>
      have tree : showTree limits.writing program world = .error (.fault fault) world := by
        rw [showTree, ofExcept_bind, outlined]
      rw [if_pos rfl, if_pos rfl, bind_error tree, course_of_fault, transcript_after after]

/-- What comes of a source does not depend on what the world has recorded. -/
theorem ofReading_program (limits : Limits) (source : Source) (world : World) :
    match Reading.program limits (.ofSource world.settings.trace source) with
    | .ok program _ => ∃ cursor log,
      ofReading (.ofSource source) (Reading.program limits) world =
        .ok (program, cursor) { world with log }
    | .error fault _ => ∃ log, ofReading (.ofSource source) (Reading.program limits) world =
      .error (.fault fault) { world with log } := by
  have relogged := Reading.program_relogged limits
    (.ofSource world.settings.trace source) world.log
  unfold ofReading
  change Reading.Relogged _ (Reading.program limits
    ⟨.ofSource source, world.settings.trace, world.log⟩) at relogged
  generalize Reading.program limits (.ofSource world.settings.trace source) = result at relogged
  generalize Reading.program limits
    ⟨.ofSource source, world.settings.trace, world.log⟩ = result' at relogged
  cases relogged with
  | ok => exact ⟨_, _, rfl⟩
  | error => exact ⟨_, rfl⟩

theorem listTokens_after (after : World.After text (.fresh state unread) world)
    (options : Options) (source : Source) :
    ∃ world', listTokens options (.ofSource source) world = .ok (.ofSource source) world' ∧
      world'.settings = world.settings ∧
      World.After (text ++ tokensText options.json source) (.fresh state unread) world' := by
  rw [listTokens, tokensText]
  cases options.json with
  | true =>
    obtain ⟨shown, shows, settings, after⟩ :=
      writeLine_after after (tokenOutline (.ofSource source)).json
    refine ⟨shown, ?_, settings, after⟩
    rw [if_pos rfl, bind_ok shows]
    rfl
  | false =>
    obtain ⟨last, lists, same, stops⟩ := @Reading.tokenLines_eq source.plenty
      ⟨.ofSource source, world.settings.trace, world.log⟩
      (Cursor.ofSource source).length_ahead_lt.le
    have read : ofReading (.ofSource source) (tokenLines source.plenty) world =
        .ok ((Cursor.ofSource source).listed.map (·.listing), last.cursor)
          { world with log := last.log } := by
      rw [ofReading, lists]
    obtain ⟨listed, lines, settings, after⟩ := writeLines_after (after_logged after last.log)
      ((Cursor.ofSource source).listed.map (·.listing))
    obtain ⟨shown, shows, settings', after⟩ := writeLine_after after
      ("next: " ++ (Cursor.ofSource source).stop.listing)
    refine ⟨shown, ?_, settings'.trans settings, ?_⟩
    · rw [if_neg Bool.false_ne_true]
      change (ofReading (.ofSource source) (tokenLines source.plenty) >>= _) world = _
      rw [bind_ok read]
      dsimp only at stops ⊢
      rw [bind_ok lines, stops, bind_ok shows, Cursor.reset, same]
      rfl
    · rwa [String.append_assoc, ← linesText_append] at after

theorem course_runFrom (after : World.After text (.fresh .initial (input?.getD [])) world)
    (limits : Limits) (steps : Nat) (options : Options) (source : Source)
    (traced : world.settings.trace = options.debug) :
    (concluded input? (runFrom limits steps options (.ofSource source) world)).course =
      (match Reading.program limits (.ofSource options.debug source) with
      | .ok program _ =>
        Course.ofTree limits.writing options.tree input? program
          (Course.ofProgram steps options.json input? program)
      | .error fault _ => Course.ofFault input? fault).after text := by
  have read := ofReading_program limits source world
  rw [traced] at read
  rw [runFrom]
  cases result : Reading.program limits (.ofSource options.debug source) with
  | ok program reader =>
    rw [result] at read
    obtain ⟨cursor, log, read⟩ := read
    rw [bind_ok read]
    exact course_tree (after_logged after log) steps options
  | error fault reader =>
    rw [result] at read
    obtain ⟨log, read⟩ := read
    rw [bind_error read, course_of_fault, transcript_after (after_logged after log)]

theorem course_interpret (limits : Limits) (steps : Nat) (options : Options) (text : String)
    (input? : Option (List Char)) :
    (conclusion input? (interpret limits steps options text) options.settings).course =
      Course.ofSource limits steps options (.ofText (!options.caseSensitive) text) input? := by
  let world : World := ⟨.initial, .ofInput (input?.getD []), options.settings, []⟩
  let source := Source.ofText (!options.caseSensitive) text
  have after : World.After "" (.fresh .initial (input?.getD [])) world :=
    ⟨rfl, rfl, rfl, .intro _ [] rfl⟩
  have begins : conclusion input? (interpret limits steps options text) options.settings =
      concluded input? (if options.tokens then
        (listTokens options (.ofSource source) >>= runFrom limits steps options) world
      else runFrom limits steps options (.ofSource source) world) := by
    unfold interpret conclusion
    rw [get_bind]
    cases options.tokens <;> rfl
  rw [begins, Course.ofSource]
  cases options.tokens with
  | true =>
    obtain ⟨listed, lists, settings, after⟩ := listTokens_after after options source
    have traced : listed.settings.trace = options.debug := by rw [settings]; rfl
    rw [if_pos rfl, bind_ok lists, course_runFrom after limits steps options source traced]
    rfl
  | false => exact course_runFrom after limits steps options source rfl

end Sessions

/-- A source that can be read under a name, with the text that it holds and the input that is
left for its program: none where the input was the source, and no text where it is none. -/
inductive Loaded (read : String → Except Unreadable ByteArray) (input : ByteArray) :
    String → List Char → Option (List Char) → Prop where
  | input {text} (decodes : Text.decodeFile? input = some text) :
    Loaded read input "-" text (some [])
  | file {file bytes text} (named : file ≠ "-") (opens : read file = .ok bytes)
      (decodes : Text.decodeFile? bytes = some text) :
      Loaded read input file text (Text.decodeFile? input)

/-- The course of a session whose source can be read. -/
theorem course_perform {options : Options} {read : String → Except Unreadable ByteArray}
    {input : ByteArray} {text : List Char} {input? : Option (List Char)}
    (loaded : Loaded read input options.file text input?) (limits : Limits) (steps : Nat) :
    (perform limits steps options read input).course = Course.ofSource limits steps options
      (.ofText (!options.caseSensitive) (.ofList text)) input? := by
  rw [← course_interpret]
  generalize named : options.file = file at loaded
  cases loaded with
  | input decodes => simp only [perform, decodes, named, if_true]
  | file differs opens decodes => simp only [perform, named, if_neg differs, opens, decodes]

end CommandLine

end LoopLang
