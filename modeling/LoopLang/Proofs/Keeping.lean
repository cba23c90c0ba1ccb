import LoopLang.Proofs.Deciding
import LoopLang.Syntax.Rules
import Mathlib.Logic.Function.Iterate

/-!
# Reading moves only the cursor

Whatever a rule does, whether it yields a tree or fails, and however far it got, the cursor is
some tokens further on. There is one exception: without tracing, a rule that runs out of depth
gives the last move up by half. Each action of a reader has its lemma, and each rule is put
together from those of its parts.
-/
namespace LoopLang

/-- Whether it was for its depth that something failed. -/
def Fault.isTooDeep : Fault → Bool
  | stackExhausted | textTooDeep _ => true
  | _ => false

theorem Fault.isTooDeep_ofToken (expected : Option String) (found : Token) :
    (ofToken expected found).isTooDeep = false := by
  unfold ofToken
  split
  · rfl
  · split <;> rfl

namespace Cursor

theorem exists_iterate_skip (count : Nat) (cursor : Cursor) :
    ∃ passed, cursor.skip count = advance^[passed] cursor := by
  induction count generalizing cursor with
  | zero => exact ⟨0, rfl⟩
  | succ count ih =>
    unfold skip
    split
    · obtain ⟨passed, skipped⟩ := ih cursor.advance
      exact ⟨passed + 1, skipped⟩
    · exact ⟨0, rfl⟩

theorem exists_iterate_advanceReal (cursor : Cursor) :
    ∃ passed, cursor.advanceReal = advance^[passed] cursor := by
  obtain ⟨passed, skipped⟩ := exists_iterate_skip cursor.advance.source.plenty cursor.advance
  exact ⟨passed + 1, skipped⟩

end Cursor

/-- One reader has recorded what another has, and after that nothing but details, if it is tracing
at all. -/
def Reader.Records (reader last : Reader) : Prop :=
  ∃ details, last.log = details ++ reader.log ∧
    ∀ record ∈ details, reader.tracing = true ∧ record.severity = .detail

namespace Reader.Records

variable {reader middle last : Reader}

theorem of_eq (same : last.log = reader.log) : reader.Records last :=
  ⟨[], same, nofun⟩

theorem trans (tracing : middle.tracing = reader.tracing) (records : reader.Records middle)
    (further : middle.Records last) : reader.Records last := by
  obtain ⟨details, log, each⟩ := records
  obtain ⟨details', log', each'⟩ := further
  refine ⟨details' ++ details, by rw [log', log, List.append_assoc], fun record member => ?_⟩
  rcases List.mem_append.mp member with late | early
  · rw [← tracing]
    exact each' record late
  · exact each record early

theorem note (reader : Reader) (channel : Channel) (message : String) :
    reader.Records (reader.note channel message) := by
  unfold Reader.note
  split
  · rename_i tracing
    refine ⟨[⟨.detail, channel, message⟩], rfl, fun record member => ⟨tracing, ?_⟩⟩
    rw [List.mem_singleton.mp member]
  · exact of_eq rfl

end Reader.Records

namespace Reading

variable {α β : Type} {action : Reading α} {next : α → Reading β} {operand one : Reading Node}

/-- The reader that an action leaves, whether it fails or not. -/
def left : EStateM.Result Fault Reader α → Reader
  | .ok _ reader | .error _ reader => reader

/-- What an action leaves of a reader: the cursor has passed some tokens, and the last of them
perhaps only by half. -/
inductive Kept (reader : Reader) : EStateM.Result Fault Reader α → Prop where
  | moved {result} (passed : Nat)
      (cursor : (left result).cursor = Cursor.advance^[passed] reader.cursor)
      (tracing : (left result).tracing = reader.tracing)
      (whole : reader.tracing = false → ∀ fault last, result = .error fault last →
        fault.isTooDeep = false)
      (log : reader.Records (left result)) : Kept reader result
  | interrupted {fault last} (tooDeep : fault.isTooDeep = true) (untraced : reader.tracing = false)
      (passed : Nat) (valid : (Cursor.advance^[passed] reader.cursor).peek.isValid = true)
      (cursor : last.cursor = (Cursor.advance^[passed] reader.cursor).leave)
      (tracing : last.tracing = false) (log : reader.Records last) :
      Kept reader (.error fault last)

/-- An action that moves the cursor by whole tokens, or gives up half way for its depth. -/
def Keeps (action : Reading α) : Prop :=
  ∀ reader : Reader, Kept reader (action reader)

theorem Kept.of_ok {reader last : Reader} {a : α} (passed : Nat)
    (cursor : last.cursor = Cursor.advance^[passed] reader.cursor)
    (tracing : last.tracing = reader.tracing) (log : reader.Records last) :
    Kept reader (.ok a last) :=
  .moved passed cursor tracing (fun _ _ _ failed => by cases failed) log

theorem Kept.of_error {reader last : Reader} {fault : Fault} (passed : Nat)
    (cursor : last.cursor = Cursor.advance^[passed] reader.cursor)
    (tracing : last.tracing = reader.tracing)
    (whole : reader.tracing = false → fault.isTooDeep = false) (log : reader.Records last) :
    Kept reader (.error fault last : EStateM.Result Fault Reader α) := by
  refine .moved passed cursor tracing (fun untraced _ _ failed => ?_) log
  cases failed
  exact whole untraced

theorem Kept.records {reader : Reader} {result : EStateM.Result Fault Reader α}
    (kept : Kept reader result) : reader.Records (left result) := by
  cases kept with
  | moved _ _ _ _ log => exact log
  | interrupted _ _ _ _ _ _ log => exact log

theorem Kept.tracing_eq {reader : Reader} {result : EStateM.Result Fault Reader α}
    (kept : Kept reader result) : (left result).tracing = reader.tracing := by
  cases kept with
  | moved _ _ tracing => exact tracing
  | interrupted _ untraced _ _ _ tracing => exact tracing.trans untraced.symm

theorem keeps_pure (a : α) : Keeps (pure a) :=
  fun _ => .of_ok 0 rfl rfl (.of_eq rfl)

theorem keeps_throw {fault : Fault} (other : fault.isTooDeep = false) :
    Keeps (throw fault : Reading α) :=
  fun _ => .of_error 0 rfl rfl (fun _ => other) (.of_eq rfl)

theorem keeps_refuse (expected : Option String) (token : Token) :
    Keeps (throw (Fault.ofToken expected token) : Reading α) :=
  keeps_throw (Fault.isTooDeep_ofToken expected token)

theorem keeps_get : Keeps get :=
  fun _ => .of_ok 0 rfl rfl (.of_eq rfl)

theorem keeps_bind (first : Keeps action) (rest : ∀ a, Keeps (next a)) :
    Keeps (action >>= next) := by
  intro reader
  have kept := first reader
  cases result : action reader with
  | error fault last =>
    rw [result] at kept
    rw [bind_error result]
    cases kept with
    | moved passed cursor tracing whole log =>
      exact .of_error passed cursor tracing (fun untraced => whole untraced fault last rfl) log
    | interrupted tooDeep untraced passed valid cursor tracing log =>
      exact .interrupted tooDeep untraced passed valid cursor tracing log
  | ok a middle =>
    rw [result] at kept
    rw [bind_ok result]
    cases kept with
    | moved passed cursor tracing whole log =>
      change middle.cursor = _ at cursor
      change middle.tracing = _ at tracing
      have further (count : Nat) : Cursor.advance^[count] middle.cursor =
          Cursor.advance^[count + passed] reader.cursor := by
        rw [cursor, Function.iterate_add_apply]
      have kept' := rest a middle
      generalize next a middle = result' at kept'
      cases kept' with
      | moved passed' cursor' tracing' whole' log' =>
        refine .moved (passed' + passed) (cursor'.trans (further _)) (tracing'.trans tracing) ?_
          (log.trans tracing log')
        exact fun untraced => whole' (tracing.trans untraced)
      | interrupted tooDeep untraced passed' valid cursor' tracing' log' =>
        rw [further] at valid cursor'
        exact .interrupted tooDeep (tracing.symm.trans untraced) _ valid cursor' tracing'
          (log.trans tracing log')

theorem keeps_modify {change : Reader → Reader} (moves : ∀ reader : Reader,
      ∃ passed, (change reader).cursor = Cursor.advance^[passed] reader.cursor)
    (tracing : ∀ reader : Reader, (change reader).tracing = reader.tracing)
    (log : ∀ reader : Reader, reader.Records (change reader)) : Keeps (modify change) := by
  intro reader
  obtain ⟨passed, cursor⟩ := moves reader
  exact .of_ok passed cursor (tracing reader) (log reader)

theorem keeps_reportDepth (keeps : Keeps action) : Keeps (reportDepth action) := by
  intro reader
  have kept := keeps reader
  unfold reportDepth
  split
  · rename_i last result
    rw [result] at kept
    cases kept with
    | moved passed cursor tracing whole log =>
      exact .of_error passed cursor tracing
        (fun untraced => whole untraced .stackExhausted last rfl) log
    | interrupted _ untraced passed valid cursor tracing log =>
      exact .interrupted rfl untraced passed valid cursor tracing log
  · exact kept

theorem keeps_note (message : String) : Keeps (note message) :=
  keeps_modify (fun _ => ⟨0, cursor_note ..⟩) (fun _ => tracing_note ..) fun _ => .note ..

theorem keeps_peek : Keeps peek :=
  keeps_bind keeps_get fun _ => keeps_pure _

theorem keeps_current : Keeps current := by
  apply keeps_bind keeps_get
  intro reader
  split
  · exact keeps_pure _
  · exact keeps_throw rfl

theorem keeps_pass : Keeps pass := by
  intro reader
  obtain ⟨passed, moved⟩ := reader.cursor.exists_iterate_advanceReal
  have log : reader.Records (passing reader) := Reader.Records.note _ _ _
  exact .of_ok passed ((cursor_passing reader).trans moved) (tracing_passing reader) log

theorem keeps_advance (expected : Option String) : Keeps (advance expected) := by
  apply keeps_bind keeps_peek
  intro token
  split
  · exact keeps_pass
  · exact keeps_refuse _ _

theorem keeps_take (expected : Option String) : Keeps (take expected) := by
  apply keeps_bind (keeps_advance expected)
  intro token?
  split
  · exact keeps_pure _
  · exact keeps_throw rfl

theorem keeps_expect (kind : Kind) : Keeps (expect kind) := by
  apply keeps_bind (keeps_take _)
  intro token
  split
  · exact keeps_pure _
  · exact keeps_refuse _ _

theorem keeps_repeatWhile (goesOn : Kind → Bool) (keeps : Keeps action) (bound : Nat) :
    Keeps (repeatWhile goesOn action bound) := by
  induction bound with
  | zero => exact keeps_pure _
  | succ bound ih =>
    apply keeps_bind keeps_peek
    intro token
    split
    · exact keeps_bind keeps fun _ => keeps_bind ih fun _ => keeps_pure _
    · exact keeps_pure _

theorem keeps_many (goesOn : Kind → Bool) (keeps : Keeps action) : Keeps (many goesOn action) :=
  keeps_bind keeps_get fun _ => keeps_repeatWhile goesOn keeps _

theorem keeps_spanFrom (start : Location) : Keeps (spanFrom start) :=
  keeps_bind keeps_current fun _ => keeps_pure _

theorem keeps_skipWhitespace : Keeps skipWhitespace :=
  keeps_modify (fun reader => reader.cursor.exists_iterate_skip _) (fun _ => rfl)
    fun _ => .of_eq rfl

/-- Where depth runs out, a traced reader has passed a token, and one that is not traced has done
so by half. -/
theorem keeps_exhaust (expected : Option String) : Keeps (exhaust expected : Reading α) := by
  intro reader
  unfold exhaust
  rw [peek_bind]
  split
  · rename_i valid
    cases traced : reader.tracing with
    | true =>
      obtain ⟨passed, moved⟩ := reader.cursor.exists_iterate_advanceReal
      refine .of_error passed ?_ rfl (fun untraced => ?_) (.of_eq rfl)
      · rw [← moved]
        exact if_pos traced
      · rw [traced] at untraced
        cases untraced
    | false =>
      have half : (if reader.tracing then reader.cursor.advanceReal else reader.cursor.leave) =
          reader.cursor.leave := if_neg (by simp [traced])
      exact .interrupted rfl traced 0 valid half traced (.of_eq rfl)
  · exact keeps_refuse expected reader.cursor.peek reader

section Expressions

theorem keeps_tail (level : Level) (keeps : Keeps operand) : Keeps (tail level operand) := by
  have one : Keeps (joined operand) :=
    keeps_bind (keeps_take _) fun _ => keeps_bind keeps fun _ =>
      keeps_bind keeps_current fun _ => keeps_pure _
  exact keeps_bind (keeps_many _ one) fun _ => keeps_pure _

theorem keeps_chain (level : Level) (keeps : Keeps operand) : Keeps (chain level operand) :=
  keeps_bind keeps_peek fun _ => keeps_bind keeps fun _ =>
    keeps_bind (keeps_tail level keeps) fun _ => keeps_bind (keeps_spanFrom _) fun _ => keeps_pure _

theorem keeps_atom : Keeps atom := by
  apply keeps_bind (keeps_take _)
  intro token
  split
  · exact keeps_bind (keeps_note _) fun _ => keeps_pure _
  · exact keeps_bind (keeps_note _) fun _ => keeps_pure _
  · exact keeps_refuse _ _

theorem keeps_factor (depth : Nat) : Keeps (factor depth) := by
  induction depth with
  | zero => exact keeps_exhaust _
  | succ depth ih =>
    apply keeps_bind keeps_peek
    intro token
    split
    · exact keeps_bind (keeps_take _) fun _ => keeps_bind ih fun _ =>
        keeps_bind (keeps_spanFrom _) fun _ => keeps_pure _
    · exact keeps_bind (keeps_take _) fun _ =>
        keeps_bind (keeps_chain _ (keeps_chain _ ih)) fun _ =>
          keeps_bind (keeps_expect _) fun _ => keeps_bind (keeps_spanFrom _) fun _ => keeps_pure _
    · exact keeps_atom

theorem keeps_sum (depth : Nat) : Keeps (sum depth) :=
  keeps_chain _ (keeps_chain _ (keeps_factor depth))

theorem keeps_comparison (depth : Nat) : Keeps (comparison depth) := by
  apply keeps_bind keeps_peek
  intro first
  apply keeps_bind (keeps_sum depth)
  intro left
  apply keeps_bind keeps_peek
  intro token
  split
  · exact keeps_bind (keeps_take _) fun _ => keeps_bind (keeps_sum depth) fun _ =>
      keeps_bind (keeps_spanFrom _) fun _ => keeps_pure _
  · exact keeps_bind (keeps_spanFrom _) fun _ => keeps_pure _

theorem keeps_condition (depth : Nat) : Keeps (condition depth) :=
  keeps_chain _ (keeps_chain _ (keeps_comparison depth))

end Expressions

section Statements

theorem keeps_names : Keeps names :=
  keeps_bind (keeps_expect _) fun _ =>
    keeps_bind
      (keeps_many _ (keeps_bind (keeps_take _) fun _ =>
        keeps_bind (keeps_expect _) fun _ => keeps_pure _))
      fun _ => keeps_pure _

theorem keeps_exitTarget : Keeps exitTarget := by
  apply keeps_bind keeps_peek
  intro token
  split
  · exact keeps_bind (keeps_take _) fun _ => keeps_pure _
  · exact keeps_pure _

theorem keeps_assignment (depth : Nat) : Keeps (assignment depth) :=
  keeps_bind keeps_current fun _ => keeps_bind (keeps_note _) fun _ =>
    keeps_bind (keeps_expect _) fun _ => keeps_bind (keeps_sum depth) fun _ =>
      keeps_bind (keeps_spanFrom _) fun _ => keeps_pure _

theorem keeps_listOf (keeps : Keeps one) : Keeps (listOf one) :=
  keeps_bind keeps fun _ =>
    keeps_bind
      (keeps_many _ (keeps_bind (keeps_note _) fun _ => keeps_bind (keeps_take _) fun _ => keeps))
      fun _ => keeps_bind keeps_current fun _ => keeps_pure _

theorem keeps_elsePart (keeps : Keeps one) : Keeps (elsePart one) := by
  apply keeps_bind (keeps_take _)
  intro token
  split
  · exact keeps_bind keeps fun _ => keeps_bind (keeps_expect _) fun _ =>
      keeps_bind (keeps_spanFrom _) fun _ => keeps_pure _
  · exact keeps_bind (keeps_spanFrom _) fun _ => keeps_pure _
  · exact keeps_refuse _ _

theorem keeps_branch (start : Location) {condition : Reading Node} (test : Keeps condition)
    (keeps : Keeps one) : Keeps (branch start condition one) :=
  keeps_bind (keeps_note _) fun _ => keeps_bind test fun _ =>
    keeps_bind (keeps_expect _) fun _ => keeps_bind keeps fun _ =>
      keeps_bind (keeps_elsePart keeps) fun _ => keeps_bind (keeps_spanFrom _) fun _ => keeps_pure _

theorem keeps_loop (start : Location) (keeps : Keeps one) : Keeps (loop start one) :=
  keeps_bind (keeps_note _) fun _ => keeps_bind (keeps_expect _) fun _ =>
    keeps_bind (keeps_expect _) fun _ => keeps_bind keeps fun _ =>
      keeps_bind (keeps_expect _) fun _ => keeps_bind (keeps_spanFrom _) fun _ => keeps_pure _

theorem keeps_statement (depth : Nat) : Keeps (statement depth) := by
  induction depth with
  | zero => exact keeps_exhaust _
  | succ depth ih =>
    apply keeps_bind (keeps_take _)
    intro token
    split
    · exact keeps_branch _ (keeps_condition depth) (keeps_listOf ih)
    · exact keeps_loop _ (keeps_listOf ih)
    · exact keeps_bind keeps_exitTarget fun _ => keeps_bind (keeps_spanFrom _) fun _ => keeps_pure _
    · exact keeps_bind keeps_names fun _ => keeps_bind (keeps_spanFrom _) fun _ => keeps_pure _
    · exact keeps_bind keeps_names fun _ => keeps_bind (keeps_spanFrom _) fun _ => keeps_pure _
    · exact keeps_assignment depth
    · exact keeps_refuse _ _

theorem keeps_programWithin (depth : Nat) : Keeps (programWithin depth) := by
  apply keeps_bind keeps_skipWhitespace
  intro _
  apply keeps_bind keeps_peek
  intro first
  apply keeps_bind (keeps_reportDepth (keeps_listOf (keeps_statement _)))
  intro body
  apply keeps_bind (keeps_expect _)
  intro point
  apply keeps_bind (keeps_spanFrom _)
  intro span
  apply keeps_bind keeps_get
  intro reader
  split
  · exact keeps_bind keeps_peek fun _ => keeps_bind (keeps_note _) fun _ => keeps_pure _
  · exact keeps_pure _

theorem keeps_program (limits : Limits) : Keeps (program limits) :=
  keeps_bind keeps_get fun _ => keeps_programWithin _

end Statements

end Reading

end LoopLang
