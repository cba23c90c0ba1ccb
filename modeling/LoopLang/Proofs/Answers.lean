import LoopLang.Proofs.Consuming
import LoopLang.Proofs.Shapes

/-!
# Answers to a prompt

The line that answers a prompt is judged without any of its blanks, but its number is read with
only those blanks taken away that may stand around a number. The two agree unless one of the blanks
is an information separator: then a line that passes for a number is none. So a line is kept as a
number, refused, or unreadable, and it can be seen from the line which.
-/
namespace LoopLang

namespace Text

variable {p q : Char → Bool} {text : List Char} {c : Char}

theorem dropWhile_congr (same : ∀ c ∈ text, p c = q c) : text.dropWhile p = text.dropWhile q := by
  induction text with
  | nil => rfl
  | cons c rest ih =>
    rw [List.forall_mem_cons] at same
    rw [List.dropWhile_cons, List.dropWhile_cons, same.1, ih same.2]

theorem trim_congr (same : ∀ c ∈ text, p c = q c) : trim p text = trim q text := by
  have behind : ∀ c ∈ (text.dropWhile q).reverse, p c = q c := by
    intro c member
    exact same c ((List.dropWhile_sublist q).subset (List.mem_reverse.mp member))
  rw [trim, trim, dropWhile_congr same, dropWhile_congr behind]

theorem trim_eq_self (none_ : ∀ c ∈ text, p c = false) : trim p text = text := by
  have kept (chars : List Char) : chars.dropWhile (fun _ => false) = chars := by
    cases chars <;> rfl
  rw [trim_congr none_, trim, kept, kept, List.reverse_reverse]

theorem mem_dropWhile (member : c ∈ text) (kept : p c = false) : c ∈ text.dropWhile p := by
  rw [← List.takeWhile_append_dropWhile (p := p) (l := text), List.mem_append] at member
  apply member.resolve_left
  intro dropped
  exact Bool.false_ne_true (kept.symm.trans (List.mem_takeWhile_imp dropped))

theorem mem_trim (member : c ∈ text) (kept : p c = false) : c ∈ trim p text :=
  List.mem_reverse.mpr (mem_dropWhile (List.mem_reverse.mpr (mem_dropWhile member kept)) kept)

theorem not_isBlank_of_isDigit (digit : c.isDigit = true) : isBlank c = false := by
  simp only [Char.isDigit, Bool.and_eq_true, decide_eq_true_eq] at digit
  have above : 48 ≤ c.toNat := UInt32.le_iff_toNat_le.mp digit.1
  have below : c.toNat ≤ 57 := UInt32.le_iff_toNat_le.mp digit.2
  rw [← Bool.not_eq_true, isBlank]
  simp only [Bool.or_eq_true, Bool.and_eq_true, decide_eq_true_eq, beq_iff_eq]
  omega

theorem isBlank_of_isInformationSeparator (separator : isInformationSeparator c = true) :
    isBlank c = true := by
  rw [isInformationSeparator, Bool.and_eq_true, decide_eq_true_eq, decide_eq_true_eq] at separator
  simp only [isBlank, Bool.or_eq_true, Bool.and_eq_true, decide_eq_true_eq, beq_iff_eq]
  omega

end Text

open Number Text

theorem Number.Shaped.not_isBlank {text : List Char} (shaped : Shaped text) {c : Char}
    (member : c ∈ text) : isBlank c = false := by
  rcases shaped.mem member with digit | sign
  · exact not_isBlank_of_isDigit digit
  · simp only [List.mem_cons, List.not_mem_nil, or_false] at sign
    rcases sign with rfl | rfl | rfl <;> rfl

theorem Number.Shaped.not_isInformationSeparator {text : List Char} (shaped : Shaped text)
    {c : Char}
    (member : c ∈ text) : isInformationSeparator c = false := by
  rw [← Bool.not_eq_true]
  intro separator
  have blank := isBlank_of_isInformationSeparator separator
  rw [shaped.not_isBlank member] at blank
  cases blank

section Lines

variable (name : Node) {line : String}

/-- A line without separators is a number if there is one between its blanks. -/
theorem readNumber_of_shaped (shaped : Shaped (trim isBlank line.toList))
    (none_ : ∀ c ∈ line.toList, isInformationSeparator c = false) :
    ∃ value, read? (trim isBlank line.toList) = some value ∧
      readNumber name (some line) = .ok value := by
  obtain ⟨value, read⟩ := (shaped_iff _).mp shaped
  have padding : trim isNumberPadding line.toList = trim isBlank line.toList := by
    apply trim_congr
    intro c member
    rw [isNumberPadding, none_ c member, Bool.not_false, Bool.and_true]
  refine ⟨value, read, ?_⟩
  rw [readNumber, padding]
  simp only [read]

/-- With a separator it is none, even if it passes for one. -/
theorem readNumber_of_separator (shaped : Shaped (trim isBlank line.toList)) {c : Char}
    (member : c ∈ line.toList) (separator : isInformationSeparator c = true) :
    readNumber name (some line) = .error .unreadableNumber := by
  obtain ⟨value, judged⟩ := (shaped_iff _).mp shaped
  have kept : isNumberPadding c = false := by
    rw [isNumberPadding, separator, Bool.not_true, Bool.and_false]
  have unread : read? (trim isNumberPadding line.toList) = none := by
    rw [Option.eq_none_iff_forall_ne_some]
    intro value read
    have numeral := (shaped_iff _).mpr ⟨value, read⟩
    rw [numeral.not_isInformationSeparator (mem_trim member kept)] at separator
    cases separator
  rw [readNumber]
  simp only [judged, unread]

theorem readNumber_of_not_shaped (unshaped : ¬ Shaped (trim isBlank line.toList)) :
    readNumber name (some line) = .error (name.told (.invalidInput · (some line))) := by
  have unread : read? (trim isBlank line.toList) = none := by
    rw [Option.eq_none_iff_forall_ne_some]
    exact fun value read => unshaped ((shaped_iff _).mpr ⟨value, read⟩)
  rw [readNumber]
  simp only [unread]

end Lines

namespace Machine

variable {world : World} {name : String} {line? : Option String} {console : Console}

theorem execute_readOne (running : world.state.signal = .running)
    (prompt : world.settings.prompt = "IN (\x7bname\x7d) <== : ")
    (taken : world.console.readLine ("IN (" ++ name ++ ") <== : ") = .ok (line?, console))
    (steps depth : Nat) (span : Option Span) :
    execute steps (depth + 1) (.read (.ofNames [name]) span) world =
      match readNumber (.text name) line? with
      | .ok value => .ok () { world with state := world.state.assign (some name) value, console }
      | .error fault => .error (.fault fault) { world with console } := by
  have fills : Prompt.fill world.settings.prompt (.text name) =
      .ok ("IN (" ++ name ++ ") <== : ") := by
    rw [prompt]
    exact Prompt.fill_default name
  have only : forNamesOf readName (.ofNames [name]) = readName (.text name) := by
    rw [forNamesOf_ofNames]
    exact bind_pure_unit
  rw [execute_of_running (forNamesOf readName (.ofNames [name])) (at_of_running running) rfl, only]
  exact readName_of_line fills taken

/-- The answer to a prompt for one variable is the number that stands between its blanks, if there
is one and no information separator is among them; the variable is given that number. With a
separator it is unreadable, a fault that is not reported. If no number stands between the blanks
or no line is left, it is refused with the report for an input that is no number. In each case but
the first the state is as it was. -/
theorem answer_kept_or_refused (world : World) (running : world.state.signal = .running)
    (prompt : world.settings.prompt = "IN (\x7bname\x7d) <== : ") (name : String)
    (line? : Option String) (console : Console)
    (taken : world.console.readLine ("IN (" ++ name ++ ") <== : ") = .ok (line?, console))
    (steps depth : Nat) (span : Option Span) :
    let outcome := execute steps (depth + 1) (.read (.ofNames [name]) span) world
    (line? = none → outcome = .error (.fault (.invalidInput name none)) { world with console }) ∧
    ∀ line, line? = some line →
      (Shaped (trim isBlank line.toList) →
        (∀ c ∈ line.toList, isInformationSeparator c = false) →
        ∃ value, read? (trim isBlank line.toList) = some value ∧ outcome =
          .ok () { world with state := world.state.assign (some name) value, console }) ∧
      (Shaped (trim isBlank line.toList) →
        (∃ c ∈ line.toList, isInformationSeparator c = true) →
        outcome = .error (.fault .unreadableNumber) { world with console } ∧
          Fault.report? .unreadableNumber = none) ∧
      (¬ Shaped (trim isBlank line.toList) →
        outcome = .error (.fault (.invalidInput name (some line))) { world with console }) := by
  intro outcome
  have executed : outcome = _ := execute_readOne running prompt taken steps depth span
  rw [executed]
  refine ⟨?_, fun line isLine => ?_⟩
  · rintro rfl
    rfl
  · subst isLine
    refine ⟨fun shaped none_ => ?_, fun shaped ⟨c, member, separator⟩ => ?_, fun unshaped => ?_⟩
    · obtain ⟨value, read, number⟩ := readNumber_of_shaped (.text name) shaped none_
      refine ⟨value, read, ?_⟩
      rw [number]
    · rw [readNumber_of_separator _ shaped member separator]
      exact ⟨rfl, rfl⟩
    · rw [readNumber_of_not_shaped _ unshaped]
      rfl

/-- A number with a sign between two spaces. -/
theorem signed_answer_kept :
    ∃ value, read? ['+', '7'] = some value ∧
      execute 0 1 (.read (.ofNames ["B"]) none) ⟨.initial, .ofLines [" +7 "], {}, []⟩ =
        .ok () ⟨State.initial.assign (some "B") value, .queue [] [] ["IN (B) <== : "], {}, []⟩ := by
  have answered := answer_kept_or_refused ⟨.initial, .ofLines [" +7 "], {}, []⟩ rfl rfl "B"
    (some " +7 ") (.queue [] [] ["IN (B) <== : "]) rfl 0 0 none
  exact (answered.2 " +7 " rfl).1 (shaped_of_parses rfl) (by simp [isInformationSeparator])

/-- A digit between separators passes for a number, and yet is neither kept nor refused. -/
theorem separated_answer_unreadable :
    let world : World := ⟨.initial, .ofLines ["\x1c8\x1f"], {}, []⟩
    Shaped (trim isBlank "\x1c8\x1f".toList) ∧ ∀ last,
      execute 0 1 (.read (.ofNames ["X"]) none) world ≠ .ok () last ∧
      ∀ name line?, execute 0 1 (.read (.ofNames ["X"]) none) world ≠
        .error (.fault (.invalidInput name line?)) last := by
  have shaped : Shaped (trim isBlank "\x1c8\x1f".toList) := shaped_of_parses rfl
  have unreadable : readNumber (.text "X") (some "\x1c8\x1f") = .error .unreadableNumber :=
    readNumber_of_separator (c := '\x1c') _ shaped (by decide +kernel) rfl
  have taken : (Console.ofLines ["\x1c8\x1f"]).readLine ("IN (" ++ "X" ++ ") <== : ") =
      .ok (some "\x1c8\x1f", .queue [] [] ["IN (X) <== : "]) := rfl
  have executed := @execute_readOne ⟨.initial, .ofLines ["\x1c8\x1f"], {}, []⟩ "X" _ _ rfl rfl
    taken 0 0 none
  rw [unreadable] at executed
  refine ⟨shaped, fun last => ⟨?_, fun name line? => ?_⟩⟩ <;> rw [executed] <;> nofun

end Machine

end LoopLang
