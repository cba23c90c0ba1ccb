import LoopLang.Proofs.Typing
import LoopLang.Prompt.Filling

/-!
# What goes wrong before a line is read

A template may be filled with many things and in many ways, and much can go wrong with that. But
none of it is about the line that is asked for: a fault of the input always comes after a
prompt that was shown. Filled with a name that is a text, a template fails for nothing but
itself, since no list or node can be reached from a text.
-/
namespace LoopLang

/-- Faults that are not about a line of the input. -/
def Fault.NotInput (fault : Fault) : Prop :=
  ∀ name line, fault ≠ .invalidInput name line

theorem Fault.OfExpression.notInput {fault : Fault} (evaluated : fault.OfExpression) :
    fault.NotInput := by
  cases evaluated <;> exact nofun

/-- Faults that a template can have of itself, whatever it is filled with. -/
def Fault.OfTemplate : Fault → Prop
  | malformedPrompt | numberedField | unknownField | unknownAttribute | unknownItem
  | itemOutOfRange | noLayout | noCharacter | promptTooWide => True
  | _ => False

theorem Fault.OfTemplate.notInput {fault : Fault} (template : fault.OfTemplate) :
    fault.NotInput := by
  rintro name line rfl
  exact template

/-- What stands in the way of something, if anything does, is not the input. -/
def Passable (obstacle? : Option Fault) : Prop :=
  ∀ fault, obstacle? = some fault → fault.NotInput

/-- A result, or a fault that is not about the input. -/
abbrev Inputless {α : Type} (result : Except Fault α) : Prop :=
  Safe Fault.NotInput (fun _ => True) result

/-- A result, or a fault of the template. -/
abbrev Templated {α : Type} (result : Except Fault α) : Prop :=
  Safe Fault.OfTemplate (fun _ => True) result

section Obstacles

variable {first second : Option Fault}

theorem passable_none : Passable none :=
  nofun

theorem passable_some {fault : Fault} (notInput : fault.NotInput) : Passable (some fault) := by
  rintro _ ⟨⟩
  exact notInput

theorem Passable.orElse (passable : Passable first) (passable' : Passable second) :
    Passable (first <|> second) := by
  cases first with
  | none => exact passable'
  | some fault => exact passable

end Obstacles

namespace Node

theorem passable_linkFault? (node : Node) : Passable node.linkFault? := by
  fun_induction linkFault? node with
  | case1 => exact passable_none
  | case2 _ _ _ ih => exact ih
  | case3 => exact passable_some nofun

theorem passable_namesFault? (node : Node) : Passable node.namesFault? := by
  unfold namesFault?
  split
  · exact passable_none
  · exact passable_none
  · exact passable_none
  · exact passable_linkFault? _
  · exact passable_some nofun

theorem passable_of_succ {inLanguage : Bool} {node : Node}
    (each : ∀ room, Passable (node.obstacle? inLanguage (room + 1))) :
    ∀ room, Passable (node.obstacle? inLanguage room) := by
  rintro (_ | room)
  · cases node <;> first | exact passable_none | exact passable_some nofun
  · exact each room

theorem passable_obstacle? (inLanguage : Bool) (node : Node) :
    ∀ room, Passable (node.obstacle? inLanguage room) := by
  induction node with
  | absent | text | emptyList | number => exact passable_of_succ fun room => passable_none
  | read names _ ih | print names _ ih =>
    refine passable_of_succ fun room => ?_
    rw [obstacle?]
    split
    · refine (passable_namesFault? _).orElse ?_
      split
      · exact passable_none
      · exact passable_some nofun
    · exact ih room
  | identifier name _ ih =>
    refine passable_of_succ fun room => ?_
    rw [obstacle?]
    split
    · exact passable_some nofun
    · exact ih room
  | item _ _ ih ih' => exact passable_of_succ fun room => (ih room).orElse (ih' (room + 1))
  | sequence first rest _ ih ih' =>
    refine passable_of_succ fun room => (ih room).orElse ?_
    split
    · exact passable_none
    · exact ih' (room + 1)
    · exact passable_some nofun
  | program _ _ ih | «otherwise» _ _ ih | negation _ _ ih | parenthesized _ _ ih =>
    exact passable_of_succ fun room => ih room
  | branch _ _ _ _ ih ih' ih'' | link _ _ _ _ _ ih ih' ih'' =>
    exact passable_of_succ fun room => (ih room).orElse ((ih' room).orElse (ih'' room))
  | loop _ _ _ ih ih' | assign _ _ _ ih ih' | chain _ _ _ _ ih ih' =>
    exact passable_of_succ fun room => (ih room).orElse (ih' room)
  | exit target _ ih =>
    refine passable_of_succ fun room => ?_
    rw [obstacle?]
    split
    · exact passable_none
    · exact ih room
  | comparison _ _ _ _ ih ih' ih'' =>
    refine passable_of_succ fun room => (ih room).orElse ?_
    split
    · exact passable_none
    · exact (ih' room).orElse (ih'' room)

end Node

namespace Prompt

variable {α β : Type}

theorem templated_ok (a : α) : Templated (.ok a) :=
  trivial

theorem templated_error {fault : Fault} (template : fault.OfTemplate) :
    Templated (.error fault : Except Fault α) :=
  template

theorem templated_bind {result : Except Fault α} {next : α → Except Fault β}
    (first : Templated result) (rest : ∀ a, Templated (next a)) : Templated (result >>= next) :=
  Safe.bind first fun a _ => rest a

theorem templated_ite {p : Prop} [Decidable p] {first second : Except Fault α}
    (one : Templated first) (other : Templated second) :
    Templated (if p then first else second) := by
  split
  · exact one
  · exact other

theorem templated_splitNumber (text : List Char) : Templated (splitNumber text) := by
  unfold splitNumber
  dsimp only
  split
  · exact templated_ok _
  · split
    · exact templated_ok _
    · exact templated_error trivial

namespace Layout

theorem templated_splitPrecision (spec : List Char) : Templated (splitPrecision spec) := by
  unfold splitPrecision
  split
  · refine templated_bind (templated_splitNumber _) fun precision => ?_
    split
    · exact templated_error trivial
    · exact templated_ok _
  · exact templated_ok _

theorem templated_parse (spec : List Char) : Templated (parse spec) := by
  unfold parse
  refine templated_bind (templated_splitNumber _) fun width => ?_
  refine templated_bind (templated_splitPrecision _) fun precision => ?_
  exact templated_ite (templated_error trivial) (templated_ok _)

theorem templated_fillUp (layout : Layout) (alignment : Alignment) (front body : List Char) :
    Templated (layout.fillUp alignment front body) := by
  unfold fillUp
  dsimp only
  split
  · exact templated_error trivial
  · cases alignment <;> exact templated_ok _

theorem templated_setText (layout : Layout) (text : List Char) :
    Templated (layout.setText text) := by
  unfold setText
  split
  · exact templated_error trivial
  · exact templated_fillUp ..

theorem templated_figure (layout : Layout) (value : Nat) : Templated (layout.figure value) := by
  unfold figure
  dsimp only
  split <;> first
    | exact templated_ok _
    | exact templated_error trivial
    | split <;> first | exact templated_ok _ | exact templated_error trivial

theorem templated_setNumber (layout : Layout) (value : Nat) :
    Templated (layout.setNumber value) := by
  unfold setNumber
  split
  · unfold setCode
    split
    · exact templated_error trivial
    · split
      · exact templated_fillUp ..
      · exact templated_error trivial
  · refine templated_bind (templated_figure layout value) fun figure => ?_
    split
    · exact templated_error trivial
    · exact templated_fillUp ..

end Layout

theorem templated_readNumber (text : List Char) : Templated (readNumber text) := by
  refine templated_bind (templated_splitNumber text) fun split_ => ?_
  split <;> exact templated_ok _

theorem templated_itemAt (thing : Thing) (position : Nat) :
    Templated (thing.itemAt position) := by
  unfold Thing.itemAt
  split <;> first
    | exact templated_error trivial
    | split <;> first | exact templated_ok _ | exact templated_error trivial

theorem templated_itemUnder (thing : Thing) (key : List Char) :
    Templated (thing.itemUnder key) := by
  unfold Thing.itemUnder
  split <;> first
    | exact templated_error trivial
    | split <;> first | exact templated_ok _ | exact templated_error trivial

/-- Things that lead only to things of their own sort, and can be written but for some faults,
which those of templates are among. -/
structure Fitting (faults : Fault → Prop) (fits : Thing → Prop) : Prop where
  template : ∀ fault, fault.OfTemplate → faults fault
  text : ∀ chars, fits (.text chars)
  feature : ∀ thing name next, fits thing → thing.attribute? name = some next → fits next
  itemAt : ∀ thing position next, fits thing → thing.itemAt position = .ok next → fits next
  itemUnder : ∀ thing key next, fits thing → thing.itemUnder key = .ok next → fits next
  obstacle : ∀ thing fault, fits thing → thing.obstacle? = some fault → faults fault

section Fitting

variable {faults : Fault → Prop} {fits : Thing → Prop} {thing name : Thing}
  (fitting : Fitting faults fits)
include fitting

theorem Fitting.templated {result : Except Fault α} (templated : Templated result) :
    Safe faults (fun _ => True) result :=
  templated.mono fitting.template

theorem Fitting.found {result : Except Fault Thing} (templated : Templated result)
    (keeps : ∀ next, result = .ok next → fits next) : Safe faults fits result := by
  cases result with
  | ok next => exact keeps next rfl
  | error fault => exact fitting.template fault templated

theorem safe_tell (write : Thing → List Char) (fit : fits thing) :
    Safe faults (fun _ => True) (tell write thing) := by
  unfold tell
  cases blocked : thing.obstacle? with
  | none => trivial
  | some fault => exact fitting.obstacle thing fault fit blocked

theorem safe_step (access : Access) (fit : fits thing) : Safe faults fits (step thing access) := by
  cases access with
  | «attribute» name =>
    unfold step
    dsimp only
    split
    · rename_i next found
      exact fitting.feature thing _ next fit found
    · exact fitting.template _ trivial
  | item key =>
    refine (fitting.templated (templated_readNumber key)).bind fun position _ => ?_
    split
    · exact fitting.found (templated_itemAt ..) fun next => fitting.itemAt thing _ next fit
    · exact fitting.found (templated_itemUnder ..) fun next => fitting.itemUnder thing _ next fit
  | broken => exact fitting.template _ trivial

theorem safe_foldlM_step (accesses : List Access) (fit : fits thing) :
    Safe faults fits (accesses.foldlM step thing) := by
  induction accesses generalizing thing with
  | nil => exact fit
  | cons access rest ih => exact (safe_step fitting access fit).bind fun next fit' => ih fit'

theorem safe_lookUp (root : List Char) (fit : fits name) :
    Safe faults fits (lookUp name root) := by
  refine (fitting.templated (templated_readNumber root)).bind fun position _ => ?_
  split
  · exact fitting.template _ trivial
  · split
    · exact fit
    · exact fitting.template _ trivial

theorem safe_convert (conversion : Option Char) (fit : fits thing) :
    Safe faults fits (convert conversion thing) := by
  unfold convert
  split
  · exact fit
  · exact fit
  · exact (safe_tell fitting _ fit).bind fun _ _ => fitting.text _
  · exact (safe_tell fitting _ fit).bind fun _ _ => fitting.text _
  · exact (safe_tell fitting _ fit).bind fun _ _ => fitting.text _
  · exact fitting.template _ trivial

theorem safe_set (spec : List Char) (fit : fits thing) :
    Safe faults (fun _ => True) (set thing spec) := by
  unfold set
  split
  · exact safe_tell fitting _ fit
  · have parsed := Layout.templated_parse spec
    split
    · exact fitting.templated (templated_bind parsed fun layout => layout.templated_setText _)
    · exact fitting.templated (templated_bind parsed fun layout => layout.templated_setNumber _)
    · exact fitting.templated (templated_bind parsed fun layout => layout.templated_setNumber _)
    · exact fitting.template _ trivial

variable {fillSpec : List Char → Except Fault (List Char)}

theorem safe_fillField (specs : ∀ spec, Safe faults (fun _ => True) (fillSpec spec))
    (field : Field) (fit : fits name) :
    Safe faults (fun _ => True) (fillField fillSpec name field) := by
  refine (safe_lookUp fitting _ fit).bind fun root fit => ?_
  refine (safe_foldlM_step fitting _ fit).bind fun thing fit => ?_
  refine (safe_convert fitting _ fit).bind fun converted fit => ?_
  exact (specs _).bind fun spec _ => safe_set fitting spec fit

theorem safe_fillPieces (specs : ∀ spec, Safe faults (fun _ => True) (fillSpec spec))
    (pieces : List Piece) (fit : fits name) :
    Safe faults (fun _ => True) (fillPieces fillSpec name pieces) := by
  induction pieces with
  | nil => trivial
  | cons piece rest ih =>
    cases piece with
    | plain c => exact ih.bind fun _ _ => trivial
    | field field =>
      refine (safe_fillField fitting specs field fit).bind fun text _ => ?_
      exact ih.bind fun _ _ => trivial
    | broken => exact fitting.template _ trivial

theorem safe_fillNested (depth : Nat) (template : List Char) (fit : fits name) :
    Safe faults (fun _ => True) (fillNested name depth template) := by
  induction depth generalizing template with
  | zero => exact fitting.template _ trivial
  | succ depth ih =>
    refine safe_fillPieces fitting (fun spec => ?_) _ fit
    split
    · exact ih spec
    · trivial

theorem safe_fill (template : String) {node : Node} (fit : fits (.ofNode node)) :
    Safe faults (fun _ => True) (fill template node) := by
  have filled := safe_fillNested fitting 2 template.toList fit
  unfold fill
  cases result : fillNested (.ofNode node) 2 template.toList with
  | ok text => trivial
  | error fault =>
    rw [result] at filled
    exact filled

end Fitting

theorem fitting_any : Fitting Fault.NotInput fun _ => True where
  template _ template := template.notInput
  text _ := trivial
  feature _ _ _ _ _ := trivial
  itemAt _ _ _ _ _ := trivial
  itemUnder _ _ _ _ _ := trivial
  obstacle thing fault _ blocked := by
    cases thing with
    | part node => exact Node.passable_obstacle? true node _ fault blocked
    | _ => cases blocked

theorem inputless_fill (template : String) (name : Node) : Inputless (fill template name) :=
  safe_fill fitting_any template trivial

/-- No list or node stands behind a thing. -/
def Thing.Partless : Thing → Prop
  | part _ => False
  | single member => member.Partless
  | operation _ self | primitive _ _ self => self.Partless
  | applied _ parameter => parameter.Partless
  | _ => True

section Partless

variable {thing next : Thing} {name : String}

theorem partless_lookup {entries : List (String × Thing)}
    (all : ∀ entry ∈ entries, entry.2.Partless) (found : entries.lookup name = some next) :
    next.Partless := by
  obtain ⟨before, after, rfl, -⟩ := List.lookup_eq_some_iff.mp found
  exact all (name, next) (by simp)

theorem partless_ofString (content : String) : (Thing.ofString content).Partless :=
  trivial

theorem partless_ofOption (content : Option String) : (Thing.ofOption content).Partless := by
  cases content <;> trivial

theorem partless_ofNote (lines : List String) : (Thing.ofNote lines).Partless := by
  unfold Thing.ofNote
  split <;> trivial

theorem partless_entry (owner : Family) (feature : Feature) : (owner.entry feature).Partless := by
  unfold Family.entry
  split <;> first | trivial | exact partless_ofNote _

theorem partless_noteThing (f : Family) : f.noteThing.Partless := by
  unfold Family.noteThing
  split
  · split
    · exact partless_entry ..
    · trivial
  · exact partless_ofNote _

theorem partless_base (f : Family) :
    ((f.parents.head?.map Thing.family).getD .nothing).Partless := by
  cases f.parents.head? <;> trivial

theorem partless_facts (feature : Feature) (place : String) :
    ∀ entry ∈ Found.facts feature place, entry.2.Partless := by
  simp [Found.facts, Thing.ofString, Thing.Partless, partless_ofNote, partless_ofOption]

theorem partless_wholeProperty? {value : Nat}
    (found : Thing.wholeProperty? value name = some next) :
    next.Partless :=
  partless_lookup (by simp [Thing.Partless]) found

theorem partless_familyProperty? {f : Family} (found : f.property? name = some next) :
    next.Partless :=
  partless_lookup (by simp [Thing.Partless, partless_ofString, partless_ofOption,
    partless_noteThing, partless_base]) found

theorem partless_property? (partless : thing.Partless) (found : thing.property? name = some next) :
    next.Partless := by
  unfold Thing.property? at found
  split at found
  · cases found
    trivial
  · split at found
    · exact partless_familyProperty? found
    · exact partless_wholeProperty? found
    · exact partless_wholeProperty? found
    · rename_i entry self
      refine partless_lookup (List.forall_mem_append.mpr ⟨partless_facts _ _, ?_⟩) found
      have self : (if entry.role = .free then Thing.nothing else self).Partless := by
        split
        · trivial
        · exact partless
      simp [Thing.Partless, self]
    · rename_i owner entry self
      refine partless_lookup (List.forall_mem_append.mpr ⟨partless_facts _ _, ?_⟩) found
      have self : self.Partless := partless
      simp [Thing.Partless, self]
    · refine partless_lookup (List.forall_mem_append.mpr ⟨partless_facts _ _, ?_⟩) found
      simp [Thing.Partless]
    · exact partless_lookup (by simp [Thing.Partless]) found
    · rename_i origin parameter
      have parameter : parameter.Partless := partless
      exact partless_lookup (by simp [Thing.Partless, parameter]) found
    · cases found

theorem partless_bind {found : Found} (partless : thing.Partless)
    (bound : thing.bind found = some next) : next.Partless := by
  unfold Thing.bind at bound
  split at bound
  · cases bound
    exact partless
  · cases bound
    exact partless
  · cases bound
    trivial
  · exact partless_property? partless bound
  · exact partless_property? partless bound
  · cases bound
    trivial
  · cases bound
    exact partless_entry ..
  · cases bound
    exact partless_entry ..

theorem partless_ofLine (f : Family) (found : Found) : (Thing.ofLine f found).Partless := by
  unfold Thing.ofLine
  split <;> first | trivial | exact partless_entry ..

theorem partless_familyAttribute? {f : Family}
    (found : Thing.familyAttribute? f name = some next) : next.Partless := by
  have family : (Thing.family f).Partless := trivial
  unfold Thing.familyAttribute? at found
  dsimp only at found
  split at found
  · exact partless_bind family found
  · split at found
    · cases found
      exact partless_ofLine ..
    · obtain ⟨general, -, bound⟩ := Option.bind_eq_some_iff.mp found
      exact partless_bind family bound

theorem partless_attribute? (partless : thing.Partless)
    (found : thing.attribute? name = some next) : next.Partless := by
  have bound {feature? : Option Found} (found : feature?.bind thing.bind = some next) :
      next.Partless := by
    obtain ⟨feature, -, bound⟩ := Option.bind_eq_some_iff.mp found
    exact partless_bind partless bound
  unfold Thing.attribute? at found
  split at found
  · exact partless_familyAttribute? found
  · split at found
    · exact bound found
    · exact partless_familyAttribute? found
  · cases found
  · exact bound found

theorem partless_itemAt {position : Nat} (partless : thing.Partless)
    (found : thing.itemAt position = .ok next) : next.Partless := by
  unfold Thing.itemAt at found
  split at found
  · split at found <;> cases found
    trivial
  · split at found <;> cases found
    trivial
  · exact partless.elim
  · cases found
  · split at found <;> cases found
    exact partless
  · cases found
  · cases found
  · split at found <;> cases found
    trivial
  · cases found

theorem partless_itemUnder {key : List Char} (found : thing.itemUnder key = .ok next) :
    next.Partless := by
  unfold Thing.itemUnder at found
  split at found
  · split at found <;> cases found
    exact partless_entry ..
  · cases found
  · split at found <;> cases found
    trivial
  · cases found

end Partless

theorem fitting_partless : Fitting Fault.OfTemplate Thing.Partless where
  template _ template := template
  text _ := trivial
  feature _ _ _ partless found := partless_attribute? partless found
  itemAt _ _ _ partless found := partless_itemAt partless found
  itemUnder _ _ _ _ found := partless_itemUnder found
  obstacle thing _ partless blocked := by
    cases thing with
    | part => exact partless.elim
    | _ => cases blocked

theorem templated_fill (template name : String) : Templated (fill template (.text name)) :=
  safe_fill fitting_partless template (partless_ofString name)

end Prompt

end LoopLang
