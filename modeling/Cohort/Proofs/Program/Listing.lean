import Cohort.Program.Listing
import Cohort.Proofs.Bytecode.Acceptance
import Cohort.Proofs.Calendar.Rfc3339
import Cohort.Proofs.Program.Meaning
import Cohort.Proofs.Script.Expressibility
import Std.Data.String.ToInt

/-!
# Listings are unambiguous

A listing is made of rows, and its text has each of them once if none contains a line feed.  The
rows of a condition tell where it ends, so they are the rows of no other condition.
-/

namespace Cohort

/-- Rows as text, every one of them with a line feed behind it. -/
def unlines (rows : List (List Char)) : List Char :=
  rows.flatMap fun row => row ++ ['\n']

/-- What stands behind a word and a blank. -/
def labelled (label : String) (rest : List Char) : List Char :=
  label.toList ++ ' ' :: rest

namespace Condition

def row (level : Nat) (opcode : Opcode) (operand : List Char) : List Char :=
  List.replicate (2 * level) ' ' ++ labelled opcode.text operand

mutual

/-- The rows that list a condition at a level. -/
def rows (level : Nat) : Condition Timestamp → List (List Char)
  | all children =>
      row level .all (toString children.length).toList :: rowsBelow (level + 1) children
  | test kind value => [row level (.test kind) value.listing.toList]

def rowsBelow (level : Nat) : List (Condition Timestamp) → List (List Char)
  | [] => []
  | child :: siblings => rows level child ++ rowsBelow level siblings

end

theorem rowsBelow_eq_flatMap (level : Nat) (children : List (Condition Timestamp)) :
    rowsBelow level children = children.flatMap (rows level) :=
  eq_flatMap_of_cons rfl (fun _ _ => rfl) children

theorem rows_all (level : Nat) (children : List (Condition Timestamp)) :
    (all children).rows level =
      row level .all (toString children.length).toList :: children.flatMap (rows (level + 1)) := by
  rw [rows, rowsBelow_eq_flatMap]

end Condition

def Parameter.row (parameter : Parameter) : List Char :=
  labelled "param" (labelled parameter.type.text parameter.name.toList)

/-- The rows that list a program. -/
def Program.rows (program : Program) : List (List Char) :=
  labelled "version" (toString program.version.toNat).toList ::
    labelled "name" program.name.toList ::
      (program.parameters.map Parameter.row ++ program.root.rows 0)

/-!
## Text and rows
-/

@[simp]
theorem unlines_cons (row : List Char) (rows : List (List Char)) :
    unlines (row :: rows) = row ++ '\n' :: unlines rows := by
  simp [unlines]

@[simp]
theorem unlines_append (first second : List (List Char)) :
    unlines (first ++ second) = unlines first ++ unlines second :=
  List.flatMap_append

theorem toList_indent (level : Nat) (listing : String) :
    (indent level listing).toList = listing.toList ++ List.replicate (2 * level) ' ' := by
  induction level generalizing listing with
  | zero => simp [indent]
  | succ level inductionHypothesis =>
      have grown : 2 * (level + 1) = 2 + 2 * level := by omega
      rw [indent, inductionHypothesis, grown, List.replicate_add]
      simp

theorem Condition.toList_list (level : Nat) (listing : String) (condition : Condition Timestamp) :
    (condition.list level listing).toList = listing.toList ++ unlines (condition.rows level) := by
  induction condition using Condition.induction generalizing level listing with
  | test kind value => simp [list, rows, row, labelled, unlines, toList_indent]
  | all children inductionHypothesis =>
      have below : ∀ listing, (listBelow (level + 1) listing children).toList =
          listing.toList ++ unlines (children.flatMap (rows (level + 1))) := by
        clear listing
        induction children with
        | nil => simp [listBelow, unlines]
        | cons child siblings siblingsHypothesis =>
            rw [List.forall_mem_cons] at inductionHypothesis
            intro listing
            rw [listBelow, siblingsHypothesis inductionHypothesis.2, inductionHypothesis.1]
            simp
      rw [list, below, rows_all]
      simp [row, labelled, toList_indent]

theorem Program.toList_listing (program : Program) :
    program.listing.toList = unlines program.rows := by
  have parameters : ∀ (listing : String) (parameters : List Parameter),
      (parameters.foldl (fun lines parameter => lines ++ parameter.listing) listing).toList =
        listing.toList ++ unlines (parameters.map Parameter.row) := by
    intro listing parameters
    induction parameters generalizing listing with
    | nil => simp [unlines]
    | cons parameter later inductionHypothesis =>
        rw [List.foldl_cons, inductionHypothesis]
        simp [Parameter.listing, Parameter.row, labelled]
  rw [listing, Condition.toList_list, parameters]
  simp [rows, labelled]

/-!
## Reading rows
-/

theorem append_cons_inj_of_notMem {α : Type} {mark : α} {first second firstRest secondRest : List α}
    (noMark : mark ∉ first) (otherNoMark : mark ∉ second)
    (same : first ++ mark :: firstRest = second ++ mark :: secondRest) :
    first = second ∧ firstRest = secondRest := by
  induction first generalizing second with
  | nil =>
      cases second with
      | nil => simpa using same
      | cons other second =>
          simp only [List.nil_append, List.cons_append, List.cons.injEq] at same
          simp [same.1] at otherNoMark
  | cons head first inductionHypothesis =>
      cases second with
      | nil =>
          simp only [List.nil_append, List.cons_append, List.cons.injEq] at same
          simp [same.1] at noMark
      | cons other second =>
          simp only [List.mem_cons, not_or] at noMark otherNoMark
          simp only [List.cons_append, List.cons.injEq] at same
          rcases inductionHypothesis noMark.2 otherNoMark.2 same.2 with ⟨equal, rests⟩
          exact ⟨by rw [same.1, equal], rests⟩

/-- Rows without line feeds are the only ones of their text. -/
theorem eq_of_unlines_eq {first second : List (List Char)} (noFeed : ∀ row ∈ first, '\n' ∉ row)
    (otherNoFeed : ∀ row ∈ second, '\n' ∉ row) (same : unlines first = unlines second) :
    first = second := by
  induction first generalizing second with
  | nil =>
      cases second with
      | nil => rfl
      | cons row second => simp [unlines] at same
  | cons row first inductionHypothesis =>
      cases second with
      | nil => simp [unlines] at same
      | cons other second =>
          rw [List.forall_mem_cons] at noFeed otherNoFeed
          rw [unlines_cons, unlines_cons] at same
          rcases append_cons_inj_of_notMem noFeed.1 otherNoFeed.1 same with ⟨rows, rests⟩
          rw [rows, inductionHypothesis noFeed.2 otherNoFeed.2 rests]

theorem eq_of_labelled_eq {label : String} {first second : List Char}
    (same : labelled label first = labelled label second) : first = second :=
  List.tail_eq_of_cons_eq (List.append_cancel_left same)

theorem lineFeed_notMem_labelled {label : String} {rest : List Char}
    (noFeed : '\n' ∉ label.toList) (noFeedBehind : '\n' ∉ rest) : '\n' ∉ labelled label rest := by
  simp [labelled, noFeed, noFeedBehind]

theorem ValueType.eq_of_labelled_eq {type other : ValueType} {text otherText : List Char}
    (same : labelled type.text text = labelled other.text otherText) :
    type = other ∧ text = otherText := by
  have noBlank : ∀ type : ValueType, ' ' ∉ type.text.toList := by
    intro type
    cases type <;> decide
  rcases append_cons_inj_of_notMem (noBlank type) (noBlank other) same with ⟨texts, rests⟩
  refine ⟨?_, rests⟩
  cases type <;> cases other <;> first | rfl | exact absurd texts (by decide)

theorem Opcode.eq_of_labelled_eq {opcode other : Opcode} {text otherText : List Char}
    (same : labelled opcode.text text = labelled other.text otherText) :
    opcode = other ∧ text = otherText := by
  have noBlank : ∀ opcode : Opcode, ' ' ∉ opcode.text.toList := by
    intro opcode
    rcases opcode with _ | _ | _ | _ | _ <;> decide
  rcases append_cons_inj_of_notMem (noBlank opcode) (noBlank other) same with ⟨texts, rests⟩
  refine ⟨?_, rests⟩
  rcases opcode with _ | _ | _ | _ | _ <;> rcases other with _ | _ | _ | _ | _ <;>
    first | rfl | exact absurd texts (by decide)

theorem ValueType.lineFeed_notMem_text (type : ValueType) : '\n' ∉ type.text.toList := by
  cases type <;> decide

theorem Opcode.lineFeed_notMem_text (opcode : Opcode) : '\n' ∉ opcode.text.toList := by
  rcases opcode with _ | _ | _ | _ | _ <;> decide

theorem lineFeed_notMem_toDigits (number : Nat) : '\n' ∉ Nat.toDigits 10 number := by
  intro membership
  have digit := Nat.isDigit_of_mem_toDigits (by decide) (by decide) membership
  contradiction

namespace Value

/-- Whether the listing of a value is one row and stands for no other value. -/
def IsListable : Value Timestamp → Prop
  | .reference name => '\n' ∉ name.toList
  | .date moment => moment.isRfc3339 = true
  | .species _ => True

theorem eq_of_listing_eq {first second : Value Timestamp} (listable : first.IsListable)
    (otherListable : second.IsListable) (same : first.listing = second.listing) :
    first = second := by
  have characters := congrArg String.toList same
  cases first <;> cases second <;>
    simp only [listing, String.toList_append, List.append_assoc] at characters <;>
    rcases ValueType.eq_of_labelled_eq characters with ⟨types, texts⟩ <;>
    try contradiction
  case reference.reference name other =>
      rw [String.toList_inj.mp texts]
  case date.date moment other =>
      rw [Timestamp.eq_of_text_eq listable otherListable (String.toList_inj.mp texts)]
  case species.species id other =>
      have numbers : id.toInt = other.toInt := Int.repr_injective (String.toList_inj.mp texts)
      rw [Int32.toInt_inj.mp numbers]

theorem lineFeed_notMem_listing {value : Value Timestamp} (listable : value.IsListable) :
    '\n' ∉ value.listing.toList := by
  cases value with
  | reference name =>
      have noFeed : '\n' ∉ name.toList := listable
      simp [listing, ValueType.lineFeed_notMem_text, noFeed]
  | date moment =>
      simp [listing, ValueType.lineFeed_notMem_text, Timestamp.lineFeed_notMem_text listable]
  | species id =>
      simp only [listing, Int.toString_eq_repr, Int.repr_eq_if]
      split <;> simp [ValueType.lineFeed_notMem_text, lineFeed_notMem_toDigits]

end Value

namespace Condition

def IsListable (condition : Condition Timestamp) : Prop :=
  ∀ leaf ∈ condition.tests, leaf.2.IsListable

theorem row_append_inj {level : Nat} {opcode other : Opcode} {operand otherOperand : List Char}
    (same : row level opcode operand = row level other otherOperand) :
    opcode = other ∧ operand = otherOperand :=
  Opcode.eq_of_labelled_eq (List.append_cancel_left same)

/-- The rows of a condition are followed by those of what is listed after it, and by nothing that
could be a part of the condition. -/
theorem rows_append_inj {level : Nat} {first second : Condition Timestamp}
    {firstRest secondRest : List (List Char)} (listable : first.IsListable)
    (otherListable : second.IsListable)
    (same : first.rows level ++ firstRest = second.rows level ++ secondRest) :
    first = second ∧ firstRest = secondRest := by
  induction first using Condition.induction generalizing level second firstRest secondRest with
  | test kind value =>
      cases second with
      | all children =>
          rw [rows_all] at same
          have opcodes := (row_append_inj (List.cons.inj same).1).1
          contradiction
      | test otherKind otherValue =>
          rcases List.cons.inj same with ⟨rows, rests⟩
          rcases row_append_inj rows with ⟨opcodes, listings⟩
          simp only [IsListable, tests_test, List.forall_mem_singleton] at listable otherListable
          have values := Value.eq_of_listing_eq listable otherListable
            (String.toList_inj.mp listings)
          exact ⟨by rw [Opcode.test.inj opcodes, values], rests⟩
  | all children inductionHypothesis =>
      cases second with
      | test kind value =>
          rw [rows_all] at same
          have opcodes := (row_append_inj (List.cons.inj same).1).1
          contradiction
      | all otherChildren =>
          simp only [rows_all, List.cons_append] at same
          rcases List.cons.inj same with ⟨rows, rests⟩
          have counts : children.length = otherChildren.length :=
            Nat.repr_injective (String.toList_inj.mp (row_append_inj rows).2)
          simp only [IsListable, forall_mem_tests_all_iff] at listable otherListable
          rcases flatMap_append_inj
            (fun child membership other otherMembership _ _ =>
              inductionHypothesis child membership (listable child membership)
                (otherListable other otherMembership))
            counts rests with ⟨equal, later⟩
          exact ⟨by rw [equal], later⟩

theorem lineFeed_notMem_rows {level : Nat} {condition : Condition Timestamp}
    (listable : condition.IsListable) : ∀ row ∈ condition.rows level, '\n' ∉ row := by
  have noFeed : ∀ level opcode operand, '\n' ∉ operand → '\n' ∉ row level opcode operand := by
    intro level opcode operand noFeed
    simp [row, lineFeed_notMem_labelled opcode.lineFeed_notMem_text noFeed]
  induction condition using Condition.induction generalizing level with
  | test kind value =>
      simp only [IsListable, tests_test, List.forall_mem_singleton] at listable
      rw [rows, List.forall_mem_singleton]
      exact noFeed _ _ _ (Value.lineFeed_notMem_listing listable)
  | all children inductionHypothesis =>
      simp only [IsListable, forall_mem_tests_all_iff] at listable
      rw [rows_all, List.forall_mem_cons]
      refine ⟨noFeed _ _ _ (by simp [lineFeed_notMem_toDigits]), ?_⟩
      intro row membership
      rcases List.mem_flatMap.mp membership with ⟨child, inChildren, inChild⟩
      exact inductionHypothesis child inChildren (listable child inChildren) row inChild

end Condition

/-!
## Programs
-/

theorem Parameter.row_inj {first second : Parameter} (same : first.row = second.row) :
    first = second := by
  rcases first with ⟨name, type⟩
  rcases second with ⟨otherName, otherType⟩
  rcases ValueType.eq_of_labelled_eq (eq_of_labelled_eq same) with ⟨types, names⟩
  simp only [Parameter.mk.injEq]
  exact ⟨String.toList_inj.mp names, types⟩

/-- The rows of parameters stop where the first row of a block stands. -/
theorem parameters_inj {first second : List Parameter} {root other : Condition Timestamp}
    (block : root.isBlock = true) (otherBlock : other.isBlock = true)
    (same : first.map Parameter.row ++ root.rows 0 = second.map Parameter.row ++ other.rows 0) :
    first = second ∧ root.rows 0 = other.rows 0 := by
  have noParameter : ∀ (root : Condition Timestamp) (parameter : Parameter) rest,
      root.isBlock = true → root.rows 0 ≠ parameter.row :: rest := by
    intro root parameter rest isBlock
    cases root with
    | test kind value => contradiction
    | all children =>
        rw [Condition.rows_all]
        intro same
        have heads := congrArg List.head? (List.cons.inj same).1
        simp [Condition.row, Parameter.row, labelled, Opcode.text] at heads
  induction first generalizing second with
  | nil =>
      cases second with
      | nil => exact ⟨rfl, same⟩
      | cons parameter second => exact absurd same (noParameter _ _ _ block)
  | cons parameter first inductionHypothesis =>
      cases second with
      | nil => exact absurd same.symm (noParameter _ _ _ otherBlock)
      | cons otherParameter second =>
          rcases List.cons.inj same with ⟨rows, rests⟩
          rcases inductionHypothesis rests with ⟨equal, roots⟩
          exact ⟨by rw [Parameter.row_inj rows, equal], roots⟩

namespace Program

/-- Whether no name of a program contains a line feed. -/
structure NamesInLine (program : Program) : Prop where
  name : '\n' ∉ program.name.toList
  parameters : ∀ parameter ∈ program.parameters, '\n' ∉ parameter.name.toList

variable {limits otherLimits : Limits} {image otherImage : List UInt8}
  {program other : Program}

/-- The values of a loaded program are listable: references are to parameters, and dates are
moments on a tick. -/
theorem isListable_of_load (loaded : load limits image = .ok program)
    (names : program.NamesInLine) : program.root.IsListable := by
  rcases layout_of_load loaded with ⟨-, fits, wellFormed⟩
  rintro ⟨kind, value⟩ membership
  have suits := wellFormed.operands _ membership
  have valueFits := fits.root.values _ membership
  cases value with
  | reference name =>
      rcases suits with ⟨parameter, declared, rfl, -⟩
      exact names.parameters parameter declared
  | date moment => exact Timestamp.OnTick.isRfc3339 valueFits
  | species id => trivial

theorem lineFeed_notMem_rows (names : program.NamesInLine) (listable : program.root.IsListable) :
    ∀ row ∈ program.rows, '\n' ∉ row := by
  have digits : '\n' ∉ (toString program.version.toNat).toList := by
    simp [lineFeed_notMem_toDigits]
  simp only [rows, List.forall_mem_cons, List.forall_mem_append, List.forall_mem_map]
  refine ⟨lineFeed_notMem_labelled (by decide) digits,
    lineFeed_notMem_labelled (by decide) names.name, ?_, ?_⟩
  · intro parameter membership
    have noFeed := names.parameters parameter membership
    exact lineFeed_notMem_labelled (by decide)
      (lineFeed_notMem_labelled parameter.type.lineFeed_notMem_text noFeed)
  · exact Condition.lineFeed_notMem_rows listable

theorem eq_of_rows_eq (listable : program.root.IsListable) (otherListable : other.root.IsListable)
    (block : program.root.isBlock = true) (otherBlock : other.root.isBlock = true)
    (same : program.rows = other.rows) : program = other := by
  rcases program with ⟨version, name, parameters, root⟩
  rcases other with ⟨otherVersion, otherName, otherParameters, otherRoot⟩
  simp only [rows, List.cons.injEq] at same
  rcases same with ⟨versions, names, rest⟩
  rcases parameters_inj block otherBlock rest with ⟨declared, roots⟩
  have numbers : version.toNat = otherVersion.toNat :=
    Nat.repr_injective (String.toList_inj.mp (eq_of_labelled_eq versions))
  have bare := congrArg (· ++ []) roots
  simp only [Program.mk.injEq]
  exact ⟨UInt16.toNat_inj.mp numbers, String.toList_inj.mp (eq_of_labelled_eq names), declared,
    (Condition.rows_append_inj listable otherListable bare).1⟩

/-- A program from source has no line feed in a name. -/
theorem namesInLine_of_ofSource {source : String} (made : ofSource limits source = .ok program) :
    program.NamesInLine := by
  have noFeed : ∀ {name : String}, IsName name → '\n' ∉ name.toList := by
    intro name isName membership
    have blank := isName.word.noBlank _ membership
    contradiction
  rcases ofSource_eq_ok_iff.mp made with ⟨script, image, read, compiled, loaded⟩
  rcases Script.program_of_load_compile compiled loaded with ⟨rfl, -⟩
  have expressible := Script.expressible_of_ofSource read
  refine ⟨noFeed expressible.name, ?_⟩
  rw [Script.program, List.forall_mem_map]
  exact fun declaration membership => noFeed (expressible.parameterNames declaration membership)

/-- No two loaded programs have the same listing, unless a name in one of them contains a line
feed.  A name in a program from source never does. -/
theorem eq_of_load_of_listing_eq :
    (∀ limits otherLimits image otherImage program other,
      load limits image = .ok program → load otherLimits otherImage = .ok other →
      program.NamesInLine → other.NamesInLine → program.listing = other.listing →
      program = other) ∧
    ∀ limits source program, ofSource limits source = .ok program → program.NamesInLine := by
  constructor
  · intro limits otherLimits image otherImage program other loaded otherLoaded names otherNames same
    have listable := isListable_of_load loaded names
    have otherListable := isListable_of_load otherLoaded otherNames
    have block := (layout_of_load loaded).2.2.block
    have otherBlock := (layout_of_load otherLoaded).2.2.block
    have texts := congrArg String.toList same
    rw [toList_listing, toList_listing] at texts
    have rows := eq_of_unlines_eq (lineFeed_notMem_rows names listable)
      (lineFeed_notMem_rows otherNames otherListable) texts
    exact eq_of_rows_eq listable otherListable block otherBlock rows
  · exact fun _ _ _ made => namesInLine_of_ofSource made

/-- A program with names that look like other rows. -/
def lookalikeSample : Program where
  version := 1
  name := "AND 0"
  parameters := [⟨"Int32 1", .int32⟩]
  root := .all [.test .speciesIs (.reference "Int32 1"), .all [.test .bornAfter (.date firstTick)]]

theorem fits_lookalikeSample : lookalikeSample.Fits where
  name := ⟨by simp [lookalikeSample], by decide⟩
  parameterCount := by decide
  parameterNames := by
    simp only [lookalikeSample, List.forall_mem_singleton]
    exact ⟨by simp, by decide⟩
  root := by
    refine ⟨by decide, ?_⟩
    change ∀ leaf ∈ [_, _], _
    simp only [List.forall_mem_cons]
    have onTick : firstTick.OnTick := ⟨rfl, by decide, by decide, by decide⟩
    exact ⟨⟨by simp, by decide⟩, onTick, List.forall_mem_nil _⟩
  body := by decide

theorem wellFormed_lookalikeSample (limits : Limits) (version : 1 ≤ limits.maxVersion)
    (depth : 3 ≤ limits.maxDepth) : lookalikeSample.WellFormed limits where
  version := Script.one_le_min_one_iff.mpr version
  distinctNames := by decide
  noReferenceTypes := by decide
  block := rfl
  depth := depth
  operands := by
    change ∀ leaf ∈ [_, _], _
    simp only [List.forall_mem_cons]
    exact ⟨⟨⟨"Int32 1", .int32⟩, by decide, rfl, rfl⟩, rfl, List.forall_mem_nil _⟩

theorem eq_of_load_lookalikeSample :
    (∃ program other, load ⟨3, 1⟩ lookalikeSample.layout = .ok program ∧
      load .standard lookalikeSample.layout = .ok other ∧ program.NamesInLine ∧
      other.NamesInLine ∧ program.listing = other.listing ∧ program = other) ∧
    ∃ program, ofSource .standard sampleSource = .ok program ∧ program.NamesInLine := by
  constructor
  · have loaded : load ⟨3, 1⟩ lookalikeSample.layout = .ok lookalikeSample :=
      load_layout fits_lookalikeSample (wellFormed_lookalikeSample _ (by decide) (by decide))
    have otherLoaded : load .standard lookalikeSample.layout = .ok lookalikeSample :=
      load_layout fits_lookalikeSample (wellFormed_lookalikeSample _ (by decide) (by decide))
    have names : lookalikeSample.NamesInLine := ⟨by decide, by decide⟩
    exact ⟨_, _, loaded, otherLoaded, names, names, rfl,
      eq_of_load_of_listing_eq.1 _ _ _ _ _ _ loaded otherLoaded names names rfl⟩
  · have accepted : (ofSource .standard sampleSource).toBool = true := by decide +kernel
    cases made : ofSource .standard sampleSource with
    | error problem =>
        rw [made] at accepted
        contradiction
    | ok program => exact ⟨program, rfl, eq_of_load_of_listing_eq.2 _ _ _ made⟩

end Program

end Cohort
