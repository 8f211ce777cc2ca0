import Bozo.QueryConf.Checks

/-!
# The layout of a query configuration

The lines of a configuration are those before the first header and the blocks,
each of which is a header and the lines up to the next one.  The line visitor
makes one parsed query of every block.
-/

namespace Bozo.QueryConf

open Bozo.Peg
open Bozo.Peg.Parser

/-- A header, the name in it, and the lines up to the next header. -/
structure Block where
  header : List Char
  name : List Char
  body : List (List Char)
  deriving DecidableEq, Repr

def Block.lines (block : Block) : List (List Char) :=
  block.header :: block.body

structure Layout where
  before : List (List Char)
  blocks : List Block
  deriving DecidableEq, Repr

def Layout.lines (layout : Layout) : List (List Char) :=
  layout.before ++ layout.blocks.flatMap Block.lines

/-- Lines none of which is a header. -/
def NoHeaders (lines : List (List Char)) : Prop :=
  ∀ line ∈ lines, ∀ name, ¬ IsHeader line name

/-- Blocks begin with their headers, and have no others. -/
structure Block.IsBlock (block : Block) : Prop where
  header : IsHeader block.header block.name
  body : NoHeaders block.body

/-- The layout of given lines. -/
structure Layout.IsOf (layout : Layout) (lines : List (List Char)) : Prop where
  lines_eq : layout.lines = lines
  before : NoHeaders layout.before
  blocks : ∀ block ∈ layout.blocks, block.IsBlock

/-- The layout of a text. -/
def Layout.Of (layout : Layout) (text : List Char) : Prop :=
  ∃ lines, Lines text lines ∧ layout.IsOf lines

theorem not_isHeader_of_run {line : List Char} (failed : header.run line = none) (name : List Char) :
    ¬ IsHeader line name := by
  intro isHeader
  cases failed.symm.trans (run_header_eq_some_iff.mpr ⟨isHeader, rfl⟩)

theorem exists_layout_of_lines (lines : List (List Char)) :
    ∃ layout : Layout, layout.IsOf lines := by
  induction lines with
  | nil => exact ⟨⟨[], []⟩, rfl, nofun, nofun⟩
  | cons line lines ih =>
      rcases ih with ⟨⟨before, blocks⟩, same, noHeaders, all⟩
      cases parsed : header.run line with
      | none =>
          -- The line joins those before the first header.
          refine ⟨⟨line :: before, blocks⟩, congrArg (List.cons line) same, ?_, all⟩
          exact List.forall_mem_cons.mpr ⟨not_isHeader_of_run parsed, noHeaders⟩
      | some result =>
          -- The lines before the first header become those of this one.
          rcases result with ⟨name, rest⟩
          have isHeader := (run_header_eq_some_iff.mp parsed).1
          refine ⟨⟨[], ⟨line, name, before⟩ :: blocks⟩, ?_, nofun, ?_⟩
          · exact congrArg (List.cons line) same
          · exact List.forall_mem_cons.mpr ⟨⟨isHeader, noHeaders⟩, all⟩

/-- Every text has a layout. -/
theorem exists_layout (text : List Char) : ∃ layout : Layout, layout.Of text := by
  rcases exists_lines text with ⟨lines, split⟩
  rcases exists_layout_of_lines lines with ⟨layout, isOf⟩
  exact ⟨layout, lines, split, isOf⟩

/-! ## One line -/

/-- Characters none of which is NUL. -/
def NulFree (chars : List Char) : Prop :=
  ∀ c ∈ chars, isNul c = false

theorem nulFree_iff {chars : List Char} : (chars.all fun c => !isNul c) = true ↔ NulFree chars := by
  rw [List.all_eq_true]
  exact forall₂_congr fun c _ => Bool.not_eq_eq_eq_not

instance : DecidablePred NulFree := fun _ =>
  decidable_of_iff _ nulFree_iff

theorem IsHeader.isComment {line name : List Char} (isHeader : IsHeader line name) :
    isComment line = true := by
  rcases isHeader with ⟨before, between, behind, ending, rfl, -⟩
  rfl

theorem phraseParse_header_eq_some_iff {line name : List Char} (nulFree : NulFree line) :
    header.phraseParse isNul line = some name ↔ IsHeader line name := by
  rw [phraseParse_eq _ nulFree, Option.map_eq_some_iff]
  constructor
  · rintro ⟨⟨_, rest⟩, parsed, rfl⟩
    exact (run_header_eq_some_iff.mp parsed).1
  · intro isHeader
    exact ⟨(name, []), run_header_eq_some_iff.mpr ⟨isHeader, rfl⟩, rfl⟩

/-- The elements of a text line. -/
def LineText (line : List Char) (elements : List QueryTextElement) : Prop :=
  text.run line = some (elements, [])

theorem phraseParse_text_eq_some_iff {line : List Char} {elements : List QueryTextElement}
    (nulFree : NulFree line) :
    text.phraseParse isNul line = some elements ↔ LineText line elements := by
  rw [phraseParse_eq _ nulFree, Option.map_eq_some_iff]
  constructor
  · rintro ⟨⟨_, rest⟩, parsed, rfl⟩
    rcases run_text_eq_some_iff.mp parsed with ⟨star, rfl⟩
    exact parsed
  · intro parsed
    exact ⟨(elements, []), parsed, rfl⟩

namespace LineVisitor

variable {v next : LineVisitor} {line name : List Char}

theorem visit_header (nulFree : NulFree line) (isHeader : IsHeader line name) :
    v.visit (queryLine line) = .ok ⟨.headerParsed, v.queries ++ [⟨name, []⟩]⟩ := by
  have parsed := (phraseParse_header_eq_some_iff nulFree).mpr isHeader
  rw [queryLine, if_pos isHeader.isComment, visit, parseHeader, parsed]

theorem visit_comment (nulFree : NulFree line) (noHeader : ∀ name, ¬ IsHeader line name)
    (comment : isComment line = true) : v.visit (queryLine line) = .ok v := by
  have parsed : header.phraseParse isNul line = none := by
    cases found : header.phraseParse isNul line with
    | none => rfl
    | some name => exact absurd ((phraseParse_header_eq_some_iff nulFree).mp found) (noHeader name)
  rw [queryLine, if_pos comment, visit, parseHeader, parsed]

theorem visit_text (isText : isComment line = false) :
    v.visit (queryLine line) = v.visit (.text line) := by
  rw [queryLine, if_neg (Bool.eq_false_iff.mp isText)]

theorem appendText_append (elements : List QueryTextElement) (done : List ParsedQuery)
    (query : ParsedQuery) :
    appendText elements (done ++ [query]) =
      done ++ [{ query with text := query.text ++ elements }] := by
  induction done with
  | nil => rfl
  | cons first done ih =>
      cases done with
      | nil => rfl
      | cons second done => exact congrArg (List.cons first) ih

/-- A text line adds its elements to the query of the last header. -/
theorem visit_text_eq_ok_iff {done : List ParsedQuery} {query : ParsedQuery}
    (nulFree : NulFree line) :
    (LineVisitor.mk .headerParsed (done ++ [query])).visit (.text line) = .ok next ↔
      ∃ elements, LineText line elements ∧
        next = ⟨.headerParsed, done ++ [{ query with text := query.text ++ elements }]⟩ := by
  have visits : (LineVisitor.mk .headerParsed (done ++ [query])).visit (.text line) =
      (LineVisitor.mk .headerParsed (done ++ [query])).parseText line := rfl
  rw [visits, parseText]
  cases found : text.phraseParse isNul line with
  | none =>
      constructor
      · nofun
      · rintro ⟨elements, parsed, -⟩
        cases found.symm.trans ((phraseParse_text_eq_some_iff nulFree).mpr parsed)
  | some elements =>
      have parsed := (phraseParse_text_eq_some_iff nulFree).mp found
      simp only [appendText_append]
      constructor
      · rintro ⟨⟩
        exact ⟨elements, parsed, rfl⟩
      · rintro ⟨others, parsedOthers, rfl⟩
        cases parsed.symm.trans parsedOthers
        rfl

end LineVisitor

/-! ## Many lines -/

/-- The text of lines: that of the text lines, one after another.  Comments are
dropped. -/
inductive BodyText (lineText : List Char → List QueryTextElement → Prop) :
    List (List Char) → List QueryTextElement → Prop
  | nil : BodyText lineText [] []
  | comment {line : List Char} {lines : List (List Char)} {elements : List QueryTextElement} :
      isComment line = true → BodyText lineText lines elements →
        BodyText lineText (line :: lines) elements
  | text {line : List Char} {lines : List (List Char)} {first elements : List QueryTextElement} :
      isComment line = false → lineText line first → BodyText lineText lines elements →
        BodyText lineText (line :: lines) (first ++ elements)

namespace LineVisitor

variable {v next : LineVisitor}

theorem visitAll_append (v : LineVisitor) (first second : List QueryLine) :
    v.visitAll (first ++ second) = (v.visitAll first).bind (·.visitAll second) := by
  induction first generalizing v with
  | nil => rfl
  | cons line first ih =>
      rw [List.cons_append, visitAll, visitAll]
      cases v.visit line with
      | error e => rfl
      | ok next => exact ih next

/-- Before the first header there may be comments only. -/
theorem visitAll_before {lines : List (List Char)} (nulFree : ∀ line ∈ lines, NulFree line)
    (noHeaders : NoHeaders lines) :
    initial.visitAll (lines.map queryLine) = .ok next ↔
      (∀ line ∈ lines, isComment line = true) ∧ next = initial := by
  induction lines with
  | nil =>
      constructor
      · rintro ⟨⟩
        exact ⟨nofun, rfl⟩
      · rintro ⟨-, rfl⟩
        rfl
  | cons line lines ih =>
      rw [List.forall_mem_cons] at nulFree
      rcases List.forall_mem_cons.mp noHeaders with ⟨noHeader, noHeaders⟩
      rw [List.map_cons, visitAll, List.forall_mem_cons]
      cases comment : isComment line with
      | true =>
          rw [visit_comment nulFree.1 noHeader comment, and_iff_right rfl]
          exact ih nulFree.2 noHeaders
      | false =>
          rw [visit_text comment]
          constructor
          · nofun
          · rintro ⟨⟨isComment, -⟩, -⟩
            cases isComment

/-- The lines behind a header add their text to its query. -/
theorem visitAll_body {body : List (List Char)} {done : List ParsedQuery} {query : ParsedQuery}
    (nulFree : ∀ line ∈ body, NulFree line) (noHeaders : NoHeaders body) :
    (LineVisitor.mk .headerParsed (done ++ [query])).visitAll (body.map queryLine) = .ok next ↔
      ∃ elements, BodyText LineText body elements ∧
        next = ⟨.headerParsed, done ++ [{ query with text := query.text ++ elements }]⟩ := by
  induction body generalizing query with
  | nil =>
      constructor
      · rintro ⟨⟩
        refine ⟨[], .nil, ?_⟩
        rw [List.append_nil]
      · rintro ⟨_, ⟨⟩, rfl⟩
        rw [List.append_nil]
        rfl
  | cons line body ih =>
      rw [List.forall_mem_cons] at nulFree
      rcases List.forall_mem_cons.mp noHeaders with ⟨noHeader, noHeaders⟩
      rw [List.map_cons, visitAll]
      cases comment : isComment line with
      | true =>
          rw [visit_comment nulFree.1 noHeader comment]
          apply (ih nulFree.2 noHeaders).trans
          constructor
          · rintro ⟨elements, behind, same⟩
            exact ⟨elements, .comment comment behind, same⟩
          · rintro ⟨elements, all, same⟩
            cases all with
            | comment _ behind => exact ⟨elements, behind, same⟩
            | text isText => cases comment.symm.trans isText
      | false =>
          rw [visit_text comment, bind_eq_ok_iff]
          constructor
          · rintro ⟨_, first, others⟩
            rcases (visit_text_eq_ok_iff nulFree.1).mp first with ⟨elements, parsed, rfl⟩
            rcases (ih nulFree.2 noHeaders).mp others with ⟨rest, behind, rfl⟩
            refine ⟨elements ++ rest, .text comment parsed behind, ?_⟩
            rw [List.append_assoc]
          · rintro ⟨_, all, rfl⟩
            cases all with
            | comment isComment => cases comment.symm.trans isComment
            | @text _ _ elements rest _ parsed behind =>
                refine ⟨_, (visit_text_eq_ok_iff nulFree.1).mpr ⟨elements, parsed, rfl⟩, ?_⟩
                refine (ih nulFree.2 noHeaders).mpr ⟨rest, behind, ?_⟩
                rw [List.append_assoc]

end LineVisitor

/-- A block as it is parsed. -/
structure Block.ParsedAs (block : Block) (parsed : ParsedQuery) : Prop where
  name : parsed.name = block.name
  text : BodyText LineText block.body parsed.text

/-- Every block becomes a query. -/
theorem LineVisitor.visitAll_blocks {blocks : List Block} {v : LineVisitor}
    {result : List ParsedQuery} (nulFree : ∀ block ∈ blocks, ∀ line ∈ block.lines, NulFree line)
    (all : ∀ block ∈ blocks, block.IsBlock) :
    (v.visitAll ((blocks.flatMap Block.lines).map queryLine)).map LineVisitor.queries =
        .ok result ↔
      ∃ parsed, List.Forall₂ Block.ParsedAs blocks parsed ∧ result = v.queries ++ parsed := by
  induction blocks generalizing v with
  | nil =>
      constructor
      · rintro ⟨⟩
        exact ⟨[], .nil, (List.append_nil _).symm⟩
      · rintro ⟨_, ⟨⟩, rfl⟩
        exact congrArg Except.ok (List.append_nil v.queries).symm
  | cons block blocks ih =>
      rcases List.forall_mem_cons.mp all with ⟨isBlock, all⟩
      rcases List.forall_mem_cons.mp nulFree with ⟨here, nulFree⟩
      rcases List.forall_mem_cons.mp here with ⟨headerFree, bodyFree⟩
      -- The header and the body, from any state of the visitor.
      have visits : ∀ next, v.visitAll (block.lines.map queryLine) = .ok next ↔
          ∃ elements, BodyText LineText block.body elements ∧
            next = ⟨.headerParsed, v.queries ++ [⟨block.name, elements⟩]⟩ := by
        intro next
        rw [Block.lines, List.map_cons, visitAll, visit_header headerFree isBlock.header]
        exact visitAll_body bodyFree isBlock.body
      rw [List.flatMap_cons, List.map_append, visitAll_append, map_eq_ok_iff]
      constructor
      · rintro ⟨last, visited, rfl⟩
        rcases bind_eq_ok_iff.mp visited with ⟨next, first, others⟩
        rcases (visits next).mp first with ⟨elements, text, rfl⟩
        rcases (ih nulFree all).mp (map_eq_ok_iff.mpr ⟨last, others, rfl⟩) with
          ⟨parsed, behind, same⟩
        refine ⟨⟨block.name, elements⟩ :: parsed, .cons ⟨rfl, text⟩ behind, ?_⟩
        rw [same, List.append_assoc]
        rfl
      · rintro ⟨_, parsed, rfl⟩
        cases parsed with
        | @cons _ query _ parsed first behind =>
            have here := (visits _).mpr ⟨query.text, first.text, rfl⟩
            rw [← first.name] at here
            have same : v.queries ++ query :: parsed = v.queries ++ [query] ++ parsed := by
              rw [List.append_assoc, List.singleton_append]
            have others := (ih (v := ⟨.headerParsed, v.queries ++ [query]⟩) nulFree all).mpr
              ⟨parsed, behind, same⟩
            rcases map_eq_ok_iff.mp others with ⟨last, others, queries⟩
            exact ⟨last, bind_eq_ok_iff.mpr ⟨_, here, others⟩, queries⟩

/-- The lines of a text without NUL characters have none. -/
theorem Lines.nulFree {text : List Char} {lines : List (List Char)} (split : Lines text lines)
    (nulFree : NulFree text) : ∀ line ∈ lines, NulFree line := by
  intro line member c inLine
  apply nulFree c
  rw [← split.flatten]
  exact List.mem_flatten_of_mem member inLine

/-- What a text with a given layout is parsed into. -/
theorem Layout.Of.parseQueryConf_eq_ok_iff {layout : Layout} {text : List Char}
    {parsed : List ParsedQuery} (isOf : layout.Of text) (nulFree : NulFree text) :
    parseQueryConf text = .ok parsed ↔
      (∀ line ∈ layout.before, isComment line = true) ∧
        List.Forall₂ Block.ParsedAs layout.blocks parsed := by
  rcases isOf with ⟨lines, split, rfl, noHeaders, all⟩
  have linesFree := split.nulFree nulFree
  have beforeFree : ∀ line ∈ layout.before, NulFree line := fun line member =>
    linesFree line (List.mem_append_left _ member)
  have blocksFree : ∀ block ∈ layout.blocks, ∀ line ∈ block.lines, NulFree line :=
    fun block member line inBlock =>
      linesFree line (List.mem_append_right _ (List.mem_flatMap_of_mem member inBlock))
  have parsedLines : parseQueryConfLines text = .ok (layout.lines.map queryLine) := by
    rw [parseQueryConfLines, phraseParse_eq _ nulFree, run_conf split]
    rfl
  rw [parseQueryConf, parsedLines]
  change (LineVisitor.initial.visitAll (layout.lines.map queryLine)).map LineVisitor.queries =
    .ok parsed ↔ _
  rw [Layout.lines, List.map_append, LineVisitor.visitAll_append, map_eq_ok_iff]
  constructor
  · rintro ⟨last, visited, rfl⟩
    rcases bind_eq_ok_iff.mp visited with ⟨next, first, others⟩
    rcases (LineVisitor.visitAll_before beforeFree noHeaders).mp first with ⟨comments, rfl⟩
    rcases (LineVisitor.visitAll_blocks blocksFree all).mp
      (map_eq_ok_iff.mpr ⟨last, others, rfl⟩) with ⟨found, blocks, same⟩
    rw [same]
    exact ⟨comments, blocks⟩
  · rintro ⟨comments, blocks⟩
    have first := (LineVisitor.visitAll_before beforeFree noHeaders).mpr ⟨comments, rfl⟩
    rcases map_eq_ok_iff.mp ((LineVisitor.visitAll_blocks (v := .initial) blocksFree all).mpr
      ⟨parsed, blocks, rfl⟩) with ⟨last, others, same⟩
    exact ⟨last, bind_eq_ok_iff.mpr ⟨_, first, others⟩, same⟩

end Bozo.QueryConf
