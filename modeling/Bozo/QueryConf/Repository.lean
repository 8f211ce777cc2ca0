import Bozo.QueryConf.Text

/-!
# The query repository

A repository is made from the text of a query configuration and from the
queries that are declared.  The lines of the text are grouped under the headers;
the two sets of names are compared; and the parameters in every text are
replaced by their numbers.
-/

namespace Bozo.QueryConf

open Bozo.Peg
open Bozo.Peg.Parser

/-! ## Declarations -/

/-- `parameters_type`: an adapted structure with the names of its members, or a
tuple, whose size is a `std::size_t`. -/
inductive Parameters
  | adapted (members : List (List Char))
  | tuple (size : Nat) (size_lt : size < 2 ^ 64)
  deriving DecidableEq, Repr

/-- A query class: the characters of its name and its parameters. -/
structure Query where
  rawName : List Char
  parameters : Parameters
  deriving DecidableEq, Repr

/-- What is left of characters that are passed as a `const char*`. -/
def cString (chars : List Char) : List Char :=
  chars.takeWhile fun c => !isNul c

/-- `get_query_name`: the name is passed as a `const char*`. -/
def getQueryName (q : Query) : List Char :=
  cString q.rawName

/-- The exceptions of `make_query_repository`. -/
inductive ConfError
  | duplicateDeclaration (rawName : List Char)
  | linesNotParsed
  | expectedComment
  | textNotParsed (name : List Char)
  | duplicateDefinition (name : List Char)
  | notDefined (rawName : List Char)
  | parameterNotFound (rawName name : List Char)
  | notNumeric (rawName name : List Char)
  | greaterThanMaximum (name : List Char) (size : Nat)
  | notDeclared (name : List Char)
  deriving DecidableEq, Repr

/-- The text of an exception. -/
def ConfError.what : ConfError → List Char
  | .duplicateDeclaration rawName =>
      cString ("Duplicate declaration for query: ".toList ++ rawName)
  | .linesNotParsed => "Failed to parse query conf lines".toList
  | .expectedComment => "Failed to parse query conf: expected comment".toList
  | .textNotParsed name => cString ("Failed to parse query text: ".toList ++ name)
  | .duplicateDefinition name => cString ("Duplicate definition for query: ".toList ++ name)
  | .notDefined rawName => cString ("Query is not defined in query conf: ".toList ++ rawName)
  | .parameterNotFound rawName name =>
      cString ("Parameter is not found in query \"".toList ++ rawName ++ "\": ".toList) ++ name
  | .notNumeric rawName name =>
      cString ("Only valid numeric names supported for not adapted query parameters types,".toList ++
        " but query \"".toList ++ rawName ++ "\" has parameter with name: ".toList) ++ name
  | .greaterThanMaximum name size =>
      "Query has numeric parameter greater than maximum: ".toList ++ name ++ " (".toList ++
        (toString size).toList ++ ")".toList
  | .notDeclared name => cString ("Query is not declared: ".toList ++ name)

/-! ## Lines and headers -/

/-- `parsed_query`. -/
structure ParsedQuery where
  name : List Char
  text : List QueryTextElement
  deriving DecidableEq, Repr

inductive StateType
  | initial
  | headerParsed
  deriving DecidableEq, Repr

structure LineVisitor where
  state : StateType
  queries : List ParsedQuery

namespace LineVisitor

def initial : LineVisitor where
  state := .initial
  queries := []

/-- `line_visitor::parse_header`. -/
def parseHeader (v : LineVisitor) (comment : List Char) : LineVisitor :=
  match header.phraseParse isNul comment with
  | some name => { state := .headerParsed, queries := v.queries ++ [⟨name, []⟩] }
  | none => v

/-- `queries.back()`; nothing is done to no queries. -/
def appendText (elements : List QueryTextElement) : List ParsedQuery → List ParsedQuery
  | [] => []
  | [query] => [{ query with text := query.text ++ elements }]
  | query :: queries => query :: appendText elements queries

/-- `line_visitor::parse_text`. -/
def parseText (v : LineVisitor) (value : List Char) : Except ConfError LineVisitor :=
  match text.phraseParse isNul value with
  | none => .error (.textNotParsed ((v.queries.getLast?.map ParsedQuery.name).getD []))
  | some elements => .ok { v with queries := appendText elements v.queries }

/-- `line_visitor::operator()`. -/
def visit (v : LineVisitor) : QueryLine → Except ConfError LineVisitor
  | .comment value => .ok (v.parseHeader value)
  | .text value =>
      match v.state with
      | .initial => .error .expectedComment
      | .headerParsed => v.parseText value

/-- The visitor is applied to one line after another. -/
def visitAll (v : LineVisitor) : List QueryLine → Except ConfError LineVisitor
  | [] => .ok v
  | line :: lines => (v.visit line).bind fun next => next.visitAll lines

end LineVisitor

/-- `parse_query_conf_lines`. -/
def parseQueryConfLines (text : List Char) : Except ConfError (List QueryLine) :=
  match conf.phraseParse isNul text with
  | some lines => .ok lines
  | none => .error .linesNotParsed

/-- `parse_query_conf_elements`. -/
def parseQueryConfElements (lines : List QueryLine) : Except ConfError (List ParsedQuery) :=
  (LineVisitor.initial.visitAll lines).map LineVisitor.queries

/-- `parse_query_conf`. -/
def parseQueryConf (text : List Char) : Except ConfError (List ParsedQuery) :=
  (parseQueryConfLines text).bind parseQueryConfElements

/-! ## Names -/

/-- Insert names into a set; a name that is there already is an error. -/
def insertNames (error : List Char → ConfError) (set : List (List Char)) :
    List (List Char) → Except ConfError (List (List Char))
  | [] => .ok set
  | name :: names =>
      if name ∈ set then .error (error name) else insertNames error (set ++ [name]) names

/-- `check_for_duplicates` of the declarations. -/
def checkForDuplicateDeclarations (queries : List Query) : Except ConfError (List (List Char)) :=
  insertNames .duplicateDeclaration [] (queries.map Query.rawName)

/-- `check_for_duplicates` of the definitions. -/
def checkForDuplicateDefinitions (parsed : List ParsedQuery) :
    Except ConfError (List (List Char)) :=
  insertNames .duplicateDefinition [] (parsed.map ParsedQuery.name)

/-- `check_for_undefined`. -/
def checkForUndefined (definitions : List (List Char)) : List Query → Except ConfError Unit
  | [] => .ok ()
  | query :: queries =>
      if getQueryName query ∈ definitions then
        checkForUndefined definitions queries
      else
        .error (.notDefined query.rawName)

/-! ## Parameters -/

/-- One step of the loop over the names of the members: whether one was found,
and its number. -/
def memberStep (name : List Char) : Bool × Nat → List Char → Bool × Nat
  | (found, number), key =>
      if key = name then
        (true, number)
      else if !found then
        (found, number + 1)
      else
        (found, number)

def findMember (name : List Char) (members : List (List Char)) : Bool × Nat :=
  members.foldl (memberStep name) (false, 0)

def isDigit (c : Char) : Bool :=
  '0' ≤ c && c ≤ '9'

/-- The number that digits stand for. -/
def decimal (digits : List Char) : Nat :=
  digits.foldl (fun number c => 10 * number + (c.toNat - '0'.toNat)) 0

/-- `try_lexical_convert` from characters of a parameter name, which have no
sign, to `std::size_t`. -/
def tryLexicalConvert (name : List Char) : Option Nat :=
  if name ≠ [] ∧ name.all isDigit ∧ decimal name < 2 ^ 64 then some (decimal name) else none

/-- The number of a parameter, from 0. -/
def Query.parameterNumber (q : Query) (name : List Char) : Except ConfError Nat :=
  match q.parameters with
  | .adapted members =>
      match findMember name members with
      | (true, number) => .ok number
      | (false, _) => .error (.parameterNotFound q.rawName name)
  | .tuple size _ =>
      match tryLexicalConvert name with
      | none => .error (.notNumeric q.rawName name)
      | some number =>
          if number ≥ size then .error (.greaterThanMaximum name size) else .ok number

/-- The placeholder of the parameter with a number, from 0. -/
def placeholder (number : Nat) : List Char :=
  '$' :: (toString (number + 1)).toList

/-- `query_part_visitor::operator()`: what is appended to the text. -/
def Query.visitPart (q : Query) : QueryTextElement → Except ConfError (List Char)
  | .textPart value => .ok value
  | .parameterName name => (q.parameterNumber name).map placeholder

/-! ## Descriptions -/

/-- `boost::trim`. -/
def trim (text : List Char) : List Char :=
  ((text.dropWhile isSpace).reverse.dropWhile isSpace).reverse

/-- `query_description`. -/
structure QueryDescription where
  name : List Char
  text : List Char
  deriving DecidableEq, Repr

/-- The visitor is applied to one element after another. -/
def Query.visitParts (q : Query) (text : List Char) :
    List QueryTextElement → Except ConfError (List Char)
  | [] => .ok text
  | part :: parts => (q.visitPart part).bind fun value => q.visitParts (text ++ value) parts

/-- `make_query_description` of one query. -/
def Query.makeQueryDescription (q : Query) (parsed : ParsedQuery) :
    Except ConfError QueryDescription :=
  (q.visitParts [] parsed.text).map fun text => ⟨parsed.name, trim text⟩

/-- The loop over all queries: the last one with the name counts. -/
def describe (parsed : ParsedQuery) (found : Option QueryDescription) :
    List Query → Except ConfError (Option QueryDescription)
  | [] => .ok found
  | query :: queries =>
      if getQueryName query = parsed.name then
        (query.makeQueryDescription parsed).bind fun description =>
          describe parsed (some description) queries
      else
        describe parsed found queries

/-- `make_query_description` of a tuple of queries. -/
def makeQueryDescription (queries : List Query) (parsed : ParsedQuery) :
    Except ConfError QueryDescription :=
  (describe parsed none queries).bind fun
    | some description => .ok description
    | none => .error (.notDeclared parsed.name)

/-- `make_query_descriptions`. -/
def makeQueryDescriptions (queries : List Query) :
    List ParsedQuery → Except ConfError (List QueryDescription)
  | [] => .ok []
  | parsed :: others =>
      (makeQueryDescription queries parsed).bind fun description =>
        (makeQueryDescriptions queries others).map (description :: ·)

/-- `query_conf`: the descriptions by name.  A name that is there already is not
inserted again. -/
structure Repository where
  descriptions : List QueryDescription
  deriving DecidableEq, Repr

/-- `query_repository::get_description`. -/
def Repository.getDescription (r : Repository) (q : Query) : Option (List Char) :=
  (r.descriptions.find? fun description => description.name = getQueryName q).map
    QueryDescription.text

/-- `make_query_repository`. -/
def makeQueryRepository (text : List Char) (queries : List Query) : Except ConfError Repository :=
  (checkForDuplicateDeclarations queries).bind fun _ =>
    (parseQueryConf text).bind fun parsed =>
      (checkForDuplicateDefinitions parsed).bind fun definitions =>
        (checkForUndefined definitions queries).bind fun _ =>
          (makeQueryDescriptions queries parsed).map Repository.mk

end Bozo.QueryConf
