import ThriftGateway.Grammar.Basic
import ThriftGateway.Idl.Terminal

/-!
# The grammar of Thrift documents

`productions` lists, category by category, what a Thrift document consists of.  Repetitions are left-recursive
list categories, and an optional part gives one production with it and one without it, so that only the empty
document is derived from nothing.
-/

namespace ThriftGateway.Idl

open Grammar (Symbol Part Production)

/-- The categories of the grammar. -/
inductive Category where
  | document | statements | inclusion | cppInclusion | scope | definition | constant | typedef | enumeration
  | members | member | struct | union | exception | fields | service | functions | function | throws | field
  | fieldId | requiredness | functionType | voidType | fieldType | named | base | mapType | setType | listType
  | constValue | intConstant | doubleConstant | stringLiteral | boolLiteral | constList | constItems | constMap
  | constEntries | constEntry | annotations | annotationItems | annotationItem | separator
  deriving DecidableEq, Repr

namespace Category

/-- The place of a category in the list of categories. -/
def number (c : Category) : Nat := c.ctorIdx

/-- How many categories there are. -/
def count : Nat := 44

end Category

/-- A symbol of the Thrift grammar. -/
abbrev Piece := Grammar.Symbol Terminal Category

/-- A terminal as a symbol. -/
private def t (k : Terminal) : Piece := .terminal k

/-- A category as a symbol. -/
private def c (k : Category) : Piece := .category k

/-- Symbols that must be there. -/
private def need (ss : List Piece) : Part Terminal Category := .required ss

/-- Symbols that may be left out together. -/
private def maybe (ss : List Piece) : Part Terminal Category := .optional ss

/-- Every right-hand side of a list category: an element alone, or after the elements before it. -/
private def repeated (list : Category) (elements : List (List (Part Terminal Category))) :
    List (List (Part Terminal Category)) :=
  elements ++ elements.map (need [c list] :: ·)

/-- The right-hand sides of a category, with their optional parts. -/
def alternatives : Category → List (List (Part Terminal Category))
  | .document => [[maybe [c .statements]]]
  | .statements => repeated .statements
      [[need [c .inclusion]], [need [c .cppInclusion]], [need [c .scope]], [need [c .definition]]]
  | .inclusion => [[need [t .kwInclude, t .literal]]]
  | .cppInclusion => [[need [t .kwCppInclude, t .literal]]]
  | .scope =>
    [[need [t .kwNamespace, t .star, t .identifier], maybe [c .annotations]],
      [need [t .kwNamespace, t .identifier, t .identifier], maybe [c .annotations]]]
  | .definition =>
    [[need [c .constant]], [need [c .typedef]], [need [c .enumeration]], [need [c .struct]],
      [need [c .union]], [need [c .exception]], [need [c .service]]]
  | .constant =>
    [[need [t .kwConst, c .fieldType, t .identifier, t .equal, c .constValue], maybe [c .separator]]]
  | .typedef =>
    [[need [t .kwTypedef, c .fieldType, t .identifier], maybe [c .annotations], maybe [c .separator]]]
  | .enumeration =>
    [[need [t .kwEnum, t .identifier, t .leftBrace], maybe [c .members], need [t .rightBrace],
      maybe [c .annotations]]]
  | .members => repeated .members [[need [c .member]]]
  | .member =>
    [[need [t .identifier], maybe [t .equal, c .intConstant], maybe [c .annotations], maybe [c .separator]]]
  | .struct => [structLike .kwStruct]
  | .union => [structLike .kwUnion]
  | .exception => [structLike .kwException]
  | .fields => repeated .fields [[need [c .field]]]
  | .service =>
    [[need [t .kwService, t .identifier], maybe [t .kwExtends, t .identifier], need [t .leftBrace],
      maybe [c .functions], need [t .rightBrace], maybe [c .annotations]]]
  | .functions => repeated .functions [[need [c .function]]]
  | .function =>
    [[maybe [t .kwOneway], need [c .functionType, t .identifier, t .leftParen], maybe [c .fields],
      need [t .rightParen], maybe [c .throws], maybe [c .annotations], maybe [c .separator]]]
  | .throws => [[need [t .kwThrows, t .leftParen], maybe [c .fields], need [t .rightParen]]]
  | .field =>
    [[maybe [c .fieldId], maybe [c .requiredness], need [c .fieldType, t .identifier],
      maybe [t .equal, c .constValue], maybe [c .annotations], maybe [c .separator]]]
  | .fieldId => [[need [t .intConstant, t .colon]]]
  | .requiredness => [[need [t .kwRequired]], [need [t .kwOptional]]]
  | .functionType => [[need [c .fieldType]], [need [c .voidType]]]
  | .voidType => [[need [t .kwVoid]]]
  | .fieldType =>
    [[need [c .named]], [need [c .base]], [need [c .mapType]], [need [c .setType]], [need [c .listType]]]
  | .named => [[need [t .identifier]]]
  | .base => [[need [t .baseType]]]
  | .mapType =>
    [[need [t .kwMap, t .lessThan, c .fieldType, t .comma, c .fieldType, t .moreThan]]]
  | .setType => [[need [t .kwSet, t .lessThan, c .fieldType, t .moreThan]]]
  | .listType => [[need [t .kwList, t .lessThan, c .fieldType, t .moreThan]]]
  | .constValue =>
    [[need [c .intConstant]], [need [c .doubleConstant]], [need [c .stringLiteral]], [need [c .boolLiteral]],
      [need [c .named]], [need [c .constList]], [need [c .constMap]]]
  | .intConstant => [[need [t .intConstant]], [need [t .hexConstant]]]
  | .doubleConstant => [[need [t .doubleConstant]]]
  | .stringLiteral => [[need [t .literal]]]
  | .boolLiteral => [[need [t .kwTrue]], [need [t .kwFalse]]]
  | .constList => [[need [t .leftBracket], maybe [c .constItems], need [t .rightBracket]]]
  | .constItems => repeated .constItems [[need [c .constValue], maybe [c .separator]]]
  | .constMap => [[need [t .leftBrace], maybe [c .constEntries], need [t .rightBrace]]]
  | .constEntries => repeated .constEntries [[need [c .constEntry]]]
  | .constEntry => [[need [c .constValue, t .colon, c .constValue], maybe [c .separator]]]
  | .annotations => [[need [t .leftParen], maybe [c .annotationItems], need [t .rightParen]]]
  | .annotationItems => repeated .annotationItems [[need [c .annotationItem]]]
  | .annotationItem => [[need [t .identifier], maybe [t .equal, t .literal], maybe [c .separator]]]
  | .separator => [[need [t .comma]], [need [t .semicolon]]]
where
  /-- A word, a name and fields in braces. -/
  structLike (word : Terminal) : List (Part Terminal Category) :=
    [need [t word, t .identifier, t .leftBrace], maybe [c .fields], need [t .rightBrace],
      maybe [c .annotations]]

/-- All categories. -/
def categories : List Category :=
  [.document, .statements, .inclusion, .cppInclusion, .scope, .definition, .constant, .typedef, .enumeration,
    .members, .member, .struct, .union, .exception, .fields, .service, .functions, .function, .throws, .field,
    .fieldId, .requiredness, .functionType, .voidType, .fieldType, .named, .base, .mapType, .setType, .listType,
    .constValue, .intConstant, .doubleConstant, .stringLiteral, .boolLiteral, .constList, .constItems, .constMap,
    .constEntries, .constEntry, .annotations, .annotationItems, .annotationItem, .separator]

/-- All productions of the grammar. -/
def productions : List (Production Terminal Category) :=
  categories.flatMap fun k =>
    (alternatives k).flatMap fun parts => (Part.expand parts).map fun symbols => ⟨k, symbols⟩

/-- The grammar of Thrift documents. -/
def thrift : Grammar.Grammar Terminal Category where
  productions := productions.toArray
  start := .document
  stop := .stop
  terminalNumber := Terminal.number
  categoryNumber := Category.number
  terminalCount := Terminal.count
  categoryCount := Category.count

end ThriftGateway.Idl
