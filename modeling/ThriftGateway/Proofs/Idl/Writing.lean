import ThriftGateway.Proofs.Idl.Spelling

/-!
# Writing documents out

`lexemes` writes a document out in the order of the grammar, with no annotations, comments or separators; `throws` is
written only if there are exceptions.  `IsExpressible` says that the grammar has such a document: names are identifiers,
numbers are texts of their terminals, and texts fit into one kind of quotes on one line.  `flat` is the document as it
stands on one line, without descriptions.
-/

namespace ThriftGateway.Idl

/-- The whole text is one of the terminal. -/
def Terminal.IsText (k : Terminal) (text : String) : Prop := k.match? text.toList = some text.toList.length

instance (k : Terminal) (text : String) : Decidable (k.IsText text) := inferInstanceAs (Decidable (_ = _))

/-! ### Types -/

namespace TypeExpr

/-- A type as it is written. -/
def lexemes : TypeExpr → List Lexeme
  | base _ name => [.word .baseType name]
  | named _ reference => [.word .identifier reference]
  | list _ element => [.fixed .kwList, .fixed .lessThan] ++ element.lexemes ++ [.fixed .moreThan]
  | set _ element => [.fixed .kwSet, .fixed .lessThan] ++ element.lexemes ++ [.fixed .moreThan]
  | map _ key value =>
    [.fixed .kwMap, .fixed .lessThan] ++ key.lexemes ++ [.fixed .comma] ++ value.lexemes ++ [.fixed .moreThan]
  | void _ => [.fixed .kwVoid]
  | field _ | declared _ | other _ => []

/-- A type that a field can have. -/
def IsExpressible : TypeExpr → Prop
  | base _ name => name ∈ baseTypeNames
  | named _ reference => IsIdentifier reference
  | list _ element | set _ element => element.IsExpressible
  | map _ key value => key.IsExpressible ∧ value.IsExpressible
  | void _ | field _ | declared _ | other _ => False

instance decidableIsExpressible : (ty : TypeExpr) → Decidable ty.IsExpressible
  | base _ name => inferInstanceAs (Decidable (name ∈ baseTypeNames))
  | named _ reference => inferInstanceAs (Decidable (IsIdentifier reference))
  | list _ element | set _ element => decidableIsExpressible element
  | map _ key value => @instDecidableAnd _ _ (decidableIsExpressible key) (decidableIsExpressible value)
  | void _ | field _ | declared _ | other _ => isFalse id

/-- No value, as the result of a function. -/
def IsVoid : TypeExpr → Prop
  | void _ => True
  | base .. | list .. | set .. | map .. | named .. | field _ | declared _ | other _ => False

instance : (ty : TypeExpr) → Decidable ty.IsVoid
  | void _ => isTrue trivial
  | base .. | list .. | set .. | map .. | named .. | field _ | declared _ | other _ => isFalse id

/-- A type on the first line. -/
def flat : TypeExpr → TypeExpr
  | base _ name => base 1 name
  | named _ reference => named 1 reference
  | list _ element => list 1 element.flat
  | set _ element => set 1 element.flat
  | map _ key value => map 1 key.flat value.flat
  | void _ => void 1
  | field f => field f
  | declared d => declared d
  | other k => other k

end TypeExpr

/-! ### Constants -/

namespace IntLiteral

/-- The terminal of a whole number. -/
def kind (l : IntLiteral) : Terminal := if l.isHex then .hexConstant else .intConstant

/-- A whole number as it is written. -/
def lexemes (l : IntLiteral) : List Lexeme := [.word l.kind l.raw]

/-- The text is one of its terminal. -/
def IsExpressible (l : IntLiteral) : Prop := l.kind.IsText l.raw

/-- A whole number on the first line. -/
def flat (l : IntLiteral) : IntLiteral := { l with line := 1 }

end IntLiteral

namespace ConstValue

mutual
/-- A constant as it is written. -/
def lexemes : ConstValue → List Lexeme
  | int literal => literal.lexemes
  | double _ raw => [.word .doubleConstant raw]
  | text _ value => [.quoted value]
  | bool _ value => [.fixed (if value then .kwTrue else .kwFalse)]
  | named _ reference => [.word .identifier reference]
  | list _ elements => [.fixed .leftBracket] ++ lexemesOfAll elements ++ [.fixed .rightBracket]
  | map _ entries => [.fixed .leftBrace] ++ lexemesOfEntries entries ++ [.fixed .rightBrace]
  | other _ => []

/-- Constants one after the other. -/
def lexemesOfAll : List ConstValue → List Lexeme
  | [] => []
  | v :: vs => v.lexemes ++ lexemesOfAll vs

/-- Entries of a map one after the other. -/
def lexemesOfEntries : List (ConstValue × ConstValue) → List Lexeme
  | [] => []
  | (k, v) :: entries => k.lexemes ++ [.fixed .colon] ++ v.lexemes ++ lexemesOfEntries entries
end

mutual
/-- A constant of the grammar. -/
def IsExpressible : ConstValue → Prop
  | int literal => literal.IsExpressible
  | double _ raw => Terminal.doubleConstant.IsText raw
  | text _ value => IsQuotable value
  | bool _ _ => True
  | named _ reference => IsIdentifier reference
  | list _ elements => AllExpressible elements
  | map _ entries => EntriesExpressible entries
  | other _ => False

/-- Constants of the grammar. -/
def AllExpressible : List ConstValue → Prop
  | [] => True
  | v :: vs => v.IsExpressible ∧ AllExpressible vs

/-- Entries with keys and values of the grammar. -/
def EntriesExpressible : List (ConstValue × ConstValue) → Prop
  | [] => True
  | (k, v) :: entries => (k.IsExpressible ∧ v.IsExpressible) ∧ EntriesExpressible entries
end

mutual
instance decidableIsExpressible : (v : ConstValue) → Decidable v.IsExpressible
  | int literal => inferInstanceAs (Decidable (literal.kind.IsText literal.raw))
  | double _ raw => inferInstanceAs (Decidable (Terminal.doubleConstant.IsText raw))
  | text _ value => inferInstanceAs (Decidable (IsQuotable value))
  | bool _ _ => isTrue trivial
  | named _ reference => inferInstanceAs (Decidable (IsIdentifier reference))
  | list _ elements => decidableAllExpressible elements
  | map _ entries => decidableEntriesExpressible entries
  | other _ => isFalse id

instance decidableAllExpressible : (vs : List ConstValue) → Decidable (AllExpressible vs)
  | [] => isTrue trivial
  | v :: vs => @instDecidableAnd _ _ (decidableIsExpressible v) (decidableAllExpressible vs)

instance decidableEntriesExpressible : (entries : List (ConstValue × ConstValue)) →
    Decidable (EntriesExpressible entries)
  | [] => isTrue trivial
  | (k, v) :: entries =>
    @instDecidableAnd _ _ (@instDecidableAnd _ _ (decidableIsExpressible k) (decidableIsExpressible v))
      (decidableEntriesExpressible entries)
end

mutual
/-- A constant on the first line. -/
def flat : ConstValue → ConstValue
  | int literal => int literal.flat
  | double _ raw => double 1 raw
  | text _ value => text 1 value
  | bool _ value => bool 1 value
  | named _ reference => named 1 reference
  | list _ elements => list 1 (flatAll elements)
  | map _ entries => map 1 (flatEntries entries)
  | other kind => other kind

/-- Constants on the first line. -/
def flatAll : List ConstValue → List ConstValue
  | [] => []
  | v :: vs => v.flat :: flatAll vs

/-- Entries on the first line. -/
def flatEntries : List (ConstValue × ConstValue) → List (ConstValue × ConstValue)
  | [] => []
  | (k, v) :: entries => (k.flat, v.flat) :: flatEntries entries
end

end ConstValue

/-! ### Fields -/

namespace Requiredness

/-- The word of a requiredness. -/
def word : Requiredness → Terminal
  | required => .kwRequired
  | optional => .kwOptional

end Requiredness

namespace Field

/-- A field as it is written. -/
def lexemes (f : Field) : List Lexeme :=
  f.id.elim [] (fun n => [.word .intConstant (Number.decimal n), .fixed .colon]) ++
    f.requiredness.elim [] (fun r => [.fixed r.word]) ++ f.type.lexemes ++ [.word .identifier f.name] ++
    f.default.elim [] (fun v => .fixed .equal :: v.lexemes)

/-- A field of the grammar whose number is not too long. -/
structure IsExpressible (f : Field) : Prop where
  name : IsIdentifier f.name
  id : ∀ n ∈ f.id, (Nat.toDigits 10 n.natAbs).length ≤ Number.digitLimit
  type : f.type.IsExpressible
  default : ∀ v ∈ f.default, v.IsExpressible

instance (f : Field) : Decidable f.IsExpressible :=
  decidable_of_iff (IsIdentifier f.name ∧ (∀ n ∈ f.id, (Nat.toDigits 10 n.natAbs).length ≤ Number.digitLimit) ∧
      f.type.IsExpressible ∧ ∀ v ∈ f.default, v.IsExpressible)
    ⟨fun h => ⟨h.1, h.2.1, h.2.2.1, h.2.2.2⟩, fun h => ⟨h.name, h.id, h.type, h.default⟩⟩

/-- A field on the first line. -/
def flat (f : Field) : Field :=
  { f with line := 1, type := f.type.flat, default := f.default.map ConstValue.flat, description := none }

end Field

/-! ### Declarations -/

namespace Member

/-- A member as it is written. -/
def lexemes (m : Member) : List Lexeme :=
  .word .identifier m.name :: m.initializer.elim [] fun l => .fixed .equal :: l.lexemes

/-- A member of the grammar. -/
structure IsExpressible (m : Member) : Prop where
  name : IsIdentifier m.name
  initializer : ∀ l ∈ m.initializer, l.IsExpressible

instance (m : Member) : Decidable m.IsExpressible :=
  decidable_of_iff (IsIdentifier m.name ∧ ∀ l ∈ m.initializer, l.kind.IsText l.raw)
    ⟨fun h => ⟨h.1, h.2⟩, fun h => ⟨h.name, h.initializer⟩⟩

/-- A member on the first line. -/
def flat (m : Member) : Member :=
  { m with line := 1, initializer := m.initializer.map IntLiteral.flat, description := none }

end Member

/-- The word that a declaration with fields begins with. -/
def StructForm.word : StructForm → Terminal
  | struct => .kwStruct
  | union => .kwUnion
  | exception => .kwException

namespace Declaration

/-- A declaration as it is written. -/
def lexemes : Declaration → List Lexeme
  | struct s =>
    [.fixed s.form.word, .word .identifier s.name, .fixed .leftBrace] ++ s.fields.flatMap Field.lexemes ++
      [.fixed .rightBrace]
  | enumeration e =>
    [.fixed .kwEnum, .word .identifier e.name, .fixed .leftBrace] ++ e.members.flatMap Member.lexemes ++
      [.fixed .rightBrace]
  | typedef t => [.fixed .kwTypedef] ++ t.target.lexemes ++ [.word .identifier t.name]

/-- A declaration of the grammar. -/
def IsExpressible : Declaration → Prop
  | struct s => IsIdentifier s.name ∧ ∀ f ∈ s.fields, f.IsExpressible
  | enumeration e => IsIdentifier e.name ∧ ∀ m ∈ e.members, m.IsExpressible
  | typedef t => IsIdentifier t.name ∧ t.target.IsExpressible

instance : (d : Declaration) → Decidable d.IsExpressible
  | struct s => inferInstanceAs (Decidable (IsIdentifier s.name ∧ ∀ f ∈ s.fields, f.IsExpressible))
  | enumeration e => inferInstanceAs (Decidable (IsIdentifier e.name ∧ ∀ m ∈ e.members, m.IsExpressible))
  | typedef t => inferInstanceAs (Decidable (IsIdentifier t.name ∧ t.target.IsExpressible))

/-- A declaration on the first line. -/
def flat : Declaration → Declaration
  | struct s => struct { s with line := 1, fields := s.fields.map Field.flat, description := none }
  | enumeration e => enumeration { e with line := 1, members := e.members.map Member.flat, description := none }
  | typedef t => typedef { t with line := 1, target := t.target.flat, description := none }

end Declaration

namespace Constant

/-- A named constant as it is written. -/
def lexemes (c : Constant) : List Lexeme :=
  [.fixed .kwConst] ++ c.type.lexemes ++ [.word .identifier c.name, .fixed .equal] ++
    c.value.elim [] ConstValue.lexemes

/-- A named constant of the grammar; it has a value. -/
structure IsExpressible (c : Constant) : Prop where
  name : IsIdentifier c.name
  type : c.type.IsExpressible
  value : ∃ v, c.value = some v ∧ v.IsExpressible

instance (c : Constant) : Decidable c.IsExpressible :=
  decidable_of_iff (IsIdentifier c.name ∧ c.type.IsExpressible ∧ ∃ v ∈ c.value, v.IsExpressible)
    ⟨fun h => ⟨h.1, h.2.1, h.2.2⟩, fun h => ⟨h.name, h.type, h.value⟩⟩

/-- A named constant on the first line. -/
def flat (c : Constant) : Constant :=
  { c with line := 1, type := c.type.flat, value := c.value.map ConstValue.flat, description := none }

end Constant

/-! ### Services -/

namespace Function

/-- A function as it is written. -/
def lexemes (f : Function) : List Lexeme :=
  (if f.oneway then [.fixed .kwOneway] else []) ++ f.result.lexemes ++
    [.word .identifier f.name, .fixed .leftParen] ++ f.arguments.flatMap Field.lexemes ++ [.fixed .rightParen] ++
    if f.throws = [] then []
    else [.fixed .kwThrows, .fixed .leftParen] ++ f.throws.flatMap Field.lexemes ++ [.fixed .rightParen]

/-- A function of the grammar. -/
structure IsExpressible (f : Function) : Prop where
  name : IsIdentifier f.name
  result : f.result.IsExpressible ∨ f.result.IsVoid
  arguments : ∀ a ∈ f.arguments, a.IsExpressible
  throws : ∀ a ∈ f.throws, a.IsExpressible

instance (f : Function) : Decidable f.IsExpressible :=
  decidable_of_iff (IsIdentifier f.name ∧ (f.result.IsExpressible ∨ f.result.IsVoid) ∧
      (∀ a ∈ f.arguments, a.IsExpressible) ∧ ∀ a ∈ f.throws, a.IsExpressible)
    ⟨fun h => ⟨h.1, h.2.1, h.2.2.1, h.2.2.2⟩, fun h => ⟨h.name, h.result, h.arguments, h.throws⟩⟩

/-- A function on the first line. -/
def flat (f : Function) : Function :=
  { f with
    line := 1
    result := f.result.flat
    arguments := f.arguments.map Field.flat
    throws := f.throws.map Field.flat
    description := none }

end Function

namespace Service

/-- A service as it is written. -/
def lexemes (s : Service) : List Lexeme :=
  [.fixed .kwService, .word .identifier s.name] ++
    s.parent.elim [] (fun parent => [.fixed .kwExtends, .word .identifier parent]) ++ [.fixed .leftBrace] ++
    s.functions.flatMap Function.lexemes ++ [.fixed .rightBrace]

/-- A service of the grammar. -/
structure IsExpressible (s : Service) : Prop where
  name : IsIdentifier s.name
  parent : ∀ parent ∈ s.parent, IsIdentifier parent
  functions : ∀ f ∈ s.functions, f.IsExpressible

instance (s : Service) : Decidable s.IsExpressible :=
  decidable_of_iff (IsIdentifier s.name ∧ (∀ parent ∈ s.parent, IsIdentifier parent) ∧
      ∀ f ∈ s.functions, f.IsExpressible)
    ⟨fun h => ⟨h.1, h.2.1, h.2.2⟩, fun h => ⟨h.name, h.parent, h.functions⟩⟩

/-- A service on the first line. -/
def flat (s : Service) : Service :=
  { s with line := 1, functions := s.functions.map Function.flat, description := none }

end Service

/-! ### Documents -/

namespace Statement

/-- A statement as it is written; a namespace is for one language or, with a star, for all. -/
def lexemes : Statement → List Lexeme
  | inclusion _ path => [.fixed .kwInclude, .quoted path]
  | cppInclusion _ path => [.fixed .kwCppInclude, .quoted path]
  | scope _ language name =>
    [.fixed .kwNamespace, if language = "*" then .fixed .star else .word .identifier language,
      .word .identifier name]
  | constant c => c.lexemes
  | declaration d => d.lexemes
  | service s => s.lexemes

/-- A statement of the grammar. -/
def IsExpressible : Statement → Prop
  | inclusion _ path | cppInclusion _ path => IsQuotable path
  | scope _ language name => (language = "*" ∨ IsIdentifier language) ∧ IsIdentifier name
  | constant c => c.IsExpressible
  | declaration d => d.IsExpressible
  | service s => s.IsExpressible

instance : (s : Statement) → Decidable s.IsExpressible
  | inclusion _ path | cppInclusion _ path => inferInstanceAs (Decidable (IsQuotable path))
  | scope _ language name =>
    inferInstanceAs (Decidable ((language = "*" ∨ IsIdentifier language) ∧ IsIdentifier name))
  | constant c => inferInstanceAs (Decidable c.IsExpressible)
  | declaration d => inferInstanceAs (Decidable d.IsExpressible)
  | service s => inferInstanceAs (Decidable s.IsExpressible)

/-- A statement on the first line. -/
def flat : Statement → Statement
  | inclusion _ path => inclusion 1 path
  | cppInclusion _ path => cppInclusion 1 path
  | scope _ language name => scope 1 language name
  | constant c => constant c.flat
  | declaration d => declaration d.flat
  | service s => service s.flat

end Statement

namespace Document

/-- A document as it is written. -/
def lexemes (d : Document) : List Lexeme := d.body.flatMap Statement.lexemes

/-- A document of the grammar. -/
def IsExpressible (d : Document) : Prop := ∀ s ∈ d.body, s.IsExpressible

instance (d : Document) : Decidable d.IsExpressible :=
  inferInstanceAs (Decidable (∀ s ∈ d.body, s.IsExpressible))

/-- A document on the first line, as a text on its own. -/
def flat (d : Document) : Document := { line := 1, body := d.body.map Statement.flat }

end Document

end ThriftGateway.Idl
