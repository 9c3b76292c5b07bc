import TextHarvest.Text.Offset

/-!
# Syntax trees of scripts

A script is a tree of nodes. A node has a kind, which carries what is written at the node itself
(a name, an operator, the value of a literal), the span it takes in the source, and its children.

Children stand in the order in which a walk over the script meets them. That is source order with
four exceptions: the condition of a `do` loop comes before its body; a class lists its decorators,
its members and then what it extends; a class field lists its key, its value and then its
decorators; a function lists its parameters, its decorators and then its body.
-/

namespace TextHarvest.Script

/-- A piece of text of a template literal. `cooked` is its value with escapes decoded, or `none`
when the value is not a text. -/
structure Chunk where
  span : Span
  raw : String
  cooked : Option String
  deriving DecidableEq, Repr

/-- How a member of an object is named in an access. The expression of a computed name is the
second child of the access. -/
inductive MemberName where
  | named (name : String)
  | hidden (name : String)
  | computed
  deriving DecidableEq, Repr

/-- The forms of type-level wrapping around an expression. -/
inductive Ascription where
  | nonNull
  | asType
  | satisfies
  | asConst
  | angle
  | instantiated
  deriving DecidableEq, Repr

/-- The name of a markup element in a script. -/
inductive TagName where
  | plain (name : String) (span : Span)
  | dotted (path : List String)
  | scoped (space name : String)
  deriving DecidableEq, Repr

/-- The name of a markup attribute in a script. -/
inductive AttrName where
  | plain (name : String)
  | scoped (space name : String)
  deriving DecidableEq, Repr

/-- What an import specifier binds. -/
inductive SpecifierForm where
  | whole
  | byDefault
  | named
  deriving DecidableEq, Repr

/-- One binding of an import declaration. -/
structure Specifier where
  form : SpecifierForm
  name : String
  typeOnly : Bool
  span : Span
  deriving DecidableEq, Repr

/-- What an import declaration says. -/
structure ImportClause where
  source : Option String
  typeOnly : Bool
  specifiers : List Specifier
  deriving DecidableEq, Repr

/-- The kinds of nodes. -/
inductive Kind where
  -- names and literals
  | ident (name : String)
  | privateName (name : String)
  | thisRef
  | superRef
  | importRef
  | metaProperty (path : String)
  | nullLit
  | boolLit (value : Bool)
  | strLit (value : Option String)
  | numLit (raw : String)
  | bigLit (raw : String)
  | regexLit (raw : String)
  | hole
  | invalid
  | typeText (text : String)
  -- templates: the children are the substitutions, after the tag of a tagged one
  | template (chunks : List Chunk)
  | tagged (chunks : List Chunk)
  -- compound expressions
  | array
  | object
  | spread
  | paren
  | sequence
  | conditional
  | unary (op : String)
  | update (op : String) (before : Bool)
  | binary (op : String)
  | assign (op : String)
  | await
  | yield (delegate : Bool)
  | call (chained : Bool)
  | construct (withArgs : Bool)
  | member (chained : Bool) (name : MemberName)
  | superMember (name : MemberName)
  | ascribed (form : Ascription)
  | arrow (async : Bool)
  | func (async generator : Bool)
  | funcExpr (name : Option String)
  | classExpr (name : Option String)
  -- members of objects
  | property
  | shorthand (name : String)
  | shorthandInit (name : String)
  | getter
  | setter
  | method
  -- names of members
  | keyIdent (name : String)
  | keyStr (value : Option String)
  | keyNum (raw : String)
  | keyBig (raw : String)
  | keyHidden (name : String)
  | keyComputed
  -- patterns and parameters
  | arrayPattern
  | objectPattern
  | defaulted
  | rest
  | annotated
  | param
  -- members of classes
  | decorator
  | heritage
  | classBody
  | field (isStatic : Bool)
  | classMethod (isStatic : Bool)
  | constructorDef
  | staticBlock
  | indexSignature
  -- markup
  | element (name : TagName)
  | fragment
  | markupText
  | container
  | spreadChild
  | attribute (name : AttrName)
  | spreadAttribute
  | markupString (value : String)
  -- statements
  | block
  | empty
  | debugger
  | exprStmt
  | varDecl (keyword : String)
  | declarator
  | funcDecl (name : String)
  | classDecl (name : String)
  | ifStmt
  | switchStmt
  | switchCase (isDefault : Bool)
  | throwStmt
  | tryStmt
  | catchClause
  | whileLoop
  | doLoop
  | forLoop
  | forIn
  | forOf
  | withStmt
  | returnStmt
  | labeled (label : String)
  | breakStmt (label : Option String)
  | continueStmt (label : Option String)
  -- module items
  | importDecl (clause : ImportClause)
  | exportNamed
  | exportAll
  | exportDecl
  | exportDefault
  | exportAssign
  | exportNamespace
  -- declarations of types
  | interfaceDecl (name : String)
  | signature
  | typeAlias (name : String)
  | enumDecl (name : String)
  | enumMember
  | moduleDecl (name : String)
  | importEquals (name : String)
  -- whole scripts
  | module
  deriving DecidableEq, Repr

/-- A node of a syntax tree. -/
inductive Tree where
  | node (kind : Kind) (span : Span) (children : List Tree)
  deriving Repr

namespace Tree

def kind : Tree → Kind
  | .node k _ _ => k

def span : Tree → Span
  | .node _ s _ => s

def children : Tree → List Tree
  | .node _ _ cs => cs

instance : Inhabited Tree := ⟨.node .invalid ⟨0, 0⟩ []⟩

/-- A node without children. -/
def leaf (kind : Kind) (span : Span) : Tree :=
  .node kind span []

end Tree

end TextHarvest.Script
