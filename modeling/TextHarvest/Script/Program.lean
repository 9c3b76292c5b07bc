import TextHarvest.Script.Grammar.Module

/-!
# Scripts and expressions

The two entry points: a whole script, and an expression that stands alone in a template. Offsets
are relative to the text without a leading byte-order mark.
-/

namespace TextHarvest.Script

/-- Why a text is not a script. -/
inductive ParseError where
  /-- The grammar has no place for the token at the offset. -/
  | unexpected (offset : Nat)
  /-- An expression ends at the offset, and more follows. -/
  | trailing (offset : Nat)
  deriving DecidableEq, Repr

namespace ParseError

def offset : ParseError → Nat
  | .unexpected o => o
  | .trailing o => o

def message : ParseError → String
  | .unexpected _ => "syntax error"
  | .trailing _ => "Unexpected trailing input after expression"

end ParseError

/-- The text without a leading byte-order mark. -/
def dropMark : List Char → List Char
  | '\ufeff' :: cs => cs
  | cs => cs

/-- A text that does not start with the mark stays as it is. -/
theorem dropMark_of_head?_ne {cs : List Char} (h : cs.head? ≠ some '\ufeff') :
    dropMark cs = cs := by
  cases cs with
  | nil => rfl
  | cons c cs =>
    rw [dropMark]
    intro rest heq
    cases heq
    exact h rfl

/-- A text without a mark anywhere stays as it is, too. -/
theorem dropMark_of_not_mem {cs : List Char} (h : '\ufeff' ∉ cs) : dropMark cs = cs :=
  dropMark_of_head?_ne fun hhead => h (List.mem_of_head? hhead)

/-- The source after a first line that names an interpreter, and its offset. -/
def afterInterpreter (cs : List Char) : List Char × Nat :=
  match cs with
  | '#' :: '!' :: _ =>
    let line := cs.takeWhile fun c => !isLineBreak c
    (cs.dropWhile fun c => !isLineBreak c, Chars.size line)
  | _ => (cs, 0)

/-- Where parsing starts. -/
def startState (cs : List Char) (pos : Nat) : State :=
  let (lexeme, text, rest) := scan cs pos
  ⟨lexeme, text, rest, pos, cs⟩

/-- A bound that no parse of a text of this length reaches. -/
def fuelFor (cs : List Char) : Nat :=
  16 * cs.length + 64

/-- Parses a whole script. -/
def parseModule (code : String) (dialect : Dialect) : Except ParseError Tree :=
  let cs := dropMark code.toList
  let (body, pos) := afterInterpreter cs
  let fuel := fuelFor cs
  match Grammar.wholeModule (Grammar.parser fuel) { dialect := dialect, bound := fuel }
      (startState body pos) with
  | .ok tree _ => .ok tree
  | .error offset _ => .error (.unexpected offset)

/-- Parses an expression that takes up the whole text. It is typed and holds no markup, and `in` is
no operator outside of its brackets. -/
def parseExpr (code : String) : Except ParseError Tree :=
  let cs := dropMark code.toList
  let fuel := fuelFor cs
  match Grammar.parser fuel .expr { dialect := .ts, bound := fuel, allowIn := false }
      (startState cs 0) with
  | .ok tree _ =>
    let stop := tree.span.stop
    if stop < Chars.size (Chars.trimEnd code.toList) then .error (.trailing stop) else .ok tree
  | .error offset _ => .error (.unexpected offset)

end TextHarvest.Script
