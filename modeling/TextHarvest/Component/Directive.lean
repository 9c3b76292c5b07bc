import TextHarvest.Text.Offset

/-!
# Directives

An attribute of a template may be a directive, whose value is an expression: `v-name:argument` or
one of the shorthands `:argument`, `.argument`, `@argument` and `#argument`.
-/

namespace TextHarvest.Component

/-- A directive with its argument. -/
structure Directive where
  name : String
  argument : Option String
  deriving DecidableEq, Repr

namespace Directive

/-- The argument without its modifiers; an empty one counts as none. -/
def argumentOf (rest : List Char) : Option String :=
  match rest.takeWhile (· != '.') with
  | [] => none
  | cs => some (String.ofList cs)

/-- The directive that an attribute name spells. -/
def ofName? (name : String) : Option Directive :=
  match name.toList with
  | ':' :: rest => some ⟨"bind", argumentOf rest⟩
  | '.' :: rest => some ⟨"bind", argumentOf rest⟩
  | '@' :: rest => some ⟨"on", argumentOf rest⟩
  | '#' :: rest => some ⟨"slot", argumentOf rest⟩
  | 'v' :: '-' :: body =>
    let isEnd (c : Char) := c == ':' || c == '.'
    let argument := match body.dropWhile (!isEnd ·) with
      | ':' :: rest => argumentOf rest
      | _ => none
    some ⟨String.ofList (body.takeWhile (!isEnd ·)), argument⟩
  | _ => none

end Directive

end TextHarvest.Component
