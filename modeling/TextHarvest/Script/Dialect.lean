/-!
# Dialects of scripts

A script is plain or typed, and may hold markup or not. The dialect is chosen by the extension of
a file or by the `lang` attribute of a script block.
-/

namespace TextHarvest.Script

/-- The four flavours of scripts. -/
inductive Dialect where
  | js
  | jsx
  | ts
  | tsx
  deriving DecidableEq, Repr, Inhabited

namespace Dialect

/-- The dialect of a `lang` attribute or a file extension; anything unknown is plain. -/
def ofName : Option String → Dialect
  | none => .js
  | some name =>
    match (name.toList.map Char.toLower) with
    | ['t', 's'] => .ts
    | ['t', 's', 'x'] => .tsx
    | ['j', 's', 'x'] => .jsx
    | _ => .js

/-- Whether types may be written. -/
def typed : Dialect → Bool
  | .ts => true
  | .tsx => true
  | _ => false

/-- Whether markup may be written. -/
def markup : Dialect → Bool
  | .ts => false
  | _ => true

end Dialect

end TextHarvest.Script
