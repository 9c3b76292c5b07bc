import TextHarvest.Harvest.Callee
import TextHarvest.Finding
import TextHarvest.Script.Number
import TextHarvest.Text.Quoted

/-!
# Compiled render functions

A node of compiled render code lists its properties in an object and says which of them are
dynamic: a bit of the patch flag, which is the fourth argument, and the names in the fifth. When the
text of a static property is replaced by a call, both have to be brought up to date.
-/

namespace TextHarvest.Harvest

open Script

/-- The functions that make a node from a tag, properties, children, a flag and dynamic names. -/
def nodeMakers : List String :=
  ["_createVNode", "_createElementVNode", "_createBlock", "_createElementBlock"]

/-- The function that makes a text node. -/
def textMaker : String := "_createTextVNode"

/-- The flag of a node with dynamic text. -/
def textFlag : Nat := 1

/-- The flag of a node with dynamic properties. -/
def propsFlag : Nat := 8

/-- The text of a property name. -/
def propertyName? : Tree → Option String
  | .node (.keyIdent n) _ _ => some n
  | .node (.keyStr value) _ _ => value
  | .node (.keyNum raw) _ _ => some (Number.value raw).text
  | _ => none

/-- An array literal of names. -/
def nameArray (names : List String) (quote : Quote) : String :=
  "[" ++ ", ".intercalate (names.map fun n => Text.quoted n quote) ++ "]"

/-- The edit that adds names to the array of dynamic properties, if any of them is missing. -/
def extendNames (existing : Tree) (names : List String) (quote : Quote) : List Action :=
  match existing with
  | .node .array span elements =>
    let present := elements.filterMap fun e => e.unspread.literal?
    let missing := names.filter fun n => !present.contains n
    if missing.isEmpty then []
    else
      match (elements.filter fun e => e.kind != .hole).getLast? with
      | some last =>
        [.insert last.span.stop (String.join (missing.map fun n => ", " ++ Text.quoted n quote))]
      | none => [.replace span (nameArray missing quote)]
  | t => [.replace t.span (nameArray names quote)]

/-- The flag with the bit for dynamic properties. -/
def withPropsFlag : Tree → Nat
  | .node (.numLit raw) _ _ => (Number.value raw).toWord ||| propsFlag
  | _ => propsFlag

/-- The edits that mark properties as dynamic in the arguments of a node maker; arguments that are
not there are filled up with `null`. -/
def markDynamic (args : List Tree) (names : List String) (quote : Quote) : List Action :=
  match args with
  | [_, props] =>
    [.insert props.span.stop
      (", null, " ++ Nat.repr propsFlag ++ ", " ++ nameArray names quote)]
  | [_, _, children] =>
    [.insert children.span.stop (", " ++ Nat.repr propsFlag ++ ", " ++ nameArray names quote)]
  | _ :: _ :: _ :: flag :: more =>
    let flag := flag.unspread
    let merged : Action := .replace flag.span (Nat.repr (withPropsFlag flag))
    -- without a list the names become one; a list that is there is extended
    match more with
    | [] => [merged, .insert flag.span.stop (", " ++ nameArray names quote)]
    | existing :: _ => merged :: extendNames existing.unspread names quote
  | _ => []

end TextHarvest.Harvest
