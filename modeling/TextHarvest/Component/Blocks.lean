import TextHarvest.Component.Template

/-!
# Blocks of a component

A single-file component is a sequence of top-level blocks. The first template and the scripts are
kept with their places in the file; other blocks are passed over.
-/

namespace TextHarvest.Component

/-- A block of a component. -/
structure Block where
  content : String
  offset : Nat
  lang : Option String
  setup : Bool
  deriving DecidableEq, Repr

/-- The blocks that hold display texts. -/
structure Blocks where
  template : Option Block := none
  scripts : List Block := []
  deriving DecidableEq, Repr

/-- Why a file cannot be split into blocks. -/
inductive BlockError where
  | tooLarge (size : Nat)
  | tooManyScripts (count : Nat)
  | unclosed (tag : String) (position : Nat)
  deriving DecidableEq, Repr

/-- The largest file that is looked at, in bytes. -/
def maxFileSize : Nat := 10 * 1024 * 1024

/-- The largest number of scripts of one component. -/
def maxScripts : Nat := 2

namespace BlockError

def message : BlockError → String
  | .tooLarge size =>
    "File too large: " ++ Nat.repr size ++ " bytes (max: " ++ Nat.repr maxFileSize ++ " bytes)"
  | .tooManyScripts count =>
    "Too many script blocks: " ++ Nat.repr count ++ " found (max: " ++ Nat.repr maxScripts ++
      " allowed)"
  | .unclosed tag position =>
    "Unclosed <" ++ tag ++ "> block starting at byte " ++ Nat.repr position

def position? : BlockError → Option Nat
  | .unclosed _ position => some position
  | _ => none

end BlockError

/-- Whether the name of a tag ends here. -/
def endsName : List Char → Bool
  | [] => true
  | c :: _ => c == '>' || c == '/' || isSpace c

def templateOpen : List Char := "<template".toList

def templateClose : List Char := "</template".toList

/-- The closing tag of a template with `depth` open ones around the cursor. Templates may stand in
templates. -/
def templateEndFrom : Nat → Nat → Cursor → Option Cursor
  | 0, _, _ => none
  | fuel + 1, depth, c =>
    match c.seek? ['<'] with
    | none => none
    | some c =>
      if c.sees commentOpen then templateEndFrom fuel depth (afterComment c)
      else if c.sees templateClose && endsName (c.rest.drop 10) then
        if depth ≤ 1 then some c else templateEndFrom fuel (depth - 1) c.next
      else if c.sees templateOpen && endsName (c.rest.drop 9) then
        if (tagEnd? c).any isSelfClosing then templateEndFrom fuel depth c.next
        else templateEndFrom fuel (depth + 1) c.next
      else templateEndFrom fuel depth c.next

/-- The place where the content of a block ends. -/
def contentEnd? (name : String) (c : Cursor) : Option Cursor :=
  if name == "template" then templateEndFrom (c.rest.length + 1) 1 c
  else c.seek? ('<' :: '/' :: name.toList)

/-- The characters of the name of a block. -/
def isNameChar (c : Char) : Bool :=
  isAsciiLetter c || ('0' ≤ c && c ≤ '9') || c == '-'

/-- Adds a block under the name of its tag. -/
def addBlock (blocks : Blocks) (name : String) (block : Block) : Except BlockError Blocks :=
  if name == "template" then
    .ok { blocks with template := blocks.template.or (some block) }
  else if name == "script" then
    let scripts := blocks.scripts ++ [block]
    if maxScripts < scripts.length then .error (.tooManyScripts scripts.length)
    else .ok { blocks with scripts }
  else .ok blocks

/-- Splits what is left of a file into blocks. -/
def splitFrom : Nat → Cursor → Blocks → Except BlockError Blocks
  | 0, _, blocks => .ok blocks
  | fuel + 1, c, blocks =>
    match c.seek? ['<'] with
    | none => .ok blocks
    | some start =>
      if start.sees commentOpen then splitFrom fuel (afterComment start) blocks
      else
        let nameStart := start.next
        let nameEnd := nameStart.skipWhile isNameChar
        -- a lone angle, or the end of a tag that nothing has opened
        if nameEnd.pos == nameStart.pos then splitFrom fuel start.next blocks
        else
          let name := nameStart.textTo nameEnd.pos
          let (attrs, stop) := attributes 0 nameEnd
          match stop with
          | none => .error (.unclosed name start.pos)
          | some stop =>
            let after := stop.next
            -- such a tag opens no block, whatever its name
            if isSelfClosing stop then splitFrom fuel after blocks
            else
              -- the content is passed over as a whole, so tags inside it are not seen
              match contentEnd? name after with
              | none => .error (.unclosed name start.pos)
              | some close =>
                let block : Block :=
                  { content := after.textTo close.pos
                    offset := after.pos
                    lang := ((attrs.find? (·.name == "lang")).bind (·.value)).map (·.text)
                    setup := attrs.any (·.name == "setup") }
                match addBlock blocks name block with
                | .error e => .error e
                | .ok blocks => splitFrom fuel (afterTag close) blocks

/-- Splits a file into blocks. -/
def split (source : String) : Except BlockError Blocks :=
  let size := source.utf8ByteSize
  if maxFileSize < size then .error (.tooLarge size)
  else splitFrom (source.length + 1) ⟨source.toList, 0, none⟩ {}

end TextHarvest.Component
