import TextHarvest.Path
import TextHarvest.Text.Entity
import TextHarvest.Text.FormEncoded

/-!
# Addresses of servers

How far an address of a server is looked at: whether it names a host, and what is asked of that host.
-/

namespace TextHarvest.Url

/-- Why an address is refused. -/
inductive Fault where
  /-- It has no scheme. -/
  | relative
  /-- It has a scheme and names no host. -/
  | noHost
  /-- Its host or its port is malformed. -/
  | malformed
  deriving DecidableEq, Repr

/-- The schemes that always name a host. -/
def webSchemes : List String := ["http", "https", "ws", "wss", "ftp"]

/-- An address without the control characters and blanks around it and without line breaks. -/
def tidy (s : String) : List Char :=
  let isEdge (c : Char) : Bool := c.toNat ≤ 0x20
  let cs := (s.toList.dropWhile isEdge).reverse.dropWhile isEdge
  cs.reverse.filter fun c => c != '\t' && c != '\n' && c != '\r'

/-- The scheme of an address in lower case, and what follows its colon. -/
def scheme? (cs : List Char) : Option (String × List Char) :=
  let isPart (c : Char) : Bool := Text.isPlain c || c == '+' || c == '-' || c == '.'
  let front := cs.takeWhile isPart
  match front.head?, cs.dropWhile isPart with
  | some c, ':' :: rest =>
    if c.isAlpha then some (String.ofList (front.map Char.toLower), rest) else none
  | _, _ => none

/-- Whether a port is a number of at most 16 bits, or missing. -/
def isPort (cs : List Char) : Bool :=
  cs.all Char.isDigit && ((Text.digitsValue? 10 cs 0).getD 0) < 65536

/-- A part of a host that is written as a number: decimal, octal or hexadecimal. -/
def number? (cs : List Char) : Option Nat :=
  match cs with
  | [] => none
  | ['0', 'x'] => some 0
  | ['0', 'X'] => some 0
  | '0' :: 'x' :: ds => Text.digitsValue? 16 ds 0
  | '0' :: 'X' :: ds => Text.digitsValue? 16 ds 0
  | ['0'] => some 0
  | '0' :: ds => Text.digitsValue? 8 ds 0
  | ds => Text.digitsValue? 10 ds 0

/-- Whether a host that ends in a number is a well-formed address of four bytes. -/
def isAddress (parts : List (List Char)) : Bool :=
  match parts.mapM number? with
  | none => false
  | some ns =>
    ns.length ≤ 4 && (ns.dropLast.all (· < 256)) &&
      (ns.getLast?.getD 0) < Nat.pow 256 (5 - ns.length)

/-- The characters that a host must not hold. -/
def isForbidden (c : Char) : Bool :=
  c.toNat ≤ 0x20 || c.toNat == 0x7f || "#%/:<>?@[\\]^|".toList.contains c

/-- Whether a host is well formed. -/
def isHost (cs : List Char) : Bool :=
  match cs with
  | [] => false
  | '[' :: inner =>
    inner.getLast? == some ']' && 2 ≤ inner.count ':' &&
      inner.dropLast.all fun c => (Text.digitValue? 16 c).isSome || c == ':' || c == '.'
  | _ =>
    let parts := Path.splitChars '.' cs
    let parts := if parts.getLast? == some [] && 1 < parts.length then parts.dropLast else parts
    let last := parts.getLast?.getD []
    let numeric :=
      !last.isEmpty && (last.all Char.isDigit || (last.head? == some '0' && (number? last).isSome))
    cs.all (!isForbidden ·) && (!numeric || isAddress parts)

/-- The host and the port of an authority, after what stands before its last at sign. -/
def hostAndPort (authority : List Char) : List Char × List Char :=
  let r := authority.reverse.takeWhile (· != '@')
  let cs := r.reverse
  match cs with
  | '[' :: _ =>
    let host := cs.takeWhile (· != ']')
    let rest := cs.dropWhile (· != ']')
    (host ++ rest.take 1, rest.drop 2)
  | _ => (cs.takeWhile (· != ':'), (cs.dropWhile (· != ':')).drop 1)

/-- What is wrong with an address. -/
def fault? (s : String) : Option Fault :=
  match scheme? (tidy s) with
  | none => some .relative
  | some (scheme, rest) =>
    -- for the schemes of the web a backslash is a slash, and any number of them may stand there
    let isWeb := webSchemes.contains scheme
    let isSlash (c : Char) : Bool := c == '/' || (isWeb && c == '\\')
    let isEnd (c : Char) : Bool := isSlash c || c == '?' || c == '#'
    if isWeb then
      let (host, port) := hostAndPort ((rest.dropWhile isSlash).takeWhile (!isEnd ·))
      if isHost host && isPort port then none else some .malformed
    else
      match rest with
      | '/' :: '/' :: rest =>
        let (host, port) := hostAndPort (rest.takeWhile (!isEnd ·))
        if host.isEmpty then some .noHost
        else if host.all (fun c => !isForbidden c || c == '%') && isPort port then none
        else some .malformed
      | _ => some .noHost

/-- Whether a text can be the address of a proxy; the scheme may be left out. -/
def isProxy (s : String) : Bool :=
  match fault? s with
  | none => true
  | some .malformed => false
  | some _ => (fault? ("http://" ++ s)).isNone

/-- The characters of a path that are written with percent signs. -/
def pathChar (c : Char) : List Char :=
  if c.toNat ≤ 0x20 || 0x7f ≤ c.toNat || "\x22<>\x60\x7b\x7d^".toList.contains c then Text.percentChar c
  else [c]

/-- Drops the slashes at the end of an address. -/
def dropSlashes (s : String) : String :=
  String.ofList (s.toList.reverse.dropWhile (· == '/')).reverse

/-- What is asked of the host of a web address: its path, and its query with further pairs. -/
def target (address : String) (query : List (String × String)) : String :=
  let rest := match scheme? (tidy address) with
    | some (_, rest) => (rest.dropWhile (· == '/')).dropWhile fun c => c != '/' && c != '?' && c != '#'
    | none => []
  let rest := rest.takeWhile (· != '#')
  let path := (rest.takeWhile (· != '?')).flatMap pathChar
  let given := String.ofList ((rest.dropWhile (· != '?')).drop 1)
  let queries := [given, Text.formEncoded query].filter (· != "")
  String.ofList (if path.isEmpty then ['/'] else path) ++
    (if queries.isEmpty then "" else "?" ++ "&".intercalate queries)

end TextHarvest.Url
