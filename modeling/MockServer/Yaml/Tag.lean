/-
  MockServer.Yaml.Tag — tags of a YAML text.

  A tag is written in full between angle brackets, or short: behind two
  exclamation marks stands a name of the core schema, behind one a name
  of the text's own.  A lone exclamation mark says nothing.  Characters
  may be written by their bytes in hexadecimal digits.
-/
import MockServer.Document.Basic
import MockServer.Text.Utf8
import MockServer.Yaml.Cursor

namespace MockServer.Yaml

def isWordChar (x : Char) : Bool := x.isAlphanum || x = '_' || x = '-'

def isTagChar (x : Char) : Bool := isWordChar x || ";/?:@&=+$.!~*'()%".toList.contains x

/-- Puts characters in the place of their bytes. -/
def unescape : List Char → Option (List UInt8)
  | [] => some []
  | '%' :: a :: b :: rest => do
    let n ← Text.Hex.number? [a, b]
    return UInt8.ofNat n :: (← unescape rest)
  | '%' :: _ => none
  | x :: rest => do return String.utf8EncodeChar x ++ (← unescape rest)

/-- What the characters of a tag stand for. -/
def tagText? (cs : List Char) : Option String :=
  ((unescape cs).bind Text.Utf8.decode?).map String.ofList

/-- Where the names of the core schema are. -/
def coreSchema : String := "tag:yaml.org,2002:"

def tagOf (text : String) : Document.Tag :=
  match text.toList with
  | '!' :: name => .named (String.ofList name)
  | _ =>
    if text = coreSchema ++ "null" then .null
    else if text = coreSchema ++ "bool" then .bool
    else if text = coreSchema ++ "int" then .int
    else if text = coreSchema ++ "float" then .float
    else .other

/-- The tag at an exclamation mark, and the place behind it. -/
def tagAt (c : Cursor) : Option (Option Document.Tag × Cursor) :=
  match c.rest.drop 1 with
  | '<' :: _ =>
    let (cs, c) := (c.skipMany 2).takeWhile fun x => isTagChar x || x = ',' || x = '[' || x = ']'
    if cs.isEmpty || !c.nextIs (· = '>') then none
    else (tagText? cs).map fun text => (some (tagOf text), c.skip)
  | _ =>
    let (word, c) := c.skip.takeWhile isWordChar
    if c.nextIs (· = '!') then
      let (cs, c) := c.skip.takeWhile isTagChar
      if cs.isEmpty || !word.isEmpty then none
      else (tagText? cs).map fun text => (some (tagOf (coreSchema ++ text)), c)
    else
      let (cs, c) := c.takeWhile isTagChar
      (tagText? (word ++ cs)).map fun text =>
        (if text.isEmpty then none else some (.named text), c)

end MockServer.Yaml
