/-
  MockServer.Log.Filter — which events the log shows.

  A filter is a list of directives between commas.  A directive is a
  level alone, or a target, a span in brackets or both, and then a level
  behind an equals sign; a span may name fields in braces.  A target
  without a level shows everything of it.

  The filter of the settings is their level followed by their
  directives.  A filter from outside comes before it, if it makes sense.
-/
import MockServer.Log.Level
import MockServer.Text.Blank
import MockServer.Text.Split

namespace MockServer.Log.Filter

/-! ## Levels -/

/-- The words for a level, `off` included. -/
def levelWords : List String := "off" :: Level.named.map Prod.fst

/-- A number for a level, from `0` for `off` to `5`. -/
def isLevelNumber (cs : List Char) : Bool :=
  let ds := match cs with
    | '+' :: r => r
    | r => r
  match ds.reverse with
  | last :: zeros => last.isDigit && decide (last ≤ '5') && zeros.all (· == '0')
  | [] => false

/-- What may stand behind the equals sign: a level, or nothing for everything. -/
def isLevel (cs : List Char) : Bool :=
  cs.isEmpty || levelWords.contains (Text.lower (String.ofList cs)) || isLevelNumber cs

/-! ## Directives -/

/-- The part of a directive behind a span: nothing, or the text of a level. -/
def behindSpan? : List Char → Option (Option (List Char))
  | [] => some none
  | '=' :: level => some (some level)
  | _ => none

/-- The part of a directive behind the fields of a span. -/
def behindFields? (cs : List Char) : Option (Option (List Char)) :=
  match Text.splitFirst '\x7d' cs with
  | some (field, ']' :: rest) => if field.isEmpty then none else behindSpan? rest
  | _ => none

/-- The part of a directive behind the rest of a span. -/
def inSpan? : List Char → Option (Option (List Char))
  | [] => none
  | c :: rest =>
    if c = ']' then behindSpan? rest
    else if c = '\x7b' then behindFields? rest
    else inSpan? rest

/-- The part of a directive behind the rest of a target and its span. -/
def inTarget? : List Char → Option (Option (List Char))
  | [] => some none
  | c :: rest =>
    if c = '=' then some (some rest)
    else if c = '[' then inSpan? rest
    else inTarget? rest

/-- May a target begin with the character?  Beyond ASCII every character may. -/
def isTargetStart (c : Char) : Bool :=
  c.isAlphanum || c == '-' || c == ':' || c == '_' || 128 ≤ c.toNat

/-- The text of the level of a directive, if it is well-formed and if it has one. -/
def levelOf? : List Char → Option (Option (List Char))
  | [] => none
  | c :: rest =>
    if c = '[' then inSpan? rest
    else if isTargetStart c then inTarget? rest
    else none

/-- Is it a directive?  Blanks at its ends are passed over, unless it has a level. -/
def isDirective (cs : List Char) : Bool :=
  let trimmed := Text.trimChars cs
  match levelOf? trimmed with
  | none => false
  | some none => true
  | some (some level) => trimmed.length == cs.length && isLevel level

/-! ## Filters -/

/-- Does a text make sense as a filter?  Empty directives are passed over. -/
def isValid (s : String) : Bool :=
  ((Text.splitOn ',' s.toList).filter fun d => !d.isEmpty).all isDirective

/-- The filter of a level and further directives. -/
def text (level : Level) (directives : List String) : String :=
  ",".intercalate (level.name :: directives)

/-- The filter that counts, if one makes sense: the one from outside, else that of the settings. -/
def choose? (outside : Option String) (settings : String) : Option String :=
  match outside.filter isValid with
  | some s => some s
  | none => if isValid settings then some settings else none

end MockServer.Log.Filter
