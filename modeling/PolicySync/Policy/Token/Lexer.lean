import PolicySync.Policy.Token
import PolicySync.Text.Double
import PolicySync.Text.Quoted

/-!
# From text to tokens

Blanks are the space, the tab, the line feed and the carriage return before a line feed;
a comment runs to the end of its line. U+0000 ends the text. Names are ASCII.
-/

namespace PolicySync.Policy

open PolicySync.Text

def isNameStart (c : Char) : Bool := c.isAlpha || c = '_'

def isNameChar (c : Char) : Bool := c.isAlphanum || c = '_'

/-- Symbols of two characters. -/
def Symbol.ofPair? (a b : Char) : Option Symbol :=
  match a, b with
  | ':', '=' => some .declare
  | '=', '=' => some .equal
  | '!', '=' => some .unequal
  | '<', '=' => some .lessEqual
  | '>', '=' => some .greaterEqual
  | _, _ => none

def Symbol.ofChar? (c : Char) : Option Symbol :=
  match c with
  | '\x7b' => some .braceOpen
  | '\x7d' => some .braceClose
  | '[' => some .bracketOpen
  | ']' => some .bracketClose
  | '(' => some .parenOpen
  | ')' => some .parenClose
  | ',' => some .comma
  | ';' => some .semicolon
  | ':' => some .colon
  | '.' => some .dot
  | '=' => some .unify
  | '<' => some .less
  | '>' => some .greater
  | '+' => some .plus
  | '-' => some .minus
  | '*' => some .times
  | '/' => some .divide
  | '%' => some .modulo
  | '&' => some .ampersand
  | '|' => some .bar
  | _ => none

/-- A number, when nothing follows that could be part of it. -/
def scanNumber (negative : Bool) (cs : List Char) : Option (Token × List Char) := do
  let (d, rest) ← Decimal.scan cs
  let _ ← d.value?
  let glued :=
    match rest with
    | c :: _ => isNameChar c || c = '.'
    | [] => false
  if glued then none
  else return (.number negative (String.ofList (cs.take (cs.length - rest.length))), rest)

def scanText (cs : List Char) : Option (Token × List Char) := do
  let (value, rest) ← Quoted.scan cs
  let raw := cs.take (cs.length - rest.length - 1)
  return (.text (String.ofList raw) (String.ofList value), rest)

/-- The text up to the closing grave accent. -/
def scanRawText (cs : List Char) : Option (Token × List Char) :=
  let value := cs.takeWhile fun c => c ≠ '\x60' && c ≠ '\x00'
  match cs.drop value.length with
  | '\x60' :: rest => some (.rawText (String.ofList value), rest)
  | _ => none

def scanSymbol (cs : List Char) : Option (Token × List Char) :=
  match cs with
  | [] => none
  | [a] => (Symbol.ofChar? a).map fun s => (.symbol s, [])
  | a :: b :: rest =>
    match Symbol.ofPair? a b with
    | some s => some (.symbol s, rest)
    | none => (Symbol.ofChar? a).map fun s => (.symbol s, b :: rest)

/-- What is left of a text after blanks and comments. -/
def skipBlanks : Bool → List Char → List Char
  | _, [] => []
  | true, c :: rest => skipBlanks (c ≠ '\n') rest
  | false, c :: rest =>
    if c = ' ' || c = '\t' || c = '\n' || c = '\r' then skipBlanks false rest
    else if c = '#' then skipBlanks true rest
    else c :: rest

/-- Whether the next token is a closing parenthesis, in quotes or not. -/
def comesParenClose (cs : List Char) : Bool :=
  match skipBlanks false cs with
  | ')' :: _ => true
  | '"' :: ')' :: '"' :: _ => true
  | '\x60' :: ')' :: '\x60' :: _ => true
  | _ => false

/-- A name; `set` and the parenthesis after it are one symbol when nothing is between the
parentheses. -/
def scanName (cs : List Char) : Token × List Char :=
  let name := String.ofList (cs.takeWhile isNameChar)
  match cs.dropWhile isNameChar with
  | '(' :: rest =>
    if name = "set" && comesParenClose rest then (.symbol .setOpen, rest)
    else (.name name, '(' :: rest)
  | rest => (.name name, rest)

/-- One token from a text that starts with neither blank nor comment. A minus sign belongs
to the digit that directly follows it. -/
def scanToken (cs : List Char) : Option (Token × List Char) :=
  match cs with
  | '"' :: rest => scanText rest
  | '\x60' :: rest => scanRawText rest
  | '-' :: c :: rest => if c.isDigit then scanNumber true (c :: rest) else scanSymbol cs
  | c :: _ =>
    if isNameStart c then some (scanName cs)
    else if c.isDigit then scanNumber false cs
    else scanSymbol cs
  | [] => none

/-- A comment ends before its line feed, or before U+0000. -/
def takeComment (cs : List Char) : List Char :=
  cs.takeWhile fun c => c ≠ '\n' && c ≠ '\x00'

/-- What a token leaves before the next one: a raw text can end on a later line. -/
def Token.gapAfter : Token → Gap
  | .rawText value => if value.toList.contains '\n' then .newline else .adjacent
  | _ => .adjacent

/-- The tokens of a text, at most `fuel` steps of blanks, comments and tokens. `before`
holds the blanks and comments since the last token. -/
def lexFrom : Nat → Gap → List Char → List Char → Option (List Lexeme)
  | 0, _, _, _ => none
  | fuel + 1, gap, before, cs =>
    match cs with
    | [] => some []
    | '\x00' :: _ => some []
    | ' ' :: rest => lexFrom fuel gap.addBlank (before ++ [' ']) rest
    | '\t' :: rest => lexFrom fuel gap.addBlank (before ++ ['\t']) rest
    | '\n' :: rest => lexFrom fuel .newline (before ++ ['\n']) rest
    | '\r' :: rest =>
      match rest with
      | '\n' :: rest => lexFrom fuel .newline (before ++ ['\r', '\n']) rest
      | _ => none
    | '#' :: rest =>
      let comment := takeComment rest
      lexFrom fuel gap.addBlank (before ++ '#' :: comment) (rest.drop comment.length)
    | cs =>
      match scanToken cs with
      | some (token, rest) =>
        (lexFrom fuel token.gapAfter [] rest).map (⟨gap, String.ofList before, token⟩ :: ·)
      | none => none

/-- Every step consumes a character, so one step more than there are characters is enough. -/
def lex (source : String) : Option (List Lexeme) :=
  lexFrom (source.toList.length + 1) .newline [] source.toList

end PolicySync.Policy
