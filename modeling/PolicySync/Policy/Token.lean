/-!
# Tokens of the policy language

A token is kept with what separates it from the token before, because references need
their parts adjacent and statements need a line of their own.
-/

namespace PolicySync.Policy

inductive Symbol where
  | braceOpen | braceClose | bracketOpen | bracketClose | parenOpen | parenClose
  /-- The word `set` and a parenthesis that is closed at once. -/
  | setOpen
  | comma | semicolon | colon | dot
  | declare | unify
  | equal | unequal | less | lessEqual | greater | greaterEqual
  | plus | minus | times | divide | modulo | ampersand | bar
  deriving DecidableEq, Repr

namespace Symbol

/-- How a symbol is written. -/
def text : Symbol → String
  | .braceOpen => "\x7b"
  | .braceClose => "\x7d"
  | .bracketOpen => "["
  | .bracketClose => "]"
  | .parenOpen => "("
  | .parenClose => ")"
  | .setOpen => "set("
  | .comma => ","
  | .semicolon => ";"
  | .colon => ":"
  | .dot => "."
  | .declare => ":="
  | .unify => "="
  | .equal => "=="
  | .unequal => "!="
  | .less => "<"
  | .lessEqual => "<="
  | .greater => ">"
  | .greaterEqual => ">="
  | .plus => "+"
  | .minus => "-"
  | .times => "*"
  | .divide => "/"
  | .modulo => "%"
  | .ampersand => "&"
  | .bar => "|"

/-- Whether a symbol begins something in brackets. -/
def opens : Symbol → Bool
  | .braceOpen => true
  | .bracketOpen => true
  | .parenOpen => true
  | .setOpen => true
  | _ => false

/-- Whether a symbol ends something in brackets. -/
def closes : Symbol → Bool
  | .braceClose => true
  | .bracketClose => true
  | .parenClose => true
  | _ => false

end Symbol

inductive Token where
  /-- A name or a keyword. -/
  | name (text : String)
  /-- A number, with the minus sign that directly precedes its digits. -/
  | number (negative : Bool) (digits : String)
  /-- A quoted text, as written between the quotes and with its escapes resolved. -/
  | text (raw : String) (value : String)
  /-- A text between grave accents, which has no escapes. -/
  | rawText (value : String)
  | symbol (s : Symbol)
  deriving DecidableEq, Repr

/-- A number as written. -/
def signed (negative : Bool) (digits : String) : String :=
  if negative then "-" ++ digits else digits

/-- How a token is written. -/
def Token.written : Token → String
  | .name word => word
  | .number negative digits => signed negative digits
  | .text raw _ => "\"" ++ raw ++ "\""
  | .rawText value => "\x60" ++ value ++ "\x60"
  | .symbol s => s.text

/-- What stands before a token. -/
inductive Gap where
  | adjacent
  | blanks
  | newline
  deriving DecidableEq, Repr

/-- A blank after a gap: a newline is not forgotten. -/
def Gap.addBlank : Gap → Gap
  | .newline => .newline
  | _ => .blanks

/-- A token, the gap before it, and the blanks and comments in that gap as written. -/
structure Lexeme where
  gap : Gap
  before : String
  token : Token
  deriving DecidableEq, Repr

/-- Lexemes as written, without the blanks before the first. -/
def writtenLexemes : List Lexeme → String
  | [] => ""
  | first :: rest =>
    first.token.written ++ String.join (rest.map fun l => l.before ++ l.token.written)

end PolicySync.Policy
