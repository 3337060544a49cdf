/-!
# Request targets

The part of a URL after its authority, as it is sent in a request line: dot segments are
resolved, the fragment is dropped, and what may not stand in a path or a query is
percent-encoded.
-/

namespace PolicySync.Target

def hexUpper (n : Nat) : Char :=
  if n < 10 then Char.ofNat (n + 48) else Char.ofNat (n + 55)

/-- The escapes for the bytes of a character in UTF-8. -/
def percentEncode (c : Char) : List Char :=
  (String.utf8EncodeChar c).flatMap fun b => ['%', hexUpper (b.toNat / 16), hexUpper (b.toNat % 16)]

/-- Controls, DEL and everything beyond ASCII. -/
def isControlOrWide (c : Char) : Bool := c.toNat < 0x20 || 0x7E < c.toNat

/-- Whether a character is escaped in a path. -/
def isEscapedInPath (c : Char) : Bool :=
  isControlOrWide c || [' ', '"', '#', '<', '>', '?', '\x60', '\x7b', '\x7d'].contains c

/-- Whether a character is escaped in a query. -/
def isEscapedInQuery (c : Char) : Bool :=
  isControlOrWide c || [' ', '"', '#', '<', '>', '\''].contains c

def encodeWith (isEscaped : Char → Bool) (cs : List Char) : List Char :=
  cs.flatMap fun c => if isEscaped c then percentEncode c else [c]

/-- The segments between slashes; a backslash counts as one. -/
def segments : List Char → List (List Char)
  | [] => [[]]
  | c :: rest =>
    if c = '/' ∨ c = '\\' then [] :: segments rest
    else
      match segments rest with
      | [] => [[c]]
      | s :: more => (c :: s) :: more

/-- A segment with each escaped dot as a dot. -/
def unescapeDots : List Char → List Char
  | '%' :: '2' :: 'e' :: rest => '.' :: unescapeDots rest
  | '%' :: '2' :: 'E' :: rest => '.' :: unescapeDots rest
  | c :: rest => c :: unescapeDots rest
  | [] => []

def isHere (s : List Char) : Bool := unescapeDots s = ['.']

def isParent (s : List Char) : Bool := unescapeDots s = ['.', '.']

/-- Resolves dot segments against the segments before them, the nearest first. A dot
segment at the end leaves an empty one. -/
def resolveDots (before : List (List Char)) : List (List Char) → List (List Char)
  | [] => before.reverse
  | s :: rest =>
    if isParent s then
      if rest.isEmpty then ([] :: before.tail).reverse else resolveDots before.tail rest
    else if isHere s then
      if rest.isEmpty then ([] :: before).reverse else resolveDots before rest
    else resolveDots (s :: before) rest

def joinSegments (ss : List (List Char)) : List Char := ss.flatMap ('/' :: ·)

/-- A URL without the characters that are ignored in it: controls and spaces at its end,
tabs and line ends everywhere. -/
def clean (cs : List Char) : List Char :=
  (cs.reverse.dropWhile fun c => c.toNat ≤ 0x20).reverse.filter fun c =>
    c ≠ '\t' ∧ c ≠ '\n' ∧ c ≠ '\r'

/-- The path as it is sent; nothing when the text would go on with the authority. -/
def path? : List Char → Option (List Char)
  | [] => some ['/']
  | c :: rest =>
    if c = '/' ∨ c = '\\' then
      some (joinSegments (resolveDots [] (segments (encodeWith isEscapedInPath rest))))
    else none

/-- The target for what follows the authority of a URL. -/
def ofTail? (tail : String) : Option String :=
  let shown := (clean tail.toList).takeWhile (· ≠ '#')
  let query :=
    match shown.dropWhile (· ≠ '?') with
    | [] => []
    | _ :: query => '?' :: encodeWith isEscapedInQuery query
  (path? (shown.takeWhile (· ≠ '?'))).map fun path => String.ofList (path ++ query)

end PolicySync.Target
