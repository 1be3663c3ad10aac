import CellAtlas.Service.Host
import CellAtlas.Service.Path
import CellAtlas.Text.Quoted

/-!
# Targets

A client says what it asks for by a target, of which all parts but the path may be missing:

    http :// user @ host : port /path ? query # fragment

`Target.pathOf` finds the path, or what is wrong with the target. A target with both a scheme and a
host is taken as it is; any other one is looked up at the service, whatever it starts with.
-/

namespace CellAtlas

open Text

inductive TargetError where
  /-- The target has too many characters. -/
  | tooLong
  /-- A part of the target has too many characters once it is escaped. -/
  | partTooLong (part : String)
  /-- A character cannot be printed. -/
  | notPrintable (c : Char) (position : Nat)
  /-- The host does not keep the rules of its form. -/
  | badHost (kind : Host.Kind) (host : String)
  /-- The port is no integer. -/
  | badPort (port : String)
  /-- A path starts with two slashes but there is no host. -/
  | startsWithSlashes
  /-- A path starts with a colon. -/
  | startsWithColon
  /-- The scheme is not served. -/
  | unknownScheme (scheme : String)
  /-- What follows the first colon of an address is taken for a port. -/
  | addressAsPort (text : String)
deriving DecidableEq, Repr

def Host.Kind.label : Host.Kind → String
  | numbers => "IPv4 address"
  | address => "IPv6 address"
  | _ => "IDNA hostname"

def TargetError.message : TargetError → String
  | tooLong => "URL too long"
  | partTooLong part => "URL component " ++ quoted part ++ " too long"
  | notPrintable c position =>
    "Invalid non-printable ASCII character in URL, " ++ quoted c.toString ++ " at position "
      ++ toString position ++ "."
  | badHost kind host => "Invalid " ++ kind.label ++ ": " ++ quoted host
  | badPort port => "Invalid port: " ++ quoted port
  | startsWithSlashes => "Relative URLs cannot have a path starting with '//'"
  | startsWithColon => "Relative URLs cannot have a path starting with ':'"
  | unknownScheme scheme => quoted scheme
  | addressAsPort text => "invalid literal for int() with base 10: " ++ quoted text

/-- The parts of a target that lead to its path. -/
structure Target where
  scheme : List Char := []
  user : List Char := []
  host : List Char := []
  port : List Char := []
  path : List Char := []
  query : Option (List Char) := none
deriving DecidableEq, Repr

namespace Target

/-! ### Parts -/

def isSchemeChar (c : Char) : Bool := c.isAlphanum || c == '+' || c == '.' || c == '-'

/-- The scheme before the first colon, which may be empty, and what follows the colon. -/
def readScheme (cs : List Char) : List Char × List Char :=
  let scheme := cs.takeWhile isSchemeChar
  match cs.dropWhile isSchemeChar with
  | ':' :: rest => if scheme.head?.all Char.isAlpha then (scheme, rest) else ([], cs)
  | _ => ([], cs)

/-- What stands behind two slashes up to the path, and what follows. -/
def readAuthority : List Char → List Char × List Char
  | '/' :: '/' :: cs =>
    let inside (c : Char) := c != '/' && c != '?' && c != '#'
    (cs.takeWhile inside, cs.dropWhile inside)
  | cs => ([], cs)

/-- What stands before the last `sep`, and what follows it; without a `sep` nothing stands
before. -/
def splitLast (sep : Char) (cs : List Char) : List Char × List Char :=
  ((cs.reverse.dropWhile (· != sep)).drop 1 |>.reverse, (cs.reverse.takeWhile (· != sep)).reverse)

/-- A host, which may be in brackets, and the port that follows it. -/
def readHost (cs : List Char) : List Char × List Char :=
  let (host, rest) :=
    if cs.head? == some '[' && cs.contains ']' then
      let (inner, rest) := splitLast ']' cs
      (inner ++ [']'], rest)
    else (cs.takeWhile (· != ':'), cs.dropWhile (· != ':'))
  (host, if rest.head? == some ':' then rest.drop 1 else rest)

def split (cs : List Char) : Target :=
  let (scheme, cs) := readScheme cs
  let (authority, cs) := readAuthority cs
  let (user, rest) := splitLast '@' authority
  let (host, port) := readHost rest
  let path := cs.takeWhile fun c => c != '?' && c != '#'
  let query := match cs.drop path.length with
    | '?' :: cs => some (cs.takeWhile (· != '#'))
    | _ => none
  { scheme := scheme.map Char.toLower, user, host, port, path, query }

/-! ### Ports -/

/-- The integer that a port is. Underscores may separate its digits. -/
def portNumber? (port : List Char) : Option Int :=
  let (negative, digits) := readSign (trim port)
  match dropUnderscores? digits with
  | some digits =>
    if Host.isDigits digits then
      some (if negative then -(natOfDigits digits : Int) else natOfDigits digits)
    else none
  | none => none

def defaultPorts : List (String × Int) := [("http", 80), ("https", 443)]

/-! ### Checks -/

def maxLength : Nat := 65536

/-- The number of characters of a part in which every character that is not in ASCII or is one of
`reserved` is escaped byte by byte. -/
def escapedLength (reserved : List Char) (cs : List Char) : Nat :=
  cs.foldl (fun n c =>
    n + if ' ' < c && c < '\x7f' && !reserved.contains c then 1 else 3 * c.utf8Size) 0

def isControl (c : Char) : Bool := c < ' ' || c == '\x7f'

def checkText (cs : List Char) : Except TargetError Unit :=
  if maxLength < cs.length then .error .tooLong
  else match cs.findIdx? isControl with
    | some i => .error (.notPrintable (cs.getD i ' ') i)
    | none => .ok ()

def hasAuthority (t : Target) : Bool := !t.user.isEmpty || !t.host.isEmpty || !t.port.isEmpty

def checkParts (t : Target) : Except TargetError Unit :=
  if !t.host.isEmpty && !Host.isValid t.host then
    .error (.badHost (Host.kind t.host) (String.ofList t.host))
  else if !t.port.isEmpty && (portNumber? t.port).isNone then
    .error (.badPort (String.ofList t.port))
  else if t.scheme.isEmpty && !t.hasAuthority then
    if t.path.take 2 == ['/', '/'] then .error .startsWithSlashes
    else if t.path.head? == some ':' then .error .startsWithColon
    else .ok ()
  else .ok ()

/-- Whether a target says all that is needed to find the path. -/
def isAbsolute (t : Target) : Bool := !t.scheme.isEmpty && !t.host.isEmpty

/-- Check a target that is taken as it is. The colons of an address are taken for the start of a
port. -/
def checkServed (t : Target) : Except TargetError Unit :=
  let scheme := String.ofList t.scheme
  match defaultPorts.lookup scheme with
  | none => .error (.unknownScheme scheme)
  | some defaultPort =>
    if Host.kind t.host = .address then
      let port := (portNumber? t.port).filter (· != defaultPort)
      let afterColon := (t.host.dropWhile (· != ':')).drop 1
      .error (.addressAsPort (String.ofList afterColon
        ++ (port.map fun n => ":" ++ toString n).getD ""))
    else .ok ()

/-- Check the parts of a target that is looked up at the service. -/
def checkLengths (path : List Char) (query : Option (List Char)) : Except TargetError Unit :=
  let reserved := ['"', '#', '<', '>']
  if maxLength < escapedLength (reserved ++ ['?', '`', '\x7b', '\x7d']) path then
    .error (.partTooLong "path")
  else if maxLength < escapedLength reserved (query.getD []) then .error (.partTooLong "query")
  else .ok ()

/-! ### The path -/

/-- The path of a target without dots, if something stands before it. -/
def normalPath (t : Target) : List Char :=
  if !t.scheme.isEmpty || t.hasAuthority then Path.normal t.path else t.path

/-- The path that a target asks for, in which escapes are not resolved yet. -/
def pathOf (text : List Char) : Except TargetError (List Char) := do
  checkText text
  let t := split text
  t.checkParts
  if t.isAbsolute then
    t.checkServed
    return t.normalPath
  else
    let path := '/' :: t.normalPath.dropWhile (· == '/')
    checkLengths path t.query
    return Path.normal path

end Target

end CellAtlas
