import CellAtlas.Number.Numeral
import CellAtlas.Text.Hidden
import CellAtlas.Text.Lowercase

/-!
# Hosts

The host in a target is a name, four numbers with points between them, or an address in brackets. An
address has eight groups of hexadecimal digits with colons between them; groups of zeros in a row
may be left out once, and four numbers may stand for the last two groups. `Host.kind` says which of
the three forms a host has, and `Host.isValid` whether it keeps the rules of its form.
-/

namespace CellAtlas.Host

open Text

inductive Kind where
  /-- Four numbers. -/
  | numbers
  /-- An address in brackets. -/
  | address
  /-- A name in ASCII. -/
  | asciiName
  /-- A name with letters of other scripts. -/
  | unicodeName
deriving DecidableEq, Repr

/-! ### Numbers -/

def isDigits (cs : List Char) : Bool := !cs.isEmpty && cs.all Char.isDigit

def isByte (cs : List Char) : Bool :=
  isDigits cs && (cs == ['0'] || cs.head? != some '0') && natOfDigits cs ≤ 255

/-- Whether a text is four parts of some kind with points between them. -/
def isFour (p : List Char → Bool) (cs : List Char) : Bool :=
  (split '.' cs).length == 4 && (split '.' cs).all p

/-! ### Addresses -/

/-- Whether a text is up to four hexadecimal digits. -/
def isGroup (cs : List Char) : Bool :=
  !cs.isEmpty && cs.length ≤ 4 && cs.all fun c => (hexValue? c).isSome

/-- The groups of an address. Four numbers at the end count as two groups. -/
def groups? (cs : List Char) : Option (List (List Char)) :=
  let parts := split ':' cs
  match parts.getLast? with
  | some last =>
    if !last.contains '.' then some parts
    else if isFour isByte last then some (parts.dropLast ++ [['0'], ['0']])
    else none
  | none => none

/-- The groups at one side of those left out, which are none if the text has nothing there. -/
def groupsBeside (groups : List (List Char)) : List (List Char) :=
  if groups = [[]] then [] else groups

/-- Whether a text is an address, without its brackets. -/
def isAddress (cs : List Char) : Bool :=
  match groups? cs with
  | some (group :: groups) =>
    let before := group :: groups.takeWhile (!·.isEmpty)
    let after := (groups.dropWhile (!·.isEmpty)).drop 1
    if after.isEmpty then groups.length == 7 && (group :: groups).all isGroup
    else
      let kept := groupsBeside before ++ groupsBeside after
      kept.length ≤ 7 && kept.all isGroup
  | _ => false

/-- Whether a text is an address, which may be followed by a percent sign and a zone. -/
def isZonedAddress (cs : List Char) : Bool :=
  let zone := cs.dropWhile (· != '%')
  isAddress (cs.takeWhile (· != '%'))
    && (zone.isEmpty || 1 < zone.length && !(zone.drop 1).contains '%')

/-! ### Names -/

/-- The first and the last code point of runs of punctuation marks, symbols and pictures. -/
def signRuns : List (Nat × Nat) :=
  [(0xA0, 0xB6), (0xB8, 0xBF), (0xD7, 0xD7), (0xF7, 0xF7), (0x2000, 0x214D), (0x2150, 0x2183),
    (0x2190, 0x2BFF), (0x3000, 0x3004), (0x3008, 0x3029), (0xFF00, 0xFFEF), (0x1F000, 0x1FAFF)]

/-- Whether a character can be part of a name with letters of other scripts. -/
def isNameChar (c : Char) : Bool :=
  if c.toNat < 128 then c.isLower || c.isDigit || c == '-'
  else !isHidden c && !signRuns.any fun run => run.1 ≤ c.toNat && c.toNat ≤ run.2

def isPoint (c : Char) : Bool := c == '.' || c == '。' || c == '．' || c == '｡'

/-- Whether a text is a name with letters of other scripts. It may end in a point. -/
def isName (cs : List Char) : Bool :=
  let parts := split '.' (cs.map fun c => if isPoint c then '.' else c)
  parts.all (·.all isNameChar) && parts.dropLast.all (!·.isEmpty)

/-! ### Hosts -/

def inside (cs : List Char) : List Char := (cs.drop 1).dropLast

def kind (host : List Char) : Kind :=
  if isFour isDigits host then .numbers
  else if host.head? == some '[' && host.getLast? == some ']' then .address
  else if host.all (·.toNat < 128) then .asciiName
  else .unicodeName

/-- Whether a host keeps the rules of its form. -/
def isValid (host : List Char) : Bool :=
  match kind host with
  | .numbers => isFour isByte host
  | .address => isZonedAddress (inside host)
  | .asciiName => true
  | .unicodeName => isName (lowercase (String.ofList host)).toList

end CellAtlas.Host
