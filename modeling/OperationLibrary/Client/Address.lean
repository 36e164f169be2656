import OperationLibrary.Text.Percent
import OperationLibrary.Text.Punycode
import OperationLibrary.Text.WordCharacter

/-!
Addresses and their normal form. An address is taken apart where its marks stand: a scheme ends at
a colon, an authority follows two slashes, a query a question mark, and a fragment a number sign.
In the normal form scheme and host are in lower case, a port that goes without saying is left out,
a path does not go up and down, and all that is no plain ASCII is encoded.
-/

namespace OperationLibrary

/-- The parts of an address. -/
structure Address where
  scheme : List Char
  userInfo : List Char
  host : List Char
  port : Option Nat
  path : List Char
  query : Option (List Char)
  fragment : Option (List Char)
  deriving DecidableEq

namespace Address

/-! ### Encoding -/

/-- Characters of ASCII that have a place on paper, the blank among them. -/
def isPrintable (c : Char) : Bool :=
  0x20 ≤ c.toNat && c.toNat < 0x7f

/-- Characters that stand for themselves in a part where `others` do not. -/
def isSafe (others : String) (c : Char) : Bool :=
  isPrintable c && !others.toList.contains c

def unsafeInFragment : String := " \"<>`"

def unsafeInQuery : String := " \"#<>"

def unsafeInPath : String := " \"#<>?`\x7b\x7d"

def unsafeInUserInfo : String := " \"#<>?`\x7b\x7d/;=@[\\]^|"

def unsafeInHost : String := " #/:<>?@[]^"

/-- A part of an address in which only safe characters stand for themselves. What is encoded in it
already stays as it is. -/
def escape (others : String) (part : List Char) : List Char :=
  part.flatMap fun c => if isSafe others c then [c] else Text.Percent.encodeChar c

/-! ### Hosts and ports -/

/-- A label of a name in ASCII, none for one that no name may have. -/
def asciiLabel? (label : List Char) : Option (List Char) :=
  let isPlain := fun (c : Char) => c.isLower || c.isDigit || c == '-'
  let isBordered := label.head? = some '-' || label.getLast? = some '-'
  let isReserved := (label.drop 2).take 2 = ['-', '-']
  let allowed := label.all fun c => isPlain c || (0x80 ≤ c.toNat && Text.isWordCharacter c)
  let written :=
    if label.all isPlain then label
    else ['x', 'n', '-', '-'] ++ Text.Punycode.encode label
  if label.isEmpty || isBordered || isReserved || !allowed || 63 < written.length then none
  else some written

/-- The parts of a text between dots. -/
def dotted : List Char → List (List Char)
  | [] => [[]]
  | '.' :: rest => [] :: dotted rest
  | c :: rest =>
    match dotted rest with
    | label :: labels => (c :: label) :: labels
    | [] => [[c]]

/-- A host in its normal form; an address of numbers loses its brackets. -/
def normalHost? (host : List Char) : Option (List Char) :=
  let lower := host.map Char.toLower
  if host.head? = some '[' ∧ host.getLast? = some ']' then some (host.drop 1).dropLast
  else if host.all (·.toNat < 0x80) then some (escape unsafeInHost lower)
  else (['.'].intercalate ·) <$> (dotted lower).mapM asciiLabel?

/-- The port that a scheme has by itself. -/
def standardPort? (scheme : List Char) : Option Nat :=
  match String.ofList scheme with
  | "http" | "ws" => some 80
  | "https" | "wss" => some 443
  | "ftp" => some 21
  | _ => none

/-- The port that digits write, where it does not go without saying. -/
def normalPort? (scheme digits : List Char) : Option (Option Nat) :=
  if digits.isEmpty then some none
  else if digits.all Char.isDigit then
    let port := digits.foldl (fun n c => n * 10 + (c.toNat - 48)) 0
    some (if standardPort? scheme = some port then none else some port)
  else none

/-! ### Paths -/

/-- The segments between slashes. -/
def segments : List Char → List (List Char)
  | [] => [[]]
  | '/' :: rest => [] :: segments rest
  | c :: rest =>
    match segments rest with
    | segment :: later => (c :: segment) :: later
    | [] => [[c]]

/-- Takes a segment behind others; two dots take the last one away, but not the root. -/
def walk (taken : List (List Char)) (segment : List Char) : List (List Char) :=
  match segment with
  | ['.'] => taken
  | ['.', '.'] => if taken = [[]] then taken else taken.dropLast
  | _ => taken ++ [segment]

/-- A path that does not go up and down. -/
def straightPath (path : List Char) : List Char :=
  let parts := segments path
  if parts.contains ['.'] || parts.contains ['.', '.'] then
    ['/'].intercalate (parts.foldl walk [])
  else path

/-! ### Reading and writing -/

/-- The scheme in front of a colon, and what follows it. -/
def splitScheme (text : List Char) : List Char × List Char :=
  let isPart := fun (c : Char) => c.isAlphanum || c == '+' || c == '.' || c == '-'
  let scheme := text.takeWhile isPart
  match text.dropWhile isPart with
  | ':' :: rest =>
    if scheme.head?.all Char.isAlpha then (scheme, rest) else ([], text)
  | _ => ([], text)

/-- The authority behind two slashes, and what follows it. -/
def splitAuthority : List Char → List Char × List Char
  | '/' :: '/' :: rest =>
    let isPart := fun (c : Char) => c ≠ '/' && c ≠ '?' && c ≠ '#'
    (rest.takeWhile isPart, rest.dropWhile isPart)
  | text => ([], text)

/-- Who asks, in front of the last at sign, and the place. -/
def splitUserInfo (authority : List Char) : List Char × List Char :=
  let place := (authority.reverse.takeWhile (· ≠ '@')).reverse
  (authority.take (authority.length - place.length - 1), place)

/-- The host and the digits of a port. Colons inside brackets belong to the host. -/
def splitPort (place : List Char) : List Char × List Char :=
  let bracketed :=
    if place.head? = some '[' then (place.reverse.dropWhile (· ≠ ']')).reverse else []
  let host := if bracketed.isEmpty then place.takeWhile (· ≠ ':') else bracketed
  let rest := place.drop host.length
  (host, if rest.head? = some ':' then rest.drop 1 else rest)

/-- How many characters an address may have. -/
def lengthLimit : Nat := 65536

/-- The parts of a text in their normal form, none if the text is no address. -/
def parse? (text : String) : Option Address := do
  let chars := text.toList
  if lengthLimit < chars.length || chars.any fun c => c.toNat < 0x80 && !isPrintable c then none
  let (scheme, rest) := splitScheme chars
  let (authority, rest) := splitAuthority rest
  let (userInfo, place) := splitUserInfo authority
  let (host, digits) := splitPort place
  let host ← normalHost? host
  let port ← normalPort? scheme digits
  let path := rest.takeWhile fun c => c ≠ '?' && c ≠ '#'
  let behindPath := rest.dropWhile fun c => c ≠ '?' && c ≠ '#'
  let query := behindPath.takeWhile (· ≠ '#')
  let fragment := behindPath.dropWhile (· ≠ '#')
  let isBare := scheme.isEmpty && userInfo.isEmpty && host.isEmpty && port.isNone
  if isBare && (path.take 2 = ['/', '/'] || path.head? = some ':') then none
  return {
    scheme := scheme.map Char.toLower
    userInfo := escape unsafeInUserInfo userInfo
    host, port
    path := escape unsafeInPath (if isBare then path else straightPath path)
    query := if query.isEmpty then none else some (escape unsafeInQuery (query.drop 1))
    fragment := if fragment.isEmpty then none
      else some (escape unsafeInFragment (fragment.drop 1)) }

/-- Whether an address says by itself where it leads. -/
def isAbsolute (address : Address) : Bool :=
  !address.scheme.isEmpty && !address.host.isEmpty

/-- Path and query. -/
def target (address : Address) : List Char :=
  let path := if address.path.isEmpty then ['/'] else address.path
  path ++ address.query.elim [] fun query => '?' :: query

/-- Who asks, the host and the port. -/
def authority (address : Address) : List Char :=
  let host :=
    if address.host.contains ':' then '[' :: address.host ++ [']'] else address.host
  (if address.userInfo.isEmpty then [] else address.userInfo ++ ['@']) ++ host ++
    address.port.elim [] fun port => ':' :: (toString port).toList

/-- The text of an address. One that leads nowhere by itself is a path from the root. -/
def text (address : Address) : String :=
  String.ofList <|
    if address.isAbsolute then
      address.scheme ++ [':', '/', '/'] ++ address.authority ++ address.path ++
        (address.query.elim [] fun query => '?' :: query) ++
        address.fragment.elim [] fun fragment => '#' :: fragment
    else '/' :: address.target.dropWhile (· = '/')

/-- Name and password of who asks. -/
def credentials (address : Address) : Option (List UInt8) :=
  let name := address.userInfo.takeWhile (· ≠ ':')
  let password := (address.userInfo.dropWhile (· ≠ ':')).drop 1
  if name.isEmpty ∧ password.isEmpty then none
  else some (Text.Percent.decode name ++ [58] ++ Text.Percent.decode password)

end Address

end OperationLibrary
