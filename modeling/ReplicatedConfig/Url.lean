import ReplicatedConfig.Url.Host

/-!
# Absolute URLs with a host

`Url.parse` reads a text into the parts of a URL and brings each into one form: the
scheme and a name in lower case, a port only where it differs from the scheme's own, a
path without dot segments, and every part percent-encoded where it has to be.  Two
texts that name the same place read into the same `Url`, so equality of URLs is equality
of what they say and not of how they were written.

Controls and blanks around the text are dropped, and so are tabs and line ends inside
it.  In a special scheme a backslash is a slash and any number of slashes, none
included, may stand before the host.

Two dots take the segment before them away, but never a drive such as `C:`: whatever
the scheme, a path cannot climb out of one.

A text that reads as a URL without a host is refused like one with an empty host: there
would be nothing to send a request to.
-/

namespace ReplicatedConfig

/-- An absolute URL with a host. -/
structure Url where
  scheme : String
  /-- User name and password with the at sign behind them, or nothing. -/
  userinfo : String
  host : Url.Host
  /-- The port where it is not the scheme's own. -/
  port : Option Nat
  path : String
  query : Option String
  fragment : Option String
  deriving DecidableEq

namespace Url

/-- The port that a scheme means when none is given. -/
def defaultPort? : String → Option Nat
  | "http" | "ws" => some 80
  | "https" | "wss" => some 443
  | "ftp" => some 21
  | _ => none

/-- The schemes with rules of their own. -/
def isSpecial (scheme : String) : Bool := scheme == "file" || (defaultPort? scheme).isSome

/-- The URL as one text. -/
def text (u : Url) : String :=
  u.scheme ++ "://" ++ u.userinfo ++ u.host.text
    ++ (u.port.elim "" fun p => ":" ++ toString p)
    ++ u.path
    ++ (u.query.elim "" ("?" ++ ·))
    ++ (u.fragment.elim "" ("#" ++ ·))

/-- A tab or a line end, which a URL passes over wherever it stands. -/
def isBreak (c : Char) : Bool := c ∈ ['\t', '\n', '\r']

/-- A text without tabs and line ends. -/
def joined (cs : List Char) : List Char := cs.filter (!isBreak ·)

/-- A text without the controls and blanks around it. -/
def trimmed (cs : List Char) : List Char :=
  let isEdge (c : Char) : Bool := c.toNat ≤ 0x20
  ((cs.dropWhile isEdge).reverse.dropWhile isEdge).reverse

/-- What follows the first `n` characters, not counting tabs and line ends. -/
def after : Nat → List Char → List Char
  | 0, cs => cs
  | _, [] => []
  | n + 1, c :: cs => if isBreak c then after (n + 1) cs else after n cs

/-- A scheme in lower case and what follows its colon. -/
def scheme? (cs : List Char) : Option (String × List Char) :=
  let inScheme (c : Char) : Bool := c.isAlphanum || c ∈ ['+', '-', '.']
  match cs.head?, cs.dropWhile inScheme with
  | some c, ':' :: rest =>
    if c.isAlpha then some (String.ofList ((cs.takeWhile inScheme).map Char.toLower), rest) else none
  | _, _ => none

/-- Where the part with user and host ends. -/
def endsAuthority (special : Bool) (c : Char) : Bool :=
  c ∈ ['/', '?', '#'] || (special && c == '\\')

/-- The text before and after the last at sign. -/
def splitUser (cs : List Char) : List Char × List Char :=
  let host := (cs.reverse.takeWhile (· != '@')).reverse
  (cs.take (cs.length - host.length - 1), host)

/-- User name and password, encoded, with the at sign behind them. -/
def userinfoText (cs : List Char) : String :=
  let encoded := Percent.encode Percent.inUserinfo
  let user := cs.takeWhile (· != ':')
  let password := (cs.dropWhile (· != ':')).drop 1
  if user.isEmpty && password.isEmpty then ""
  else String.ofList (encoded user ++ (if password.isEmpty then [] else ':' :: encoded password) ++ ['@'])

/-- How many characters belong to the host: all before the first colon that stands
outside brackets. -/
def hostLength : Bool → List Char → Nat
  | _, [] => 0
  | inside, c :: cs =>
    if c = ':' ∧ inside = false then 0
    else hostLength (if c = '[' then true else if c = ']' then false else inside) cs + 1

/-- The port after a colon, and what follows it. -/
def portOf (scheme : String) : List Char → Except ParseError (Option Nat × List Char)
  | ':' :: cs =>
    let digits := cs.takeWhile Char.isDigit
    let rest := cs.dropWhile Char.isDigit
    let value := (Address.number? 10 digits).getD 0
    if rest.head?.any (· != '\\') then .error .invalidPort
    else if 65535 < value then .error .invalidPort
    else if digits.isEmpty ∨ defaultPort? scheme = some value then .ok (none, rest)
    else .ok (some value, rest)
  | rest => .ok (none, rest)

/-- A segment with the encoded form of a dot written as a dot. -/
def plainDots : List Char → List Char
  | '%' :: '2' :: e :: rest =>
    if e = 'e' ∨ e = 'E' then '.' :: plainDots rest else '%' :: '2' :: e :: plainDots rest
  | c :: rest => c :: plainDots rest
  | [] => []

/-- Whether a segment is a drive: a letter and a colon or bar. -/
def isDrive : List Char → Bool
  | [c, d] => c.isAlpha && (d == ':' || d == '|')
  | _ => false

/-- Whether two dots leave a segment where it is: it is a drive, alone or with a
backslash behind it. -/
def stays : List Char → Bool
  | c :: d :: rest => isDrive [c, d] && (rest.isEmpty || rest.head? == some '\\')
  | _ => false

/-- The segments so far, the last one first, without the last one, unless it stays. -/
def climb : List (List Char) → List (List Char)
  | [] => []
  | seg :: done => if stays seg then seg :: done else done

/-- How a segment joins the segments so far, the last one first. -/
abbrev Joining := List (List Char) → List Char → Except ParseError (List (List Char))

/-- Every segment joins as it is, encoded. -/
def joinEncoded : Joining := fun done seg => .ok (Percent.encode Percent.inPath seg :: done)

/-- Follows the dot segments of a path: one dot stays, two dots climb.  `done` holds
the segments so far, the last one first. -/
def follow (join : Joining) : List (List Char) → List (List Char) → Except ParseError (List (List Char))
  | done, [] => .ok done.reverse
  | done, seg :: rest =>
    match plainDots (joined seg) with
    | ['.', '.'] => follow join (if rest.isEmpty then [] :: climb done else climb done) rest
    | ['.'] => follow join (if rest.isEmpty then [] :: done else done) rest
    | _ => do follow join (← join done seg) rest

/-- The path behind its first slash. -/
def pathText (join : Joining) (special : Bool) (cs : List Char) : Except ParseError String := do
  let segments ← follow join [] (splitAll (fun c => c == '/' || (special && c == '\\')) cs)
  return "/" ++ "/".intercalate (segments.map String.ofList)

/-- The path, query and fragment behind a host. -/
def withTail (join : Joining) (special : Bool) (u : Url) (cs : List Char) : Except ParseError Url := do
  let beforeFragment := cs.takeWhile (· != '#')
  let raw := beforeFragment.takeWhile (· != '?')
  let path ←
    match raw with
    | [] => pure (if special then "/" else "")
    | c :: rest =>
      if c = '/' ∨ (special ∧ c = '\\') then pathText join special rest else pathText join special raw
  let inQuery := if special then Percent.inSpecialQuery else Percent.inQuery
  let query := match beforeFragment.dropWhile (· != '?') with
    | [] => none
    | _ :: q => some (String.ofList (Percent.encode inQuery (joined q)))
  let fragment := match cs.dropWhile (· != '#') with
    | [] => none
    | _ :: f => some (String.ofList (Percent.encode Percent.inFragment (joined f)))
  return { u with path, query, fragment }

/-- Reads what follows the slashes of any scheme but `file`. -/
def ofAuthority (scheme : String) (cs : List Char) : Except ParseError Url := do
  let special := isSpecial scheme
  let authority := cs.takeWhile (!endsAuthority special ·)
  let tail := cs.dropWhile (!endsAuthority special ·)
  let (user, place) := splitUser authority
  let name := place.take (hostLength false place)
  if name.isEmpty then throw .emptyHost
  let host ← if special then Host.ofSpecial name else Host.ofOther name
  let (port, rest) ← portOf scheme (place.drop (hostLength false place))
  withTail joinEncoded special ⟨scheme, userinfoText user, host, port, "", none, none⟩ (rest ++ tail)

/-- A drive and the rest of its segment, where a tab or line end right behind the colon
cuts the two apart. -/
def cutDrive? (seg : List Char) : Option (List Char × List Char) :=
  match seg.dropWhile isBreak with
  | [] => none
  | c :: more =>
    match more.dropWhile isBreak with
    | ':' :: gap :: rest =>
      if c.isAlpha ∧ isBreak gap ∧ joined rest ≠ [] then some ([c, ':'], joined rest) else none
    | _ => none

/-- How a segment joins the path of a `file` URL.  A path that begins with a drive is
one of the local machine and takes the host away.  A drive that is cut off from the
rest of its segment becomes a segment of its own. -/
def joinLocal : Joining := fun done seg =>
  if done.isEmpty then
    match cutDrive? seg with
    | some (drive, rest) => .ok [Percent.encode Percent.inPath rest, drive]
    | none => if isDrive (joined seg) then .error .emptyHost else joinEncoded done (joined seg)
  else joinEncoded done (joined seg)

/-- Reads what follows the two slashes of a `file` URL, with its tabs and line ends.
The local machine is no host, and slashes that begin the path count as one. -/
def ofFile (cs : List Char) : Except ParseError Url := do
  let name := joined (cs.takeWhile (!endsAuthority true ·))
  if name.isEmpty ∨ isDrive name then throw .emptyHost
  let host ← Host.ofSpecial name
  if host = .name "localhost" then throw .emptyHost
  let u ← withTail joinLocal true ⟨"file", "", host, none, "", none, none⟩
    (cs.dropWhile (!endsAuthority true ·))
  return { u with path := "/" ++ String.ofList (u.path.toList.dropWhile (· == '/')) }

/-- Reads a text as a URL with a host. -/
def parse (s : String) : Except ParseError Url :=
  let cs := trimmed s.toList
  match scheme? (joined cs) with
  | none => .error .noScheme
  | some (scheme, rest) =>
    let isSlash (c : Char) : Bool := c == '/' || c == '\\'
    if scheme = "file" then
      match rest with
      | a :: b :: _ =>
        if isSlash a ∧ isSlash b then ofFile (after (scheme.length + 3) cs) else .error .emptyHost
      | _ => .error .emptyHost
    else if isSpecial scheme then ofAuthority scheme (rest.dropWhile isSlash)
    else match rest with
      | '/' :: '/' :: more => ofAuthority scheme more
      | _ => .error .emptyHost

end Url

end ReplicatedConfig
