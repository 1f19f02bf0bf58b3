import ReplicatedConfig.Url.Address
import ReplicatedConfig.Url.Label

/-!
# Hosts

The host of a special scheme is a name or an address: percent-encoding is undone, ASCII
letters are lowered, a name that ends in a number has to be a 32-bit address, and a
name with a forbidden character is refused.  Names are written in ASCII here, also where
their labels are not (`Url.Label`).  Any other scheme keeps its host as it is written,
less the characters that no host may hold.  Either kind may be a 128-bit address in
brackets.
-/

namespace ReplicatedConfig.Url

/-- Why a text is no URL with a host. -/
inductive ParseError where
  | noScheme
  | emptyHost
  | invalidPort
  | invalidV4
  | invalidV6
  | invalidName
  | invalidCharacter
  deriving DecidableEq

/-- What the error says. -/
def ParseError.message : ParseError → String
  | .noScheme => "relative URL without a base"
  | .emptyHost => "empty host"
  | .invalidPort => "invalid port number"
  | .invalidV4 => "invalid IPv4 address"
  | .invalidV6 => "invalid IPv6 address"
  | .invalidName => "invalid international domain name"
  | .invalidCharacter => "invalid domain character"

/-- Who a URL points to. -/
inductive Host where
  | name (text : String)
  | v4 (address : Nat)
  | v6 (groups : List Nat)
  deriving DecidableEq

namespace Host

/-- How a host is shown. -/
def text : Host → String
  | .name s => s
  | .v4 n => Address.v4Text n
  | .v6 gs => "[" ++ Address.v6Text gs ++ "]"

/-- What no host may hold. -/
def isForbidden (c : Char) : Bool :=
  c ∈ [Char.ofNat 0, '\t', '\n', '\r', ' ', '#', '/', ':', '<', '>', '?', '@', '[', '\\', ']', '^', '|']

/-- What no name may hold, in a host of a special scheme. -/
def isForbiddenInName (c : Char) : Bool :=
  isForbidden c || c == '%' || c.toNat < 0x20 || 0x7e < c.toNat

/-- The address between brackets. -/
def bracketed (cs : List Char) : Except ParseError Host :=
  if cs.getLast? = some ']' then
    match Address.v6? (cs.drop 1).dropLast with
    | some gs => .ok (.v6 gs)
    | none => .error .invalidV6
  else .error .invalidV6

/-- The host of a special scheme. -/
def ofSpecial (cs : List Char) : Except ParseError Host :=
  if cs.head? = some '[' then bracketed cs
  else
    let name := (Percent.decode cs).map fun b => (Char.ofNat b.toNat).toLower
    if name.any isForbiddenInName ∨ !Label.areValid name then .error .invalidName
    else if name.isEmpty then .error .emptyHost
    else if Address.endsInNumber name then
      match Address.v4? name with
      | some n => .ok (.v4 n)
      | none => .error .invalidV4
    else .ok (.name (String.ofList name))

/-- The host of any other scheme. -/
def ofOther (cs : List Char) : Except ParseError Host :=
  if cs.head? = some '[' then bracketed cs
  else if cs.any isForbidden then .error .invalidCharacter
  else .ok (.name (String.ofList (Percent.encode Percent.isControl cs)))

end Host

end ReplicatedConfig.Url
