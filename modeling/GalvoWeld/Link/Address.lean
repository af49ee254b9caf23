import GalvoWeld.Number.Decimal

/-!
# Addresses

An address is a host, a colon and a number. What is wrong with an address shows before any network
is asked.
-/

namespace GalvoWeld.Link

open Number (isDigit digitsValue)

/-- The text before and behind the last colon. -/
def splitAddress? (address : List Char) : Option (List Char × List Char) :=
  if address.contains ':' then
    let number := (address.reverse.takeWhile (· ≠ ':')).reverse
    some (address.take (address.length - number.length - 1), number)
  else none

/-- Are these digits of a number below `2^16`, behind an optional plus? -/
def isShortNumber (text : List Char) : Bool :=
  let digits := match text with
    | '+' :: rest => rest
    | rest => rest
  !digits.isEmpty && digits.all isDigit && digitsValue digits < 65536

/-- What is wrong with an address, if anything is. -/
def addressFlaw? (address : String) : Option String :=
  match splitAddress? address.toList with
  | none => some "invalid socket address"
  | some (host, number) =>
    if !isShortNumber number then some "invalid port value"
    else if host.isEmpty then
      some "failed to lookup address information: Name or service not known"
    else none

end GalvoWeld.Link
