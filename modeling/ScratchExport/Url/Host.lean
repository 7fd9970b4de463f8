import ScratchExport.Json.Reader
import ScratchExport.Text.Lines

/-!
# Hosts in brackets

A host between brackets is an IPv6 address, with an optional zone after `%`, or an address of a
future version: `v`, a hexadecimal version, a point and more text.
-/

namespace ScratchExport.Url

/-- A hexadecimal digit. -/
def isHex (c : Char) : Bool :=
  (Json.hexValue? c).isSome

/-- One to four hexadecimal digits. -/
def isHextet (cs : List Char) : Bool :=
  !cs.isEmpty && cs.length ≤ 4 && cs.all isHex

/-- A number up to 255 without leading zeros. -/
def isOctet (cs : List Char) : Bool :=
  !cs.isEmpty && cs.length ≤ 3 && cs.all Char.isDigit && (cs == ['0'] || cs.head? != some '0')
    && Text.digitsValue cs ≤ 255

/-- Four octets with points between them. -/
def isIPv4 (cs : List Char) : Bool :=
  let parts := Text.splitWhere (· == '.') cs
  parts.length == 4 && parts.all isOctet

/-- Eight groups, or fewer with one run of zeros written as an empty group. -/
def areGroups (parts : List (List Char)) : Bool :=
  let n := parts.length
  let inner := (parts.drop 1).take (n - 2)
  let firstEmpty := (parts.head?.getD []).isEmpty
  let lastEmpty := (parts.getLast?.getD []).isEmpty
  match (List.range inner.length).filter fun i => (inner[i]?.getD []).isEmpty with
  | [] => n == 8 && parts.all isHextet
  | [i] =>
    let high := parts.take (i + 1)
    let low := parts.drop (i + 2)
    let highOk := if firstEmpty then high.length == 1 else high.all isHextet
    let lowOk := if lastEmpty then low.length == 1 else low.all isHextet
    let count := (if firstEmpty then high.length - 1 else high.length)
      + (if lastEmpty then low.length - 1 else low.length)
    highOk && lowOk && count < 8
  | _ => false

/-- The groups of an IPv6 address; a group at the end may be an IPv4 address, which counts
for two. -/
def isIPv6Groups (cs : List Char) : Bool :=
  let parts := Text.splitWhere (· == ':') cs
  if parts.length < 3 then false
  else
    let last := parts.getLast?.getD []
    if last.contains '.' then
      isIPv4 last && parts.length ≤ 8 && areGroups (parts.dropLast ++ [['0'], ['0']])
    else parts.length ≤ 9 && areGroups parts

/-- An IPv6 address with an optional zone. -/
def isIPv6 (cs : List Char) : Bool :=
  if cs.contains '/' then false
  else
    let address := cs.takeWhile (· != '%')
    match cs.dropWhile (· != '%') with
    | [] => isIPv6Groups address
    | _ :: zone => !zone.isEmpty && !zone.contains '%' && isIPv6Groups address

/-- An address of a future version. -/
def isFutureAddress (cs : List Char) : Bool :=
  let version := cs.takeWhile isHex
  match cs.dropWhile isHex with
  | '.' :: rest => !version.isEmpty && !rest.isEmpty
  | _ => false

/-- A host that may stand in brackets. -/
def isBracketedHost : List Char → Bool
  | 'v' :: rest => isFutureAddress rest
  | cs => isIPv6 cs

end ScratchExport.Url
