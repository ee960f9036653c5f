import DocBlock.Json.Parser

/-! The path that the target of a request names. A target may be a whole address, with a scheme and
a host in front of the path and a query and a fragment behind it. -/

namespace DocBlock.Service

/-- Characters of a scheme. It starts with a letter. -/
def isSchemeCharacter (c : Char) : Bool :=
  c.isAlphanum || c = '+' || c = '-' || c = '.'

/-- The address after its scheme and the colon. -/
def withoutScheme (address : Text) : Text :=
  match Text.cut? [':'] address with
  | some (first :: scheme, rest) =>
    if first.isAlpha && scheme.all isSchemeCharacter then rest else address
  | _ => address

/-- The address after its host, which two slashes introduce. -/
def withoutHost (address : Text) : Text :=
  match Text.after? "//".toList address with
  | some rest => rest.dropWhile (· ≠ '/')
  | none => address

/-- The address without control characters and spaces in front, and without tabs and line breaks
anywhere. -/
def cleanAddress (address : Text) : Text :=
  (address.dropWhile (·.toNat ≤ 0x20)).filter fun c => c ≠ '\t' && c ≠ '\n' && c ≠ '\r'

/-- The path inside an address. -/
def addressPath (address : Text) : Text :=
  withoutHost (withoutScheme ((cleanAddress address).takeWhile fun c => c ≠ '?' && c ≠ '#'))

/-- An ASCII character by its hexadecimal number, behind a percent sign. -/
def percentEscape? : Text.Reader Text
  | '%' :: high :: low :: rest => do
    let value := 16 * (← Json.hexValue? high) + (← Json.hexValue? low)
    guard (value < 0x80)
    return ([Char.ofNat value], rest)
  | _ => none

/-- The path of a target, with its percent escapes read and one slash at its start. What is left of
an address is read as an address once more. -/
def targetPath (target : Text) : Text :=
  let path := Text.replaceAll percentEscape? (addressPath (addressPath target))
  '/' :: path.dropWhile (· = '/')

/-- Two slashes in a row, to be one. -/
def doubleSlash? : Text.Reader Text := fun text =>
  (Text.after? "//".toList text).map (['/'], ·)

/-- The path with each pair of slashes made one. -/
def mergedSlashes (path : Text) : Text :=
  Text.replaceAll doubleSlash? path

end DocBlock.Service
