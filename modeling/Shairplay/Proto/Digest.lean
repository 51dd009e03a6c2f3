import Shairplay.Lib.Str
import Shairplay.Lib.Utf8

/-!
# Digest authentication

A request to a server with a password carries an `Authorization` header whose parameters
are separated by commas outside double quotes. Of a parameter that is given more than once
the last well-formed value counts. MD5 comes from a third-party crate.
-/

namespace Shairplay.Proto.Digest

open Lib Str

/-- MD5, as a function on bytes. -/
abbrev Md5 := List UInt8 → List UInt8

/-- A lower-case hexadecimal digit. -/
def hexDigit (n : Nat) : Char := Nat.digitChar n

/-- `md5_to_hex`. -/
def md5ToHex (hash : List UInt8) : List Char :=
  hash.flatMap fun b => [hexDigit (b.toNat / 16), hexDigit (b.toNat % 16)]

def asBytes (s : List Char) : List UInt8 := Utf8.encode (String.ofList s)

/-- `get_response`: the response a client that knows the password sends. -/
def getResponse (md5 : Md5) (username realm password nonce method uri : List Char) : List Char :=
  let ha1 := md5ToHex (md5 (asBytes username ++ asBytes [':'] ++ asBytes realm ++ asBytes [':'] ++
    asBytes password))
  let ha2 := md5ToHex (md5 (asBytes method ++ asBytes [':'] ++ asBytes uri))
  md5ToHex (md5 (asBytes ha1 ++ asBytes [':'] ++ asBytes nonce ++ asBytes [':'] ++ asBytes ha2))

/-- `extract_quoted`: the quoted value of a parameter with this name. -/
def extractQuoted (part key : List Char) : Option (List Char) :=
  match splitOnce (· == '=') part with
  | none => none
  | some (lhs, rhs) =>
    if !eqIgnoreAsciiCase (trim lhs) key then none
    else
      let rhs := trim rhs
      if byteLen rhs < 2 || !(rhs.head? == some '"') || !(rhs.getLast? == some '"') then none
      else some rhs.tail.dropLast

/-- The loop of `split_quoted_csv`: the part being read, and whether it is inside quotes. -/
def splitLoop : Bool → List Char → List Char → List (List Char)
  | _, part, [] => [part]
  | inQuotes, part, c :: rest =>
    if c = '"' then splitLoop (!inQuotes) (part ++ [c]) rest
    else if c = ',' ∧ inQuotes = false then part :: splitLoop inQuotes [] rest
    else splitLoop inQuotes (part ++ [c]) rest

/-- `split_quoted_csv`. -/
def splitQuotedCsv (input : List Char) : List (List Char) := splitLoop false [] input

/-- The parameters found so far. -/
structure Params where
  username : Option (List Char) := none
  realm : Option (List Char) := none
  nonce : Option (List Char) := none
  uri : Option (List Char) := none
  response : Option (List Char) := none
  deriving DecidableEq

/-- Take in one part; the first name that matches decides. -/
def Params.take (params : Params) (part : List Char) : Params :=
  let part := trim part
  match extractQuoted part "username".toList with
  | some val => { params with username := some val }
  | none =>
  match extractQuoted part "realm".toList with
  | some val => { params with realm := some val }
  | none =>
  match extractQuoted part "nonce".toList with
  | some val => { params with nonce := some val }
  | none =>
  match extractQuoted part "uri".toList with
  | some val => { params with uri := some val }
  | none =>
  match extractQuoted part "response".toList with
  | some val => { params with response := some val }
  | none => params

/-- The final comparison, once all parameters are read. -/
def Params.accepted (md5 : Md5) (realm password nonce method uri : List Char) (params : Params) :
    Bool :=
  match params.username, params.realm, params.nonce, params.uri, params.response with
  | some username, some authRealm, some authNonce, some authUri, some response =>
    if authRealm ≠ realm ∨ authNonce ≠ nonce ∨ authUri ≠ uri then false
    else asBytes response == asBytes (getResponse md5 username realm password nonce method uri)
  | _, _, _, _, _ => false

/-- `is_valid`. -/
def isValid (md5 : Md5) (realm password nonce method uri : List Char)
    (authorization : Option (List Char)) : Bool :=
  match authorization with
  | none => false
  | some auth =>
    match splitOnce isWhitespace (trim auth) with
    | none => false
    | some (scheme, params) =>
      if !eqIgnoreAsciiCase scheme "Digest".toList then false
      else
        let params := trimStart params
        if params.isEmpty then false
        else ((splitQuotedCsv params).foldl Params.take {}).accepted md5 realm password nonce
          method uri

end Shairplay.Proto.Digest
