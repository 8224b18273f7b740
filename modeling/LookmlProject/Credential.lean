import LookmlProject.Bytes.Base64
import LookmlProject.Bytes.Utf8
import LookmlProject.Json.Reader
import LookmlProject.Json.Writer
import LookmlProject.Store.Basic
import LookmlProject.Value.Access

/-!
# Credentials of service accounts

A credential is a JSON value that travels as base64.  On the way every double quote of its JSON text
is an apostrophe, so a credential that has an apostrophe in it does not come back as it was.
-/

namespace LookmlProject.Credential

/-- A JSON text as base64. -/
def pack (text : String) : String :=
  String.ofList (Base64.encode (Utf8.encode (Text.swapChar '"' '\'' text.toList)))

/-- A credential as base64, if it can be written as JSON. -/
def encode (v : Json) : Except Fault String := pack <$> v.write

/-- A credential from base64. -/
def decode (encoded : String) : Except Fault Json :=
  if encoded.toList.any fun c => 128 ≤ c.toNat then .error .badValue
  else
    match Base64.decode encoded.toList with
    | none => .error .badBase64
    | some bytes =>
      match Utf8.decode bytes with
      | none => .error .badEncoding
      | some cs => Json.parse (Text.swapChar '\'' '"' cs)

/-- The credential that a value is. -/
def ofValue (v : Value) : Except Fault Json := v.asText >>= decode

/-- The file that a credential is written to if no other is named. -/
def defaultFile : String := "key.json"

/-- Writes a credential to a file as JSON.  The file is emptied first, and stays so if the credential
cannot be decoded. -/
def writeTo (store : Store) (encoded file : Value) : Store × Option Fault :=
  match file.asTarget with
  | .error fault => (store, some fault)
  | .ok path =>
    match store.write path "" with
    | .error fault => (store, some fault)
    | .ok emptied =>
      match do emptied.write path (← ofValue encoded).render with
      | .error fault => (emptied, some fault)
      | .ok filled => (filled, none)

end LookmlProject.Credential
