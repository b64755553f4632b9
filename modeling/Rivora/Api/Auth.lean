import Rivora.Text

/-! The keys of the HTTP API: the settings they are read from, and who a request is from. -/

namespace Rivora.Api

open Text

/-- A key and the name it is audited under. -/
structure Credential where
  name : String
  key : String
  deriving DecidableEq, Repr

/-- The mark of a named key. -/
def namedPrefix : String := "id:"

/-- Up to 64 bytes of letters, digits and three other characters. -/
def validKeyName (n : List Char) : Bool :=
  n ≠ [] && (String.ofList n).utf8ByteSize ≤ 64 && n.all fun r =>
    ('a' ≤ r && r ≤ 'z') || ('A' ≤ r && r ≤ 'Z') || ('0' ≤ r && r ≤ '9') || r = '.' || r = '_' || r = '-'

/-- The error of a named key that is not one; it does not echo the key. -/
def malformedEntry (i : Nat) : String :=
  "entry " ++ toString i ++ " of the key list is malformed: a named key is id:NAME=KEY, with NAME of letters, " ++
    "digits, '.', '_' or '-' (up to 64) and a non-empty KEY"

/-- The name of a key that was given none: its place among the keys so far. -/
def placeName (out : List Credential) : String := "key-" ++ toString (out.length + 1)

/-- The entries of a list of keys from one on, with those read so far; empty entries are dropped. -/
def parseEntries : (i : Nat) → (out : List Credential) → List (List Char) → Except String (List Credential)
  | _, out, [] => .ok out
  | i, out, e :: rest =>
    let e := (trimSpace e).toList
    if e = [] then parseEntries (i + 1) out rest
    else if !namedPrefix.toList.isPrefixOf e then
      parseEntries (i + 1) (out ++ [⟨placeName out, String.ofList e⟩]) rest
    else
      match cut '=' (e.drop namedPrefix.length) with
      | none => .error (malformedEntry (i + 1))
      | some (name, key) =>
        if key = [] || !validKeyName name then .error (malformedEntry (i + 1))
        else parseEntries (i + 1) (out ++ [⟨String.ofList name, String.ofList key⟩]) rest

/-- The keys of a comma-separated list. -/
def parseCredentials (spec : String) : Except String (List Credential) :=
  parseEntries 0 [] (spec.toList.splitOn ',')

/-- The keys that the server works with: none of a malformed list. -/
def credentials (spec : String) : List Credential := (parseCredentials spec).toOption.getD []

/-- The secrets of a list of keys. -/
def parseKeys (spec : String) : List String := (credentials spec).map Credential.key

/-- Whether a name looks like one made from a place. -/
def looksPlaced (name : String) : Bool := "key-".toList.isPrefixOf name.toList

/-- Refuse a name that is used twice, unless it looks like one made from a place. -/
def checkNames : (names : List String) → List Credential → Except String Unit
  | _, [] => .ok ()
  | names, c :: rest =>
    if !looksPlaced c.name && c.name ∈ names then
      .error ("the key name " ++ c.name.quote ++ " is used twice: audit entries would be ambiguous")
    else checkNames (c.name :: names) rest

/-- Check the two settings of a deployment. -/
def validateKeys (admin readOnly : String) : Except String Unit :=
  match parseCredentials admin with
  | .error e => .error ("RIVORA_API_KEY: " ++ e)
  | .ok ac =>
    match parseCredentials readOnly with
    | .error e => .error ("RIVORA_API_READONLY_KEY: " ++ e)
    | .ok rc =>
      match checkNames [] (ac ++ rc) with
      | .error e => .error e
      | .ok () =>
        let a := parseKeys admin
        let r := parseKeys readOnly
        if trimSpace admin.toList ≠ "" && a = [] then .error "RIVORA_API_KEY is set but contains no usable key"
        else if trimSpace readOnly.toList ≠ "" && r = [] then
          .error "RIVORA_API_READONLY_KEY is set but contains no usable key"
        else if r ≠ [] && a = [] then
          .error ("RIVORA_API_READONLY_KEY is set but RIVORA_API_KEY is not: an admin key is what turns " ++
            "authentication on, so without one the read-only key would protect nothing")
        else if r.any (· ∈ a) then
          .error ("a key appears in both RIVORA_API_KEY and RIVORA_API_READONLY_KEY: it would be ambiguous " ++
            "which role it has")
        else .ok ()

/-- The name of the key a token equals, and whether there is one; every key is compared. -/
def matchCred (token : String) (creds : List Credential) : String × Bool :=
  creds.foldl (fun found c => if token = c.key then (c.name, true) else found) ("", false)

/-- The token of an Authorization header. -/
def bearerToken (header : String) : Option String :=
  if "Bearer ".toList.isPrefixOf header.toList then some (String.ofList (header.toList.drop "Bearer ".length))
  else none

/-- What a caller may do. -/
inductive Role where
  | admin
  | readOnly
  deriving DecidableEq, Repr

/-- Who a request is from. -/
structure Identity where
  user : String
  role : Role
  deriving DecidableEq, Repr

/-- What of a server decides who a request is from. -/
structure Server where
  mtls : Bool
  /-- The common names that get the admin role. -/
  certAdmins : List String

/-- What of a request is looked at. -/
structure Request where
  /-- The common name of the client's certificate, if one was verified. -/
  verified : Option String
  authorization : String

/-- Who a request is from: a verified certificate first, else a bearer key. -/
def Server.identify (s : Server) (r : Request) (admin readOnly : List Credential) : Option Identity :=
  match s.mtls, r.verified with
  | true, some cn => some ⟨"cert:" ++ cn, if cn ∈ s.certAdmins then .admin else .readOnly⟩
  | _, _ =>
    match bearerToken r.authorization with
    | none => none
    | some token =>
      if (matchCred token admin).2 then some ⟨(matchCred token admin).1, .admin⟩
      else if (matchCred token readOnly).2 then some ⟨(matchCred token readOnly).1, .readOnly⟩
      else none

end Rivora.Api
