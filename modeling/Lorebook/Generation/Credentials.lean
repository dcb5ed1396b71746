import Lorebook.Entries
import Lorebook.Ident
import Lorebook.Log
import Lorebook.Text.Blank
import Lorebook.Text.Quoted

set_option autoImplicit false

/-! # Credentials for generator calls

Every call is made with the key of the owner of the world. An owner without a key of their own, or
with a blank one, is served by the shared fallback key if there is one. Keys never show in
diagnostics. -/

namespace Lorebook

/-- What a generator call needs besides its prompt. -/
structure Credentials where
  apiKey : String
  /-- In place of the generator's own address. -/
  baseUrl : Option String := none
  /-- In place of the generator's own model. -/
  model : Option String := none
deriving DecidableEq, Repr

/-- The credentials as diagnostics show them. -/
def Credentials.summary (c : Credentials) : String :=
  "Credentials \x7b api_key: \"<redacted>\", base_url: " ++ Text.quotedOption c.baseUrl
    ++ ", model: " ++ Text.quotedOption c.model ++ " \x7d"

/-- Why there are no credentials. -/
inductive CredentialsError where
  | missing (owner : OwnerId)
deriving DecidableEq, Repr

/-- The text of the error. -/
def CredentialsError.message : CredentialsError → String
  | .missing owner => s!"no generation credentials configured for owner {owner.text}"

/-- The credentials of owners, and a key for all others. -/
structure Keyring where
  owners : Dictionary Credentials := .empty
  fallback : Option String := none

namespace Keyring

instance : Inhabited Keyring := ⟨{}⟩

/-- The keyring as diagnostics show it. -/
def summary (k : Keyring) : String :=
  "ConfiguredCredentials \x7b owners: " ++ Text.quotedList k.owners.keys ++ ", fallback: "
    ++ toString k.fallback.isSome ++ " \x7d"

/-- Where the key for an owner is found. -/
inductive Source where
  | own (credentials : Credentials)
  | shared (key : String)
  | nowhere

/-- Find the key for an owner: their own unless it is blank, else the shared one unless it is. -/
def lookup (k : Keyring) (owner : OwnerId) : Source :=
  match (k.owners.find? owner.text).filter fun c => !Text.isBlank c.apiKey with
  | some c => .own c
  | none =>
    match k.fallback.filter fun key => !Text.isBlank key with
    | some key => .shared key
    | none => .nowhere

/-- The credentials for the calls of an owner. -/
def resolve (k : Keyring) (owner : OwnerId) : Except CredentialsError Credentials :=
  match k.lookup owner with
  | .own c => .ok c
  | .shared key => .ok { apiKey := key }
  | .nowhere => .error (.missing owner)

/-- What is told about finding the key for an owner. -/
def events (k : Keyring) (owner : OwnerId) : List LogEvent :=
  match k.lookup owner with
  | .shared _ =>
    [⟨.debug, .credentials, "using fallback generation key", [("owner_id", .str owner.text)]⟩]
  | _ => []

end Keyring

end Lorebook
