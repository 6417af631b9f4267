import Ccflare.Account
import Ccflare.JsonValue
import Ccflare.Text

/-!
Model names per account, after `model_mapping.rs`: an exact entry of the account's
mappings wins, then the first entry, in key order, that shares a known pattern
with the model.
-/

namespace Ccflare.ModelMapping

open JsonValue

def knownPatterns : List String :=
  ["sonnet", "opus", "haiku", "claude-3", "claude-4", "claude-instant"]

def sharesPattern (key model : String) : Bool :=
  knownPatterns.any fun pattern =>
    Text.contains pattern (Text.toAsciiLowercase key) &&
      Text.contains pattern (Text.toAsciiLowercase model)

def patternMatch (model : String) (mappings : List (String × Json)) : Option String :=
  mappings.findSome? fun entry => if sharesPattern entry.1 model then entry.2.asStr else none

/-- The mappings of an account, if there are any that parse. -/
def accountMappings (codec : Codec) (account : Option Account) : Option (List (String × Json)) :=
  ((account.bind (·.modelMappings)).bind codec.fromStr).bind Json.asObject

def getModelName (codec : Codec) (model : String) (account : Option Account) : String :=
  match accountMappings codec account with
  | none => model
  | some mappings =>
      (((Json.field model mappings).bind Json.asStr).or (patternMatch model mappings)).getD model

def transformBodyModel (codec : Codec) (body : ByteArray) (account : Option Account) :
    Option ByteArray := do
  let json ← codec.fromSlice body
  let model ← json.getStr "model"
  let fields ← json.asObject
  let mapped := getModelName codec model account
  if mapped = model then none
  else return codec.toVec (.object (Json.insert "model" (.string mapped) fields))

end Ccflare.ModelMapping
