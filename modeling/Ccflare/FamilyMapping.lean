import Ccflare.ModelMapping

/-!
Model families and the mappings of an account. The fuzzy stage takes the first entry, in key
order, that shares a pattern with the model; the version patterns are shared by all families, so
such an entry may be meant for another one.
-/

namespace Ccflare.ModelMapping

open JsonValue

section Scan
variable {α : Type} (hit wrong : α → Bool)

end Scan

def names (name family : String) : Bool := Text.contains family (Text.toAsciiLowercase name)

def eligible (model : String) (entry : String × Json) : Bool :=
  sharesPattern entry.1 model && entry.2.asStr.isSome

end Ccflare.ModelMapping
