import Ccflare.JsonValue
import Ccflare.Utf8
import Mathlib

/-!
The model of a request body, after `handler.rs`. A body that writes its model in one of two
usual ways has the text of the name replaced, at the first place that looks so; any other
body is parsed, changed and printed. Indexed assignment panics on a document that is neither
an object nor null; a rewrite that panics has no value.
-/

namespace Ccflare.BodyRewriting

open JsonValue

def splitAtFirst (needle : List Char) : List Char → Option (List Char × List Char)
  | [] => if needle = [] then some ([], []) else none
  | c :: rest =>
      if needle.isPrefixOf (c :: rest) then some ([], (c :: rest).drop needle.length)
      else (splitAtFirst needle rest).map fun (before, behind) => (c :: before, behind)

def compactOpening : String := "\"model\":\""

def spacedOpening : String := "\"model\": \""

def needle (opening model : String) : List Char := opening.toList ++ model.toList ++ ['"']

def replaceFirst (opening : String) (text : List Char) (oldModel newModel : String) :
    Option (List Char) :=
  (splitAtFirst (needle opening oldModel) text).map fun (before, behind) =>
    before ++ needle opening newModel ++ behind

/-- `json[key] = value`. -/
def setField (key : String) (value : Json) : Json → Option Json
  | .object fields => some (.object (Json.insert key value fields))
  | .null => some (Json.make [(key, value)])
  | .bool _ | .number _ | .string _ | .array _ => none

def replaceModelInBody (codec : Codec) (body : ByteArray) (oldModel newModel : String) :
    Option (Option ByteArray) :=
  match String.fromUTF8? body with
  | none => some none
  | some text =>
      match replaceFirst compactOpening text.toList oldModel newModel with
      | some replaced => some (some (String.ofList replaced).toUTF8)
      | none =>
          match replaceFirst spacedOpening text.toList oldModel newModel with
          | some replaced => some (some (String.ofList replaced).toUTF8)
          | none =>
              match codec.fromSlice body with
              | none => some none
              | some json =>
                  (setField "model" (.string newModel) json).map fun changed =>
                    some (codec.toVec changed)

theorem split_spec (needle text before behind : List Char)
    (found : splitAtFirst needle text = some (before, behind)) :
    text = before ++ needle ++ behind := by
  induction text generalizing before with
  | nil =>
      unfold splitAtFirst at found
      split at found
      · next blank => cases found; simp [blank]
      · cases found
  | cons c rest ih =>
      unfold splitAtFirst at found
      split at found
      · next starts =>
          cases found
          obtain ⟨tail, same⟩ := List.isPrefixOf_iff_prefix.mp starts
          simp [← same]
      · obtain ⟨⟨first, second⟩, later, same⟩ := Option.map_eq_some_iff.mp found
        cases same
        simp [ih first later]

/-- The place that is replaced: the compact spelling comes first. -/
def firstMatch (text : List Char) (model : String) : Option (String × List Char × List Char) :=
  match splitAtFirst (needle compactOpening model) text with
  | some (before, behind) => some (compactOpening, before, behind)
  | none =>
      (splitAtFirst (needle spacedOpening model) text).map fun (before, behind) =>
        (spacedOpening, before, behind)

theorem first_match_spec (text before behind : List Char) (model opening : String)
    (found : firstMatch text model = some (opening, before, behind)) :
    (opening = compactOpening ∨ opening = spacedOpening) ∧
      text = before ++ needle opening model ++ behind := by
  unfold firstMatch at found
  split at found
  · next first second compact =>
      cases found
      exact ⟨Or.inl rfl, split_spec _ _ _ _ compact⟩
  · obtain ⟨⟨first, second⟩, spaced, same⟩ := Option.map_eq_some_iff.mp found
    cases same
    exact ⟨Or.inr rfl, split_spec _ _ _ _ spaced⟩

/-- What the function comes to, by the place that it finds. -/
theorem replace_cases (codec : Codec) (text oldModel newModel : String) :
    replaceModelInBody codec text.toUTF8 oldModel newModel =
      match firstMatch text.toList oldModel with
      | some (opening, before, behind) =>
          some (some (String.ofList (before ++ needle opening newModel ++ behind)).toUTF8)
      | none =>
          match codec.fromSlice text.toUTF8 with
          | none => some none
          | some json =>
              (setField "model" (.string newModel) json).map fun changed =>
                some (codec.toVec changed) := by
  unfold replaceModelInBody firstMatch replaceFirst
  rw [Utf8.decode_text]
  cases compact : splitAtFirst (needle compactOpening oldModel) text.toList with
  | some place => simp [compact]
  | none =>
      cases spaced : splitAtFirst (needle spacedOpening oldModel) text.toList with
      | some place => simp [compact, spaced]
      | none => simp [compact, spaced]

end Ccflare.BodyRewriting
