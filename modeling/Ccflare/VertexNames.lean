import Ccflare.RecordedUsage
import Ccflare.VertexAi

/-!
Model names on their way to Vertex AI and back. The way there splits the name nine bytes
before its end, and has no result when that is inside a character.
-/

namespace Ccflare.VertexNames

open Text VertexAi RecordedUsage

/-- A character begins nine bytes before the end of the name. -/
def CutsNine (model : String) : Prop :=
  ∃ left right, model.toList = left ++ right ∧ bytes right = 9

theorem split_nine_iff (model : String) (long : 10 ≤ Text.byteLength model) (left right : String) :
    Text.splitAt (Text.byteLength model - 9) model = some (left, right) ↔
      model.toList = left.toList ++ right.toList ∧ bytes right.toList = 9 := by
  have parts : Text.splitAt (Text.byteLength model - 9) model = some (left, right) ↔
      Text.splitAtBytes (Text.byteLength model - 9) model.toList =
        some (left.toList, right.toList) := by
    rw [Text.splitAt, Option.map_eq_some_iff]
    constructor
    · rintro ⟨⟨first, last⟩, found, same⟩
      obtain ⟨rfl, rfl⟩ := Prod.mk.inj same
      simpa using found
    · intro found
      exact ⟨_, found, by simp⟩
  rw [parts, split_at_bytes_iff]
  apply and_congr_right
  intro whole
  rw [byte_length_eq, whole, bytes_append] at long ⊢
  omega

/-- There is a result exactly if the name is short or can be split there. -/
theorem to_vertex_some_iff (model : String) :
    (∃ named, toVertexModel model = some named) ↔
      (10 ≤ Text.byteLength model → CutsNine model) := by
  by_cases long : 10 ≤ Text.byteLength model
  · rw [toVertexModel, if_pos long]
    constructor
    · rintro ⟨named, converted⟩ _
      obtain ⟨⟨left, right⟩, found, _⟩ := Option.map_eq_some_iff.mp converted
      obtain ⟨whole, nine⟩ := (split_nine_iff model long left right).mp found
      exact ⟨left.toList, right.toList, whole, nine⟩
    · intro cuts
      obtain ⟨left, right, whole, nine⟩ := cuts long
      have found := (split_nine_iff model long (String.ofList left) (String.ofList right)).mpr
        (by simpa using ⟨whole, nine⟩)
      exact ⟨_, Option.map_eq_some_iff.mpr ⟨_, found, rfl⟩⟩
  · simp [toVertexModel, long]

/-- A name goes out as it is, or its date goes after an `@`. -/
theorem to_vertex_cases (model named : String) (converted : toVertexModel model = some named) :
    named = model ∨ ∃ name date, model.toList = name ++ '-' :: date ∧ date.length = 8 ∧
      date.all Char.isDigit = true ∧ named = String.ofList (name ++ '@' :: date) := by
  unfold toVertexModel at converted
  split at converted
  · rename_i long
    obtain ⟨⟨left, right⟩, found, result⟩ := Option.map_eq_some_iff.mp converted
    obtain ⟨whole, _⟩ := (split_nine_iff model long left right).mp found
    dsimp only at result
    split at result
    · rename_i date stripped
      split at result
      · rename_i dated
        obtain ⟨eight, digits⟩ := dated
        have dashed : right.toList = '-' :: date.toList := by
          rw [Text.stripPrefix, Option.map_eq_some_iff] at stripped
          obtain ⟨rest, cut, rfl⟩ := stripped
          simpa using (List.isPrefixOf?_eq_some_iff_append_eq.mp cut).symm
        have length := digits_bytes date.toList digits
        rw [String.ofList_toList] at length
        refine .inr ⟨left.toList, date.toList, by rw [whole, dashed], by omega, digits, ?_⟩
        rw [← result]
        apply String.toList_inj.mp
        simp [String.toList_append]
      · exact .inl result.symm
    · exact .inl result.symm
  · exact .inl (Option.some.inj converted).symm

theorem digits_unmarked (date : List Char) (digits : date.all Char.isDigit = true) :
    '@' ∉ date := by
  intro member
  have digit := List.all_eq_true.mp digits '@' member
  revert digit
  decide

theorem from_vertex_dated (name date : List Char) (eight : date.length = 8)
    (digits : date.all Char.isDigit = true) :
    fromVertexModel (String.ofList (name ++ '@' :: date)) = String.ofList (name ++ '-' :: date) := by
  have dated : isDate date = true := by
    simp [isDate, digits_bytes date digits, eight, digits]
  simp only [fromVertexModel, String.toList_ofList,
    split_at_last_append '@' name date (digits_unmarked date digits), if_pos dated]

theorem converted_back (model named : String) (converted : toVertexModel model = some named)
    (undated : ¬ Dated model) : fromVertexModel named = model := by
  rcases to_vertex_cases model named converted with rfl | ⟨name, date, whole, eight, digits, rfl⟩
  · exact (from_vertex_fixed_iff _).mpr undated
  · rw [from_vertex_dated name date eight digits, ← whole, String.ofList_toList]

/-- A name comes back exactly if it is short or has a character boundary nine bytes before its
end. -/
theorem vertex_round_trip_iff (model : String) :
    (∃ named, toVertexModel model = some named ∧
      (¬ Dated model → fromVertexModel named = model)) ↔
    (10 ≤ Text.byteLength model → CutsNine model) := by
  rw [← to_vertex_some_iff]
  constructor
  · rintro ⟨named, converted, _⟩
    exact ⟨named, converted⟩
  · rintro ⟨named, converted⟩
    exact ⟨named, converted, converted_back model named converted⟩

theorem accent_split :
    ¬ ∃ named, toVertexModel "é12345678" = some named ∧
      (¬ Dated "é12345678" → fromVertexModel named = "é12345678") := by
  have panics : toVertexModel "é12345678" = none := by decide
  rintro ⟨named, converted, _⟩
  rw [panics] at converted
  cases converted

end Ccflare.VertexNames
