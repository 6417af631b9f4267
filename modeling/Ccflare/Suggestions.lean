import Ccflare.Levenshtein
import Ccflare.StableSort
import Ccflare.Text

/-!
The names that are suggested for a mistyped one. The CLI lists a few, the nearest first, and
leaves the name itself out; the core crate keeps the nearest it has come by in one pass.
-/

namespace Ccflare.Suggestions

open EditDistance Levenshtein StableSort

variable (toLowercase : String → String)

/-- What the closure of `suggest` makes of a candidate. -/
def scored (inputLower : String) (threshold : Nat) (c : String) : Option (Option (Nat × String)) :=
  let cLower := toLowercase c
  if cLower = inputLower then some none
  else (distance inputLower cLower).map fun d => if d ≤ threshold then some (d, c) else none

def suggest (input : String) (candidates : List String) (threshold max : Nat) :
    Option (List String) := do
  let suggestions ← candidates.mapM (scored toLowercase (toLowercase input) threshold)
  let sorted := sortByKey (fun suggestion => suggestion.1) suggestions.reduceOption
  return (sorted.take max).map Prod.snd

def usizeMax : Nat := 18446744073709551615

/-- One round of the loop of `find_closest_match`. -/
def closer (input : String) (maxDistance : Nat) (best : Option String × Nat) (candidate : String) :
    Option (Option String × Nat) := do
  let d ← levenshteinDistance input candidate
  return if d < best.2 ∧ d ≤ maxDistance then (some candidate, d) else best

def findClosestMatch (input : String) (candidates : List String) (maxDistance : Nat) :
    Option (Option String) :=
  (candidates.foldlM (closer input maxDistance) (none, usizeMax)).map Prod.fst

/-- The edits, in bytes, between two names in lower case. -/
noncomputable def apart (input c : String) : Nat :=
  editDistance (Utf8.encode (toLowercase input).toList) (Utf8.encode (toLowercase c).toList)

/-- The candidate is near the input and not the input itself. -/
def Suggested (input : String) (threshold : Nat) (c : String) : Prop :=
  toLowercase c ≠ toLowercase input ∧ apart toLowercase input c ≤ threshold

open Classical in
noncomputable def pick (input : String) (threshold : Nat) (c : String) : Option (Nat × String) :=
  if Suggested toLowercase input threshold c then some (apart toLowercase input c, c) else none

theorem scored_eq (input : String) (threshold : Nat) :
    scored toLowercase (toLowercase input) threshold =
      fun c => some (pick toLowercase input threshold c) := by
  funext c
  unfold scored pick Suggested
  by_cases same : toLowercase c = toLowercase input
  · simp [same]
  · simp [same, distance_eq, apart]

/-- The suggestions, the nearest first. -/
noncomputable def ranked (input : String) (candidates : List String) (threshold : Nat) :
    List (Nat × String) :=
  sortByKey Prod.fst (candidates.filterMap (pick toLowercase input threshold))

theorem suggest_ranked (input : String) (candidates : List String) (threshold max : Nat) :
    suggest toLowercase input candidates threshold max =
      some (((ranked toLowercase input candidates threshold).take max).map Prod.snd) := by
  have listed : candidates.mapM (scored toLowercase (toLowercase input) threshold) =
      some (candidates.map (pick toLowercase input threshold)) := by
    rw [scored_eq]
    exact List.mapM_pure
  have found : (candidates.map (pick toLowercase input threshold)).reduceOption =
      candidates.filterMap (pick toLowercase input threshold) :=
    List.filterMap_map
  simp only [suggest, listed, Option.bind_eq_bind, Option.bind_some, found, ranked]
  rfl

theorem mem_ranked (input : String) (candidates : List String) (threshold : Nat)
    (suggestion : Nat × String) :
    suggestion ∈ ranked toLowercase input candidates threshold ↔
      suggestion.2 ∈ candidates ∧ Suggested toLowercase input threshold suggestion.2 ∧
        suggestion.1 = apart toLowercase input suggestion.2 := by
  obtain ⟨d, c⟩ := suggestion
  simp only [ranked, mem_sort_by_key, List.mem_filterMap, pick, Option.ite_none_right_eq_some,
    Option.some.injEq, Prod.mk.injEq]
  constructor
  · rintro ⟨c, member, suggested, rfl, rfl⟩
    exact ⟨member, suggested, rfl⟩
  · rintro ⟨member, suggested, same⟩
    exact ⟨c, member, suggested, same.symm, rfl⟩

/-- What is cut off behind the front of an ordered list is not before any of it. -/
theorem take_nearest (suggestions : List (Nat × String)) (max : Nat)
    (ordered : suggestions.Pairwise fun a b => a.1 ≤ b.1) (one : Nat × String)
    (member : one ∈ suggestions) :
    one ∈ suggestions.take max ∨ (suggestions.take max).length = max ∧
      ∀ other ∈ suggestions.take max, other.1 ≤ one.1 := by
  rw [← List.take_append_drop max suggestions] at member ordered
  rcases List.mem_append.mp member with front | back
  · exact .inl front
  · refine .inr ⟨?_, fun other listed => (List.pairwise_append.mp ordered).2.2 other listed one back⟩
    have behind : 0 < (suggestions.drop max).length := List.length_pos_of_mem back
    rw [List.length_drop] at behind
    rw [List.length_take]
    omega

/-- The CLI always answers with at most so many candidates as asked for, the nearest first, all
of them near and none the input itself; a near one that is left out is no nearer than those. -/
theorem suggest_nearest (input : String) (candidates : List String) (threshold max : Nat) :
    ∃ found, suggest toLowercase input candidates threshold max = some found ∧
      found.length ≤ max ∧
      found.Pairwise (fun a b => apart toLowercase input a ≤ apart toLowercase input b) ∧
      (∀ c ∈ found, c ∈ candidates ∧ Suggested toLowercase input threshold c) ∧
      ∀ c ∈ candidates, Suggested toLowercase input threshold c → c ∈ found ∨
        found.length = max ∧ ∀ other ∈ found,
          apart toLowercase input other ≤ apart toLowercase input c := by
  have ordered : (ranked toLowercase input candidates threshold).Pairwise fun a b => a.1 ≤ b.1 :=
    sort_by_key_ordered _ _
  have distances : ∀ suggestion ∈ (ranked toLowercase input candidates threshold).take max,
      suggestion.2 ∈ candidates ∧ Suggested toLowercase input threshold suggestion.2 ∧
        suggestion.1 = apart toLowercase input suggestion.2 :=
    fun suggestion member => (mem_ranked ..).mp (List.mem_of_mem_take member)
  refine ⟨_, suggest_ranked toLowercase input candidates threshold max, ?_, ?_, ?_, ?_⟩
  · rw [List.length_map]
    exact List.length_take_le _ _
  · refine List.pairwise_map.mpr ((ordered.sublist (List.take_sublist _ _)).imp_of_mem ?_)
    intro a b here there before
    rwa [← (distances a here).2.2, ← (distances b there).2.2]
  · intro c member
    obtain ⟨suggestion, here, rfl⟩ := List.mem_map.mp member
    exact ⟨(distances suggestion here).1, (distances suggestion here).2.1⟩
  · intro c member suggested
    have listed := (mem_ranked toLowercase input candidates threshold
      (apart toLowercase input c, c)).mpr ⟨member, suggested, rfl⟩
    rcases take_nearest _ max ordered _ listed with front | ⟨full, nearest⟩
    · exact .inl (List.mem_map.mpr ⟨_, front, rfl⟩)
    · refine .inr ⟨by rw [List.length_map]; exact full, fun other shown => ?_⟩
      obtain ⟨suggestion, here, rfl⟩ := List.mem_map.mp shown
      rw [← (distances suggestion here).2.2]
      exact nearest suggestion here

section Closest
variable (input : String) (maxDistance : Nat)

noncomputable def gap (candidate : String) : Nat := editDistance input.toList candidate.toList

/-- The candidate can become the best one. -/
noncomputable def eligible (candidate : String) : Bool :=
  decide (gap input candidate ≤ maxDistance ∧ gap input candidate < usizeMax)

/-- The best of the candidates the loop has seen. -/
def Best (candidates : List String) (best : Option String × Nat) : Prop :=
  best = (none, usizeMax) ∧ (∀ c ∈ candidates, eligible input maxDistance c = false) ∨
    ∃ c, best = (some c, gap input c) ∧
      Foremost (gap input) (eligible input maxDistance) candidates c

theorem closer_eq (best : Option String × Nat) (candidate : String) :
    closer input maxDistance best candidate =
      some (if gap input candidate < best.2 ∧ gap input candidate ≤ maxDistance then
        (some candidate, gap input candidate) else best) := by
  simp only [closer, levenshtein_distance_eq, gap, Option.bind_eq_bind, Option.bind_some]
  rfl

theorem closer_best (candidates : List String) (best : Option String × Nat) (candidate : String)
    (sound : Best input maxDistance candidates best) :
    ∃ next, closer input maxDistance best candidate = some next ∧
      Best input maxDistance (candidates ++ [candidate]) next := by
  refine ⟨_, closer_eq input maxDistance best candidate, ?_⟩
  rcases sound with ⟨rfl, none⟩ | ⟨c, rfl, foremost⟩
  · split
    · next closer =>
        refine .inr ⟨candidate, rfl, candidates, [], rfl, ?_, ?_, by simp⟩
        · exact decide_eq_true ⟨closer.2, closer.1⟩
        · intro other member fits
          rw [none other member] at fits
          cases fits
    · next far =>
        refine .inl ⟨rfl, fun other member => ?_⟩
        rcases List.mem_append.mp member with before | last
        · exact none other before
        · obtain rfl := List.mem_singleton.mp last
          exact decide_eq_false fun fits => far ⟨fits.2, fits.1⟩
  · split
    · next closer =>
        refine .inr ⟨candidate, rfl, candidates, [], rfl, ?_, ?_, by simp⟩
        · have within := of_decide_eq_true foremost.admitted
          exact decide_eq_true ⟨closer.2, closer.1.trans within.2⟩
        · exact fun other member fits => closer.1.trans_le (foremost.least other member fits)
    · next far =>
        obtain ⟨before, after, rfl, admitted, less, least⟩ := foremost
        refine .inr ⟨c, rfl, before, after ++ [candidate], by simp, admitted, less, ?_⟩
        intro other member fits
        rcases List.mem_append.mp member with behind | last
        · exact least other behind fits
        · obtain rfl := List.mem_singleton.mp last
          by_contra nearer
          exact far ⟨not_le.mp nearer, (of_decide_eq_true fits).1⟩

theorem loop_best (candidates : List String) :
    ∃ best, candidates.foldlM (closer input maxDistance) (none, usizeMax) = some best ∧
      Best input maxDistance candidates best := by
  induction candidates using List.reverseRecOn with
  | nil => exact ⟨_, rfl, .inl ⟨rfl, by simp⟩⟩
  | append_singleton candidates candidate ih =>
      obtain ⟨best, reached, sound⟩ := ih
      obtain ⟨next, moved, sound⟩ := closer_best input maxDistance candidates best candidate sound
      refine ⟨next, ?_, sound⟩
      rw [List.foldlM_append, reached]
      simpa using moved

end Closest

section Agreement
variable (input : String) (candidates : List String) (threshold : Nat)

theorem first_suggestion :
    suggest toLowercase input candidates threshold 1 =
      some ((ranked toLowercase input candidates threshold).head?.map Prod.snd).toList := by
  rw [suggest_ranked]
  cases ranked toLowercase input candidates threshold <;> rfl

/-- Lowering the text changes nothing, and its bytes are its characters. -/
def Plain (text : String) : Prop := toLowercase text = text ∧ Ascii text

variable {toLowercase} {input} {candidates} {threshold}

theorem apart_gap (here : Plain toLowercase input) (c : String) (there : Plain toLowercase c) :
    apart toLowercase input c = gap input c := by
  have bytes := distance_ascii input c here.2 there.2
  rw [distance_eq] at bytes
  rw [apart, here.1, there.1]
  exact Option.some.inj bytes

theorem pick_gap (plain : ∀ text ∈ input :: candidates, Plain toLowercase text)
    (other : input ∉ candidates) (within : threshold < usizeMax) (c : String)
    (member : c ∈ candidates) :
    pick toLowercase input threshold c =
      if eligible input threshold c then some (gap input c, c) else none := by
  have here := plain input List.mem_cons_self
  have there := plain c (List.mem_cons_of_mem _ member)
  have apart_ := apart_gap here c there
  have different : toLowercase c ≠ toLowercase input := by
    rw [here.1, there.1]
    rintro rfl
    exact other member
  by_cases near : gap input c ≤ threshold
  · have fits : eligible input threshold c = true :=
      decide_eq_true ⟨near, near.trans_lt within⟩
    rw [pick, if_pos ⟨different, apart_.trans_le near⟩, if_pos fits, apart_]
  · have far : eligible input threshold c = false := decide_eq_false fun fits => near fits.1
    rw [pick, if_neg fun suggested => near (apart_ ▸ suggested.2), far]
    rfl

/-- On plain names the suggestions are the eligible candidates in the order of their gaps. -/
theorem ranked_gap (plain : ∀ text ∈ input :: candidates, Plain toLowercase text)
    (other : input ∉ candidates) (within : threshold < usizeMax) :
    ranked toLowercase input candidates threshold =
      (sortByKey (gap input) (candidates.filter (eligible input threshold))).map
        fun c => (gap input c, c) := by
  have picked : candidates.filterMap (pick toLowercase input threshold) =
      (candidates.filter (eligible input threshold)).map fun c => (gap input c, c) := by
    rw [List.filterMap_congr (pick_gap plain other within), ← List.filterMap_eq_map,
      List.filterMap_filter]
    rfl
  rw [ranked, picked, sortByKey, sortByKey]
  exact (List.map_insertionSort (fun a b => gap input a ≤ gap input b)
    (fun a b : Nat × String => a.1 ≤ b.1) _ _ fun _ _ _ _ => Iff.rfl).symm

/-- Wherever lowering changes nothing, the one match that the core crate keeps is the first of
the names the CLI lists, unless the very name is among the candidates. -/
theorem closest_match_agrees (plain : ∀ text ∈ input :: candidates, Plain toLowercase text)
    (other : input ∉ candidates) (within : threshold < usizeMax) :
    ∃ best, findClosestMatch input candidates threshold = some best ∧
      suggest toLowercase input candidates threshold 1 = some best.toList := by
  obtain ⟨⟨best, d⟩, reached, sound⟩ := loop_best input threshold candidates
  refine ⟨best, by rw [findClosestMatch, reached]; rfl, ?_⟩
  rw [first_suggestion, ranked_gap plain other within, List.head?_map, Option.map_map]
  cases listed : (sortByKey (gap input) (candidates.filter (eligible input threshold))).head? with
  | none =>
      rcases sound with ⟨same, -⟩ | ⟨kept, -, foremost⟩
      · obtain ⟨rfl, -⟩ := Prod.mk.inj same
        rfl
      · have member : kept ∈ sortByKey (gap input) (candidates.filter (eligible input threshold)) :=
          (mem_sort_by_key _ _ _).mpr (List.mem_filter.mpr ⟨foremost.mem, foremost.admitted⟩)
        rw [List.head?_eq_none_iff.mp listed] at member
        cases member
  | some c =>
      have front := foremost_of_head _ _ _ _ listed
      rcases sound with ⟨-, none⟩ | ⟨kept, same, foremost⟩
      · have fits := front.admitted
        rw [none c front.mem] at fits
        cases fits
      · obtain ⟨rfl, -⟩ := Prod.mk.inj same
        rw [foremost_meet front foremost front.admitted foremost.admitted]
        rfl

instance (text : String) : Decidable (Plain toLowercase text) :=
  @instDecidableAnd _ _ (decEq _ _) (List.decidableBAll _ text.toList)

/-- A typo of a mode is answered with that mode by both. -/
theorem session_suggested :
    ∃ best, findClosestMatch "sesion" ["least", "session"] 3 = some best ∧
      suggest Text.toAsciiLowercase "sesion" ["least", "session"] 3 1 = some best.toList :=
  closest_match_agrees
    (@of_decide_eq_true _ (List.decidableBAll _ ["sesion", "least", "session"]) (by decide))
    (by decide) (by decide)

end Agreement

end Ccflare.Suggestions
