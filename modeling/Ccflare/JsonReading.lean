import Ccflare.JsonText

/-!
How the reader of tokens goes on. A value inside a container is read as it is read alone;
what follows a member of an object adds the same members whatever came before; and which
tokens are taken depends on the kinds of the open containers only, not on what they hold.
-/

namespace Ccflare.JsonText

open JsonValue Transducer

theorem document_from_append (mode : Mode) (left right : List Token) :
    documentFrom mode (left ++ right) =
      (follow parseStep mode left).bind fun next => documentFrom next right := by
  unfold documentFrom
  rw [follow_append]
  cases follow parseStep mode left <;> rfl

theorem document_from_some (mode : Mode) (tokens : List Token) (whole : Json) :
    documentFrom mode tokens = some whole ↔
      follow parseStep mode tokens = some (.after whole []) := by
  unfold documentFrom
  constructor
  · intro read
    split at read
    · next node followed =>
        rw [← Option.some.inj read]
        exact followed
    · cases read
  · intro followed
    rw [followed]

/-- The reader with more containers around it. -/
def onto (base : List Frame) : Mode → Mode
  | .value frames => .value (frames ++ base)
  | .arrayStart frames => .arrayStart (frames ++ base)
  | .objectStart frames => .objectStart (frames ++ base)
  | .nextKey members frames => .nextKey members (frames ++ base)
  | .colon members key frames => .colon members key (frames ++ base)
  | .after node frames => .after node (frames ++ base)

def Complete (mode : Mode) : Prop := ∃ node, mode = .after node []

theorem begin_onto (base frames : List Frame) (token : Token) :
    beginValue (frames ++ base) token = (beginValue frames token).map (onto base) := by
  cases token <;> rfl

theorem step_onto (base : List Frame) (mode : Mode) (token : Token) (going : ¬ Complete mode) :
    parseStep (onto base mode) token = (parseStep mode token).map (onto base) := by
  cases mode with
  | value frames => exact begin_onto base frames token
  | arrayStart frames => cases token <;> rfl
  | objectStart frames => cases token <;> rfl
  | nextKey members frames => cases token <;> rfl
  | colon members key frames => cases token <;> rfl
  | after node frames =>
      cases frames with
      | nil => exact absurd ⟨node, rfl⟩ going
      | cons frame rest => cases frame <;> cases token <;> rfl

theorem complete_step (mode next : Mode) (token : Token) (stepped : parseStep mode token = some next) :
    ¬ Complete mode := by
  rintro ⟨node, rfl⟩
  cases token <;> cases stepped

/-- What is read alone is read the same inside containers. -/
theorem follow_onto (base : List Frame) (mode next : Mode) (tokens : List Token)
    (read : follow parseStep mode tokens = some next) :
    follow parseStep (onto base mode) tokens = some (onto base next) := by
  induction tokens generalizing mode with
  | nil =>
      rw [follow_nil, Option.some.injEq] at read
      rw [follow_nil, read]
  | cons token rest ih =>
      rw [follow_cons] at read
      obtain ⟨middle, stepped, followed⟩ := Option.bind_eq_some_iff.mp read
      rw [follow_cons, step_onto base mode token (complete_step mode middle token stepped), stepped]
      exact ih middle followed

/-- A value that is read inside containers is complete before they are. -/
theorem value_run (base : List Frame) (inside : base ≠ []) (mode : Mode) (tokens : List Token)
    (result : Json) (read : follow parseStep (onto base mode) tokens = some (.after result [])) :
    ∃ own rest node, tokens = own ++ rest ∧ follow parseStep mode own = some (.after node []) ∧
      follow parseStep (.after node base) rest = some (.after result []) := by
  by_cases complete : Complete mode
  · obtain ⟨node, rfl⟩ := complete
    exact ⟨[], tokens, node, rfl, rfl, read⟩
  · induction tokens generalizing mode with
    | nil =>
        rw [follow_nil, Option.some.injEq] at read
        cases mode <;> simp_all [onto]
    | cons token later ih =>
        rw [follow_cons, step_onto base mode token complete, Option.bind_map] at read
        obtain ⟨next, stepped, followed⟩ := Option.bind_eq_some_iff.mp read
        by_cases done : Complete next
        · obtain ⟨node, rfl⟩ := done
          exact ⟨[token], later, node, rfl, by simp [stepped], followed⟩
        · obtain ⟨own, rest, node, split, owned, after⟩ := ih next followed done
          exact ⟨token :: own, rest, node, by rw [split, List.cons_append], by simp [stepped, owned],
            after⟩

/-- After a member of the outermost object that object ends, or a value follows under
another key. -/
theorem member_next (members : List (String × Json)) (key : String) (value result : Json)
    (tokens : List Token)
    (read : follow parseStep (.after value [.member members key]) tokens =
      some (.after result [])) :
    (tokens = [.closeObject] ∧ result = .object (members ++ [(key, value)])) ∨
    ∃ name rest, tokens = .comma :: .text name :: .colon :: rest ∧
      follow parseStep
        (.value [.member (members ++ [(key, value)]) (String.ofList name)]) rest =
          some (.after result []) := by
  cases tokens with
  | nil => simp at read
  | cons token rest =>
      cases token with
      | closeObject =>
          cases rest with
          | nil => exact Or.inl ⟨rfl, by simpa [parseStep, eq_comm] using read⟩
          | cons token rest => simp [parseStep] at read
      | comma =>
          cases rest with
          | nil => simp [parseStep] at read
          | cons token rest =>
              cases token with
              | text name =>
                  cases rest with
                  | nil => simp [parseStep] at read
                  | cons token rest =>
                      cases token with
                      | colon => exact Or.inr ⟨name, rest, rfl, by simpa [parseStep] using read⟩
                      | _ => simp [parseStep] at read
              | _ => simp [parseStep] at read
      | _ => simp [parseStep] at read

/-- What follows the value of a member in the outermost object adds the same members to
whatever is there. -/
theorem members_run (members : List (String × Json)) (key : String) (value result : Json)
    (tokens : List Token)
    (read : follow parseStep (.after value [.member members key]) tokens =
      some (.after result [])) :
    ∃ later, result = .object (members ++ (key, value) :: later) ∧
      ∀ others name node, follow parseStep (.after node [.member others name]) tokens =
        some (.after (.object (others ++ (name, node) :: later)) []) := by
  induction length : tokens.length using Nat.strong_induction_on
    generalizing members key value tokens with
  | _ count ih =>
      rcases member_next members key value result tokens read with
        ⟨rfl, rfl⟩ | ⟨name, rest, rfl, value_read⟩
      · exact ⟨[], rfl, fun others name node => by simp [parseStep]⟩
      · obtain ⟨own, after, node, rfl, owned, followed⟩ :=
          value_run [.member (members ++ [(key, value)]) (String.ofList name)] (by simp)
            (.value []) rest result value_read
        have shorter : after.length < count := by
          simp only [List.length_cons, List.length_append] at length
          omega
        obtain ⟨later, rfl, again⟩ := ih after.length shorter _ _ node after followed rfl
        refine ⟨(String.ofList name, node) :: later, by simp, fun others other held => ?_⟩
        have reread : follow parseStep (.value [.member (others ++ [(other, held)])
            (String.ofList name)]) own =
              some (.after node [.member (others ++ [(other, held)]) (String.ofList name)]) :=
          follow_onto [.member (others ++ [(other, held)]) (String.ofList name)] (.value []) _ own
            owned
        have ended := again (others ++ [(other, held)]) (String.ofList name) node
        simp only [follow_cons, parseStep, Option.bind_some, follow_append, reread, ended]
        simp

/-- What follows an item of the outermost array keeps it an array. -/
theorem items_run (items : List Json) (value result : Json) (tokens : List Token)
    (read : follow parseStep (.after value [.item items]) tokens = some (.after result [])) :
    ∃ all, result = .array all := by
  induction length : tokens.length using Nat.strong_induction_on generalizing items value tokens with
  | _ count ih =>
      cases tokens with
      | nil => simp at read
      | cons token rest =>
          cases token with
          | closeArray =>
              cases rest with
              | nil => exact ⟨items ++ [value], by simpa [parseStep, eq_comm] using read⟩
              | cons token rest => simp [parseStep] at read
          | comma =>
              obtain ⟨own, after, node, rfl, -, followed⟩ :=
                value_run [.item (items ++ [value])] (by simp) (.value []) rest result read
              have shorter : after.length < count := by
                simp only [List.length_cons, List.length_append] at length
                omega
              exact ih after.length shorter _ node after followed rfl
          | _ => simp [parseStep] at read

def isContainer : Json → Prop
  | .array _ | .object _ => True
  | .null | .bool _ | .number _ | .string _ => False

/-- The reader is inside a container: what it completes is one. -/
def Inside (mode : Mode) : Prop :=
  mode ≠ .value [] ∧ ∀ node, mode = .after node [] → isContainer node

theorem begin_inside (frames : List Frame) (token : Token) (next : Mode) (inside : frames ≠ [])
    (stepped : beginValue frames token = some next) : Inside next := by
  unfold beginValue at stepped
  split at stepped <;> cases stepped <;> simp [Inside, inside]

theorem inside_step (mode next : Mode) (token : Token) (inside : Inside mode)
    (stepped : parseStep mode token = some next) : Inside next := by
  cases mode with
  | value frames =>
      exact begin_inside frames token next (fun none => inside.1 (by rw [none])) stepped
  | arrayStart frames =>
      cases token <;> cases stepped <;> simp [Inside, isContainer]
  | objectStart frames => cases token <;> cases stepped <;> simp [Inside, isContainer]
  | nextKey members frames =>
      cases token <;> cases stepped
      simp [Inside]
  | colon members key frames =>
      cases token <;> cases stepped
      simp [Inside]
  | after node frames =>
      cases frames with
      | nil => cases token <;> cases stepped
      | cons frame rest =>
          cases frame <;> cases token <;> cases stepped <;> simp [Inside, isContainer]

theorem inside_run (mode next : Mode) (tokens : List Token) (inside : Inside mode)
    (read : follow parseStep mode tokens = some next) : Inside next := by
  induction tokens generalizing mode with
  | nil =>
      rw [follow_nil, Option.some.injEq] at read
      exact read ▸ inside
  | cons token rest ih =>
      rw [follow_cons] at read
      obtain ⟨middle, stepped, followed⟩ := Option.bind_eq_some_iff.mp read
      exact ih middle (inside_step mode middle token inside stepped) followed

inductive Kind where
  | array
  | object
  deriving DecidableEq

def Frame.kind : Frame → Kind
  | .item _ => .array
  | .member _ _ => .object

inductive Place where
  | value
  | arrayStart
  | objectStart
  | nextKey
  | colon
  | after

/-- Where the reader is, without what it has read. -/
def shape : Mode → Place × List Kind
  | .value frames => (.value, frames.map Frame.kind)
  | .arrayStart frames => (.arrayStart, frames.map Frame.kind)
  | .objectStart frames => (.objectStart, frames.map Frame.kind)
  | .nextKey _ frames => (.nextKey, frames.map Frame.kind)
  | .colon _ _ frames => (.colon, frames.map Frame.kind)
  | .after _ frames => (.after, frames.map Frame.kind)

/-- Which tokens are taken depends on the shape alone. -/
theorem shape_step (mode other : Mode) (token : Token) (same : shape mode = shape other) :
    (parseStep mode token).map shape = (parseStep other token).map shape := by
  cases mode <;> cases other <;> simp only [shape, Prod.mk.injEq, reduceCtorEq, false_and,
    true_and] at same
  case after.after node frames held others =>
    cases frames with
    | nil =>
        obtain rfl : others = [] := by simpa using same.symm
        cases token <;> rfl
    | cons frame rest =>
        cases others with
        | nil => simp at same
        | cons first later =>
            simp only [List.map_cons, List.cons.injEq] at same
            obtain ⟨kind, kinds⟩ := same
            cases frame <;> cases first <;> cases kind <;> cases token <;>
              simp [parseStep, shape, kinds, Frame.kind]
  all_goals cases token <;> simp [parseStep, beginValue, shape, same, Frame.kind]

theorem shape_run (mode other next : Mode) (tokens : List Token) (same : shape mode = shape other)
    (read : follow parseStep mode tokens = some next) :
    ∃ last, follow parseStep other tokens = some last ∧ shape next = shape last := by
  induction tokens generalizing mode other with
  | nil =>
      rw [follow_nil, Option.some.injEq] at read
      exact ⟨other, rfl, read ▸ same⟩
  | cons token rest ih =>
      rw [follow_cons] at read
      obtain ⟨middle, stepped, followed⟩ := Option.bind_eq_some_iff.mp read
      have mapped := shape_step mode other token same
      rw [stepped, Option.map_some, eq_comm, Option.map_eq_some_iff] at mapped
      obtain ⟨reached, taken, shapes⟩ := mapped
      obtain ⟨last, read, ended⟩ := ih middle reached shapes.symm followed
      exact ⟨last, by simp [taken, read], ended⟩

def openKinds : Mode → List Kind
  | .value frames | .after _ frames => frames.map Frame.kind
  | .arrayStart frames => .array :: frames.map Frame.kind
  | .objectStart frames | .nextKey _ frames | .colon _ _ frames =>
      .object :: frames.map Frame.kind

def effect : Token → List Kind → Option (List Kind)
  | .openObject, kinds => some (.object :: kinds)
  | .openArray, kinds => some (.array :: kinds)
  | .closeObject, .object :: kinds => some kinds
  | .closeArray, .array :: kinds => some kinds
  | .closeObject, _ | .closeArray, _ => none
  | .colon, kinds | .comma, kinds | .text _, kinds | .scalar _, kinds => some kinds

theorem begin_effect (frames : List Frame) (token : Token) (next : Mode)
    (stepped : beginValue frames token = some next) :
    effect token (frames.map Frame.kind) = some (openKinds next) := by
  unfold beginValue at stepped
  split at stepped <;> cases stepped <;> rfl

theorem step_effect (mode next : Mode) (token : Token)
    (stepped : parseStep mode token = some next) :
    effect token (openKinds mode) = some (openKinds next) := by
  cases mode with
  | value frames => exact begin_effect frames token next stepped
  | arrayStart frames => cases token <;> cases stepped <;> rfl
  | objectStart frames => cases token <;> cases stepped <;> rfl
  | nextKey members frames =>
      cases token <;> cases stepped
      rfl
  | colon members key frames =>
      cases token <;> cases stepped
      rfl
  | after node frames =>
      cases frames with
      | nil => cases token <;> cases stepped
      | cons frame rest => cases frame <;> cases token <;> cases stepped <;> rfl

theorem effect_injective (token : Token) (left right kinds : List Kind)
    (first : effect token left = some kinds) (second : effect token right = some kinds) :
    left = right := by
  cases token with
  | closeObject | closeArray =>
      cases left with
      | nil => cases first
      | cons kind rest =>
          cases right with
          | nil => cases second
          | cons other later => cases kind <;> cases other <;> simp_all [effect]
  | openObject | openArray =>
      have pushed := first.trans second.symm
      simpa [effect] using pushed
  | _ => exact Option.some.inj (first.trans second.symm)

/-- Readers that end with the same open containers after the same tokens began with the
same. -/
theorem kinds_run (mode other next last : Mode) (tokens : List Token)
    (first : follow parseStep mode tokens = some next)
    (second : follow parseStep other tokens = some last)
    (same : openKinds next = openKinds last) : openKinds mode = openKinds other := by
  induction tokens generalizing mode other with
  | nil =>
      rw [follow_nil, Option.some.injEq] at first second
      rw [first, second, same]
  | cons token rest ih =>
      rw [follow_cons] at first second
      obtain ⟨middle, stepped, followed⟩ := Option.bind_eq_some_iff.mp first
      obtain ⟨reached, taken, after⟩ := Option.bind_eq_some_iff.mp second
      have kinds := ih middle reached followed after
      exact effect_injective token _ _ _ (step_effect mode middle token stepped)
        (kinds ▸ step_effect other reached token taken)

/-- The complete members of the outermost container, where that is an object; around a value,
beside a key, and after a value. -/
def bottomMembers : List Frame → List (String × Json)
  | [] | [.item _] => []
  | [.member members _] => members
  | _ :: frame :: rest => bottomMembers (frame :: rest)

def keyMembers (members : List (String × Json)) : List Frame → List (String × Json)
  | [] => members
  | frame :: rest => bottomMembers (frame :: rest)

def afterMembers (node : Json) : List Frame → List (String × Json)
  | [] => (node.asObject).getD []
  | [.item _] => []
  | [.member members key] => members ++ [(key, node)]
  | _ :: frame :: rest => bottomMembers (frame :: rest)

def entered : Mode → List (String × Json)
  | .value frames | .arrayStart frames | .objectStart frames => bottomMembers frames
  | .nextKey members frames | .colon members _ frames => keyMembers members frames
  | .after node frames => afterMembers node frames

/-- A string that a token holds. -/
def Speaks (token : Token) (content : String) : Prop :=
  token = .text content.toList ∨ token = .scalar (.string content)

/-- At most one member is new, and its value is a string only if the token is. -/
def Adds (before after : List (String × Json)) (token : Token) : Prop :=
  after = before ∨ ∃ key value, after = before ++ [(key, value)] ∧
    ∀ content, value = .string content → Speaks token content

theorem after_members (node : Json) (frames : List Frame) (inside : frames ≠ []) (token : Token)
    (spoken : ∀ content, node = .string content → Speaks token content) :
    Adds (bottomMembers frames) (afterMembers node frames) token := by
  cases frames with
  | nil => exact absurd rfl inside
  | cons frame rest =>
      cases rest with
      | cons other later => exact Or.inl (by cases frame <;> rfl)
      | nil =>
          cases frame with
          | item items => exact Or.inl rfl
          | member members key => exact Or.inr ⟨key, node, rfl, spoken⟩

/-- A container that ends may be the value of a member. -/
theorem closed_members (node : Json) (frames : List Frame) (token : Token)
    (container : isContainer node) (whole : (node.asObject).getD [] = bottomMembers frames ∨
      frames ≠ []) :
    Adds (bottomMembers frames) (afterMembers node frames) token := by
  cases frames with
  | nil =>
      rcases whole with same | inside
      · exact Or.inl same
      · exact absurd rfl inside
  | cons frame rest =>
      refine after_members node (frame :: rest) (List.cons_ne_nil _ _) token ?_
      rintro content rfl
      exact container.elim

theorem begin_entered (frames : List Frame) (token : Token) (next : Mode) (inside : frames ≠ [])
    (stepped : beginValue frames token = some next) :
    Adds (bottomMembers frames) (entered next) token := by
  cases token with
  | text content =>
      cases stepped
      refine after_members _ frames inside _ fun other same => ?_
      rw [← Json.string.inj same]
      exact Or.inl (by rw [String.toList_ofList])
  | scalar value =>
      cases stepped
      exact after_members _ frames inside _ fun other same => Or.inr (by rw [same])
  | openObject | openArray =>
      cases stepped
      exact Or.inl rfl
  | _ => cases stepped

/-- A token completes at most one member of the outermost object, whose value is a string
only if the token is. -/
theorem entered_step (mode next : Mode) (token : Token) (inside : Inside mode)
    (stepped : parseStep mode token = some next) : Adds (entered mode) (entered next) token := by
  cases mode with
  | value frames =>
      exact begin_entered frames token next (fun none => inside.1 (by rw [none])) stepped
  | arrayStart frames =>
      by_cases closed : token = .closeArray
      · subst closed
        cases stepped
        cases frames with
        | nil => exact Or.inl rfl
        | cons frame rest => exact closed_members _ _ _ trivial (Or.inr (List.cons_ne_nil _ _))
      · have same : bottomMembers (.item [] :: frames) = bottomMembers frames := by
          cases frames <;> rfl
        have begun : beginValue (.item [] :: frames) token = some next := by
          rw [← stepped]
          cases token <;> first | rfl | exact absurd rfl closed
        have entering := begin_entered _ token next (List.cons_ne_nil _ _) begun
        rwa [same] at entering
  | objectStart frames =>
      cases token <;> cases stepped
      · cases frames with
        | nil => exact Or.inl rfl
        | cons frame rest => exact closed_members _ _ _ trivial (Or.inr (List.cons_ne_nil _ _))
      · exact Or.inl (by cases frames <;> rfl)
  | nextKey members frames =>
      cases token <;> cases stepped
      exact Or.inl rfl
  | colon members key frames =>
      cases token <;> cases stepped
      exact Or.inl (by cases frames <;> rfl)
  | after node frames =>
      cases frames with
      | nil => cases token <;> cases stepped
      | cons frame rest =>
          cases frame <;> cases token <;> cases stepped
          · cases rest with
            | nil => exact Or.inl rfl
            | cons other later =>
                exact closed_members _ _ _ trivial (Or.inr (List.cons_ne_nil _ _))
          · exact Or.inl (by cases rest <;> rfl)
          · cases rest with
            | nil => exact Or.inl rfl
            | cons other later =>
                exact closed_members _ _ _ trivial (Or.inr (List.cons_ne_nil _ _))
          · exact Or.inl (by cases rest <;> rfl)

/-- What a run adds to the outermost object; its strings are in the tokens. -/
theorem entered_run (mode next : Mode) (tokens : List Token) (inside : Inside mode)
    (read : follow parseStep mode tokens = some next) :
    ∃ added, entered next = entered mode ++ added ∧ ∀ key content, (key, .string content) ∈ added →
      ∃ token ∈ tokens, Speaks token content := by
  induction tokens generalizing mode with
  | nil =>
      rw [follow_nil, Option.some.injEq] at read
      exact ⟨[], by rw [read, List.append_nil], fun _ _ member => absurd member List.not_mem_nil⟩
  | cons token rest ih =>
      rw [follow_cons] at read
      obtain ⟨middle, stepped, followed⟩ := Option.bind_eq_some_iff.mp read
      obtain ⟨added, ended, said⟩ := ih middle (inside_step mode middle token inside stepped) followed
      have later : ∀ key content, (key, Json.string content) ∈ added →
          ∃ other ∈ token :: rest, Speaks other content := by
        intro key content member
        obtain ⟨other, among, spoken⟩ := said key content member
        exact ⟨other, List.mem_cons_of_mem token among, spoken⟩
      rcases entered_step mode middle token inside stepped with same | ⟨key, value, same, spoken⟩
      · exact ⟨added, by rw [ended, same], later⟩
      · refine ⟨(key, value) :: added, by simp [ended, same], fun name content member => ?_⟩
        rcases List.mem_cons.mp member with first | among
        · exact ⟨token, List.mem_cons_self, spoken content (Prod.mk.inj first).2.symm⟩
        · exact later name content among

theorem bottom_members_append (frame : Frame) (inner : List Frame)
    (members : List (String × Json)) (key : String) :
    bottomMembers (frame :: (inner ++ [.member members key])) = members := by
  induction inner generalizing frame with
  | nil => cases frame <;> rfl
  | cons other rest ih => cases frame <;> exact ih other

theorem after_members_append (node : Json) (frame : Frame) (inner : List Frame)
    (members : List (String × Json)) (key : String) :
    afterMembers node (frame :: (inner ++ [.member members key])) = members := by
  have same : afterMembers node (frame :: (inner ++ [.member members key])) =
      bottomMembers (frame :: (inner ++ [.member members key])) := by
    cases inner <;> cases frame <;> rfl
  exact same.trans (bottom_members_append frame inner members key)

theorem nested_members (node value : Json) (frame : Frame) (frames : List Frame)
    (inside : frames ≠ []) :
    entered (.after node (frame :: frames)) = entered (.after value (frame :: frames)) := by
  cases frames with
  | nil => exact absurd rfl inside
  | cons other rest => cases frame <;> rfl

/-- Two readers behind a value, with the same tokens to come: what they have entered differs,
and the container that both are in; what comes later is the same. -/
def Continued (mode other : Mode) (whole changed : Json) (inner : List Frame) : Prop :=
  (∃ later, inner = [] ∧ whole = .object (entered mode ++ later) ∧
    changed = .object (entered other ++ later)) ∨
  (∃ later key name node value, isContainer node ∧ isContainer value ∧ inner ≠ [] ∧
    whole = .object (entered mode ++ (key, node) :: later) ∧
    changed = .object (entered other ++ (name, value) :: later)) ∨
  ∃ items, whole = .array items

theorem continued (node value whole changed : Json) (members : List (String × Json))
    (key : String) (frames others : List Frame) (tokens : List Token)
    (first : follow parseStep (.after node (.member members key :: frames)) tokens =
      some (.after whole []))
    (second : follow parseStep (.after value others) tokens = some (.after changed [])) :
    Continued (.after node (.member members key :: frames)) (.after value others) whole changed
      frames := by
  have kinds : Kind.object :: frames.map Frame.kind = others.map Frame.kind :=
    kinds_run _ _ _ _ tokens first second rfl
  obtain ⟨top, around, rfl, topKind, aroundKinds⟩ := List.map_eq_cons_iff.mp kinds.symm
  rcases List.eq_nil_or_concat frames with rfl | ⟨inner, bottom, rfl⟩
  · left
    obtain rfl : around = [] := by simpa using aroundKinds
    cases top with
    | item items => cases topKind
    | member held name =>
        obtain ⟨later, rfl, again⟩ := members_run members key node whole tokens first
        have same := (again held name value).symm.trans second
        refine ⟨later, rfl, by simp [entered, afterMembers], ?_⟩
        simpa [entered, afterMembers] using same.symm
  · right
    rw [List.concat_eq_append, List.map_append] at aroundKinds
    obtain ⟨within, bottoms, rfl, withinKinds, bottomKinds⟩ := List.map_eq_append_iff.mp aroundKinds
    obtain ⟨bottomOther, none, rfl, bottomKind, noneKinds⟩ := List.map_eq_cons_iff.mp bottomKinds
    obtain rfl : none = [] := by simpa using noneKinds
    rw [List.concat_eq_append] at first ⊢
    -- the container that both are in ends with the same token
    obtain ⟨own, rest, container, rfl, owned, followed⟩ :=
      value_run [bottom] (List.cons_ne_nil _ _) (.after node (.member members key :: inner)) tokens
        whole first
    have same : shape (.after node (.member members key :: inner)) =
        shape (.after value (top :: within)) := by
      simp only [shape, List.map_cons, topKind, withinKinds]
      rfl
    obtain ⟨last, ownedOther, lastShape⟩ := shape_run _ _ _ own same owned
    obtain ⟨changedContainer, rfl⟩ : ∃ changed, last = .after changed [] := by
      cases last with
      | after changed frames =>
          obtain rfl : frames = [] := by simpa [shape] using lastShape
          exact ⟨changed, rfl⟩
      | _ => simp [shape] at lastShape
    have inside : ∀ held frame frames, Inside (.after held (frame :: frames)) := by
      intro held frame frames
      simp [Inside]
    have isContained := (inside_run _ _ own (inside node _ inner) owned).2 container rfl
    have isChanged := (inside_run _ _ own (inside value top within) ownedOther).2 _ rfl
    have reached : follow parseStep (.after value (top :: (within ++ [bottomOther]))) own =
        some (.after changedContainer [bottomOther]) :=
      follow_onto [bottomOther] _ _ own ownedOther
    have followedOther : follow parseStep (.after changedContainer [bottomOther]) rest =
        some (.after changed []) := by
      rw [follow_append, reached] at second
      exact second
    cases bottom with
    | item items =>
        right
        exact items_run items container whole rest followed
    | member outer name =>
        left
        cases bottomOther with
        | item items => cases bottomKind
        | member others other =>
            obtain ⟨later, rfl, again⟩ := members_run outer name container whole rest followed
            have ended := (again others other changedContainer).symm.trans followedOther
            refine ⟨later, name, other, container, changedContainer, isContained, isChanged,
              by simp, ?_, ?_⟩
            · rw [entered, after_members_append]
            · rw [entered, after_members_append]
              simpa using ended.symm

/-- Where a key may come: the members before it and the containers around. -/
def keyPlace : Mode → Option (List (String × Json) × List Frame)
  | .objectStart frames => some ([], frames)
  | .nextKey members frames => some (members, frames)
  | .value _ | .arrayStart _ | .colon _ _ _ | .after _ _ => none

theorem key_run (mode middle next : Mode) (key : List Char)
    (named : parseStep mode (.text key) = some middle)
    (followed : parseStep middle .colon = some next) :
    ∃ members frames, keyPlace mode = some (members, frames) ∧
      next = .value (.member members (String.ofList key) :: frames) := by
  cases mode with
  | objectStart frames =>
      cases named
      cases followed
      exact ⟨[], frames, rfl, rfl⟩
  | nextKey members frames =>
      cases named
      cases followed
      exact ⟨members, frames, rfl, rfl⟩
  | value frames =>
      cases named
      cases frames with
      | nil => cases followed
      | cons frame rest => cases frame <;> cases followed
  | arrayStart frames =>
      cases named
      cases followed
  | colon members name frames => cases named
  | after node frames =>
      cases frames with
      | nil => cases named
      | cons frame rest => cases frame <;> cases named

theorem key_place_run (mode : Mode) (members : List (String × Json)) (frames : List Frame)
    (key : List Char) (place : keyPlace mode = some (members, frames)) :
    follow parseStep mode [.text key, .colon] =
      some (.value (.member members (String.ofList key) :: frames)) := by
  cases mode <;> cases place <;> rfl

end Ccflare.JsonText
