import Ccflare.JsonValue
import Ccflare.Transducer
import Mathlib.Data.List.Perm.Basic

/-!
The message stream an Anthropic client reads. A stream is well formed when an
acceptor takes it from waiting to done: one start, blocks numbered in the order
they start, deltas and stops of open blocks only, and nothing open at the end.
Folding a stream gives the message a client holds when the stream is over.
-/

namespace Ccflare.MessageStream

open JsonValue Transducer

inductive ContentBlock where
  | text
  | toolUse (id name : String)
  deriving DecidableEq

inductive Delta where
  | text (text : String)
  | inputJson (partialJson : String)
  deriving DecidableEq

inductive StreamEvent where
  | messageStart (id : Json) (model : String) (inputTokens : Int)
  | ping
  | contentBlockStart (index : Nat) (block : ContentBlock)
  | contentBlockDelta (index : Nat) (delta : Delta)
  | contentBlockStop (index : Nat)
  | messageDelta (stopReason : String) (outputTokens : Int)
  | messageStop
  deriving DecidableEq

/-- Where a reader stands: `running` counts the blocks started so far and holds
the indices of the open ones. -/
inductive Phase where
  | waiting
  | running (started : Nat) (opened : List Nat)
  | closing
  | done
  deriving DecidableEq

def advance : Phase → StreamEvent → Option Phase
  | .waiting, .messageStart _ _ _ => some (.running 0 [])
  | .running started opened, .ping => some (.running started opened)
  | .running started opened, .contentBlockStart index _ =>
      if index = started then some (.running (started + 1) (index :: opened)) else none
  | .running started opened, .contentBlockDelta index _ =>
      if index ∈ opened then some (.running started opened) else none
  | .running started opened, .contentBlockStop index =>
      if index ∈ opened then some (.running started (opened.erase index)) else none
  | .running _ [], .messageDelta _ _ => some .closing
  | .closing, .messageStop => some .done
  | _, _ => none

def WellFormed (events : List StreamEvent) : Prop := follow advance .waiting events = some .done

instance (events : List StreamEvent) : Decidable (WellFormed events) :=
  inferInstanceAs (Decidable (_ = _))

theorem follow_stops (started : Nat) (opened indices : List Nat) (same : opened.Perm indices) :
    follow advance (.running started opened) (indices.map .contentBlockStop) =
      some (.running started []) := by
  induction indices generalizing opened with
  | nil => simp [same.eq_nil]
  | cons index rest ih =>
      have member : index ∈ opened := same.mem_iff.mpr List.mem_cons_self
      have left : (opened.erase index).Perm rest := by
        simpa using same.erase index
      simp [advance, member, ih _ left]

inductive Content where
  | text (text : String)
  | toolUse (id name partialJson : String)
  deriving DecidableEq

def ContentBlock.empty : ContentBlock → Content
  | .text => .text ""
  | .toolUse id name => .toolUse id name ""

def Content.extend : Content → Delta → Content
  | .text held, .text more => .text (held ++ more)
  | .toolUse id name partialJson, .inputJson more => .toolUse id name (partialJson ++ more)
  | content, _ => content

structure Message where
  inputTokens : Int
  outputTokens : Int
  stopReason : Option String
  blocks : List (Nat × Content)
  deriving DecidableEq

def Message.empty : Message := ⟨0, 0, none, []⟩

def Message.receive (message : Message) : StreamEvent → Message
  | .messageStart _ _ tokens => { message with inputTokens := tokens }
  | .contentBlockStart index block =>
      { message with blocks := message.blocks ++ [(index, block.empty)] }
  | .contentBlockDelta index delta =>
      { message with blocks := message.blocks.map fun entry =>
          if entry.1 = index then (entry.1, entry.2.extend delta) else entry }
  | .messageDelta reason tokens =>
      { message with stopReason := some reason, outputTokens := tokens }
  | .ping | .contentBlockStop _ | .messageStop => message

def Message.fold (message : Message) (events : List StreamEvent) : Message :=
  events.foldl Message.receive message

theorem fold_append (message : Message) (left right : List StreamEvent) :
    message.fold (left ++ right) = (message.fold left).fold right :=
  List.foldl_append

theorem fold_start (id : Json) (model : String) (events : List StreamEvent) :
    Message.empty.fold (.messageStart id model 0 :: .ping :: events) =
      Message.empty.fold events := rfl

theorem fold_stops (message : Message) (indices : List Nat) :
    message.fold (indices.map .contentBlockStop) = message := by
  induction indices with
  | nil => rfl
  | cons index rest ih => exact ih

-- A delta that names a block by a label no earlier block has changes the last one.
theorem fold_delta (message : Message) (before : List (Nat × Content)) (index : Nat)
    (content : Content) (delta : Delta) (others : ∀ entry ∈ before, entry.1 ≠ index)
    (blocks : message.blocks = before ++ [(index, content)]) :
    message.receive (.contentBlockDelta index delta) =
      { message with blocks := before ++ [(index, content.extend delta)] } := by
  have kept : before.map (fun entry =>
      if entry.1 = index then (entry.1, entry.2.extend delta) else entry) = before := by
    conv_rhs => rw [← List.map_id before]
    apply List.map_congr_left
    intro entry member
    simp [others entry member]
  simp [Message.receive, blocks, kept]

/-- The input of a tool block whose fragments are all there: no fragment at all
stands for the empty object of its start. -/
def toolInput (codec : Codec) (partialJson : String) : Option Json :=
  if partialJson = "" then some (Json.make []) else codec.fromStr partialJson

/-- A block as a client holds it at the end of the stream. -/
def Content.toJson (codec : Codec) : Content → Option Json
  | .text held => some (Json.make [("type", .string "text"), ("text", .string held)])
  | .toolUse id name partialJson => (toolInput codec partialJson).map fun input =>
      Json.make [("type", .string "tool_use"), ("id", .string id), ("name", .string name),
        ("input", input)]

end Ccflare.MessageStream
