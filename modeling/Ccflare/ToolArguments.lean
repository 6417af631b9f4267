import Ccflare.StreamNumbering

/-!
Whether a client of the stream translator gets every tool argument. The calls of
one stream interleave, but each index has its own accumulator, so what is sent for
an index is a run over the deltas of that index alone.
-/

namespace Ccflare.ToolArguments

open JsonValue MessageStream OpenAiStream OpenAiStreamContext StreamItems StreamNumbering
open Transducer

def Named (delta : ToolDelta) : Prop := delta.name.getD "" ≠ ""

instance (delta : ToolDelta) : Decidable (Named delta) := inferInstanceAs (Decidable (_ ≠ _))

/-- The id the upstream gives a call: the last one, where an empty text is none. -/
def idGiven (deltas : List ToolDelta) : String :=
  deltas.foldl (fun given delta =>
    if delta.id.getD "" = "" then given else delta.id.getD "") ""

/-- The id its accumulator holds after the deltas. -/
def idHeld (deltas : List ToolDelta) : String :=
  deltas.foldl (fun held delta => delta.id.getD held) ""

def argumentsGiven (deltas : List ToolDelta) : String :=
  Text.joinWith "" (deltas.map fun delta => delta.arguments.getD "")

def Item.deltaFor (index : Nat) : Item → Option ToolDelta
  | .text _ _ => none
  | .tool delta _ => if delta.index = index then some delta else none

def Item.index : Item → Option Nat
  | .text _ _ => none
  | .tool delta _ => some delta.index

def toolIndices (items : List Item) : List Nat := items.filterMap Item.index

def toolDeltas (index : Nat) (items : List Item) : List ToolDelta :=
  items.filterMap (Item.deltaFor index)

/-- The events that start a tool call under a block number or add to its input. -/
def toolEvent (block : Nat) : StreamEvent → Bool
  | .contentBlockStart number (.toolUse _ _) => number == block
  | .contentBlockDelta number (.inputJson _) => number == block
  | _ => false

def startedId : StreamEvent → Option String
  | .contentBlockStart _ (.toolUse id _) => some id
  | _ => none

def partialJson : StreamEvent → Option String
  | .contentBlockDelta _ (.inputJson text) => some text
  | _ => none

def startedIds (events : List StreamEvent) : List String := events.filterMap startedId

def argumentsSent (events : List StreamEvent) : String :=
  Text.joinWith "" (events.filterMap partialJson)

/-- The stream opens one block for the call, with its id, and sends its arguments there. -/
def Carried (events : List StreamEvent) (block : Nat) (deltas : List ToolDelta) : Prop :=
  argumentsSent (events.filter (toolEvent block)) = argumentsGiven deltas ∧
    startedIds (events.filter (toolEvent block)) = [idGiven deltas]

instance (events : List StreamEvent) (block : Nat) (deltas : List ToolDelta) :
    Decidable (Carried events block deltas) :=
  inferInstanceAs (Decidable (_ ∧ _))

/-- The deltas before the one that names the tool. -/
def unnamed (deltas : List ToolDelta) : List ToolDelta :=
  deltas.takeWhile fun delta => ¬ Named delta

def fromName (deltas : List ToolDelta) : List ToolDelta :=
  deltas.dropWhile fun delta => ¬ Named delta

/-- No argument comes before the name, and the id is held when the name comes. -/
def InTime (deltas : List ToolDelta) : Prop :=
  (∀ delta ∈ unnamed deltas, delta.arguments.getD "" = "") ∧
    idHeld (unnamed deltas ++ (fromName deltas).take 1) = idGiven deltas

instance (deltas : List ToolDelta) : Decidable (InTime deltas) :=
  inferInstanceAs (Decidable (_ ∧ _))

/-- What a delta does to the accumulator of its own index. -/
def feedTool (acc : ToolCallAccumulator) (delta : ToolDelta) :
    List StreamEvent × ToolCallAccumulator :=
  let (started, acc) := startTool (ToolCallAccumulator.update acc delta)
  (started ++ toolArguments acc delta, acc)

section OneCall

theorem arguments_given_cons (delta : ToolDelta) (rest : List ToolDelta) :
    argumentsGiven (delta :: rest) = delta.arguments.getD "" ++ argumentsGiven rest :=
  Text.join_empty_cons _ _

theorem arguments_given_append (before after : List ToolDelta) :
    argumentsGiven (before ++ after) = argumentsGiven before ++ argumentsGiven after := by
  induction before with
  | nil => exact (String.empty_append).symm
  | cons delta rest ih =>
      rw [List.cons_append, arguments_given_cons, arguments_given_cons, ih, String.append_assoc]

theorem arguments_given_empty (deltas : List ToolDelta) :
    argumentsGiven deltas = "" ↔ ∀ delta ∈ deltas, delta.arguments.getD "" = "" := by
  induction deltas with
  | nil => simp [argumentsGiven, Text.joinWith]
  | cons delta rest ih =>
      rw [arguments_given_cons, String.append_eq_empty_iff, ih, List.forall_mem_cons]

theorem arguments_sent_append (before after : List StreamEvent) :
    argumentsSent (before ++ after) = argumentsSent before ++ argumentsSent after := by
  unfold argumentsSent
  rw [List.filterMap_append]
  induction before.filterMap partialJson with
  | nil => exact (String.empty_append).symm
  | cons text rest ih =>
      rw [List.cons_append, Text.join_empty_cons, Text.join_empty_cons, ih, String.append_assoc]

theorem started_ids_append (before after : List StreamEvent) :
    startedIds (before ++ after) = startedIds before ++ startedIds after :=
  List.filterMap_append

/-- What comes from the name on is all there is when nothing came before it. -/
theorem from_name_all (deltas : List ToolDelta) :
    argumentsGiven (fromName deltas) = argumentsGiven deltas ↔
      argumentsGiven (unnamed deltas) = "" := by
  have split : unnamed deltas ++ fromName deltas = deltas := List.takeWhile_append_dropWhile
  have whole := arguments_given_append (unnamed deltas) (fromName deltas)
  rw [split] at whole
  calc argumentsGiven (fromName deltas) = argumentsGiven deltas
      ↔ "" ++ argumentsGiven (fromName deltas) =
          argumentsGiven (unnamed deltas) ++ argumentsGiven (fromName deltas) := by
        rw [whole, String.empty_append]
    _ ↔ "" = argumentsGiven (unnamed deltas) := String.append_left_inj _
    _ ↔ argumentsGiven (unnamed deltas) = "" := eq_comm

/-- A started call sends each fragment as it comes. -/
theorem fragment_sent (acc : ToolCallAccumulator) (delta : ToolDelta)
    (started : acc.started = true) :
    argumentsSent (toolArguments acc delta) = delta.arguments.getD "" ∧
      startedIds (toolArguments acc delta) = [] := by
  unfold toolArguments
  cases delta.arguments with
  | none => exact ⟨rfl, rfl⟩
  | some args =>
      by_cases blank : args = ""
      · simp [blank, argumentsSent, startedIds, Text.joinWith]
      · simp [blank, started, argumentsSent, startedIds, startedId, partialJson, Text.joinWith]

theorem fragment_kept_back (acc : ToolCallAccumulator) (delta : ToolDelta)
    (idle : acc.started = false) : toolArguments acc delta = [] := by
  unfold toolArguments
  cases delta.arguments with
  | none => rfl
  | some args => simp [idle]

theorem feed_started (acc : ToolCallAccumulator) (delta : ToolDelta)
    (started : acc.started = true) :
    feedTool acc delta =
      (toolArguments (ToolCallAccumulator.update acc delta) delta,
        ToolCallAccumulator.update acc delta) := by
  have shut : ¬ Opens (ToolCallAccumulator.update acc delta) := fun opens => by
    have idle : acc.started = false := opens.1
    exact absurd (started.symm.trans idle) (by decide)
  simp only [feedTool, start_tool_idle _ shut, List.nil_append]

theorem feed_unnamed (acc : ToolCallAccumulator) (delta : ToolDelta)
    (idle : acc.started = false) (nameless : acc.name = "") (still : ¬ Named delta) :
    feedTool acc delta = ([], ToolCallAccumulator.update acc delta) ∧
      (ToolCallAccumulator.update acc delta).name = "" := by
  have blank : (ToolCallAccumulator.update acc delta).name = "" := by
    simp only [Named, ne_eq, not_not] at still
    simpa [ToolCallAccumulator.update, nameless] using still
  have closed : ¬ Opens (ToolCallAccumulator.update acc delta) := fun opens => opens.2 blank
  refine ⟨?_, blank⟩
  simp only [feedTool, start_tool_idle _ closed, List.nil_append,
    fragment_kept_back (ToolCallAccumulator.update acc delta) delta idle]

theorem feed_named (acc : ToolCallAccumulator) (delta : ToolDelta)
    (idle : acc.started = false) (nameless : acc.name = "") (named : Named delta) :
    startedIds (feedTool acc delta).1 = [delta.id.getD acc.id] ∧
      argumentsSent (feedTool acc delta).1 = delta.arguments.getD "" ∧
      (feedTool acc delta).2.started = true := by
  have opens : Opens (ToolCallAccumulator.update acc delta) := by
    refine ⟨idle, ?_⟩
    simpa [Named, ToolCallAccumulator.update, nameless] using named
  simp only [feedTool, start_tool_opens _ opens]
  obtain ⟨sent, silent⟩ :=
    fragment_sent { ToolCallAccumulator.update acc delta with started := true } delta rfl
  refine ⟨?_, ?_, trivial⟩
  · rw [started_ids_append, silent]
    rfl
  · rw [arguments_sent_append, sent]
    exact String.empty_append

/-- After its start a call sends its fragments and starts nothing. -/
theorem started_run (acc : ToolCallAccumulator) (deltas : List ToolDelta)
    (started : acc.started = true) :
    startedIds (run feedTool acc deltas).1 = [] ∧
      argumentsSent (run feedTool acc deltas).1 = argumentsGiven deltas := by
  induction deltas generalizing acc with
  | nil => exact ⟨rfl, rfl⟩
  | cons delta rest ih =>
      obtain ⟨sent, silent⟩ := fragment_sent (ToolCallAccumulator.update acc delta) delta started
      obtain ⟨later, rests⟩ := ih (ToolCallAccumulator.update acc delta) started
      rw [run_cons, feed_started acc delta started]
      refine ⟨?_, ?_⟩
      · rw [started_ids_append, silent, later]
        rfl
      · rw [arguments_sent_append, sent, rests, arguments_given_cons]

/-- A call starts with the id it has at its name and sends what comes from there on. -/
theorem waiting_run (acc : ToolCallAccumulator) (deltas : List ToolDelta)
    (idle : acc.started = false) (nameless : acc.name = "")
    (named : ∃ delta ∈ deltas, Named delta) :
    startedIds (run feedTool acc deltas).1 =
        [(unnamed deltas ++ (fromName deltas).take 1).foldl
          (fun held delta => delta.id.getD held) acc.id] ∧
      argumentsSent (run feedTool acc deltas).1 = argumentsGiven (fromName deltas) := by
  induction deltas generalizing acc with
  | nil => simp at named
  | cons delta rest ih =>
      rw [run_cons]
      by_cases here : Named delta
      · obtain ⟨begins, sent, started⟩ := feed_named acc delta idle nameless here
        obtain ⟨later, rests⟩ := started_run _ rest started
        have none : unnamed (delta :: rest) = [] := by simp [unnamed, here]
        have all : fromName (delta :: rest) = delta :: rest := by simp [fromName, here]
        rw [none, all]
        refine ⟨?_, ?_⟩
        · rw [started_ids_append, begins, later]
          rfl
        · rw [arguments_sent_append, sent, rests, arguments_given_cons]
      · obtain ⟨silent, blank⟩ := feed_unnamed acc delta idle nameless here
        have later : ∃ delta ∈ rest, Named delta := by
          obtain ⟨found, member, isNamed⟩ := named
          rcases List.mem_cons.mp member with rfl | member
          · exact absurd isNamed here
          · exact ⟨found, member, isNamed⟩
        have one : unnamed (delta :: rest) = delta :: unnamed rest := by simp [unnamed, here]
        have same : fromName (delta :: rest) = fromName rest := by simp [fromName, here]
        rw [silent, one, same]
        exact ih (ToolCallAccumulator.update acc delta) idle blank later

end OneCall

section Interleaved

variable (lead index : Nat)

/-- The accumulator of an index, with the number its block has or will get. -/
def held (ctx : OpenAiStreamContext) : ToolCallAccumulator :=
  (ctx.toolAccumulators.lookup index).getD ⟨"", "", "", false, lead + index⟩

/-- Once text or a tool call has come, the number the tools count from is fixed. -/
structure Settled (ctx : OpenAiStreamContext) : Prop where
  begun : ctx.hasToolCalls = true ∨ ctx.hasSentContentBlockStart = true
  based : (closeText ctx).2.blockIndex = lead
  numbered : ∀ number acc, ctx.toolAccumulators.lookup number = some acc →
    acc.blockIndex = lead + number

theorem close_text_kept (ctx : OpenAiStreamContext) (seen : ctx.hasToolCalls = true) :
    (closeText ctx).2.blockIndex = ctx.blockIndex := by
  rw [closeText, if_pos seen]

theorem close_text_silent (ctx : OpenAiStreamContext) (block : Nat) :
    (closeText ctx).1.filter (toolEvent block) = [] := by
  unfold closeText
  by_cases seen : ctx.hasToolCalls = true
  · rw [if_pos seen]
    rfl
  · rw [if_neg seen]
    split <;> rfl

theorem close_text_tools (ctx : OpenAiStreamContext) :
    (closeText ctx).2.toolAccumulators = ctx.toolAccumulators ∧
      (closeText ctx).2.hasToolCalls = true := by
  unfold closeText
  by_cases seen : ctx.hasToolCalls = true
  · rw [if_pos seen]
    exact ⟨rfl, seen⟩
  · rw [if_neg seen]
    split <;> exact ⟨rfl, rfl⟩

theorem text_silent (ctx : OpenAiStreamContext) (content : String) (nonempty : content ≠ "")
    (block : Nat) :
    (feedItem ctx (.text content nonempty)).1.filter (toolEvent block) = [] := by
  rw [text_step]
  by_cases opened : ctx.hasSentContentBlockStart = true
  · simp [opened, toolEvent]
  · simp [opened, toolEvent]

theorem feed_tool_block (acc : ToolCallAccumulator) (delta : ToolDelta) :
    (feedTool acc delta).2.blockIndex = acc.blockIndex :=
  (start_tool_block (ToolCallAccumulator.update acc delta)).1

/-- All that is sent for a call goes to its own block. -/
theorem feed_tool_events (acc : ToolCallAccumulator) (delta : ToolDelta) (block : Nat) :
    (feedTool acc delta).1.filter (toolEvent block) =
      if acc.blockIndex = block then (feedTool acc delta).1 else [] := by
  have same : ∀ event ∈ (feedTool acc delta).1,
      toolEvent block event = decide (acc.blockIndex = block) := by
    intro event member
    simp only [feedTool, List.mem_append] at member
    rcases member with starts | sends
    · by_cases opens : Opens (ToolCallAccumulator.update acc delta)
      · rw [start_tool_opens _ opens, List.mem_singleton] at starts
        rw [starts]
        rfl
      · rw [start_tool_idle _ opens] at starts
        cases starts
    · unfold toolArguments at sends
      cases args : delta.arguments with
      | none => simp [args] at sends
      | some text =>
          simp only [args] at sends
          split at sends
          · rw [List.mem_singleton] at sends
            rw [sends, ← feed_tool_block acc delta]
            rfl
          · cases sends
  by_cases here : acc.blockIndex = block
  · rw [if_pos here, List.filter_eq_self]
    intro event member
    rw [same event member, decide_eq_true here]
  · rw [if_neg here, List.filter_eq_nil_iff]
    intro event member
    rw [same event member, decide_eq_false here]
    decide

theorem tool_fed (ctx : OpenAiStreamContext) (delta : ToolDelta)
    (within : delta.index ≤ maxToolCallIndex) (based : (closeText ctx).2.blockIndex = lead) :
    feedItem ctx (.tool delta within) =
      ((closeText ctx).1 ++ (feedTool (held lead delta.index ctx) delta).1,
        { (closeText ctx).2 with
          toolAccumulators := ctx.toolAccumulators.insert delta.index
            (feedTool (held lead delta.index ctx) delta).2 }) := by
  have own : accumulator (closeText ctx).2 delta.index = held lead delta.index ctx := by
    rw [accumulator, held, based, (close_text_tools ctx).1]
  rw [tool_step]
  simp only [updated, stored, own, feedTool, (close_text_tools ctx).1]

theorem held_block (ctx : OpenAiStreamContext)
    (numbered : ∀ number acc, ctx.toolAccumulators.lookup number = some acc →
      acc.blockIndex = lead + number) :
    (held lead index ctx).blockIndex = lead + index := by
  unfold held
  cases found : ctx.toolAccumulators.lookup index with
  | none => rfl
  | some acc => exact numbered index acc found

/-- One item, seen from one index: a delta of this index feeds its accumulator, and
everything else passes it by. -/
theorem item_part (ctx : OpenAiStreamContext) (item : Item)
    (based : item.isTool = true → (closeText ctx).2.blockIndex = lead)
    (numbered : ∀ number acc, ctx.toolAccumulators.lookup number = some acc →
      acc.blockIndex = lead + number) :
    (feedItem ctx item).1.filter (toolEvent (lead + index)) =
        (run feedTool (held lead index ctx) (Item.deltaFor index item).toList).1 ∧
      held lead index (feedItem ctx item).2 =
        (run feedTool (held lead index ctx) (Item.deltaFor index item).toList).2 := by
  cases item with
  | text content nonempty =>
      refine ⟨text_silent ctx content nonempty _, ?_⟩
      rw [text_step]
      rfl
  | tool delta within =>
      rw [tool_fed lead ctx delta within (based rfl)]
      simp only [List.filter_append, close_text_silent, List.nil_append, Item.deltaFor]
      rw [feed_tool_events, held_block lead delta.index ctx numbered]
      by_cases own : delta.index = index
      · subst own
        rw [if_pos rfl, if_pos rfl, Option.toList_some, run_singleton]
        refine ⟨rfl, ?_⟩
        simp [held]
      · have apart : ¬ lead + delta.index = lead + index := fun same => own (by omega)
        rw [if_neg apart, if_neg own]
        refine ⟨rfl, ?_⟩
        simp [held, AList.lookup_insert_ne (Ne.symm own)]

theorem tool_settles (ctx : OpenAiStreamContext) (delta : ToolDelta)
    (within : delta.index ≤ maxToolCallIndex) (based : (closeText ctx).2.blockIndex = lead)
    (numbered : ∀ number acc, ctx.toolAccumulators.lookup number = some acc →
      acc.blockIndex = lead + number) :
    Settled lead (feedItem ctx (.tool delta within)).2 := by
  rw [tool_fed lead ctx delta within based]
  obtain ⟨-, seen⟩ := close_text_tools ctx
  refine ⟨Or.inl seen, ?_, ?_⟩
  · rw [close_text_kept]
    · exact based
    · exact seen
  · intro number acc found
    by_cases own : number = delta.index
    · subst own
      simp only [AList.lookup_insert, Option.some.injEq] at found
      rw [← found, feed_tool_block, held_block lead delta.index ctx numbered]
    · simp only [AList.lookup_insert_ne own] at found
      exact numbered number acc found

theorem item_settles (ctx : OpenAiStreamContext) (item : Item) (settled : Settled lead ctx) :
    Settled lead (feedItem ctx item).2 := by
  cases item with
  | tool delta within => exact tool_settles lead ctx delta within settled.based settled.numbered
  | text content nonempty =>
      rw [text_step]
      refine ⟨Or.inr rfl, ?_, settled.numbered⟩
      have based := settled.based
      by_cases seen : ctx.hasToolCalls = true
      · rw [close_text_kept ctx seen] at based
        rw [close_text_kept]
        · exact based
        · exact seen
      · have opened := settled.begun.resolve_left seen
        simpa [closeText, seen, opened] using based

/-- The first item settles where the tools count from. -/
theorem first_settles (item : Item) (rest : List Item) :
    (item.isTool = true → (closeText opening).2.blockIndex = leadText (item :: rest)) ∧
      Settled (leadText (item :: rest)) (feedItem opening item).2 := by
  cases item with
  | tool delta within =>
      exact ⟨fun _ => rfl, tool_settles 0 opening delta within rfl (by simp [opening, new])⟩
  | text content nonempty =>
      refine ⟨fun tool => absurd tool Bool.false_ne_true, ?_⟩
      rw [text_step]
      exact ⟨Or.inr rfl, rfl, by simp [opening, new]⟩

/-- What a run sends for an index is a run over the deltas of that index. -/
theorem run_tool_events (items : List Item) :
    (run feedItem opening items).1.filter (toolEvent (leadText items + index)) =
      (run feedTool ⟨"", "", "", false, leadText items + index⟩ (toolDeltas index items)).1 := by
  cases items with
  | nil => rfl
  | cons item rest =>
      obtain ⟨based, settled⟩ := first_settles item rest
      obtain ⟨first, after⟩ := item_part (leadText (item :: rest)) index opening item based
        (by simp [opening, new])
      have later := run_part feedTool feedItem (Item.deltaFor index)
        (toolEvent (leadText (item :: rest) + index)) (held (leadText (item :: rest)) index)
        (Settled (leadText (item :: rest)))
        (fun ctx next settled => by
          obtain ⟨events, state⟩ := item_part (leadText (item :: rest)) index ctx next
            (fun _ => settled.based) settled.numbered
          exact ⟨events, state, item_settles _ ctx next settled⟩)
        (feedItem opening item).2 rest settled
      have whole : toolDeltas index (item :: rest) =
          (Item.deltaFor index item).toList ++ rest.filterMap (Item.deltaFor index) := by
        rw [toolDeltas, List.filterMap_cons]
        cases Item.deltaFor index item <;> rfl
      rw [run_cons, List.filter_append, whole, run_append, first, later, after]
      rfl

end Interleaved

variable {codec : Codec} (order : ValueOrder)

/-- The block number of the tool call with an index. -/
def toolBlock (index : Nat) (items : List Item) : Nat := Block.slot (leadText items) (.tool index)

theorem finish_silent (ctx : OpenAiStreamContext) (block : Nat) :
    (finish order ctx).filter (toolEvent block) = [] := by
  unfold finish
  rw [List.filter_append, List.filter_append, List.filter_map]
  have stops : (toolEvent block ∘ StreamEvent.contentBlockStop) = fun _ => false := rfl
  rw [stops]
  split <;> simp [toolEvent]

theorem translate_tool_events (first : ChunkLine codec) (rest : List (ChunkLine codec))
    (index : Nat) :
    (translate codec order ((first :: rest).map ChunkLine.line ++ [doneLine])).filter
        (toolEvent (toolBlock index (streamItems (first :: rest)))) =
      (run feedTool ⟨"", "", "", false, toolBlock index (streamItems (first :: rest))⟩
        (toolDeltas index (streamItems (first :: rest)))).1 := by
  have sent := run_tool_events index (streamItems (first :: rest))
  rw [translate_events, run_items, List.filter_append, finish_silent, List.append_nil]
  exact sent

/-- Every index of the stream gets a name that is not empty. -/
def EveryToolNamed (items : List Item) : Prop :=
  ∀ index ∈ toolIndices items, ∃ delta ∈ toolDeltas index items, Named delta

instance (items : List Item) : Decidable (EveryToolNamed items) :=
  inferInstanceAs (Decidable (∀ _ ∈ _, _))

theorem carried_iff (first : ChunkLine codec) (rest : List (ChunkLine codec)) (index : Nat)
    (named : ∃ delta ∈ toolDeltas index (streamItems (first :: rest)), Named delta) :
    Carried (translate codec order ((first :: rest).map ChunkLine.line ++ [doneLine]))
        (toolBlock index (streamItems (first :: rest)))
        (toolDeltas index (streamItems (first :: rest))) ↔
      InTime (toolDeltas index (streamItems (first :: rest))) := by
  obtain ⟨starts, sends⟩ := waiting_run ⟨"", "", "", false, toolBlock index
    (streamItems (first :: rest))⟩ (toolDeltas index (streamItems (first :: rest))) rfl rfl named
  unfold Carried InTime
  rw [translate_tool_events, starts, sends, ← arguments_given_empty]
  rw [List.cons.injEq, and_iff_left rfl]
  exact and_congr_left fun _ => from_name_all _

/-- A client gets all arguments and the id of each tool of the stream. -/
def AllCarried (chunks : List (ChunkLine codec)) : Prop :=
  ∀ index ∈ toolIndices (streamItems chunks),
    Carried (translate codec order (chunks.map ChunkLine.line ++ [doneLine]))
      (toolBlock index (streamItems chunks)) (toolDeltas index (streamItems chunks))

instance (chunks : List (ChunkLine codec)) : Decidable (AllCarried order chunks) :=
  inferInstanceAs (Decidable (∀ _ ∈ _, _))

/-- With every tool named in the end, nothing is lost exactly when no argument of a tool
comes before its name and its id not after it. -/
theorem all_carried_iff (chunks : List (ChunkLine codec))
    (named : EveryToolNamed (streamItems chunks)) :
    AllCarried order chunks ↔
      ∀ index ∈ toolIndices (streamItems chunks),
        InTime (toolDeltas index (streamItems chunks)) := by
  cases chunks with
  | nil =>
      have none : toolIndices (streamItems ([] : List (ChunkLine codec))) = [] := rfl
      simp [AllCarried, none]
  | cons first rest =>
      apply forall₂_congr
      intro index member
      exact carried_iff order first rest index (named index member)

def callChunk (fields : String) (json : List (String × Json)) : String × Json :=
  ("\x7b\"choices\":[\x7b\"delta\":\x7b\"tool_calls\":[\x7b\"index\":0," ++ fields ++
    "\x7d]\x7d\x7d]\x7d",
    Json.make [("choices", .array [Json.make [("delta", Json.make [("tool_calls",
      .array [Json.make (("index", .ofInt 0) :: json)])])]])])

def idChunk : String × Json := callChunk "\"id\":\"t1\"" [("id", .string "t1")]

def nameChunk : String × Json :=
  callChunk "\"function\":\x7b\"name\":\"ls\"\x7d"
    [("function", Json.make [("name", .string "ls")])]

def keyChunk : String × Json :=
  callChunk "\"function\":\x7b\"arguments\":\"\x7b\\\"a\\\"\"\x7d"
    [("function", Json.make [("arguments", .string "\x7b\"a\"")])]

def valueChunk : String × Json :=
  callChunk "\"function\":\x7b\"arguments\":\":1\x7d\"\x7d"
    [("function", Json.make [("arguments", .string ":1\x7d")])]

def callCodec : Codec := .ofTable [idChunk, nameChunk, keyChunk, valueChunk]

def idLine : ChunkLine callCodec := ⟨idChunk.1, idChunk.2, by decide, by decide⟩

def nameLine : ChunkLine callCodec := ⟨nameChunk.1, nameChunk.2, by decide, by decide⟩

def keyLine : ChunkLine callCodec := ⟨keyChunk.1, keyChunk.2, by decide, by decide⟩

def valueLine : ChunkLine callCodec := ⟨valueChunk.1, valueChunk.2, by decide, by decide⟩

/-- The usual order: the id, the name, then the arguments in two parts. -/
theorem usual_call_carried :
    AllCarried insertionOrder [idLine, nameLine, keyLine, valueLine] :=
  (all_carried_iff insertionOrder [idLine, nameLine, keyLine, valueLine]
    (by decide +kernel)).mpr (by decide +kernel)

/-- The part sent before the name is lost, and so is the id sent after it. -/
theorem early_argument_lost :
    EveryToolNamed (streamItems [keyLine, nameLine, valueLine, idLine]) ∧
      (translate callCodec insertionOrder ([keyLine, nameLine, valueLine, idLine].map
          ChunkLine.line ++ [doneLine])).filter (toolEvent 0) =
        [.contentBlockStart 0 (.toolUse "" "ls"),
          .contentBlockDelta 0 (.inputJson ":1\x7d")] ∧
      ¬ AllCarried insertionOrder [keyLine, nameLine, valueLine, idLine] := by
  have block : toolBlock 0 (streamItems [keyLine, nameLine, valueLine, idLine]) = 0 := by
    decide +kernel
  have sent := translate_tool_events insertionOrder keyLine [nameLine, valueLine, idLine] 0
  rw [block] at sent
  refine ⟨by decide +kernel, sent.trans (by decide +kernel), fun all => ?_⟩
  have inTime := (carried_iff insertionOrder keyLine [nameLine, valueLine, idLine] 0
    (by decide +kernel)).mp (all 0 (by decide +kernel))
  revert inTime
  decide +kernel

end Ccflare.ToolArguments
