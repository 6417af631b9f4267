import Ccflare.StreamItems

/-!
When the stream translator emits a well-formed message stream. The stream is well
formed exactly when the blocks open in the order of the indices the translator
gives them and its text block is never opened twice.
-/

namespace Ccflare.StreamNumbering

open JsonValue MessageStream OpenAiStream OpenAiStreamContext StreamItems Transducer

def openedBy (acc : ToolCallAccumulator) : List Nat := if acc.started then [acc.blockIndex] else []

theorem open_tools_cons (acc : ToolCallAccumulator) (rest : List ToolCallAccumulator) :
    openTools (acc :: rest) = openedBy acc ++ openTools rest := by
  cases started : acc.started <;> simp [openTools, openedBy, started]

def openToolBlocks (accumulators : Accumulators) : List Nat :=
  openTools (accumulators.entries.map Sigma.snd)

theorem open_tools_perm (left right : List ToolCallAccumulator) (same : left.Perm right) :
    (openTools left).Perm (openTools right) :=
  (same.filter _).map _

theorem lookup_perm (entries : List (Sigma fun _ : Nat => ToolCallAccumulator)) (index : Nat)
    (acc : ToolCallAccumulator) (found : entries.dlookup index = some acc) :
    entries.Perm (⟨index, acc⟩ :: entries.kerase index) := by
  induction entries with
  | nil => simp at found
  | cons entry rest ih =>
      obtain ⟨key, held⟩ := entry
      by_cases same : index = key
      · subst same
        simp only [List.dlookup_cons_eq, Option.some.injEq] at found
        simp [found]
      · have later : rest.dlookup index = some acc := by simpa [same] using found
        have kept : List.kerase index (⟨key, held⟩ :: rest) = ⟨key, held⟩ :: rest.kerase index := by
          simp [same]
        rw [kept]
        exact ((ih later).cons _).trans (.swap _ _ _)

/-- What an insertion adds to the open blocks is what the new entry opens, less
what the entry it replaces had open. -/
theorem open_tools_insert (accumulators : Accumulators) (index : Nat)
    (acc fresh : ToolCallAccumulator) (idle : fresh.started = false) :
    (openToolBlocks (accumulators.insert index acc) ++
      openedBy ((accumulators.lookup index).getD fresh)).Perm
      (openedBy acc ++ openToolBlocks accumulators) := by
  unfold openToolBlocks
  rw [AList.entries_insert, List.map_cons, open_tools_cons, List.append_assoc]
  apply List.Perm.append_left
  cases found : accumulators.lookup index with
  | none =>
      have absent : index ∉ accumulators.entries.keys := AList.lookup_eq_none.mp found
      rw [List.kerase_of_notMem_keys absent]
      simp [openedBy, idle]
  | some held =>
      have split := lookup_perm accumulators.entries index held found
      have opened := open_tools_perm _ _ (split.map Sigma.snd)
      rw [List.map_cons, open_tools_cons] at opened
      exact List.perm_append_comm.trans opened.symm

/-- The blocks that are open from the translator's point of view. -/
def openBlocks (ctx : OpenAiStreamContext) : List Nat :=
  (if ctx.hasSentContentBlockStart then [0] else []) ++ openToolBlocks ctx.toolAccumulators

/-- How many blocks have been started: the open ones, and a closed text block. -/
def startedBlocks (ctx : OpenAiStreamContext) : Nat := ctx.blockIndex + (openBlocks ctx).length

structure Sound (ctx : OpenAiStreamContext) : Prop where
  toolsLater : ctx.hasToolCalls = false → ctx.blockIndex = 0 ∧ ctx.toolAccumulators = ∅
  numbered : ∀ index acc, ctx.toolAccumulators.lookup index = some acc →
    acc.blockIndex = ctx.blockIndex + index ∧ (acc.started = false → acc.name = "")
  textFirst : ctx.hasSentContentBlockStart = true → ctx.blockIndex = 0

def Related (ctx : OpenAiStreamContext) (phase : Phase) : Prop :=
  Sound ctx ∧ ∃ opened, phase = .running (startedBlocks ctx) opened ∧
    opened.Perm (openBlocks ctx)

/-- The accumulator of a delta after its update, before a start is sent. -/
def updated (ctx : OpenAiStreamContext) (delta : ToolDelta) : ToolCallAccumulator :=
  ToolCallAccumulator.update (accumulator ctx delta.index) delta

def Opens (acc : ToolCallAccumulator) : Prop := acc.started = false ∧ acc.name ≠ ""

instance (acc : ToolCallAccumulator) : Decidable (Opens acc) :=
  inferInstanceAs (Decidable (_ ∧ _))

/-- A step that starts no block, or one with the next number. -/
def GoodItem (ctx : OpenAiStreamContext) : Item → Prop
  | .text _ _ => ctx.hasSentContentBlockStart = true ∨ startedBlocks ctx = 0
  | .tool delta _ => Opens (updated (closeText ctx).2 delta) →
      (updated (closeText ctx).2 delta).blockIndex = startedBlocks (closeText ctx).2

theorem text_step (ctx : OpenAiStreamContext) (content : String) (nonempty : content ≠ "") :
    feedItem ctx (.text content nonempty) =
      ((if ctx.hasSentContentBlockStart then [] else [.contentBlockStart ctx.blockIndex .text]) ++
        [.contentBlockDelta 0 (.text content)], { ctx with hasSentContentBlockStart := true }) := by
  simp [feedItem, processText, nonempty, currentTextIndex]

theorem text_accepted (ctx : OpenAiStreamContext) (phase : Phase) (content : String)
    (nonempty : content ≠ "") (related : Related ctx phase)
    (good : GoodItem ctx (.text content nonempty)) :
    ∃ next, follow advance phase (feedItem ctx (.text content nonempty)).1 = some next ∧
      Related (feedItem ctx (.text content nonempty)).2 next := by
  obtain ⟨sound, opened, rfl, same⟩ := related
  rw [text_step]
  by_cases flag : ctx.hasSentContentBlockStart = true
  · have member : 0 ∈ opened := same.mem_iff.mpr (by simp [openBlocks, flag])
    have still : ({ ctx with hasSentContentBlockStart := true } : OpenAiStreamContext) = ctx := by
      cases ctx
      simp_all
    rw [still]
    refine ⟨.running (startedBlocks ctx) opened, ?_, sound, opened, rfl, same⟩
    simp [flag, advance, member]
  · have none : startedBlocks ctx = 0 := good.resolve_left flag
    obtain ⟨atZero, empty⟩ := Nat.add_eq_zero_iff.mp none
    have nothing : openBlocks ctx = [] := List.length_eq_zero_iff.mp empty
    have noTools : openToolBlocks ctx.toolAccumulators = [] := (List.append_eq_nil_iff.mp nothing).2
    rw [nothing, List.perm_nil] at same
    subst same
    refine ⟨.running 1 [0], ?_, ⟨sound.toolsLater, sound.numbered, fun _ => atZero⟩, [0], ?_, ?_⟩
    · simp [flag, advance, none, atZero]
    · simp [startedBlocks, openBlocks, atZero, noTools]
    · simp [openBlocks, noTools]

theorem text_refused (ctx : OpenAiStreamContext) (phase : Phase) (content : String)
    (nonempty : content ≠ "") (related : Related ctx phase)
    (bad : ¬ GoodItem ctx (.text content nonempty)) :
    follow advance phase (feedItem ctx (.text content nonempty)).1 = none := by
  obtain ⟨sound, opened, rfl, same⟩ := related
  obtain ⟨flag, some⟩ := not_or.mp bad
  rw [text_step]
  by_cases next : ctx.blockIndex = startedBlocks ctx
  · have nothing : openBlocks ctx = [] := by
      apply List.length_eq_zero_iff.mp
      unfold startedBlocks at next
      omega
    rw [nothing, List.perm_nil] at same
    subst same
    have closed : 0 ≠ startedBlocks ctx := by omega
    simp [flag, advance, next, closed]
  · simp [flag, advance, next]

/-- Closing the text block moves it from the open blocks to the closed ones. -/
theorem close_accepted (ctx : OpenAiStreamContext) (phase : Phase) (related : Related ctx phase) :
    ∃ next, follow advance phase (closeText ctx).1 = some next ∧
      Related (closeText ctx).2 next ∧ (closeText ctx).2.hasToolCalls = true := by
  obtain ⟨sound, opened, rfl, same⟩ := related
  unfold closeText
  by_cases seen : ctx.hasToolCalls = true
  · rw [if_pos seen]
    exact ⟨_, rfl, ⟨sound, opened, rfl, same⟩, seen⟩
  · rw [if_neg seen]
    obtain ⟨atZero, empty⟩ := sound.toolsLater (by simpa using seen)
    by_cases flag : ctx.hasSentContentBlockStart = true
    · rw [if_pos flag]
      have alone : openBlocks ctx = [0] := by
        simp [openBlocks, flag, empty, openToolBlocks, openTools]
      rw [alone, List.perm_singleton] at same
      subst same
      refine ⟨.running (startedBlocks ctx) [], ?_, ⟨⟨?_, ?_, ?_⟩, [], ?_, ?_⟩, rfl⟩
      · simp [advance, currentTextIndex]
      · simp
      · simp [empty]
      · simp
      · simp [startedBlocks, openBlocks, flag, empty, openToolBlocks, openTools]
      · simp [openBlocks, empty, openToolBlocks, openTools]
    · rw [if_neg flag]
      refine ⟨_, rfl, ⟨⟨by simp, sound.numbered, sound.textFirst⟩, opened, rfl, same⟩, rfl⟩

/-- The context once the accumulator of a delta is stored. -/
def stored (ctx : OpenAiStreamContext) (delta : ToolDelta) : OpenAiStreamContext :=
  { ctx with
    toolAccumulators :=
      ctx.toolAccumulators.insert delta.index (startTool (updated ctx delta)).2 }

theorem tool_step (ctx : OpenAiStreamContext) (delta : ToolDelta)
    (within : delta.index ≤ maxToolCallIndex) :
    feedItem ctx (.tool delta within) =
      ((closeText ctx).1 ++ ((startTool (updated (closeText ctx).2 delta)).1 ++
        toolArguments (startTool (updated (closeText ctx).2 delta)).2 delta),
        stored (closeText ctx).2 delta) := by
  have inside := Nat.not_lt_of_le within
  simp [feedItem, processToolDelta, inside, updated, stored]

theorem updated_block (ctx : OpenAiStreamContext) (delta : ToolDelta) (sound : Sound ctx) :
    (updated ctx delta).blockIndex = ctx.blockIndex + delta.index := by
  simp only [updated, ToolCallAccumulator.update, accumulator]
  cases found : ctx.toolAccumulators.lookup delta.index with
  | none => rfl
  | some acc => exact (sound.numbered delta.index acc found).1

/-- The accumulator that replaces the old one is started if it was, or now opens. -/
theorem start_tool_started (acc : ToolCallAccumulator) :
    (startTool acc).2.started = true ↔ acc.started = true ∨ Opens acc := by
  unfold startTool Opens
  by_cases opens : acc.started = false ∧ acc.name ≠ ""
  · simp [opens]
  · simp only [opens, ↓reduceIte, or_false]

theorem start_tool_block (acc : ToolCallAccumulator) :
    (startTool acc).2.blockIndex = acc.blockIndex ∧ (startTool acc).2.name = acc.name := by
  unfold startTool
  split <;> exact ⟨rfl, rfl⟩

theorem tool_sound (ctx : OpenAiStreamContext) (delta : ToolDelta) (sound : Sound ctx)
    (seen : ctx.hasToolCalls = true) :
    Sound (stored ctx delta) := by
  refine ⟨fun never => absurd (seen.symm.trans never) (by decide), ?_, sound.textFirst⟩
  intro index acc found
  by_cases same : index = delta.index
  · subst same
    simp only [stored, AList.lookup_insert, Option.some.injEq] at found
    subst found
    obtain ⟨block, name⟩ := start_tool_block (updated ctx delta)
    refine ⟨block.trans (updated_block ctx delta sound), fun idle => ?_⟩
    rw [name]
    by_contra named
    have idleBefore : (updated ctx delta).started = false := by
      cases before : (updated ctx delta).started with
      | false => rfl
      | true =>
          have after := (start_tool_started (updated ctx delta)).mpr (Or.inl before)
          exact absurd (after.symm.trans idle) (by decide)
    have after := (start_tool_started (updated ctx delta)).mpr (Or.inr ⟨idleBefore, named⟩)
    exact absurd (after.symm.trans idle) (by decide)
  · simp only [stored] at found
    rw [AList.lookup_insert_ne same] at found
    exact sound.numbered index acc found

theorem start_tool_opens (acc : ToolCallAccumulator) (opens : Opens acc) :
    startTool acc = ([.contentBlockStart acc.blockIndex (.toolUse acc.id acc.name)],
      { acc with started := true }) :=
  if_pos opens

theorem start_tool_idle (acc : ToolCallAccumulator) (idle : ¬ Opens acc) :
    startTool acc = ([], acc) :=
  if_neg idle

/-- A delta adds its block to the open ones exactly when it opens it. -/
theorem tool_open_blocks (ctx : OpenAiStreamContext) (delta : ToolDelta) :
    (openBlocks (stored ctx delta)).Perm
      ((if Opens (updated ctx delta) then [(updated ctx delta).blockIndex] else []) ++
        openBlocks ctx) := by
  have added := open_tools_insert ctx.toolAccumulators delta.index
    (startTool (updated ctx delta)).2 ⟨"", "", "", false, ctx.blockIndex + delta.index⟩ rfl
  have old : openedBy ((ctx.toolAccumulators.lookup delta.index).getD
      ⟨"", "", "", false, ctx.blockIndex + delta.index⟩) = openedBy (updated ctx delta) := rfl
  rw [old] at added
  have tools : (openToolBlocks (ctx.toolAccumulators.insert delta.index
      (startTool (updated ctx delta)).2)).Perm
      ((if Opens (updated ctx delta) then [(updated ctx delta).blockIndex] else []) ++
        openToolBlocks ctx.toolAccumulators) := by
    by_cases opens : Opens (updated ctx delta)
    · rw [start_tool_opens _ opens] at added ⊢
      rw [if_pos opens]
      simpa [openedBy, opens.1] using added
    · rw [start_tool_idle _ opens] at added ⊢
      rw [if_neg opens]
      exact (List.perm_append_right_iff _).mp (added.trans List.perm_append_comm)
  unfold openBlocks
  refine (tools.append_left _).trans ?_
  rw [← List.append_assoc, ← List.append_assoc]
  exact List.perm_append_comm.append_right _

theorem stored_open (ctx : OpenAiStreamContext) (delta : ToolDelta)
    (started : (startTool (updated ctx delta)).2.started = true) :
    (startTool (updated ctx delta)).2.blockIndex ∈ openBlocks (stored ctx delta) := by
  simp only [openBlocks, stored, openToolBlocks, AList.entries_insert, List.map_cons,
    open_tools_cons, openedBy, started, ↓reduceIte]
  simp

theorem arguments_followed (started : Nat) (opened : List Nat) (acc : ToolCallAccumulator)
    (delta : ToolDelta) (member : acc.started = true → acc.blockIndex ∈ opened) :
    follow advance (.running started opened) (toolArguments acc delta) =
      some (.running started opened) := by
  unfold toolArguments
  cases delta.arguments with
  | none => rfl
  | some args =>
      by_cases sends : args ≠ "" ∧ acc.started = true
      · simp [sends, advance, member sends.2]
      · simp [sends]

theorem delta_accepted (ctx : OpenAiStreamContext) (phase : Phase) (delta : ToolDelta)
    (related : Related ctx phase) (seen : ctx.hasToolCalls = true)
    (good : Opens (updated ctx delta) → (updated ctx delta).blockIndex = startedBlocks ctx) :
    ∃ next, follow advance phase ((startTool (updated ctx delta)).1 ++
        toolArguments (startTool (updated ctx delta)).2 delta) = some next ∧
      Related (stored ctx delta) next := by
  obtain ⟨sound, opened, rfl, same⟩ := related
  have blocks := tool_open_blocks ctx delta
  have soundAfter := tool_sound ctx delta sound seen
  by_cases opens : Opens (updated ctx delta)
  · have number := good opens
    rw [if_pos opens] at blocks
    have openedAfter : ((updated ctx delta).blockIndex :: opened).Perm
        (openBlocks (stored ctx delta)) := (same.cons _).trans blocks.symm
    have counted : startedBlocks (stored ctx delta) = startedBlocks ctx + 1 := by
      have length := blocks.length_eq
      simp only [List.singleton_append, List.length_cons] at length
      simp only [startedBlocks, length]
      rfl
    refine ⟨.running (startedBlocks ctx + 1) ((updated ctx delta).blockIndex :: opened), ?_,
      soundAfter, _, by rw [counted], openedAfter⟩
    -- The new block is the only one the acceptor learns of; its arguments go to an open block.
    rw [follow_append, congrArg Prod.fst (start_tool_opens _ opens)]
    simp only [follow_cons, advance, number, ↓reduceIte, Option.bind_some, follow_nil]
    apply arguments_followed
    intro started
    rw [← number]
    exact openedAfter.mem_iff.mpr (stored_open ctx delta started)
  · rw [if_neg opens, List.nil_append] at blocks
    have openedAfter : opened.Perm (openBlocks (stored ctx delta)) := same.trans blocks.symm
    have counted : startedBlocks (stored ctx delta) = startedBlocks ctx := by
      simp only [startedBlocks, blocks.length_eq]
      rfl
    refine ⟨.running (startedBlocks ctx) opened, ?_, soundAfter, _, by rw [counted],
      openedAfter⟩
    rw [congrArg Prod.fst (start_tool_idle _ opens), List.nil_append]
    apply arguments_followed
    intro started
    exact openedAfter.mem_iff.mpr (stored_open ctx delta started)

theorem item_accepted (ctx : OpenAiStreamContext) (phase : Phase) (item : Item)
    (related : Related ctx phase) (good : GoodItem ctx item) :
    ∃ next, follow advance phase (feedItem ctx item).1 = some next ∧
      Related (feedItem ctx item).2 next := by
  cases item with
  | text content nonempty => exact text_accepted ctx phase content nonempty related good
  | tool delta within =>
      obtain ⟨middle, closes, kept, seen⟩ := close_accepted ctx phase related
      obtain ⟨next, sends, after⟩ := delta_accepted _ middle delta kept seen good
      rw [tool_step]
      refine ⟨next, ?_, after⟩
      rw [follow_append, closes]
      exact sends

theorem item_refused (ctx : OpenAiStreamContext) (phase : Phase) (item : Item)
    (related : Related ctx phase) (bad : ¬ GoodItem ctx item) :
    follow advance phase (feedItem ctx item).1 = none := by
  cases item with
  | text content nonempty => exact text_refused ctx phase content nonempty related bad
  | tool delta within =>
      obtain ⟨opens, number⟩ := Classical.not_imp.mp bad
      obtain ⟨middle, closes, ⟨-, opened, rfl, -⟩, -⟩ := close_accepted ctx phase related
      rw [tool_step, follow_append, closes, Option.bind_some,
        congrArg Prod.fst (start_tool_opens _ opens)]
      simp [advance, number]

theorem opening_related : Related opening (.running 0 []) := by
  refine ⟨⟨fun _ => ⟨rfl, rfl⟩, ?_, fun _ => rfl⟩, [], rfl, .refl _⟩
  intro index acc found
  simp [opening, new] at found

/-- The end of the stream stops every block that is still open. -/
theorem finish_followed (order : ValueOrder) (ctx : OpenAiStreamContext) (phase : Phase)
    (related : Related (blockView ctx) phase) :
    follow advance phase (finish order ctx) = some .done := by
  obtain ⟨-, opened, rfl, same⟩ := related
  have stops : (if ctx.hasSentContentBlockStart then
      [.contentBlockStop ctx.currentTextIndex] else []) ++
      (openTools (order.values ctx.toolAccumulators)).map .contentBlockStop =
      ((if ctx.hasSentContentBlockStart then [0] else []) ++
        openTools (order.values ctx.toolAccumulators)).map StreamEvent.contentBlockStop := by
    rw [List.map_append]
    split <;> rfl
  have listed : opened.Perm ((if ctx.hasSentContentBlockStart then [0] else []) ++
      openTools (order.values ctx.toolAccumulators)) :=
    same.trans ((open_tools_perm _ _ (order.perm ctx.toolAccumulators).symm).append_left _)
  rw [finish, stops, follow_append, follow_stops _ _ _ listed]
  rfl

variable {codec : Codec} (order : ValueOrder)

/-- The items of a stream, in the order its chunks carry them. -/
def streamItems (chunks : List (ChunkLine codec)) : List Item :=
  ((chunks.map ChunkLine.json).flatMap chunkPieces).filterMap Piece.item

/-- The stream is well formed exactly when every item is a good step. -/
theorem well_formed_iff_good (first : ChunkLine codec) (rest : List (ChunkLine codec)) :
    WellFormed (translate codec order ((first :: rest).map ChunkLine.line ++ [doneLine])) ↔
      AllGood feedItem GoodItem opening (streamItems (first :: rest)) := by
  have view := (chunks_pieces first.json (rest.map ChunkLine.json)).2
  rw [run_items] at view
  rw [WellFormed, translate_events, List.cons_append, List.cons_append, run_items]
  simp only [follow_cons, advance, Option.bind_some, follow_append]
  change (Option.bind (follow advance (.running 0 [])
    (run feedItem opening (streamItems (first :: rest))).1) _) = _ ↔ _
  rcases follow_run feedItem GoodItem advance Related item_accepted item_refused opening
    (.running 0 []) (streamItems (first :: rest)) opening_related
    with ⟨good, final, followed, related⟩ | ⟨bad, stuck⟩
  · rw [followed]
    simp only [good, iff_true, Option.bind_some]
    exact finish_followed order _ final (view ▸ related)
  · rw [stuck]
    exact iff_of_false (by simp) bad

/-- The members that are new to those seen, each at its first place. -/
def newBlocks : List Block → List Block → List Block
  | _, [] => []
  | seen, block :: rest =>
      if block ∈ seen then newBlocks seen rest else block :: newBlocks (block :: seen) rest

def openings (items : List Item) : List Block := newBlocks [] (items.filterMap Item.asks)

/-- One if the stream begins with text: the tools are then numbered from one. -/
def leadText : List Item → Nat
  | .text _ _ :: _ => 1
  | .tool _ _ :: _ | [] => 0

/-- The number the translator gives a block. -/
def Block.slot (lead : Nat) : Block → Nat
  | .text => 0
  | .tool index => lead + index

def ToolsLast (items : List Item) : Prop :=
  items.Pairwise fun before after => before.isTool = true → after.isTool = true

instance (items : List Item) : Decidable (ToolsLast items) :=
  inferInstanceAs (Decidable (List.Pairwise _ _))

/-- Text that comes first is not taken up again after a tool call, and the
blocks open in the order of their numbers. -/
def OpensInOrder (items : List Item) : Prop :=
  (leadText items = 1 → ToolsLast items) ∧
    (openings items).map (Block.slot (leadText items)) = List.range (openings items).length

instance (items : List Item) : Decidable (OpensInOrder items) :=
  inferInstanceAs (Decidable (_ ∧ _))

/-- What the context knows of the blocks seen so far, with `items` still to come. -/
structure Sees (lead : Nat) (items : List Item) (seen : List Block) (ctx : OpenAiStreamContext) :
    Prop where
  counted : startedBlocks ctx = seen.length
  text : .text ∈ seen ↔ ctx.hasSentContentBlockStart = true ∨ ctx.blockIndex ≠ 0
  tools : ∀ index, .tool index ∈ seen ↔
    ∃ acc, ctx.toolAccumulators.lookup index = some acc ∧ acc.started = true
  based : ctx.hasToolCalls = true → ctx.blockIndex = lead
  leading : ctx.hasToolCalls = false →
    lead = if ctx.hasSentContentBlockStart then 1 else leadText items

/-- Text that came first stays first among the items to come. -/
def TextStaysFirst (lead : Nat) (toolSeen : Bool) (items : List Item) : Prop :=
  lead = 1 → ToolsLast items ∧ (toolSeen = true → ∀ item ∈ items, item.isTool = true)

/-- The blocks still to open take the numbers that follow. -/
def NumberedFrom (lead : Nat) (seen : List Block) (items : List Item) : Prop :=
  (newBlocks seen (items.filterMap Item.asks)).map (Block.slot lead) =
    List.range' seen.length (newBlocks seen (items.filterMap Item.asks)).length

theorem text_stays_text (lead : Nat) (toolSeen : Bool) (content : String)
    (nonempty : content ≠ "") (rest : List Item) (early : lead = 1 → toolSeen = false) :
    TextStaysFirst lead toolSeen (.text content nonempty :: rest) ↔
      TextStaysFirst lead toolSeen rest := by
  unfold TextStaysFirst ToolsLast
  by_cases leads : lead = 1
  · simp [leads, early leads, Item.isTool]
  · simp [leads]

theorem text_stays_tool (lead : Nat) (toolSeen : Bool) (delta : ToolDelta)
    (within : delta.index ≤ maxToolCallIndex) (rest : List Item) :
    TextStaysFirst lead toolSeen (.tool delta within :: rest) ↔
      TextStaysFirst lead true rest := by
  unfold TextStaysFirst ToolsLast
  rw [List.pairwise_cons, List.forall_mem_cons]
  constructor
  · intro order leads
    obtain ⟨⟨all, last⟩, -⟩ := order leads
    exact ⟨last, fun _ item member => all item member rfl⟩
  · intro order leads
    obtain ⟨last, all⟩ := order leads
    exact ⟨⟨fun item member _ => all rfl item member, last⟩,
      fun _ => ⟨rfl, fun item member => all rfl item member⟩⟩

theorem numbered_known (lead : Nat) (seen : List Block) (item : Item) (rest : List Item)
    (known : ∀ block, item.asks = some block → block ∈ seen) :
    NumberedFrom lead seen (item :: rest) ↔ NumberedFrom lead seen rest := by
  unfold NumberedFrom
  cases asks : item.asks with
  | none => rw [List.filterMap_cons_none asks]
  | some block =>
      have same : newBlocks seen (block :: rest.filterMap Item.asks) =
          newBlocks seen (rest.filterMap Item.asks) := by simp [newBlocks, known block asks]
      rw [List.filterMap_cons_some asks, same]

theorem numbered_fresh (lead : Nat) (seen : List Block) (item : Item) (rest : List Item)
    (block : Block) (asks : item.asks = some block) (fresh : block ∉ seen) :
    NumberedFrom lead seen (item :: rest) ↔
      Block.slot lead block = seen.length ∧ NumberedFrom lead (block :: seen) rest := by
  unfold NumberedFrom
  rw [List.filterMap_cons_some asks]
  simp [newBlocks, fresh, List.range'_succ]

/-- One step of the run against one step of the condition. -/
def StepAgrees (lead : Nat) (seen : List Block) (ctx : OpenAiStreamContext) (item : Item)
    (rest : List Item) : Prop :=
  ∃ after, (TextStaysFirst lead ctx.hasToolCalls (item :: rest) ∧
      NumberedFrom lead seen (item :: rest) ↔
    GoodItem ctx item ∧ TextStaysFirst lead (feedItem ctx item).2.hasToolCalls rest ∧
      NumberedFrom lead after rest) ∧
    (GoodItem ctx item → Sees lead rest after (feedItem ctx item).2)

section Order

variable (lead : Nat) (seen : List Block) (ctx : OpenAiStreamContext) (rest : List Item)

-- Text after a tool call, when text came first: its block is closed already.
theorem late_text_agrees (content : String) (nonempty : content ≠ "") (sound : Sound ctx)
    (sees : Sees lead (.text content nonempty :: rest) seen ctx) (late : lead = 1)
    (tools : ctx.hasToolCalls = true) :
    StepAgrees lead seen ctx (.text content nonempty) rest := by
  have based := sees.based tools
  have bad : ¬ GoodItem ctx (.text content nonempty) := by
    rintro (flag | none)
    · have atZero := sound.textFirst flag
      omega
    · unfold startedBlocks at none
      omega
  refine ⟨seen, iff_of_false ?_ fun good => bad good.1, fun good => absurd good bad⟩
  rintro ⟨order, -⟩
  have isTool := (order late).2 tools _ List.mem_cons_self
  exact absurd isTool (by simp [Item.isTool])

theorem early_text_agrees (content : String) (nonempty : content ≠ "") (sound : Sound ctx)
    (sees : Sees lead (.text content nonempty :: rest) seen ctx)
    (early : lead = 1 → ctx.hasToolCalls = false) (bounded : lead ≤ 1) :
    StepAgrees lead seen ctx (.text content nonempty) rest := by
  have atZero : ctx.blockIndex = 0 := by
    cases tools : ctx.hasToolCalls with
    | false => exact (sound.toolsLater tools).1
    | true =>
        have based := sees.based tools
        by_contra positive
        exact absurd ((early (by omega)).symm.trans tools) (by decide)
  have textSeen : Block.text ∈ seen ↔ ctx.hasSentContentBlockStart = true := by
    simp [sees.text, atZero]
  have leads : ctx.hasToolCalls = false → lead = 1 := by
    intro none
    have leading := sees.leading none
    split at leading <;> exact leading
  have order := text_stays_text lead ctx.hasToolCalls content nonempty rest early
  unfold StepAgrees
  rw [text_step, order]
  -- A text block that was started takes the new text; otherwise one opens here.
  by_cases flag : ctx.hasSentContentBlockStart = true
  · have still : ({ ctx with hasSentContentBlockStart := true } : OpenAiStreamContext) = ctx := by
      cases ctx
      simp_all
    have known := numbered_known lead seen (.text content nonempty) rest
      fun block asks => Option.some.inj asks ▸ textSeen.mpr flag
    rw [still]
    refine ⟨seen, ?_, fun _ => ⟨sees.counted, sees.text, sees.tools, sees.based, ?_⟩⟩
    · simp [known, GoodItem, flag]
    · intro none
      simp [leads none, flag]
  · have fresh := numbered_fresh lead seen (.text content nonempty) rest .text rfl
      fun member => flag (textSeen.mp member)
    have good : GoodItem ctx (.text content nonempty) ↔ Block.slot lead .text = seen.length := by
      rw [GoodItem, or_iff_right flag, sees.counted]
      exact eq_comm
    refine ⟨.text :: seen, ?_, fun isGood => ⟨?_, ?_, ?_, sees.based, ?_⟩⟩
    · rw [fresh, good]
      exact and_left_comm
    · have counted := sees.counted
      simp only [startedBlocks, openBlocks, flag, ↓reduceIte, List.nil_append,
        Bool.false_eq_true] at counted ⊢
      simp only [List.singleton_append, List.length_cons]
      omega
    · simp
    · simp [sees.tools]
    · intro none
      simp [leads none]

theorem closed_sees (delta : ToolDelta) (within : delta.index ≤ maxToolCallIndex)
    (sound : Sound ctx) (sees : Sees lead (.tool delta within :: rest) seen ctx) :
    Sees lead rest seen (closeText ctx).2 := by
  unfold closeText
  by_cases tools : ctx.hasToolCalls = true
  · rw [if_pos tools]
    exact ⟨sees.counted, sees.text, sees.tools, sees.based,
      fun none => absurd (tools.symm.trans none) (by decide)⟩
  · have none := Bool.not_eq_true _ |>.mp tools
    obtain ⟨atZero, -⟩ := sound.toolsLater none
    have leading := sees.leading none
    have counted := sees.counted
    have text := sees.text
    rw [if_neg tools]
    by_cases flag : ctx.hasSentContentBlockStart = true
    · rw [if_pos flag] at leading ⊢
      refine ⟨?_, ?_, sees.tools, fun _ => ?_, fun never => absurd never (by simp)⟩
      · simp only [startedBlocks, openBlocks, flag, ↓reduceIte, Bool.false_eq_true,
          List.nil_append, List.singleton_append, List.length_cons] at counted ⊢
        omega
      · simp [text, flag]
      · simp [leading, atZero]
    · rw [if_neg flag] at leading ⊢
      refine ⟨counted, text, sees.tools, fun _ => ?_, fun never => absurd never (by simp)⟩
      exact atZero.trans leading.symm

theorem seen_started (delta : ToolDelta) (sees : Sees lead rest seen ctx) :
    (updated ctx delta).started = true ↔ .tool delta.index ∈ seen := by
  rw [sees.tools]
  simp only [updated, ToolCallAccumulator.update, accumulator]
  cases ctx.toolAccumulators.lookup delta.index with
  | none => simp
  | some acc => simp

/-- A delta opens its block when the block is new and the delta names it. -/
theorem opens_iff (delta : ToolDelta) (sound : Sound ctx) (sees : Sees lead rest seen ctx) :
    Opens (updated ctx delta) ↔ .tool delta.index ∉ seen ∧ delta.name.getD "" ≠ "" := by
  have started := seen_started lead seen ctx rest delta sees
  unfold Opens
  rw [← started, Bool.not_eq_true, and_congr_right_iff]
  intro idle
  have unnamed : (accumulator ctx delta.index).name = "" := by
    unfold accumulator
    cases found : ctx.toolAccumulators.lookup delta.index with
    | none => rfl
    | some acc =>
        refine (sound.numbered delta.index acc found).2 ?_
        simpa [updated, ToolCallAccumulator.update, accumulator, found] using idle
  simp [updated, ToolCallAccumulator.update, unnamed]

theorem stored_tools (delta : ToolDelta) (sees : Sees lead rest seen ctx) (index : Nat) :
    (∃ acc, (stored ctx delta).toolAccumulators.lookup index = some acc ∧ acc.started = true) ↔
      .tool index ∈ seen ∨ index = delta.index ∧ Opens (updated ctx delta) := by
  by_cases same : index = delta.index
  · subst same
    simp only [stored, AList.lookup_insert, Option.some.injEq, exists_eq_left', true_and]
    rw [start_tool_started, seen_started lead seen ctx rest delta sees]
  · simp only [stored, same, false_and, or_false, sees.tools]
    rw [AList.lookup_insert_ne same]

theorem tool_agrees (delta : ToolDelta) (within : delta.index ≤ maxToolCallIndex)
    (sound : Sound ctx) (soundClosed : Sound (closeText ctx).2)
    (seenTool : (closeText ctx).2.hasToolCalls = true)
    (sees : Sees lead (.tool delta within :: rest) seen ctx) :
    StepAgrees lead seen ctx (.tool delta within) rest := by
  have closed := closed_sees lead seen ctx rest delta within sound sees
  have opens := opens_iff lead seen _ rest delta soundClosed closed
  have tools := stored_tools lead seen _ rest delta closed
  have blocks := (tool_open_blocks (closeText ctx).2 delta).length_eq
  have later : (stored (closeText ctx).2 delta).hasToolCalls = true := seenTool
  unfold StepAgrees
  rw [tool_step, text_stays_tool, later]
  by_cases opened : Opens (updated (closeText ctx).2 delta)
  · obtain ⟨fresh, named⟩ := opens.mp opened
    have number := numbered_fresh lead seen (.tool delta within) rest (.tool delta.index)
      (by simp [Item.asks, named]) fresh
    have good : GoodItem ctx (.tool delta within) ↔
        Block.slot lead (.tool delta.index) = seen.length := by
      simp only [GoodItem, opened, forall_const, updated_block _ delta soundClosed,
        closed.counted, closed.based seenTool, Block.slot]
    refine ⟨.tool delta.index :: seen, ?_, fun _ => ⟨?_, ?_, ?_, closed.based, ?_⟩⟩
    -- The tool opens a block: its number is good when the order gives it that slot.
    · rw [number, good]
      exact and_left_comm
    · rw [if_pos opened] at blocks
      have counted := closed.counted
      simp only [startedBlocks, blocks, List.singleton_append, List.length_cons] at counted ⊢
      simp only [stored]
      omega
    · simpa [stored] using closed.text
    · intro index
      rw [tools]
      simp [opened, or_comm]
    · exact fun never => absurd (later.symm.trans never) (by decide)
  -- No block opens, as the tool has one already or has no name yet.
  · have known := numbered_known lead seen (.tool delta within) rest fun block asks => by
      by_contra fresh
      simp only [Item.asks] at asks
      split at asks
      · rename_i named
        cases asks
        exact opened (opens.mpr ⟨fresh, named⟩)
      · cases asks
    refine ⟨seen, ?_, fun _ => ⟨?_, closed.text, ?_, closed.based, ?_⟩⟩
    · rw [known]
      have good : GoodItem ctx (.tool delta within) := fun opens => absurd opens opened
      exact (and_iff_right good).symm
    · rw [if_neg opened, List.nil_append] at blocks
      have counted := closed.counted
      simp only [startedBlocks, blocks] at counted ⊢
      exact counted
    · intro index
      rw [tools]
      simp [opened]
    · exact fun never => absurd (later.symm.trans never) (by decide)

end Order

theorem step_agrees (lead : Nat) (seen : List Block) (ctx : OpenAiStreamContext) (item : Item)
    (rest : List Item) (bounded : lead ≤ 1) (sound : Sound ctx)
    (sees : Sees lead (item :: rest) seen ctx) : StepAgrees lead seen ctx item rest := by
  cases item with
  | text content nonempty =>
      by_cases late : lead = 1 ∧ ctx.hasToolCalls = true
      · exact late_text_agrees lead seen ctx rest content nonempty sound sees late.1 late.2
      · have early : lead = 1 → ctx.hasToolCalls = false := by simpa using late
        exact early_text_agrees lead seen ctx rest content nonempty sound sees early bounded
  | tool delta within =>
      obtain ⟨-, -, ⟨soundClosed, -⟩, seenTool⟩ :=
        close_accepted ctx _ ⟨sound, _, rfl, .refl _⟩
      exact tool_agrees lead seen ctx rest delta within sound soundClosed seenTool sees

theorem all_good_iff (lead : Nat) (seen : List Block) (ctx : OpenAiStreamContext)
    (items : List Item) (bounded : lead ≤ 1) (sound : Sound ctx)
    (sees : Sees lead items seen ctx) :
    AllGood feedItem GoodItem ctx items ↔
      TextStaysFirst lead ctx.hasToolCalls items ∧ NumberedFrom lead seen items := by
  induction items generalizing ctx seen with
  | nil => simp [AllGood, TextStaysFirst, ToolsLast, NumberedFrom, newBlocks]
  | cons item rest ih =>
      obtain ⟨after, agrees, seesAfter⟩ :=
        step_agrees lead seen ctx item rest bounded sound sees
      rw [agrees, AllGood]
      apply and_congr_right
      intro good
      obtain ⟨-, -, ⟨soundAfter, -⟩⟩ := item_accepted ctx _ item ⟨sound, _, rfl, .refl _⟩ good
      exact ih after _ soundAfter (seesAfter good)

theorem opening_sees (items : List Item) : Sees (leadText items) items [] opening where
  counted := rfl
  text := by simp [opening, new]
  tools := by simp [opening, new]
  based := by simp [opening, new]
  leading := by simp [opening, new]

theorem lead_text_le (items : List Item) : leadText items ≤ 1 := by
  unfold leadText
  split <;> simp

/-- A stream of at least one chunk and the end mark is translated to a
well-formed message stream exactly when its blocks open in order. -/
theorem well_formed_iff (chunks : List (ChunkLine codec)) (some : chunks ≠ []) :
    WellFormed (translate codec order (chunks.map ChunkLine.line ++ [doneLine])) ↔
      OpensInOrder (streamItems chunks) := by
  cases chunks with
  | nil => exact absurd rfl some
  | cons first rest =>
      rw [well_formed_iff_good, all_good_iff _ [] opening _ (lead_text_le _) opening_related.1 (opening_sees _)]
      have numbered : NumberedFrom (leadText (streamItems (first :: rest))) []
          (streamItems (first :: rest)) ↔
          (openings (streamItems (first :: rest))).map
              (Block.slot (leadText (streamItems (first :: rest)))) =
            List.range (openings (streamItems (first :: rest))).length := by
        rw [List.range_eq_range']
        rfl
      rw [numbered, OpensInOrder]
      apply and_congr_left
      intro _
      simp [TextStaysFirst, opening, new]

def textChunk (content : String) : String × Json :=
  ("\x7b\"choices\":[\x7b\"delta\":\x7b\"content\":\"" ++ content ++ "\"\x7d\x7d]\x7d",
    Json.make [("choices", .array [Json.make [("delta",
      Json.make [("content", .string content)])]])])

def toolChunk : String × Json :=
  ("\x7b\"choices\":[\x7b\"delta\":\x7b\"tool_calls\":[\x7b\"index\":0,\"id\":\"t1\"," ++
    "\"function\":\x7b\"name\":\"ls\",\"arguments\":\"\x7b\x7d\"\x7d\x7d]\x7d\x7d]\x7d",
    Json.make [("choices", .array [Json.make [("delta",
      Json.make [("tool_calls", .array [Json.make [("index", .ofInt 0), ("id", .string "t1"),
        ("function", Json.make [("name", .string "ls"),
          ("arguments", .string "\x7b\x7d")])]])])]])])

def chunkCodec : Codec := .ofTable [textChunk "hi", toolChunk, textChunk "bye"]

def hiLine : ChunkLine chunkCodec := ⟨(textChunk "hi").1, (textChunk "hi").2, by decide, by decide⟩

def toolLine : ChunkLine chunkCodec :=
  ⟨toolChunk.1, toolChunk.2, by decide +kernel, by decide +kernel⟩

theorem text_then_tool_well_formed :
    WellFormed (translate chunkCodec insertionOrder
      ([hiLine, toolLine].map ChunkLine.line ++ [doneLine])) :=
  (well_formed_iff insertionOrder [hiLine, toolLine] (by simp)).mpr (by decide +kernel)

/-- Text after a tool call reopens the text block under a number of its own and
writes to the block that is closed. -/
theorem text_after_tool_malformed :
    ¬ WellFormed (translate chunkCodec insertionOrder
      ["data: " ++ (textChunk "hi").1, "data: " ++ toolChunk.1, "data: " ++ (textChunk "bye").1,
        doneLine]) := by
  decide +kernel

end Ccflare.StreamNumbering
