import Mathlib.Algebra.GroupWithZero.Nat
import Mathlib.Data.List.Infix

/-!
Text operations of the source language's `str`, on the characters of a string.
Only ASCII letters change case; `trim` drops the Unicode White_Space set.
-/

namespace Ccflare.Text

def contains (needle text : String) : Bool := decide (needle.toList <:+: text.toList)

def startsWith (start text : String) : Bool := start.toList.isPrefixOf text.toList

def endsWith (ending text : String) : Bool := ending.toList.isSuffixOf text.toList

def stripPrefix (start text : String) : Option String :=
  (start.toList.isPrefixOf? text.toList).map String.ofList

def toAsciiLowercase (text : String) : String := String.ofList (text.toList.map Char.toLower)

def isWhiteSpace (c : Char) : Bool :=
  let code := c.toNat
  (9 ≤ code && code ≤ 13) || code == 32 || code == 0x85 || code == 0xA0 || code == 0x1680 ||
    (0x2000 ≤ code && code ≤ 0x200A) || code == 0x2028 || code == 0x2029 || code == 0x202F ||
    code == 0x205F || code == 0x3000

def trim (text : String) : String :=
  String.ofList ((text.toList.dropWhile isWhiteSpace).reverse.dropWhile isWhiteSpace).reverse

def trimEndMatches (drop : Char) (text : String) : String :=
  String.ofList (text.toList.reverse.dropWhile (· == drop)).reverse

def byteLength (text : String) : Nat := (text.toList.map Char.utf8Size).sum

def splitAtBytes : Nat → List Char → Option (List Char × List Char)
  | 0, rest => some ([], rest)
  | _ + 1, [] => none
  | index + 1, c :: rest =>
      if c.utf8Size ≤ index + 1 then
        (splitAtBytes (index + 1 - c.utf8Size) rest).map fun parts => (c :: parts.1, parts.2)
      else none

/-- `split_at` counts bytes; inside a character it has no value. -/
def splitAt (index : Nat) (text : String) : Option (String × String) :=
  (splitAtBytes index text.toList).map fun parts => (String.ofList parts.1, String.ofList parts.2)

/-- The lines that end in a newline, and what follows the last of them. -/
def splitLines : List Char → List Char → List (List Char) × List Char
  | line, [] => ([], line.reverse)
  | line, c :: rest =>
      if c = '\n' then
        let (lines, unfinished) := splitLines [] rest
        (line.reverse :: lines, unfinished)
      else splitLines (c :: line) rest

def completeLines (text : String) : List String × String :=
  let (lines, rest) := splitLines [] text.toList
  (lines.map String.ofList, String.ofList rest)

def joinWith (separator : String) : List String → String
  | [] => ""
  | [part] => part
  | part :: rest => part ++ separator ++ joinWith separator rest

def bytes (text : List Char) : Nat := (text.map Char.utf8Size).sum

@[simp]
theorem bytes_nil : bytes [] = 0 := rfl

@[simp]
theorem bytes_cons (c : Char) (rest : List Char) : bytes (c :: rest) = c.utf8Size + bytes rest := by
  simp [bytes]

@[simp]
theorem bytes_append (left right : List Char) : bytes (left ++ right) = bytes left + bytes right := by
  simp [bytes]

theorem byte_length_eq (text : String) : byteLength text = bytes text.toList := rfl

/-- A split by bytes is the split by characters that has so many bytes before it. -/
theorem split_at_bytes_iff (index : Nat) (text left right : List Char) :
    splitAtBytes index text = some (left, right) ↔ text = left ++ right ∧ bytes left = index := by
  induction text generalizing index left with
  | nil =>
      cases index with
      | zero => cases left <;> simp [splitAtBytes, eq_comm]
      | succ index =>
          simp only [splitAtBytes, reduceCtorEq, false_iff]
          rintro ⟨whole, long⟩
          rw [(List.append_eq_nil_iff.mp whole.symm).1] at long
          cases long
  | cons c rest ih =>
      have wide := Char.utf8Size_pos c
      cases index with
      | zero =>
          cases left with
          | nil => simp [splitAtBytes, eq_comm]
          | cons d left =>
              have wider := Char.utf8Size_pos d
              simp only [splitAtBytes, bytes_cons]
              constructor
              · rintro ⟨⟩
              · rintro ⟨_, short⟩
                omega
      | succ index =>
          cases left with
          | nil =>
              simp only [splitAtBytes]
              split
              · simp
              · simp
          | cons d left =>
              simp only [splitAtBytes, List.cons_append, List.cons.injEq, bytes_cons]
              split
              · rename_i fits
                rw [Option.map_eq_some_iff]
                constructor
                · rintro ⟨⟨first, last⟩, found, same⟩
                  simp only [Prod.mk.injEq, List.cons.injEq] at same
                  obtain ⟨⟨rfl, rfl⟩, rfl⟩ := same
                  obtain ⟨rfl, long⟩ := (ih _ _).mp found
                  exact ⟨⟨rfl, rfl⟩, by omega⟩
                · rintro ⟨⟨rfl, rfl⟩, long⟩
                  exact ⟨(left, right), (ih _ _).mpr ⟨rfl, by omega⟩, rfl⟩
              · rename_i exceeds
                simp only [reduceCtorEq, false_iff]
                rintro ⟨⟨rfl, _⟩, long⟩
                omega

theorem contains_iff (needle text : String) :
    contains needle text = true ↔ ∃ before after, before ++ needle ++ after = text := by
  unfold contains
  rw [decide_eq_true_iff]
  constructor
  · rintro ⟨before, after, same⟩
    refine ⟨String.ofList before, String.ofList after, String.toList_inj.mp ?_⟩
    simpa [String.toList_append] using same
  · rintro ⟨before, after, rfl⟩
    exact ⟨before.toList, after.toList, by simp [String.toList_append]⟩

theorem contains_append_right (needle left right : String)
    (hit : contains needle right = true) : contains needle (left ++ right) = true := by
  obtain ⟨before, after, rfl⟩ := (contains_iff needle right).mp hit
  exact (contains_iff _ _).mpr ⟨left ++ before, after, by simp [String.append_assoc]⟩

theorem contains_append_left (needle left right : String)
    (hit : contains needle left = true) : contains needle (left ++ right) = true := by
  obtain ⟨before, after, rfl⟩ := (contains_iff needle left).mp hit
  exact (contains_iff _ _).mpr ⟨before, after ++ right, by simp [String.append_assoc]⟩

theorem contains_self (text : String) : contains text text = true :=
  (contains_iff text text).mpr ⟨"", "", by simp⟩

theorem join_with_cons (separator part next : String) (rest : List String) :
    joinWith separator (part :: next :: rest) =
      part ++ separator ++ joinWith separator (next :: rest) := rfl

theorem join_empty_cons (part : String) (rest : List String) :
    joinWith "" (part :: rest) = part ++ joinWith "" rest := by
  cases rest with
  | nil => simp [joinWith]
  | cons next rest => simp [join_with_cons]

theorem join_contains (parts : List String) (part : String) (member : part ∈ parts) :
    contains part (joinWith "" parts) = true := by
  induction parts with
  | nil => simp at member
  | cons first rest ih =>
      rw [join_empty_cons]
      rcases List.mem_cons.mp member with rfl | later
      · exact contains_append_left _ _ _ (contains_self part)
      · exact contains_append_right _ _ _ (ih later)

theorem strip_prefix_append (start rest : String) :
    stripPrefix start (start ++ rest) = some rest := by
  simp [stripPrefix]

theorem split_lines_prefix (line start rest : List Char) (unbroken : '\n' ∉ start) :
    splitLines line (start ++ rest) = splitLines (start.reverse ++ line) rest := by
  induction start generalizing line with
  | nil => rfl
  | cons c tail ih =>
      have other : c ≠ '\n' := fun same => unbroken (same ▸ List.mem_cons_self)
      have later : '\n' ∉ tail := fun member => unbroken (List.mem_cons_of_mem _ member)
      simp [splitLines, other, ih _ later]

theorem split_lines_append (line left right : List Char) :
    splitLines line (left ++ right) =
      ((splitLines line left).1 ++ (splitLines (splitLines line left).2.reverse right).1,
        (splitLines (splitLines line left).2.reverse right).2) := by
  induction left generalizing line with
  | nil => simp [splitLines]
  | cons c rest ih =>
      by_cases breaks : c = '\n'
      · simp [splitLines, breaks, ih]
      · simp [splitLines, breaks, ih]

theorem unfinished_unbroken (line text : List Char) (unbroken : '\n' ∉ line) :
    '\n' ∉ (splitLines line text).2 := by
  induction text generalizing line with
  | nil => simpa [splitLines] using unbroken
  | cons c rest ih =>
      by_cases breaks : c = '\n'
      · simpa [splitLines, breaks] using ih [] (by simp)
      · have longer : '\n' ∉ c :: line := by
          simp [unbroken, Ne.symm breaks]
        simpa [splitLines, breaks] using ih _ longer

/-- What a reader holds back is read again in front of the next text. -/
theorem complete_lines_append (left right : String) :
    completeLines (left ++ right) =
      ((completeLines left).1 ++ (completeLines ((completeLines left).2 ++ right)).1,
        (completeLines ((completeLines left).2 ++ right)).2) := by
  have held := unfinished_unbroken [] left.toList (by simp)
  have again := split_lines_prefix [] (splitLines [] left.toList).2 right.toList held
  simp [completeLines, String.toList_append, split_lines_append [] left.toList, again]

theorem complete_lines_unbroken (text : String) (unbroken : '\n' ∉ text.toList) :
    completeLines text = ([], text) := by
  have all := split_lines_prefix [] text.toList [] unbroken
  rw [List.append_nil] at all
  simp [completeLines, all, splitLines]

theorem complete_lines_rest (text : String) : '\n' ∉ (completeLines text).2.toList := by
  simpa [completeLines] using unfinished_unbroken [] text.toList (by simp)

theorem complete_lines_line (line rest : String) (unbroken : '\n' ∉ line.toList) :
    completeLines (line ++ "\n" ++ rest) =
      (line :: (completeLines rest).1, (completeLines rest).2) := by
  have first := split_lines_prefix [] line.toList ('\n' :: rest.toList) unbroken
  simp [completeLines, String.toList_append, first, splitLines]

theorem drop_while_all (drops : Char → Bool) (blank rest : List Char)
    (all : ∀ c ∈ blank, drops c = true) (solid : ∀ c ∈ rest.head?, drops c = false) :
    (blank ++ rest).dropWhile drops = rest := by
  induction blank with
  | nil =>
      cases rest with
      | nil => rfl
      | cons c rest => simp [solid c (by simp)]
  | cons c blank ih =>
      rw [List.cons_append, List.dropWhile_cons_of_pos (all c List.mem_cons_self)]
      exact ih fun d member => all d (List.mem_cons_of_mem c member)

/-- A text that neither begins nor ends with white space is what is left of it in white space. -/
theorem trim_padded (left text right : String) (before : ∀ c ∈ left.toList, isWhiteSpace c = true)
    (after : ∀ c ∈ right.toList, isWhiteSpace c = true)
    (first : ∃ c ∈ text.toList.head?, isWhiteSpace c = false)
    (last : ∀ c ∈ text.toList.getLast?, isWhiteSpace c = false) :
    trim (left ++ text ++ right) = text := by
  obtain ⟨c, begins, solid⟩ := first
  have front : (left.toList ++ (text.toList ++ right.toList)).dropWhile isWhiteSpace =
      text.toList ++ right.toList := by
    apply drop_while_all _ _ _ before
    intro d there
    rw [List.head?_append, Option.mem_def.mp begins] at there
    rw [← Option.some.inj there]
    exact solid
  have back : (right.toList.reverse ++ text.toList.reverse).dropWhile isWhiteSpace =
      text.toList.reverse := by
    apply drop_while_all
    · simpa using after
    · rw [List.head?_reverse]
      exact last
  rw [trim, String.toList_append, String.toList_append, List.append_assoc, front,
    List.reverse_append, back, List.reverse_reverse, String.ofList_toList]

theorem trim_end_absent (drop : Char) (text : String) (absent : drop ∉ text.toList) :
    trimEndMatches drop text = text := by
  have kept : text.toList.reverse.dropWhile (· == drop) = text.toList.reverse := by
    cases reversed : text.toList.reverse with
    | nil => rfl
    | cons c rest =>
        have member : c ∈ text.toList := List.mem_reverse.mp (reversed ▸ List.mem_cons_self)
        have other : c ≠ drop := fun same => absent (same ▸ member)
        simp [other]
  simp [trimEndMatches, kept]

/-- Trimming keeps a stretch of the text. -/
theorem trim_sublist (text : String) : (trim text).toList.Sublist text.toList := by
  rw [trim, String.toList_ofList]
  have back := (List.dropWhile_sublist isWhiteSpace
    (l := (text.toList.dropWhile isWhiteSpace).reverse)).reverse
  rw [List.reverse_reverse] at back
  exact back.trans (List.dropWhile_sublist _)

theorem bytes_sublist {left right : List Char} (sub : left.Sublist right) :
    bytes left ≤ bytes right := by
  induction sub with
  | slnil => rfl
  | cons c _ ih => exact ih.trans (by simp)
  | cons_cons c _ ih => simpa using ih

theorem trim_bytes_le (text : String) : byteLength (trim text) ≤ byteLength text :=
  bytes_sublist (trim_sublist text)

theorem drop_while_settled (drops : Char → Bool) (text : List Char) :
    (text.dropWhile drops).dropWhile drops = text.dropWhile drops := by
  induction text with
  | nil => rfl
  | cons c rest ih =>
      by_cases dropped : drops c = true
      · rw [List.dropWhile_cons_of_pos dropped, ih]
      · rw [List.dropWhile_cons_of_neg dropped, List.dropWhile_cons_of_neg dropped]

theorem trim_trim (text : String) : trim (trim text) = trim text := by
  generalize kept : ((text.toList.dropWhile isWhiteSpace).reverse.dropWhile isWhiteSpace).reverse =
    middle
  have front : middle.dropWhile isWhiteSpace = middle := by
    cases middle with
    | nil => rfl
    | cons c rest =>
        -- What is left begins as the text does once its own front is dropped.
        have start : (c :: rest) <+: text.toList.dropWhile isWhiteSpace := by
          rw [← kept, ← List.reverse_suffix, List.reverse_reverse]
          exact List.dropWhile_suffix _
        obtain ⟨tail, whole⟩ := start
        have solid := drop_while_settled isWhiteSpace text.toList
        rw [← whole, List.cons_append] at solid
        apply List.dropWhile_cons_of_neg
        intro dropped
        rw [List.dropWhile_cons_of_pos dropped] at solid
        have shorter := congrArg List.length solid
        have least := (List.dropWhile_sublist isWhiteSpace (l := rest ++ tail)).length_le
        rw [List.length_cons] at shorter
        omega
  have back : middle.reverse.dropWhile isWhiteSpace = middle.reverse := by
    rw [← kept, List.reverse_reverse]
    exact drop_while_settled _ _
  simp only [trim, String.toList_ofList, kept, front, back, List.reverse_reverse]

end Ccflare.Text
