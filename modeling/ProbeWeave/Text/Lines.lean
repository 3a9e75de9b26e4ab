/-!
# Lines of a text

A text is cut behind its line breaks. What counts as a break differs: source files are cut at
carriage returns and newlines, printed text also at the other characters that end a line or a
record. A carriage return followed by a newline is always one break.

The main statement is that cutting loses nothing: the lines concatenate to the text.
-/

namespace ProbeWeave.Text

/-- The breaks between the lines of a source file. -/
def isSourceBreak (c : Char) : Bool :=
  c == '\n' || c == '\r'

/-- The breaks between the lines of printed text. -/
def isTextBreak (c : Char) : Bool :=
  let n := c.toNat
  (0x0a ≤ n && n ≤ 0x0d) || (0x1c ≤ n && n ≤ 0x1e) || n == 0x85 || n == 0x2028 || n == 0x2029

/-- The lines of a text, each with the break that ends it. -/
def cutLines (isBreak : Char → Bool) : List Char → List (List Char)
  | [] => []
  | c :: rest =>
    if isBreak c && !(c == '\r' && rest.head? == some '\n') then
      [c] :: cutLines isBreak rest
    else
      match cutLines isBreak rest with
      | [] => [[c]]
      | line :: lines => (c :: line) :: lines

/-- Cutting a text into lines keeps every character in its place. -/
theorem flatten_cutLines (isBreak : Char → Bool) (cs : List Char) :
    (cutLines isBreak cs).flatten = cs := by
  induction cs with
  | nil => rfl
  | cons c rest ih =>
    simp only [cutLines]
    split
    · simp [ih]
    · split <;> simp_all

theorem cutLines_ne_nil (isBreak : Char → Bool) (c : Char) (rest : List Char) :
    cutLines isBreak (c :: rest) ≠ [] := by
  intro none
  have whole := flatten_cutLines isBreak (c :: rest)
  rw [none] at whole
  cases whole

/-- Carriage returns, with or without a newline, become newlines. -/
def unifyBreaks : List Char → List Char
  | [] => []
  | '\r' :: '\n' :: rest => '\n' :: unifyBreaks rest
  | '\r' :: rest => '\n' :: unifyBreaks rest
  | c :: rest => c :: unifyBreaks rest

theorem unifyBreaks_ne_nil (c : Char) (rest : List Char) : unifyBreaks (c :: rest) ≠ [] := by
  unfold unifyBreaks
  split <;> simp_all

/-- A text whose breaks are newlines stays as it is. -/
theorem unifyBreaks_of_not_mem {cs : List Char} (absent : '\r' ∉ cs) : unifyBreaks cs = cs := by
  fun_induction unifyBreaks cs with
  | case1 => rfl
  | case2 | case3 => simp at absent
  | case4 c rest _ _ ih => rw [ih fun member => absent (List.mem_cons_of_mem c member)]

/-- No carriage return is left. -/
theorem not_mem_unifyBreaks (cs : List Char) : '\r' ∉ unifyBreaks cs := by
  fun_induction unifyBreaks cs with
  | case1 => simp
  | case2 rest ih | case3 rest _ ih => simpa using ih
  | case4 c rest _ other ih => simp [ih, Ne.symm other]

/-- A line without the breaks at its end. -/
def trimBreak (isBreak : Char → Bool) (line : List Char) : List Char :=
  (line.reverse.dropWhile isBreak).reverse

/-- The lines of a source file, each with its break. -/
def sourceLines (s : String) : List String :=
  (cutLines isSourceBreak s.toList).map String.ofList

/-- A line of a source file without the break at its end. -/
def withoutBreak (line : String) : String :=
  String.ofList (trimBreak isSourceBreak line.toList)

/-- The lines of printed text, each with its break. -/
def textLinesWithBreaks (s : String) : List String :=
  (cutLines isTextBreak s.toList).map String.ofList

/--
Drops the break at the end of a line: one character, or a carriage return with the newline
behind it.
-/
def dropBreak (isBreak : Char → Bool) (line : List Char) : List Char :=
  match line.reverse with
  | '\n' :: '\r' :: rest => if isBreak '\r' then rest.reverse else ('\r' :: rest).reverse
  | c :: rest => if isBreak c then rest.reverse else line
  | [] => []

/-- The lines of printed text, without their breaks. -/
def textLines (s : String) : List String :=
  (cutLines isTextBreak s.toList).map fun line => String.ofList (dropBreak isTextBreak line)

end ProbeWeave.Text
