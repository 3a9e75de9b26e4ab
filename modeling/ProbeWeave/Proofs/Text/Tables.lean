import Mathlib
import ProbeWeave.Proofs.Report.Readback
import ProbeWeave.Text.Table

/-! # The columns of a table

The widths of the columns are found in one pass over all cells; every line of a table but that of the
title is made of fields of these widths, parted by marks. So the marks of all these lines stand below each
other, and each cell stands in its column. The line of a title is as long as the others unless the title
is too long for the columns.
-/

namespace ProbeWeave.Text.Table

/-! ### Lines of fields -/

/-- Fields between marks. -/
def framed (mark : Char) (fields : List (List Char)) : List Char :=
  mark :: fields.flatMap (· ++ [mark])

/-- The places of the marks around fields of some lengths. -/
def edgesFrom (start : Nat) : List Nat → List Nat
  | [] => [start]
  | n :: ns => start :: edgesFrom (start + n + 1) ns

/-- The places of the corners among some characters. -/
def cornersFrom (start : Nat) : List Char → List Nat
  | [] => []
  | c :: cs => if c = '+' then start :: cornersFrom (start + 1) cs else cornersFrom (start + 1) cs

/-- The places where a line has a corner. -/
def corners (line : String) : List Nat :=
  cornersFrom 0 line.toList

variable {mark : Char} {fields : List (List Char)} {ns : List Nat}

theorem framed_cons (mark : Char) (field : List Char) (fields : List (List Char)) :
    framed mark (field :: fields) = mark :: field ++ framed mark fields := by
  simp [framed]

theorem length_framed (mark : Char) (fields : List (List Char)) :
    (framed mark fields).length = 1 + (fields.map fun field => field.length + 1).sum := by
  simp [framed, Nat.add_comm]

theorem length_edgesFrom (start : Nat) (ns : List Nat) :
    (edgesFrom start ns).length = ns.length + 1 := by
  induction ns generalizing start with
  | nil => rfl
  | cons n rest ih => rw [edgesFrom, List.length_cons, ih, List.length_cons]

theorem edgesFrom_zero (start : Nat) (ns : List Nat) : (edgesFrom start ns)[0]? = some start := by
  cases ns <;> rfl

theorem edgesFrom_length (start : Nat) (ns : List Nat) :
    (edgesFrom start ns)[ns.length]? = some (start + (ns.map (· + 1)).sum) := by
  induction ns generalizing start with
  | nil => rfl
  | cons n rest ih =>
    rw [edgesFrom, List.length_cons, List.getElem?_cons_succ, ih, List.map_cons, List.sum_cons,
      ← Nat.add_assoc, ← Nat.add_assoc]

/-- Between two marks that follow each other there is the field. -/
theorem framed_edges (before : List Char) {j p q : Nat} {field : List Char}
    (left : (edgesFrom before.length (fields.map List.length))[j]? = some p)
    (right : (edgesFrom before.length (fields.map List.length))[j + 1]? = some q)
    (here : fields[j]? = some field) :
    (before ++ framed mark fields)[p]? = some mark ∧ (before ++ framed mark fields)[q]? = some mark ∧
      (before ++ framed mark fields).extract (p + 1) q = field := by
  induction fields generalizing before j with
  | nil => simp at here
  | cons first rest ih =>
    have longer : (before ++ mark :: first).length = before.length + first.length + 1 := by
      simp [Nat.add_assoc]
    have cut : before ++ framed mark (first :: rest) = (before ++ mark :: first) ++ framed mark rest := by
      rw [framed_cons, List.append_assoc]
    rw [List.map_cons, edgesFrom, ← longer] at left right
    rw [List.getElem?_cons_succ] at right
    rw [cut]
    cases j with
    | zero =>
      rw [edgesFrom_zero] at right
      obtain rfl : before.length = p := Option.some.inj left
      obtain rfl := Option.some.inj right
      obtain rfl : first = field := Option.some.inj here
      refine ⟨by simp, by simp [framed], ?_⟩
      rw [List.extract_eq_take_drop, List.append_assoc, longer]
      simp [Nat.add_sub_cancel_left]
    | succ j => exact ih _ left right here

theorem cornersFrom_append_of_not_mem {cs : List Char} (plain : '+' ∉ cs) (start : Nat)
    (ds : List Char) : cornersFrom start (cs ++ ds) = cornersFrom (start + cs.length) ds := by
  induction cs generalizing start with
  | nil => rfl
  | cons c rest ih =>
    obtain ⟨other, plain⟩ := not_or.mp (List.mem_cons.not.mp plain)
    rw [List.cons_append, cornersFrom, if_neg (Ne.symm other), ih plain, List.length_cons,
      Nat.add_assoc, Nat.add_comm 1]

/-- The corners of a line are its marks. -/
theorem cornersFrom_framed (plain : ∀ field ∈ fields, '+' ∉ field) (start : Nat) :
    cornersFrom start (framed '+' fields) = edgesFrom start (fields.map List.length) := by
  induction fields generalizing start with
  | nil => rfl
  | cons first rest ih =>
    obtain ⟨here, others⟩ := List.forall_mem_cons.mp plain
    rw [framed_cons, List.cons_append, cornersFrom, if_pos rfl, cornersFrom_append_of_not_mem here,
      ih others, List.map_cons, edgesFrom, Nat.add_right_comm]

/-! ### Fields -/

/-- Whether a field of a width shows a text in full, with a blank or more on either side. -/
structure Field (width : Nat) (shown : String) (field : List Char) : Prop where
  length : field.length = width + 2
  text : ∃ left right, 0 < left ∧ 0 < right ∧
    field = List.replicate left ' ' ++ (shown.toList ++ List.replicate right ' ')

/-- What a line makes of a text that is padded to a width. -/
def fieldOf (padded : String) : List Char :=
  ' ' :: (padded.toList ++ [' '])

theorem toList_blanks (n : Nat) : (blanks n).toList = List.replicate n ' ' :=
  String.toList_ofList

/-- A text between blanks that fill the width makes a field. -/
theorem field_fieldOf {width : Nat} {shown padded : String} (left right : Nat)
    (whole : padded.toList = List.replicate left ' ' ++ (shown.toList ++ List.replicate right ' '))
    (fills : left + (shown.length + right) = width) : Field width shown (fieldOf padded) := by
  have behind : List.replicate right ' ' ++ [' '] = List.replicate (right + 1) ' ' :=
    List.replicate_succ'.symm
  have same : fieldOf padded =
      List.replicate (left + 1) ' ' ++ (shown.toList ++ List.replicate (right + 1) ' ') := by
    rw [fieldOf, whole, ← behind, List.replicate_succ]
    simp
  refine ⟨?_, left + 1, right + 1, Nat.succ_pos _, Nat.succ_pos _, same⟩
  rw [same]
  simp only [List.length_append, List.length_replicate, String.length_toList]
  omega

section Padding

variable {width : Nat} {shown : String} (fits : shown.length ≤ width)
include fits

theorem field_atLeft : Field width shown (fieldOf (atLeft width shown)) := by
  refine field_fieldOf 0 (width - shown.length) ?_ (by omega)
  rw [atLeft, String.toList_append, toList_blanks, List.replicate_zero, List.nil_append]

theorem field_atRight : Field width shown (fieldOf (atRight width shown)) := by
  refine field_fieldOf (width - shown.length) 0 ?_ (by omega)
  rw [atRight, String.toList_append, toList_blanks, List.replicate_zero, List.append_nil]

theorem field_centred : Field width shown (fieldOf (centred width shown)) := by
  have half := Nat.div_le_self (width - shown.length) 2
  refine field_fieldOf ((width - shown.length) / 2)
    ((width - shown.length) - (width - shown.length) / 2) ?_ (by omega)
  rw [centred]
  simp only [String.toList_append, toList_blanks, List.append_assoc]

end Padding

/-! ### Lines -/

theorem toList_lineOf (cells : List String) : (lineOf cells).toList = framed '|' (cells.map fieldOf) := by
  have each : ∀ cells : List String,
      (String.join (cells.map fun cell => " " ++ cell ++ " |")).toList =
        (cells.map fieldOf).flatMap (· ++ ['|']) := by
    intro cells
    induction cells with
    | nil => rfl
    | cons cell rest ih =>
      rw [List.map_cons, String.join_cons, String.toList_append, ih, List.map_cons, List.flatMap_cons]
      simp [fieldOf]
  rw [lineOf, String.toList_append, each]
  rfl

/-- The dashes above the columns of a table. -/
def dashes (widths : List Nat) : List (List Char) :=
  widths.map fun w => List.replicate (w + 2) '-'

/-- The ruler of a table that has columns is made of dashes between corners. -/
theorem toList_ruler {widths : List Nat} (columns : widths ≠ []) :
    (ruler widths).toList = framed '+' (dashes widths) := by
  have each : ∀ (w : Nat) (ws : List Nat),
      ("+".intercalate ((w :: ws).map fun w => String.ofList (List.replicate (w + 2) '-')) ++ "+").toList =
        (dashes (w :: ws)).flatMap (· ++ ['+']) := by
    intro w ws
    induction ws generalizing w with
    | nil => simp [dashes]
    | cons next rest ih =>
      have below := ih next
      rw [List.map_cons] at below
      rw [List.map_cons, List.map_cons, String.intercalate_cons_cons, String.append_assoc,
        String.toList_append, below]
      simp [dashes]
  obtain ⟨w, ws, rfl⟩ := List.exists_cons_of_ne_nil columns
  rw [ruler, String.append_assoc, String.toList_append, each]
  rfl

theorem corners_ruler {widths : List Nat} (columns : widths ≠ []) :
    corners (ruler widths) = edgesFrom 0 (widths.map (· + 2)) := by
  have plain : ∀ field ∈ dashes widths, '+' ∉ field := by
    intro field member
    obtain ⟨w, -, rfl⟩ := List.mem_map.mp member
    simp
  rw [corners, toList_ruler columns, cornersFrom_framed plain, dashes, List.map_map]
  congr 1
  refine List.map_congr_left fun w _ => ?_
  simp

/-- Whether a line shows cells below a ruler: it is as long as the ruler, below the corners there are marks
between the columns, and each cell stands in full between the marks of its column. -/
structure Shows (ruler line : String) (cells : List String) : Prop where
  length : line.length = ruler.length
  columns : (corners ruler).length = cells.length + 1
  first : (corners ruler)[0]? = some 0
  last : (corners ruler)[cells.length]? = some (line.length - 1)
  cell : ∀ j p q shown, (corners ruler)[j]? = some p → (corners ruler)[j + 1]? = some q →
    cells[j]? = some shown → line.toList[p]? = some '|' ∧ line.toList[q]? = some '|' ∧
      ∃ left right, 0 < left ∧ 0 < right ∧ line.toList.extract (p + 1) q =
        List.replicate left ' ' ++ (shown.toList ++ List.replicate right ' ')

theorem getElem?_of_forall₂ {α β : Type} {R : α → β → Prop} {xs : List α} {ys : List β}
    (both : List.Forall₂ R xs ys) {j : Nat} {y : β} (here : ys[j]? = some y) :
    ∃ x, xs[j]? = some x ∧ R x y := by
  induction both generalizing j with
  | nil => simp at here
  | cons head _ ih =>
    cases j with
    | zero => exact ⟨_, rfl, Option.some.inj here ▸ head⟩
    | succ j => exact ih here

section Columns

variable {widths : List Nat} {cells padded : List String} (full : cells.length = widths.length)
  (made : List.Forall₂ (fun out column => Field column.1 column.2 (fieldOf out)) padded
    (widths.zip cells))
include full made

theorem lengths_fields : (padded.map fieldOf).map List.length = widths.map (· + 2) := by
  have whole : (widths.zip cells).map Prod.fst = widths := List.map_fst_zip full.ge
  have each : List.Forall₂ Eq ((padded.map fieldOf).map List.length)
      (((widths.zip cells).map Prod.fst).map (· + 2)) := by
    simp only [List.forall₂_map_left_iff, List.forall₂_map_right_iff]
    exact made.imp fun _ _ field => field.length
  rwa [List.forall₂_eq_eq_eq, whole] at each

/-- A line of fields that have the widths of the columns shows what is in them. -/
theorem shows_lineOf (columns : widths ≠ []) : Shows (ruler widths) (lineOf padded) cells := by
  have lengths := lengths_fields full made
  have corner : corners (ruler widths) = edgesFrom 0 ((padded.map fieldOf).map List.length) := by
    rw [corners_ruler columns, lengths]
  have long : (lineOf padded).length = 1 + ((widths.map (· + 2)).map (· + 1)).sum := by
    rw [← String.length_toList, toList_lineOf, length_framed, ← lengths, List.map_map, List.map_map,
      List.map_map]
    rfl
  refine ⟨?_, ?_, ?_, ?_, ?_⟩
  · have above : (dashes widths).map List.length = widths.map (· + 2) := by simp [dashes]
    rw [long, ← String.length_toList (s := ruler widths), toList_ruler columns, length_framed, ← above,
      List.map_map]
    rfl
  · rw [corners_ruler columns, length_edgesFrom, List.length_map, full]
  · rw [corners_ruler columns, edgesFrom_zero]
  · have all : cells.length = (widths.map (· + 2)).length := by rw [full, List.length_map]
    rw [corners_ruler columns, all, edgesFrom_length, long, Nat.add_sub_cancel_left, Nat.zero_add]
  · intro j p q shown left right here
    rw [corner] at left right
    obtain ⟨w, column⟩ : ∃ w, widths[j]? = some w := by
      have short := (List.getElem?_eq_some_iff.mp here).1
      exact ⟨widths[j], List.getElem?_eq_getElem _⟩
    have pair : (widths.zip cells)[j]? = some (w, shown) := List.getElem?_zip_eq_some.mpr ⟨column, here⟩
    obtain ⟨out, put, field⟩ := getElem?_of_forall₂ made pair
    have put : (padded.map fieldOf)[j]? = some (fieldOf out) := by rw [List.getElem?_map, put]; rfl
    obtain ⟨first, last, between⟩ := @framed_edges '|' _ [] _ _ _ _ left right put
    rw [List.nil_append] at first last between
    rw [toList_lineOf, between]
    exact ⟨first, last, field.text⟩

end Columns

/-! ### Widths -/

/-- Whether columns are wide enough for the cells of a row, which has one for each column. -/
def Wide (widths : List Nat) (row : List String) : Prop :=
  List.Forall₂ (fun cell width => cell.length ≤ width) row widths

/-- The cells of a row fit after columns were made wide enough for it, and what fitted before still does. -/
theorem widen_wide {widths : List Nat} {row : List String} (full : row.length = widths.length) :
    ∃ wider, widen widths row = .ok wider ∧ wider.length = widths.length ∧ Wide wider row ∧
      ∀ other, Wide widths other → Wide wider other := by
  induction row generalizing widths with
  | nil =>
    obtain rfl := List.length_eq_zero_iff.mp full.symm
    exact ⟨[], rfl, rfl, .nil, fun _ => id⟩
  | cons cell cells ih =>
    obtain ⟨w, ws, rfl⟩ := List.exists_cons_of_length_eq_add_one full.symm
    obtain ⟨wider, ok, same, wide, mono⟩ := ih (Nat.succ.inj full)
    refine ⟨max w cell.length :: wider, ?_, congrArg (· + 1) same, .cons (Nat.le_max_right ..) wide, ?_⟩
    · rw [widen, ok]
      rfl
    · rintro _ (_ | ⟨fits, rest⟩)
      exact .cons (Nat.le_trans fits (Nat.le_max_left ..)) (mono _ rest)

theorem foldlM_widen_wide {rows : List (List String)} {widths : List Nat}
    (full : ∀ row ∈ rows, row.length = widths.length) :
    ∃ wider, rows.foldlM widen widths = .ok wider ∧ (∀ row ∈ rows, Wide wider row) ∧
      ∀ other, Wide widths other → Wide wider other := by
  induction rows generalizing widths with
  | nil => exact ⟨widths, rfl, by simp, fun _ => id⟩
  | cons row rest ih =>
    obtain ⟨first, others⟩ := List.forall_mem_cons.mp full
    obtain ⟨between, ok, same, wide, mono⟩ := widen_wide first
    obtain ⟨wider, all, each, more⟩ := ih fun r member => (others r member).trans same.symm
    refine ⟨wider, ?_, List.forall_mem_cons.mpr ⟨more row wide, each⟩, fun other fits =>
      more other (mono other fits)⟩
    rw [List.foldlM_cons, ok]
    exact all

/-- The widths that are found are wide enough for everything the table shows. -/
theorem widths_wide (t : Table) (full : ∀ row ∈ t.rows, row.length = t.headers.length) :
    ∃ widths, t.widths = .ok widths ∧ Wide widths t.headers ∧ ∀ row ∈ t.rows, Wide widths row := by
  obtain ⟨widths, ok, each, mono⟩ :=
    @foldlM_widen_wide t.rows (t.headers.map String.length) (by simpa using full)
  refine ⟨widths, ok, mono _ ?_, each⟩
  exact List.forall₂_map_right_iff.mpr (List.forall₂_same.mpr fun _ _ => Nat.le_refl _)

theorem fields_zipWith {pad : Nat → String → String} {widths : List Nat} {cells : List String}
    (wide : Wide widths cells)
    (field : ∀ {width shown}, String.length shown ≤ width → Field width shown (fieldOf (pad width shown))) :
    List.Forall₂ (fun out column => Field column.1 column.2 (fieldOf out))
      (List.zipWith pad widths cells) (widths.zip cells) := by
  induction wide with
  | nil => exact .nil
  | cons fits _ ih => exact .cons (field fits) ih

theorem shows_headerLine {widths : List Nat} {headers : List String} (wide : Wide widths headers)
    (columns : widths ≠ []) : Shows (ruler widths) (headerLine widths headers) headers :=
  shows_lineOf wide.length_eq (fields_zipWith wide field_centred) columns

theorem shows_rowLine {widths : List Nat} {row : List String} (wide : Wide widths row)
    (columns : widths ≠ []) : Shows (ruler widths) (rowLine widths row) row := by
  cases wide with
  | nil => exact absurd rfl columns
  | cons fits rest =>
    exact shows_lineOf (congrArg (· + 1) rest.length_eq)
      (.cons (field_atLeft fits) (fields_zipWith rest field_atRight)) columns

/-! ### Titles -/

theorem length_centred (width : Nat) (s : String) : (centred width s).length = max width s.length := by
  have half := Nat.div_le_self (width - s.length) 2
  rw [← String.length_toList, centred]
  simp only [String.toList_append, toList_blanks, List.length_append, List.length_replicate,
    String.length_toList]
  omega

theorem four_le_length_ruler {widths : List Nat} (columns : widths ≠ []) : 4 ≤ (ruler widths).length := by
  obtain ⟨w, ws, rfl⟩ := List.exists_cons_of_ne_nil columns
  rw [← String.length_toList, toList_ruler columns, length_framed]
  simp [dashes]
  omega

/-- Above a ruler that is long enough there is no title, or it stands in a line as long as the ruler or as
long as the title needs it, whichever is longer. -/
theorem titleLines_ok {total : Nat} (room : 4 ≤ total) (title : String) :
    ∃ top, titleLines total title = .ok top ∧ (title = "" → top = []) ∧
      (title ≠ "" → ∃ above line, top = [above, line] ∧ above.length = total ∧
        line.length = max total (title.length + 4)) := by
  by_cases none : title = ""
  · exact ⟨[], by rw [titleLines, none]; rfl, fun _ => rfl, fun some => absurd none some⟩
  · refine ⟨_, by rw [titleLines, if_neg (by simpa using none), if_neg (by omega)],
      fun empty => absurd empty none, fun _ => ⟨_, _, rfl, ?_, ?_⟩⟩
    · simp only [String.length_append, String.length_ofList, List.length_replicate]
      change 1 + (total - 2) + 1 = total
      omega
    · simp only [String.length_append, length_centred]
      change 2 + max (total - 4) title.length + 2 = _
      omega

/-! ### Whole tables -/

theorem unbroken_append {s t : String} : Unbroken (s ++ t) ↔ Unbroken s ∧ Unbroken t := by
  simp only [Unbroken, String.toList_append, List.forall_mem_append]

theorem unbroken_replicate {c : Char} (plain : isTextBreak c = false) (n : Nat) :
    Unbroken (String.ofList (List.replicate n c)) := by
  rw [Unbroken, String.toList_ofList]
  intro d member
  rwa [List.eq_of_mem_replicate member]

theorem unbroken_blanks (n : Nat) : Unbroken (blanks n) :=
  unbroken_replicate (by decide) n

section Padding

variable {shown : String} (unbroken : Unbroken shown) (width : Nat)
include unbroken

theorem unbroken_atLeft : Unbroken (atLeft width shown) :=
  unbroken_append.mpr ⟨unbroken, unbroken_blanks _⟩

theorem unbroken_atRight : Unbroken (atRight width shown) :=
  unbroken_append.mpr ⟨unbroken_blanks _, unbroken⟩

theorem unbroken_centred : Unbroken (centred width shown) :=
  unbroken_append.mpr ⟨unbroken_append.mpr ⟨unbroken_blanks _, unbroken⟩, unbroken_blanks _⟩

end Padding

theorem unbroken_lineOf {padded : List String} (unbroken : ∀ out ∈ padded, Unbroken out) :
    Unbroken (lineOf padded) := by
  induction padded with
  | nil => decide
  | cons out rest ih =>
    obtain ⟨first, others⟩ := List.forall_mem_cons.mp unbroken
    have behind := (unbroken_append.mp (ih others)).2
    rw [lineOf, List.map_cons, String.join_cons]
    exact unbroken_append.mpr ⟨by decide, unbroken_append.mpr
      ⟨unbroken_append.mpr ⟨unbroken_append.mpr ⟨by decide, first⟩, by decide⟩, behind⟩⟩

theorem unbroken_zipWith {pad : Nat → String → String} {cells : List String}
    (unbroken : ∀ cell ∈ cells, Unbroken cell)
    (kept : ∀ {shown}, Unbroken shown → ∀ width, Unbroken (pad width shown)) (widths : List Nat) :
    ∀ out ∈ List.zipWith pad widths cells, Unbroken out := by
  intro out member
  obtain ⟨j, bound, rfl⟩ := List.mem_iff_getElem.mp member
  rw [List.getElem_zipWith]
  exact kept (unbroken _ (List.getElem_mem _)) _

theorem unbroken_rowLine {row : List String} (unbroken : ∀ cell ∈ row, Unbroken cell)
    (widths : List Nat) : Unbroken (rowLine widths row) := by
  match widths, row with
  | [], _ => exact unbroken_lineOf (by simp)
  | _ :: _, [] => exact unbroken_lineOf (by simp)
  | w :: ws, cell :: cells =>
    obtain ⟨first, others⟩ := List.forall_mem_cons.mp unbroken
    exact unbroken_lineOf (List.forall_mem_cons.mpr
      ⟨unbroken_atLeft first w, unbroken_zipWith others unbroken_atRight ws⟩)

theorem unbroken_ruler {widths : List Nat} (columns : widths ≠ []) : Unbroken (ruler widths) := by
  have field : ∀ field ∈ dashes widths, ∀ c ∈ field, isTextBreak c = false := by
    intro field member c inside
    obtain ⟨w, -, rfl⟩ := List.mem_map.mp member
    rw [List.eq_of_mem_replicate inside]
    decide
  intro c member
  rw [toList_ruler columns, framed, List.mem_cons, List.mem_flatMap] at member
  obtain rfl | ⟨dash, inside, here⟩ := member
  · decide
  · rcases List.mem_append.mp here with here | here
    · exact field dash inside c here
    · rw [List.mem_singleton.mp here]
      decide

theorem unbroken_titleLines {total : Nat} {title : String} (unbroken : Unbroken title)
    {top : List String} (ok : titleLines total title = .ok top) : ∀ line ∈ top, Unbroken line := by
  rw [titleLines] at ok
  split at ok
  · cases ok
    simp
  split at ok
  · cases ok
  cases ok
  refine List.forall_mem_cons.mpr ⟨?_, List.forall_mem_singleton.mpr ?_⟩
  · exact unbroken_append.mpr ⟨unbroken_append.mpr
      ⟨by decide, unbroken_replicate (by decide) _⟩, by decide⟩
  · exact unbroken_append.mpr ⟨unbroken_append.mpr
      ⟨by decide, unbroken_centred unbroken _⟩, by decide⟩

/-- Whether a table has columns, as many cells in each row, and texts that each stand in one line. -/
structure Regular (t : Table) : Prop where
  columns : t.headers ≠ []
  full : ∀ row ∈ t.rows, row.length = t.headers.length
  title : Unbroken t.title
  headers : ∀ header ∈ t.headers, Unbroken header
  cells : ∀ row ∈ t.rows, ∀ cell ∈ row, Unbroken cell

instance (t : Table) : Decidable t.Regular :=
  decidable_of_iff (t.headers ≠ [] ∧ (∀ row ∈ t.rows, row.length = t.headers.length) ∧
      Unbroken t.title ∧ (∀ header ∈ t.headers, Unbroken header) ∧
      ∀ row ∈ t.rows, ∀ cell ∈ row, Unbroken cell)
    ⟨fun ⟨columns, full, title, headers, cells⟩ => ⟨columns, full, title, headers, cells⟩,
      fun regular => ⟨regular.columns, regular.full, regular.title, regular.headers, regular.cells⟩⟩

theorem ne_empty_of_length {line : String} (long : 4 ≤ line.length) : line ≠ "" := by
  rintro rfl
  exact absurd long (by decide)

/-- Something holds of all lines of a table if it does of those of the title, the ruler, the headers and
the rows. -/
theorem forall_lines {P : String → Prop} {top body : List String} {ruler head : String} :
    (∀ line ∈ top ++ [ruler, head, ruler] ++ body ++ [ruler], P line) ↔
      (∀ line ∈ top, P line) ∧ P ruler ∧ P head ∧ ∀ line ∈ body, P line := by
  simp only [List.forall_mem_append, List.forall_mem_cons]
  grind

theorem length_of_shows {ruler : String} {rows : List (List String)} {body : List String}
    (shows : List.Forall₂ (Shows ruler) body rows) : ∀ line ∈ body, line.length = ruler.length := by
  induction shows with
  | nil => simp
  | cons here _ ih => exact List.forall_mem_cons.mpr ⟨here.length, ih⟩

/-- A table is drawn below the lines of its title as rulers around a line that shows the headers, and a
line for each row that shows its cells. All lines are as long as the rulers exactly when no title is too
long for the columns. -/
theorem text_rectangular_iff {t : Table} (regular : t.Regular) :
    ∃ text top ruler head body, t.text = .ok text ∧
      Text.textLines text = top ++ [ruler, head, ruler] ++ body ++ [ruler] ∧
      (t.title = "" → top = []) ∧ Shows ruler head t.headers ∧ List.Forall₂ (Shows ruler) body t.rows ∧
      ((∀ line ∈ Text.textLines text, line.length = ruler.length) ↔
        t.title = "" ∨ t.title.length + 4 ≤ ruler.length) := by
  obtain ⟨widths, found, wide, each⟩ := widths_wide t regular.full
  have columns : widths ≠ [] := by
    rintro rfl
    exact regular.columns (List.forall₂_nil_right_iff.mp wide)
  have long := four_le_length_ruler columns
  obtain ⟨top, ok, untitled, titled⟩ := titleLines_ok long t.title
  have head := shows_headerLine wide columns
  have body : List.Forall₂ (Shows (ruler widths)) (t.rows.map (rowLine widths)) t.rows :=
    List.forall₂_map_left_iff.mpr (List.forall₂_same.mpr fun row member =>
      shows_rowLine (each row member) columns)
  have topLong : ∀ line ∈ top, 4 ≤ line.length := by
    by_cases none : t.title = ""
    · simp [untitled none]
    · obtain ⟨above, line, rfl, same, wider⟩ := titled none
      exact List.forall_mem_cons.mpr ⟨by omega, List.forall_mem_singleton.mpr (by omega)⟩
  have rows : ∀ line ∈ t.rows.map (rowLine widths), Unbroken line := by
    intro line member
    obtain ⟨row, some, rfl⟩ := List.mem_map.mp member
    exact unbroken_rowLine (regular.cells row some) widths
  have lengths := length_of_shows body
  have cut := textLines_intercalate
    (forall_lines.mpr ⟨unbroken_titleLines regular.title ok, unbroken_ruler columns,
      unbroken_lineOf (unbroken_zipWith regular.headers unbroken_centred widths), rows⟩)
    fun line member => ne_empty_of_length (forall_lines.mpr
      ⟨topLong, long, head.length ▸ long, fun line row => lengths line row ▸ long⟩ line member)
  refine ⟨_, top, ruler widths, headerLine widths t.headers, t.rows.map (rowLine widths), ?_, cut,
    untitled, head, body, ?_⟩
  · rw [text, lines, found]
    simp only [bind, Except.bind, ok]
    rfl
  · rw [cut, forall_lines]
    by_cases none : t.title = ""
    · simp only [untitled none, none, List.not_mem_nil, false_imp_iff, implies_true, true_and, true_or,
        iff_true]
      exact ⟨head.length, lengths⟩
    · obtain ⟨above, line, rfl, same, wider⟩ := titled none
      simp only [List.forall_mem_cons, same, wider, none, false_or, List.not_mem_nil]
      constructor
      · rintro ⟨⟨-, short, -⟩, -⟩
        omega
      · intro short
        exact ⟨⟨trivial, by omega, by simp⟩, trivial, head.length, lengths⟩

/-- A title that fits: the table is drawn in lines of one length. -/
theorem text_rectangular_entry :
    (Table.mk "Entry" ["Call", "Time"] [["load", "1.5"], ["load_all", "20.25"]]).Regular ∧
    ∃ text top ruler head body,
      (Table.mk "Entry" ["Call", "Time"] [["load", "1.5"], ["load_all", "20.25"]]).text = .ok text ∧
      Text.textLines text = top ++ [ruler, head, ruler] ++ body ++ [ruler] ∧
      ("Entry" = "" → top = []) ∧ Shows ruler head ["Call", "Time"] ∧
      List.Forall₂ (Shows ruler) body [["load", "1.5"], ["load_all", "20.25"]] ∧
      ((∀ line ∈ Text.textLines text, line.length = ruler.length) ↔
        "Entry" = "" ∨ "Entry".length + 4 ≤ ruler.length) :=
  ⟨by decide, text_rectangular_iff (by decide)⟩

/-- A title that does not fit: its line is longer than the others. -/
theorem text_longer_title :
    ∃ t : Table, t.Regular ∧ ∃ text, t.text = .ok text ∧
      ∃ line ∈ Text.textLines text, ∃ other ∈ Text.textLines text, line.length ≠ other.length :=
  ⟨⟨"ab", ["a"], []⟩, by decide, "+===+\n| ab |\n+---+\n| a |\n+---+\n+---+", by decide, "+===+", by decide,
    "| ab |", by decide, by decide⟩

end ProbeWeave.Text.Table
