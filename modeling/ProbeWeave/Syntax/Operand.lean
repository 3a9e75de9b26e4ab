import ProbeWeave.Syntax.Node

/-!
# Operands that certainly run

Of the expressions directly below an expression some run exactly once whenever it does, and
others run under a condition or repeatedly. `enteredParts` lists the former in the order in
which they run, and `withEntered` puts other expressions in their places; `skippedParts` lists
the latter.
-/

namespace ProbeWeave.Syntax

namespace DictItem

/-- The expressions of an entry. -/
def parts : DictItem → List Expr
  | pair key value => [key, value]
  | unpacked mapping => [mapping]

end DictItem

/-- Puts expressions in the places of those of dictionary entries. -/
def refillItems : List DictItem → List Expr → List DictItem
  | .pair _ _ :: items, key :: value :: parts => .pair key value :: refillItems items parts
  | .unpacked _ :: items, mapping :: parts => .unpacked mapping :: refillItems items parts
  | items, _ => items

/-- Puts expressions in the places of the values of keyword arguments. -/
def refillKeywords : List Keyword → List Expr → List Keyword
  | .mk id _ :: keywords, value :: parts => .mk id value :: refillKeywords keywords parts
  | keywords, _ => keywords

/-- Puts an expression in the place of an optional one. -/
def refillOption : Option Expr → List Expr → Option Expr × List Expr
  | some _, part :: parts => (some part, parts)
  | e, parts => (e, parts)

namespace Expr

/-- The operands that run exactly once whenever the expression does, in that order. -/
def enteredParts : Expr → List Expr
  | boolean _ operands => operands.take 1
  | named target value => [target, value]
  | binary left _ right => [left, right]
  | unary _ operand => [operand]
  | conditional test _ _ => [test]
  | dict items => items.flatMap DictItem.parts
  | set elements | list elements | tuple elements => elements
  | await value => [value]
  | yield value => value.toList
  | yieldFrom value => [value]
  | compare left _ comparators => left :: comparators.take 1
  | call _ callee arguments keywords => callee :: (arguments ++ keywords.map Keyword.value)
  | formatted value _ format => value :: format.toList
  | joined parts => parts
  | member value _ => [value]
  | subscript value index => [value, index]
  | starred value => [value]
  | slice lower upper step => lower.toList ++ upper.toList ++ step.toList
  | lambda .. | listComprehension .. | setComprehension .. | dictComprehension .. | generator ..
  | constant _ | name .. => []

/-- The parts that run under a condition or repeatedly. A comprehension is such a part whole. -/
def skippedParts : Expr → List Expr
  | boolean _ operands => operands.drop 1
  | conditional _ body otherwise => [body, otherwise]
  | compare _ _ comparators => comparators.drop 1
  | listComprehension element clauses => [listComprehension element clauses]
  | setComprehension element clauses => [setComprehension element clauses]
  | dictComprehension key value clauses => [dictComprehension key value clauses]
  | generator element clauses => [generator element clauses]
  | _ => []

/-- Puts expressions in the places of the operands that certainly run. -/
def withEntered : Expr → List Expr → Expr
  | boolean op (_ :: rest), [e] => boolean op (e :: rest)
  | named _ _, [target, value] => named target value
  | binary _ op _, [left, right] => binary left op right
  | unary op _, [operand] => unary op operand
  | conditional _ body otherwise, [test] => conditional test body otherwise
  | dict items, parts => dict (refillItems items parts)
  | set _, parts => set parts
  | list _, parts => list parts
  | tuple _, parts => tuple parts
  | await _, [value] => await value
  | yield (some _), [value] => yield (some value)
  | yieldFrom _, [value] => yieldFrom value
  | compare _ ops comparators, left :: first => compare left ops (first ++ comparators.drop 1)
  | call start _ arguments keywords, callee :: parts =>
    call start callee (parts.take arguments.length)
      (refillKeywords keywords (parts.drop arguments.length))
  | formatted _ conversion format, value :: parts =>
    formatted value conversion (refillOption format parts).1
  | joined _, parts => joined parts
  | member _ id, [value] => member value id
  | subscript _ _, [value, index] => subscript value index
  | starred _, [value] => starred value
  | slice lower upper step, parts =>
    let (lower, parts) := refillOption lower parts
    let (upper, parts) := refillOption upper parts
    slice lower upper (refillOption step parts).1
  | e, _ => e

theorem refillItems_parts (items : List DictItem) :
    refillItems items (items.flatMap DictItem.parts) = items := by
  induction items with
  | nil => rfl
  | cons item items ih => cases item <;> simp_all [DictItem.parts, refillItems]

theorem refillKeywords_values (keywords : List Keyword) :
    refillKeywords keywords (keywords.map Keyword.value) = keywords := by
  induction keywords with
  | nil => rfl
  | cons k keywords ih => cases k; simp_all [Keyword.value, refillKeywords]

/-- The operands put back in their places give the expression. -/
theorem withEntered_enteredParts (e : Expr) : e.withEntered e.enteredParts = e := by
  cases e with
  | boolean op operands => cases operands <;> simp [enteredParts, withEntered]
  | yield value => cases value <;> simp [enteredParts, withEntered]
  | compare left ops comparators => cases comparators <;> simp [enteredParts, withEntered]
  | dict items => simp [enteredParts, withEntered, refillItems_parts]
  | call start callee arguments keywords =>
    simp [enteredParts, withEntered, refillKeywords_values]
  | formatted value conversion format =>
    cases format <;> simp [enteredParts, withEntered, refillOption]
  | slice lower upper step =>
    cases lower <;> cases upper <;> cases step <;>
      simp [enteredParts, withEntered, refillOption]
  | _ => simp [enteredParts, withEntered]

theorem refillItems_parts_of_length {items : List DictItem} {parts : List Expr}
    (fits : parts.length = (items.flatMap DictItem.parts).length) :
    (refillItems items parts).flatMap DictItem.parts = parts := by
  induction items generalizing parts with
  | nil => cases parts <;> simp_all [refillItems]
  | cons item items ih =>
    cases item with
    | pair key value =>
      match parts, fits with
      | k :: v :: rest, fits =>
        simp only [refillItems, List.flatMap_cons, DictItem.parts, List.cons_append, List.nil_append]
        rw [ih (by simpa [DictItem.parts] using fits)]
      | [_], fits => simp [DictItem.parts] at fits
      | [], fits => simp [DictItem.parts] at fits
    | unpacked mapping =>
      match parts, fits with
      | m :: rest, fits =>
        simp only [refillItems, List.flatMap_cons, DictItem.parts, List.cons_append, List.nil_append]
        rw [ih (by simpa [DictItem.parts] using fits)]
      | [], fits => simp [DictItem.parts] at fits

theorem refillKeywords_values_of_length {keywords : List Keyword} {parts : List Expr}
    (fits : parts.length = keywords.length) :
    (refillKeywords keywords parts).map Keyword.value = parts := by
  induction keywords generalizing parts with
  | nil => cases parts <;> simp_all [refillKeywords]
  | cons k keywords ih =>
    cases k with
    | mk id value =>
      match parts, fits with
      | v :: rest, fits => simp [refillKeywords, Keyword.value, ih (by simpa using fits)]
      | [], fits => simp at fits

/-- What is put in the place of an optional expression, and what is left. -/
theorem refillOption_toList (e : Option Expr) (parts : List Expr)
    (fits : e.toList.length ≤ parts.length) :
    (refillOption e parts).1.toList = parts.take e.toList.length ∧
      (refillOption e parts).2 = parts.drop e.toList.length := by
  cases e with
  | none => simp [refillOption]
  | some e =>
    match parts, fits with
    | part :: parts, _ => simp [refillOption]
    | [], fits => simp at fits

/-- Other operands put in the places of those that certainly run are the ones that do then. -/
theorem enteredParts_withEntered {e : Expr} {parts : List Expr}
    (fits : parts.length = e.enteredParts.length) : (e.withEntered parts).enteredParts = parts := by
  cases e with
  | boolean op os => cases os <;> cases parts <;> simp_all [enteredParts, withEntered]
  | named target value =>
    match parts, fits with
    | [_, _], _ => rfl
  | binary =>
    match parts, fits with
    | [_, _], _ => rfl
  | unary | await | yieldFrom | member | starred | conditional =>
    match parts, fits with
    | [_], _ => rfl
  | subscript =>
    match parts, fits with
    | [_, _], _ => rfl
  | dict items => exact refillItems_parts_of_length fits
  | yield value =>
    cases value with
    | none => match parts, fits with
      | [], _ => rfl
    | some value => match parts, fits with
      | [_], _ => rfl
  | compare left ops comparators =>
    cases comparators with
    | nil => match parts, fits with
      | [_], _ => rfl
    | cons => match parts, fits with
      | [_, _], _ => rfl
  | call start callee arguments keywords =>
    match parts, fits with
    | c :: rest, fits =>
      simp only [enteredParts, withEntered, List.length_cons, List.length_append, List.length_map,
        Nat.add_right_cancel_iff] at fits ⊢
      rw [refillKeywords_values_of_length (by simp [fits]), List.take_append_drop]
  | formatted value conversion format =>
    cases format with
    | none => match parts, fits with
      | [_], _ => rfl
    | some => match parts, fits with
      | [_, _], _ => rfl
  | slice lower upper step =>
    simp only [enteredParts, List.length_append] at fits
    have first := refillOption_toList lower parts (by omega)
    have second := refillOption_toList upper (parts.drop lower.toList.length)
      (by rw [List.length_drop]; omega)
    have third := refillOption_toList step ((parts.drop lower.toList.length).drop upper.toList.length)
      (by rw [List.length_drop, List.length_drop]; omega)
    simp only [enteredParts, withEntered, first, second, third]
    rw [List.take_of_length_le (i := step.toList.length)
        (by rw [List.length_drop, List.length_drop]; omega),
      List.append_assoc, List.take_append_drop, List.take_append_drop]
  | set | list | tuple | joined => rfl
  | lambda | listComprehension | setComprehension | dictComprehension | generator | constant | name =>
    match parts, fits with
    | [], _ => rfl

theorem sizeOf_lt_of_mem_itemParts {item : DictItem} {e : Expr} (h : e ∈ item.parts) :
    sizeOf e < sizeOf item := by
  cases item <;> simp only [DictItem.parts, List.mem_cons, List.not_mem_nil, or_false] at h <;>
    grind

/-- The operands of an expression are smaller than the expression. -/
theorem sizeOf_lt_of_mem_enteredParts {e x : Expr} (h : x ∈ e.enteredParts) :
    sizeOf x < sizeOf e := by
  cases e <;> simp only [enteredParts, List.mem_cons, List.mem_append, List.mem_map,
    List.not_mem_nil, or_false, List.mem_flatMap] at h <;>
  grind [→ List.sizeOf_lt_of_mem, → Node.sizeOf_lt_of_mem_toList, Node.sizeOf_keyword_value_lt,
    → sizeOf_lt_of_mem_itemParts]

end Expr

end ProbeWeave.Syntax
